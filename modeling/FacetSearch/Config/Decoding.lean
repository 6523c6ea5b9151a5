import FacetSearch.Config.Basic
import FacetSearch.Toml.Reader

/-!
Reading layers from TOML. Unknown keys are passed over, except in the options of a field. A section
with fixed keys may also be written as an array of its values in order, of which the last ones may
be missing.
-/

set_option autoImplicit false

namespace FacetSearch

namespace Toml

def text? : Toml → Option String
  | string value => some value
  | _ => none

def flag? : Toml → Option Bool
  | boolean value => some value
  | _ => none

/-- A natural number of 64 bits. -/
def natural? : Toml → Option Nat
  | integer n => if 0 ≤ n ∧ n < Int.pow 2 64 then some n.toNat else none
  | _ => none

/-- A number of 32 bits: floating point, or an integer of 64 bits with or without sign. -/
def single? : Toml → Option Binary
  | float value => some (value.convert .single)
  | integer n => if -Int.pow 2 63 ≤ n ∧ n < Int.pow 2 64 then some (.ofInt .single n) else none
  | _ => none

def texts? : Toml → Option (List String)
  | array items => items.mapM text?
  | _ => none

/-- One text or an array of texts. -/
def oneOrMoreTexts? : Toml → Option (List String)
  | string value => some [value]
  | other => other.texts?

/-- The key of the text of a moment, where a table is expected. -/
def momentKey : String := "$__toml_private_datetime"

def entries? : Toml → Option (List (String × Toml))
  | table entries => some entries
  | moment text => some [(momentKey, string text)]
  | _ => none

/-- A table with any keys and values of one kind. -/
def dict? {α : Type} (decode : Toml → Option α) (value : Toml) : Option (Dict α) := do
  let entries ← value.entries?
  let decoded ← entries.mapM fun (key, value) => (decode value).map (key, ·)
  return .ofList decoded

/-- The values of the given keys, of which each may be missing. -/
def section? (keys : List String) : Toml → Option (List (Option Toml))
  | array items => some ((List.range keys.length).map (items[·]?))
  | other => other.entries?.map fun entries => keys.map fun key => entries.lookup key

def optional? {α : Type} (decode : Toml → Option α) : Option Toml → Option (Option α)
  | none => some none
  | some value => (decode value).map some

end Toml

def FieldOptions.keys : List String := ["boost", "exact", "stemmed"]

def FieldOptions.ofToml? (value : Toml) : Option FieldOptions := do
  if (value.entries?.getD []).any fun entry => !FieldOptions.keys.contains entry.1 then none
  match ← value.section? FieldOptions.keys with
  | [boost, exactVariant, stemmedVariant] =>
    return ⟨← Toml.optional? Toml.single? boost, ← Toml.optional? Toml.text? exactVariant,
      ← Toml.optional? Toml.text? stemmedVariant⟩
  | _ => none

def FacetLayer.ofToml? (value : Toml) : Option FacetLayer := do
  match ← value.section? ["fields", "tags"] with
  | [fields, tags] =>
    return ⟨← Toml.optional? Toml.texts? fields,
      ← Toml.optional? (Toml.dict? Toml.text?) tags⟩
  | _ => none

def FilterLayer.keys : List String :=
  ["type_field", "default_types", "missing_marker", "date_key", "date_from_field", "date_to_field",
    "strict_root"]

def FilterLayer.ofToml? (value : Toml) : Option FilterLayer := do
  match ← value.section? FilterLayer.keys with
  | [typeField, defaultTypes, missingMarker, dateKey, dateFromField, dateToField, strictRoot] =>
    return ⟨← Toml.optional? Toml.text? typeField, ← Toml.optional? Toml.texts? defaultTypes,
      ← Toml.optional? Toml.text? missingMarker, ← Toml.optional? Toml.text? dateKey,
      ← Toml.optional? Toml.text? dateFromField, ← Toml.optional? Toml.text? dateToField,
      ← Toml.optional? Toml.flag? strictRoot⟩
  | _ => none

def SnippetLayer.keys : List String :=
  ["padding", "dividers", "max_fragments", "pre_tag", "post_tag"]

def SnippetLayer.ofToml? (value : Toml) : Option SnippetLayer := do
  match ← value.section? SnippetLayer.keys with
  | [padding, dividers, maxFragments, preTag, postTag] =>
    return ⟨← Toml.optional? Toml.natural? padding, ← Toml.optional? Toml.text? dividers,
      ← Toml.optional? Toml.natural? maxFragments, ← Toml.optional? Toml.text? preTag,
      ← Toml.optional? Toml.text? postTag⟩
  | _ => none

def ConfigLayer.keys : List String := ["root", "fields", "groups", "facets", "filter", "snippet"]

def ConfigLayer.ofToml? (value : Toml) : Option ConfigLayer := do
  match ← value.section? ConfigLayer.keys with
  | [root, fields, groups, facets, filter, snippet] =>
    return ⟨← Toml.optional? Toml.flag? root,
      ← Toml.optional? (Toml.dict? FieldOptions.ofToml?) fields,
      ← Toml.optional? (Toml.dict? Toml.oneOrMoreTexts?) groups,
      ← Toml.optional? FacetLayer.ofToml? facets, ← Toml.optional? FilterLayer.ofToml? filter,
      ← Toml.optional? SnippetLayer.ofToml? snippet⟩
  | _ => none

/-- Reads the text of a file; the path is for the error. -/
def ConfigLayer.parse (path contents : String) : Except ConfigError ConfigLayer :=
  match (Toml.read? contents).bind ConfigLayer.ofToml? with
  | some layer => .ok layer
  | none => .error (.malformed path)

end FacetSearch
