import FacetSearch.Filter.Builder
import FacetSearch.Snippet.Fragment

/-!
Configurations: the schema, the rules of filters and the style of snippets. A layer is what one file
says of it; everything in it may be left out.
-/

set_option autoImplicit false

namespace FacetSearch

structure SnippetSettings where
  padding : Nat := 60
  dividers : String := Dividers.standard
  maxFragments : Nat := 3
  preTag : String := "<em>"
  postTag : String := "</em>"
  deriving DecidableEq, Repr

def SnippetSettings.style (settings : SnippetSettings) : SnippetStyle :=
  ⟨settings.padding, .ofText settings.dividers, settings.maxFragments, settings.preTag,
    settings.postTag⟩

/-- A complete configuration. Its root is the directory of the closest file. -/
structure Config where
  schema : Schema := {}
  filter : FilterSettings := {}
  snippet : SnippetSettings := {}
  root : Option String := none
  deriving DecidableEq

structure FacetLayer where
  fields : Option (List String) := none
  tags : Option (Dict String) := none
  deriving DecidableEq

structure FilterLayer where
  typeField : Option String := none
  defaultTypes : Option (List String) := none
  missingMarker : Option String := none
  dateKey : Option String := none
  dateFromField : Option String := none
  dateToField : Option String := none
  strictRoot : Option Bool := none
  deriving DecidableEq, Repr

structure SnippetLayer where
  padding : Option Nat := none
  dividers : Option String := none
  maxFragments : Option Nat := none
  preTag : Option String := none
  postTag : Option String := none
  deriving DecidableEq, Repr

/-- What a file says. A root file keeps files of directories above it out. -/
structure ConfigLayer where
  root : Option Bool := none
  fields : Option (Dict FieldOptions) := none
  groups : Option Groups := none
  facets : Option FacetLayer := none
  filter : Option FilterLayer := none
  snippet : Option SnippetLayer := none
  deriving DecidableEq

inductive ConfigError where
  | unreadable (path reason : String)
  | malformed (path : String)
  | invalid (setting problem : String)
  deriving DecidableEq, Repr

/-- The wording of an error. What the TOML parser says about a malformed file is left out. -/
def ConfigError.message : ConfigError → String
  | unreadable path reason => "failed to read config file " ++ path ++ ": " ++ reason
  | malformed path => "failed to parse config file " ++ path ++ ": TOML parse error"
  | invalid setting problem => "invalid setting " ++ setting ++ ": " ++ problem

end FacetSearch
