import FacetSearch.Config.Basic
import FacetSearch.Toml.Printer

/-!
Writing a complete configuration as a file that says everything.
-/

set_option autoImplicit false

namespace FacetSearch

namespace Toml

def ofTexts (texts : List String) : Toml := array (texts.map string)

def ofDict {α : Type} (encode : α → Toml) (dict : Dict α) : Toml :=
  table (dict.map encode).entries

/-- An entry that may be missing. -/
def entryOf? {α : Type} (key : String) (encode : α → Toml) (value : Option α) :
    List (String × Toml) :=
  (value.map fun value => (key, encode value)).toList

end Toml

/-- The options of a field, without those that it does not have. -/
def FieldOptions.toToml (options : FieldOptions) : Toml :=
  .table (Toml.entryOf? "boost" .float options.boost
    ++ Toml.entryOf? "exact" .string options.exactVariant
    ++ Toml.entryOf? "stemmed" .string options.stemmedVariant)

def FilterSettings.toToml (settings : FilterSettings) : Toml :=
  .table [("type_field", .string settings.typeField),
    ("default_types", .ofTexts settings.defaultTypes),
    ("missing_marker", .string settings.missingMarker), ("date_key", .string settings.dateKey),
    ("date_from_field", .string settings.dateFromField),
    ("date_to_field", .string settings.dateToField), ("strict_root", .boolean settings.strictRoot)]

def SnippetSettings.toToml (settings : SnippetSettings) : Toml :=
  .table [("padding", .integer settings.padding), ("dividers", .string settings.dividers),
    ("max_fragments", .integer settings.maxFragments), ("pre_tag", .string settings.preTag),
    ("post_tag", .string settings.postTag)]

namespace Config

def toToml (config : Config) : Toml :=
  .table [("filter", config.filter.toToml), ("snippet", config.snippet.toToml),
    ("facets", .table [("fields", .ofTexts config.schema.facets),
      ("tags", .ofDict .string config.schema.tags)]),
    ("fields", .ofDict FieldOptions.toToml config.schema.fields),
    ("groups", .ofDict .ofTexts config.schema.groups)]

/-- The configuration as the text of a file. -/
def dump (config : Config) : String := config.toToml.document

end Config

end FacetSearch
