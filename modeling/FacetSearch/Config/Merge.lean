import FacetSearch.Config.Basic

/-!
Merging layers, the most important one first. The layers are laid over the defaults one after the
other, the least important one at the bottom, and each replaces what it says. Fields, groups and
tags are replaced one by one, the list of facets as a whole.
-/

set_option autoImplicit false

namespace FacetSearch

/-- The rules of filters with what a layer says in place of what was there. -/
def FilterSettings.overlay (settings : FilterSettings) (layer : FilterLayer) : FilterSettings where
  typeField := layer.typeField.getD settings.typeField
  defaultTypes := layer.defaultTypes.getD settings.defaultTypes
  missingMarker := layer.missingMarker.getD settings.missingMarker
  dateKey := layer.dateKey.getD settings.dateKey
  dateFromField := layer.dateFromField.getD settings.dateFromField
  dateToField := layer.dateToField.getD settings.dateToField
  strictRoot := layer.strictRoot.getD settings.strictRoot

def SnippetSettings.overlay (settings : SnippetSettings) (layer : SnippetLayer) :
    SnippetSettings where
  padding := layer.padding.getD settings.padding
  dividers := layer.dividers.getD settings.dividers
  maxFragments := layer.maxFragments.getD settings.maxFragments
  preTag := layer.preTag.getD settings.preTag
  postTag := layer.postTag.getD settings.postTag

/-- The schema with the entries of a layer in place of those of the same names. -/
def Schema.overlay (schema : Schema) (layer : ConfigLayer) : Schema :=
  let facets := layer.facets.getD {}
  { fields := (layer.fields.getD .empty).orElse schema.fields
    groups := (layer.groups.getD .empty).orElse schema.groups
    facets := facets.fields.getD schema.facets
    tags := (facets.tags.getD .empty).orElse schema.tags }

namespace Config

def overlay (config : Config) (layer : ConfigLayer) : Config :=
  { config with
    schema := config.schema.overlay layer
    filter := config.filter.overlay (layer.filter.getD {})
    snippet := config.snippet.overlay (layer.snippet.getD {}) }

/-- The configuration of some layers, whether its settings can be used or not. -/
def combine (root : Option String) (layers : List ConfigLayer) : Config :=
  layers.foldr (fun layer config => config.overlay layer) { root }

/-- The first boost that is no finite number, with its field. -/
def badBoost? (schema : Schema) : Option (String × Binary) :=
  schema.fields.entries.findSome? fun (name, options) =>
    match options.boost with
    | some boost => if boost.isFinite then none else some (name, boost)
    | none => none

/-- The settings that must not be blank, under their keys. -/
def requiredTexts (filter : FilterSettings) : List (String × String) :=
  [("filter.type_field", filter.typeField), ("filter.missing_marker", filter.missingMarker),
    ("filter.date_key", filter.dateKey), ("filter.date_from_field", filter.dateFromField),
    ("filter.date_to_field", filter.dateToField)]

/-- Whether the settings can be used: boosts are finite, names are not blank, and snippets have
fragments. -/
def check (config : Config) : Except ConfigError Unit :=
  match badBoost? config.schema with
  | some (name, boost) =>
    .error (.invalid ("fields." ++ name ++ ".boost")
      ("boost must be a finite number, got " ++ boost.plain .single))
  | none =>
    match (requiredTexts config.filter).find? fun entry => Text.allBlank entry.2.toList with
    | some (key, _) => .error (.invalid key "must not be empty")
    | none =>
      if config.snippet.maxFragments = 0 then
        .error (.invalid "snippet.max_fragments" "must be at least 1")
      else
        .ok ()

/-- The configuration of some layers. Without any of them the defaults hold. -/
def ofLayers (root : Option String) (layers : List ConfigLayer) : Except ConfigError Config := do
  let config := combine root layers
  config.check
  return config

end Config

end FacetSearch
