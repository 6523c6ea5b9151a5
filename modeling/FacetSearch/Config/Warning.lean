import FacetSearch.Config.Basic

/-!
Warnings about configurations that can be used, but under which some searches or filters match
nothing.
-/

set_option autoImplicit false

namespace FacetSearch

/-- The settings of filters that name a facet. -/
inductive FacetSetting where
  | typeField
  | dateFromField
  | dateToField
  deriving DecidableEq, Repr

def FacetSetting.key : FacetSetting → String
  | typeField => "filter.type_field"
  | dateFromField => "filter.date_from_field"
  | dateToField => "filter.date_to_field"

inductive ConfigWarning where
  | noFields
  | undefinedMember (group member : String)
  | emptyGroup (group : String)
  | shadowedField (name : String)
  | cyclicGroup (group : String)
  | nonPositiveBoost (field : String) (boost : Binary)
  | notAFacet (setting : FacetSetting) (field : String)
  | noDividers
  deriving DecidableEq, Repr

namespace ConfigWarning

def text : ConfigWarning → String
  | noFields => "no searchable fields are defined"
  | undefinedMember group member =>
    "group '" ++ group ++ "' references undefined field '" ++ member ++ "'"
  | emptyGroup group => "group '" ++ group ++ "' has no members"
  | shadowedField name => "group '" ++ name ++ "' shadows the field of the same name"
  | cyclicGroup group => "group '" ++ group ++ "' contains itself"
  | nonPositiveBoost field boost =>
    "field '" ++ field ++ "' has non-positive boost " ++ boost.plain .single
  | notAFacet setting field =>
    setting.key ++ " '" ++ field ++ "' is not listed in [facets] fields"
  | noDividers => "snippet dividers are empty"

/-- What can be done about a warning, where there is one thing to do. -/
def hint? : ConfigWarning → Option String
  | noFields => some "add a [fields] section to .disco.toml"
  | undefinedMember .. => some "group members must be defined under [fields] or [groups]"
  | cyclicGroup _ => some "remove the group from its own member list"
  | notAFacet .. => some "add the field to [facets] fields, or the filter builder will skip it"
  | noDividers => some ("set [snippet] dividers, e.g. \"" ++ Dividers.standard ++ "\"")
  | _ => none

end ConfigWarning

namespace Schema

def fieldWarnings (name : String) (options : FieldOptions) : List ConfigWarning :=
  match options.boost with
  | some boost => if boost.isNonPositive then [.nonPositiveBoost name boost] else []
  | none => []

/-- Whether a name is a field or a group. -/
def defines (schema : Schema) (name : String) : Bool :=
  schema.fields.contains name || schema.groups.contains name

def groupWarnings (schema : Schema) (group : String) (members : List String) :
    List ConfigWarning :=
  (if schema.fields.contains group then [.shadowedField group] else [])
    ++ (if members.isEmpty then [.emptyGroup group] else [])
    ++ (members.filter (!schema.defines ·)).map (.undefinedMember group)
    ++ (if schema.groups.containsItself group then [.cyclicGroup group] else [])

end Schema

namespace Config

def facetSettings (filter : FilterSettings) : List (FacetSetting × String) :=
  [(.typeField, filter.typeField), (.dateFromField, filter.dateFromField),
    (.dateToField, filter.dateToField)]

def warnings (config : Config) : List ConfigWarning :=
  (if config.schema.fields.isEmpty then [.noFields] else [])
    ++ config.schema.fields.entries.flatMap (fun (name, options) =>
      Schema.fieldWarnings name options)
    ++ config.schema.groups.entries.flatMap (fun (group, members) =>
      config.schema.groupWarnings group members)
    ++ ((facetSettings config.filter).filter fun setting =>
      !config.schema.facets.contains setting.2).map (fun (setting, field) =>
        .notAFacet setting field)
    ++ (if config.snippet.dividers.isEmpty then [.noDividers] else [])

end Config

end FacetSearch
