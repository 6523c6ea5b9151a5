import FacetSearch.Filter.Clause
import FacetSearch.Json.Printer
import FacetSearch.Json.Reader
import FacetSearch.Notice
import FacetSearch.Text.Integer

/-!
From filter specifications to filter clauses. A specification is a JSON object that says for a facet
which values it may have: a text, a list of texts, or a range of integers. One key is reserved for a
range of dates over two fields. Entries that say nothing usable are passed over.

When no entry constrains the type of the documents, a clause with the default types comes first.
-/

set_option autoImplicit false

namespace FacetSearch

structure FilterSettings where
  typeField : String := "type-facet"
  defaultTypes : List String := ["object", "description", "description-retro"]
  missingMarker : String := "__MISSING__"
  dateKey : String := "orig-date-facet"
  dateFromField : String := "orig-date-from-facet"
  dateToField : String := "orig-date-to-facet"
  strictRoot : Bool := false
  deriving DecidableEq, Repr

/-- Why a specification as a whole is refused. -/
structure FilterError where
  reason : String
  deriving DecidableEq, Repr

def FilterError.message (error : FilterError) : String :=
  "malformed filter specification: " ++ error.reason

namespace Json

/-- The integer of 64 bits in a member: a number, or a text that writes one. -/
def integerMember? (members : List (String × Json)) (key : String) : Option Int :=
  match member? members key with
  | some (integer n) => if -Int.pow 2 63 ≤ n ∧ n < Int.pow 2 63 then some n else none
  | some (string text) => Text.toInt64? (Text.trim text.toList)
  | _ => none

def flagMember (members : List (String × Json)) (key : String) : Bool :=
  match member? members key with
  | some (boolean value) => value
  | _ => false

end Json

namespace Filter

/-- A clause of an entry, and the tag that it gets. -/
structure TaggedClause where
  clause : FilterClause
  tag : String
  deriving DecidableEq, Repr

def skip {α : Type} (reason : FilterSkip) : Logged (Option α) := do
  Logged.note (.filterSkipped reason)
  return none

/-- The clause of a test, of missing values, or of both; without either the entry is passed over. -/
def combine (field : String) (test : Option FieldTest) (orMissing : Bool) :
    Logged (Option FilterClause) :=
  match FilterClause.combine? field test orMissing with
  | some clause => pure (some clause)
  | none => skip (.nothingToMatch field)

/-- The clause for one text. The marker asks for documents without a value. -/
def ofText (settings : FilterSettings) (field value : String) : Logged (Option FilterClause) :=
  if value = settings.missingMarker then combine field none true
  else if Text.allBlank value.toList then skip (.blankText field)
  else pure (some (.present field (.equals value)))

/-- The texts of a list; other values are passed over. -/
def textItems (field : String) : List Json → Logged (List String)
  | [] => pure []
  | .string text :: rest => do return text :: (← textItems field rest)
  | item :: rest => do
    Logged.note (.filterSkipped (.notAText field item.compact))
    textItems field rest

/-- The clause for a list. The marker in it includes documents without a value. -/
def ofList (settings : FilterSettings) (field : String) (items : List Json) :
    Logged (Option FilterClause) := do
  let texts ← textItems field items
  let values := texts.filter fun text =>
    text != settings.missingMarker && !Text.allBlank text.toList
  combine field (if values.isEmpty then none else some (.oneOf values))
    (texts.contains settings.missingMarker)

def ofRange (field : String) (members : List (String × Json)) : Logged (Option FilterClause) :=
  let test := match Json.integerMember? members "from", Json.integerMember? members "to" with
    | some start, some stop => some (FieldTest.between start stop)
    | _, _ => none
  combine field test (Json.flagMember members "missing")

def ofDates (settings : FilterSettings) : Json → Logged (Option FilterClause)
  | .object members =>
    match Json.integerMember? members "from", Json.integerMember? members "to" with
    | some start, some stop =>
      let range : DateRange :=
        ⟨start, stop, Json.flagMember members "exact", Json.flagMember members "missing"⟩
      pure (some (.dates settings.dateFromField settings.dateToField range))
    | _, _ => skip .datesNotIntegers
  | _ => skip .datesNotAnObject

def ofFacet (settings : FilterSettings) (field : String) : Json → Logged (Option FilterClause)
  | .string value => ofText settings field value
  | .array items => ofList settings field items
  | .object members => ofRange field members
  | other => skip (.unsupportedKind field other.kind)

def isNull : Json → Bool
  | .null => true
  | _ => false

/-- The clause of an entry, if it has a usable one. -/
def ofEntry (catalog : Catalog) (settings : FilterSettings) (key : String) (value : Json) :
    Logged (Option TaggedClause) := do
  if key.isEmpty || isNull value then
    skip (.noValue key)
  else if key = settings.dateKey then
    let clause ← ofDates settings value
    return clause.map (⟨·, catalog.facetTag settings.dateFromField⟩)
  else if !catalog.isFacet key then
    skip (.notAFacet key)
  else
    let clause ← ofFacet settings key value
    return clause.map (⟨·, catalog.facetTag key⟩)

def ofEntries (catalog : Catalog) (settings : FilterSettings) :
    List (String × Json) → Logged (List (String × TaggedClause))
  | [] => pure []
  | (key, value) :: rest => do
    let clause ← ofEntry catalog settings key value
    let later ← ofEntries catalog settings rest
    return (clause.map (key, ·)).toList ++ later

/-- The clause with the default types, unless there are none. -/
def defaultClause? (catalog : Catalog) (settings : FilterSettings) : Option TaggedClause :=
  if settings.defaultTypes.isEmpty then none
  else some ⟨.present settings.typeField (.oneOf settings.defaultTypes),
    catalog.facetTag settings.typeField⟩

/-- The clauses of a filter: the default types unless an entry constrains the type, and then the
entries in their order. -/
def clauses (catalog : Catalog) (settings : FilterSettings)
    (entries : List (String × TaggedClause)) : List TaggedClause :=
  let given := entries.map Prod.snd
  if entries.any (·.1 == settings.typeField) then given
  else (defaultClause? catalog settings).toList ++ given

/-- Clauses as parameters for the engine, or nothing when there are none. -/
def collect? (clauses : List TaggedClause) : Option FilterQueries :=
  let queries := clauses.foldl (fun queries tagged =>
    queries.insert tagged.clause.write (some tagged.tag)) FilterQueries.empty
  if queries.isEmpty then none else some queries

/-- Building a filter can fail, and the notices up to there are kept. -/
abbrev Building (α : Type) := ExceptT FilterError Logged α

/-- Refuses a specification, or takes it for an empty one if the settings allow that. -/
def malformed (settings : FilterSettings) (reason : String) : Building (Option FilterQueries) := do
  if settings.strictRoot then
    throw ⟨reason⟩
  else
    ExceptT.lift (Logged.note (.filterIgnored reason))
    return none

def build (catalog : Catalog) (settings : FilterSettings) (specification : Json) :
    Building (Option FilterQueries) :=
  match specification with
  | .object members => do
    let entries ← ExceptT.lift (ofEntries catalog settings members)
    return collect? (clauses catalog settings entries)
  | .null => pure none
  | other => malformed settings ("expected an object, got " ++ other.kind)

/-- The filter of a specification in JSON text. The reason for malformed text stops short of what
the JSON parser says about it. -/
def buildText (catalog : Catalog) (settings : FilterSettings) (json : String) :
    Building (Option FilterQueries) :=
  match Json.read? json with
  | some specification => build catalog settings specification
  | none => malformed settings "invalid JSON"

end Filter

end FacetSearch
