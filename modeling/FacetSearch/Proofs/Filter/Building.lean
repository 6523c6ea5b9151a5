import FacetSearch.Proofs.Filter.Meaning

/-!
The clauses of a filter ask of documents what its specification asks. Each entry with a meaning
gives one clause, which states this meaning, and the others give none
(`Filter.exists_clause_of_means`); the clauses are collected with the one for default types where no
entry constrains the type.
-/

set_option autoImplicit false

namespace FacetSearch

namespace FilterClause

variable {field : String} {test : Option FieldTest} {orMissing : Bool} {clause : FilterClause}

/-- A clause asks for its test or for no values. -/
theorem holds_of_combine?_eq_some (combined : combine? field test orMissing = some clause)
    (document : Document) : clause.condition.holds document = true ↔
      (∃ given, test = some given ∧ given.Asks field document) ∨
        orMissing = true ∧ document.Lacks field := by
  cases test with
  | none =>
      cases orMissing with
      | false => cases combined
      | true =>
          cases combined
          simpa [condition] using Condition.holds_missing document field
  | some given =>
      have tested := FieldTest.holds_condition field document given
      cases orMissing with
      | false =>
          cases combined
          simpa [condition] using tested
      | true =>
          cases combined
          have lacks := Condition.holds_lacking document [field]
          simp only [List.mem_singleton, forall_eq] at lacks
          simp [condition, Condition.holds_any, tested, lacks, or_comm]

theorem legible_of_combine?_eq_some (named : IsFieldName field)
    (usable : ∀ given, test = some given → given ≠ .oneOf [])
    (combined : combine? field test orMissing = some clause) : clause.Legible := by
  cases test with
  | none =>
      cases orMissing with
      | false => cases combined
      | true =>
          cases combined
          exact named
  | some given =>
      cases orMissing with
      | false =>
          cases combined
          exact ⟨named, usable given rfl⟩
      | true =>
          cases combined
          exact ⟨named, usable given rfl⟩

end FilterClause

/-- What a clause states: it can be read, and it holds of the documents of a meaning. -/
structure FilterClause.States (clause : FilterClause) (meaning : Document → Prop) : Prop where
  legible : clause.Legible
  holds : ∀ document, clause.condition.holds document = true ↔ meaning document

namespace Filter

open Json

variable {settings : FilterSettings} {field : String}

theorem combine_result (field : String) (test : Option FieldTest) (orMissing : Bool) :
    (combine field test orMissing).result = FilterClause.combine? field test orMissing := by
  unfold combine
  cases FilterClause.combine? field test orMissing <;> rfl

/-- A test, a wish for documents without values, or both, with a meaning. -/
theorem exists_clause_of_combine {test : Option FieldTest} {orMissing : Bool}
    {meaning : Document → Prop} (named : IsFieldName field)
    (usable : ∀ given, test = some given → given ≠ .oneOf [])
    (given : test ≠ none ∨ orMissing = true) (means : ∀ document, meaning document ↔
      (∃ given, test = some given ∧ given.Asks field document) ∨
        orMissing = true ∧ document.Lacks field) :
    ∃ clause, (combine field test orMissing).result = some clause ∧ clause.States meaning := by
  have made : ∃ clause, FilterClause.combine? field test orMissing = some clause := by
    cases test with
    | none =>
        cases orMissing with
        | false => simp at given
        | true => exact ⟨_, rfl⟩
    | some _ => cases orMissing <;> exact ⟨_, rfl⟩
  obtain ⟨clause, combined⟩ := made
  refine ⟨clause, by rw [combine_result, combined],
    FilterClause.legible_of_combine?_eq_some named usable combined, fun document => ?_⟩
  rw [means, FilterClause.holds_of_combine?_eq_some combined]

theorem mem_textItems {items : List Json} {text : String} :
    text ∈ (textItems field items).result ↔ .string text ∈ items := by
  induction items with
  | nil => simp [textItems]
  | cons item rest ih =>
      cases item with
      | string other => simp [textItems, ih]
      | _ => simp [textItems, ih]

/-- The texts of a list that name values. -/
def valuesOf (settings : FilterSettings) (field : String) (items : List Json) : List String :=
  (textItems field items).result.filter fun text =>
    text != settings.missingMarker && !Text.allBlank text.toList

theorem mem_valuesOf {items : List Json} {value : String} :
    value ∈ valuesOf settings field items ↔ .string value ∈ items ∧
    IsValue settings value := by
  simp [valuesOf, mem_textItems, IsValue]

/-- The test for some values, if there are any. -/
def testOf (values : List String) : Option FieldTest :=
  if values.isEmpty then none else some (.oneOf values)

theorem testOf_ne_oneOf_nil {values : List String} {given : FieldTest}
    (made : testOf values = some given) : given ≠ .oneOf [] := by
  cases values with
  | nil => cases made
  | cons value rest =>
      cases made
      simp

theorem asks_testOf_iff (values : List String) (document : Document) :
    (∃ given, testOf values = some given ∧ given.Asks field document) ↔
      ∃ value ∈ values, document.HasValue field value := by
  cases values with
  | nil => simp [testOf]
  | cons value rest => simp [testOf, FieldTest.Asks]

theorem ofFacet_array_result (settings : FilterSettings) (field : String) (items : List Json) :
    (ofFacet settings field (.array items)).result
      = (combine field (testOf (valuesOf settings field items))
          ((textItems field items).result.contains settings.missingMarker)).result := rfl

/-- The test of a range, if both of its ends are integers. -/
def rangeOf (members : List (String × Json)) : Option FieldTest :=
  match integerMember? members "from", integerMember? members "to" with
  | some start, some stop => some (.between start stop)
  | _, _ => none

theorem ofFacet_object (settings : FilterSettings) (field : String)
    (members : List (String × Json)) : ofFacet settings field (.object members)
      = combine field (rangeOf members) (flagMember members "missing") := rfl

theorem rangeOf_eq_some {members : List (String × Json)} {start stop : Int}
    (first : HasInteger members "from" start) (last : HasInteger members "to" stop) :
    rangeOf members = some (.between start stop) := by
  rw [rangeOf, integerMember?_eq_some_iff.mpr first, integerMember?_eq_some_iff.mpr last]

theorem rangeOf_eq_none {members : List (String × Json)}
    (half : ¬ ∃ start stop, HasInteger members "from" start ∧ HasInteger members "to" stop) :
    rangeOf members = none := by
  unfold rangeOf
  split
  · rename_i start stop first last
    exact absurd ⟨start, stop, integerMember?_eq_some_iff.mp first,
      integerMember?_eq_some_iff.mp last⟩ half
  · rfl

/-- A value with a meaning gives a clause that states it. -/
theorem exists_clause_of_facetMeans {value : Json} {meaning : Document → Prop}
    (named : IsFieldName field) (means : FacetMeans settings field value meaning) :
    ∃ clause, (ofFacet settings field value).result = some clause ∧ clause.States meaning := by
  cases means with
  | missing =>
      have clause : ofFacet settings field (.string settings.missingMarker)
          = combine field none true := by
        rw [ofFacet, ofText, if_pos rfl]
      rw [clause]
      exact exists_clause_of_combine named nofun (.inr rfl) (by simp)
  | @text value wanted =>
      have clause : ofFacet settings field (.string value)
          = pure (some (.present field (.equals value))) := by
        rw [ofFacet, ofText, if_neg wanted.1, wanted.2]
        rfl
      rw [clause]
      exact ⟨_, rfl, ⟨named, nofun⟩, fun document =>
        Condition.holds_equals document field value⟩
  | @list items usable =>
      rw [ofFacet_array_result]
      refine exists_clause_of_combine named (fun given => testOf_ne_oneOf_nil) ?_ fun document => ?_
      · obtain ⟨text, member, value | marker⟩ := usable
        · have inside : text ∈ valuesOf settings field items :=
            mem_valuesOf.mpr ⟨member, value⟩
          refine .inl ?_
          cases values : valuesOf settings field items with
          | nil => rw [values] at inside; cases inside
          | cons _ _ => simp [testOf]
        · rw [marker] at member
          exact .inr (List.contains_iff_mem.mpr (mem_textItems.mpr member))
      · rw [asks_testOf_iff, List.contains_iff_mem, mem_textItems]
        simp only [mem_valuesOf, and_assoc]
  | @range members start stop first last =>
      rw [ofFacet_object, rangeOf_eq_some first last]
      refine exists_clause_of_combine named nofun (.inl nofun) fun document => ?_
      rw [flagMember_eq_true_iff]
      simp [FieldTest.Asks]
  | @missingRange members half missing =>
      rw [ofFacet_object, rangeOf_eq_none half, flagMember_eq_true_iff.mpr missing]
      exact exists_clause_of_combine named nofun (.inr rfl) (by simp)

/-- A value that gives a clause has a meaning. -/
theorem exists_facetMeans_of_ofFacet {value : Json} {clause : FilterClause}
    (made : (ofFacet settings field value).result = some clause) :
    ∃ meaning, FacetMeans settings field value meaning := by
  cases value with
  | string text =>
      by_cases marker : text = settings.missingMarker
      · rw [marker]
        exact ⟨_, .missing⟩
      · by_cases blank : Text.allBlank text.toList = true
        · rw [ofFacet, ofText, if_neg marker, if_pos blank] at made
          cases made
        · exact ⟨_, .text ⟨marker, by simpa using blank⟩⟩
  | array items =>
      refine ⟨_, .list ?_⟩
      rw [ofFacet_array_result, combine_result] at made
      cases values : valuesOf settings field items with
      | cons value rest =>
          have inside := mem_valuesOf.mp (values ▸ List.mem_cons_self)
          exact ⟨value, inside.1, .inl inside.2⟩
      | nil =>
          cases marked : (textItems field items).result.contains settings.missingMarker with
          | true => exact ⟨_, mem_textItems.mp (List.contains_iff_mem.mp marked), .inr rfl⟩
          | false =>
              rw [values, marked] at made
              cases made
  | object members =>
      by_cases whole : ∃ start stop, HasInteger members "from" start ∧
        HasInteger members "to" stop
      · obtain ⟨start, stop, first, last⟩ := whole
        exact ⟨_, .range first last⟩
      · by_cases missing : HasFlag members "missing"
        · exact ⟨_, .missingRange whole missing⟩
        · have unmarked : flagMember members "missing" = false := by
            rw [Bool.eq_false_iff]
            exact fun marked => missing (flagMember_eq_true_iff.mp marked)
          rw [ofFacet_object, rangeOf_eq_none whole, unmarked, combine_result] at made
          cases made
  | null => cases made
  | boolean value => cases made
  | integer value => cases made
  | float value => cases made

theorem holds_dates (members : List (String × Json)) (start stop : Int) (document : Document) :
    (DateRange.condition ⟨start, stop, flagMember members "exact", flagMember members "missing"⟩
      settings.dateFromField settings.dateToField).holds document = true ↔
        datesMeaning settings members start stop document := by
  have since := Condition.holds_from document settings.dateFromField start
  have upTo := Condition.holds_upTo document settings.dateToField stop
  have noFirst := Condition.holds_lacking document [settings.dateFromField]
  have noLast := Condition.holds_lacking document [settings.dateToField]
  have neither := Condition.holds_lacking document [settings.dateFromField, settings.dateToField]
  have first := Condition.holds_present document settings.dateFromField
  have last := Condition.holds_present document settings.dateToField
  simp only [List.forall_mem_cons, List.not_mem_nil, false_implies, implies_true,
    and_true] at noFirst noLast neither
  unfold datesMeaning DateRange.condition
  rw [← flagMember_eq_true_iff, ← flagMember_eq_true_iff]
  cases flagMember members "exact" <;> cases flagMember members "missing"
  all_goals
    simp [Condition.holds_all, Condition.holds_any, since, upTo, noFirst, noLast,
      neither, first, last]

/-- The names that filters write are field names. -/
structure HasFieldNames (catalog : Catalog) (settings : FilterSettings) : Prop where
  facets : ∀ name, catalog.isFacet name = true → IsFieldName name
  types : IsFieldName settings.typeField
  dateFrom : IsFieldName settings.dateFromField
  dateTo : IsFieldName settings.dateToField

variable {catalog : Catalog}

theorem isNull_of_facetMeans {value : Json} {meaning : Document → Prop}
    (means : FacetMeans settings field value meaning) : isNull value = false := by
  cases means <;> rfl

theorem ofEntry_facet {key : String} {value : Json}
    (given : key ≠ "") (present : isNull value = false) (plain : key ≠ settings.dateKey)
    (facet : catalog.isFacet key = true) : (ofEntry catalog settings key value).result
      = (ofFacet settings key value).result.map (⟨·, catalog.facetTag key⟩) := by
  have passes : (key.isEmpty || isNull value) = false := by simpa [present] using given
  rw [ofEntry, passes, if_neg Bool.false_ne_true, if_neg plain, facet]
  rfl

theorem ofEntry_dates {value : Json}
    (given : settings.dateKey ≠ "") (present : isNull value = false) :
    (ofEntry catalog settings settings.dateKey value).result
      = (ofDates settings value).result.map
        (⟨·, catalog.facetTag settings.dateFromField⟩) := by
  have passes : (settings.dateKey.isEmpty || isNull value) = false := by simpa [present] using given
  rw [ofEntry, passes, if_neg Bool.false_ne_true, if_pos rfl]
  rfl

theorem ofDates_range {members : List (String × Json)} {start stop : Int}
    (first : HasInteger members "from" start) (last : HasInteger members "to" stop) :
    (ofDates settings (.object members)).result
      = some (.dates settings.dateFromField settings.dateToField
      ⟨start, stop, flagMember members "exact", flagMember members "missing"⟩) := by
  rw [ofDates, integerMember?_eq_some_iff.mpr first, integerMember?_eq_some_iff.mpr last]
  rfl

/-- An entry with a meaning gives a clause that states it. -/
theorem exists_clause_of_means (named : HasFieldNames catalog settings) {key : String}
    {value : Json} {meaning : Document → Prop}
    (means : Means catalog settings (key, value) meaning) :
    ∃ tagged, (ofEntry catalog settings key value).result = some tagged ∧
      tagged.clause.States meaning := by
  cases means with
  | facet given plain facet means =>
      obtain ⟨clause, made, states⟩ :=
        exists_clause_of_facetMeans (named.facets key facet) means
      refine ⟨⟨clause, catalog.facetTag key⟩, ?_, states⟩
      rw [ofEntry_facet given (isNull_of_facetMeans means) plain facet, made, Option.map_some]
  | @dates members start stop given first last =>
      refine ⟨⟨.dates settings.dateFromField settings.dateToField
        ⟨start, stop, flagMember members "exact", flagMember members "missing"⟩,
          catalog.facetTag settings.dateFromField⟩, ?_, ?_⟩
      · rw [ofEntry_dates given rfl, ofDates_range first last, Option.map_some]
      · exact ⟨⟨named.dateFrom, named.dateTo⟩, holds_dates members start stop⟩

/-- An entry that gives a clause has a meaning. -/
theorem exists_means_of_ofEntry {key : String} {value : Json} {tagged : TaggedClause}
    (made : (ofEntry catalog settings key value).result = some tagged) :
    ∃ meaning, Means catalog settings (key, value) meaning := by
  by_cases absent : (key.isEmpty || isNull value) = true
  · rw [ofEntry, if_pos absent] at made
    cases made
  · simp only [Bool.or_eq_true, not_or, Bool.not_eq_true] at absent
    have given : key ≠ "" := by simpa using absent.1
    by_cases dates : key = settings.dateKey
    · subst dates
      rw [ofEntry_dates given absent.2, Option.map_eq_some_iff] at made
      obtain ⟨clause, made, _⟩ := made
      cases value with
      | object members =>
          cases first : integerMember? members "from" with
          | none =>
              rw [ofDates, first] at made
              cases made
          | some start =>
              cases last : integerMember? members "to" with
              | none =>
                  rw [ofDates, first, last] at made
                  cases made
              | some stop =>
                  exact ⟨_, .dates given (integerMember?_eq_some_iff.mp first)
                    (integerMember?_eq_some_iff.mp last)⟩
      | _ => cases made
    · by_cases facet : catalog.isFacet key = true
      · rw [ofEntry_facet given absent.2 dates facet, Option.map_eq_some_iff] at made
        obtain ⟨clause, made, _⟩ := made
        obtain ⟨meaning, means⟩ := exists_facetMeans_of_ofFacet made
        exact ⟨meaning, .facet given dates facet means⟩
      · have passes : (key.isEmpty || isNull value) = false := by simpa [absent.2] using given
        rw [ofEntry, passes, if_neg Bool.false_ne_true, if_neg dates,
          if_pos (by simpa using facet)] at made
        cases made

/-- The clauses of entries, each with the key of its entry. -/
theorem mem_ofEntries {members : List (String × Json)} {key : String} {tagged : TaggedClause} :
    (key, tagged) ∈ (ofEntries catalog settings members).result ↔
      ∃ value, (key, value) ∈ members ∧
        (ofEntry catalog settings key value).result = some tagged := by
  induction members with
  | nil => simp [ofEntries]
  | cons entry rest ih =>
      obtain ⟨other, held⟩ := entry
      have here :
          (key, tagged) ∈ ((ofEntry catalog settings other held).result.map (other,
            ·)).toList ↔
          key = other ∧ (ofEntry catalog settings other held).result = some tagged := by
        cases (ofEntry catalog settings other held).result <;> simp [eq_comm]
      simp only [ofEntries, Logged.bind_result, Logged.pure_result, List.mem_append, here, ih]
      constructor
      · rintro (⟨rfl, made⟩ | ⟨value, member, made⟩)
        · exact ⟨held, List.mem_cons_self, made⟩
        · exact ⟨value, List.mem_cons_of_mem _ member, made⟩
      · rintro ⟨value, member, made⟩
        rcases List.mem_cons.mp member with same | later
        · cases same
          exact .inl ⟨rfl, made⟩
        · exact .inr ⟨value, later, made⟩

/-- The texts of the clauses of a filter. -/
def textsOf : Option FilterQueries → List String
  | none => []
  | some queries => queries.clauses.map Prod.fst

theorem mem_insert {queries : FilterQueries} {clause text : String} {tag : Option String} :
    text ∈ (queries.insert clause tag).clauses.map Prod.fst ↔
      text = clause ∨ text ∈ queries.clauses.map Prod.fst := by
  unfold FilterQueries.insert
  split
  · rename_i known
    have same : (queries.clauses.map fun entry =>
        if entry.1 = clause then (clause, tag) else entry).map Prod.fst
        = queries.clauses.map Prod.fst := by
      rw [List.map_map]
      refine List.map_congr_left fun entry _ => ?_
      by_cases equal : entry.1 = clause <;> simp [equal]
    rw [same]
    refine ⟨.inr, ?_⟩
    rintro (rfl | member)
    · exact known
    · exact member
  · rw [List.map_append, List.mem_append, or_comm]
    simp

theorem mem_foldl_insert (clauses : List TaggedClause) (queries : FilterQueries) (text : String) :
    text ∈ (clauses.foldl (fun queries tagged =>
      queries.insert tagged.clause.write (some tagged.tag)) queries).clauses.map Prod.fst ↔
        (∃ tagged ∈ clauses, tagged.clause.write = text) ∨
          text ∈ queries.clauses.map Prod.fst := by
  induction clauses generalizing queries with
  | nil => simp
  | cons tagged rest ih =>
      rw [List.foldl_cons, ih, mem_insert]
      simp only [List.exists_mem_cons_iff, or_assoc, eq_comm]
      exact or_left_comm

/-- Collecting keeps the texts of all clauses, and a filter without clauses has none. -/
theorem mem_textsOf_collect? {clauses : List TaggedClause} {text : String} :
    text ∈ textsOf (collect? clauses) ↔ ∃ tagged ∈ clauses, tagged.clause.write = text := by
  have all := mem_foldl_insert clauses FilterQueries.empty text
  have absent : text ∉ FilterQueries.empty.clauses.map Prod.fst := nofun
  rw [or_iff_left absent] at all
  rw [← all]
  unfold collect?
  generalize clauses.foldl _ FilterQueries.empty = queries
  by_cases empty : queries.isEmpty = true
  · have given : queries.clauses = [] := List.isEmpty_iff.mp empty
    simp [empty, textsOf, given]
  · simp [empty, textsOf]

theorem build_object (catalog : Catalog) (settings : FilterSettings)
    (members : List (String × Json)) : (build catalog settings (.object members)).run.result
      = .ok (collect? (clauses catalog settings (ofEntries catalog settings members).result)) := rfl

section Specification

variable {members : List (String × Json)} (named : HasFieldNames catalog settings)

include named

theorem exists_mem_ofEntries_of_means {key : String} {value : Json} {meaning : Document → Prop}
    (member : (key, value) ∈ members) (means : Means catalog settings (key, value) meaning) :
    ∃ tagged, (key, tagged) ∈ (ofEntries catalog settings members).result ∧
      tagged.clause.States meaning := by
  obtain ⟨tagged, made, states⟩ := exists_clause_of_means named means
  exact ⟨tagged, mem_ofEntries.mpr ⟨value, member, made⟩, states⟩

theorem exists_means_of_mem_ofEntries {key : String} {tagged : TaggedClause}
    (member : (key, tagged) ∈ (ofEntries catalog settings members).result) :
    ∃ value meaning, (key, value) ∈ members ∧ Means catalog settings (key, value) meaning ∧
      tagged.clause.States meaning := by
  obtain ⟨value, given, made⟩ := mem_ofEntries.mp member
  obtain ⟨meaning, means⟩ := exists_means_of_ofEntry made
  obtain ⟨other, same, states⟩ := exists_clause_of_means named means
  rw [made, Option.some_inj] at same
  exact ⟨value, meaning, given, means, same ▸ states⟩

theorem constrainsType_iff : ConstrainsType catalog settings members ↔
    (ofEntries catalog settings members).result.any (·.1 == settings.typeField) = true := by
  rw [List.any_eq_true]
  constructor
  · rintro ⟨value, meaning, member, means⟩
    obtain ⟨tagged, made, _⟩ := exists_mem_ofEntries_of_means named member means
    exact ⟨_, made, beq_self_eq_true _⟩
  · rintro ⟨⟨key, tagged⟩, made, same⟩
    obtain rfl : key = settings.typeField := by simpa using same
    obtain ⟨value, meaning, member, means, _⟩ := exists_means_of_mem_ofEntries named made
    exact ⟨value, meaning, member, means⟩

theorem states_default (given : settings.defaultTypes ≠ []) :
    FilterClause.States (.present settings.typeField (.oneOf settings.defaultTypes)) fun document =>
      ∃ type ∈ settings.defaultTypes, document.HasValue settings.typeField type where
  legible := ⟨named.types, by simpa using given⟩
  holds document := Condition.holds_oneOf document settings.typeField settings.defaultTypes

/-- Every clause states the meaning of an entry, or asks for the default types where no entry
constrains the type. -/
theorem mem_clauses_cases {tagged : TaggedClause}
    (member : tagged ∈ clauses catalog settings (ofEntries catalog settings members).result) :
    (∃ entry ∈ members, ∃ meaning, Means catalog settings entry meaning ∧
      tagged.clause.States meaning) ∨
      ¬ ConstrainsType catalog settings members ∧ settings.defaultTypes ≠ [] ∧
        tagged.clause.States fun document =>
          ∃ type ∈ settings.defaultTypes, document.HasValue settings.typeField type := by
  have ofEntry : tagged ∈ (ofEntries catalog settings members).result.map Prod.snd →
      ∃ entry ∈ members, ∃ meaning, Means catalog settings entry meaning ∧
        tagged.clause.States meaning := by
    intro given
    obtain ⟨⟨key, _⟩, made, rfl⟩ := List.mem_map.mp given
    obtain ⟨value, meaning, listed, means, states⟩ := exists_means_of_mem_ofEntries named made
    exact ⟨_, listed, meaning, means, states⟩
  unfold clauses at member
  by_cases constrained : (ofEntries catalog settings members).result.any
    (·.1 == settings.typeField) = true
  · rw [if_pos constrained] at member
    exact .inl (ofEntry member)
  · rw [if_neg constrained, List.mem_append] at member
    rcases member with default | given
    · refine .inr ⟨fun constrains =>
        constrained ((constrainsType_iff named).mp constrains), ?_⟩
      unfold defaultClause? at default
      by_cases empty : settings.defaultTypes.isEmpty = true
      · rw [if_pos empty] at default
        cases default
      · rw [if_neg empty] at default
        have types : settings.defaultTypes ≠ [] := by simpa using empty
        obtain rfl := List.mem_singleton.mp default
        exact ⟨types, states_default named types⟩
    · exact .inl (ofEntry given)

theorem mem_clauses_of_means {entry : String × Json} {meaning : Document → Prop}
    (member : entry ∈ members) (means : Means catalog settings entry meaning) :
    ∃ tagged ∈ clauses catalog settings (ofEntries catalog settings members).result,
      tagged.clause.States meaning := by
  obtain ⟨tagged, made, states⟩ := exists_mem_ofEntries_of_means named member means
  have given : tagged ∈ (ofEntries catalog settings members).result.map Prod.snd :=
    List.mem_map_of_mem made
  refine ⟨tagged, ?_, states⟩
  unfold clauses
  split
  · exact given
  · exact List.mem_append_right _ given

theorem mem_clauses_of_unconstrained (free : ¬ ConstrainsType catalog settings members)
    (given : settings.defaultTypes ≠ []) :
    ∃ tagged ∈ clauses catalog settings (ofEntries catalog settings members).result,
      tagged.clause.States fun document =>
        ∃ type ∈ settings.defaultTypes, document.HasValue settings.typeField type := by
  refine ⟨⟨_, catalog.facetTag settings.typeField⟩, ?_, states_default named given⟩
  have types : settings.defaultTypes.isEmpty ≠ true := by simpa using given
  unfold clauses defaultClause?
  rw [if_neg (fun constrained => free ((constrainsType_iff named).mpr constrained)), if_neg types]
  exact List.mem_append_left _ List.mem_cons_self

end Specification

/-- A filter is built for every specification, its clauses can be read, and the documents that
satisfy all of them are those that the specification accepts. -/
theorem build_spec (catalog : Catalog) (settings : FilterSettings) (members : List (String × Json))
    (named : HasFieldNames catalog settings) :
    ∃ queries, (build catalog settings (.object members)).run.result = .ok queries ∧
      (∀ text ∈ textsOf queries, ∃ condition, Condition.read? text = some condition) ∧
      ∀ document : Document,
        (∀ text ∈ textsOf queries, ∀ condition, Condition.read? text = some condition →
          condition.holds document = true) ↔ Accepts catalog settings members document := by
  refine ⟨_, build_object catalog settings members, ?_, fun document =>
    ⟨fun satisfied => ?_, ?_⟩⟩
  · intro text member
    obtain ⟨tagged, listed, rfl⟩ := mem_textsOf_collect?.mp member
    have legible : tagged.clause.Legible := by
      rcases mem_clauses_cases named listed with ⟨_, _, _, _, states⟩ | ⟨_, _, states⟩
      · exact states.legible
      · exact states.legible
    exact ⟨_, FilterClause.read?_write legible⟩
  · have meets :
        ∀ tagged ∈ clauses catalog settings (ofEntries catalog settings members).result,
        ∀ meaning, tagged.clause.States meaning → meaning document := by
      intro tagged listed meaning states
      refine (states.holds document).mp
        (satisfied tagged.clause.write ?_ _ (FilterClause.read?_write states.legible))
      exact mem_textsOf_collect?.mpr ⟨tagged, listed, rfl⟩
    refine ⟨fun entry member meaning means => ?_, fun free given => ?_⟩
    · obtain ⟨tagged, listed, states⟩ := mem_clauses_of_means named member means
      exact meets tagged listed meaning states
    · obtain ⟨tagged, listed, states⟩ := mem_clauses_of_unconstrained named free given
      exact meets tagged listed _ states
  · intro accepted text member condition read
    obtain ⟨tagged, listed, rfl⟩ := mem_textsOf_collect?.mp member
    rcases mem_clauses_cases named listed with
      ⟨entry, given, meaning, means, states⟩ | ⟨free, given, states⟩
    · rw [FilterClause.read?_write states.legible, Option.some_inj] at read
      rw [← read, states.holds]
      exact accepted.entries entry given meaning means
    · rw [FilterClause.read?_write states.legible, Option.some_inj] at read
      rw [← read, states.holds]
      exact accepted.types free given

/-- A value with quotes, the marker, and dates of which one is a text. -/
theorem build_spec_quoted :
    let schema : Schema := { facets := ["format-facet"] }
    let settings : FilterSettings := {}
    let members : List (String × Json) :=
      [("format-facet", .array [.string "\"4to\"", .string "__MISSING__"]),
        ("orig-date-facet", .object [("from", .integer 1500), ("to", .string " +1600 ")])]
    let document : Document := fun field =>
      if field = "type-facet" then [⟨"object", none⟩]
      else if field = "orig-date-from-facet" then [⟨"1550", some 1550⟩]
      else []
    HasFieldNames schema.catalog settings ∧
      ∃ queries, (build schema.catalog settings (.object members)).run.result = .ok queries ∧
        textsOf queries =
          ["type-facet:(\"object\" OR \"description\" OR \"description-retro\")",
            "(*:* NOT format-facet:*) OR (format-facet:(\"\\\"4to\\\"\"))",
            "(orig-date-from-facet:[1500 TO *] OR (*:* NOT orig-date-from-facet:*)) AND " ++
              "(orig-date-to-facet:[* TO 1600] OR (*:* NOT orig-date-to-facet:*)) AND " ++
              "(orig-date-from-facet:* OR orig-date-to-facet:*)"] ∧
        Accepts schema.catalog settings members document := by
  intro schema settings members document
  have format : IsFieldName "format-facet" :=
    ⟨by decide +kernel, by decide +kernel, by decide +kernel⟩
  have types : IsFieldName "type-facet" :=
    ⟨by decide +kernel, by decide +kernel, by decide +kernel⟩
  have dateFrom : IsFieldName "orig-date-from-facet" :=
    ⟨by decide +kernel, by decide +kernel, by decide +kernel⟩
  have dateTo : IsFieldName "orig-date-to-facet" :=
    ⟨by decide +kernel, by decide +kernel, by decide +kernel⟩
  have named : HasFieldNames schema.catalog settings := by
    refine ⟨fun name facet => ?_, types, dateFrom, dateTo⟩
    obtain rfl : name = "format-facet" := by simpa [schema, Schema.catalog] using facet
    exact format
  obtain ⟨queries, built, _, meets⟩ := build_spec schema.catalog settings members named
  let made : List FilterClause :=
    [.present "type-facet" (.oneOf ["object", "description", "description-retro"]),
      .presentOrMissing "format-facet" (.oneOf ["\"4to\""]),
      .dates "orig-date-from-facet" "orig-date-to-facet" ⟨1500, 1600, false, false⟩]
  have texts : textsOf queries = made.map FilterClause.write := by
    rw [build_object] at built
    rw [← Except.ok.inj built]
    decide +kernel
  have legible : ∀ clause ∈ made, clause.Legible := by
    simp [made, FilterClause.Legible, format, types, dateFrom, dateTo]
  have satisfied : ∀ clause ∈ made, clause.condition.holds document = true := by decide +kernel
  refine ⟨named, queries, built, by rw [texts]; decide +kernel, (meets document).mp ?_⟩
  intro text member condition read
  rw [texts] at member
  obtain ⟨clause, listed, rfl⟩ := List.mem_map.mp member
  rw [FilterClause.read?_write (legible clause listed), Option.some_inj] at read
  rw [← read]
  exact satisfied clause listed

end Filter

end FacetSearch
