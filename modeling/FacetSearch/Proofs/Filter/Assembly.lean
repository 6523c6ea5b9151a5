import FacetSearch.Proofs.Filter.Building
import FacetSearch.Proofs.Json.Keys

/-!
Which clauses a filter has (`Filter.build_assembled`). They are collected by their texts, and
different entries have different texts: the text of a clause gives its condition back, and the
condition the field. So every usable entry has its own clause, in the place and with the tag that
belong to it.
-/

set_option autoImplicit false

namespace FacetSearch

theorem FieldTest.condition_inj {first second : String} {one other : FieldTest}
    (same : one.condition first = other.condition second) : first = second ∧ one = other := by
  cases one <;> cases other <;> simp_all [condition]

theorem DateRange.condition_inj {first last otherFirst otherLast : String} {one other : DateRange}
    (same : one.condition first last = other.condition otherFirst otherLast) :
    first = otherFirst ∧ last = otherLast ∧ one = other := by
  obtain ⟨start, stop, exact, missing⟩ := one
  obtain ⟨otherStart, otherStop, otherExact, otherMissing⟩ := other
  cases exact <;> cases otherExact <;> cases missing <;> cases otherMissing <;> simp_all [condition]

namespace FilterClause

/-- The field of a clause on one field. -/
def facet? : FilterClause → Option String
  | present field _ | presentOrMissing field _ | missing field => some field
  | dates .. => none

/-- No clause on one field has the condition of a range of dates. -/
theorem condition_ne_dates {clause : FilterClause} {field : String}
    (facet : clause.facet? = some field) (first last : String) (range : DateRange) :
    clause.condition ≠ range.condition first last := by
  intro same
  obtain ⟨start, stop, exact, missing⟩ := range
  cases clause with
  | present other test => cases test <;> cases exact <;> cases missing <;> cases same
  | presentOrMissing other test => cases exact <;> cases missing <;> cases same
  | missing other => cases exact <;> cases missing <;> cases same
  | dates => cases facet

/-- Different clauses have different conditions. -/
theorem condition_injective : Function.Injective condition := by
  intro first second same
  cases first with
  | present field test =>
      cases second with
      | present other asked => simpa using FieldTest.condition_inj same
      | presentOrMissing => cases test <;> cases same
      | missing => cases test <;> cases same
      | dates from_ upTo range => exact absurd same (condition_ne_dates rfl from_ upTo range)
  | presentOrMissing field test =>
      cases second with
      | present other asked => cases asked <;> cases same
      | presentOrMissing other asked =>
          have inner : test.condition field = asked.condition other := by simp_all [condition]
          simpa using FieldTest.condition_inj inner
      | missing => cases same
      | dates from_ upTo range => exact absurd same (condition_ne_dates rfl from_ upTo range)
  | missing field =>
      cases second with
      | present other asked => cases asked <;> cases same
      | presentOrMissing => cases same
      | missing other => simpa [condition] using same
      | dates from_ upTo range => exact absurd same (condition_ne_dates rfl from_ upTo range)
  | dates from_ upTo range =>
      cases second with
      | dates otherFrom otherUpTo other => simpa using DateRange.condition_inj same
      | _ => exact absurd same.symm (condition_ne_dates rfl from_ upTo range)

/-- Different clauses have different texts. -/
theorem write_inj {first second : FilterClause} (one : first.Legible) (other : second.Legible)
    (same : first.write = second.write) : first = second := by
  apply condition_injective
  have read := read?_write one
  rw [same, read?_write other] at read
  exact (Option.some.inj read).symm

theorem facet?_of_combine? {field : String} {test : Option FieldTest} {orMissing : Bool}
    {clause : FilterClause} (made : combine? field test orMissing = some clause) :
    clause.facet? = some field := by
  unfold combine? at made
  split at made <;> cases made
  all_goals rfl

end FilterClause

namespace Filter

variable {catalog : Catalog} {settings : FilterSettings}

/-- The clause of an entry with its tag, if the entry has a usable one. -/
def clauseOf? (catalog : Catalog) (settings : FilterSettings) (entry : String × Json) :
    Option TaggedClause :=
  (ofEntry catalog settings entry.1 entry.2).result

/-- The field whose tag the clause of an entry gets. -/
def taggedField (settings : FilterSettings) (key : String) : String :=
  if key = settings.dateKey then settings.dateFromField else key

theorem facet?_of_ofFacet {field : String} {value : Json} {clause : FilterClause}
    (made : (ofFacet settings field value).result = some clause) : clause.facet? = some field := by
  cases value with
  | string text =>
      rw [ofFacet, ofText] at made
      split at made
      · rw [combine_result] at made
        exact FilterClause.facet?_of_combine? made
      · split at made
        · cases made
        · cases made
          rfl
  | array items =>
      rw [ofFacet_array_result, combine_result] at made
      exact FilterClause.facet?_of_combine? made
  | object members =>
      rw [ofFacet_object, combine_result] at made
      exact FilterClause.facet?_of_combine? made
  | null => cases made
  | boolean => cases made
  | integer => cases made
  | float => cases made

theorem facet?_of_ofDates {value : Json} {clause : FilterClause}
    (made : (ofDates settings value).result = some clause) : clause.facet? = none := by
  unfold ofDates at made
  split at made
  · split at made
    · cases made
      rfl
    · cases made
  · cases made

/-- The clause of an entry is on the field of its key, or on the fields of dates. -/
theorem of_clauseOf? {entry : String × Json} {tagged : TaggedClause}
    (made : clauseOf? catalog settings entry = some tagged) :
    tagged.tag = catalog.facetTag (taggedField settings entry.1) ∧
      tagged.clause.facet? = if entry.1 = settings.dateKey then none else some entry.1 := by
  obtain ⟨key, value⟩ := entry
  unfold clauseOf? ofEntry at made
  unfold taggedField
  split at made
  · cases made
  · split at made
    · rename_i dates
      rw [if_pos dates, if_pos dates]
      have mapped : (ofDates settings value).result.map
          (⟨·, catalog.facetTag settings.dateFromField⟩) = some tagged := made
      obtain ⟨clause, dated, rfl⟩ := Option.map_eq_some_iff.mp mapped
      exact ⟨rfl, facet?_of_ofDates dated⟩
    · rename_i plain
      rw [if_neg plain, if_neg plain]
      split at made
      · cases made
      · have mapped : (ofFacet settings key value).result.map
            (⟨·, catalog.facetTag key⟩) = some tagged := made
        obtain ⟨clause, faceted, rfl⟩ := Option.map_eq_some_iff.mp mapped
        exact ⟨rfl, facet?_of_ofFacet faceted⟩

/-- An entry has a clause exactly if it has a meaning. -/
theorem exists_clauseOf?_iff (named : HasFieldNames catalog settings) {entry : String × Json} :
    (∃ tagged, clauseOf? catalog settings entry = some tagged) ↔
      ∃ meaning, Means catalog settings entry meaning := by
  constructor
  · intro found
    obtain ⟨tagged, made⟩ := found
    exact exists_means_of_ofEntry made
  · intro found
    obtain ⟨meaning, means⟩ := found
    obtain ⟨tagged, made, -⟩ := exists_clause_of_means named means
    exact ⟨tagged, made⟩

theorem legible_of_clauseOf? (named : HasFieldNames catalog settings) {entry : String × Json}
    {tagged : TaggedClause} (made : clauseOf? catalog settings entry = some tagged) :
    tagged.clause.Legible := by
  obtain ⟨meaning, means⟩ := (exists_clauseOf?_iff named).mp ⟨tagged, made⟩
  obtain ⟨other, same, states⟩ := exists_clause_of_means named means
  have equal : some tagged = some other := made.symm.trans same
  rw [Option.some.inj equal]
  exact states.legible

/-- Entries with different keys have clauses with different texts. -/
theorem write_ne_of_clauseOf? (named : HasFieldNames catalog settings) {one other : String × Json}
    (different : one.1 ≠ other.1) {first second : TaggedClause}
    (made : clauseOf? catalog settings one = some first)
    (otherMade : clauseOf? catalog settings other = some second) :
    first.clause.write ≠ second.clause.write := by
  intro same
  have equal := FilterClause.write_inj (legible_of_clauseOf? named made)
    (legible_of_clauseOf? named otherMade) same
  have facets := congrArg FilterClause.facet? equal
  rw [(of_clauseOf? made).2, (of_clauseOf? otherMade).2] at facets
  grind

/-- The clause with the default types, where no entry has a clause for the type. -/
def defaultClauses (catalog : Catalog) (settings : FilterSettings)
    (members : List (String × Json)) : List TaggedClause :=
  if settings.defaultTypes ≠ [] ∧
      ∀ entry ∈ members, entry.1 = settings.typeField →
        clauseOf? catalog settings entry = none then
    [⟨.present settings.typeField (.oneOf settings.defaultTypes),
      catalog.facetTag settings.typeField⟩]
  else []

/-- The clauses of a specification: the one with the default types, and those of the entries. -/
def assembled (catalog : Catalog) (settings : FilterSettings) (members : List (String × Json)) :
    List TaggedClause :=
  defaultClauses catalog settings members ++ members.filterMap (clauseOf? catalog settings)

theorem ofEntries_result (members : List (String × Json)) :
    (ofEntries catalog settings members).result
      = members.filterMap fun entry => (clauseOf? catalog settings entry).map (entry.1, ·) := by
  induction members with
  | nil => rfl
  | cons entry rest ih =>
      obtain ⟨key, value⟩ := entry
      simp only [ofEntries, Logged.bind_result, Logged.pure_result, ih,
        List.filterMap_cons, clauseOf?]
      cases (ofEntry catalog settings key value).result <;> rfl

theorem clauses_ofEntries (members : List (String × Json)) :
    clauses catalog settings (ofEntries catalog settings members).result
      = assembled catalog settings members := by
  rw [ofEntries_result]
  have given : (members.filterMap fun entry =>
      (clauseOf? catalog settings entry).map (entry.1, ·)).map
      Prod.snd = members.filterMap (clauseOf? catalog settings) := by
    rw [List.map_filterMap]
    refine congrArg (List.filterMap · members) (funext fun entry => ?_)
    cases clauseOf? catalog settings entry <;> rfl
  have constrained : (members.filterMap fun entry =>
      (clauseOf? catalog settings entry).map (entry.1, ·)).any
        (·.1 == settings.typeField) = true ↔
        ¬ ∀ entry ∈ members, entry.1 = settings.typeField →
          clauseOf? catalog settings entry = none := by
    rw [List.any_eq_true]
    push Not
    constructor
    · intro found
      obtain ⟨keyed, member, type⟩ := found
      obtain ⟨entry, held, made⟩ := List.mem_filterMap.mp member
      obtain ⟨tagged, clause, rfl⟩ := Option.map_eq_some_iff.mp made
      exact ⟨entry, held, by simpa using type, by simp [clause]⟩
    · intro found
      obtain ⟨entry, held, type, given⟩ := found
      obtain ⟨tagged, clause⟩ := Option.ne_none_iff_exists'.mp given
      exact ⟨(entry.1, tagged), List.mem_filterMap.mpr ⟨entry, held, by rw [clause]; rfl⟩,
        by simpa using type⟩
  unfold clauses assembled defaultClauses defaultClause?
  simp only [given, constrained, List.isEmpty_iff]
  by_cases free : ∀ entry ∈ members, entry.1 = settings.typeField →
    clauseOf? catalog settings entry = none
  · rw [if_neg (not_not.mpr free)]
    by_cases types : settings.defaultTypes = []
    · rw [if_pos types, if_neg (fun both => both.1 types)]
      rfl
    · rw [if_neg types, if_pos ⟨types, free⟩]
      rfl
  · rw [if_pos free, if_neg (fun both => free both.2)]
    rfl

/-- The clauses are in order, each as often as it comes, if no text comes twice. -/
theorem clauses_foldl_insert {clauses : List TaggedClause} {queries : FilterQueries}
    (distinct : (queries.clauses.map Prod.fst ++ clauses.map (·.clause.write)).Nodup) :
    (clauses.foldl (fun queries tagged =>
      queries.insert tagged.clause.write (some tagged.tag)) queries).clauses
        = queries.clauses ++ clauses.map fun tagged => (tagged.clause.write, some tagged.tag) := by
  induction clauses generalizing queries with
  | nil => simp
  | cons tagged rest ih =>
      have fresh : tagged.clause.write ∉ queries.clauses.map Prod.fst := by
        intro known
        exact List.disjoint_of_nodup_append distinct known List.mem_cons_self
      have placed : (queries.insert tagged.clause.write (some tagged.tag)).clauses
          = queries.clauses ++ [(tagged.clause.write, some tagged.tag)] := by
        rw [FilterQueries.insert, dif_neg fresh]
      rw [List.foldl_cons, ih, placed]
      · simp
      · rw [placed]
        simpa using distinct

/-- The clauses of a filter with their tags. -/
def taggedTexts : Option FilterQueries → List (String × Option String)
  | none => []
  | some queries => queries.clauses

theorem taggedTexts_collect? {clauses : List TaggedClause}
    (distinct : (clauses.map (·.clause.write)).Nodup) :
    taggedTexts (collect? clauses) = clauses.map (fun tagged =>
      (tagged.clause.write, some tagged.tag)) ∧ (collect? clauses = none ↔ clauses = []) := by
  have fresh : (FilterQueries.empty.clauses.map Prod.fst ++ clauses.map (·.clause.write)).Nodup :=
    distinct
  have collected := clauses_foldl_insert fresh
  rw [show FilterQueries.empty.clauses = [] from rfl, List.nil_append] at collected
  unfold collect?
  generalize clauses.foldl _ FilterQueries.empty = queries at collected
  have empty_iff : queries.isEmpty = true ↔ clauses = [] := by
    rw [FilterQueries.isEmpty, List.isEmpty_iff, collected, List.map_eq_nil_iff]
  by_cases empty : queries.isEmpty = true
  · rw [if_pos empty, empty_iff.mp empty]
    exact ⟨rfl, iff_of_true rfl rfl⟩
  · rw [if_neg empty]
    refine ⟨collected, iff_of_false (Option.some_ne_none _) ?_⟩
    exact fun nothing => empty (empty_iff.mpr nothing)

section Specification

variable {members : List (String × Json)} (named : HasFieldNames catalog settings)

include named

/-- The clause with the default types is on a field that no other clause is on. -/
theorem default_write_ne {standard tagged : TaggedClause}
    (default : standard ∈ defaultClauses catalog settings members)
    (member : tagged ∈ members.filterMap (clauseOf? catalog settings)) :
    standard.clause.write ≠ tagged.clause.write := by
  intro same
  unfold defaultClauses at default
  split at default
  · rename_i free
    obtain ⟨types, unconstrained⟩ := free
    obtain ⟨entry, held, made⟩ := List.mem_filterMap.mp member
    rw [List.mem_singleton.mp default] at same
    have legible := (states_default named types).legible
    have facets := congrArg FilterClause.facet?
      (FilterClause.write_inj legible (legible_of_clauseOf? named made) same)
    rw [(of_clauseOf? made).2] at facets
    split at facets
    · cases facets
    · have silent := unconstrained entry held (Option.some.inj facets).symm
      rw [silent] at made
      cases made
  · cases default

theorem nodup_write_assembled (distinct : (members.map Prod.fst).Nodup) :
    ((assembled catalog settings members).map (·.clause.write)).Nodup := by
  have entries :
      ((members.filterMap (clauseOf? catalog settings)).map (·.clause.write)).Nodup := by
    unfold List.Nodup at distinct ⊢
    rw [List.pairwise_map, List.pairwise_filterMap]
    rw [List.pairwise_map] at distinct
    apply distinct.imp
    intro one other different first made second otherMade
    exact write_ne_of_clauseOf? named different made otherMade
  have defaults : ((defaultClauses catalog settings members).map (·.clause.write)).Nodup := by
    unfold defaultClauses
    split
    · exact List.nodup_singleton _
    · exact List.nodup_nil
  rw [assembled, List.map_append, List.nodup_append]
  refine ⟨defaults, entries, ?_⟩
  intro text given other later
  obtain ⟨standard, default, rfl⟩ := List.mem_map.mp given
  obtain ⟨tagged, member, rfl⟩ := List.mem_map.mp later
  exact default_write_ne named default member

end Specification

/-- The entries of a specification that have clauses. -/
def usable (catalog : Catalog) (settings : FilterSettings) (members : List (String × Json)) :
    List (String × Json) :=
  members.filter fun entry => (clauseOf? catalog settings entry).isSome

/-- Only the entries with clauses count. -/
theorem assembled_usable (members : List (String × Json)) :
    assembled catalog settings (usable catalog settings members)
      = assembled catalog settings members := by
  have entries : (usable catalog settings members).filterMap (clauseOf? catalog settings)
      = members.filterMap (clauseOf? catalog settings) := by
    unfold usable
    rw [List.filterMap_filter]
    refine congrArg (List.filterMap · members) (funext fun entry => ?_)
    cases clauseOf? catalog settings entry <;> rfl
  have free : (∀ entry ∈ usable catalog settings members, entry.1 = settings.typeField →
        clauseOf? catalog settings entry = none) ↔
      ∀ entry ∈ members, entry.1 = settings.typeField →
        clauseOf? catalog settings entry = none := by
    constructor
    · intro silent entry member type
      by_contra given
      have listed : entry ∈ usable catalog settings members :=
        List.mem_filter.mpr ⟨member, Option.isSome_iff_ne_none.mpr given⟩
      exact given (silent entry listed type)
    · intro silent entry listed type
      exact silent entry (List.mem_filter.mp listed).1 type
  unfold assembled defaultClauses
  simp only [entries, free]

theorem build_assembled_result (catalog : Catalog) (settings : FilterSettings)
    (members : List (String × Json)) :
    (build catalog settings (.object members)).run.result
      = .ok (collect? (assembled catalog settings members)) := by
  rw [build_object, clauses_ofEntries]

/-- The filter of a text has one clause for each entry that has one: an object that is read has each
key once. -/
theorem taggedTexts_buildText (named : HasFieldNames catalog settings) {json : String}
    {members : List (String × Json)} (read : Json.read? json = some (.object members)) :
    ∃ queries, (buildText catalog settings json).run.result = .ok queries ∧
      taggedTexts queries = (assembled catalog settings members).map
        fun tagged => (tagged.clause.write, some tagged.tag) := by
  have built : (buildText catalog settings json).run.result
      = .ok (collect? (assembled catalog settings members)) := by
    unfold buildText
    rw [read]
    exact build_assembled_result catalog settings members
  have texts := nodup_write_assembled named (Json.nodup_keys_of_read? read)
  exact ⟨_, built, (taggedTexts_collect? texts).1⟩

/-- A filter has the clause with the default types, where they are needed, and one clause for each
entry that has one, in the order of the entries, each with its tag. No two of these clauses have the
same text, so none of them takes the place or the tag of another one, and there is no filter only
where there are no clauses. Entries without a clause may come, go and move. -/
theorem build_assembled (catalog : Catalog) (settings : FilterSettings)
    (members : List (String × Json)) (named : HasFieldNames catalog settings)
    (distinct : (members.map Prod.fst).Nodup) :
    ∃ queries, (build catalog settings (.object members)).run.result = .ok queries ∧
      taggedTexts queries = (assembled catalog settings members).map
        (fun tagged => (tagged.clause.write, some tagged.tag)) ∧
      ((assembled catalog settings members).map (·.clause.write)).Nodup ∧
      (queries = none ↔ assembled catalog settings members = []) ∧
      (∀ entry tagged, clauseOf? catalog settings entry = some tagged →
        tagged.tag = catalog.facetTag (taggedField settings entry.1)) ∧
      ∀ others, usable catalog settings others = usable catalog settings members →
        (build catalog settings (.object others)).run.result = .ok queries := by
  have texts := nodup_write_assembled named distinct
  obtain ⟨collected, nothing⟩ := taggedTexts_collect? texts
  refine ⟨_, build_assembled_result catalog settings members, collected, texts, nothing, ?_, ?_⟩
  · intro entry tagged made
    exact (of_clauseOf? made).1
  · intro others same
    rw [build_assembled_result, ← assembled_usable others, same, assembled_usable]

/-- A type that is blank, so that the default types stay, between a list with the marker and
dates. -/
theorem build_assembled_blankType :
    let schema : Schema :=
      { facets := ["type-facet", "format-facet"],
        tags := ⟨[("format-facet", "format")], by decide⟩ }
    let settings : FilterSettings := { defaultTypes := ["object"] }
    let format : String × Json := ("format-facet", .array [.string "4to", .string "__MISSING__"])
    let dates : String × Json := ("orig-date-facet",
      .object [("from", .integer 1500), ("to", .string "1600"), ("exact", .boolean true)])
    (HasFieldNames schema.catalog settings ∧
      (([format, ("type-facet", .string " "), dates] : List (String × Json)).map
        Prod.fst).Nodup) ∧
    ∃ queries, (build schema.catalog settings
        (.object [format, ("type-facet", .string " "), dates])).run.result = .ok queries ∧
      taggedTexts queries =
        [("type-facet:(\"object\")", some "type-facet"),
          ("(*:* NOT format-facet:*) OR (format-facet:(\"4to\"))", some "format"),
          ("orig-date-from-facet:[1500 TO *] AND orig-date-to-facet:[* TO 1600]",
            some "orig-date-from-facet")] ∧
      (build schema.catalog settings (.object [("other", .null), format, dates])).run.result
        = .ok queries := by
  intro schema settings format dates
  have named : HasFieldNames schema.catalog settings := by
    refine ⟨?_, by decide +kernel, by decide +kernel, by decide +kernel⟩
    intro name facet
    have either : name = "type-facet" ∨ name = "format-facet" := by
      simpa [schema, Schema.catalog] using facet
    rcases either with rfl | rfl
    · decide +kernel
    · decide +kernel
  have distinct : (([format, ("type-facet", .string " "), dates] : List (String × Json)).map
      Prod.fst).Nodup := by
    decide
  obtain ⟨queries, built, listed, -, -, -, others⟩ :=
    build_assembled schema.catalog settings [format, ("type-facet", .string " "),
      dates] named distinct
  refine ⟨⟨named, distinct⟩, queries, built, ?_, others _ ?_⟩
  · rw [listed]
    decide +kernel
  · rfl

end Filter

end FacetSearch
