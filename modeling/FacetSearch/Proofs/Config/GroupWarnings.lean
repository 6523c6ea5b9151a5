import FacetSearch.Config.Warning
import FacetSearch.Proofs.Query.Failure
import FacetSearch.Proofs.Schema.Entries
import FacetSearch.Proofs.Schema.Search

/-!
What the warnings about groups say about searches. A member that is neither a field nor a group is
reported exactly if some group cannot be searched, and where no group has such a member, or no
members, or itself among the members of its members, all groups can be searched
(`groupWarnings_predict`).
-/

set_option autoImplicit false

namespace FacetSearch

/-- The group whose members a warning is about. -/
def ConfigWarning.group? : ConfigWarning → Option String
  | undefinedMember group _ => some group
  | emptyGroup group => some group
  | cyclicGroup group => some group
  | _ => none

theorem Schema.group?_of_mem_fieldWarnings {name : String} {options : FieldOptions}
    {warning : ConfigWarning} (member : warning ∈ fieldWarnings name options) :
    warning.group? = none := by
  unfold fieldWarnings at member
  split at member
  · split at member
    · rw [List.mem_singleton.mp member]
      rfl
    · cases member
  · cases member

namespace Config

variable {config : Config} {group : String}

/-- A warning about the members of a group comes from a group. -/
theorem mem_warnings_iff {warning : ConfigWarning} (about : warning.group? = some group) :
    warning ∈ config.warnings ↔
      ∃ other members, config.schema.groups.get? other = some members ∧
        warning ∈ config.schema.groupWarnings other members := by
  have unlike : ∀ other : ConfigWarning, other.group? = none → warning ≠ other := by
    intro other silent same
    rw [← same, about] at silent
    cases silent
  unfold warnings
  simp only [List.mem_append]
  constructor
  · intro reported
    rcases reported with (((noFields | field) | found) | facet) | noDividers
    · split at noFields
      · exact absurd (List.mem_singleton.mp noFields) (unlike .noFields rfl)
      · cases noFields
    · obtain ⟨entry, -, among⟩ := List.mem_flatMap.mp field
      have silent := Schema.group?_of_mem_fieldWarnings among
      rw [about] at silent
      cases silent
    · obtain ⟨⟨other, members⟩, entry, among⟩ := List.mem_flatMap.mp found
      exact ⟨other, members, Dict.get?_eq_some_iff.mpr entry, among⟩
    · obtain ⟨setting, -, same⟩ := List.mem_map.mp facet
      exact absurd same.symm (unlike (.notAFacet setting.1 setting.2) rfl)
    · split at noDividers
      · exact absurd (List.mem_singleton.mp noDividers) (unlike .noDividers rfl)
      · cases noDividers
  · intro found
    obtain ⟨other, members, known, among⟩ := found
    refine .inl (.inl (.inr (List.mem_flatMap.mpr ⟨(other, members), ?_, among⟩)))
    exact Dict.get?_eq_some_iff.mp known

theorem undefinedMember_mem_iff {member : String} :
    .undefinedMember group member ∈ config.warnings ↔
      config.schema.groups.HasMember group member ∧ config.schema.defines member = false := by
  have about : (ConfigWarning.undefinedMember group member).group? = some group := rfl
  rw [mem_warnings_iff about, Groups.HasMember, ← exists_and_right]
  simp [Schema.groupWarnings, and_assoc]

theorem emptyGroup_mem_iff :
    .emptyGroup group ∈ config.warnings ↔ config.schema.groups.get? group = some [] := by
  have about : (ConfigWarning.emptyGroup group).group? = some group := rfl
  rw [mem_warnings_iff about]
  simp [Schema.groupWarnings]

theorem cyclicGroup_mem_iff :
    .cyclicGroup group ∈ config.warnings ↔
      Relation.TransGen config.schema.groups.HasMember group group := by
  have reported : ∀ other members,
      .cyclicGroup group ∈ config.schema.groupWarnings other members ↔
      other = group ∧ Relation.TransGen config.schema.groups.HasMember group group := by
    intro other members
    rw [← Groups.containsItself_iff]
    simp only [Schema.groupWarnings, List.mem_append]
    grind
  have about : (ConfigWarning.cyclicGroup group).group? = some group := rfl
  rw [mem_warnings_iff about]
  simp only [reported]
  constructor
  · intro found
    obtain ⟨other, members, -, -, itself⟩ := found
    exact itself
  · intro itself
    obtain ⟨member, ⟨members, known, -⟩, -⟩ := Relation.TransGen.head'_iff.mp itself
    exact ⟨group, members, known, rfl, itself⟩

/-- A group has a member that is neither a field nor a group exactly if some group cannot be
searched: the group with the member, and every group that reaches it. -/
theorem exists_undefinedMember_iff :
    (∃ group member, .undefinedMember group member ∈ config.warnings) ↔
      ∃ group missing, config.schema.groups.contains group = true ∧
        config.schema.catalog.Misses group missing := by
  simp only [undefinedMember_mem_iff]
  constructor
  · intro found
    obtain ⟨group, member, held, undefined⟩ := found
    have known : config.schema.groups.contains group = true := by
      obtain ⟨members, entry, -⟩ := held
      simp [Dict.contains, entry]
    simp only [Schema.defines, Bool.or_eq_false_iff] at undefined
    obtain ⟨invalid, plain⟩ := undefined
    have unknown : config.schema.groups.get? member = none := by simpa [Dict.contains] using plain
    exact ⟨group, member, known, .single held, unknown, invalid⟩
  · intro found
    obtain ⟨group, missing, known, reached, plain, invalid⟩ := found
    rcases Relation.ReflTransGen.cases_tail reached with same | ⟨last, -, held⟩
    · rw [same] at plain
      simp [Dict.contains, show config.schema.groups.get? group = none from plain] at known
    · refine ⟨last, missing, held, ?_⟩
      have undefined : config.schema.groups.contains missing = false := by
        simp [Dict.contains, show config.schema.groups.get? missing = none from plain]
      rw [Schema.defines, undefined, Bool.or_false]
      exact invalid

end Config

namespace Comparison

variable {catalog : Catalog} {comparison : Comparison}

/-- A clause is made only of the right number of arguments. -/
theorem HasArguments.of_returns {name : String} {said : Option Clause}
    (returns : (comparison.clause? catalog name).Returns said) : comparison.HasArguments := by
  obtain ⟨field, operator, arguments⟩ := comparison
  have listed : ∀ {next : List String → Compiling (Option Clause)},
      (clause?.liftExcept ((Comparison.mk field operator arguments).someArguments name)
        >>= next).Returns said → arguments ≠ [] := by
    intro next done empty
    rw [empty] at done
    cases done
  cases operator with
  | equal | unequal | above | atLeast | below | atMost =>
      obtain ⟨value, only, -⟩ := exists_onlyArgument returns
      exact congrArg List.length only
  | oneOf | custom symbol => exact listed returns

/-- A clause is made only of what there is to search. -/
theorem HasTerms.of_returns {name : String} {clause : Clause}
    (returns : (comparison.clause? catalog name).Returns (some clause)) : comparison.HasTerms := by
  have searched : ∀ {negated : Bool} {value : String},
      (valueClause catalog name negated value).result = some clause →
      Engine.isFreeText (String.ofList (Text.trim value.toList)) = true →
      Segment.ofPhrase (Text.trim value.toList) ≠ [] := by
    intro negated value made free empty
    unfold valueClause at made
    simp only [free, if_true] at made
    unfold phraseClause at made
    have silent : FreeTerm.ofPhrase catalog name (String.ofList (Text.trim value.toList)) = [] := by
      simp [FreeTerm.ofPhrase, empty]
    rw [silent] at made
    cases made
  intro comparing value member free
  obtain ⟨field, operator, arguments⟩ := comparison
  have two : operator = .equal ∨ operator = .unequal := by simpa using comparing
  rcases two with rfl | rfl
  all_goals
    obtain ⟨only, rfl, made⟩ := exists_onlyArgument returns
    rw [List.mem_singleton.mp member] at free ⊢
    exact searched ((Compiling.returns_lift _ _).mp made) free

end Comparison

namespace Config

open Compiling (Searches)

/-- What is said of a group is in parentheses. -/
theorem query_ne_empty {catalog : Catalog} {comparison : Comparison} {members : List String}
    (known : catalog.groups.get? comparison.field = some members) {query : Query}
    (returns : ((Expression.comparison comparison).toQuery? catalog).Returns (some query)) :
    (CompiledQuery.ofQuery? (some query)).query ≠ "" := by
  have spelled : (comparison.compileOn catalog (.expand catalog [] comparison.field)).Returns
      (some query) := returns
  rw [Comparison.expand_of_group known, if_neg (by simp)] at spelled
  by_cases empty : members.isEmpty = true
  · rw [if_pos empty] at spelled
    cases Comparison.compileOn_silent (.inr ⟨_, rfl⟩) spelled
  · rw [if_neg empty] at spelled
    obtain ⟨parts, -, same⟩ := Comparison.compileOn_group spelled
    obtain ⟨-, rfl⟩ := Compiling.enclose?_eq_some same.symm
    intro blank
    have text := congrArg String.toList blank
    simp [CompiledQuery.ofQuery?, Query.write] at text

/-- The warnings about groups tell what happens to searches. A group has a member that is neither a
field nor a group exactly if some group cannot be searched, for whatever value. And where there is
no such member, no group without members and no group inside itself, every comparison with a group
can be searched and there is something to search, provided that it says something at all: that on
some name it makes a clause, for which the number of its arguments has to be right. -/
theorem groupWarnings_predict (config : Config) :
    let compiling (comparison : Comparison) :=
      Expression.compile config.schema.catalog (.comparison comparison)
    (∀ value, (∃ group member, .undefinedMember group member ∈ config.warnings) ↔
      ∃ group missing, config.schema.groups.contains group = true ∧
        (compiling ⟨group, .equal, [value]⟩).Fails (.invalidField missing)) ∧
    ((∀ group member, .undefinedMember group member ∉ config.warnings) →
      (∀ group, .emptyGroup group ∉ config.warnings) →
      (∀ group, .cyclicGroup group ∉ config.warnings) →
      ∀ comparison, config.schema.groups.contains comparison.field = true →
        (∃ name clause, (comparison.clause? config.schema.catalog name).Returns (some clause)) →
        ∃ compiled, (compiling comparison).Returns compiled ∧ compiled.query ≠ "") := by
  intro compiling
  constructor
  · intro value
    rw [exists_undefinedMember_iff]
    apply exists_congr
    intro group
    rw [exists_and_left, exists_and_left]
    apply and_congr_right
    intro _
    have given : (Comparison.mk group .equal [value]).HasArguments := rfl
    rw [← Comparison.exists_invalidField_iff given config.schema.catalog group]
    simp only [compiling, Expression.fails_comparison_iff]
  · intro defined inhabited acyclic comparison known meaningful
    obtain ⟨name, clause, made⟩ := meaningful
    obtain ⟨met, walk⟩ := Groups.exists_walk config.schema.groups [] [comparison.field]
    have met_ne_nil : met ≠ [] := by
      apply walk.ne_nil
      · exact fun group around => acyclic group (cyclicGroup_mem_iff.mpr around)
      · exact fun group empty => inhabited group (emptyGroup_mem_iff.mpr empty)
      · exact nofun
      · exact List.cons_ne_nil _ _
    have fields : met.find? (fun name => !config.schema.catalog.isField name) = none := by
      rw [List.find?_eq_none]
      intro missing member invalid
      obtain ⟨plain, start, among, reached⟩ := (walk.mem_iff missing).mp member
      rw [List.mem_singleton.mp among, Groups.reachesAround_nil] at reached
      have misses : config.schema.catalog.Misses comparison.field missing :=
        ⟨reached, plain, by simpa using invalid⟩
      obtain ⟨group, member, reported⟩ :=
        exists_undefinedMember_iff.mpr ⟨comparison.field, missing, known, misses⟩
      exact defined group member reported
    have searches : Searches config.schema.catalog Query.fieldNames? met
        ((Expression.comparison comparison).toQuery? config.schema.catalog) :=
      Expression.searches_compile _ (.of_returns made) (.of_returns made) walk
    unfold Searches at searches
    rw [fields] at searches
    obtain ⟨query, returns, named⟩ := searches
    refine ⟨.ofQuery? query, Expression.returns_compile returns, ?_⟩
    cases query with
    | none => exact absurd (List.map_eq_nil_iff.mp named.symm) met_ne_nil
    | some query =>
        obtain ⟨members, entry⟩ := Option.isSome_iff_exists.mp known
        exact query_ne_empty entry returns

/-- A group in a group, without warnings. -/
theorem groupWarnings_predict_nested :
    let config : Config :=
      { schema :=
          { fields := ⟨[("t", {}), ("u", {})], by decide⟩
            groups := ⟨[("inner", ["t"]), ("outer", ["inner", "u"])], by decide⟩
            facets := ["type-facet", "orig-date-from-facet", "orig-date-to-facet"] } }
    let comparison : Comparison := ⟨"outer", .unequal, ["x y"]⟩
    config.warnings = [] ∧
      (∃ name clause, (comparison.clause? config.schema.catalog name).Returns (some clause)) ∧
      (¬ ∃ group missing, config.schema.groups.contains group = true ∧
        (Expression.compile config.schema.catalog (.comparison ⟨group, .equal, ["x"]⟩)).Fails
          (.invalidField missing)) ∧
      ∃ compiled,
        (Expression.compile config.schema.catalog (.comparison comparison)).Returns compiled ∧
        compiled.query ≠ "" := by
  intro config comparison
  have silent : config.warnings = [] := by
    simp [config, warnings, Schema.groupWarnings, Schema.fieldWarnings, Schema.defines,
      facetSettings, Groups.containsItself, Groups.meets, Dict.get?, Dict.contains, Dict.isEmpty,
      List.lookup_cons,
      Dividers.standard]
  have meaningful : ∃ name clause,
      (comparison.clause? config.schema.catalog name).Returns (some clause) :=
    ⟨"t", .freeText true [.word "t" ['x'], .word "t" ['y']], by
      show (comparison.clause? config.schema.catalog "t").run.result = _
      decide +kernel⟩
  have known : config.schema.groups.contains comparison.field = true := by decide
  have unreported : ∀ warning, warning ∉ config.warnings := by
    rw [silent]
    exact fun warning => List.not_mem_nil
  obtain ⟨undefined, searched⟩ := groupWarnings_predict config
  refine ⟨silent, meaningful, ?_, ?_⟩
  · intro failing
    obtain ⟨group, member, reported⟩ := (undefined "x").mpr failing
    exact unreported _ reported
  · exact searched (fun _ _ => unreported _) (fun _ => unreported _) (fun _ => unreported _)
      comparison known meaningful

end Config

end FacetSearch
