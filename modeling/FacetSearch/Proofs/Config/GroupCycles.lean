import FacetSearch.Proofs.Config.GroupWarnings
import FacetSearch.Proofs.Query.Notices

/-!
Warnings about groups inside themselves. They are exact: the search behind them ends, and finds a
group among its own members exactly if membership leads back to it. The compiler, which remembers
the way only and not what it has seen on other ways, then meets the group inside itself and tells so
(`cyclicGroup_predicts`).
-/

set_option autoImplicit false

namespace FacetSearch

/-- The line about a group inside itself tells which group it is, and is the line of nothing
else. -/
theorem Notice.eq_recurringGroup_of_line {notice : Notice} {group : String}
    (same : notice.line = (recurringGroup group).line) : notice = recurringGroup group := by
  cases notice with
  | recurringGroup other =>
      have texts : "field group '" ++ other ++ "' contains itself; skipping"
          = "field group '" ++ group ++ "' contains itself; skipping" :=
        (String.append_right_inj _).mp same
      rw [(String.append_right_inj _).mp ((String.append_left_inj _).mp texts)]
  | memberlessGroup other =>
      have texts : "field group '" ++ other ++ "' has no members"
          = "field group '" ++ group ++ "' contains itself; skipping" :=
        (String.append_right_inj _).mp same
      have last := congrArg (fun text => text.toList.reverse.head?) texts
      simp at last
  | filterIgnored reason =>
      have texts : "ignoring malformed filter specification: " ++ reason
          = "field group '" ++ group ++ "' contains itself; skipping" :=
        (String.append_right_inj _).mp same
      have first := congrArg (fun text => text.toList.head?) texts
      simp at first
  | noTerms | filterSkipped | noSnippet | surplusWords | readingFile =>
      have lines : "DEBUG" ++ " " ++ _ = "WARN" ++ " " ++ _ := same
      have first := congrArg (fun line => line.toList.head?) lines
      simp at first

namespace Schema

variable {schema : Schema}

/-- Where all members are fields or groups, no group stands for something that is neither. -/
theorem not_misses_of_defined
    (defined : ∀ group member, schema.groups.HasMember group member →
      schema.defines member = true)
    {name : String} (known : schema.groups.get? name ≠ none) (missing : String) :
    ¬ schema.catalog.Misses name missing := by
  intro misses
  have plain : schema.groups.get? missing = none := misses.plain
  have invalid : schema.fields.contains missing = false := misses.invalid
  rcases Relation.ReflTransGen.cases_tail misses.reached with same | ⟨group, -, held⟩
  · rw [same] at plain
    exact known plain
  · have stands := defined group missing held
    rw [defines, invalid, Bool.false_or, Dict.contains, plain] at stands
    cases stands

/-- A comparison with a group tells of that group inside itself exactly if there it is met. -/
theorem notes_compile_iff
    (defined : ∀ group member, schema.groups.HasMember group member →
      schema.defines member = true)
    {comparison : Comparison} (given : comparison.HasArguments) :
    (Expression.compile schema.catalog (.comparison comparison)).Notes
    (.recurringGroup comparison.field) ↔
      (Selection.ofName schema.catalog comparison.field).Recurs comparison.field := by
  have whole : (Expression.compile schema.catalog (.comparison comparison)).Notes
        (.recurringGroup comparison.field) ↔
      (comparison.compileInside schema.catalog [] comparison.field).Notes
        (.recurringGroup comparison.field) := Compiling.notes_map _ _ _
  rw [whole]
  by_cases known : schema.groups.get? comparison.field = none
  · have plain : Selection.ofName schema.catalog comparison.field = .field comparison.field :=
      Comparison.expand_of_plain known []
    rw [Comparison.compileInside, ← Selection.ofName, plain]
    refine iff_of_false (Comparison.not_notes_field _ _ _ _) ?_
    intro recurs
    cases recurs
  · rcases Compiling.returns_or_fails
      (comparison.compileInside schema.catalog [] comparison.field) with
      ⟨result, returns⟩ | ⟨error, fails⟩
    · exact Comparison.notes_recurringGroup_iff returns
    · obtain ⟨missing, -, misses⟩ := Comparison.misses_of_fails given fails
      exact absurd misses (not_misses_of_defined defined known missing)

end Schema

namespace Config

/-- A group is reported as cyclic exactly if membership leads from it, in one step or more, back to
it. The search that decides so has one run, which ends after no more looks than there are members
listed. And where all members are fields or groups, a group is reported exactly if a comparison with
it, with as many arguments as its operator takes, meets the group while expanding it, and tells
so. -/
theorem cyclicGroup_predicts (config : Config) (group : String) :
    let groups := config.schema.groups
    let members := (groups.get? group).getD []
    (∃ length ≤ members.length + groups.unopenedMembers [],
      ∀ count answer, groups.Looks group [] members count answer ↔
        count = length ∧ answer = groups.containsItself group) ∧
    (.cyclicGroup group ∈ config.warnings ↔ Relation.TransGen groups.HasMember group group) ∧
    ((∀ name member, groups.HasMember name member → config.schema.defines member = true) →
      ∀ comparison : Comparison, comparison.field = group → comparison.HasArguments →
        (.cyclicGroup group ∈ config.warnings ↔
          (Selection.ofName config.schema.catalog group).Recurs group) ∧
        (.cyclicGroup group ∈ config.warnings ↔
          "WARN field group '" ++ group ++ "' contains itself; skipping" ∈
            (Expression.compile config.schema.catalog (.comparison comparison)).run.notices.map
              Notice.line)) := by
  intro groups members
  have met : .cyclicGroup group ∈ config.warnings ↔
      (Selection.ofName config.schema.catalog group).Recurs group :=
    cyclicGroup_mem_iff.trans (Selection.recurs_ofName_iff config.schema.catalog group).symm
  refine ⟨?_, cyclicGroup_mem_iff, ?_⟩
  · obtain ⟨length, run, bounded⟩ := Groups.exists_looks groups group [] members
    refine ⟨length, bounded, fun count answer => ⟨fun again => run.unique again, ?_⟩⟩
    rintro ⟨rfl, rfl⟩
    exact run
  · intro defined comparison about given
    subst about
    have line : "WARN field group '" ++ comparison.field ++ "' contains itself; skipping"
        = (Notice.recurringGroup comparison.field).line := by
      have label : "WARN field group '" = "WARN" ++ " " ++ "field group '" := by decide
      rw [label, String.append_assoc, String.append_assoc]
      rfl
    refine ⟨met, ?_⟩
    rw [met, ← Schema.notes_compile_iff defined given, Compiling.Notes, line]
    constructor
    · exact List.mem_map_of_mem
    · intro told
      obtain ⟨notice, member, same⟩ := List.mem_map.mp told
      rw [← Notice.eq_recurringGroup_of_line same]
      exact member

/-- Two groups that hold each other and a third one that holds both. -/
theorem cyclicGroup_predicts_shared :
    let config : Config :=
      { schema :=
          { fields := ⟨[("t", {})], by decide⟩
            groups := ⟨[("a", ["b"]), ("b", ["a", "g", "t"]), ("g", ["a", "b"])], by decide⟩ } }
    let comparison : Comparison := ⟨"g", .oneOf, ["x"]⟩
    (∀ name member, config.schema.groups.HasMember name member →
      config.schema.defines member = true) ∧
      comparison.HasArguments ∧ .cyclicGroup "g" ∈ config.warnings ∧
      (Selection.ofName config.schema.catalog "g").Recurs "g" ∧
      "WARN field group 'g' contains itself; skipping" ∈
        (Expression.compile config.schema.catalog (.comparison comparison)).run.notices.map
          Notice.line := by
  intro config comparison
  have given : comparison.HasArguments := List.cons_ne_nil _ _
  have listed : ∀ entry ∈ config.schema.groups.entries, ∀ member ∈ entry.2,
      config.schema.defines member = true := by decide
  have defined : ∀ name member, config.schema.groups.HasMember name member →
      config.schema.defines member = true := by
    intro name member held
    obtain ⟨members, known, among⟩ := held
    exact listed _ (Dict.get?_eq_some_iff.mp known) member among
  have around : Relation.TransGen config.schema.groups.HasMember "g" "g" :=
    .head (b := "b") ⟨["a", "b"], rfl, by decide⟩
      (.single ⟨["a", "g", "t"], rfl, by decide⟩)
  obtain ⟨-, exact, predicts⟩ := cyclicGroup_predicts config "g"
  have reported : .cyclicGroup "g" ∈ config.warnings := exact.mpr around
  obtain ⟨met, told⟩ := predicts defined comparison rfl given
  exact ⟨defined, given, reported, met.mp reported, told.mp reported⟩

end Config

end FacetSearch
