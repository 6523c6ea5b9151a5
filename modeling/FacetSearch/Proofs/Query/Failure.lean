import FacetSearch.Proofs.Query.Expansion
import FacetSearch.Proofs.Query.Structure

/-!
Why an expression has no query (`fails_compileText`). The reader gives every operator as many
arguments as it takes, so what it reads is compiled, or names something that is neither a group nor
a field.
-/

set_option autoImplicit false

namespace FacetSearch

namespace Compiling

variable {α β : Type}

theorem Returns.not_fails {computation : Compiling α} {value : α}
    (returns : computation.Returns value) (error : CompileError) : ¬ computation.Fails error := by
  intro fails
  have both : Except.ok value = Except.error error := returns.symm.trans fails
  cases both

theorem returns_or_fails (computation : Compiling α) :
    (∃ value, computation.Returns value) ∨ ∃ error, computation.Fails error := by
  unfold Returns Fails
  cases computation.run.result with
  | ok value => exact .inl ⟨value, rfl⟩
  | error error => exact .inr ⟨error, rfl⟩

/-- Nothing fails after a computation but the computation itself. -/
theorem fails_of_fails_map {computation : Compiling α} {make : α → β} {error : CompileError}
    (fails : (computation >>= fun value => pure (make value)).Fails error) :
    computation.Fails error := by
  apply ((fails_bind _ _ _).mp fails).resolve_right
  intro later
  obtain ⟨value, -, failed⟩ := later
  exact Returns.not_fails ((returns_pure _ _).mpr rfl) error failed

/-- Items are collected up to one that fails. -/
theorem exists_of_fails_collect {compile : α → Compiling (Option Query)} {items : List α}
    {error : CompileError} (fails : (collect compile items).Fails error) :
    ∃ item ∈ items, (compile item).Fails error := by
  induction items with
  | nil =>
      have returns : (collect compile []).Returns [] := rfl
      exact absurd fails (returns.not_fails error)
  | cons item rest ih =>
      rcases (fails_bind _ _ _).mp fails with failed | ⟨query, -, later⟩
      · exact ⟨item, List.mem_cons_self, failed⟩
      · obtain ⟨other, member, failed⟩ := ih (fails_of_fails_map later)
        exact ⟨other, List.mem_cons_of_mem _ member, failed⟩

/-- A node or a group fails with one of its parts. -/
theorem fails_of_fails_enclose {computation : Compiling (List Query)} {make : List Query → Query}
    {error : CompileError}
    (fails : Fails (do
      match ← computation with
      | [] => return none
      | parts => return some (make parts)) error) :
    computation.Fails error := by
  apply ((fails_bind _ _ _).mp fails).resolve_right
  intro later
  obtain ⟨parts, -, failed⟩ := later
  cases parts with
  | nil => exact Returns.not_fails ((returns_pure _ _).mpr rfl) error failed
  | cons first rest => exact Returns.not_fails ((returns_pure _ _).mpr rfl) error failed

end Compiling

/-- A name stands, directly or through groups, for another one that is neither a group nor a
field. -/
structure Catalog.Misses (catalog : Catalog) (name missing : String) : Prop where
  reached : catalog.groups.Reaches name missing
  plain : catalog.groups.get? missing = none
  invalid : catalog.isField missing = false

theorem Catalog.Misses.of_member {catalog : Catalog} {group member missing : String}
    (misses : catalog.Misses member missing) (held : catalog.groups.HasMember group member) :
    catalog.Misses group missing :=
  ⟨.head held misses.reached, misses.plain, misses.invalid⟩

namespace Comparison

variable {catalog : Catalog} {comparison : Comparison}

/-- The reader gives every operator as many arguments as it takes. -/
theorem Writable.hasArguments (writable : comparison.Writable) : comparison.HasArguments := by
  have accepted := writable.accepted
  unfold HasArguments
  cases operator : comparison.operator with
  | custom symbol =>
      rw [operator] at accepted
      exact accepted.2.2
  | equal | unequal | oneOf | above | atLeast | below | atMost =>
      rw [operator] at accepted
      exact accepted

/-- With the right number of arguments a comparison says something about a field, or that there is
nothing to search. -/
theorem exists_returns_clause? (given : comparison.HasArguments) (catalog : Catalog)
    (name : String) : ∃ said, (comparison.clause? catalog name).Returns said := by
  obtain ⟨field, operator, arguments⟩ := comparison
  cases operator with
  | equal | unequal =>
      obtain ⟨value, rfl⟩ := List.length_eq_one_iff.mp given
      exact ⟨_, returns_of_argument rfl ((Compiling.returns_lift _ _).mpr rfl)⟩
  | above | atLeast | below | atMost =>
      obtain ⟨value, rfl⟩ := List.length_eq_one_iff.mp given
      exact ⟨_, returns_of_argument rfl rfl⟩
  | oneOf | custom symbol =>
      exact ⟨_, returns_of_argument (someArguments_of_ne_nil given _) rfl⟩

theorem fails_compileOn_field (given : comparison.HasArguments) {name : String}
    {error : CompileError} (fails : (compileOn catalog comparison (.field name)).Fails error) :
    error = .invalidField name ∧ catalog.isField name = false := by
  unfold compileOn at fails
  by_cases valid : catalog.isField name = true
  · rw [if_pos valid] at fails
    have failed := Compiling.fails_of_fails_map fails
    obtain ⟨said, returns⟩ := exists_returns_clause? given catalog name
    exact absurd failed (returns.not_fails error)
  · rw [if_neg valid] at fails
    have same : CompileError.invalidField name = error := Except.error.inj fails
    exact ⟨same.symm, Bool.eq_false_iff.mpr valid⟩

theorem exists_member_of_fails {name : String} {members : List Selection} {error : CompileError}
    (fails : (compileOn catalog comparison (.group name members)).Fails error) :
    ∃ member ∈ members, (compileOn catalog comparison member).Fails error := by
  unfold compileOn at fails
  rw [compileOnAll_eq] at fails
  exact Compiling.exists_of_fails_collect (Compiling.fails_of_fails_enclose fails)

/-- A comparison fails only where its name stands for something that is neither a group nor a
field. -/
theorem misses_of_fails (given : comparison.HasArguments) {opened : List String} {name : String}
    {error : CompileError} (fails : (compileInside catalog comparison opened name).Fails error) :
    ∃ missing, error = .invalidField missing ∧ catalog.Misses name missing := by
  unfold compileInside at fails
  fun_induction Selection.expand catalog opened name with
  | case1 opened name plain =>
      obtain ⟨same, invalid⟩ := fails_compileOn_field given fails
      exact ⟨name, same, .refl, plain, invalid⟩
  | case2 opened name members known closed =>
      have returns : (compileOn catalog comparison (.recurring name)).Returns none := by
        unfold compileOn
        rfl
      exact absurd fails (returns.not_fails error)
  | case3 opened name members known closed empty =>
      have returns : (compileOn catalog comparison (.memberless name)).Returns none := by
        unfold compileOn
        rfl
      exact absurd fails (returns.not_fails error)
  | case4 opened name members known closed inhabited ih =>
      obtain ⟨selection, held, failed⟩ := exists_member_of_fails fails
      obtain ⟨member, among, rfl⟩ := List.mem_map.mp held
      obtain ⟨missing, same, misses⟩ := ih member failed
      exact ⟨missing, same, misses.of_member ⟨members, known, among⟩⟩

/-- Where a comparison has been compiled, its name stands for fields only. -/
theorem isField_of_returns {opened : List String} {name : String} {result : Option Query}
    (returns : (compileInside catalog comparison opened name).Returns result) {other : String}
    (reached : catalog.groups.ReachesAround opened name other)
    (plain : catalog.groups.get? other = none) : catalog.isField other = true := by
  unfold compileInside at returns
  fun_induction Selection.expand catalog opened name generalizing result with
  | case1 opened name unknown =>
      rw [Groups.eq_of_reachesAround (.inl unknown) reached]
      exact (compileOn_field returns).1
  | case2 opened name members known closed =>
      have inside : name ∈ opened := by simpa using closed
      rw [Groups.eq_of_reachesAround (.inr inside) reached, known] at plain
      cases plain
  | case3 opened name members known closed empty =>
      rcases Groups.exists_member_of_reachesAround reached with
        rfl | ⟨member, ⟨others, same, held⟩, _⟩
      · rw [known] at plain
        cases plain
      · rw [known] at same
        rw [← Option.some.inj same, List.isEmpty_iff.mp empty] at held
        cases held
  | case4 opened name members known closed inhabited ih =>
      rcases Groups.exists_member_of_reachesAround reached with
        rfl | ⟨member, ⟨others, same, held⟩, onward⟩
      · rw [known] at plain
        cases plain
      · rw [known] at same
        rw [← Option.some.inj same] at held
        obtain ⟨parts, found, _⟩ := compileOn_group returns
        rw [Compiling.collect_map] at found
        obtain ⟨query, compiled, _⟩ := Compiling.exists_of_mem_items found member held
        exact ih member compiled onward

/-- Whether a comparison can be compiled is a matter of what its name stands for. -/
theorem exists_invalidField_iff (given : comparison.HasArguments) (catalog : Catalog)
    (name : String) :
    (∃ missing, (comparison.compileInside catalog [] name).Fails (.invalidField missing)) ↔
      ∃ missing, catalog.Misses name missing := by
  constructor
  · intro failing
    obtain ⟨_, fails⟩ := failing
    obtain ⟨missing, -, misses⟩ := misses_of_fails given fails
    exact ⟨missing, misses⟩
  · intro lacking
    obtain ⟨missing, misses⟩ := lacking
    have reached : catalog.groups.ReachesAround [] name missing := by
      rw [Groups.reachesAround_nil]
      exact misses.reached
    rcases Compiling.returns_or_fails (compileInside catalog comparison [] name) with
      ⟨result, returns⟩ | ⟨error, fails⟩
    · have valid : catalog.isField missing = true :=
        isField_of_returns returns reached misses.plain
      rw [misses.invalid] at valid
      cases valid
    · obtain ⟨first, same, -⟩ := misses_of_fails given fails
      rw [same] at fails
      exact ⟨first, fails⟩

end Comparison

namespace Expression

variable {catalog : Catalog}

theorem fails_comparison_iff {comparison : Comparison} {error : CompileError} :
    ((Expression.comparison comparison).compile catalog).Fails error ↔
      (comparison.compileInside catalog [] comparison.field).Fails error := by
  constructor
  · intro fails
    exact Compiling.fails_of_fails_map fails
  · intro fails
    have direct : ((Expression.comparison comparison).toQuery? catalog).Fails error := fails
    exact fails_compile direct

theorem fails_toQuery?_node {kind : Junction} {parts : List Expression} {error : CompileError}
    (fails : ((kind.node parts).toQuery? catalog).Fails error) :
    ∃ part ∈ parts, (part.toQuery? catalog).Fails error := by
  have collected : (Compiling.collect (toQuery? catalog) parts).Fails error := by
    rw [← toQueries_eq]
    cases kind with
    | all => exact Compiling.fails_of_fails_enclose fails
    | any => exact Compiling.fails_of_fails_enclose fails
  exact Compiling.exists_of_fails_collect collected

/-- An expression fails with a comparison whose name stands for something that is neither a group
nor a field. -/
theorem misses_of_fails {expression : Expression}
    (given : ∀ leaf ∈ expression.comparisons, leaf.HasArguments) {error : CompileError}
    (fails : (expression.toQuery? catalog).Fails error) :
    ∃ missing, error = .invalidField missing ∧
      ∃ leaf ∈ expression.comparisons, catalog.Misses leaf.field missing := by
  induction expression using inductionOnNodes with
  | node kind parts ih =>
      obtain ⟨part, member, failed⟩ := fails_toQuery?_node fails
      have below : ∀ leaf ∈ part.comparisons, leaf ∈ (kind.node parts).comparisons :=
        fun leaf held => mem_comparisons_node kind member held
      obtain ⟨missing, same, leaf, held, misses⟩ :=
        ih part member (fun leaf held => given leaf (below leaf held)) failed
      exact ⟨missing, same, leaf, below leaf held, misses⟩
  | comparison leaf =>
      have itself : leaf ∈ (comparison leaf).comparisons := by simp [comparisons]
      obtain ⟨missing, same, misses⟩ := Comparison.misses_of_fails (given leaf itself) fails
      exact ⟨missing, same, leaf, itself, misses⟩

/-- What can go wrong with the text of an expression. Whatever the reader returns is a normal form
of comparisons with a field, an operator and as many arguments as it takes. So the text has no query
only where the reader refuses it, with the error of the reader, or where a name in it stands for
something that is neither a group nor a field; the number of arguments is never wrong. -/
theorem fails_compileText (catalog : Catalog) (input : String) :
    (∀ expression, parse input = .ok (some expression) →
      expression.IsFlat ∧ ∀ leaf ∈ expression.comparisons, leaf.Writable) ∧
    (∀ field operator expected given,
      ¬ (compileText catalog input).Fails (.arguments field operator expected given)) ∧
    ∀ error, (compileText catalog input).Fails error →
      (∃ refused, parse input = .error refused ∧ error = .query refused) ∨
      ∃ expression missing, parse input = .ok (some expression) ∧
        error = .invalidField missing ∧
        ∃ leaf ∈ expression.comparisons, catalog.Misses leaf.field missing := by
  have normal : ∀ expression, parse input = .ok (some expression) →
      expression.IsFlat ∧ ∀ leaf ∈ expression.comparisons, leaf.Writable := by
    intro expression parsed
    obtain ⟨populated, flat⟩ := writable_of_parse parsed
    exact ⟨flat, populated.of_mem_comparisons⟩
  have blamed : ∀ error, (compileText catalog input).Fails error →
      (∃ refused, parse input = .error refused ∧ error = .query refused) ∨
      ∃ expression missing, parse input = .ok (some expression) ∧
        error = .invalidField missing ∧
        ∃ leaf ∈ expression.comparisons, catalog.Misses leaf.field missing := by
    intro error fails
    unfold compileText at fails
    cases parsed : parse input with
    | error refused =>
        rw [parsed] at fails
        have same : CompileError.query refused = error := Except.error.inj fails
        exact .inl ⟨refused, rfl, same.symm⟩
    | ok read =>
        rw [parsed] at fails
        cases read with
        | none => cases fails
        | some expression =>
            have compiling : (expression.compile catalog).Fails error :=
              Compiling.fails_of_fails_map fails
            have given : ∀ leaf ∈ expression.comparisons, leaf.HasArguments :=
              fun leaf member => ((normal expression parsed).2 leaf member).hasArguments
            obtain ⟨missing, same, leaf, member, misses⟩ :=
              misses_of_fails given (Compiling.fails_of_fails_map compiling)
            exact .inr ⟨expression, missing, rfl, same, leaf, member, misses⟩
  refine ⟨normal, ?_, blamed⟩
  intro field operator expected given fails
  rcases blamed _ fails with ⟨refused, -, same⟩ | ⟨expression, missing, -, same, -⟩
  · cases same
  · cases same

/-- A member of a group that is no field, behind an operator of its own and inside parentheses. -/
theorem fails_compileText_member :
    let schema : Schema :=
      { fields := ⟨[("a", {}), ("b", {})], by decide⟩
        groups := ⟨[("g", ["b", "h"]), ("h", ["g", "c"])], by decide⟩ }
    let input := "a=near=(1,2);(b==2,g>=3)"
    let expression : Expression := .all [.comparison ⟨"a", .custom "=near=", ["1", "2"]⟩,
      .any [.comparison ⟨"b", .equal, ["2"]⟩, .comparison ⟨"g", .atLeast, ["3"]⟩]]
    parse input = .ok (some expression) ∧ expression.IsFlat ∧
      (∀ leaf ∈ expression.comparisons, leaf.Writable) ∧
      (compileText schema.catalog input).Fails (.invalidField "c") ∧
      ∃ leaf ∈ expression.comparisons, schema.catalog.Misses leaf.field "c" := by
  intro schema input expression
  have parsed : parse input = .ok (some expression) := by decide +kernel
  have fails : (compileText schema.catalog input).Fails (.invalidField "c") := by
    show (compileText schema.catalog input).run.result = _
    decide +kernel
  obtain ⟨normal, -, blamed⟩ := fails_compileText schema.catalog input
  obtain ⟨flat, writable⟩ := normal expression parsed
  refine ⟨parsed, flat, writable, fails, ?_⟩
  rcases blamed _ fails with ⟨refused, -, same⟩ | ⟨other, missing, again, same, misses⟩
  · cases same
  · rw [parsed] at again
    cases again
    cases same
    exact misses

end Expression

end FacetSearch
