import FacetSearch.Proofs.Schema.Walk

/-!
The search for a name in groups. It opens no group twice, on no way, and still finds whatever
membership reaches (`meets_iff`): all names of a group that was opened before have been looked at,
or are still to be looked at. So a group contains itself as the search says (`containsItself_iff`),
and where no group does and every group has members, each walk meets a name (`Walks.ne_nil`).
-/

set_option autoImplicit false

namespace FacetSearch

namespace Groups

variable {groups : Groups} {opened : List String}

theorem ReachesAround.of_cons {group start name : String}
    (reached : groups.ReachesAround (group :: opened) start name) :
    groups.ReachesAround opened start name := by
  apply Relation.ReflTransGen.mono _ _ _ reached
  intro between member step
  exact ⟨fun inside => step.1 (List.mem_cons_of_mem _ inside), step.2⟩

/-- A way either does not leave a group, or goes on from one of its members after leaving it for the
last time. -/
theorem ReachesAround.around_or_through {start name : String} (group : String)
    (reached : groups.ReachesAround opened start name) :
    groups.ReachesAround (group :: opened) start name ∨
      ∃ member, groups.HasMember group member ∧
        groups.ReachesAround (group :: opened) member name := by
  induction reached with
  | refl => exact .inl .refl
  | @tail between name _ last ih =>
      obtain ⟨outside, member⟩ := last
      by_cases back : between = group
      · rw [back] at member
        exact .inr ⟨name, member, .refl⟩
      · have step : between ∉ group :: opened ∧ groups.HasMember between name := by
          refine ⟨?_, member⟩
          simp [back, outside]
        rcases ih with around | ⟨first, held, onward⟩
        · exact .inl (around.tail step)
        · exact .inr ⟨first, held, onward.tail step⟩

/-- Once a group is opened, its members have to be looked at and the group itself need not be. -/
theorem reaches_open_iff {group target : String} {members pending : List String}
    (known : groups.get? group = some members) (outside : group ∉ opened)
    (different : group ≠ target) :
    (∃ start ∈ members ++ pending, groups.ReachesAround (group :: opened) start target) ↔
      ∃ start ∈ group :: pending, groups.ReachesAround opened start target := by
  constructor
  · intro found
    obtain ⟨start, among, reached⟩ := found
    rcases List.mem_append.mp among with held | later
    · have step : group ∉ opened ∧ groups.HasMember group start :=
        ⟨outside, members, known, held⟩
      exact ⟨group, List.mem_cons_self, .head step reached.of_cons⟩
    · exact ⟨start, List.mem_cons_of_mem _ later, reached.of_cons⟩
  · intro found
    obtain ⟨start, among, reached⟩ := found
    rcases reached.around_or_through group with
      around | ⟨member, ⟨others, same, held⟩, onward⟩
    · rcases List.mem_cons.mp among with first | later
      · have stays : target = start :=
          eq_of_reachesAround (.inr (first ▸ List.mem_cons_self)) around
        exact absurd (first.symm.trans stays.symm) different
      · exact ⟨start, List.mem_append_right _ later, around⟩
    · have listed : member ∈ members := by
        rw [known] at same
        rw [Option.some.inj same]
        exact held
      exact ⟨member, List.mem_append_left _ listed, onward⟩

/-- A name from which nothing else is reached need not be looked at. -/
theorem reaches_pass_iff {name target : String} {pending : List String}
    (stuck : groups.get? name = none ∨ name ∈ opened) (different : name ≠ target) :
    (∃ start ∈ pending, groups.ReachesAround opened start target) ↔
      ∃ start ∈ name :: pending, groups.ReachesAround opened start target := by
  have nowhere : ¬ groups.ReachesAround opened name target := by
    intro reached
    exact different (eq_of_reachesAround stuck reached).symm
  simp only [List.mem_cons, exists_eq_or_imp, nowhere, false_or]

/-- The search finds a name exactly if one of the names it has still to look at reaches it without
going through a group that is open. -/
theorem meets_iff (groups : Groups) (target : String) (opened pending : List String) :
    groups.meets target opened pending = true ↔
      ∃ start ∈ pending, groups.ReachesAround opened start target := by
  fun_induction meets groups target opened pending with
  | case1 opened => simp
  | case2 opened pending => exact iff_of_true rfl ⟨target, List.mem_cons_self, .refl⟩
  | case3 opened name pending different plain ih =>
      rw [ih]
      exact reaches_pass_iff (.inl plain) different
  | case4 opened name pending different members known closed ih =>
      rw [ih]
      apply reaches_pass_iff (.inr ?_) different
      simpa using closed
  | case5 opened name pending different members known closed ih =>
      rw [ih]
      apply reaches_open_iff known ?_ different
      simpa using closed

/-- The search decides whether membership leads from a group back to the group. -/
theorem containsItself_iff (groups : Groups) (group : String) :
    groups.containsItself group = true ↔ Relation.TransGen groups.HasMember group group := by
  have held : ∀ member, member ∈ (groups.get? group).getD [] ↔
      groups.HasMember group member := by
    intro member
    unfold HasMember
    cases groups.get? group with
    | none => simp
    | some members => simp
  unfold containsItself
  rw [meets_iff, reachesAround_nil, Relation.TransGen.head'_iff]
  simp only [held, Reaches]

/-- A walk over some names meets a name, where no group contains itself or has no members: it passes
over nothing, since a group that is open leads to all names of the walk, and so to none that is
open. -/
theorem Walks.ne_nil {names met : List String} (walk : groups.Walks opened names met)
    (acyclic : ∀ group, ¬ Relation.TransGen groups.HasMember group group)
    (inhabited : ∀ group, groups.get? group ≠ some [])
    (below : ∀ group ∈ opened, ∀ name ∈ names,
      Relation.TransGen groups.HasMember group name)
    (given : names ≠ []) : met ≠ [] := by
  induction walk with
  | done => exact absurd rfl given
  | meet => exact List.cons_ne_nil _ _
  | @skip opened members rest met name known inside onward ih =>
      exact absurd (below name inside name List.mem_cons_self) (acyclic name)
  | @enter opened members rest within met name known outside deeper onward ihDeeper ihOnward =>
      have within_ne_nil : within ≠ [] := by
        apply ihDeeper
        · intro group among member held
          have step : groups.HasMember name member := ⟨members, known, held⟩
          rcases List.mem_cons.mp among with rfl | earlier
          · exact .single step
          · exact (below group earlier name List.mem_cons_self).tail step
        · intro empty
          rw [empty] at known
          exact inhabited name known
      exact List.append_ne_nil_of_left_ne_nil within_ne_nil met

end Groups

end FacetSearch
