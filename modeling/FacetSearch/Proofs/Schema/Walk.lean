import Mathlib
import FacetSearch.Schema.Groups

/-!
Depth-first walks over groups. A walk passes over a group while it is inside that group, and over
nothing else. Every walk ends (`exists_walk`), and although it cuts every cycle it meets all names
that membership reaches (`Walks.mem_iff`): the way to a name that goes through a group twice has a
shorter one that leaves out the round in between.
-/

set_option autoImplicit false

namespace FacetSearch

namespace Groups

/-- A name is a member of a group. -/
def HasMember (groups : Groups) (group member : String) : Prop :=
  ∃ members, groups.get? group = some members ∧ member ∈ members

/-- A name is another one, a member of it, a member of a member, and so on. -/
def Reaches (groups : Groups) : String → String → Prop := Relation.ReflTransGen groups.HasMember

/-- A name is reached without going through groups that are open. -/
def ReachesAround (groups : Groups) (opened : List String) : String → String → Prop :=
  Relation.ReflTransGen fun group member => group ∉ opened ∧ groups.HasMember group member

/-- A depth-first walk over names inside the open groups, and the names other than groups that it
meets, as often as it meets them. -/
inductive Walks (groups : Groups) : List String → List String → List String → Prop
  | done (opened : List String) : Walks groups opened [] []
  | meet {opened rest met : List String} {name : String} (plain : groups.get? name = none)
      (onward : Walks groups opened rest met) : Walks groups opened (name :: rest) (name :: met)
  | skip {opened members rest met : List String} {name : String}
      (known : groups.get? name = some members) (inside : name ∈ opened)
      (onward : Walks groups opened rest met) : Walks groups opened (name :: rest) met
  | enter {opened members rest within met : List String} {name : String}
      (known : groups.get? name = some members) (outside : name ∉ opened)
      (below : Walks groups (name :: opened) members within)
      (onward : Walks groups opened rest met) : Walks groups opened (name :: rest) (within ++ met)

variable {groups : Groups} {opened names met : List String}

theorem reachesAround_nil : groups.ReachesAround [] = groups.Reaches := by
  simp only [ReachesAround, Reaches, List.not_mem_nil, not_false_eq_true, true_and]

/-- Every walk ends: each group that is entered leaves fewer to enter. -/
theorem exists_walk (groups : Groups) (opened names : List String) :
    ∃ met, groups.Walks opened names met := by
  induction count : (groups.unopened opened).length using Nat.strongRecOn
    generalizing opened names with
  | ind left ih =>
      induction names with
      | nil => exact ⟨[], .done opened⟩
      | cons name rest inner =>
          obtain ⟨met, onward⟩ := inner
          cases known : groups.get? name with
          | none => exact ⟨name :: met, .meet known onward⟩
          | some members =>
              by_cases inside : name ∈ opened
              · exact ⟨met, .skip known inside onward⟩
              · have fewer : (groups.unopened (name :: opened)).length < left := by
                  rw [← count]
                  exact length_unopened_lt known (by simpa using inside)
                obtain ⟨within, below⟩ := ih _ fewer (name :: opened) members rfl
                exact ⟨within ++ met, .enter known inside below onward⟩

/-- There is one walk over given names. -/
theorem Walks.unique (walk : groups.Walks opened names met) {other : List String}
    (again : groups.Walks opened names other) : other = met := by
  induction walk generalizing other with
  | done opened =>
      cases again
      rfl
  | meet plain onward ih =>
      cases again with
      | meet _ second => rw [ih second]
      | skip known => simp [plain] at known
      | enter known => simp [plain] at known
  | skip known inside onward ih =>
      cases again with
      | meet plain => simp [plain] at known
      | skip _ _ second => exact ih second
      | enter _ outside => exact absurd inside outside
  | enter known outside below onward ihBelow ihOnward =>
      cases again with
      | meet plain => simp [plain] at known
      | skip _ inside => exact absurd inside outside
      | enter same _ first second =>
          rw [known] at same
          cases same
          rw [ihBelow first, ihOnward second]

/-- From a name that is no group, or from a group that is open, nothing else is reached. -/
theorem eq_of_reachesAround {start name : String}
    (stuck : groups.get? start = none ∨ start ∈ opened)
    (reached : groups.ReachesAround opened start name) : name = start := by
  rcases Relation.ReflTransGen.cases_head reached with
    same | ⟨member, ⟨outside, members, known, _⟩, _⟩
  · exact same.symm
  · rcases stuck with plain | inside
    · simp [plain] at known
    · exact absurd inside outside

/-- A way that leaves a group goes, from the last time on that it leaves it, around that group. -/
theorem exists_member_of_reachesAround {group name : String}
    (reached : groups.ReachesAround opened group name) :
    name = group ∨
      ∃ member, groups.HasMember group member ∧
        groups.ReachesAround (group :: opened) member name := by
  induction reached with
  | refl => exact .inl rfl
  | @tail between name _ last ih =>
      obtain ⟨outside, member⟩ := last
      by_cases back : between = group
      · exact .inr ⟨name, back ▸ member, .refl⟩
      · obtain ⟨first, held, onward⟩ := ih.resolve_left back
        refine .inr ⟨first, held, onward.tail ⟨?_, member⟩⟩
        simp [back, outside]

theorem reachesAround_enter {group name : String} (outside : group ∉ opened) :
    groups.ReachesAround opened group name ↔
      name = group ∨
        ∃ member, groups.HasMember group member ∧
          groups.ReachesAround (group :: opened) member name := by
  refine ⟨exists_member_of_reachesAround, ?_⟩
  rintro (rfl | ⟨member, held, onward⟩)
  · exact .refl
  · have around : groups.ReachesAround opened member name := by
      refine Relation.ReflTransGen.mono (fun _ _ step => ⟨?_, step.2⟩) _ _ onward
      exact fun inside => step.1 (List.mem_cons_of_mem _ inside)
    exact .head ⟨outside, held⟩ around

/-- A walk meets what its names reach around the open groups, and nothing else. -/
theorem Walks.mem_iff (walk : groups.Walks opened names met) (name : String) :
    name ∈ met ↔
      groups.get? name = none ∧ ∃ start ∈ names, groups.ReachesAround opened start name := by
  induction walk with
  | done => simp
  | @meet opened rest met first plain _ ih =>
      have itself : groups.ReachesAround opened first name ↔ name = first :=
        ⟨eq_of_reachesAround (.inl plain), fun same => same ▸ .refl⟩
      rw [List.mem_cons, ih]
      simp only [List.mem_cons, exists_eq_or_imp, itself]
      grind
  | @skip opened members rest met first known inside _ ih =>
      have itself : groups.get? name = none → ¬ groups.ReachesAround opened first name := by
        intro plain reached
        rw [eq_of_reachesAround (.inr inside) reached, known] at plain
        cases plain
      rw [ih]
      simp only [List.mem_cons, exists_eq_or_imp]
      grind
  | @enter opened members rest within met first known outside _ _ ihBelow ihOnward =>
      have itself : groups.get? name = none → (groups.ReachesAround opened first name ↔
          ∃ start ∈ members, groups.ReachesAround (first :: opened) start name) := by
        intro plain
        have different : name ≠ first := by
          rintro rfl
          simp [plain] at known
        rw [reachesAround_enter outside]
        simp only [different, false_or, HasMember, known, Option.some.injEq, exists_eq_left']
      rw [List.mem_append, ihBelow, ihOnward]
      simp only [List.mem_cons, exists_eq_or_imp]
      grind

end Groups

end FacetSearch
