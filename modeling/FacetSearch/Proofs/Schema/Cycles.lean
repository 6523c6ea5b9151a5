import FacetSearch.Proofs.Schema.Entries
import FacetSearch.Proofs.Schema.Search
import FacetSearch.Query.Selection

/-!
Groups inside themselves. The search for a group among its own members opens no group a second time,
whatever the way to it, so the members that are listed bound its length (`exists_looks`). What a
name stands for is found without such a memory, along each way anew, and meets a group inside itself
exactly if membership leads from the group back to it (`recurs_ofName_iff`).
-/

set_option autoImplicit false

namespace FacetSearch

namespace Groups

/-- A run of the search for a name: how many names it looks at, and whether it finds the name. It
goes into a group only if it has not been there. -/
inductive Looks (groups : Groups) (target : String) :
    List String → List String → Nat → Bool → Prop
  | exhausted (opened : List String) : Looks groups target opened [] 0 false
  | found (opened pending : List String) : Looks groups target opened (target :: pending) 1 true
  | pass {opened pending : List String} {name : String} {count : Nat} {answer : Bool}
      (different : name ≠ target) (stuck : groups.get? name = none ∨ name ∈ opened)
      (onward : Looks groups target opened pending count answer) :
      Looks groups target opened (name :: pending) (count + 1) answer
  | enter {opened members pending : List String} {name : String} {count : Nat} {answer : Bool}
      (different : name ≠ target) (known : groups.get? name = some members)
        (outside : name ∉ opened)
      (onward : Looks groups target (name :: opened) (members ++ pending) count answer) :
      Looks groups target opened (name :: pending) (count + 1) answer

/-- How many names are listed as members of groups that are not opened. -/
def unopenedMembers (groups : Groups) (opened : List String) : Nat :=
  ((groups.unopened opened).map fun group => ((groups.get? group).getD []).length).sum

variable {groups : Groups} {target : String} {opened pending : List String}

/-- Opening a group moves its members from the unopened ones to the pending ones. -/
theorem unopenedMembers_cons {group : String} {members : List String}
    (known : groups.get? group = some members) (outside : group ∉ opened) :
    members.length + groups.unopenedMembers (group :: opened) = groups.unopenedMembers opened := by
  have distinct : (groups.unopened opened).Nodup := (Dict.nodup_keys groups).filter _
  have among : group ∈ groups.unopened opened := by
    rw [unopened, List.mem_filter]
    exact ⟨Dict.mem_keys_of_get? known, by simpa using outside⟩
  have fewer : groups.unopened (group :: opened) = (groups.unopened opened).erase group := by
    rw [distinct.erase_eq_filter, unopened, unopened, List.filter_filter]
    apply List.filter_congr
    intro name _
    rw [Bool.eq_iff_iff]
    simp
  have split := List.sum_map_erase (fun name => ((groups.get? name).getD []).length) among
  rw [known, Option.getD_some, ← fewer] at split
  exact split

/-- The search ends with its answer. It looks at the names that are pending, and at the members of
each group that it opens. -/
theorem exists_looks (groups : Groups) (target : String) (opened pending : List String) :
    ∃ count, groups.Looks target opened pending count (groups.meets target opened pending) ∧
      count ≤ pending.length + groups.unopenedMembers opened := by
  fun_induction meets groups target opened pending with
  | case1 opened => exact ⟨0, .exhausted opened, Nat.zero_le _⟩
  | case2 opened pending => exact ⟨1, .found opened pending, by rw [List.length_cons]; omega⟩
  | case3 opened name pending different plain ih =>
      obtain ⟨count, onward, bounded⟩ := ih
      exact ⟨count + 1, .pass different (.inl plain) onward, by rw [List.length_cons]; omega⟩
  | case4 opened name pending different members known closed ih =>
      obtain ⟨count, onward, bounded⟩ := ih
      have inside : name ∈ opened := by simpa using closed
      exact ⟨count + 1, .pass different (.inr inside) onward, by rw [List.length_cons]; omega⟩
  | case5 opened name pending different members known closed ih =>
      obtain ⟨count, onward, bounded⟩ := ih
      have outside : name ∉ opened := by simpa using closed
      have fewer := unopenedMembers_cons known outside
      refine ⟨count + 1, .enter different known outside onward, ?_⟩
      rw [List.length_append] at bounded
      rw [List.length_cons]
      omega

/-- A name at which the search turns back is not one that it goes into. -/
theorem not_enters {name : String} {members : List String}
    (stuck : groups.get? name = none ∨ name ∈ opened)
    (known : groups.get? name = some members) : ¬ name ∉ opened := by
  intro outside
  rcases stuck with plain | inside
  · rw [plain] at known
    cases known
  · exact outside inside

/-- There is one run of the search. -/
theorem Looks.unique {count other : Nat} {answer reply : Bool}
    (run : groups.Looks target opened pending count answer)
    (again : groups.Looks target opened pending other reply) :
    other = count ∧ reply = answer := by
  induction run generalizing other reply with
  | exhausted =>
      cases again
      exact ⟨rfl, rfl⟩
  | found =>
      cases again with
      | found => exact ⟨rfl, rfl⟩
      | pass different => exact absurd rfl different
      | enter different => exact absurd rfl different
  | pass different stuck _ ih =>
      cases again with
      | found => exact absurd rfl different
      | pass _ _ second =>
          obtain ⟨rfl, rfl⟩ := ih second
          exact ⟨rfl, rfl⟩
      | enter _ known outside => exact absurd outside (not_enters stuck known)
  | enter different known outside _ ih =>
      cases again with
      | found => exact absurd rfl different
      | pass _ stuck => exact absurd outside (not_enters stuck known)
      | enter _ same _ second =>
          rw [known] at same
          cases same
          obtain ⟨rfl, rfl⟩ := ih second
          exact ⟨rfl, rfl⟩

/-- Membership leads from a group back to it exactly if it leads there from a member without going
through the group. -/
theorem reaches_itself_iff {group : String} :
    Relation.TransGen groups.HasMember group group ↔
      ∃ member, groups.HasMember group member ∧ groups.ReachesAround [group] member group := by
  rw [Relation.TransGen.head'_iff]
  constructor
  · intro found
    obtain ⟨member, held, reached⟩ := found
    rw [← Reaches, ← reachesAround_nil] at reached
    rcases reached.around_or_through group with around | again
    · exact ⟨member, held, around⟩
    · exact again
  · intro found
    obtain ⟨member, held, reached⟩ := found
    have whole : groups.ReachesAround [] member group := reached.of_cons
    rw [reachesAround_nil] at whole
    exact ⟨member, held, whole⟩

end Groups

namespace Selection

/-- A group is met inside itself. -/
inductive Recurs (group : String) : Selection → Prop
  | here : Recurs group (.recurring group)
  | within {name : String} {members : List Selection} {member : Selection}
      (among : member ∈ members) (deeper : Recurs group member) :
        Recurs group (.group name members)

variable {catalog : Catalog} {group : String}

/-- Below an open group a name meets that group where membership leads to it around the groups that
are open. -/
theorem recurs_expand_iff (known : catalog.groups.get? group ≠ none) {opened : List String}
    (inside : group ∈ opened) (name : String) :
    (expand catalog opened name).Recurs group ↔
    catalog.groups.ReachesAround opened name group := by
  fun_induction expand catalog opened name with
  | case1 opened name plain =>
      refine iff_of_false nofun ?_
      intro reached
      rw [Groups.eq_of_reachesAround (.inl plain) reached] at known
      exact known plain
  | case2 opened name members entry closed =>
      have turned : name ∈ opened := by simpa using closed
      constructor
      · intro recurs
        cases recurs
        exact .refl
      · intro reached
        rw [Groups.eq_of_reachesAround (.inr turned) reached]
        exact .here
  | case3 opened name members entry closed empty =>
      refine iff_of_false nofun ?_
      intro reached
      rcases Groups.exists_member_of_reachesAround reached with
        rfl | ⟨member, ⟨others, same, held⟩, -⟩
      · exact closed (by simpa using inside)
      · rw [entry] at same
        rw [← Option.some.inj same, List.isEmpty_iff.mp empty] at held
        cases held
  | case4 opened name members entry closed inhabited ih =>
      have outside : name ∉ opened := by simpa using closed
      have different : group ≠ name := fun same => outside (same ▸ inside)
      have deeper : ∀ member, (expand catalog (name :: opened) member).Recurs group ↔
          catalog.groups.ReachesAround (name :: opened) member group :=
        fun member => ih member (List.mem_cons_of_mem _ inside)
      rw [Groups.reachesAround_enter outside]
      constructor
      · intro recurs
        cases recurs with
        | within among further =>
            obtain ⟨member, held, rfl⟩ := List.mem_map.mp among
            exact .inr ⟨member, ⟨members, entry, held⟩, (deeper member).mp further⟩
      · intro reached
        obtain ⟨member, ⟨others, same, held⟩, onward⟩ := reached.resolve_left different
        rw [entry] at same
        cases same
        exact .within (List.mem_map_of_mem held) ((deeper member).mpr onward)

/-- A group is met inside itself exactly if membership leads from it back to it. -/
theorem recurs_ofName_iff (catalog : Catalog) (group : String) :
    (ofName catalog group).Recurs group ↔
      Relation.TransGen catalog.groups.HasMember group group := by
  rw [Groups.reaches_itself_iff, ofName, expand]
  split
  · rename_i plain
    constructor
    · intro recurs
      cases recurs
    · intro found
      obtain ⟨member, ⟨members, known, -⟩, -⟩ := found
      rw [plain] at known
      cases known
  · rename_i members known
    have among : ∀ member, catalog.groups.HasMember group member ↔ member ∈ members := by
      intro member
      simp [Groups.HasMember, known]
    have below : ∀ member, (expand catalog [group] member).Recurs group ↔
        catalog.groups.ReachesAround [group] member group :=
      recurs_expand_iff (by simp [known]) List.mem_cons_self
    rw [dif_neg (by simp)]
    simp only [among, ← below]
    by_cases empty : members.isEmpty = true
    · rw [if_pos empty, List.isEmpty_iff.mp empty]
      refine iff_of_false ?_ (by simp)
      intro recurs
      cases recurs
    · rw [if_neg empty]
      constructor
      · intro recurs
        cases recurs with
        | within among further =>
            obtain ⟨member, held, rfl⟩ := List.mem_map.mp among
            exact ⟨member, held, further⟩
      · intro found
        obtain ⟨member, held, further⟩ := found
        exact .within (List.mem_map_of_mem held) further

end Selection

end FacetSearch
