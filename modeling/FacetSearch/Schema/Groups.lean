import FacetSearch.Dict

/-!
Walks over groups. There are finitely many groups, so a walk that opens none of them twice ends.
-/

set_option autoImplicit false

namespace FacetSearch

theorem Dict.mem_keys_of_get? {α : Type} {dict : Dict α} {key : String} {value : α}
    (found : dict.get? key = some value) : key ∈ dict.keys := by
  obtain ⟨before, after, entries, _⟩ := List.lookup_eq_some_iff.1 found
  simp [Dict.keys, entries]

theorem length_filter_lt_of_imp {α : Type} {keep keepFewer : α → Bool} {list : List α} {x : α}
    (fewer : ∀ y, keepFewer y = true → keep y = true) (member : x ∈ list)
    (kept : keep x = true) (dropped : keepFewer x = false) :
    (list.filter keepFewer).length < (list.filter keep).length := by
  have same : list.filter keepFewer = (list.filter keep).filter keepFewer := by
    rw [List.filter_filter]
    congr 1
    funext y
    cases here : keepFewer y
    · simp
    · simp [fewer y here]
  rw [same]
  refine Nat.lt_of_le_of_ne (List.length_filter_le _ _) fun equal => ?_
  have all := List.length_filter_eq_length_iff.1 equal x (List.mem_filter.2 ⟨member, kept⟩)
  rw [dropped] at all
  cases all

/-- Groups by name, each with its members in order. Members may be groups again. -/
abbrev Groups := Dict (List String)

namespace Groups

/-- The groups that a walk has not opened. -/
def unopened (groups : Groups) (opened : List String) : List String :=
  groups.keys.filter (!opened.contains ·)

theorem length_unopened_lt {groups : Groups} {opened members : List String} {name : String}
    (found : groups.get? name = some members) (closed : ¬ opened.contains name = true) :
    (unopened groups (name :: opened)).length < (unopened groups opened).length := by
  refine length_filter_lt_of_imp (fun y kept => ?_) (Dict.mem_keys_of_get? found)
    (by simpa using closed) (by simp)
  simp only [List.contains_cons, Bool.not_eq_true', Bool.or_eq_false_iff] at kept
  simp only [Bool.not_eq_true']
  exact kept.2

/-- Whether a walk that has opened some groups, and has some names still to look at, meets the
target. A name that is no group leads nowhere. -/
def meets (groups : Groups) (target : String) (opened : List String) :
    (pending : List String) → Bool
  | [] => false
  | name :: pending =>
    if name = target then true
    else
      match _found : groups.get? name with
      | none => meets groups target opened pending
      | some members =>
        if _closed : opened.contains name then meets groups target opened pending
        else meets groups target (name :: opened) (members ++ pending)
termination_by pending => ((unopened groups opened).length, pending.length)
decreasing_by
  · exact Prod.Lex.right _ (by simp)
  · exact Prod.Lex.right _ (by simp)
  · exact Prod.Lex.left _ _ (length_unopened_lt _found _closed)

/-- Whether a group contains itself, directly or through other groups. -/
def containsItself (groups : Groups) (group : String) : Bool :=
  meets groups group [] ((groups.get? group).getD [])

end Groups

end FacetSearch
