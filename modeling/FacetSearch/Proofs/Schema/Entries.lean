import Mathlib
import FacetSearch.Dict

/-!
Dictionaries and their look-ups. An entry is what its key looks up (`get?_eq_some_iff`), so look-ups
tell dictionaries apart (`ext_get?`), and a dictionary is made of its entries (`ofList_entries`).
-/

set_option autoImplicit false

namespace FacetSearch

namespace Dict

variable {α : Type} {dict first second : Dict α} {key : String} {value : α}

theorem nodup_keys (dict : Dict α) : (dict.entries.map Prod.fst).Nodup :=
  List.pairwise_map.mpr (dict.sorted.imp fun below => ne_of_lt below)

theorem lookup_of_mem {entries : List (String × α)} (distinct : (entries.map Prod.fst).Nodup)
    (member : (key, value) ∈ entries) : entries.lookup key = some value := by
  induction entries with
  | nil => cases member
  | cons entry rest ih =>
      obtain ⟨fresh, later⟩ := List.nodup_cons.mp distinct
      rcases List.mem_cons.mp member with rfl | held
      · exact List.lookup_cons_self
      · have different : key ≠ entry.1 := fun same => fresh (same ▸ List.mem_map_of_mem held)
        rw [List.lookup_cons, beq_false_of_ne different]
        exact ih later held

theorem get?_eq_some_iff : dict.get? key = some value ↔ (key, value) ∈ dict.entries := by
  constructor
  · intro found
    obtain ⟨before, after, entries, _⟩ := List.lookup_eq_some_iff.mp found
    simp [entries]
  · exact lookup_of_mem dict.nodup_keys

theorem ext_get? (same : ∀ key, first.get? key = second.get? key) : first = second := by
  have entries : first.entries = second.entries := by
    have irreflexive : Std.Irrefl fun one other : String × α => one.1 < other.1 :=
      ⟨fun one => lt_irrefl one.1⟩
    have antisymmetric : Std.Antisymm fun one other : String × α => one.1 < other.1 :=
      ⟨fun _ _ below above => absurd below (lt_asymm above)⟩
    refine first.sorted.eq_of_mem_iff second.sorted fun (key, value) => ?_
    rw [← get?_eq_some_iff, same key, get?_eq_some_iff]
  cases first
  cases second
  cases entries
  rfl

theorem ofList_entries (dict : Dict α) : ofList dict.entries = dict := by
  refine ext_get? fun key => ?_
  rw [ofList, get?_foldl_insert _ _ dict.sorted]
  exact Option.or_none

theorem orElse_empty (dict : Dict α) : dict.orElse .empty = dict := ofList_entries dict

end Dict

end FacetSearch
