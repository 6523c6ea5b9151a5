/-!
Dictionaries with text keys. The entries are sorted by key, so equal contents are equal
dictionaries, and listings do not depend on the order in which entries came in.

`get?_insert` says what an insertion does to every look-up, and `get?_orElse` what a union does.
-/

set_option autoImplicit false

namespace FacetSearch

/-- A finite map from texts, in increasing order of its keys. -/
structure Dict (α : Type) where
  entries : List (String × α)
  sorted : entries.Pairwise (fun first second => first.1 < second.1)

namespace Dict

variable {α : Type}

instance [DecidableEq α] : DecidableEq (Dict α) := fun first second =>
  if same : first.entries = second.entries then
    isTrue (by cases first; cases second; cases same; rfl)
  else
    isFalse (by intro equal; exact same (congrArg entries equal))

def empty : Dict α := ⟨[], .nil⟩

instance : Inhabited (Dict α) := ⟨empty⟩

def get? (dict : Dict α) (key : String) : Option α := dict.entries.lookup key

def contains (dict : Dict α) (key : String) : Bool := (dict.get? key).isSome

def keys (dict : Dict α) : List String := dict.entries.map Prod.fst

def values (dict : Dict α) : List α := dict.entries.map Prod.snd

def size (dict : Dict α) : Nat := dict.entries.length

def isEmpty (dict : Dict α) : Bool := dict.entries.isEmpty

/-- Puts an entry into its place in a sorted list, over one with the same key. -/
def place (key : String) (value : α) : List (String × α) → List (String × α)
  | [] => [(key, value)]
  | (other, held) :: rest =>
    if key < other then (key, value) :: (other, held) :: rest
    else if key = other then (key, value) :: rest
    else (other, held) :: place key value rest

theorem mem_place {key : String} {value : α} {entry : String × α} {list : List (String × α)}
    (member : entry ∈ place key value list) : entry = (key, value) ∨ entry ∈ list := by
  fun_induction place key value list with
  | case1 => simpa using member
  | case2 => simpa using member
  | case3 =>
    rcases List.mem_cons.1 member with found | found
    · exact .inl found
    · exact .inr (List.mem_cons_of_mem _ found)
  | case4 other held rest _ _ ih =>
    rcases List.mem_cons.1 member with found | found
    · exact .inr (found ▸ List.mem_cons_self)
    · rcases ih found with new | old
      · exact .inl new
      · exact .inr (List.mem_cons_of_mem _ old)

theorem lt_of_not_lt_of_ne {first second : String} (notLess : ¬ first < second)
    (different : first ≠ second) : second < first := by
  have le : second ≤ first := notLess
  exact String.not_le.1 fun reverse => different (String.le_antisymm reverse le)

theorem sorted_place (key : String) (value : α) {list : List (String × α)}
    (sorted : list.Pairwise (fun first second => first.1 < second.1)) :
    (place key value list).Pairwise (fun first second => first.1 < second.1) := by
  fun_induction place key value list with
  | case1 => simp
  | case2 other held rest less =>
    refine List.pairwise_cons.2 ⟨fun entry member => ?_, sorted⟩
    rcases List.mem_cons.1 member with found | found
    · rw [found]; exact less
    · exact String.lt_trans less ((List.pairwise_cons.1 sorted).1 entry found)
  | case3 =>
    exact List.pairwise_cons.2 (List.pairwise_cons.1 sorted)
  | case4 other held rest notLess different ih =>
    have parts := List.pairwise_cons.1 sorted
    refine List.pairwise_cons.2 ⟨fun entry member => ?_, ih parts.2⟩
    rcases mem_place member with found | found
    · rw [found]
      exact lt_of_not_lt_of_ne notLess different
    · exact parts.1 entry found

/-- Adds an entry, or gives a key a new value. -/
def insert (dict : Dict α) (key : String) (value : α) : Dict α :=
  ⟨place key value dict.entries, sorted_place key value dict.sorted⟩

theorem lookup_place (key other : String) (value : α) (list : List (String × α)) :
    (place key value list).lookup other
      = if other = key then some value else list.lookup other := by
  fun_induction place key value list with
  | case1 =>
    by_cases same : other = key
    · simp [same]
    · simp [List.lookup_cons, same, beq_false_of_ne same]
  | case2 k held rest less =>
    by_cases same : other = key
    · simp [same]
    · simp [List.lookup_cons, same, beq_false_of_ne same]
  | case3 =>
    by_cases same : other = key
    · simp [same]
    · simp [List.lookup_cons, same, beq_false_of_ne same]
  | case4 k held rest _ different ih =>
    by_cases same : other = k
    · subst same
      simp [Ne.symm different]
    · simp only [List.lookup_cons, beq_false_of_ne same, ih]

theorem get?_insert (dict : Dict α) (key other : String) (value : α) :
    (dict.insert key value).get? other = if other = key then some value else dict.get? other :=
  lookup_place key other value dict.entries

/-- The dictionary of a list of entries; of several with the same key the last one counts. -/
def ofList (entries : List (String × α)) : Dict α :=
  entries.foldl (fun dict entry => dict.insert entry.1 entry.2) empty

/-- The entries of both; the first dictionary counts where both have one. -/
def orElse (first second : Dict α) : Dict α :=
  first.entries.foldl (fun dict entry => dict.insert entry.1 entry.2) second

theorem lookup_eq_none_of_lt {key : String} {list : List (String × α)}
    (above : ∀ entry ∈ list, key < entry.1) : list.lookup key = none := by
  refine List.lookup_eq_none_iff.2 fun entry member => ?_
  simp only [bne_iff_ne, ne_eq]
  intro same
  exact String.lt_irrefl key (same ▸ above entry member)

theorem get?_foldl_insert (dict : Dict α) (key : String) {list : List (String × α)}
    (sorted : list.Pairwise (fun first second => first.1 < second.1)) :
    (list.foldl (fun dict entry => dict.insert entry.1 entry.2) dict).get? key
      = (list.lookup key).or (dict.get? key) := by
  induction list generalizing dict with
  | nil => rfl
  | cons entry rest ih =>
    obtain ⟨first, value⟩ := entry
    have parts := List.pairwise_cons.1 sorted
    rw [List.foldl_cons, ih _ parts.2, get?_insert]
    by_cases same : key = first
    · subst same
      simp [lookup_eq_none_of_lt parts.1]
    · simp [List.lookup_cons, same, beq_false_of_ne same]

theorem get?_orElse (first second : Dict α) (key : String) :
    (first.orElse second).get? key = (first.get? key).or (second.get? key) :=
  get?_foldl_insert second key first.sorted

def map {β : Type} (f : α → β) (dict : Dict α) : Dict β :=
  ⟨dict.entries.map fun entry => (entry.1, f entry.2), by
    rw [List.pairwise_map]
    exact dict.sorted⟩

end Dict

end FacetSearch
