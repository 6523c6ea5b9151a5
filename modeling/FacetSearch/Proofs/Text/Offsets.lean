import Mathlib
import FacetSearch.Text.Bytes

/-!
Offsets into a text, and the characters that stand at them. `Stands` ties a character to the offset
of its first byte; what a part of a text holds is said by the offsets of its edges, so that the
order of edges is plain arithmetic. A boundary never lies inside a character (`Stands.next_le`).
-/

set_option autoImplicit false

namespace FacetSearch.Text

theorem byteLength_pos {text : List Char} (inhabited : text ≠ []) : 0 < byteLength text := by
  obtain ⟨c, rest, rfl⟩ := List.exists_cons_of_ne_nil inhabited
  have size := c.utf8Size_pos
  rw [byteLength_cons]
  omega

@[simp] theorem byteLength_reverse (text : List Char) :
    byteLength text.reverse = byteLength text := by
  induction text with
  | nil => rfl
  | cons c rest ih =>
      rw [List.reverse_cons, byteLength_append, ih, byteLength_cons, byteLength_cons,
        byteLength_nil]
      omega

/-- Of two beginnings of a text the shorter one begins the longer one. -/
theorem prefix_of_byteLength_le {text front other : List Char} (first : front <+: text)
    (second : other <+: text) (shorter : byteLength front ≤ byteLength other) :
    front <+: other := by
  rcases List.prefix_or_prefix_of_prefix first second with found | ⟨rest, rfl⟩
  · exact found
  · cases rest with
    | nil => rw [List.append_nil]
    | cons c rest =>
        have longer := byteLength_pos (List.cons_ne_nil c rest)
        rw [byteLength_append] at shorter
        omega

theorem cut_byteLength (front back : List Char) :
    cut (byteLength front) (front ++ back) = (front, back) := by
  induction front with
  | nil =>
      cases back with
      | nil => rfl
      | cons c rest =>
          have size := c.utf8Size_pos
          rw [byteLength_nil, List.nil_append, cut, if_neg (by omega)]
  | cons c front ih =>
      rw [byteLength_cons, List.cons_append, cut, if_pos (by omega), Nat.add_sub_cancel_left, ih]

variable {text : List Char} {offset start stop : Nat} {c d : Char}

/-- A boundary cuts a text into the part of so many bytes and the rest. -/
theorem isBoundary_iff : isBoundary text offset = true ↔
    ∃ front back, text = front ++ back ∧ byteLength front = offset := by
  constructor
  · intro boundary
    exact ⟨_, _, (cut_append offset text).symm, of_decide_eq_true boundary⟩
  · rintro ⟨front, back, rfl, rfl⟩
    simp [isBoundary, floor, cut_byteLength]

theorem byteLength_cut (boundary : isBoundary text offset = true) :
    byteLength (cut offset text).1 = offset := of_decide_eq_true boundary

theorem isBoundary_floor (text : List Char) (offset : Nat) :
    isBoundary text (floor text offset) = true :=
  isBoundary_iff.mpr ⟨_, _, (cut_append offset text).symm, rfl⟩

theorem floor_eq (boundary : isBoundary text offset = true) : floor text offset = offset :=
  byteLength_cut boundary

theorem isBoundary_byteLength (text : List Char) : isBoundary text (byteLength text) = true :=
  isBoundary_iff.mpr ⟨text, [], (List.append_nil text).symm, rfl⟩

theorem isBoundary_zero (text : List Char) : isBoundary text 0 = true :=
  isBoundary_iff.mpr ⟨[], text, rfl, rfl⟩

theorem le_byteLength (boundary : isBoundary text offset = true) : offset ≤ byteLength text := by
  obtain ⟨front, back, rfl, rfl⟩ := isBoundary_iff.mp boundary
  rw [byteLength_append]
  omega

/-- A character stands at an offset. -/
def Stands (text : List Char) (offset : Nat) (c : Char) : Prop :=
  ∃ front back, text = front ++ c :: back ∧ byteLength front = offset

theorem Stands.isBoundary (stands : Stands text offset c) : isBoundary text offset = true := by
  obtain ⟨front, back, whole, size⟩ := stands
  exact isBoundary_iff.mpr ⟨front, _, whole, size⟩

/-- What follows a character begins at a boundary. -/
theorem Stands.isBoundary_next (stands : Stands text offset c) :
    Text.isBoundary text (offset + c.utf8Size) = true := by
  obtain ⟨front, back, rfl, rfl⟩ := stands
  exact isBoundary_iff.mpr ⟨front ++ [c], back, by simp, by simp⟩

theorem Stands.unique (stands : Stands text offset c) (again : Stands text offset d) : c = d := by
  obtain ⟨front, back, rfl, rfl⟩ := stands
  obtain ⟨other, rest, whole, size⟩ := again
  have first := cut_byteLength front (c :: back)
  have second := cut_byteLength other (d :: rest)
  rw [← whole, size, first] at second
  exact (List.cons.inj (Prod.mk.inj second).2).1

/-- No boundary lies inside a character. -/
theorem Stands.next_le (stands : Stands text offset c) (boundary : Text.isBoundary text stop = true)
    (later : offset < stop) : offset + c.utf8Size ≤ stop := by
  obtain ⟨front, back, rfl, rfl⟩ := stands
  obtain ⟨other, rest, whole, rfl⟩ := isBoundary_iff.mp boundary
  have begins : other <+: front ++ c :: back := ⟨rest, whole.symm⟩
  obtain ⟨more, rfl⟩ :=
    prefix_of_byteLength_le (List.prefix_append _ _) begins (Nat.le_of_lt later)
  cases more with
  | nil =>
      rw [List.append_nil] at later
      omega
  | cons e more =>
      rw [List.append_assoc, List.append_cancel_left_eq, List.cons_append, List.cons.injEq] at whole
      rw [whole.1, byteLength_append, byteLength_cons]
      omega

/-- A character ends at every boundary but the first. -/
theorem exists_stands_before (boundary : isBoundary text stop = true) (inside : 0 < stop) :
    ∃ offset c, Stands text offset c ∧ offset + c.utf8Size = stop := by
  obtain ⟨front, back, rfl, rfl⟩ := isBoundary_iff.mp boundary
  have inhabited : front ≠ [] := by
    rintro rfl
    rw [byteLength_nil] at inside
    omega
  refine ⟨byteLength front.dropLast, front.getLast inhabited, ⟨_, back, ?_, rfl⟩, ?_⟩
  · rw [List.append_cons, List.dropLast_concat_getLast]
  · conv_rhs => rw [← List.dropLast_concat_getLast inhabited]
    simp

/-- A character stands at every boundary but the last. -/
theorem exists_stands_at (boundary : isBoundary text start = true)
    (inside : start < byteLength text) : ∃ c, Stands text start c := by
  obtain ⟨front, back, rfl, rfl⟩ := isBoundary_iff.mp boundary
  cases back with
  | nil => simp at inside
  | cons c rest => exact ⟨c, front, rest, rfl, rfl⟩

/-- The characters of a part of a text stand between its edges. -/
theorem mem_middle_iff (front : List Char) {middle : List Char} (back : List Char) :
    c ∈ middle ↔ ∃ offset, byteLength front ≤ offset ∧
      offset < byteLength front + byteLength middle ∧
      Stands (front ++ middle ++ back) offset c := by
  constructor
  · intro member
    obtain ⟨before, after, rfl⟩ := List.append_of_mem member
    have size := c.utf8Size_pos
    refine ⟨byteLength (front ++ before), ?_, ?_, front ++ before, after ++ back, by simp, rfl⟩
    · rw [byteLength_append]
      omega
    · rw [byteLength_append, byteLength_append, byteLength_cons]
      omega
  · rintro ⟨offset, lower, upper, before, after, whole, rfl⟩
    have beginning : before <+: front ++ middle ++ back := ⟨c :: after, whole.symm⟩
    have first : front <+: front ++ middle ++ back := ⟨middle ++ back, by simp⟩
    obtain ⟨inner, rfl⟩ := prefix_of_byteLength_le first beginning lower
    have ends : front ++ inner ++ [c] <+: front ++ middle := by
      have here : Stands (front ++ middle ++ back) (byteLength (front ++ inner)) c :=
        ⟨_, after, whole, rfl⟩
      have edge : isBoundary (front ++ middle ++ back) (byteLength (front ++ middle)) = true :=
        isBoundary_iff.mpr ⟨_, back, rfl, rfl⟩
      have next := here.next_le edge (by rw [byteLength_append front middle]; exact upper)
      have ended : front ++ inner ++ [c] <+: front ++ middle ++ back :=
        ⟨after, by rw [whole]; simp⟩
      refine prefix_of_byteLength_le ended ⟨back, rfl⟩ ?_
      · rw [byteLength_append (front ++ inner)]
        simpa using next
    rw [List.append_assoc, List.prefix_append_right_inj] at ends
    exact ends.subset (by simp)

theorem slice_append (front middle back : List Char) :
    slice (front ++ middle ++ back) (byteLength front) (byteLength (front ++ middle)) = middle := by
  rw [slice, cut_byteLength, cut_byteLength]

/-- Two boundaries in order cut a text into three parts. -/
theorem exists_middle (first : isBoundary text start = true) (last : isBoundary text stop = true)
    (ordered : start ≤ stop) : ∃ front middle back, text = front ++ middle ++ back ∧
      byteLength front = start ∧ byteLength (front ++ middle) = stop ∧
      slice text start stop = middle := by
  obtain ⟨front, rest, whole, rfl⟩ := isBoundary_iff.mp first
  obtain ⟨other, back, rfl, rfl⟩ := isBoundary_iff.mp last
  obtain ⟨middle, rfl⟩ :=
    prefix_of_byteLength_le ⟨rest, whole.symm⟩ (List.prefix_append other back) ordered
  exact ⟨front, middle, back, rfl, rfl, rfl, slice_append _ _ _⟩

/-- A slice holds the characters that stand between its edges. -/
theorem mem_slice_iff (first : isBoundary text start = true) (last : isBoundary text stop = true)
    (ordered : start ≤ stop) :
    c ∈ slice text start stop ↔ ∃ offset, start ≤ offset ∧ offset < stop ∧
      Stands text offset c := by
  obtain ⟨front, middle, back, rfl, rfl, rfl, same⟩ := exists_middle first last ordered
  rw [same, mem_middle_iff front back, byteLength_append]

/-- All characters between two offsets pass a test. -/
def AllBetween (test : Char → Bool) (text : List Char) (start stop : Nat) : Prop :=
  ∀ offset c, Stands text offset c → start ≤ offset → offset < stop → test c = true

/-- A run of characters that pass a test goes from an offset to another one. -/
structure RunsTo (test : Char → Bool) (text : List Char) (start stop : Nat) : Prop where
  ordered : start ≤ stop
  boundary : isBoundary text stop = true
  passes : AllBetween test text start stop

/-- A run of characters that pass a test goes back from an offset as far as it can. -/
structure RunsBack (test : Char → Bool) (text : List Char) (start stop : Nat) : Prop where
  ordered : start ≤ stop
  boundary : isBoundary text start = true
  passes : AllBetween test text start stop
  ends : ∀ offset c, Stands text offset c → offset + c.utf8Size = start → test c = false

theorem allBetween_slice {test : Char → Bool} (first : isBoundary text start = true)
    (last : isBoundary text stop = true) (ordered : start ≤ stop) :
    AllBetween test text start stop ↔ ∀ c ∈ slice text start stop, test c = true := by
  constructor
  · intro passes c member
    obtain ⟨offset, lower, upper, stands⟩ := (mem_slice_iff first last ordered).mp member
    exact passes offset c stands lower upper
  · intro passes offset c stands lower upper
    exact passes c ((mem_slice_iff first last ordered).mpr ⟨offset, lower, upper, stands⟩)

theorem runsTo_takeWhile (test : Char → Bool) (boundary : isBoundary text start = true) :
    RunsTo test text start (start + byteLength ((cut start text).2.takeWhile test)) ∧
      slice text start (start + byteLength ((cut start text).2.takeWhile test))
        = (cut start text).2.takeWhile test := by
  obtain ⟨front, back, rfl, rfl⟩ := isBoundary_iff.mp boundary
  rw [cut_byteLength]
  have whole : front ++ back = front ++ back.takeWhile test ++ back.dropWhile test := by
    rw [List.append_assoc, List.takeWhile_append_dropWhile]
  have sliced : slice (front ++ back) (byteLength front)
      (byteLength front + byteLength (back.takeWhile test))
      = back.takeWhile test := by
    rw [← byteLength_append, whole, slice_append]
  have edge : isBoundary (front ++ back) (byteLength front + byteLength (back.takeWhile test))
      = true := by
    rw [← byteLength_append]
    exact isBoundary_iff.mpr ⟨_, _, whole, rfl⟩
  refine ⟨⟨Nat.le_add_right _ _, edge, ?_⟩, sliced⟩
  rw [allBetween_slice boundary edge (Nat.le_add_right _ _), sliced]
  exact fun c member => List.mem_takeWhile_imp member

/-- The character behind a run fails its test. -/
theorem ends_takeWhile (test : Char → Bool) (boundary : isBoundary text start = true)
    (stands : Stands text (start + byteLength ((cut start text).2.takeWhile test)) c) :
    test c = false := by
  obtain ⟨front, back, rfl, rfl⟩ := isBoundary_iff.mp boundary
  rw [cut_byteLength, ← byteLength_append] at stands
  obtain ⟨before, after, whole, size⟩ := stands
  have first := cut_byteLength (front ++ back.takeWhile test) (back.dropWhile test)
  have second := cut_byteLength before (c :: after)
  rw [List.append_assoc, List.takeWhile_append_dropWhile] at first
  rw [← whole, size, first] at second
  have stops := List.head?_dropWhile_not test back
  rw [(Prod.mk.inj second).2] at stops
  exact stops

theorem runsBack_takeWhile (test : Char → Bool) (boundary : isBoundary text stop = true) :
    RunsBack test text (stop - byteLength ((cut stop text).1.reverse.takeWhile test)) stop ∧
      slice text (stop - byteLength ((cut stop text).1.reverse.takeWhile test)) stop
        = ((cut stop text).1.reverse.takeWhile test).reverse := by
  obtain ⟨front, back, rfl, rfl⟩ := isBoundary_iff.mp boundary
  rw [cut_byteLength]
  have whole : front = (front.reverse.dropWhile test).reverse ++
      (front.reverse.takeWhile test).reverse := by
    rw [← List.reverse_append, List.takeWhile_append_dropWhile, List.reverse_reverse]
  have size : byteLength front - byteLength (front.reverse.takeWhile test)
      = byteLength (front.reverse.dropWhile test).reverse := by
    have both := congrArg byteLength whole
    rw [byteLength_append, byteLength_reverse (front.reverse.takeWhile test)] at both
    omega
  have sliced : slice (front ++ back) (byteLength (front.reverse.dropWhile test).reverse)
      (byteLength front)
      = (front.reverse.takeWhile test).reverse := by
    have middle := slice_append (front.reverse.dropWhile test).reverse
      (front.reverse.takeWhile test).reverse back
    rwa [← whole] at middle
  have edge : isBoundary (front ++ back) (byteLength (front.reverse.dropWhile test).reverse)
      = true := by
    refine isBoundary_iff.mpr ⟨_, (front.reverse.takeWhile test).reverse ++ back, ?_, rfl⟩
    rw [← List.append_assoc, ← whole]
  have ordered : byteLength (front.reverse.dropWhile test).reverse ≤ byteLength front := by omega
  rw [size]
  refine ⟨⟨ordered, edge, ?_, ?_⟩, sliced⟩
  · rw [allBetween_slice edge boundary ordered, sliced]
    intro c member
    exact List.mem_takeWhile_imp (List.mem_reverse.mp member)
  · rintro offset c ⟨before, after, same, rfl⟩ last
    have first := cut_byteLength (front.reverse.dropWhile test).reverse
      ((front.reverse.takeWhile test).reverse ++ back)
    have second := cut_byteLength (before ++ [c]) after
    have length : byteLength (before ++ [c])
        = byteLength (front.reverse.dropWhile test).reverse := by
      simpa using last
    rw [← List.append_assoc, ← whole] at first
    rw [← List.append_cons, ← same, length, first] at second
    have reversed := congrArg List.reverse (Prod.mk.inj second).1
    rw [List.reverse_reverse, List.reverse_append] at reversed
    have stops := List.head?_dropWhile_not test front.reverse
    rw [reversed] at stops
    exact stops

end FacetSearch.Text
