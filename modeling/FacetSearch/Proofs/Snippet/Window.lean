import FacetSearch.Proofs.Text.Offsets
import FacetSearch.Snippet.Boundary

/-!
Windows around matches. A window holds the match between any two offsets, lies on character
boundaries, and has no divider between its edges and the match (`windowAround_between`).

A later match can have the window that begins earlier: where the padding of the first one ends in
front of a divider, its window begins only at the word behind, and the padding of the second one can
end between the divider and that word. This is the only way (`exists_divider_of_start_lt`), and no
window of a match in front of the divider reaches across it. So a window that ends before another
one begins also ends before the windows of later matches (`windowAround_stop_lt`).
-/

set_option autoImplicit false

namespace FacetSearch

open Text

variable (dividers : Dividers) {text : List Char}

theorem cut_floor (text : List Char) (offset : Nat) :
    cut (Text.floor text offset) text = cut offset text := by
  have again := cut_byteLength (cut offset text).1 (cut offset text).2
  rwa [cut_append] at again

namespace Dividers

@[simp] theorem holds_iff {dividers : Dividers} {c : Char} :
    dividers.holds c = true ↔ c ∈ dividers.chars :=
  List.contains_iff_mem

/-- There is no divider between two offsets. -/
def Clear (dividers : Dividers) (text : List Char) (start stop : Nat) : Prop :=
  AllBetween (fun c => c ∉ dividers.chars) text start stop

theorem clear_eq : dividers.Clear = AllBetween (!dividers.holds ·) := by
  have same : (fun c => decide (c ∉ dividers.chars)) = (!dividers.holds ·) := by
    funext c
    simp [← holds_iff]
  unfold Clear
  rw [same]

/-- The left edge goes back to the start of a word, or forward over a stretch with a divider to the
next word. -/
theorem left_cases (text : List Char) (offset : Nat) :
    RunsBack isAlphanumeric text (dividers.left text offset) (Text.floor text offset) ∨
      (RunsBack isAlphanumeric text (Text.floor text offset) (Text.floor text offset) ∧
        RunsTo separatesWords text (Text.floor text offset) (dividers.left text offset) ∧
        ∃ place c, Stands text place c ∧ c ∈ dividers.chars ∧
          Text.floor text offset ≤ place ∧ place < dividers.left text offset) := by
  have boundary := isBoundary_floor text offset
  obtain ⟨back, _⟩ := runsBack_takeWhile isAlphanumeric boundary
  obtain ⟨onward, gap⟩ := runsTo_takeWhile separatesWords boundary
  rw [cut_floor] at back onward gap
  have start : byteLength (cut offset text).1 = Text.floor text offset := rfl
  unfold left
  simp only [start]
  by_cases empty : ((cut offset text).1.reverse.takeWhile isAlphanumeric).isEmpty = true
  · rw [if_pos empty]
    rw [List.isEmpty_iff.mp empty, byteLength_nil, Nat.sub_zero] at back
    by_cases held : ((cut offset text).2.takeWhile separatesWords).any dividers.holds = true
    · rw [if_pos held]
      obtain ⟨c, member, divides⟩ := List.any_eq_true.mp held
      rw [← gap, mem_slice_iff boundary onward.boundary onward.ordered] at member
      obtain ⟨place, lower, upper, stands⟩ := member
      exact .inr ⟨back, onward, place, c, stands, holds_iff.mp divides, lower, upper⟩
    · rw [if_neg held]
      exact .inl back
  · rw [if_neg empty]
    exact .inl back

/-- The right edge goes on to the end of a word, or back over a stretch with a divider to the
previous word. -/
theorem right_cases (text : List Char) (offset : Nat) :
    (RunsTo isAlphanumeric text (Text.floor text offset) (dividers.right text offset) ∧
        ∀ c, Stands text (dividers.right text offset) c → isAlphanumeric c = false) ∨
      ((∀ c, Stands text (Text.floor text offset) c → isAlphanumeric c = false) ∧
        RunsBack separatesWords text (dividers.right text offset) (Text.floor text offset)) := by
  have boundary := isBoundary_floor text offset
  obtain ⟨onward, _⟩ := runsTo_takeWhile isAlphanumeric boundary
  obtain ⟨back, _⟩ := runsBack_takeWhile separatesWords boundary
  have ends := fun c => ends_takeWhile isAlphanumeric (c := c) boundary
  rw [cut_floor] at back onward ends
  have stop : byteLength (cut offset text).1 = Text.floor text offset := rfl
  unfold right
  simp only [stop]
  by_cases empty : ((cut offset text).2.takeWhile isAlphanumeric).isEmpty = true
  · rw [if_pos empty]
    rw [List.isEmpty_iff.mp empty, byteLength_nil, Nat.add_zero] at onward ends
    split
    · exact .inr ⟨ends, back⟩
    · exact .inl ⟨onward, ends⟩
  · rw [if_neg empty]
    exact .inl ⟨onward, ends⟩

theorem runsTo_nextWordStart {offset : Nat} (boundary : isBoundary text offset = true) :
    RunsTo separatesWords text offset (nextWordStart text offset) :=
  (runsTo_takeWhile separatesWords boundary).1

theorem runsBack_previousWordEnd {offset : Nat} (boundary : isBoundary text offset = true) :
    RunsBack separatesWords text (previousWordEnd text offset) offset :=
  (runsBack_takeWhile separatesWords boundary).1

/-- A run that ends inside a stretch does not see what follows the stretch. -/
theorem takeWhile_append_of_any {test : Char → Bool} {stretch : List Char} (more : List Char)
    (fails : stretch.any (!test ·) = true) :
    (stretch ++ more).takeWhile test = stretch.takeWhile test := by
  induction stretch with
  | nil => cases fails
  | cons c rest ih =>
      by_cases passes : test c = true
      · have later : rest.any (!test ·) = true := by simpa [passes] using fails
        rw [List.cons_append, List.takeWhile_cons_of_pos passes,
          List.takeWhile_cons_of_pos passes, ih later]
      · rw [List.cons_append, List.takeWhile_cons_of_neg passes, List.takeWhile_cons_of_neg passes]

/-- The left edge inside the stretch in front of a match: the given one where no divider follows it,
or else the next word behind the last divider. -/
theorem startInside_cases {matched : Span} {start : Nat} (first : isBoundary text start = true)
    (last : isBoundary text matched.start = true) (ordered : start ≤ matched.start) :
    (dividers.Clear text start matched.start ∧
        dividers.startInside text matched start = start) ∨
      ∃ place c, Stands text place c ∧ c ∈ dividers.chars ∧ start ≤ place ∧
        place + c.utf8Size ≤ matched.start ∧
        dividers.Clear text (place + c.utf8Size) matched.start ∧
        dividers.startInside text matched start
          = min (nextWordStart text (place + c.utf8Size)) matched.start := by
  unfold startInside
  obtain ⟨before, middle, after, rfl, rfl, size, sliced⟩ := exists_middle first last ordered
  simp only [sliced]
  by_cases held : middle.any dividers.holds = true
  · rw [if_pos held]
    obtain ⟨back, _⟩ := runsBack_takeWhile (!dividers.holds ·) last
    rw [← size, cut_byteLength, List.reverse_append,
      takeWhile_append_of_any _ (by simpa using held), size] at back
    obtain ⟨d, member, divides⟩ := List.any_eq_true.mp held
    rw [← sliced, mem_slice_iff first last ordered] at member
    obtain ⟨earlier, lower, upper, there⟩ := member
    -- The run back from the match ends behind the divider that is there.
    have past : earlier < matched.start -
        byteLength (middle.reverse.takeWhile (!dividers.holds ·)) := by
      by_contra inside
      have passes := back.passes earlier d there (Nat.not_lt.mp inside) upper
      simp [divides] at passes
    obtain ⟨place, c, stands, next⟩ := exists_stands_before back.boundary (by omega)
    refine .inr ⟨place, c, stands, by simpa using back.ends place c stands next, ?_, ?_, ?_, ?_⟩
    · by_contra outside
      have inside := stands.next_le first (Nat.not_le.mp outside)
      omega
    · rw [next]
      exact back.ordered
    · rw [next, clear_eq]
      exact back.passes
    · rw [next]
  · rw [if_neg held]
    refine .inl ⟨?_, rfl⟩
    rw [Clear, allBetween_slice first last ordered, sliced]
    simpa using held

/-- The right edge inside the stretch behind a match: the given one where no divider stands in front
of it, or else the last word in front of the first divider. -/
theorem stopInside_cases {matched : Span} {stop : Nat} (first : isBoundary text matched.stop = true)
    (last : isBoundary text stop = true) (ordered : matched.stop ≤ stop) :
    (dividers.Clear text matched.stop stop ∧ dividers.stopInside text matched stop = stop) ∨
      ∃ place c, Stands text place c ∧ c ∈ dividers.chars ∧ matched.stop ≤ place ∧
        place < stop ∧ dividers.Clear text matched.stop place ∧
        dividers.stopInside text matched stop = max (previousWordEnd text place) matched.stop := by
  unfold stopInside
  obtain ⟨before, middle, after, rfl, size, _, sliced⟩ := exists_middle first last ordered
  simp only [sliced]
  by_cases held : middle.any dividers.holds = true
  · rw [if_pos held]
    obtain ⟨onward, _⟩ := runsTo_takeWhile (!dividers.holds ·) first
    have ends := fun c => ends_takeWhile (!dividers.holds ·) (c := c) first
    rw [← size, List.append_assoc, cut_byteLength,
      takeWhile_append_of_any _ (by simpa using held), size, ← List.append_assoc] at onward ends
    obtain ⟨d, member, divides⟩ := List.any_eq_true.mp held
    rw [← sliced, mem_slice_iff first last ordered] at member
    obtain ⟨later, lower, upper, there⟩ := member
    -- The run on from the match ends in front of the divider that is there.
    have reached : matched.stop + byteLength (middle.takeWhile (!dividers.holds ·)) ≤ later := by
      by_contra past
      have passes := onward.passes later d there lower (Nat.not_le.mp past)
      simp [divides] at passes
    have inside := reached.trans_lt (upper.trans_le (le_byteLength last))
    obtain ⟨c, stands⟩ := exists_stands_at onward.boundary inside
    exact .inr ⟨_, c, stands, by simpa using ends c stands, onward.ordered,
      reached.trans_lt upper, clear_eq dividers ▸ onward.passes, rfl⟩
  · rw [if_neg held]
    refine .inl ⟨?_, rfl⟩
    rw [Clear, allBetween_slice first last ordered, sliced]
    simpa using held

/-- The left edge inside the stretch in front of a match never moves out. -/
theorem le_startInside {matched : Span} {start : Nat} (first : isBoundary text start = true)
    (last : isBoundary text matched.start = true) (ordered : start ≤ matched.start) :
    start ≤ dividers.startInside text matched start := by
  rcases startInside_cases dividers first last ordered with
    ⟨_, same⟩ | ⟨place, c, stands, _, lower, upper, _, moved⟩
  · rw [same]
  · have onward := (runsTo_nextWordStart stands.isBoundary_next).ordered
    rw [moved]
    omega

/-- The right edge inside the stretch behind a match never moves out. -/
theorem stopInside_le {matched : Span} {stop : Nat} (first : isBoundary text matched.stop = true)
    (last : isBoundary text stop = true) (ordered : matched.stop ≤ stop) :
    dividers.stopInside text matched stop ≤ stop := by
  rcases stopInside_cases dividers first last ordered with
    ⟨_, same⟩ | ⟨place, c, stands, _, lower, upper, _, moved⟩
  · rw [same]
  · have back := (runsBack_previousWordEnd stands.isBoundary).ordered
    rw [moved]
    omega

end Dividers

/-- The offset of so many characters before another one. -/
def paddedStart (text : List Char) (offset padding : Nat) : Nat :=
  offset - byteLength ((cut offset text).1.reverse.take padding)

/-- The offset of so many characters behind another one. -/
def paddedStop (text : List Char) (offset padding : Nat) : Nat :=
  offset + byteLength ((cut offset text).2.take padding)

theorem paddedStart_eq {offset : Nat} (boundary : isBoundary text offset = true) (padding : Nat) :
    paddedStart text offset padding
      = byteLength ((cut offset text).1.take ((cut offset text).1.length - padding)) := by
  have whole := congrArg byteLength
    (List.take_append_drop ((cut offset text).1.length - padding) (cut offset text).1)
  rw [byteLength_append, byteLength_cut boundary] at whole
  rw [paddedStart, List.take_reverse, byteLength_reverse]
  omega

theorem isBoundary_paddedStart {offset : Nat} (boundary : isBoundary text offset = true)
    (padding : Nat) : isBoundary text (paddedStart text offset padding) = true := by
  rw [paddedStart_eq boundary]
  refine isBoundary_iff.mpr ⟨_, (cut offset text).1.drop ((cut offset text).1.length - padding)
    ++ (cut offset text).2, ?_, rfl⟩
  rw [← List.append_assoc, List.take_append_drop, cut_append]

theorem paddedStart_le (text : List Char) (offset padding : Nat) :
    paddedStart text offset padding ≤ offset := Nat.sub_le _ _

theorem isBoundary_paddedStop {offset : Nat} (boundary : isBoundary text offset = true)
    (padding : Nat) : isBoundary text (paddedStop text offset padding) = true := by
  refine isBoundary_iff.mpr ⟨(cut offset text).1 ++ (cut offset text).2.take padding,
    (cut offset text).2.drop padding, ?_, ?_⟩
  · rw [List.append_assoc, List.take_append_drop, cut_append]
  · rw [byteLength_append, byteLength_cut boundary, paddedStop]

theorem le_paddedStop (text : List Char) (offset padding : Nat) :
    offset ≤ paddedStop text offset padding := Nat.le_add_right _ _

/-- The same padding before a later offset begins later. -/
theorem paddedStart_mono {first second : Nat} (here : isBoundary text first = true)
    (there : isBoundary text second = true) (ordered : first ≤ second) (padding : Nat) :
    paddedStart text first padding ≤ paddedStart text second padding := by
  rw [paddedStart_eq here, paddedStart_eq there]
  obtain ⟨middle, longer⟩ :=
    prefix_of_byteLength_le ⟨_, cut_append first text⟩ ⟨_, cut_append second text⟩
    (by rwa [byteLength_cut here, byteLength_cut there])
  rw [← longer]
  have begins : (cut first text).1.take ((cut first text).1.length - padding)
      <+: ((cut first text).1 ++ middle).take
        (((cut first text).1 ++ middle).length - padding) := by
    rw [← show ((cut first text).1 ++ middle).take _ = _ from
      List.take_append_of_le_length (Nat.sub_le (cut first text).1.length padding)]
    refine List.take_prefix_take_left ?_
    rw [List.length_append]
    omega
  obtain ⟨more, same⟩ := begins
  rw [← same, byteLength_append]
  omega

/-- A span from one boundary to another one. -/
structure Span.IsBounded (text : List Char) (span : Span) : Prop where
  start : isBoundary text span.start = true
  stop : isBoundary text span.stop = true

namespace Span

theorem isBounded_between {first second : Nat} (here : isBoundary text first = true)
    (there : isBoundary text second = true) : (between first second).IsBounded text := by
  rcases Nat.le_total first second with low | high
  · exact ⟨by simpa [between, low], by simpa [between, low]⟩
  · exact ⟨by simpa [between, high], by simpa [between, high]⟩

theorem IsBounded.union {span other : Span} (here : span.IsBounded text)
    (there : other.IsBounded text) : (span.union other).IsBounded text :=
  ⟨(isBounded_between here.start there.start).start,
    (isBounded_between here.stop there.stop).stop⟩

theorem between_floor {span : Span} (bounded : span.IsBounded text) :
    between (Text.floor text span.start) (Text.floor text span.stop) = span := by
  have ordered := span.ordered
  simp [between, floor_eq bounded.start, floor_eq bounded.stop, ordered]

end Span

/-- A span that begins with a word and ends behind a word. -/
structure Span.IsOnWords (text : List Char) (span : Span) : Prop where
  opens : ∃ c, Stands text span.start c ∧ isAlphanumeric c = true
  closes : ∃ offset c, Stands text offset c ∧ isAlphanumeric c = true ∧
    offset + c.utf8Size = span.stop

namespace Span.IsOnWords

variable {span : Span}

theorem isBoundary_start (words : span.IsOnWords text) : isBoundary text span.start = true :=
  words.opens.elim fun _ found => found.1.isBoundary

theorem isBoundary_stop (words : span.IsOnWords text) : isBoundary text span.stop = true := by
  obtain ⟨offset, c, stands, _, size⟩ := words.closes
  rw [← size]
  exact stands.isBoundary_next

theorem isBounded (words : span.IsOnWords text) : span.IsBounded text :=
  ⟨words.isBoundary_start, words.isBoundary_stop⟩

/-- A span of words that ends where only separators follow a separator ends in front of it. -/
theorem stop_le (words : span.IsOnWords text) {place stop : Nat} {c : Char}
    (stands : Stands text place c) (separator : isAlphanumeric c = false)
    (separated : AllBetween separatesWords text (place + c.utf8Size) stop)
    (within : span.stop ≤ stop) : span.stop ≤ place := by
  obtain ⟨last, d, there, alphanumeric, size⟩ := words.closes
  have bytes := d.utf8Size_pos
  by_contra past
  rcases Nat.lt_trichotomy last place with smaller | rfl | greater
  · have next := there.next_le stands.isBoundary smaller
    omega
  · rw [stands.unique there, alphanumeric] at separator
    cases separator
  · have next := stands.next_le there.isBoundary greater
    have separates := separated last d there next (by omega)
    simp [separatesWords, alphanumeric] at separates

end Span.IsOnWords

namespace Dividers

/-- A window around a match: character boundaries around it and no divider in between. -/
structure IsAround (dividers : Dividers) (text : List Char) (matched window : Span) : Prop where
  boundary_start : isBoundary text window.start = true
  boundary_stop : isBoundary text window.stop = true
  start_le : window.start ≤ matched.start
  le_stop : matched.stop ≤ window.stop
  clear_before : dividers.Clear text window.start matched.start
  clear_behind : dividers.Clear text matched.stop window.stop

variable {matched other : Span}

/-- A divider in front of a match lies in front of its window. -/
theorem IsAround.next_le_start {dividers : Dividers} {window : Span}
    (around : dividers.IsAround text matched window) {place : Nat} {c : Char}
    (stands : Stands text place c) (divides : c ∈ dividers.chars)
    (upper : place < matched.start) : place + c.utf8Size ≤ window.start := by
  by_contra past
  have inside : window.start ≤ place := by
    by_contra lower
    exact past (stands.next_le around.boundary_start (Nat.not_le.mp lower))
  have clear := around.clear_before place c stands inside upper
  simp [divides] at clear

theorem isBoundary_left (text : List Char) (offset : Nat) :
    isBoundary text (dividers.left text offset) = true := by
  rcases left_cases dividers text offset with back | ⟨_, onward, _⟩
  · exact back.boundary
  · exact onward.boundary

theorem isBoundary_right (text : List Char) (offset : Nat) :
    isBoundary text (dividers.right text offset) = true := by
  rcases right_cases dividers text offset with ⟨onward, _⟩ | ⟨_, back⟩
  · exact onward.boundary
  · exact back.boundary

/-- The left edge does not move past a word behind it. -/
theorem left_le {offset place : Nat} {c : Char} (stands : Stands text place c)
    (alphanumeric : isAlphanumeric c = true) (boundary : isBoundary text offset = true)
    (before : offset ≤ place) : dividers.left text offset ≤ place := by
  rcases left_cases dividers text offset with back | ⟨_, onward, _⟩
  · exact back.ordered.trans ((floor_eq boundary).le.trans before)
  · by_contra past
    have separates := onward.passes _ c stands (by rwa [floor_eq boundary]) (Nat.not_le.mp past)
    simp [separatesWords, alphanumeric] at separates

/-- The right edge does not move past a word in front of it. -/
theorem le_right {offset place : Nat} {c : Char} (stands : Stands text place c)
    (alphanumeric : isAlphanumeric c = true) (boundary : isBoundary text offset = true)
    (behind : place + c.utf8Size ≤ offset) :
    place + c.utf8Size ≤ dividers.right text offset := by
  rcases right_cases dividers text offset with ⟨onward, _⟩ | ⟨_, back⟩
  · exact behind.trans ((floor_eq boundary).ge.trans onward.ordered)
  · by_contra past
    have inside : dividers.right text offset ≤ place := by
      by_contra later
      have next := stands.next_le back.boundary (Nat.not_le.mp later)
      omega
    have bytes := c.utf8Size_pos
    have separates := back.passes place c stands inside (by rw [floor_eq boundary]; omega)
    simp [separatesWords, alphanumeric] at separates

/-- The left and the right edge of a match's window, before they are cut at the dividers. -/
theorem outer_edges (words : matched.IsOnWords text) (padding : Nat) :
    dividers.left text (paddedStart text matched.start padding) ≤ matched.start ∧
      matched.stop ≤ dividers.right text (paddedStop text matched.stop padding) := by
  obtain ⟨c, opens, first⟩ := words.opens
  obtain ⟨place, d, closes, last, size⟩ := words.closes
  have low := isBoundary_paddedStart words.isBoundary_start padding
  have high := isBoundary_paddedStop words.isBoundary_stop padding
  refine ⟨left_le dividers opens first low (paddedStart_le _ _ _), ?_⟩
  rw [← size] at high ⊢
  exact le_right dividers closes last high (le_paddedStop _ _ _)

/-- A match with so many characters on both sides of it, before the sides are cut at the
dividers. -/
def padded (dividers : Dividers) (text : List Char) (matched : Span) (padding : Nat) : Span :=
  (dividers.window text (paddedStart text matched.start padding)
    (paddedStop text matched.stop padding)).union matched

theorem isBounded_padded (bounded : matched.IsBounded text) (padding : Nat) :
    (dividers.padded text matched padding).IsBounded text :=
  (Span.isBounded_between (isBoundary_left dividers text _)
    (isBoundary_right dividers text _)).union bounded

theorem padded_start_le (text : List Char) (matched : Span) (padding : Nat) :
    (dividers.padded text matched padding).start ≤ matched.start := Nat.min_le_right _ _

theorem le_padded_stop (text : List Char) (matched : Span) (padding : Nat) :
    matched.stop ≤ (dividers.padded text matched padding).stop := Nat.le_max_right _ _

/-- The window's left edge is a boundary in front of the match, with no divider in between. -/
theorem startInside_spec {start : Nat} (first : isBoundary text start = true)
    (last : isBoundary text matched.start = true) (ordered : start ≤ matched.start) :
    isBoundary text (dividers.startInside text matched start) = true ∧
      dividers.startInside text matched start ≤ matched.start ∧
      dividers.Clear text (dividers.startInside text matched start) matched.start := by
  rcases startInside_cases dividers first last ordered with
    ⟨clear, same⟩ | ⟨place, c, stands, _, _, _, clear, moved⟩
  · rw [same]
    exact ⟨first, ordered, clear⟩
  · have onward := runsTo_nextWordStart stands.isBoundary_next
    rw [moved]
    refine ⟨?_, by omega, fun offset d there lower upper => clear offset d there ?_ upper⟩
    · rcases Nat.le_total (nextWordStart text (place + c.utf8Size)) matched.start with near | far
      · rw [Nat.min_eq_left near]
        exact onward.boundary
      · rw [Nat.min_eq_right far]
        exact last
    · have later := onward.ordered
      omega

/-- The window's right edge is a boundary behind the match, with no divider in between. -/
theorem stopInside_spec {stop : Nat} (first : isBoundary text matched.stop = true)
    (last : isBoundary text stop = true) (ordered : matched.stop ≤ stop) :
    isBoundary text (dividers.stopInside text matched stop) = true ∧
      matched.stop ≤ dividers.stopInside text matched stop ∧
      dividers.Clear text matched.stop (dividers.stopInside text matched stop) := by
  rcases stopInside_cases dividers first last ordered with
    ⟨clear, same⟩ | ⟨place, c, stands, _, behind, _, clear, moved⟩
  · rw [same]
    exact ⟨last, ordered, clear⟩
  · have back := runsBack_previousWordEnd stands.isBoundary
    rw [moved]
    refine ⟨?_, by omega, fun offset d there lower upper => clear offset d there lower ?_⟩
    · rcases Nat.le_total matched.stop (previousWordEnd text place) with far | near
      · rw [Nat.max_eq_left far]
        exact back.boundary
      · rw [Nat.max_eq_right near]
        exact first
    · have earlier := back.ordered
      omega

/-- A padded match that is cut at the dividers on both sides is a window around the match. -/
theorem isAround_between {wide : Span} (bounded : matched.IsBounded text)
    (boundaries : wide.IsBounded text) (low : wide.start ≤ matched.start)
    (high : matched.stop ≤ wide.stop) :
    let window := Span.between (dividers.startInside text matched wide.start)
      (dividers.stopInside text matched wide.stop)
    window.start = dividers.startInside text matched wide.start ∧
      window.stop = dividers.stopInside text matched wide.stop ∧
      dividers.IsAround text matched window := by
  intro window
  obtain ⟨startBoundary, start, before⟩ :=
    startInside_spec dividers boundaries.start bounded.start low
  obtain ⟨stopBoundary, stop, behind⟩ :=
    stopInside_spec dividers bounded.stop boundaries.stop high
  have ordered := start.trans (matched.ordered.trans stop)
  have first : window.start = dividers.startInside text matched wide.start :=
    Nat.min_eq_left ordered
  have last : window.stop = dividers.stopInside text matched wide.stop := Nat.max_eq_right ordered
  rw [← first] at startBoundary start before
  rw [← last] at stopBoundary stop behind
  exact ⟨first, last, startBoundary, stopBoundary, start, stop, before, behind⟩

/-- The window around any two offsets is a window around the match between them. Its edges are those
of the padded match, cut at the dividers. -/
theorem windowAround_between (text : List Char) (start stop padding : Nat) :
    let matched := Span.between (Text.floor text start) (Text.floor text stop)
    let wide := dividers.padded text matched padding
    let window := dividers.windowAround text start stop padding
    window.start = dividers.startInside text matched wide.start ∧
      window.stop = dividers.stopInside text matched wide.stop ∧
      dividers.IsAround text matched window := by
  intro matched wide window
  have bounded : matched.IsBounded text :=
    Span.isBounded_between (isBoundary_floor text start) (isBoundary_floor text stop)
  exact isAround_between dividers bounded (isBounded_padded dividers bounded padding)
    (padded_start_le dividers text matched padding) (le_padded_stop dividers text matched padding)

theorem windowAround_edges (words : matched.IsOnWords text) (padding : Nat) :
    (dividers.windowAround text matched.start matched.stop padding).start
        = dividers.startInside text matched
          (dividers.left text (paddedStart text matched.start padding)) ∧
      (dividers.windowAround text matched.start matched.stop padding).stop
        = dividers.stopInside text matched
          (dividers.right text (paddedStop text matched.stop padding)) := by
  have ordered := matched.ordered
  obtain ⟨low, high⟩ := outer_edges dividers words padding
  obtain ⟨start, stop, -⟩ :=
    windowAround_between dividers text matched.start matched.stop padding
  rw [Span.between_floor words.isBounded] at start stop
  have first : (dividers.padded text matched padding).start
      = dividers.left text (paddedStart text matched.start padding) := by
    simp only [padded, window, Span.union, Span.between]
    omega
  have last : (dividers.padded text matched padding).stop
      = dividers.right text (paddedStop text matched.stop padding) := by
    simp only [padded, window, Span.union, Span.between]
    omega
  rw [start, stop, first, last]
  exact ⟨rfl, rfl⟩

theorem isAround_windowAround (words : matched.IsOnWords text) (padding : Nat) :
    dividers.IsAround text matched
      (dividers.windowAround text matched.start matched.stop padding) := by
  obtain ⟨-, -, around⟩ := windowAround_between dividers text matched.start matched.stop padding
  rwa [Span.between_floor words.isBounded] at around

/-- A left edge that goes back to the start of a word stays behind every earlier word start. -/
theorem le_left {start edge offset : Nat} (runs : RunsBack isAlphanumeric text edge start)
    (boundary : isBoundary text offset = true) (ordered : start ≤ offset) :
    edge ≤ dividers.left text offset := by
  rcases left_cases dividers text offset with back | ⟨_, onward, _⟩
  · by_contra earlier
    obtain ⟨place, c, stands, size⟩ := exists_stands_before runs.boundary (by omega)
    have word := runs.ends place c stands size
    have bytes := c.utf8Size_pos
    have first := runs.ordered
    rw [back.passes place c stands ?_ (by rw [floor_eq boundary]; omega)] at word
    · cases word
    · by_contra outside
      have next := stands.next_le back.boundary (Nat.not_le.mp outside)
      omega
  · have later := onward.ordered
    rw [floor_eq boundary] at later
    exact runs.ordered.trans (ordered.trans later)

/-- The window of a later match begins earlier only where a divider stands in front of both windows
and no word between it and the earlier match's window. -/
theorem exists_divider_of_start_lt (padding : Nat) (words : matched.IsOnWords text)
    (later : other.IsOnWords text) (ordered : matched.stop ≤ other.start)
    (earlier : (dividers.windowAround text other.start other.stop padding).start
      < (dividers.windowAround text matched.start matched.stop padding).start) :
    ∃ place c, Stands text place c ∧ c ∈ dividers.chars ∧
      place + c.utf8Size ≤ (dividers.windowAround text other.start other.stop padding).start ∧
      AllBetween separatesWords text (place + c.utf8Size)
        (dividers.windowAround text matched.start matched.stop padding).start := by
  have around := isAround_windowAround dividers later padding
  have before := (isAround_windowAround dividers words padding).start_le
  have nonempty := matched.ordered
  have padded := isBoundary_paddedStart words.isBoundary_start padding
  have laterPadded := isBoundary_paddedStart later.isBoundary_start padding
  rw [(windowAround_edges dividers words padding).1] at earlier before ⊢
  rcases startInside_cases dividers (isBoundary_left dividers text _) words.isBoundary_start
      (outer_edges dividers words padding).1 with
    ⟨_, same⟩ | ⟨place, c, stands, divides, _, upper, _, moved⟩
  · rw [same] at earlier before ⊢
    rcases left_cases dividers text (paddedStart text matched.start padding) with
      back | ⟨_, onward, place, c, stands, divides, lower, upper⟩
    · have behind := le_left dividers back laterPadded (by
        rw [floor_eq padded]
        exact paddedStart_mono words.isBoundary_start later.isBoundary_start
          (nonempty.trans ordered) padding)
      have inward := le_startInside dividers (isBoundary_left dividers text _)
        later.isBoundary_start (outer_edges dividers later padding).1
      rw [(windowAround_edges dividers later padding).1] at earlier
      omega
    · refine ⟨place, c, stands, divides, around.next_le_start stands divides (by omega), ?_⟩
      exact fun offset d there start stop => onward.passes offset d there (by omega) stop
  · rw [moved] at earlier ⊢
    have bytes := c.utf8Size_pos
    refine ⟨place, c, stands, divides, around.next_le_start stands divides (by omega), ?_⟩
    have onward := runsTo_nextWordStart stands.isBoundary_next
    exact fun offset d there start stop => onward.passes offset d there start (by omega)

/-- Where dividers are no letters and digits, a window that ends before the window of a match begins
also ends before the windows of later matches begin. -/
theorem windowAround_stop_lt (padding : Nat) {first : Span} (firstWords : first.IsOnWords text)
    (words : matched.IsOnWords text) (later : other.IsOnWords text)
    (plain : ∀ c ∈ dividers.chars, isAlphanumeric c = false)
    (ordered : matched.stop ≤ other.start)
    (apart : (dividers.windowAround text first.start first.stop padding).stop
      < (dividers.windowAround text matched.start matched.stop padding).start) :
    (dividers.windowAround text first.start first.stop padding).stop
      < (dividers.windowAround text other.start other.stop padding).start := by
  by_contra touching
  obtain ⟨place, c, stands, divides, front, separated⟩ :=
    exists_divider_of_start_lt dividers padding words later ordered (by omega)
  have around := isAround_windowAround dividers firstWords padding
  have inside := around.le_stop
  have bytes := c.utf8Size_pos
  have separator : isAlphanumeric c = false := plain c divides
  have before := firstWords.stop_le stands separator separated (inside.trans apart.le)
  have clear := around.clear_behind place c stands before (by omega)
  simp [divides] at clear

end Dividers

end FacetSearch
