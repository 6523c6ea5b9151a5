import FacetSearch.Proofs.Snippet.Slices

/-!
Windows end between words. Both moves of an edge, to the end of a word and over a stretch between
words, leave it where no word goes on across it; so does a cut at a divider, as long as dividers are
no letters and digits. What an edge gains beyond the padding is the rest of a word
(`windowAround_spec`).

An edge that is moved inwards can pass the match or the other edge. Then it has crossed separators
only, so the edge of the match, or wherever the window ends instead, is no place inside a word
either.
-/

set_option autoImplicit false

namespace FacetSearch

open Text

variable {text : List Char} {start stop offset place : Nat} {c : Char}

namespace Text

/-- A word goes on across an offset: a letter or digit ends there, and one stands there. -/
def InsideWord (text : List Char) (offset : Nat) : Prop :=
  (∃ place c, Stands text place c ∧ place + c.utf8Size = offset ∧ isAlphanumeric c = true) ∧
    ∃ c, Stands text offset c ∧ isAlphanumeric c = true

theorem not_insideWord_of_ends
    (ends : ∀ place c, Stands text place c → place + c.utf8Size = offset →
      isAlphanumeric c = false) :
    ¬ InsideWord text offset := by
  rintro ⟨⟨place, c, stands, next, alphanumeric⟩, -⟩
  rw [ends place c stands next] at alphanumeric
  cases alphanumeric

theorem not_insideWord_of_stands
    (separates : ∀ c, Stands text offset c → isAlphanumeric c = false) :
    ¬ InsideWord text offset := by
  rintro ⟨-, c, stands, alphanumeric⟩
  rw [separates c stands] at alphanumeric
  cases alphanumeric

/-- Neither the edges of a stretch of separators nor the offsets in it are inside a word. -/
theorem not_insideWord_of_allBetween (boundary : isBoundary text start = true)
    (separated : AllBetween separatesWords text start stop) (inhabited : start < stop)
    (lower : start ≤ offset) (upper : offset ≤ stop) : ¬ InsideWord text offset := by
  rcases Nat.lt_or_eq_of_le upper with inside | rfl
  · refine not_insideWord_of_stands fun c stands => ?_
    simpa [separatesWords] using separated offset c stands lower inside
  · refine not_insideWord_of_ends fun place c stands next => ?_
    have bytes := c.utf8Size_pos
    have behind : start ≤ place := by
      by_contra before
      have within := stands.next_le boundary (Nat.not_le.mp before)
      omega
    simpa [separatesWords] using separated place c stands behind (by omega)

end Text

/-- A character is more than so many characters away from a span: at least so many stand between the
two. -/
def Span.IsFar (text : List Char) (span : Span) (padding place : Nat) (c : Char) : Prop :=
  (place + c.utf8Size ≤ span.start ∧
    padding ≤ (slice text (place + c.utf8Size) span.start).length) ∨
    (span.stop ≤ place ∧ padding ≤ (slice text span.stop place).length)

theorem byteLength_take_le (count : Nat) (text : List Char) :
    byteLength (text.take count) ≤ byteLength text := by
  conv_rhs => rw [← List.take_append_drop count text, byteLength_append]
  exact Nat.le_add_right _ _

/-- Padding that fits between two offsets begins behind the first one. -/
theorem le_paddedStart (first : isBoundary text start = true) (last : isBoundary text stop = true)
    (ordered : start ≤ stop) {padding : Nat} (fits : padding ≤ (slice text start stop).length) :
    start ≤ paddedStart text stop padding := by
  obtain ⟨front, middle, back, rfl, rfl, rfl, sliced⟩ := exists_middle first last ordered
  rw [sliced] at fits
  have size := byteLength_take_le padding middle.reverse
  rw [byteLength_reverse] at size
  rw [paddedStart, cut_byteLength, List.reverse_append,
    List.take_append_of_le_length (by rwa [List.length_reverse]), byteLength_append]
  omega

/-- Padding that fits between two offsets ends in front of the second one. -/
theorem paddedStop_le (first : isBoundary text start = true) (last : isBoundary text stop = true)
    (ordered : start ≤ stop) {padding : Nat} (fits : padding ≤ (slice text start stop).length) :
    paddedStop text start padding ≤ stop := by
  obtain ⟨front, middle, back, rfl, rfl, rfl, sliced⟩ := exists_middle first last ordered
  rw [sliced] at fits
  have size := byteLength_take_le padding middle
  rw [paddedStop, List.append_assoc, cut_byteLength, List.take_append_of_le_length fits,
    byteLength_append]
  omega

namespace Dividers

variable (dividers : Dividers)

theorem not_insideWord_left (text : List Char) (offset : Nat) :
    ¬ InsideWord text (dividers.left text offset) := by
  rcases left_cases dividers text offset with back | ⟨-, onward, place, c, -, -, lower, upper⟩
  · exact not_insideWord_of_ends back.ends
  · exact not_insideWord_of_allBetween (isBoundary_floor text offset) onward.passes
      (lower.trans_lt upper) onward.ordered le_rfl

theorem not_insideWord_right (text : List Char) (offset : Nat) :
    ¬ InsideWord text (dividers.right text offset) := by
  rcases right_cases dividers text offset with ⟨-, ends⟩ | ⟨ends, back⟩
  · exact not_insideWord_of_stands ends
  · rcases Nat.lt_or_eq_of_le back.ordered with moved | same
    · exact not_insideWord_of_allBetween back.boundary back.passes moved le_rfl back.ordered
    · rw [same]
      exact not_insideWord_of_stands ends

/-- What the left edge passes on its way inwards is no place inside a word. -/
theorem not_insideWord_of_le_left (boundary : isBoundary text offset = true)
    (lower : offset ≤ place) (upper : place ≤ dividers.left text offset) :
    ¬ InsideWord text place := by
  rcases left_cases dividers text offset with back | ⟨-, onward, held, c, -, -, first, last⟩
  · have outward := back.ordered
    rw [floor_eq boundary] at outward
    rw [show place = dividers.left text offset by omega]
    exact not_insideWord_left dividers text offset
  · rw [floor_eq boundary] at onward first
    exact not_insideWord_of_allBetween boundary onward.passes (first.trans_lt last) lower upper

/-- What the right edge passes on its way inwards is no place inside a word. -/
theorem not_insideWord_of_right_le (boundary : isBoundary text offset = true)
    (lower : dividers.right text offset ≤ place) (upper : place ≤ offset) :
    ¬ InsideWord text place := by
  rcases Nat.lt_or_eq_of_le lower with moved | rfl
  · rcases right_cases dividers text offset with ⟨onward, -⟩ | ⟨-, back⟩
    · have outward := onward.ordered
      rw [floor_eq boundary] at outward
      omega
    · rw [floor_eq boundary] at back
      exact not_insideWord_of_allBetween back.boundary back.passes
        (moved.trans_le upper) lower upper
  · exact not_insideWord_right dividers text offset

variable {dividers} {matched : Span}

theorem separatesWords_of_mem (plain : ∀ c ∈ dividers.chars, isAlphanumeric c = false)
    (divides : c ∈ dividers.chars) : separatesWords c = true := by
  simpa [separatesWords] using plain c divides

/-- A left edge that is no place inside a word stays so when it is cut at dividers. -/
theorem not_insideWord_startInside (plain : ∀ c ∈ dividers.chars, isAlphanumeric c = false)
    (first : isBoundary text start = true) (last : isBoundary text matched.start = true)
    (ordered : start ≤ matched.start) (whole : ¬ InsideWord text start) :
    ¬ InsideWord text (dividers.startInside text matched start) := by
  rcases startInside_cases dividers first last ordered with
    ⟨-, same⟩ | ⟨place, c, stands, divides, -, upper, -, moved⟩
  · rwa [same]
  · have onward := runsTo_nextWordStart stands.isBoundary_next
    have bytes := c.utf8Size_pos
    have inward := onward.ordered
    have separated : AllBetween separatesWords text place
        (nextWordStart text (place + c.utf8Size)) := by
      intro offset d there lower upper
      rcases Nat.lt_or_eq_of_le lower with behind | rfl
      · exact onward.passes offset d there (stands.next_le there.isBoundary behind) upper
      · rw [there.unique stands]
        exact separatesWords_of_mem plain divides
    rw [moved]
    exact not_insideWord_of_allBetween stands.isBoundary separated (by omega) (by omega) (by omega)

/-- A right edge that is no place inside a word stays so when it is cut at dividers. -/
theorem not_insideWord_stopInside (plain : ∀ c ∈ dividers.chars, isAlphanumeric c = false)
    (first : isBoundary text matched.stop = true) (last : isBoundary text stop = true)
    (ordered : matched.stop ≤ stop) (whole : ¬ InsideWord text stop) :
    ¬ InsideWord text (dividers.stopInside text matched stop) := by
  rcases stopInside_cases dividers first last ordered with
    ⟨-, same⟩ | ⟨place, c, stands, divides, lower, -, -, moved⟩
  · rwa [same]
  · have back := runsBack_previousWordEnd stands.isBoundary
    have bytes := c.utf8Size_pos
    have inward := back.ordered
    have separated : AllBetween separatesWords text (previousWordEnd text place)
        (place + c.utf8Size) := by
      intro offset d there lower upper
      rcases Nat.lt_trichotomy offset place with before | rfl | behind
      · exact back.passes offset d there lower before
      · rw [there.unique stands]
        exact separatesWords_of_mem plain divides
      · have next := stands.next_le there.isBoundary behind
        omega
    rw [moved]
    exact not_insideWord_of_allBetween back.boundary separated (by omega) (by omega) (by omega)

/-- The edges of a padded match, wherever they come from, are no places inside a word. -/
theorem not_insideWord_padded (dividers : Dividers) (bounded : matched.IsBounded text)
    (padding : Nat) : ¬ InsideWord text (dividers.padded text matched padding).start ∧
      ¬ InsideWord text (dividers.padded text matched padding).stop := by
  have low := isBoundary_paddedStart bounded.start padding
  have high := isBoundary_paddedStop bounded.stop padding
  have before := paddedStart_le text matched.start padding
  have behind := le_paddedStop text matched.stop padding
  have left := not_insideWord_left dividers text (paddedStart text matched.start padding)
  have right := not_insideWord_right dividers text (paddedStop text matched.stop padding)
  simp only [padded, window, Span.union, Span.between]
  -- Where an edge of the match is the outermost one, the edge that was moved has passed it inwards.
  refine ⟨?_, ?_⟩
  · rcases min_choice (min (dividers.left text (paddedStart text matched.start padding))
      (dividers.right text (paddedStop text matched.stop padding))) matched.start with moved | own
    · rw [moved]
      rcases min_choice (dividers.left text (paddedStart text matched.start padding))
        (dividers.right text (paddedStop text matched.stop padding)) with same | same <;> rwa [same]
    · rw [own]
      exact not_insideWord_of_le_left dividers low before (by omega)
  · rcases max_choice (max (dividers.left text (paddedStart text matched.start padding))
      (dividers.right text (paddedStop text matched.stop padding))) matched.stop with moved | own
    · rw [moved]
      rcases max_choice (dividers.left text (paddedStart text matched.start padding))
        (dividers.right text (paddedStop text matched.stop padding)) with same | same <;> rwa [same]
    · rw [own]
      exact not_insideWord_of_right_le dividers high (by omega) behind

/-- No word goes on across an edge of a window. -/
theorem not_insideWord_windowAround (plain : ∀ c ∈ dividers.chars, isAlphanumeric c = false)
    (text : List Char) (start stop padding : Nat) :
    ¬ InsideWord text (dividers.windowAround text start stop padding).start ∧
      ¬ InsideWord text (dividers.windowAround text start stop padding).stop := by
  have bounded := Span.isBounded_between (isBoundary_floor text start) (isBoundary_floor text stop)
  have wide := isBounded_padded dividers bounded padding
  obtain ⟨opens, closes⟩ := not_insideWord_padded dividers bounded padding
  obtain ⟨first, last, -⟩ := windowAround_between dividers text start stop padding
  rw [first, last]
  exact ⟨not_insideWord_startInside plain wide.start bounded.start
    (padded_start_le _ _ _ _) opens,
    not_insideWord_stopInside plain bounded.stop wide.stop (le_padded_stop _ _ _ _) closes⟩

/-- In front of the padding the left edge adds the rest of a word. -/
theorem isAlphanumeric_of_left_le (dividers : Dividers) (boundary : isBoundary text offset = true)
    (stands : Stands text place c) (lower : dividers.left text offset ≤ place)
    (upper : place < offset) : isAlphanumeric c = true := by
  rcases left_cases dividers text offset with back | ⟨-, onward, -⟩
  · rw [floor_eq boundary] at back
    exact back.passes place c stands lower upper
  · have inward := onward.ordered
    rw [floor_eq boundary] at inward
    omega

/-- Behind the padding the right edge adds the rest of a word. -/
theorem isAlphanumeric_of_lt_right (dividers : Dividers) (boundary : isBoundary text offset = true)
    (stands : Stands text place c) (lower : offset ≤ place)
    (upper : place < dividers.right text offset) : isAlphanumeric c = true := by
  rcases right_cases dividers text offset with ⟨onward, -⟩ | ⟨-, back⟩
  · rw [floor_eq boundary] at onward
    exact onward.passes place c stands lower upper
  · have inward := back.ordered
    rw [floor_eq boundary] at inward
    omega

/-- Around a match with a letter or digit in it the edges do not pass each other, and what the
padded match holds beyond the padding is part of a word. -/
theorem isAlphanumeric_of_isFar (bounded : matched.IsBounded text) {letter : Nat} {d : Char}
    (there : Stands text letter d) (alphanumeric : isAlphanumeric d = true)
    (first : matched.start ≤ letter) (last : letter < matched.stop) {padding : Nat}
    (stands : Stands text place c) (lower : (dividers.padded text matched padding).start ≤ place)
    (upper : place < (dividers.padded text matched padding).stop)
    (far : matched.IsFar text padding place c) : isAlphanumeric c = true := by
  have low := isBoundary_paddedStart bounded.start padding
  have high := isBoundary_paddedStop bounded.stop padding
  have before := paddedStart_le text matched.start padding
  have behind := le_paddedStop text matched.stop padding
  have opens := left_le dividers there alphanumeric low (before.trans first)
  have inside := there.next_le bounded.stop last
  have closes := le_right dividers there alphanumeric high (inside.trans behind)
  have bytes := c.utf8Size_pos
  simp only [padded, window, Span.union, Span.between] at lower upper
  rcases far with ⟨front, fits⟩ | ⟨back, fits⟩
  · have reach := le_paddedStart stands.isBoundary_next bounded.start front fits
    exact isAlphanumeric_of_left_le dividers low stands (by omega) (by omega)
  · have reach := paddedStop_le bounded.stop stands.isBoundary back fits
    exact isAlphanumeric_of_lt_right dividers high stands (by omega) (by omega)

/-- The window around the match between any two offsets is found, whatever the offsets and the
padding are. It lies on boundaries around the match with no divider between its edges and the match,
no word goes on across its edges, and where the match has a letter or digit in it, the characters of
the window further away from it than the padding are letters and digits. -/
theorem windowAround_spec (dividers : Dividers)
    (plain : ∀ c ∈ dividers.chars, isAlphanumeric c = false) (text : List Char)
    (start stop padding : Nat) :
    let matched := Span.between (Text.floor text start) (Text.floor text stop)
    ∃ window, dividers.windowAround? text start stop padding = some window ∧
      window = dividers.windowAround text start stop padding ∧
      dividers.IsAround text matched window ∧
      ¬ InsideWord text window.start ∧ ¬ InsideWord text window.stop ∧
      ((∃ place c, Stands text place c ∧ matched.start ≤ place ∧ place < matched.stop ∧
          isAlphanumeric c = true) →
        ∀ place c, Stands text place c → window.start ≤ place → place < window.stop →
          matched.IsFar text padding place c → isAlphanumeric c = true) := by
  intro matched
  have bounded : matched.IsBounded text :=
    Span.isBounded_between (isBoundary_floor text start) (isBoundary_floor text stop)
  have wide := isBounded_padded dividers bounded padding
  obtain ⟨opens, closes⟩ := not_insideWord_windowAround plain text start stop padding
  obtain ⟨first, last, around⟩ := windowAround_between dividers text start stop padding
  refine ⟨_, windowAround?_eq dividers text start stop padding, rfl, around, opens, closes, ?_⟩
  rintro ⟨letter, d, there, inside, within, alphanumeric⟩ place c stands lower upper far
  have inward :=
    le_startInside dividers wide.start bounded.start (padded_start_le dividers text matched _)
  have outward :=
    stopInside_le dividers bounded.stop wide.stop (le_padded_stop dividers text matched _)
  rw [← first] at inward
  rw [← last] at outward
  exact isAlphanumeric_of_isFar bounded there alphanumeric inside within stands (inward.trans lower)
    (upper.trans_le outward) far

/-- Offsets in the wrong order, one of them inside a letter. In front the padding reaches over the
full stop, which ends the window there; at the back it ends inside a word, and the window goes on to
the end of it. -/
theorem windowAround_spec_reversed :
    let dividers := Dividers.ofText ".;"
    let text := "ab. éclair noires; x".toList
    let matched : Span := ⟨4, 13, by decide⟩
    let window : Span := ⟨4, 18, by decide⟩
    (∀ c ∈ dividers.chars, isAlphanumeric c = false) ∧
      Span.between (Text.floor text 13) (Text.floor text 5) = matched ∧
      dividers.windowAround? text 13 5 3 = some window ∧ dividers.IsAround text matched window ∧
      ¬ InsideWord text window.start ∧ ¬ InsideWord text window.stop ∧
      ∀ place c, Stands text place c → window.start ≤ place → place < window.stop →
        matched.IsFar text 3 place c → isAlphanumeric c = true := by
  intro dividers text matched window
  have plain : ∀ c ∈ dividers.chars, isAlphanumeric c = false := by
    intro c member
    have among : c = '.' ∨ c = ';' := by simpa [dividers, Dividers.ofText] using member
    rcases among with rfl | rfl <;> rfl
  have same : Span.between (Text.floor text 13) (Text.floor text 5) = matched := by decide +kernel
  have wide : dividers.windowAround text 13 5 3 = window := by decide +kernel
  have letter : Stands text 6 'c' :=
    ⟨"ab. é".toList, "lair noires; x".toList, by decide, by decide⟩
  have inside : matched.start ≤ 6 ∧ 6 < matched.stop := by decide
  have alphanumeric : isAlphanumeric 'c' = true := rfl
  obtain ⟨found, made, rfl, around, opens, closes, far⟩ :=
    windowAround_spec dividers plain text 13 5 3
  rw [same] at around far
  rw [wide] at made around opens closes far
  exact ⟨plain, same, made, around, opens, closes,
    far ⟨6, 'c', letter, inside.1, inside.2, alphanumeric⟩⟩

end Dividers

end FacetSearch
