import FacetSearch.Proofs.Snippet.WordEdges
import FacetSearch.Proofs.Text.Runs

/-!
How edges snap to words. An edge starts at the last boundary that is not past the given offset. From
there the left edge goes back over letters and digits, or on over separators with a divider among
them (`SnapsLeft`), and the right edge is its mirror image (`SnapsRight`). Each way ends where none
of them leads any further, so an edge that is moved again stays where it is (`edges_snap`).
-/

set_option autoImplicit false

namespace FacetSearch

open Text

variable {text : List Char} {offset origin edge again place : Nat} {c : Char}

namespace Text

theorem byteLength_le_cut {front : List Char} (back : List Char)
    (fits : byteLength front ≤ offset) :
    byteLength front ≤ byteLength (cut offset (front ++ back)).1 := by
  induction front generalizing offset with
  | nil => exact Nat.zero_le _
  | cons c rest ih =>
      rw [byteLength_cons] at fits
      have inner : byteLength rest ≤ byteLength (cut (offset - c.utf8Size) (rest ++ back)).1 :=
        ih (by omega)
      have taken : c.utf8Size ≤ offset := by omega
      rw [List.cons_append, cut, if_pos taken, byteLength_cons, byteLength_cons]
      omega

/-- An offset is moved back to the last boundary that is not past it. -/
theorem isGreatest_floor (text : List Char) (offset : Nat) :
    IsGreatest {place | isBoundary text place = true ∧ place ≤ offset} (floor text offset) := by
  refine ⟨⟨isBoundary_floor text offset, byteLength_cut_le offset text⟩, ?_⟩
  rintro place ⟨boundary, fits⟩
  obtain ⟨front, back, rfl, rfl⟩ := isBoundary_iff.mp boundary
  exact byteLength_le_cut back fits

theorem isEmpty_takeWhile_iff {keep : Char → Bool} {text : List Char} :
    (text.takeWhile keep).isEmpty = true ↔ ∀ c ∈ text.head?, keep c = false := by
  cases text with
  | nil => simp
  | cons c rest => by_cases kept : keep c = true <;> simp [kept]

theorem noneEnds_iff {keep : Char → Bool} (boundary : isBoundary text origin = true) :
    NoneEnds keep text origin ↔ ((cut origin text).1.reverse.takeWhile keep).isEmpty = true := by
  obtain ⟨front, back, rfl, rfl⟩ := isBoundary_iff.mp boundary
  rw [cut_byteLength, noneEnds_append_iff, isEmpty_takeWhile_iff, List.head?_reverse]

theorem noneStands_iff {keep : Char → Bool} (boundary : isBoundary text origin = true) :
    NoneStands keep text origin ↔ ((cut origin text).2.takeWhile keep).isEmpty = true := by
  obtain ⟨front, back, rfl, rfl⟩ := isBoundary_iff.mp boundary
  rw [cut_byteLength, noneStands_append_iff, isEmpty_takeWhile_iff]

/-- The last character of a stretch passes the test of the stretch. -/
theorem AllBetween.of_next {test : Char → Bool} (passes : AllBetween test text origin edge)
    (boundary : isBoundary text origin = true) (inhabited : origin < edge)
    (stands : Stands text place c) (next : place + c.utf8Size = edge) : test c = true := by
  have bytes := c.utf8Size_pos
  refine passes place c stands (Nat.not_lt.mp fun outside => ?_) (by omega)
  have crossed := stands.next_le boundary outside
  omega

theorem not_alphanumeric_of_separates (separates : separatesWords c = true) :
    isAlphanumeric c = false := by
  simpa [separatesWords] using separates

end Text

namespace Dividers

/-- How a left edge moves: back over letters and digits to the start of a word, or on over
separators, a divider among them, up to the next word or the end of the text. It stays only where no
such separators follow. -/
structure SnapsLeft (dividers : Dividers) (text : List Char) (origin edge : Nat) : Prop where
  boundary : isBoundary text edge = true
  opens : NoneEnds isAlphanumeric text edge
  moved : edge ≤ origin ∧ AllBetween isAlphanumeric text edge origin ∨
    origin < edge ∧ AllBetween separatesWords text origin edge ∧
    ¬ dividers.Clear text origin edge ∧
      (edge = byteLength text ∨ ∃ c, Stands text edge c ∧ isAlphanumeric c = true)
  stays : edge = origin → ∀ stop, RunsTo separatesWords text origin stop →
    dividers.Clear text origin stop

/-- How a right edge moves: on over letters and digits to the end of a word, or back over
separators, a divider among them, down to the previous word or the start of the text. It stays only
where no such separators come before. -/
structure SnapsRight (dividers : Dividers) (text : List Char) (origin edge : Nat) : Prop where
  boundary : isBoundary text edge = true
  closes : NoneStands isAlphanumeric text edge
  moved : origin ≤ edge ∧ AllBetween isAlphanumeric text origin edge ∨
    edge < origin ∧ AllBetween separatesWords text edge origin ∧
    ¬ dividers.Clear text edge origin ∧
      (edge = 0 ∨ ∃ place c, Stands text place c ∧ place + c.utf8Size = edge ∧
        isAlphanumeric c = true)
  stays : edge = origin → ∀ start, isBoundary text start = true →
    AllBetween separatesWords text start origin → dividers.Clear text start origin

variable {dividers : Dividers}

/-- A word or the end of the text stops the way to the next word. -/
theorem nextWordStart_stops (boundary : isBoundary text origin = true) :
    nextWordStart text origin = byteLength text ∨
      ∃ c, Stands text (nextWordStart text origin) c ∧ isAlphanumeric c = true := by
  have onward := runsTo_nextWordStart boundary
  rcases Nat.lt_or_eq_of_le (le_byteLength onward.boundary) with inside | last
  · obtain ⟨c, stands⟩ := exists_stands_at onward.boundary inside
    have stops : separatesWords c = false := ends_takeWhile separatesWords boundary stands
    exact .inr ⟨c, stands, by simpa [separatesWords] using stops⟩
  · exact .inl last

/-- A word or the start of the text stops the way back to the previous word. -/
theorem previousWordEnd_stops (boundary : isBoundary text origin = true) :
    previousWordEnd text origin = 0 ∨ ∃ place c, Stands text place c ∧
      place + c.utf8Size = previousWordEnd text origin ∧ isAlphanumeric c = true := by
  have back := runsBack_previousWordEnd boundary
  rcases Nat.eq_zero_or_pos (previousWordEnd text origin) with first | inside
  · exact .inl first
  · obtain ⟨place, c, stands, next⟩ := exists_stands_before back.boundary inside
    have stops := back.ends place c stands next
    exact .inr ⟨place, c, stands, next, by simpa [separatesWords] using stops⟩

theorem le_nextWordStart (boundary : isBoundary text origin = true)
    (runs : RunsTo separatesWords text origin edge) : edge ≤ nextWordStart text origin := by
  have onward := runsTo_nextWordStart boundary
  rcases nextWordStart_stops boundary with last | ⟨c, stands, alphanumeric⟩
  · rw [last]
    exact le_byteLength runs.boundary
  · by_contra past
    have separates := runs.passes _ c stands onward.ordered (Nat.not_le.mp past)
    simp [separatesWords, alphanumeric] at separates

theorem previousWordEnd_le (boundary : isBoundary text origin = true)
    (first : isBoundary text edge = true) (separated : AllBetween separatesWords text edge origin) :
    previousWordEnd text origin ≤ edge := by
  have inward := (runsBack_previousWordEnd boundary).ordered
  rcases previousWordEnd_stops boundary with start | ⟨place, c, stands, next, alphanumeric⟩
  · rw [start]
    exact Nat.zero_le edge
  · by_contra past
    have front : AllBetween separatesWords text edge (previousWordEnd text origin) :=
      fun place c stands lower upper => separated place c stands lower (upper.trans_le inward)
    have separates := front.of_next first (Nat.not_le.mp past) stands next
    simp [separatesWords, alphanumeric] at separates

/-- Between two boundaries there is no divider exactly if the text between them holds none. -/
theorem clear_iff (first : isBoundary text origin = true) (last : isBoundary text edge = true)
    (ordered : origin ≤ edge) :
    dividers.Clear text origin edge ↔ (slice text origin edge).any dividers.holds = false := by
  rw [Clear, allBetween_slice first last ordered, List.any_eq_false]
  simp

theorem clear_nextWordStart_iff (boundary : isBoundary text origin = true) :
    dividers.Clear text origin (nextWordStart text origin) ↔
      ((cut origin text).2.takeWhile separatesWords).any dividers.holds = false := by
  obtain ⟨onward, gap⟩ := runsTo_takeWhile separatesWords boundary
  rw [← gap]
  exact clear_iff boundary onward.boundary onward.ordered

theorem clear_previousWordEnd_iff (boundary : isBoundary text origin = true) :
    dividers.Clear text (previousWordEnd text origin) origin ↔
      ((cut origin text).1.reverse.takeWhile separatesWords).any dividers.holds = false := by
  obtain ⟨back, gap⟩ := runsBack_takeWhile separatesWords boundary
  rw [← List.any_reverse, ← gap]
  exact clear_iff back.boundary boundary back.ordered

theorem snapsLeft_of_divided (boundary : isBoundary text origin = true)
    (divided : ¬ dividers.Clear text origin (nextWordStart text origin)) :
    dividers.SnapsLeft text origin (nextWordStart text origin) := by
  have onward := runsTo_nextWordStart boundary
  have moved : origin < nextWordStart text origin := by
    refine Nat.lt_of_le_of_ne onward.ordered fun same =>
      divided fun place c stands lower upper => ?_
    omega
  refine ⟨onward.boundary, fun place c stands next => ?_,
    .inr ⟨moved, onward.passes, divided, nextWordStart_stops boundary⟩, fun same =>
      absurd same moved.ne'⟩
  exact not_alphanumeric_of_separates (onward.passes.of_next boundary moved stands next)

theorem snapsLeft_of_clear (boundary : isBoundary text origin = true)
    (opens : NoneEnds isAlphanumeric text origin)
    (clear : dividers.Clear text origin (nextWordStart text origin)) :
    dividers.SnapsLeft text origin origin := by
  refine ⟨boundary, opens, .inl ⟨le_rfl, fun place c _ lower upper => ?_⟩,
    fun _ stop runs => ?_⟩
  · omega
  · have reach := le_nextWordStart boundary runs
    exact fun place c stands lower upper => clear place c stands lower (upper.trans_le reach)

theorem snapsLeft_of_word (back : RunsBack isAlphanumeric text edge origin)
    (word : ¬ NoneEnds isAlphanumeric text origin) : dividers.SnapsLeft text origin edge :=
  ⟨back.boundary, back.ends, .inl ⟨back.ordered, back.passes⟩, fun same =>
    absurd (same ▸ back.ends) word⟩

theorem snapsLeft_left (dividers : Dividers) (boundary : isBoundary text origin = true) :
    dividers.SnapsLeft text origin (dividers.left text origin) := by
  have start := byteLength_cut boundary
  simp only [left, start]
  split_ifs with opens held <;> rw [← noneEnds_iff boundary] at opens
  · rw [← Bool.not_eq_false, ← clear_nextWordStart_iff boundary] at held
    exact snapsLeft_of_divided boundary held
  · rw [Bool.not_eq_true, ← clear_nextWordStart_iff boundary] at held
    exact snapsLeft_of_clear boundary opens held
  · exact snapsLeft_of_word (runsBack_takeWhile isAlphanumeric boundary).1 opens

/-- A left edge that is moved again stays. -/
theorem SnapsLeft.eq_of_again (snaps : dividers.SnapsLeft text origin edge)
    (moves : dividers.SnapsLeft text edge again) : again = edge := by
  rcases moves.moved with ⟨back, word⟩ | ⟨onward, separated, divided, -⟩
  · refine Nat.le_antisymm back (Nat.not_lt.mp fun further => ?_)
    obtain ⟨place, c, stands, next⟩ :=
      exists_stands_before snaps.boundary (Nat.zero_lt_of_lt further)
    have alphanumeric := word.of_next moves.boundary further stands next
    rw [snaps.opens place c stands next] at alphanumeric
    cases alphanumeric
  · exfalso
    have inside := le_byteLength moves.boundary
    obtain ⟨c, stands⟩ := exists_stands_at snaps.boundary (onward.trans_le inside)
    have separates := not_alphanumeric_of_separates (separated edge c stands le_rfl onward)
    rcases snaps.moved with ⟨back, word⟩ | ⟨-, -, -, last | ⟨d, same, alphanumeric⟩⟩
    · rcases Nat.lt_or_eq_of_le back with moved | rfl
      · rw [word edge c stands le_rfl moved] at separates
        cases separates
      · exact divided (snaps.stays rfl again ⟨onward.le, moves.boundary, separated⟩)
    · omega
    · rw [same.unique stands, separates] at alphanumeric
      cases alphanumeric

theorem snapsRight_of_divided (boundary : isBoundary text origin = true)
    (divided : ¬ dividers.Clear text (previousWordEnd text origin) origin) :
    dividers.SnapsRight text origin (previousWordEnd text origin) := by
  have back := runsBack_previousWordEnd boundary
  have moved : previousWordEnd text origin < origin := by
    refine Nat.lt_of_le_of_ne back.ordered fun same => divided fun place c stands lower upper => ?_
    omega
  refine ⟨back.boundary, fun c stands => ?_,
    .inr ⟨moved, back.passes, divided, previousWordEnd_stops boundary⟩, fun same =>
      absurd same moved.ne⟩
  exact not_alphanumeric_of_separates (back.passes _ c stands le_rfl moved)

theorem snapsRight_of_clear (boundary : isBoundary text origin = true)
    (closes : NoneStands isAlphanumeric text origin)
    (clear : dividers.Clear text (previousWordEnd text origin) origin) :
    dividers.SnapsRight text origin origin := by
  refine ⟨boundary, closes, .inl ⟨le_rfl, fun place c _ lower upper => ?_⟩,
    fun _ start first separated => ?_⟩
  · omega
  · have reach := previousWordEnd_le boundary first separated
    exact fun place c stands lower upper => clear place c stands (reach.trans lower) upper

theorem snapsRight_of_word (onward : RunsTo isAlphanumeric text origin edge)
    (ends : NoneStands isAlphanumeric text edge) (word : ¬ NoneStands isAlphanumeric text origin) :
    dividers.SnapsRight text origin edge :=
  ⟨onward.boundary, ends, .inl ⟨onward.ordered, onward.passes⟩, fun same =>
    absurd (same ▸ ends) word⟩

theorem snapsRight_right (dividers : Dividers) (boundary : isBoundary text origin = true) :
    dividers.SnapsRight text origin (dividers.right text origin) := by
  have stop := byteLength_cut boundary
  simp only [right, stop]
  split_ifs with closes held <;> rw [← noneStands_iff boundary] at closes
  · rw [← Bool.not_eq_false, ← clear_previousWordEnd_iff boundary] at held
    exact snapsRight_of_divided boundary held
  · rw [Bool.not_eq_true, ← clear_previousWordEnd_iff boundary] at held
    exact snapsRight_of_clear boundary closes held
  · exact snapsRight_of_word (runsTo_takeWhile isAlphanumeric boundary).1
      (fun c => ends_takeWhile isAlphanumeric boundary) closes

/-- A right edge that is moved again stays. -/
theorem SnapsRight.eq_of_again (boundary : isBoundary text origin = true)
    (snaps : dividers.SnapsRight text origin edge) (moves : dividers.SnapsRight text edge again) :
    again = edge := by
  rcases moves.moved with ⟨onward, word⟩ | ⟨back, separated, divided, -⟩
  · refine Nat.le_antisymm (Nat.not_lt.mp fun further => ?_) onward
    have inside := le_byteLength moves.boundary
    obtain ⟨c, stands⟩ := exists_stands_at snaps.boundary (further.trans_le inside)
    have alphanumeric := word edge c stands le_rfl further
    rw [snaps.closes c stands] at alphanumeric
    cases alphanumeric
  · exfalso
    obtain ⟨place, c, stands, next⟩ :=
      exists_stands_before snaps.boundary (Nat.zero_lt_of_lt back)
    have separates :=
      not_alphanumeric_of_separates (separated.of_next moves.boundary back stands next)
    rcases snaps.moved with ⟨onward, word⟩ | ⟨-, -, -,
      first | ⟨other, d, there, ended, alphanumeric⟩⟩
    · rcases Nat.lt_or_eq_of_le onward with moved | rfl
      · rw [word.of_next boundary moved stands next] at separates
        cases separates
      · exact divided (snaps.stays rfl again moves.boundary separated)
    · omega
    · have alsoSeparates := separated.of_next moves.boundary back there ended
      rw [not_alphanumeric_of_separates alsoSeparates] at alphanumeric
      cases alphanumeric

/-- An offset moves to the last boundary that is not past it, and from there each edge snaps to
words its own way. A snapped edge that is moved again stays. -/
theorem edges_snap (dividers : Dividers) (text : List Char) (offset : Nat) :
    ∃ origin, IsGreatest {place | isBoundary text place = true ∧ place ≤ offset} origin ∧
      (∃ edge, dividers.left? text offset = some edge ∧ dividers.left text offset = edge ∧
        dividers.SnapsLeft text origin edge ∧ dividers.left text edge = edge) ∧
      ∃ edge, dividers.right? text offset = some edge ∧ dividers.right text offset = edge ∧
        dividers.SnapsRight text origin edge ∧ dividers.right text edge = edge := by
  have boundary := isBoundary_floor text offset
  have left := snapsLeft_left dividers boundary
  have right := snapsRight_right dividers boundary
  have leftFloor : dividers.left text (Text.floor text offset) = dividers.left text offset := by
    simp only [Dividers.left, cut_floor]
  have rightFloor : dividers.right text (Text.floor text offset) = dividers.right text offset := by
    simp only [Dividers.right, cut_floor]
  rw [leftFloor] at left
  rw [rightFloor] at right
  exact ⟨Text.floor text offset, isGreatest_floor text offset,
    ⟨_, left?_eq dividers text offset, rfl, left,
      left.eq_of_again (snapsLeft_left dividers left.boundary)⟩,
    _, right?_eq dividers text offset, rfl, right,
    right.eq_of_again boundary (snapsRight_right dividers right.boundary)⟩

end Dividers

end FacetSearch
