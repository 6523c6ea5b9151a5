import FacetSearch.Proofs.Snippet.Slices
import FacetSearch.Proofs.Terminal.Screen
import FacetSearch.Proofs.Text.Runs

/-!
Texts with emphasis. Marking ranges of a text, and colouring the connectives of a query, put nothing
but control codes into it (`addsOnlyCodes`): a terminal shows the text as it was, with the ranges
that could be marked in one style and the connectives in another.
-/

set_option autoImplicit false

namespace FacetSearch.Terminal

open Text (byteLength cut isBoundary slice? before? behind? runsAt IsRun)

/-- A range can be marked in a text whose last marked range ends at an offset: it is in order, in
the text, between characters, and not in front of that offset. -/
structure Fits (text : List Char) (last : Nat) (range : Nat × Nat) : Prop where
  behind : last ≤ range.1
  ordered : range.1 ≤ range.2
  inside : range.2 ≤ byteLength text
  first : isBoundary text range.1 = true
  second : isBoundary text range.2 = true

theorem canMark_iff {text : List Char} {last : Nat} {range : Nat × Nat} :
    canMark text last range.1 range.2 = true ↔ Fits text last range := by
  simp only [canMark, Bool.and_eq_true, decide_eq_true_eq]
  constructor
  · rintro ⟨⟨⟨behind, ordered⟩, first⟩, second⟩
    exact ⟨behind, ordered, Text.le_byteLength second, first, second⟩
  · intro fits
    exact ⟨⟨⟨fits.behind, fits.ordered⟩, fits.first⟩, fits.second⟩

instance (text : List Char) (last : Nat) (range : Nat × Nat) : Decidable (Fits text last range) :=
  decidable_of_iff _ canMark_iff

variable {text : List Char} {last : Nat} {range : Nat × Nat}

theorem emphasizeFrom_fits (fits : Fits text last range) (rest : List (Nat × Nat)) :
    emphasizeFrom text last (range :: rest) = Text.slice text last range.1 ++
      mark (Text.slice text range.1 range.2) ++ emphasizeFrom text range.2 rest := by
  rw [emphasizeFrom, if_pos (canMark_iff.mpr fits)]

theorem emphasizeFrom_skip (skipped : ¬ Fits text last range) (rest : List (Nat × Nat)) :
    emphasizeFrom text last (range :: rest) = emphasizeFrom text last rest := by
  rw [emphasizeFrom, if_neg (by rwa [canMark_iff])]

/-- Where the last of some ranges ends. -/
def lastStop (ranges : List (Nat × Nat)) : Nat := (ranges.getLast?.map Prod.snd).getD 0

/-- Keeps one more range if it can be marked behind those that were kept. -/
def keep (text : List Char) (kept : List (Nat × Nat)) (range : Nat × Nat) : List (Nat × Nat) :=
  if Fits text (lastStop kept) range then kept ++ [range] else kept

/-- Marks ranges, with each piece of the text cut out by its offsets. There is no result if one of
them lies inside a character or behind the end. -/
def emphasizeFrom? (text : List Char) (last : Nat) : List (Nat × Nat) → Option (List Char)
  | [] => slice? text last (byteLength text)
  | range :: rest =>
    if Fits text last range then do
      let plain ← slice? text last range.1
      let marked ← slice? text range.1 range.2
      let later ← emphasizeFrom? text range.2 rest
      return plain ++ mark marked ++ later
    else emphasizeFrom? text last rest

theorem emphasizeFrom?_eq (boundary : isBoundary text last = true) (ranges : List (Nat × Nat)) :
    emphasizeFrom? text last ranges = some (emphasizeFrom text last ranges) := by
  induction ranges generalizing last with
  | nil => exact Text.behind?_eq boundary
  | cons range rest ih =>
      rw [emphasizeFrom?]
      by_cases fits : Fits text last range
      · rw [if_pos fits, emphasizeFrom_fits fits, Text.slice?_eq boundary fits.first fits.behind,
          Text.slice?_eq fits.first fits.second fits.ordered, ih fits.second]
        rfl
      · rw [if_neg fits, emphasizeFrom_skip fits, ih boundary]

theorem lastStop_concat (kept : List (Nat × Nat)) (range : Nat × Nat) :
    lastStop (kept ++ [range]) = range.2 := by
  rw [lastStop, List.getLast?_concat]
  rfl

/-- Behind what is marked so far, a range that fits adds the text in front of it and itself. -/
theorem Fits.exists_parts {front : List Char} (begins : front <+: text)
    (fits : Fits text (byteLength front) range) :
    ∃ plain marked back, text = front ++ plain ++ marked ++ back ∧
      byteLength (front ++ plain) = range.1 ∧ byteLength (front ++ plain ++ marked) = range.2 ∧
      Text.slice text (byteLength front) range.1 = plain ∧
      Text.slice text range.1 range.2 = marked := by
  obtain ⟨earlier, marked, back, whole, start, stop, sliced⟩ :=
    Text.exists_middle fits.first fits.second fits.ordered
  have beginning : earlier <+: text := ⟨marked ++ back, by rw [whole, List.append_assoc]⟩
  obtain ⟨plain, rfl⟩ := Text.prefix_of_byteLength_le begins beginning (start ▸ fits.behind)
  refine ⟨plain, marked, back, whole, start, stop, ?_, sliced⟩
  rw [← start, whole, List.append_assoc (front ++ plain)]
  exact Text.slice_append front plain _

/-- A screen that shows the text up to the last marked range shows the rest with the rest of the
ranges. -/
theorem Screen.Shows.emphasizeFrom {screen : Screen} {front : List Char} {kept : List (Nat × Nat)}
    (shows : screen.Shows [.bold, .yellow] [] front kept) (begins : front <+: text)
    (unescaped : escape ∉ text) (stop : lastStop kept = byteLength front)
    (ranges : List (Nat × Nat)) :
    (screen.read (emphasizeFrom text (byteLength front) ranges)).Shows [.bold, .yellow] [] text
      (ranges.foldl (keep text) kept) := by
  induction ranges generalizing screen front kept with
  | nil =>
      obtain ⟨back, rfl⟩ := begins
      have behind : escape ∉ back := fun member => unescaped (List.mem_append_right front member)
      rw [Terminal.emphasizeFrom, Text.cut_byteLength]
      exact shows.print behind
  | cons range rest ih =>
      rw [List.foldl_cons, keep, stop]
      by_cases fits : Fits text (byteLength front) range
      · obtain ⟨plain, marked, back, whole, start, last, before, inside⟩ :=
          fits.exists_parts begins
        have unescapedPlain : escape ∉ plain :=
          fun member => unescaped (by rw [whole]; simp [member])
        have unescapedMarked : escape ∉ marked :=
          fun member => unescaped (by rw [whole]; simp [member])
        have next := (shows.print unescapedPlain).styled (List.cons_ne_nil _ _) unescapedMarked
        rw [start, last] at next
        rw [if_pos fits, emphasizeFrom_fits fits, before, inside, Screen.read_append,
          Screen.read_append, mark, ← last]
        exact ih next ⟨back, whole.symm⟩ ((lastStop_concat _ _).trans last.symm)
      · rw [if_neg fits, emphasizeFrom_skip fits]
        exact ih shows begins stop

/-- Marked ranges are those that are kept one after the other. -/
theorem shows_emphasize (unescaped : escape ∉ text) (ranges : List (Nat × Nat)) :
    Shows (emphasize text ranges) [.bold, .yellow] text (ranges.foldl (keep text) []) :=
  (Screen.Shows.blank _).emphasizeFrom List.nil_prefix unescaped rfl ranges

/-- Whether a character is part of a word of a query: only spaces are not. -/
def inWord (c : Char) : Bool := c != ' '

theorem inWord_of_ne {c : Char} (different : c ≠ ' ') : inWord c = true := by
  simpa [inWord] using different

theorem not_inWord_space : ¬ inWord ' ' = true := by simp [inWord]

theorem eq_of_not_inWord {c : Char} (skipped : inWord c = false) : c = ' ' := by
  simpa [inWord] using skipped

/-- One round of colouring, with each piece cut out by its offsets: a word and the spaces behind it,
and what is left. -/
def round? (rest : List Char) : Option (List Char × List Char) := do
  let stop := byteLength (rest.takeWhile inWord)
  let word ← before? rest stop
  let behind ← behind? rest stop
  let spaces := byteLength behind - byteLength (behind.dropWhile (· == ' '))
  let gap ← before? behind spaces
  let left ← behind? behind spaces
  return (colourWord word ++ gap, left)

theorem cut?_append (front back : List Char) :
    before? (front ++ back) (byteLength front) = some front ∧
      behind? (front ++ back) (byteLength front) = some back := by
  have boundary : isBoundary (front ++ back) (byteLength front) = true :=
    Text.isBoundary_iff.mpr ⟨front, back, rfl, rfl⟩
  rw [Text.before?_eq boundary, Text.behind?_eq boundary, Text.cut_byteLength]
  exact ⟨rfl, rfl⟩

/-- A word, the spaces behind it and what is left are the parts of a text. -/
theorem round?_eq (rest : List Char) :
    round? rest = some (colourWord (rest.takeWhile inWord) ++
      (rest.dropWhile inWord).takeWhile (· == ' '),
      (rest.dropWhile inWord).dropWhile (· == ' ')) := by
  have halves := cut?_append (rest.takeWhile inWord) (rest.dropWhile inWord)
  rw [List.takeWhile_append_dropWhile] at halves
  have spaces : byteLength (rest.dropWhile inWord) -
      byteLength ((rest.dropWhile inWord).dropWhile (· == ' '))
      = byteLength ((rest.dropWhile inWord).takeWhile (· == ' ')) := by
    have whole := congrArg byteLength
      (List.takeWhile_append_dropWhile (p := (· == ' ')) (l := rest.dropWhile inWord))
    rw [Text.byteLength_append] at whole
    omega
  have parts := cut?_append ((rest.dropWhile inWord).takeWhile (· == ' '))
    ((rest.dropWhile inWord).dropWhile (· == ' '))
  rw [List.takeWhile_append_dropWhile] at parts
  simp only [round?, halves.1, halves.2, spaces, parts.1, parts.2, Option.bind_eq_bind,
    Option.bind_some, Option.pure_def]

/-- A round reads at least a character: where there is no word there is a space. -/
theorem length_lt_of_round? {rest out left : List Char} (inhabited : rest ≠ [])
    (round : round? rest = some (out, left)) : left.length < rest.length := by
  rw [round?_eq] at round
  obtain rfl := (Prod.mk.inj (Option.some.inj round)).2
  obtain ⟨c, rest, rfl⟩ := List.exists_cons_of_ne_nil inhabited
  have fewer := Text.length_dropWhile_le (· == ' ') (rest.dropWhile inWord)
  have shorter := Text.length_dropWhile_le inWord rest
  by_cases space : c = ' '
  · subst space
    have later := Text.length_dropWhile_le (· == ' ') rest
    rw [List.dropWhile_cons_of_neg not_inWord_space, List.dropWhile_cons_of_pos (by simp),
      List.length_cons]
    omega
  · rw [List.dropWhile_cons_of_pos (inWord_of_ne space), List.length_cons]
    omega

/-- Colours the connectives round by round, up to the end of the text. -/
def colour? (rest : List Char) : Option (List Char) :=
  if _left : rest = [] then some []
  else
    match _round : round? rest with
    | none => none
    | some (out, left) => (colour? left).map (out ++ ·)
termination_by rest.length
decreasing_by exact length_lt_of_round? _left _round

theorem colourWord_nil : colourWord [] = [] := rfl

theorem colourAfter_space (rest : List Char) :
    colourAfter [] (' ' :: rest) = ' ' :: colourAfter [] rest := rfl

/-- What is read of a word goes up to the next space. -/
theorem colourAfter_takeWhile (word rest : List Char) :
    colourAfter word rest = colourWord (word.reverse ++ rest.takeWhile inWord) ++
      colourAfter [] (rest.dropWhile inWord) := by
  induction rest generalizing word with
  | nil => simp [colourAfter, colourWord_nil]
  | cons c rest ih =>
      rw [colourAfter]
      by_cases space : c = ' '
      · subst space
        rw [if_pos rfl, List.takeWhile_cons_of_neg not_inWord_space,
          List.dropWhile_cons_of_neg not_inWord_space, List.append_nil, colourAfter_space]
      · rw [if_neg space, ih, List.takeWhile_cons_of_pos (inWord_of_ne space),
          List.dropWhile_cons_of_pos (inWord_of_ne space), List.reverse_cons, List.append_assoc]
        rfl

theorem colourAfter_spaces (rest : List Char) :
    colourAfter [] rest = rest.takeWhile (· == ' ') ++
      colourAfter [] (rest.dropWhile (· == ' ')) := by
  induction rest with
  | nil => rfl
  | cons c rest ih =>
      by_cases space : c = ' '
      · subst space
        rw [colourAfter_space, ih, List.takeWhile_cons_of_pos (by simp),
          List.dropWhile_cons_of_pos (by simp)]
        rfl
      · rw [List.takeWhile_cons_of_neg (by simpa using space),
          List.dropWhile_cons_of_neg (by simpa using space)]
        rfl

/-- Each round succeeds, and together they colour the connectives of the text. -/
theorem colour?_eq (rest : List Char) : colour? rest = some (colourAfter [] rest) := by
  fun_induction colour? rest with
  | case1 => rfl
  | case2 rest _ failed =>
      rw [round?_eq] at failed
      cases failed
  | case3 rest _ out left round ih =>
      rw [round?_eq] at round
      obtain ⟨rfl, rfl⟩ := Prod.mk.inj (Option.some.inj round)
      rw [ih, Option.map_some, colourAfter_takeWhile [] rest,
        colourAfter_spaces (rest.dropWhile inWord), List.append_assoc]
      rfl

/-- The connectives in a text that begins at an offset. -/
def connectiveRanges (offset : Nat) (text : List Char) : List (Nat × Nat) :=
  ((runsAt inWord offset text).filter (fun run => connectives.contains run.2)).map
    (fun run => (run.1, run.1 + byteLength run.2))

theorem connectiveRanges_run {c : Char} (kept : inWord c = true) (offset : Nat) (rest : List Char) :
    connectiveRanges offset (c :: rest)
      = (if connectives.contains (c :: rest.takeWhile inWord)
          then [(offset, offset + byteLength (c :: rest.takeWhile inWord))] else []) ++
        connectiveRanges (offset + byteLength (c :: rest.takeWhile inWord))
          (rest.dropWhile inWord) := by
  rw [connectiveRanges, Text.runsAt_cons_keep kept, List.filter_cons]
  split <;> rfl

theorem connectiveRanges_space (offset : Nat) (rest : List Char) :
    connectiveRanges offset (' ' :: rest)
      = connectiveRanges (offset + (' ' : Char).utf8Size) rest := by
  rw [connectiveRanges, Text.runsAt_cons_skip (Bool.eq_false_iff.mpr not_inWord_space)]
  rfl

theorem mem_connectives_iff {word : List Char} :
    word ∈ connectives ↔ word = "AND".toList ∨ word = "OR".toList ∨
    word = "NOT".toList := by
  rw [connectives, List.mem_cons, List.mem_pair]
  rfl

theorem mem_connectiveRanges_iff {text : List Char} {range : Nat × Nat} :
    range ∈ connectiveRanges 0 text ↔
    ∃ word, (word = "AND".toList ∨ word = "OR".toList ∨ word = "NOT".toList) ∧
      IsRun inWord text range.1 word ∧ range.2 = range.1 + byteLength word := by
  simp only [connectiveRanges, List.mem_map, List.mem_filter, List.contains_iff_mem,
    ← mem_connectives_iff]
  constructor
  · rintro ⟨run, ⟨found, connective⟩, rfl⟩
    exact ⟨run.2, connective, Text.mem_runsAt_iff.mp found, rfl⟩
  · rintro ⟨word, connective, is, stop⟩
    exact ⟨(range.1, word), ⟨Text.mem_runsAt_iff.mpr is, connective⟩,
      Prod.ext rfl stop.symm⟩

theorem pairwise_connectiveRanges (text : List Char) :
    (connectiveRanges 0 text).Pairwise (fun range next => range.2 ≤ next.1) :=
  List.pairwise_map.mpr ((Text.pairwise_runsAt 0 text).filter _)

/-- A word is shown in colour exactly if it is a connective. -/
theorem Screen.Shows.colourWord {screen : Screen} {front word : List Char}
    {ranges : List (Nat × Nat)} (shows : screen.Shows [.magenta] [] front ranges)
    (unescaped : escape ∉ word) :
    (screen.read (colourWord word)).Shows [.magenta] [] (front ++ word) (ranges ++
      (if connectives.contains word then [(byteLength front, byteLength front + byteLength word)]
        else [])) := by
  rw [Terminal.colourWord]
  split
  · have coloured := shows.styled (List.cons_ne_nil _ _) unescaped
    rwa [Text.byteLength_append] at coloured
  · rw [List.append_nil]
    exact shows.print unescaped

/-- A screen that shows the text up to here shows the rest with its connectives. -/
theorem Screen.Shows.colourAfter {screen : Screen} {front rest : List Char}
    {ranges : List (Nat × Nat)} (shows : screen.Shows [.magenta] [] front ranges)
    (unescaped : escape ∉ rest) :
    (screen.read (colourAfter [] rest)).Shows [.magenta] [] (front ++ rest)
      (ranges ++ connectiveRanges (byteLength front) rest) := by
  induction rest using Text.inductionOnRuns inWord generalizing screen front ranges with
  | nil =>
      rw [Terminal.colourAfter, connectiveRanges, runsAt, List.append_nil]
      exact (List.append_nil ranges).symm ▸ shows
  | run c rest kept ih =>
      have split : c :: rest = c :: rest.takeWhile inWord ++ rest.dropWhile inWord := by
        rw [List.cons_append, List.takeWhile_append_dropWhile]
      rw [split, List.mem_append, not_or] at unescaped
      have later := ih (shows.colourWord unescaped.1) unescaped.2
      rw [Text.byteLength_append] at later
      rw [colourAfter_takeWhile, List.takeWhile_cons_of_pos kept, List.dropWhile_cons_of_pos kept,
        List.reverse_nil, List.nil_append, Screen.read_append, connectiveRanges_run kept,
        ← List.append_assoc, split,
        ← List.append_assoc]
      exact later
  | skip c rest skipped ih =>
      obtain rfl := eq_of_not_inWord skipped
      rw [List.mem_cons, not_or] at unescaped
      have spaced : (screen.read [' ']).Shows [.magenta] [] (front ++ [' ']) ranges :=
        shows.print (by decide)
      have later := ih spaced unescaped.2
      rw [Text.byteLength_append] at later
      rw [colourAfter_space, connectiveRanges_space, List.append_cons]
      exact later

/-- Emphasis puts nothing but control codes into a text. The loop over ranges never cuts the text
where it cannot be cut, and marks those ranges that can be marked behind the ones kept before them,
in one pass over the list. The loop over words ends, and colours those runs of characters other than
spaces that are "AND", "OR" or "NOT". -/
structure AddsOnlyCodes (text : String) : Prop where
  cuts : ∀ ranges, emphasizeFrom? text.toList 0 ranges = some (emphasize text.toList ranges)
  marks : ∀ ranges, Shows (emphasize text.toList ranges) [.bold, .yellow] text.toList
    (ranges.foldl (keep text.toList) [])
  rounds : colour? text.toList = some (query text).toList
  colours : ∃ words, Shows (query text).toList [.magenta] text.toList words ∧
    words.Pairwise (fun range next => range.2 ≤ next.1) ∧
    ∀ range, range ∈ words ↔
      ∃ word, (word = "AND".toList ∨ word = "OR".toList ∨ word = "NOT".toList) ∧
      IsRun inWord text.toList range.1 word ∧ range.2 = range.1 + byteLength word

/-- A text without control codes of its own is shown as it was, with the emphasis it is given. -/
theorem addsOnlyCodes (text : String) (unescaped : escape ∉ text.toList) :
    AddsOnlyCodes text := by
  have whole : (query text).toList = colourAfter [] text.toList := String.toList_ofList
  refine ⟨emphasizeFrom?_eq (Text.isBoundary_zero _), shows_emphasize unescaped, ?_, ?_⟩
  · rw [whole]
    exact colour?_eq text.toList
  · rw [whole]
    exact ⟨_, (Screen.Shows.blank [.magenta]).colourAfter unescaped, pairwise_connectiveRanges _,
      fun _ => mem_connectiveRanges_iff⟩

/-- Of ranges that are reversed, begin inside a character, overlap or go past the end, none is
marked. Of the words of the text only the one that is a connective as a whole is coloured. -/
theorem addsOnlyCodes_umlaut :
    let text := "über OR  ORT"
    let ranges := [(4, 2), (1, 3), (0, 5), (3, 8), (6, 8), (8, 8), (9, 99)]
    escape ∉ text.toList ∧ AddsOnlyCodes text ∧
      ranges.foldl (keep text.toList) [] = [(0, 5), (6, 8), (8, 8)] ∧
      emphasize text.toList ranges = ("\x1b[1m\x1b[33müber\x1b[0m \x1b[1m\x1b[33mOR\x1b[0m" ++
        "\x1b[1m\x1b[33m\x1b[0m  ORT").toList ∧
      query text = "über \x1b[35mOR\x1b[0m  ORT" ∧
      Shows (query text).toList [.magenta] text.toList [(6, 8)] := by
  intro text ranges
  have unescaped : escape ∉ text.toList := by decide +kernel
  have spec : AddsOnlyCodes text := addsOnlyCodes text unescaped
  obtain ⟨words, shows, -, -⟩ := spec.colours
  have coloured : words = [(6, 8)] := shows.stretches.symm.trans (by decide +kernel)
  exact ⟨unescaped, spec, by decide +kernel, by decide +kernel, by decide +kernel,
    coloured ▸ shows⟩

end FacetSearch.Terminal
