import FacetSearch.Proofs.Snippet.Fragments

/-!
Snippets cut with checked slices. Every part of the text, or of the list of its words, that is taken
by its place is taken by a function that fails where the place is out of bounds, out of order or
inside a character. None of them ever fails: `Snippet.cutFrom?_eq`.

The definitions follow the unchecked ones step by step. Each comes with the equation to the one that
it checks, and nothing else about it is used.
-/

set_option autoImplicit false

namespace FacetSearch

open Text

namespace Text

variable {text : List Char} {start stop offset : Nat}

theorem slice?_eq (first : isBoundary text start = true) (last : isBoundary text stop = true)
    (ordered : start ≤ stop) : slice? text start stop = some (slice text start stop) := by
  simp [slice?, first, last, ordered]

/-- The text in front of an offset, if it is a boundary. -/
def before? (text : List Char) (offset : Nat) : Option (List Char) := slice? text 0 offset

/-- The text from an offset on, if it is a boundary. -/
def behind? (text : List Char) (offset : Nat) : Option (List Char) :=
  slice? text offset (byteLength text)

theorem before?_eq (boundary : isBoundary text offset = true) :
    before? text offset = some (cut offset text).1 := by
  obtain ⟨front, back, rfl, rfl⟩ := isBoundary_iff.mp boundary
  have sliced := slice_append [] front back
  rw [List.nil_append, byteLength_nil] at sliced
  rw [before?, slice?_eq (isBoundary_zero _) boundary (Nat.zero_le _), sliced, cut_byteLength]

theorem behind?_eq (boundary : isBoundary text offset = true) :
    behind? text offset = some (cut offset text).2 := by
  obtain ⟨front, back, rfl, rfl⟩ := isBoundary_iff.mp boundary
  have sliced := slice_append front back []
  rw [List.append_nil] at sliced
  rw [behind?, slice?_eq boundary (isBoundary_byteLength _) (le_byteLength boundary), sliced,
    cut_byteLength]

/-- A part at the beginning of a slice ends at a boundary. -/
theorem isBoundary_of_slice_eq_append {front back : List Char}
    (first : isBoundary text start = true) (last : isBoundary text stop = true)
    (ordered : start ≤ stop) (sliced : slice text start stop = front ++ back) :
    isBoundary text (start + byteLength front) = true ∧
      isBoundary text (stop - byteLength back) = true := by
  obtain ⟨before, middle, after, rfl, rfl, rfl, same⟩ := exists_middle first last ordered
  obtain rfl : middle = front ++ back := same.symm.trans sliced
  have edge : isBoundary (before ++ (front ++ back) ++ after) (byteLength (before ++ front))
      = true :=
    isBoundary_iff.mpr ⟨before ++ front, back ++ after, by simp, rfl⟩
  have size : byteLength (before ++ (front ++ back)) - byteLength back
      = byteLength (before ++ front) := by
    rw [← List.append_assoc, byteLength_append _ back]
    omega
  rw [size, ← byteLength_append]
  exact ⟨edge, edge⟩

end Text

namespace Dividers

variable (dividers : Dividers) {text : List Char} {offset : Nat}

def nextWordStart? (text : List Char) (offset : Nat) : Option Nat := do
  let rest ← behind? text offset
  return offset + byteLength (rest.takeWhile separatesWords)

def previousWordEnd? (text : List Char) (offset : Nat) : Option Nat := do
  let front ← before? text offset
  return offset - byteLength (front.reverse.takeWhile separatesWords)

theorem nextWordStart?_eq (boundary : isBoundary text offset = true) :
    nextWordStart? text offset = some (nextWordStart text offset) := by
  simp [nextWordStart?, nextWordStart, behind?_eq boundary]

theorem previousWordEnd?_eq (boundary : isBoundary text offset = true) :
    previousWordEnd? text offset = some (previousWordEnd text offset) := by
  simp [previousWordEnd?, previousWordEnd, before?_eq boundary]

def left? (text : List Char) (offset : Nat) : Option Nat := do
  let start := Text.floor text offset
  let front ← before? text start
  let word := front.reverse.takeWhile isAlphanumeric
  if word.isEmpty then
    let next ← nextWordStart? text start
    let gap ← slice? text start next
    return if gap.any dividers.holds then next else start
  else
    return start - byteLength word

def right? (text : List Char) (offset : Nat) : Option Nat := do
  let stop := Text.floor text offset
  let rest ← behind? text stop
  let word := rest.takeWhile isAlphanumeric
  if word.isEmpty then
    let previous ← previousWordEnd? text stop
    let gap ← slice? text previous stop
    return if gap.any dividers.holds then previous else stop
  else
    return stop + byteLength word

theorem left?_eq (text : List Char) (offset : Nat) :
    dividers.left? text offset = some (dividers.left text offset) := by
  have boundary := isBoundary_floor text offset
  obtain ⟨onward, gap⟩ := runsTo_takeWhile separatesWords boundary
  have sliced := slice?_eq boundary onward.boundary onward.ordered
  rw [gap, cut_floor] at sliced
  simp only [left?, before?_eq boundary, nextWordStart?_eq boundary, nextWordStart, cut_floor,
    Option.bind_eq_bind, Option.bind_some, sliced, left]
  split <;> rfl

theorem right?_eq (text : List Char) (offset : Nat) :
    dividers.right? text offset = some (dividers.right text offset) := by
  have boundary := isBoundary_floor text offset
  obtain ⟨back, gap⟩ := runsBack_takeWhile separatesWords boundary
  have sliced := slice?_eq back.boundary boundary back.ordered
  rw [gap, cut_floor] at sliced
  simp only [right?, behind?_eq boundary, previousWordEnd?_eq boundary, previousWordEnd, cut_floor,
    Option.bind_eq_bind, Option.bind_some, sliced, List.any_reverse, right]
  split <;> rfl

def startInside? (text : List Char) (matched : Span) (start : Nat) : Option Nat := do
  let front ← slice? text start matched.start
  if front.any dividers.holds then
    let kept := front.reverse.takeWhile (!dividers.holds ·)
    let next ← nextWordStart? text (matched.start - byteLength kept)
    return min next matched.start
  else
    return start

def stopInside? (text : List Char) (matched : Span) (stop : Nat) : Option Nat := do
  let back ← slice? text matched.stop stop
  if back.any dividers.holds then
    let kept := back.takeWhile (!dividers.holds ·)
    let previous ← previousWordEnd? text (matched.stop + byteLength kept)
    return max previous matched.stop
  else
    return stop

theorem startInside?_eq {matched : Span} {start : Nat} (first : isBoundary text start = true)
    (last : isBoundary text matched.start = true) (ordered : start ≤ matched.start) :
    dividers.startInside? text matched start = some (dividers.startInside text matched start) := by
  have parts := List.takeWhile_append_dropWhile (p := (!dividers.holds ·))
    (l := (slice text start matched.start).reverse)
  have whole := congrArg List.reverse parts.symm
  rw [List.reverse_reverse, List.reverse_append] at whole
  have edge := (isBoundary_of_slice_eq_append first last ordered whole).2
  rw [byteLength_reverse] at edge
  simp only [startInside?, slice?_eq first last ordered, Option.bind_eq_bind, Option.bind_some,
    nextWordStart?_eq edge, startInside]
  split <;> rfl

theorem stopInside?_eq {matched : Span} {stop : Nat} (first : isBoundary text matched.stop = true)
    (last : isBoundary text stop = true) (ordered : matched.stop ≤ stop) :
    dividers.stopInside? text matched stop = some (dividers.stopInside text matched stop) := by
  have whole := List.takeWhile_append_dropWhile (p := (!dividers.holds ·))
    (l := slice text matched.stop stop)
  have edge := (isBoundary_of_slice_eq_append first last ordered whole.symm).1
  simp only [stopInside?, slice?_eq first last ordered, Option.bind_eq_bind, Option.bind_some,
    previousWordEnd?_eq edge, stopInside]
  split <;> rfl

def windowAround? (text : List Char) (start stop padding : Nat) : Option Span := do
  let matched := Span.between (Text.floor text start) (Text.floor text stop)
  let before ← before? text matched.start
  let after ← behind? text matched.stop
  let low ← dividers.left? text (matched.start - byteLength (before.reverse.take padding))
  let high ← dividers.right? text (matched.stop + byteLength (after.take padding))
  let wide := (Span.between low high).union matched
  let first ← dividers.startInside? text matched wide.start
  let last ← dividers.stopInside? text matched wide.stop
  return .between first last

theorem windowAround?_eq (text : List Char) (start stop padding : Nat) :
    dividers.windowAround? text start stop padding
      = some (dividers.windowAround text start stop padding) := by
  have matched := Span.isBounded_between (isBoundary_floor text start) (isBoundary_floor text stop)
  have wide := fun low high => (Span.isBounded_between (isBoundary_left dividers text low)
    (isBoundary_right dividers text high)).union matched
  simp only [windowAround?, before?_eq matched.start, behind?_eq matched.stop, left?_eq, right?_eq,
    Option.bind_eq_bind, Option.bind_some]
  rw [startInside?_eq dividers (wide _ _).start matched.start (Nat.min_le_right _ _),
    stopInside?_eq dividers matched.stop (wide _ _).stop (Nat.le_max_right _ _)]
  rfl

end Dividers

theorem mapM_eq_some {α β : Type} {list : List α} {attempt : α → Option β}
    {value : α → β} (succeeds : ∀ item ∈ list, attempt item = some (value item)) :
    list.mapM attempt = some (list.map value) := by
  induction list with
  | nil => rfl
  | cons item rest ih =>
      rw [List.mapM_cons, succeeds item (by simp), ih fun next later =>
        succeeds next (by simp [later])]
      rfl

def PlacedWord.ofText? (text : List Char) : Option (List PlacedWord) :=
  (runsAt isAlphanumeric 0 text).mapM fun run => do
    let stop := run.1 + byteLength run.2
    let covered ← slice? text run.1 stop
    return ⟨⟨run.1, stop, Nat.le_add_right ..⟩, lowerCase covered⟩

theorem PlacedWord.ofText?_eq (text : List Char) : ofText? text = some (ofText text) := by
  refine mapM_eq_some fun run found => ?_
  obtain ⟨front, back, whole, size, _⟩ := exists_parts_of_mem_runsAt found
  rw [Nat.zero_add] at size
  have sliced : slice? text run.1 (run.1 + byteLength run.2) = some run.2 := by
    have first : isBoundary text run.1 = true :=
      isBoundary_iff.mpr ⟨front, run.2 ++ back, by rw [whole, List.append_assoc], size.symm⟩
    have last : isBoundary text (run.1 + byteLength run.2) = true :=
      isBoundary_iff.mpr ⟨front ++ run.2, back, whole, by rw [byteLength_append, size]⟩
    rw [slice?_eq first last (Nat.le_add_right _ _), size, ← byteLength_append,
      whole, slice_append]
  simp [sliced]

namespace Term

/-- Whether the words of a term match the first of the given words. -/
def matchesFirst (openEnded : Bool) (wanted : List (List Char)) (words : List PlacedWord) : Bool :=
  decide (wanted.length ≤ words.length) &&
    (wanted.zip words).zipIdx.all fun ((word, found), place) =>
    if openEnded && place == wanted.length - 1 then word.isPrefixOf found.lower else word
      == found.lower

/-- The match of a term at a place in the list of words, which has to be a place of the list. -/
def occurrenceAt? (term : Term) (words : List PlacedWord) (place : Nat) : Option (Option Span) :=
  if place ≤ words.length then
    if matchesFirst term.openEnded term.words (words.drop place) then do
      let first ← words[place]?
      let last ← words[place + term.words.length - 1]?
      return some (.between first.span.start last.span.stop)
    else
      return none
  else
    none

def occurrences? (term : Term) (words : List PlacedWord) : Option (List Span) := do
  let found ← (List.range words.length).mapM (term.occurrenceAt? words)
  return found.filterMap id

theorem matchesFirst_single (openEnded : Bool) (word : List Char) (found : PlacedWord)
    (rest : List PlacedWord) :
    matchesFirst openEnded [word] (found :: rest) = matchesLast openEnded word found := by
  simp [matchesFirst, matchesLast]

theorem matchesFirst_cons (openEnded : Bool) (word : List Char) {others : List (List Char)}
    (more : others ≠ []) (found : PlacedWord) (rest : List PlacedWord) :
    matchesFirst openEnded (word :: others) (found :: rest)
      = (word == found.lower && matchesFirst openEnded others rest) := by
  have count := List.length_pos_iff.mpr more
  have shift : ∀ place, (place + 1 == others.length) = (place == others.length - 1) := by
    intro place
    rw [Bool.eq_iff_iff, beq_iff_eq, beq_iff_eq]
    omega
  have first : (0 == others.length) = false := by
    rw [beq_eq_false_iff_ne]
    omega
  simp only [matchesFirst, List.zip_cons_cons, List.zipIdx_cons, List.all_cons, List.zipIdx_succ,
    List.all_map, Function.comp_def, List.length_cons, Nat.add_sub_cancel,
    Nat.add_le_add_iff_right, shift,
    first, Bool.and_false, Bool.false_eq_true, if_false]
  rw [← Bool.and_assoc, Bool.and_comm (decide _), Bool.and_assoc]

/-- A match stops at the end of the word that the term's last word stands on. -/
theorem stop?_eq {openEnded : Bool} {wanted : List (List Char)} {words : List PlacedWord}
    (inhabited : wanted ≠ []) :
    stop? openEnded wanted words = if matchesFirst openEnded wanted words then
      (words[wanted.length - 1]?).map (·.span.stop) else none := by
  fun_induction stop? openEnded wanted words with
  | case1 => exact absurd rfl inhabited
  | case2 => simp [matchesFirst]
  | case3 wanted found rest here => simp [matchesFirst_single, here]
  | case4 wanted found rest differs => simp [matchesFirst_single, differs]
  | case5 others found rest more ih =>
      rw [matchesFirst_cons openEnded found.lower more, beq_self_eq_true, Bool.true_and, ih more,
        List.length_cons, Nat.add_sub_cancel]
      obtain ⟨next, later, rfl⟩ := List.exists_cons_of_ne_nil more
      simp
  | case6 wanted others found rest more differs =>
      simp [matchesFirst_cons openEnded wanted more, differs]

theorem words_ne_nil_of_ofText? {text : String} {term : Term} (read : ofText? text = some term) :
    term.words ≠ [] := by
  unfold ofText? at read
  split at read
  · cases read
  · rename_i words inhabited
    cases read
    simpa using inhabited

/-- A match covers words of the list only. -/
theorem occurrenceAt?_eq {term : Term} (inhabited : term.words ≠ []) {words : List PlacedWord}
    {place : Nat} (inside : place < words.length) :
    term.occurrenceAt? words place = some ((words.drop place).head?.bind fun found =>
      (stop? term.openEnded term.words (words.drop place)).map (.between found.span.start)) := by
  have count := List.length_pos_iff.mpr inhabited
  rw [occurrenceAt?, if_pos (Nat.le_of_lt inside), stop?_eq inhabited, List.head?_drop,
    List.getElem?_eq_getElem inside, Option.bind_some]
  by_cases here : matchesFirst term.openEnded term.words (words.drop place) = true
  · have enough : place + term.words.length - 1 < words.length := by
      have fits := (Bool.and_eq_true_iff.mp here).1
      rw [decide_eq_true_eq, List.length_drop] at fits
      omega
    have same : place + (term.words.length - 1) = place + term.words.length - 1 := by omega
    rw [if_pos here, if_pos here, List.getElem?_drop, same]
    simp [enough]
  · rw [if_neg here, if_neg here]
    rfl

theorem occurrences_eq_filterMap (term : Term) (words : List PlacedWord) :
    term.occurrences words = (List.range words.length).filterMap fun place =>
      (words.drop place).head?.bind fun found =>
        (stop? term.openEnded term.words (words.drop place)).map (.between found.span.start) := by
  induction words with
  | nil => rfl
  | cons found rest ih =>
      rw [occurrences, ih, List.length_cons, List.range_succ_eq_map, List.filterMap_cons,
        List.filterMap_map]
      simp only [List.drop_zero, List.head?_cons, Option.bind_some, Function.comp_def,
        Nat.succ_eq_add_one, List.drop_succ_cons]
      cases stop? term.openEnded term.words (found :: rest) <;> rfl

theorem occurrences?_eq {term : Term} (inhabited : term.words ≠ []) (words : List PlacedWord) :
    term.occurrences? words = some (term.occurrences words) := by
  have found := mapM_eq_some fun place (inside : place ∈ List.range words.length) =>
    occurrenceAt?_eq inhabited (List.mem_range.mp inside)
  rw [occurrences?, found, occurrences_eq_filterMap]
  simp only [Option.bind_eq_bind, Option.bind_some, List.filterMap_map, Function.id_comp]
  rfl

end Term

def Span.ofTerms? (text : List Char) (terms : List String) : Option (List Span) := do
  let words ← PlacedWord.ofText? text
  let found ← (terms.filterMap Term.ofText?).mapM (·.occurrences? words)
  return separate 0 (found.flatten.mergeSort precedes)

theorem Span.ofTerms?_eq (text : List Char) (terms : List String) :
    ofTerms? text terms = some (ofTerms text terms) := by
  have found := mapM_eq_some fun term (read : term ∈ terms.filterMap Term.ofText?) => by
    obtain ⟨_, _, read⟩ := List.mem_filterMap.mp read
    exact Term.occurrences?_eq (Term.words_ne_nil_of_ofText? read) (PlacedWord.ofText text)
  rw [ofTerms?, PlacedWord.ofText?_eq, Option.bind_eq_bind, Option.bind_some, found,
    ofTerms, List.flatMap]
  rfl

namespace Fragment

def gather? (around : Span → Option Span) (current : Fragment) :
    List Span → Option (List Fragment)
  | [] => some [current]
  | hit :: rest => do
    let window ← around hit
    if current.window.touches window then
      gather? around ⟨current.window.union window, current.hits ++ [hit]⟩ rest
    else
      let others ← gather? around ⟨window, [hit]⟩ rest
      return current :: others

def ofHits? (around : Span → Option Span) : List Span → Option (List Fragment)
  | [] => some []
  | hit :: rest => do
    let window ← around hit
    gather? around ⟨window, [hit]⟩ rest

theorem gather?_eq (around : Span → Span) (current : Fragment) (rest : List Span) :
    gather? (fun hit => some (around hit)) current rest = some (gather around current rest) := by
  fun_induction gather around current rest with
  | case1 => rfl
  | case2 current hit rest window touching ih =>
      rw [gather?, Option.bind_eq_bind, Option.bind_some, if_pos touching, ih]
  | case3 current hit rest window apart ih =>
      rw [gather?, Option.bind_eq_bind, Option.bind_some, if_neg apart, ih]
      rfl

theorem ofHits?_eq (around : Span → Span) (hits : List Span) :
    ofHits? (fun hit => some (around hit)) hits = some (ofHits around hits) := by
  cases hits with
  | nil => rfl
  | cons hit rest => exact gather?_eq around _ rest

def markFrom? (mark : List Char → List Char) (text : List Char) (stop start : Nat) :
    List Span → Option (List Char)
  | [] => slice? text start stop
  | hit :: rest => do
    let gap ← slice? text start hit.start
    let covered ← slice? text hit.start hit.stop
    let others ← markFrom? mark text stop hit.stop rest
    return gap ++ mark covered ++ others

def render? (fragment : Fragment) (mark : List Char → List Char) (text : List Char) :
    Option (List Char) := do
  let marked ← markFrom? mark text fragment.window.stop fragment.window.start fragment.hits
  return Text.trim marked

theorem markFrom?_eq (mark : List Char → List Char) {text : List Char} {stop start : Nat}
    {hits : List Span} (first : isBoundary text start = true) (last : isBoundary text stop = true)
    (ordered : start ≤ stop) (bounded : ∀ hit ∈ hits, hit.IsBounded text)
    (inside : ∀ hit ∈ hits, start ≤ hit.start ∧ hit.stop ≤ stop)
    (apart : hits.Pairwise (fun hit next => hit.stop ≤ next.start)) :
    markFrom? mark text stop start hits = some (markFrom mark text stop start hits) := by
  induction hits generalizing start with
  | nil => exact slice?_eq first last ordered
  | cons hit rest ih =>
      obtain ⟨low, high⟩ := inside hit (by simp)
      obtain ⟨opens, closes⟩ := bounded hit (by simp)
      have later := ih closes high (fun next member => bounded next (by simp [member]))
        (fun next member => ⟨List.rel_of_pairwise_cons apart member,
          (inside next (by simp [member])).2⟩)
        apart.of_cons
      rw [markFrom?, slice?_eq first opens low, slice?_eq opens closes hit.ordered, later]
      rfl

end Fragment

end FacetSearch
