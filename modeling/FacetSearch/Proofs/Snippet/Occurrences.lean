import FacetSearch.Proofs.Snippet.Selection

/-!
Where search terms occur. A term occurs where its words stand in a text one after another, in lower
case; if the term ends in a star, the last of them may go on (`Term.OccursAt`). Looking for a term
finds all its occurrences (`Term.occursAt_iff`), and of all occurrences of all terms the earliest
are chosen: what is left out overlaps an earlier one that is chosen. Neither the order of the terms
nor their repetition makes a difference (`Span.ofTerms_spec`).
-/

set_option autoImplicit false

namespace FacetSearch

open Text

/-- A span goes from the start of a word to the end of one. -/
structure Span.CoversWords (text : List Char) (span : Span) : Prop where
  opens : ∃ word, IsRun isAlphanumeric text span.start word
  closes : ∃ start word, IsRun isAlphanumeric text start word ∧
    start + byteLength word = span.stop

namespace Term

/-- Words that a term fits: the same words in the same order, where the last one may go on behind
the term's last word if the term ends in a star. -/
inductive Fits (starred : Prop) : List (List Char) → List (List Char) → Prop
  | last {wanted found : List Char} (same : found = wanted ∨ starred ∧ wanted <+: found) :
      Fits starred [wanted] [found]
  | next {word : List Char} {wanted found : List (List Char)} (more : Fits starred wanted found) :
      Fits starred (word :: wanted) (word :: found)

/-- A term that ends in a star. Behind the star quotes may close, and blanks may follow. -/
def IsStarred (term : List Char) : Prop :=
  ∃ front quotes blanks, term = front ++ '*' :: (quotes ++ blanks) ∧
    (∀ c ∈ quotes, c = '"') ∧ ∀ c ∈ blanks, isBlank c = true

/-- A term occurs at a span of a text that covers words which the term fits in lower case. -/
structure OccursAt (text : List Char) (term : String) (span : Span) : Prop where
  covers : span.CoversWords text
  fits : ∃ wanted found, ReadsAs isAlphanumeric term.toList wanted ∧
    ReadsAs isAlphanumeric (span.covered text) found ∧
    Fits (IsStarred term.toList) (wanted.map lowerCase) (found.map lowerCase)

variable {term : Term} {openEnded : Bool} {wanted : List (List Char)} {words : List PlacedWord}
  {span : Span} {stop : Nat}

theorem Fits.ne_nil {starred : Prop} {wanted found : List (List Char)}
    (fits : Fits starred wanted found) : wanted ≠ [] ∧ found ≠ [] := by
  cases fits <;> exact ⟨List.cons_ne_nil _ _, List.cons_ne_nil _ _⟩

theorem matchesLast_iff {word : List Char} {found : PlacedWord} :
    matchesLast openEnded word found = true ↔
    found.lower = word ∨ openEnded = true ∧ word <+: found.lower := by
  cases openEnded with
  | false =>
      simp only [matchesLast, Bool.false_eq_true, if_false, beq_iff_eq, false_and, or_false]
      exact eq_comm
  | true =>
      simp only [matchesLast, if_true, List.isPrefixOf_iff_prefix, true_and]
      exact ⟨.inr, fun found => found.elim (fun same => same ▸ List.prefix_rfl) id⟩

/-- The words that a term matches from a place on, with the last of them. -/
theorem exists_fits_of_stop? (found : stop? openEnded wanted words = some stop) :
    ∃ front last behind, words = front ++ last :: behind ∧
      Fits (openEnded = true) wanted ((front ++ [last]).map (·.lower)) ∧
      last.span.stop = stop := by
  fun_induction stop? openEnded wanted words with
  | case1 | case2 | case4 | case6 => cases found
  | case3 word first rest matched =>
      exact ⟨[], first, rest, rfl, .last (matchesLast_iff.mp matched), by simpa using found⟩
  | case5 others first rest more ih =>
      obtain ⟨front, last, behind, rfl, fits, same⟩ := ih found
      exact ⟨first :: front, last, behind, rfl, .next fits, same⟩

theorem stop?_of_fits {front behind : List PlacedWord} {last : PlacedWord}
    (fits : Fits (openEnded = true) wanted ((front ++ [last]).map (·.lower))) :
    stop? openEnded wanted (front ++ last :: behind) = some last.span.stop := by
  induction front generalizing wanted with
  | nil =>
      cases fits with
      | last same =>
          rw [List.nil_append, stop?, if_pos (matchesLast_iff.mpr same)]
      | next more => exact absurd rfl more.ne_nil.2
  | cons first front ih =>
      rw [List.cons_append, List.map_cons] at fits
      -- The found words are not empty behind the first one, so only `next` can have been used.
      generalize others : (front ++ [last]).map (·.lower) = lowers at fits
      cases fits with
      | last => simp at others
      | next more =>
          subst others
          obtain ⟨word, others, rfl⟩ := List.exists_cons_of_ne_nil more.ne_nil.1
          rw [List.cons_append, stop?, if_pos rfl, ih more]
          simp

/-- The places where a term is looked for are all places of the list of words. -/
theorem mem_occurrences_iff_stop? : span ∈ term.occurrences words ↔ ∃ before first rest stop,
    words = before ++ first :: rest ∧
    stop? term.openEnded term.words (first :: rest) = some stop ∧
      span = .between first.span.start stop := by
  induction words with
  | nil => simp [occurrences]
  | cons word rest ih =>
      rw [occurrences, List.mem_append, ih, Option.mem_toList, Option.map_eq_some_iff]
      constructor
      · rintro (⟨stop, found, rfl⟩ | ⟨before, first, behind, stop, rfl, found, rfl⟩)
        · exact ⟨[], word, rest, stop, rfl, found, rfl⟩
        · exact ⟨word :: before, first, behind, stop, rfl, found, rfl⟩
      · rintro ⟨before, first, behind, stop, whole, found, rfl⟩
        cases before with
        | nil =>
            obtain ⟨rfl, rfl⟩ := List.cons.inj whole
            exact .inl ⟨stop, found, rfl⟩
        | cons other before =>
            obtain ⟨rfl, rfl⟩ := List.cons.inj whole
            exact .inr ⟨before, first, behind, stop, rfl, found, rfl⟩

end Term

/-- Where a run ends. -/
def Text.runStop (run : Nat × List Char) : Nat := run.1 + byteLength run.2

theorem Text.start_le_runStop (run : Nat × List Char) : run.1 ≤ runStop run :=
  Nat.le_add_right _ _

section Following

variable {runs : List (Nat × List Char)} {run first last : Nat × List Char}
  (follow : runs.Pairwise (fun run next => run.1 + byteLength run.2 ≤ next.1))

include follow

/-- A list of runs begins with the one that begins first. -/
theorem Text.head?_of_first (member : run ∈ runs)
    (first : ∀ other ∈ runs, run.1 ≤ other.1 ∧ 0 < byteLength other.2) :
    runs.head? = some run := by
  obtain ⟨head, rest, rfl⟩ := List.exists_cons_of_ne_nil (List.ne_nil_of_mem member)
  rcases List.mem_cons.mp member with rfl | later
  · rfl
  · have bounds := first head List.mem_cons_self
    have behind := List.rel_of_pairwise_cons follow later
    omega

/-- A list of runs ends with the one that ends last. -/
theorem Text.getLast?_of_last (member : run ∈ runs)
    (last : ∀ other ∈ runs, other.1 < run.1 + byteLength run.2) : runs.getLast? = some run := by
  obtain ⟨front, final, rfl⟩ :=
    (List.eq_nil_or_concat runs).resolve_left (List.ne_nil_of_mem member)
  rw [List.concat_eq_append] at *
  rcases List.mem_append.mp member with earlier | same
  · have bound := last final (by simp)
    have behind := (List.pairwise_append.mp follow).2.2 run earlier final (by simp)
    omega
  · rw [List.mem_singleton.mp same, List.getLast?_concat]

/-- The first run of a list begins before the last one ends. -/
theorem Text.start_le_of_last (opens : runs.head? = some first)
    (closes : runs.getLast? = some last) : first.1 ≤ runStop last := by
  obtain ⟨rest, rfl⟩ := List.head?_eq_some_iff.mp opens
  rcases List.mem_cons.mp (List.mem_of_getLast? closes) with rfl | later
  · exact start_le_runStop _
  · have behind := List.rel_of_pairwise_cons follow later
    exact (Nat.le_of_add_right_le behind).trans (start_le_runStop last)

end Following

namespace Span

variable {text : List Char} {span : Span} {before middle behind : List (Nat × List Char)}

theorem CoversWords.lt (covers : span.CoversWords text) : span.start < span.stop := by
  obtain ⟨word, opens⟩ := covers.opens
  obtain ⟨start, final, closes, stop⟩ := covers.closes
  refine Nat.lt_of_le_of_ne span.ordered fun same => opens.not_noneStands ?_
  rw [same, ← stop]
  exact closes.closes

/-- Runs one after another, of which the first one begins with a span and the last one ends with
it. -/
structure Frames (span : Span) (runs : List (Nat × List Char)) : Prop where
  head : ∃ word, runs.head? = some (span.start, word)
  last : ∃ start word, runs.getLast? = some (start, word) ∧ start + byteLength word = span.stop

/-- Runs one after another frame the span from the start of the first one to the end of the last
one. -/
theorem frames_between {first last : Nat × List Char}
    (follow : middle.Pairwise (fun run next => run.1 + byteLength run.2 ≤ next.1))
    (opens : middle.head? = some first) (closes : middle.getLast? = some last) :
    (between first.1 (runStop last)).Frames middle := by
  have ordered : first.1 ≤ runStop last := start_le_of_last follow opens closes
  have start : (between first.1 (runStop last)).start = first.1 := Nat.min_eq_left ordered
  have stop : (between first.1 (runStop last)).stop = runStop last := Nat.max_eq_right ordered
  exact ⟨⟨first.2, by rw [opens, start]⟩, last.1, last.2, closes, stop.symm⟩

/-- The runs of a text in a span that covers words frame it. -/
theorem CoversWords.exists_runs (covers : span.CoversWords text) :
    ∃ before middle behind, runsAt isAlphanumeric 0 text = before ++ middle ++ behind ∧
      span.Frames middle ∧ middle.map Prod.snd = runs isAlphanumeric (span.covered text) := by
  have inhabited := covers.lt
  obtain ⟨word, opens⟩ := covers.opens
  obtain ⟨start, final, closes, stop⟩ := covers.closes
  have boundary := closes.isBoundary_stop
  have ends := closes.closes
  rw [stop] at boundary ends
  obtain ⟨before, behind, whole, surround⟩ :=
    exists_runsAt_slice opens.isBoundary_start boundary inhabited.le opens.opens ends
  have opening : (span.start, word) ∈ runsAt isAlphanumeric 0 text := mem_runsAt_iff.mpr opens
  have closing : (start, final) ∈ runsAt isAlphanumeric 0 text := mem_runsAt_iff.mpr closes
  have follow := @pairwise_runsAt isAlphanumeric 0 text
  have bytes := byteLength_pos closes.inhabited
  -- The run at the start of the span and the one at its end are neither in front of it nor behind
  -- it.
  rw [whole, List.append_assoc] at opening closing follow
  have firstInside : (span.start, word)
      ∈ runsAt isAlphanumeric span.start (span.covered text) := by
    rcases List.mem_append.mp opening with early | rest
    · exact absurd (surround.before _ early) (Nat.lt_irrefl _)
    · rcases List.mem_append.mp rest with inside | late
      · exact inside
      · exact absurd (surround.behind _ late) (Nat.not_le.mpr inhabited)
  have lastInside : (start, final) ∈ runsAt isAlphanumeric span.start (span.covered text) := by
    rcases List.mem_append.mp closing with early | rest
    · have order :=
        (List.pairwise_append.mp follow).2.2 _ early _ (List.mem_append_left _ firstInside)
      simp only at order
      omega
    · rcases List.mem_append.mp rest with inside | late
      · exact inside
      · have bound := surround.behind _ late
        simp only at bound
        omega
  have inner := @pairwise_runsAt isAlphanumeric span.start (span.covered text)
  refine ⟨before, _, behind, whole, ⟨⟨word, ?_⟩, start, final, ?_, stop⟩,
    map_snd_runsAt _ _⟩
  · refine head?_of_first inner firstInside fun run member => ?_
    exact ⟨(surround.inside run member).1, (bounds_of_mem_runsAt member).2.1⟩
  · refine getLast?_of_last inner lastInside fun run member => ?_
    rw [stop]
    exact (surround.inside run member).2

/-- The runs of a text that frame a span are those that begin in it. -/
theorem Frames.surround (frames : span.Frames middle)
    (whole : runsAt isAlphanumeric 0 text = before ++ middle ++ behind) :
    Surround span.start span.stop before middle behind := by
  obtain ⟨word, first⟩ := frames.head
  obtain ⟨start, final, last, stop⟩ := frames.last
  have follow := @pairwise_runsAt isAlphanumeric 0 text
  have bytes : ∀ run ∈ before ++ middle ++ behind, 0 < byteLength run.2 := by
    intro run member
    rw [← whole] at member
    exact (bounds_of_mem_runsAt member).2.1
  rw [whole] at follow
  obtain ⟨fronts, -, behindAll⟩ := List.pairwise_append.mp follow
  obtain ⟨-, inner, beforeAll⟩ := List.pairwise_append.mp fronts
  refine ⟨fun run early => ?_, fun run inside => ⟨?_, ?_⟩, fun run late => ?_⟩
  · have order := beforeAll run early _ (List.mem_of_head? first)
    have size := bytes run (by simp [early])
    simp only at order
    omega
  · obtain ⟨rest, rfl⟩ := List.head?_eq_some_iff.mp first
    rcases List.mem_cons.mp inside with rfl | later
    · exact le_rfl
    · have order := List.rel_of_pairwise_cons inner later
      simp only at order
      omega
  · have size := bytes run (by simp [inside])
    obtain ⟨front, rfl⟩ := List.getLast?_eq_some_iff.mp last
    rcases List.mem_append.mp inside with earlier | same
    · have order := (List.pairwise_append.mp inner).2.2 run earlier (start, final) (by simp)
      simp only at order
      omega
    · rw [List.mem_singleton.mp same] at size ⊢
      simp only at size ⊢
      omega
  · have order := behindAll _ (List.mem_append_right _ (List.mem_of_getLast? last)) run late
    simp only at order
    omega

/-- A span that runs of a text frame covers words, and these runs are its words. -/
theorem Frames.coversWords (frames : span.Frames middle)
    (whole : runsAt isAlphanumeric 0 text = before ++ middle ++ behind) :
    span.CoversWords text ∧ middle.map Prod.snd = runs isAlphanumeric (span.covered text) := by
  have member : ∀ run ∈ middle, IsRun isAlphanumeric text run.1 run.2 := by
    intro run inside
    refine mem_runsAt_iff.mp ?_
    rw [whole]
    exact List.mem_append_left _ (List.mem_append_right _ inside)
  obtain ⟨word, first⟩ := frames.head
  obtain ⟨start, final, last, stop⟩ := frames.last
  have covers : span.CoversWords text :=
    ⟨⟨word, member _ (List.mem_of_head? first)⟩, start, final,
      member _ (List.mem_of_getLast? last), stop⟩
  obtain ⟨front, inner, back, also, framed, same⟩ := covers.exists_runs
  have middles : middle = inner := by
    rw [← (frames.surround whole).filter_eq, ← whole, also, (framed.surround also).filter_eq]
  exact ⟨covers, by rw [middles, same]⟩

end Span

/-- The word of a text that a run is. -/
def PlacedWord.ofRun (run : Nat × List Char) : PlacedWord :=
  ⟨⟨run.1, runStop run, start_le_runStop run⟩, lowerCase run.2⟩

theorem PlacedWord.ofText_eq (text : List Char) :
    ofText text = (runsAt isAlphanumeric 0 text).map ofRun := rfl

theorem PlacedWord.map_lower_ofRun (runs : List (Nat × List Char)) :
    (runs.map ofRun).map (·.lower) = (runs.map Prod.snd).map lowerCase := by
  rw [List.map_map, List.map_map]
  rfl

namespace Term

variable {term : Term} {text : List Char} {span : Span}

theorem trimStart_append (front : List Char) {c : Char} (visible : isBlank c = false)
    (rest : List Char) : ∃ kept, trimStart (front ++ c :: rest) = kept ++ c :: rest := by
  rw [trimStart, List.dropWhile_append]
  split
  · exact ⟨[], by rw [List.dropWhile_cons_of_neg (by simp [visible]), List.nil_append]⟩
  · exact ⟨_, rfl⟩

/-- The star is looked for behind the blanks and the quotes at the end of a term. -/
theorem isStarred_iff (term : List Char) :
    ((trim term).reverse.dropWhile (· == '"')).head? = some '*' ↔ IsStarred term := by
  constructor
  · intro star
    obtain ⟨rest, split⟩ := List.head?_eq_some_iff.mp star
    obtain ⟨blanks, whole, blank⟩ := trimEnd_append_blanks (trimStart term)
    have trimmed : trim term = rest.reverse ++ '*' ::
        ((trim term).reverse.takeWhile (· == '"')).reverse := by
      have parts := List.takeWhile_append_dropWhile (p := (· == '"')) (l := (trim term).reverse)
      rw [split] at parts
      have back := congrArg List.reverse parts.symm
      rwa [List.reverse_reverse, List.reverse_append, List.reverse_cons,
        ← List.append_cons] at back
    refine ⟨term.takeWhile isBlank ++ rest.reverse,
      ((trim term).reverse.takeWhile (· == '"')).reverse, blanks, ?_, ?_, ?_⟩
    · calc term = term.takeWhile isBlank ++ (trim term ++ blanks) := by
            rw [trim, whole, trimStart, List.takeWhile_append_dropWhile]
        _ = term.takeWhile isBlank ++ (rest.reverse ++
              '*' :: ((trim term).reverse.takeWhile (· == '"')).reverse ++ blanks) := by
                rw [← trimmed]
        _ = _ := by simp
    · intro c member
      simpa using List.mem_takeWhile_imp (List.mem_reverse.mp member)
    · simpa [allBlank] using blank
  · rintro ⟨front, quotes, blanks, rfl, quoted, blank⟩
    obtain ⟨kept, opened⟩ := trimStart_append front (c := '*') rfl (quotes ++ blanks)
    have last : ∀ c ∈ (quotes.reverse ++ '*' :: kept.reverse).head?, isBlank c = false := by
      intro c first
      rw [Option.mem_def, List.head?_append] at first
      cases quote : quotes.reverse.head? with
      | none =>
          obtain rfl : '*' = c := by simpa [quote] using first
          rfl
      | some d =>
          obtain rfl : d = c := by simpa [quote] using first
          rw [quoted d (List.mem_reverse.mp (List.mem_of_head? quote))]
          rfl
    have reversed : (trim (front ++ '*' :: (quotes ++ blanks))).reverse
        = quotes.reverse ++ '*' :: kept.reverse := by
      rw [trim, opened, trimEnd, List.reverse_reverse, List.reverse_append, List.reverse_cons,
        List.reverse_append, List.append_assoc, List.append_assoc,
        List.dropWhile_append_of_pos (by simpa using blank), List.singleton_append,
        dropWhile_eq_self last]
    rw [reversed, List.dropWhile_append_of_pos (by simpa using quoted),
      List.dropWhile_cons_of_neg (by decide), List.head?_cons]

/-- The words that are read from a term, and whether it is starred. -/
theorem ofText?_eq_some_iff {term : String} {read : Term} : ofText? term = some read ↔
    ∃ wanted, wanted ≠ [] ∧ ReadsAs isAlphanumeric term.toList wanted ∧
      read.words = wanted.map lowerCase ∧ (read.openEnded = true ↔ IsStarred term.toList) := by
  simp only [readsAs_iff, ← isStarred_iff]
  rw [ofText?]
  split
  next none =>
    refine ⟨by rintro ⟨⟩, ?_⟩
    rintro ⟨wanted, inhabited, rfl, -⟩
    exact absurd none inhabited
  next inhabited =>
    constructor
    · rintro ⟨⟩
      exact ⟨_, inhabited, rfl, rfl, beq_iff_eq⟩
    · rintro ⟨wanted, -, rfl, words, star⟩
      obtain ⟨asked, openEnded⟩ := read
      have ended := star.trans beq_iff_eq.symm
      rw [Bool.coe_iff_coe] at ended
      rw [Option.some.injEq, Term.mk.injEq]
      exact ⟨words.symm, ended.symm⟩

/-- A read term is found where runs of the text frame a span and the term fits their words. -/
theorem mem_occurrences_iff : span ∈ term.occurrences (PlacedWord.ofText text) ↔
    ∃ before middle behind, runsAt isAlphanumeric 0 text = before ++ middle ++ behind ∧
      span.Frames middle ∧
      Fits (term.openEnded = true) term.words ((middle.map Prod.snd).map lowerCase) := by
  rw [mem_occurrences_iff_stop?, PlacedWord.ofText_eq]
  constructor
  · rintro ⟨before, first, rest, stop, whole, found, rfl⟩
    obtain ⟨front, last, behind, split, fits, rfl⟩ := exists_fits_of_stop? found
    rw [List.append_cons] at split
    rw [split, ← List.append_assoc] at whole
    obtain ⟨fronts, behinds, parts, fore, rfl⟩ := List.map_eq_append_iff.mp whole
    obtain ⟨befores, middle, rfl, rfl, same⟩ := List.map_eq_append_iff.mp fore
    have heads : (middle.map PlacedWord.ofRun).head? = some first := by
      rw [same, ← List.head?_append_of_ne_nil _ (by simp), ← split, List.head?_cons]
    have lasts : (middle.map PlacedWord.ofRun).getLast? = some last := by
      rw [same, List.getLast?_concat]
    rw [List.head?_map, Option.map_eq_some_iff] at heads
    rw [List.getLast?_map, Option.map_eq_some_iff] at lasts
    obtain ⟨run, opens, rfl⟩ := heads
    obtain ⟨final, closes, rfl⟩ := lasts
    have follow := @pairwise_runsAt isAlphanumeric 0 text
    rw [parts] at follow
    have inner := (List.pairwise_append.mp (List.pairwise_append.mp follow).1).2.1
    refine ⟨befores, middle, behinds, parts, Span.frames_between inner opens closes, ?_⟩
    rwa [← PlacedWord.map_lower_ofRun, same]
  · rintro ⟨before, middle, behind, whole, frames, fits⟩
    obtain ⟨word, first⟩ := frames.head
    obtain ⟨start, final, last, stop⟩ := frames.last
    obtain ⟨rest, rfl⟩ := List.head?_eq_some_iff.mp first
    obtain ⟨front, same⟩ := List.getLast?_eq_some_iff.mp last
    refine ⟨before.map .ofRun, .ofRun (span.start, word), (rest ++ behind).map .ofRun,
      span.stop, ?_, ?_, ?_⟩
    · rw [whole]
      simp
    · rw [← List.map_cons, ← List.cons_append, same, List.append_assoc, List.map_append,
        List.singleton_append, List.map_cons, ← stop]
      refine stop?_of_fits ?_
      rwa [same, ← PlacedWord.map_lower_ofRun, List.map_append, List.map_singleton] at fits
    · exact Span.eq_of_edges (Nat.min_eq_left span.ordered).symm
        (Nat.max_eq_right span.ordered).symm

/-- The occurrences of a term are what is found when the term is read and looked for. -/
theorem occursAt_iff {term : String} : OccursAt text term span ↔
    ∃ read, ofText? term = some read ∧ span ∈ read.occurrences (PlacedWord.ofText text) := by
  constructor
  · rintro ⟨covers, wanted, found, asked, reads, fits⟩
    classical
    obtain ⟨before, middle, behind, whole, frames, words⟩ := covers.exists_runs
    have inhabited : wanted ≠ [] := fun none => fits.ne_nil.1 (by rw [none, List.map_nil])
    refine ⟨⟨wanted.map lowerCase, decide (IsStarred term.toList)⟩, ?_, ?_⟩
    · exact ofText?_eq_some_iff.mpr ⟨wanted, inhabited, asked, rfl, decide_eq_true_iff⟩
    · refine mem_occurrences_iff.mpr ⟨before, middle, behind, whole, frames, ?_⟩
      rw [words, readsAs_iff.mp reads, decide_eq_true_eq]
      exact fits
  · rintro ⟨read, reads, member⟩
    obtain ⟨wanted, -, asked, same, star⟩ := ofText?_eq_some_iff.mp reads
    obtain ⟨before, middle, behind, whole, frames, fits⟩ := mem_occurrences_iff.mp member
    obtain ⟨covers, words⟩ := frames.coversWords whole
    rw [same, words, star] at fits
    exact ⟨covers, wanted, _, asked, readsAs_iff.mpr rfl, fits⟩

end Term

namespace Span

variable {text : List Char} {terms : List String}

/-- The matches of terms are chosen among their occurrences. -/
theorem isSelection_ofTerms (text : List Char) (terms : List String) :
    IsSelection (fun span => ∃ term ∈ terms, Term.OccursAt text term span)
      (ofTerms text terms) := by
  have found : ∀ span, span ∈ (terms.filterMap Term.ofText?).flatMap
      (·.occurrences (PlacedWord.ofText text))
      ↔ ∃ term ∈ terms, Term.OccursAt text term span := by
    intro span
    simp only [List.mem_flatMap, List.mem_filterMap, Term.occursAt_iff]
    constructor
    · rintro ⟨read, ⟨term, member, reads⟩, occurs⟩
      exact ⟨term, member, read, reads, occurs⟩
    · rintro ⟨term, member, read, reads, occurs⟩
      exact ⟨read, ⟨term, member, reads⟩, occurs⟩
  rw [← funext fun span => propext (found span)]
  refine isSelection_separate fun span member => ?_
  obtain ⟨term, -, occurs⟩ := (found span).mp member
  exact occurs.covers.lt

/-- A word does not begin where another one ends. -/
theorem CoversWords.stop_ne_start {span next : Span} (covers : span.CoversWords text)
    (behind : next.CoversWords text) : span.stop ≠ next.start := by
  intro meet
  obtain ⟨start, final, closes, stop⟩ := covers.closes
  obtain ⟨word, opens⟩ := behind.opens
  refine opens.not_noneStands ?_
  rw [← meet, ← stop]
  exact closes.closes

/-- The matches of terms in a text are occurrences of them, sorted and apart. Every occurrence of a
term overlaps one of them that does not begin after it. Which terms there are decides the matches,
whatever their order and however often each of them is given. -/
theorem ofTerms_spec (text : List Char) (terms : List String) :
    (∀ span ∈ ofTerms text terms, ∃ term ∈ terms, Term.OccursAt text term span) ∧
    (ofTerms text terms).Pairwise (fun span next => span.stop < next.start) ∧
    (∀ term ∈ terms, ∀ span, Term.OccursAt text term span →
      ∃ kept ∈ ofTerms text terms, kept.start ≤ span.start ∧ kept.Overlaps span) ∧
    ∀ others, (∀ term, term ∈ others ↔ term ∈ terms) →
      ofTerms text others = ofTerms text terms := by
  have inhabited : ∀ span, (∃ term ∈ terms, Term.OccursAt text term span) →
      span.start < span.stop := by
    rintro span ⟨term, -, occurs⟩
    exact occurs.covers.lt
  have selection := isSelection_ofTerms text terms
  refine ⟨selection.sound, ?_, ?_, ?_⟩
  · refine selection.apart.imp_of_mem fun here there follows => ?_
    obtain ⟨_, -, first⟩ := selection.sound _ here
    obtain ⟨_, -, second⟩ := selection.sound _ there
    exact Nat.lt_of_le_of_ne follows (first.covers.stop_ne_start second.covers)
  · intro term member span occurs
    obtain ⟨kept, stays, first, overlaps⟩ := selection.complete span ⟨term, member, occurs⟩
    have size := inhabited span ⟨term, member, occurs⟩
    have earlier := precedes_iff.mp first
    exact ⟨kept, stays, by omega, by omega, overlaps⟩
  · intro others same
    have again := isSelection_ofTerms text others
    simp only [same] at again
    exact again.unique inhabited selection

end Span

end FacetSearch
