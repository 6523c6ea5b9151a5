import FacetSearch.Phrase.Spelling
import FacetSearch.Proofs.Phrase.QuotedRun

/-!
Segments that are written one after the other with single blanks between them, and cut apart again.
The quoted runs come back as they were. What stands between two of them comes back as one segment,
also where it was several (`ofPhrase_joined`): a phrase in which a run without contents was dropped
has two such segments side by side.
-/

set_option autoImplicit false

namespace FacetSearch

open Text (isBlank allBlank IsTrimmed)

/-- Text between quoted runs as a phrase keeps it. -/
structure IsLoose (text : List Char) : Prop where
  inhabited : text ≠ []
  unquoted : '"' ∉ text
  trimmed : IsTrimmed text

theorem IsLoose.visible {text : List Char} (loose : IsLoose text) : allBlank text = false := by
  obtain ⟨c, rest, rfl⟩ := List.exists_cons_of_ne_nil loose.inhabited
  simp [allBlank, loose.trimmed.first c rfl]

/-- A quoted run that ends at its own closing quote. -/
def IsClosed (run : List Char) : Prop :=
  ∃ within, run = '"' :: (within ++ ['"']) ∧ QuoteState.after within = .inside

/-- A quoted run without a closing quote. -/
def IsUnclosed (run : List Char) : Prop :=
  ∃ within, run = '"' :: within ∧ QuoteState.after within ≠ .closed

namespace Segment

/-- Segments as they come from a phrase. Only the last one can be a run without a closing quote. -/
def AreCut : List Segment → Prop
  | [] => True
  | plain text :: rest => IsLoose text ∧ AreCut rest
  | quoted run :: rest =>
    (IsClosed run ∨ IsUnclosed run ∧ rest = []) ∧
      allBlank (withoutQuotes run) = false ∧ AreCut rest

theorem ofText?_of_blank {text : List Char} (blank : allBlank text = true) :
    ofText? text = none := by
  rw [ofText?, if_pos blank]

theorem ofText?_of_visible {text : List Char} (visible : allBlank text = false) :
    ofText? text = some (plain (Text.trim text)) := by
  rw [ofText?, if_neg (by simp [visible])]

theorem isLoose_trim {text : List Char}
    (unquoted : '"' ∉ text) (visible : allBlank text = false) : IsLoose (Text.trim text) where
  inhabited := by
    intro empty
    have silent : Text.words text = [] := by
      rw [← Text.words_trim, empty]
      exact Text.runs_nil
    rw [Text.words_eq_nil_iff.mp silent] at visible
    cases visible
  unquoted := by
    intro member
    have sublist : (Text.trim text).Sublist text := by
      obtain ⟨blanks, whole, _⟩ := Text.trimEnd_append_blanks (Text.trimStart text)
      have front := List.sublist_append_left (Text.trim text) blanks
      rw [Text.trim, whole] at front
      exact front.trans (List.dropWhile_sublist isBlank)
    exact unquoted (sublist.subset member)
  trimmed := Text.isTrimmed_trim text

theorem throughQuote_of_within {text : List Char} (within : QuoteState.after text ≠ .closed) :
    throughQuote text = (text, []) := by
  have whole := throughQuote_append text
  rcases throughQuote_cases text with ⟨run, closed, inside⟩ | ⟨_, rest⟩
  · rw [closed, List.append_assoc] at whole
    rw [← whole] at within
    refine absurd ?_ (QuoteState.after_ne_closed_of_append _ (List.append_assoc run _ _ ▸ within))
    rw [QuoteState.after_append_singleton, inside]
    rfl
  · rw [rest, List.append_nil] at whole
    exact Prod.ext whole rest

@[simp] theorem ofPhrase_nil : ofPhrase [] = [] := by rw [ofPhrase]

/-- Text without quotes goes up to the next quoted run. -/
theorem ofPhrase_append {text : List Char} (unquoted : '"' ∉ text) {rest : List Char}
    (ends : ∀ c ∈ rest.head?, c = '"') :
    ofPhrase (text ++ rest) = (ofText? text).toList ++ ofPhrase rest := by
  cases text with
  | nil => rfl
  | cons c text =>
      have plain : ∀ d ∈ text, (d != '"') = true := by
        intro d member
        have different : d ≠ '"' := fun same => unquoted (same ▸ List.mem_cons_of_mem c member)
        simpa using different
      have first : c ≠ '"' := fun same => unquoted (same ▸ List.mem_cons_self)
      have halves : (text ++ rest).takeWhile (· != '"') = text ∧
          (text ++ rest).dropWhile (· != '"') = rest := by
        rw [List.takeWhile_append_of_pos plain, List.dropWhile_append_of_pos plain]
        cases rest with
        | nil => simp
        | cons d more => simp [ends d rfl]
      rw [List.cons_append, ofPhrase, if_neg first, halves.1, halves.2]

theorem ofPhrase_quote (text : List Char) :
    ofPhrase ('"' :: text)
      = (ofRun? ('"' :: (throughQuote text).1)).toList ++ ofPhrase (throughQuote text).2 := by
  rw [ofPhrase, if_pos rfl]

/-- A phrase is cut into segments. -/
theorem areCut_ofPhrase (phrase : List Char) : AreCut (ofPhrase phrase) := by
  fun_induction ofPhrase phrase with
  | case1 => trivial
  | case2 rest parts ih =>
      by_cases blank : allBlank (withoutQuotes ('"' :: parts.1)) = true
      · rw [ofRun?, if_pos blank]
        exact ih
      · rw [ofRun?, if_neg blank]
        refine ⟨?_, by simpa using blank, ih⟩
        rcases throughQuote_cases rest with ⟨run, closed, inside⟩ | ⟨within, last⟩
        · exact .inl ⟨run, congrArg _ closed, inside⟩
        · refine .inr ⟨⟨_, rfl, within⟩, ?_⟩
          rw [show parts.2 = [] from last, ofPhrase_nil]
          rfl
  | case3 c rest unquoted ih =>
      by_cases blank : allBlank (c :: rest.takeWhile (· != '"')) = true
      · rw [ofText?_of_blank blank]
        exact ih
      · have visible := Bool.eq_false_iff.mpr blank
        rw [ofText?_of_visible visible]
        refine ⟨isLoose_trim ?_ visible, ih⟩
        intro member
        rcases List.mem_cons.mp member with same | member
        · exact unquoted same.symm
        · simpa using List.mem_takeWhile_imp member

/-- Segments with a blank before each of them. -/
def spaced (segments : List Segment) : List Char :=
  segments.flatMap fun segment => ' ' :: segment.text

@[simp] theorem spaced_nil : spaced [] = [] := rfl

@[simp] theorem spaced_cons (segment : Segment) (rest : List Segment) :
    spaced (segment :: rest) = ' ' :: (segment.text ++ spaced rest) := rfl

/-- Two texts with a blank between them, or the second one where the first is empty. -/
def glue (front text : List Char) : List Char :=
  if front.isEmpty then text else front ++ ' ' :: text

/-- Segments in which text between quoted runs is one segment. The first of them begins with the
given text. -/
def fuse (before : List Char) : List Segment → List Segment
  | [] => (ofText? before).toList
  | plain text :: rest => fuse (glue before text) rest
  | quoted run :: rest => (ofText? before).toList ++ quoted run :: fuse [] rest

theorem ofText?_cons_blank {c : Char} (blank : isBlank c = true) (text : List Char) :
    ofText? (c :: text) = ofText? text := by
  rw [ofText?, ofText?, Text.allBlank_cons, blank, Bool.true_and, Text.trim_cons_blank blank]

theorem ofText?_append_blank {c : Char} (blank : isBlank c = true) (text : List Char) :
    ofText? (text ++ [c]) = ofText? text := by
  have single : allBlank [c] = true := by rw [Text.allBlank_cons, blank]; rfl
  by_cases silent : allBlank text = true
  · rw [ofText?_of_blank silent,
      ofText?_of_blank (by rw [Text.allBlank_append, silent, single]; rfl)]
  · have visible := Bool.eq_false_iff.mpr silent
    rw [ofText?_of_visible visible, ofText?_of_visible (by rw [Text.allBlank_append, visible]; rfl),
      Text.trim_append_blank blank visible]

theorem ofPhrase_cons_blank {c : Char} (blank : isBlank c = true) (phrase : List Char) :
    ofPhrase (c :: phrase) = ofPhrase phrase := by
  have different : '"' ≠ c := (Text.ne_of_isBlank blank (by decide)).symm
  have unquoted : '"' ∉ phrase.takeWhile (· != '"') := by
    intro member
    simpa using List.mem_takeWhile_imp member
  have ends : ∀ c ∈ (phrase.dropWhile (· != '"')).head?, c = '"' := by
    intro c first
    have stops := List.head?_dropWhile_not (· != '"') phrase
    rw [first] at stops
    simpa using stops
  rw [← List.takeWhile_append_dropWhile (p := (· != '"')) (l := phrase), ← List.cons_append,
    ofPhrase_append (by simp [different, unquoted]) ends, ofPhrase_append unquoted ends,
    ofText?_cons_blank blank]

@[simp] theorem glue_nil (text : List Char) : glue [] text = text := rfl

theorem glue_of_ne_nil {front : List Char} (inhabited : front ≠ []) (text : List Char) :
    glue front text = front ++ ' ' :: text := by
  rw [glue, if_neg (by simpa using inhabited)]

theorem ofPhrase_glue (before text rest : List Char) :
    ofPhrase (before ++ ' ' :: (text ++ rest)) = ofPhrase (glue before text ++ rest) := by
  by_cases empty : before = []
  · rw [empty]
    exact ofPhrase_cons_blank (by decide) _
  · rw [glue_of_ne_nil empty, List.append_assoc, List.cons_append]

theorem unquoted_glue {before text : List Char} (first : '"' ∉ before) (second : '"' ∉ text) :
    '"' ∉ glue before text := by
  by_cases empty : before = []
  · rw [empty]
    exact second
  · simp [glue_of_ne_nil empty, first, second]

/-- A quoted run is cut off where it ends. -/
theorem ofPhrase_run {run rest : List Char} (ends : IsClosed run ∨ IsUnclosed run ∧ rest = [])
    (visible : allBlank (withoutQuotes run) = false) :
    ofPhrase (run ++ rest) = quoted run :: ofPhrase rest := by
  have kept : ofRun? run = some (quoted run) := by rw [ofRun?, if_neg (by simp [visible])]
  rcases ends with ⟨within, rfl, inside⟩ | ⟨⟨within, rfl, unclosed⟩, rfl⟩
  · rw [List.cons_append, List.append_assoc, List.singleton_append, ofPhrase_quote,
      throughQuote_append_quote inside, kept]
    rfl
  · rw [List.append_nil, ofPhrase_quote, throughQuote_of_within unclosed, kept]
    rfl

/-- The segments of a text, and of segments that are written behind it. -/
theorem ofPhrase_spaced {segments : List Segment} (cut : AreCut segments) (before : List Char)
    (unquoted : '"' ∉ before) : ofPhrase (before ++ spaced segments) = fuse before segments := by
  induction segments generalizing before with
  | nil => rw [spaced_nil, ofPhrase_append unquoted (by simp), ofPhrase_nil, List.append_nil, fuse]
  | cons segment rest ih =>
      cases segment with
      | plain text =>
          rw [spaced_cons, Segment.text, ofPhrase_glue,
            ih cut.2 _ (unquoted_glue unquoted cut.1.unquoted), fuse]
      | quoted run =>
          obtain ⟨ends, visible, cut⟩ := cut
          have opens : ∀ c ∈ (run ++ spaced rest).head?, c = '"' := by
            rcases ends with ⟨within, rfl, _⟩ | ⟨⟨within, rfl, _⟩, _⟩ <;> simp
          have last : IsClosed run ∨ IsUnclosed run ∧ spaced rest = [] :=
            ends.imp_right fun ⟨unclosed, final⟩ => ⟨unclosed, by rw [final, spaced_nil]⟩
          have onward := ih cut [] (by simp)
          have apart : '"' ∉ before ++ [' '] := by simpa using unquoted
          rw [List.nil_append] at onward
          rw [spaced_cons, Segment.text, List.append_cons, ofPhrase_append apart opens,
            ofText?_append_blank (by decide), ofPhrase_run last visible, onward, fuse]

/-- Segments with single blanks between them. -/
def joined (segments : List Segment) : List Char := [' '].intercalate (segments.map Segment.text)

theorem spaced_eq_joined {segments : List Segment} (inhabited : segments ≠ []) :
    spaced segments = ' ' :: joined segments := by
  induction segments with
  | nil => exact absurd rfl inhabited
  | cons segment rest ih =>
      cases rest with
      | nil => simp [joined]
      | cons second rest =>
          rw [spaced_cons, ih (List.cons_ne_nil _ _)]
          simp [joined, List.intercalate_cons_cons]

/-- Cutting what was joined gives the segments back, with the text between two quoted runs in
one. -/
theorem ofPhrase_joined {segments : List Segment} (cut : AreCut segments) :
    ofPhrase (joined segments) = fuse [] segments := by
  have whole := ofPhrase_spaced cut [] (by simp)
  rw [← whole, List.nil_append]
  by_cases empty : segments = []
  · rw [empty]
    rfl
  · rw [spaced_eq_joined empty, ofPhrase_cons_blank (by decide)]

theorem filter_isQuoted_ofText? {text : List Char} :
    (ofText? text).toList.filter (·.isQuoted) = [] := by
  unfold ofText?
  split <;> rfl

theorem filter_isQuoted_fuse (before : List Char) (segments : List Segment) :
    (fuse before segments).filter (·.isQuoted) = segments.filter (·.isQuoted) := by
  induction segments generalizing before with
  | nil => exact filter_isQuoted_ofText?
  | cons segment rest ih =>
      cases segment with
      | plain text =>
          rw [fuse, ih]
          rfl
      | quoted run =>
          rw [fuse, List.filter_append, filter_isQuoted_ofText?, List.nil_append,
            List.filter_cons_of_pos rfl, ih, List.filter_cons_of_pos rfl]

/-- The words outside quotes, stretch by stretch: those before the first quoted run, those between
two runs, and those behind the last one. -/
def stretches (segments : List Segment) : List (List (List Char)) :=
  (segments.splitOnP (·.isQuoted)).map Spelling.looseWords

@[simp] theorem stretches_quoted (run : List Char) (rest : List Segment) :
    stretches (quoted run :: rest) = [] :: stretches rest := by
  rw [stretches, List.splitOnP_cons_eq_if_modifyHead, if_pos (by rfl)]
  rfl

@[simp] theorem stretches_plain (text : List Char) (rest : List Segment) :
    stretches (plain text :: rest) = (stretches rest).modifyHead (Text.words text ++ ·) := by
  obtain ⟨first, others, split⟩ := List.exists_cons_of_ne_nil
    (List.splitOnP_ne_nil (fun segment : Segment => segment.isQuoted) rest)
  rw [stretches, stretches, List.splitOnP_cons_eq_if_modifyHead, if_neg (by simp [isQuoted]), split]
  rfl

theorem stretches_ne_nil (segments : List Segment) : stretches segments ≠ [] := by
  simp [stretches, List.splitOnP_ne_nil]

theorem looseWords_eq_flatten (segments : List Segment) :
    Spelling.looseWords segments = (stretches segments).flatten := by
  induction segments with
  | nil => rfl
  | cons segment rest ih =>
      cases segment with
      | plain text =>
          obtain ⟨first, others, split⟩ := List.exists_cons_of_ne_nil (stretches_ne_nil rest)
          have loose : Spelling.looseWords (plain text :: rest)
              = Text.words text ++ Spelling.looseWords rest := rfl
          rw [loose, ih, stretches_plain, split]
          simp
      | quoted run =>
          rw [stretches_quoted, List.flatten_cons, List.nil_append, ← ih]
          rfl

theorem stretches_ofText? (text : List Char) (rest : List Segment) :
    stretches ((ofText? text).toList ++ rest)
      = (stretches rest).modifyHead (Text.words text ++ ·) := by
  by_cases blank : allBlank text = true
  · have silent : Text.words text = [] := Text.words_eq_nil_iff.mpr blank
    obtain ⟨first, others, split⟩ := List.exists_cons_of_ne_nil (stretches_ne_nil rest)
    rw [ofText?_of_blank blank, silent, Option.toList_none, List.nil_append, split]
    rfl
  · rw [ofText?_of_visible (Bool.eq_false_iff.mpr blank), Option.toList_some,
      List.singleton_append, stretches_plain, Text.words_trim]

theorem words_glue (before text : List Char) :
    Text.words (glue before text) = Text.words before ++ Text.words text := by
  by_cases empty : before = []
  · rw [empty]
    exact (congrArg (· ++ _) Text.runs_nil).symm
  · rw [glue_of_ne_nil empty, Text.words_append_blank (by decide)]

theorem stretches_fuse (before : List Char) (segments : List Segment) :
    stretches (fuse before segments)
      = (stretches segments).modifyHead (Text.words before ++ ·) := by
  induction segments generalizing before with
  | nil =>
      have alone := stretches_ofText? before []
      rw [List.append_nil] at alone
      exact alone
  | cons segment rest ih =>
      obtain ⟨first, others, split⟩ := List.exists_cons_of_ne_nil (stretches_ne_nil rest)
      cases segment with
      | plain text =>
          rw [fuse, ih, stretches_plain, split, words_glue]
          simp
      | quoted run =>
          rw [fuse, stretches_ofText?, stretches_quoted, stretches_quoted, ih, split]
          simp [Text.words]

/-- The words outside quotes are the same, and they stand between the same quoted runs. -/
theorem stretches_fuse_nil (segments : List Segment) :
    stretches (fuse [] segments) = stretches segments := by
  obtain ⟨first, others, split⟩ := List.exists_cons_of_ne_nil (stretches_ne_nil segments)
  rw [stretches_fuse, split]
  simp [Text.words]

theorem ofText?_of_isLoose {text : List Char} (loose : IsLoose text) :
    ofText? text = some (plain text) := by
  rw [ofText?_of_visible loose.visible, loose.trimmed.trim_eq]

theorem isLoose_glue {before text : List Char} (first : before = [] ∨ IsLoose before)
    (second : IsLoose text) : IsLoose (glue before text) := by
  rcases first with rfl | loose
  · exact second
  · have inhabited := loose.inhabited
    have glued := glue_of_ne_nil inhabited text
    refine ⟨by simp [glued], unquoted_glue loose.unquoted second.unquoted, ⟨?_, ?_⟩⟩
    · obtain ⟨c, rest, rfl⟩ := List.exists_cons_of_ne_nil inhabited
      rw [glued]
      exact loose.trimmed.first
    · obtain ⟨c, rest, rfl⟩ := List.exists_cons_of_ne_nil second.inhabited
      rw [glued, List.getLast?_append, List.getLast?_cons_cons]
      have last := second.trimmed.last
      intro d found
      apply last d
      rw [List.getLast?_cons] at found ⊢
      exact found

/-- Fused segments are written as the segments before were. -/
theorem spaced_fuse {segments : List Segment} (cut : AreCut segments) (before : List Char)
    (loose : before = [] ∨ IsLoose before) :
    spaced (fuse before segments) = spaced (ofText? before).toList ++ spaced segments := by
  induction segments generalizing before with
  | nil => rw [fuse, spaced_nil, List.append_nil]
  | cons segment rest ih =>
      cases segment with
      | plain text =>
          have glued := isLoose_glue loose cut.1
          rw [fuse, ih cut.2 _ (.inr glued), ofText?_of_isLoose glued]
          rcases loose with rfl | loose
          · rw [ofText?_of_blank rfl]
            simp [Segment.text]
          · rw [ofText?_of_isLoose loose, glue_of_ne_nil loose.inhabited]
            simp [Segment.text]
      | quoted run =>
          have onward := ih cut.2.2 [] (.inl rfl)
          rw [ofText?_of_blank rfl] at onward
          rw [fuse, spaced, List.flatMap_append, List.flatMap_cons]
          change spaced _ ++ (_ ++ spaced _) = _
          rw [onward]
          rfl

theorem joined_fuse {segments : List Segment} (cut : AreCut segments) :
    joined (fuse [] segments) = joined segments := by
  have same := spaced_fuse cut [] (.inl rfl)
  rw [ofText?_of_blank rfl, Option.toList_none, spaced_nil, List.nil_append] at same
  have nothing : ∀ segments, spaced segments = [] ↔ segments = [] := by
    intro segments
    cases segments <;> simp
  by_cases empty : segments = []
  · rw [empty] at same ⊢
    rw [(nothing _).mp same]
  · have left := spaced_eq_joined empty
    have inhabited : fuse [] segments ≠ [] := by
      intro none
      rw [none] at same
      exact empty ((nothing _).mp same.symm)
    rw [spaced_eq_joined inhabited, spaced_eq_joined empty] at same
    exact (List.cons.inj same).2

end Segment

end FacetSearch
