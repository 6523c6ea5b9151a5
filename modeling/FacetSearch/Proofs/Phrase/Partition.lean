import FacetSearch.Proofs.Phrase.ByteScan
import FacetSearch.Proofs.Phrase.Rejoining

/-!
The segments of a phrase and what lies between them. Nothing of a phrase is lost but blanks, and
runs with nothing but blanks in them; a cut like this is the one that `Segment.ofPhrase` makes
(`Segment.eq_ofPhrase_iff`).
-/

set_option autoImplicit false

namespace FacetSearch

open Text (isBlank allBlank IsTrimmed)

/-- What may lie between segments: blanks, and runs with blank contents. -/
inductive IsGap : List Char → Prop
  | nil : IsGap []
  | blank {c : Char} {rest : List Char} (blank : isBlank c = true) (onward : IsGap rest) :
      IsGap (c :: rest)
  | run {contents rest : List Char} (blank : allBlank contents = true) (onward : IsGap rest) :
    IsGap ('"' :: (contents ++ '"' :: rest))

/-- What may lie behind the last segment: there a run may lack its closing quote. -/
def IsLastGap (gap : List Char) : Prop :=
  IsGap gap ∨ ∃ front contents, gap = front ++ '"' :: contents ∧ IsGap front ∧
    allBlank contents = true

theorem IsGap.append {front back : List Char} (first : IsGap front) (second : IsGap back) :
    IsGap (front ++ back) := by
  induction first with
  | nil => exact second
  | blank blank _ ih => exact .blank blank ih
  | @run contents rest blank _ ih =>
      rw [List.cons_append, List.append_assoc, List.cons_append]
      exact .run blank ih

theorem IsGap.appendLast {front back : List Char} (first : IsGap front) (second : IsLastGap back) :
    IsLastGap (front ++ back) := by
  rcases second with gap | ⟨inner, contents, rfl, gap, blank⟩
  · exact .inl (first.append gap)
  · exact .inr ⟨front ++ inner, contents, by rw [List.append_assoc], first.append gap, blank⟩

theorem IsGap.of_allBlank {gap : List Char} (blank : allBlank gap = true) : IsGap gap := by
  induction gap with
  | nil => exact .nil
  | cons c rest ih =>
      rw [Text.allBlank_cons, Bool.and_eq_true] at blank
      exact .blank blank.1 (ih blank.2)

/-- Blanks leave a reader inside the quotes. -/
theorem QuoteState.after_of_allBlank {text : List Char} (blank : allBlank text = true) :
    QuoteState.after text = .inside := by
  induction text with
  | nil => rfl
  | cons c rest ih =>
      rw [Text.allBlank_cons, Bool.and_eq_true] at blank
      rw [QuoteState.after_plain_cons (Text.ne_of_isBlank blank.1 (by decide))
        (Text.ne_of_isBlank blank.1 (by decide)), ih blank.2]

/-- A text lies between blanks that trimming takes away. -/
theorem Text.exists_trim (text : List Char) :
    ∃ front back, text = front ++ (trim text ++ back) ∧ allBlank front = true ∧
      allBlank back = true := by
  obtain ⟨back, whole, last⟩ := trimEnd_append_blanks (trimStart text)
  refine ⟨text.takeWhile isBlank, back, ?_, List.all_takeWhile, last⟩
  rw [trim, whole, trimStart, List.takeWhile_append_dropWhile]

namespace Segment

/-- Segments, each with the gap behind it, and the gap before the first of them. A run without a
closing quote goes up to the end, and text next to text is kept apart by a run that was dropped. -/
inductive Partition : (gap : List Char) → (parts : List (Segment × List Char)) → Prop
  | last {gap : List Char} (blank : IsLastGap gap) : Partition gap []
  | plain {gap text next : List Char} {parts : List (Segment × List Char)} (blank : IsGap gap)
    (loose : IsLoose text) (apart : ∀ other behind rest, parts = (plain other, behind) :: rest →
      '"' ∈ next)
    (onward : Partition next parts) : Partition gap ((plain text, next) :: parts)
  | quoted {gap run next : List Char} {parts : List (Segment × List Char)} (blank : IsGap gap)
    (ends : IsClosed run ∨ IsUnclosed run ∧ next = [] ∧ parts = [])
    (visible : allBlank (withoutQuotes run) = false) (onward : Partition next parts) :
    Partition gap ((quoted run, next) :: parts)

/-- Segments and the gaps behind them as they are written. -/
def written (parts : List (Segment × List Char)) : List Char :=
  parts.flatMap fun part => part.1.text ++ part.2

@[simp] theorem written_nil : written [] = [] := rfl

@[simp] theorem written_cons (segment : Segment) (gap : List Char)
    (parts : List (Segment × List Char)) :
    written ((segment, gap) :: parts) = segment.text ++ (gap ++ written parts) := by
  rw [written, List.flatMap_cons, List.append_assoc]
  rfl

/-- A longer gap in front of the same segments. -/
theorem Partition.widen {front gap : List Char} {parts : List (Segment × List Char)}
    (blank : IsGap front) (partition : Partition gap parts) : Partition (front ++ gap) parts := by
  cases partition with
  | last gap => exact .last (blank.appendLast gap)
  | plain gap loose apart onward => exact .plain (blank.append gap) loose apart onward
  | quoted gap ends visible onward => exact .quoted (blank.append gap) ends visible onward

/-- Where a phrase goes on with a quote, no text comes first unless a run was dropped before it. -/
theorem Partition.mem_gap_of_quote {gap text behind : List Char}
    {others : List (Segment × List Char)}
    (partition : Partition gap ((Segment.plain text, behind) :: others))
    (opens : ∀ c ∈ (gap ++ written ((Segment.plain text, behind) :: others)).head?, c = '"') :
    '"' ∈ gap := by
  cases gap with
  | cons c rest => exact opens c rfl ▸ List.mem_cons_self
  | nil =>
      cases partition with
      | plain _ loose _ _ =>
          exfalso
          obtain ⟨c, rest, rfl⟩ := List.exists_cons_of_ne_nil loose.inhabited
          have quote : c = '"' := opens c (by rw [written_cons]; rfl)
          exact loose.unquoted (quote ▸ List.mem_cons_self)

/-- A quoted run is a segment or a part of the gap. -/
theorem Partition.run {run gap : List Char} {parts : List (Segment × List Char)}
    (ends : IsClosed run ∨ IsUnclosed run ∧ gap = [] ∧ parts = [])
    (partition : Partition gap parts) : ∃ front later, Partition front later ∧
      later.map Prod.fst = (ofRun? run).toList ++ parts.map Prod.fst ∧
      front ++ written later = run ++ (gap ++ written parts) := by
  by_cases blank : allBlank (withoutQuotes run) = true
  · rw [ofRun?, if_pos blank]
    rcases ends with ⟨within, rfl, inside⟩ | ⟨⟨within, rfl, unclosed⟩, rfl, rfl⟩
    · rw [withoutQuotes_closed inside] at blank
      have dropped : IsGap ('"' :: (within ++ ['"'])) := .run blank .nil
      exact ⟨_, parts, partition.widen dropped, rfl, List.append_assoc _ _ _⟩
    · rw [withoutQuotes_unclosed unclosed] at blank
      exact ⟨_, [], .last (.inr ⟨[], within, rfl, .nil, blank⟩), rfl, rfl⟩
  · rw [ofRun?, if_neg blank]
    exact ⟨[], (.quoted run, gap) :: parts,
      .quoted .nil ends (Bool.eq_false_iff.mpr blank) partition, rfl, written_cons _ _ _⟩

theorem exists_partition (phrase : List Char) :
    ∃ gap parts, Partition gap parts ∧ parts.map Prod.fst = ofPhrase phrase ∧
      gap ++ written parts = phrase := by
  fun_induction ofPhrase phrase with
  | case1 => exact ⟨[], [], .last (.inl .nil), rfl, rfl⟩
  | case2 rest parts ih =>
      have split : parts.1 ++ parts.2 = rest := throughQuote_append rest
      rcases throughQuote_cases rest with ⟨within, closed, inside⟩ | ⟨unclosed, last⟩
      · obtain ⟨gap, later, partition, segments, whole⟩ := ih
        obtain ⟨front, all, cut, same, written⟩ :=
          partition.run (.inl ⟨within, congrArg _ closed, inside⟩)
        exact ⟨front, all, cut, by rw [same, segments],
          by rw [written, whole, List.cons_append, split]⟩
      · have nothing : Partition [] [] := .last (.inl .nil)
        obtain ⟨front, all, cut, same, written⟩ :=
          nothing.run (.inr ⟨⟨parts.1, rfl, unclosed⟩, rfl, rfl⟩)
        have last : parts.2 = [] := last
        rw [last, List.append_nil] at split
        refine ⟨front, all, cut, ?_, by rw [written, split]; simp⟩
        rw [same, last, ofPhrase_nil]
        rfl
  | case3 c rest unquoted ih =>
      obtain ⟨gap, parts, partition, segments, whole⟩ := ih
      have halves : c :: rest.takeWhile (· != '"') ++ (gap ++ written parts) = c :: rest := by
        rw [whole, List.cons_append, List.takeWhile_append_dropWhile]
      by_cases blank : allBlank (c :: rest.takeWhile (· != '"')) = true
      · refine ⟨_, parts, partition.widen (.of_allBlank blank), ?_,
          by rw [List.append_assoc, halves]⟩
        rw [ofText?_of_blank blank]
        exact segments
      · have visible := Bool.eq_false_iff.mpr blank
        obtain ⟨front, back, around, before, behind⟩ :=
          Text.exists_trim (c :: rest.takeWhile (· != '"'))
        have loose : IsLoose (Text.trim (c :: rest.takeWhile (· != '"'))) := by
          refine isLoose_trim ?_ visible
          intro member
          rcases List.mem_cons.mp member with same | member
          · exact unquoted same.symm
          · simpa using List.mem_takeWhile_imp member
        have apart : ∀ other behind others, parts = (plain other, behind) :: others →
            '"' ∈ back ++ gap := by
          rintro other behind others rfl
          refine List.mem_append_right back (partition.mem_gap_of_quote ?_)
          intro d first
          have stops := List.head?_dropWhile_not (· != '"') rest
          rw [whole] at first
          rw [first] at stops
          simpa using stops
        refine ⟨front, (plain (Text.trim (c :: rest.takeWhile (· != '"'))),
          back ++ gap) :: parts, .plain (.of_allBlank before) loose apart
            (partition.widen (.of_allBlank behind)), ?_, ?_⟩
        · rw [ofText?_of_visible visible, List.map_cons, segments]
          rfl
        · conv_rhs => rw [← halves, around]
          simp [Segment.text]

theorem ofPhrase_gap {gap : List Char} (blank : IsGap gap) (rest : List Char) :
    ofPhrase (gap ++ rest) = ofPhrase rest := by
  induction blank with
  | nil => rfl
  | blank blank _ ih => rw [List.cons_append, ofPhrase_cons_blank blank, ih]
  | @run contents others blank _ ih =>
      have inside := QuoteState.after_of_allBlank blank
      rw [List.cons_append, List.append_assoc, List.cons_append, ofPhrase_quote,
        throughQuote_append_quote inside, ofRun?, withoutQuotes_closed inside, if_pos blank, ih]
      rfl

theorem ofPhrase_lastGap {gap : List Char} (blank : IsLastGap gap) : ofPhrase gap = [] := by
  rcases blank with gap | ⟨front, contents, rfl, gap, blank⟩
  · have cut := ofPhrase_gap gap []
    rwa [List.append_nil, ofPhrase_nil] at cut
  · have within : QuoteState.after contents ≠ .closed := by
      simp [QuoteState.after_of_allBlank blank]
    rw [ofPhrase_gap gap, ofPhrase_quote, throughQuote_of_within within, ofRun?,
      withoutQuotes_unclosed within, if_pos blank, ofPhrase_nil]
    rfl

theorem ofText?_append_blanks (text : List Char) {blanks : List Char}
    (blank : allBlank blanks = true) : ofText? (text ++ blanks) = ofText? text := by
  induction blanks using List.reverseRecOn with
  | nil => rw [List.append_nil]
  | append_singleton front c ih =>
      simp only [Text.allBlank_append, Text.allBlank_cons, Bool.and_eq_true] at blank
      rw [← List.append_assoc, ofText?_append_blank blank.2.1, ih blank.1]

/-- Behind its blanks a phrase goes on with a quote, if at all. -/
def OpensQuote (phrase : List Char) : Prop := ∀ c ∈ (phrase.dropWhile isBlank).head?, c = '"'

theorem opensQuote_quote (rest : List Char) : OpensQuote ('"' :: rest) := by
  intro c first
  rw [List.dropWhile_cons_of_neg (by decide)] at first
  exact (Option.some.inj first).symm

theorem opensQuote_gap {gap rest : List Char} (blank : IsGap gap)
    (opens : '"' ∈ gap ∨ OpensQuote rest) : OpensQuote (gap ++ rest) := by
  induction blank with
  | nil => exact opens.resolve_left List.not_mem_nil
  | @blank c others blank _ ih =>
      have different : '"' ≠ c := (Text.ne_of_isBlank blank (by decide)).symm
      have later :=
        ih (opens.imp_left fun member => (List.mem_cons.mp member).resolve_left different)
      intro d first
      rw [List.cons_append, List.dropWhile_cons_of_pos blank] at first
      exact later d first
  | run => exact opensQuote_quote _

/-- Text is followed by a quoted run, kept or dropped, or by nothing but blanks. -/
theorem Partition.opensQuote {gap : List Char} {parts : List (Segment × List Char)}
    (partition : Partition gap parts)
    (apart : ∀ other behind rest, parts = (Segment.plain other, behind) :: rest → '"' ∈ gap) :
    OpensQuote (gap ++ written parts) := by
  cases partition with
  | last blank =>
      rw [written_nil]
      rcases blank with blank | ⟨front, contents, rfl, blank, _⟩
      · exact opensQuote_gap blank (.inr nofun)
      · rw [List.append_nil]
        exact opensQuote_gap blank (.inr (opensQuote_quote contents))
  | plain blank _ _ _ => exact opensQuote_gap blank (.inl (apart _ _ _ rfl))
  | quoted blank ends _ _ =>
      refine opensQuote_gap blank (.inr ?_)
      rcases ends with ⟨within, rfl, _⟩ | ⟨⟨within, rfl, _⟩, _⟩
      · exact opensQuote_quote _
      · exact opensQuote_quote _

theorem ofPhrase_loose {text rest : List Char} (loose : IsLoose text) (opens : OpensQuote rest) :
    ofPhrase (text ++ rest) = plain text :: ofPhrase rest := by
  have blank : allBlank (rest.takeWhile isBlank) = true := List.all_takeWhile
  have unquoted : '"' ∉ text ++ rest.takeWhile isBlank := by
    intro member
    rcases List.mem_append.mp member with member | member
    · exact loose.unquoted member
    · exact Text.ne_of_isBlank (d := '"') (List.mem_takeWhile_imp member) (by decide) rfl
  have onward := ofPhrase_gap (.of_allBlank blank) (rest.dropWhile isBlank)
  rw [List.takeWhile_append_dropWhile] at onward
  rw [onward]
  conv_lhs => rw [← List.takeWhile_append_dropWhile (p := isBlank) (l := rest),
    ← List.append_assoc]
  rw [ofPhrase_append unquoted opens, ofText?_append_blanks text blank, ofText?_of_isLoose loose]
  rfl

theorem Partition.ofPhrase_eq {gap : List Char} {parts : List (Segment × List Char)}
    (partition : Partition gap parts) : ofPhrase (gap ++ written parts) = parts.map Prod.fst := by
  induction partition with
  | last blank =>
      rw [written_nil, List.append_nil, ofPhrase_lastGap blank]
      rfl
  | @plain gap text next parts blank loose apart onward ih =>
      rw [ofPhrase_gap blank, written_cons, Segment.text,
        ofPhrase_loose loose (onward.opensQuote apart), ih]
      rfl
  | @quoted gap run next parts blank ends visible onward ih =>
      have last : IsClosed run ∨ IsUnclosed run ∧ next ++ written parts = [] := by
        rcases ends with closed | ⟨unclosed, noGap, others⟩
        · exact .inl closed
        · rw [noGap, others]
          exact .inr ⟨unclosed, rfl⟩
      rw [ofPhrase_gap blank, written_cons, Segment.text, ofPhrase_run last visible, ih]
      rfl

/-- Cutting a phrase by the offsets of its bytes never fails and gives its segments. These are the
only ones with which the phrase is made of segments and gaps. -/
theorem eq_ofPhrase_iff (phrase : List Char) :
    ofBytes? phrase 0 = some (ofPhrase phrase) ∧
      ∀ segments, segments = ofPhrase phrase ↔ ∃ gap parts,
        Partition gap parts ∧ parts.map Prod.fst = segments ∧
        gap ++ written parts = phrase := by
  refine ⟨ofBytes?_eq [] phrase, fun segments => ⟨?_, ?_⟩⟩
  · rintro rfl
    exact exists_partition phrase
  · rintro ⟨gap, parts, partition, rfl, rfl⟩
    exact partition.ofPhrase_eq.symm

end Segment

end FacetSearch
