import FacetSearch.Phrase.Segment
import FacetSearch.Proofs.Text.Words
import FacetSearch.Query.Clause
import FacetSearch.Text.Quoted

/-!
Quoted runs as the engine reads them: a backslash takes the next character with it, and the first
quote that no backslash takes ends the run.

`QuoteState` follows a text from the opening quote on. What stands between quotes in a query never
reaches `closed`, and `throughQuote_append_quote` says that such a run ends at its own closing
quote.
-/

set_option autoImplicit false

namespace FacetSearch

/-- Where a reader stands behind an opening quote. -/
inductive QuoteState where
  | inside
  | escaped
  | closed
  deriving DecidableEq, Repr

namespace QuoteState

/-- Reads one more character. -/
def step : QuoteState → Char → QuoteState
  | closed, _ => closed
  | escaped, _ => inside
  | inside, c => if c = '"' then closed else if c = '\\' then escaped else inside

/-- Where a text leads from behind the opening quote. -/
def after (text : List Char) : QuoteState := text.foldl step inside

theorem after_append_singleton (text : List Char) (c : Char) :
    after (text ++ [c]) = (after text).step c := by
  simp only [after, List.foldl_append, List.foldl_cons, List.foldl_nil]

theorem foldl_closed (text : List Char) : text.foldl step closed = closed := by
  induction text with
  | nil => rfl
  | cons c rest ih =>
      rw [List.foldl_cons]
      exact ih

/-- What stays inside the quotes has done so from the start. -/
theorem after_ne_closed_of_append {front : List Char} (back : List Char)
    (within : after (front ++ back) ≠ closed) : after front ≠ closed := by
  intro shut
  apply within
  rw [after, List.foldl_append]
  change back.foldl step (after front) = closed
  rw [shut, foldl_closed]

theorem after_escape_cons (c : Char) (rest : List Char) :
    after ('\\' :: c :: rest) = after rest := rfl

theorem after_plain_cons {c : Char} (unquoted : c ≠ '"') (plain : c ≠ '\\') (rest : List Char) :
    after (c :: rest) = after rest := by
  simp only [after, List.foldl_cons, step, if_neg unquoted, if_neg plain]

end QuoteState

namespace Text

open QuoteState

theorem ne_of_isBlank {c d : Char} (blank : isBlank c = true) (visible : isBlank d = false) :
    c ≠ d := by
  intro same
  rw [same, visible] at blank
  cases blank

theorem after_trimStart (text : List Char) : after (trimStart text) = after text := by
  induction text with
  | nil => rfl
  | cons c rest ih =>
      by_cases blank : isBlank c = true
      · have unquoted : c ≠ '"' := ne_of_isBlank blank (by decide)
        have plain : c ≠ '\\' := ne_of_isBlank blank (by decide)
        rw [after_plain_cons unquoted plain, ← ih, trimStart, List.dropWhile_cons_of_pos blank,
          trimStart]
      · rw [trimStart, List.dropWhile_cons_of_neg blank]

/-- Blanks around the contents of quotes can go: none of them escapes anything. -/
theorem after_trim_ne_closed {text : List Char} (within : after text ≠ closed) :
    after (trim text) ≠ closed := by
  obtain ⟨blanks, whole, _⟩ := trimEnd_append_blanks (trimStart text)
  apply after_ne_closed_of_append blanks
  rw [trim, whole, after_trimStart]
  exact within

theorem after_escape (text : List Char) : after (Quoted.escape '"' text) = inside := by
  induction text with
  | nil => rfl
  | cons c rest ih =>
      by_cases special : c = '"' ∨ c = '\\'
      · rw [Quoted.escape, if_pos special, after_escape_cons, ih]
      · obtain ⟨unquoted, plain⟩ := not_or.mp special
        rw [Quoted.escape, if_neg special, after_plain_cons unquoted plain, ih]

end Text

namespace Segment

open QuoteState

theorem trailingBackslashes_append_singleton (text : List Char) (c : Char) :
    trailingBackslashes (text ++ [c]) = if c = '\\' then trailingBackslashes text + 1 else 0 := by
  unfold trailingBackslashes
  rw [List.reverse_append, List.reverse_singleton, List.singleton_append]
  by_cases escape : c = '\\'
  · rw [List.takeWhile_cons_of_pos (by simp [escape]), if_pos escape, List.length_cons]
  · rw [List.takeWhile_cons_of_neg (by simp [escape]), if_neg escape, List.length_nil]

/-- The last backslash takes the next character exactly if the run of backslashes is odd. -/
theorem after_eq_escaped_iff {text : List Char} (within : after text ≠ closed) :
    after text = escaped ↔ trailingBackslashes text % 2 = 1 := by
  induction text using List.reverseRecOn with
  | nil => simp [after, trailingBackslashes]
  | append_singleton text c ih =>
      have before : after text ≠ closed := after_ne_closed_of_append [c] within
      have parity := ih before
      rw [trailingBackslashes_append_singleton]
      rw [after_append_singleton] at within ⊢
      cases state : after text with
      | closed => exact absurd state before
      | escaped =>
          have odd := parity.mp state
          by_cases escape : c = '\\'
          · simp only [step, escape, if_true, reduceCtorEq, false_iff]
            omega
          · simp [step, escape]
      | inside =>
          have even : ¬ trailingBackslashes text % 2 = 1 := by
            intro odd
            have taken := parity.mpr odd
            rw [state] at taken
            cases taken
          rw [state] at within
          by_cases escape : c = '\\'
          · subst escape
            simp only [step, if_true, show ('\\' : Char) ≠ '"' by decide, if_false, true_iff]
            omega
          · by_cases quote : c = '"'
            · simp [step, quote] at within
            · simp [step, escape, quote]

/-- Closing the escapes of a phrase leaves its own closing quote its meaning. -/
theorem after_closeEscapes {phrase : List Char} (within : after phrase ≠ closed) :
    after (Engine.closeEscapes phrase) = inside := by
  have parity := after_eq_escaped_iff within
  unfold Engine.closeEscapes
  by_cases odd : trailingBackslashes phrase % 2 = 1
  · rw [if_pos odd, after_append_singleton, parity.mpr odd]
    rfl
  · rw [if_neg odd]
    cases state : after phrase with
    | inside => rfl
    | escaped => exact absurd (parity.mp state) odd
    | closed => exact absurd state within

theorem throughQuote_quote (text : List Char) : throughQuote ('"' :: text) = (['"'], text) := by
  unfold throughQuote
  rfl

theorem throughQuote_escape (c : Char) (text : List Char) :
    throughQuote ('\\' :: c :: text)
      = ('\\' :: c :: (throughQuote text).1, (throughQuote text).2) := by
  rw [throughQuote]

theorem throughQuote_plain {c : Char}
    (unquoted : c ≠ '"') (plain : c ≠ '\\') (text : List Char) :
    throughQuote (c :: text) = (c :: (throughQuote text).1, (throughQuote text).2) := by
  rw [throughQuote, if_neg unquoted]
  intro d rest first
  exact absurd first plain

/-- A run that stays inside the quotes ends at the quote behind it. -/
theorem throughQuote_append_quote {run : List Char} (within : after run = inside)
    (rest : List Char) : throughQuote (run ++ '"' :: rest) = (run ++ ['"'], rest) := by
  fun_induction throughQuote run with
  | case1 => exact throughQuote_quote rest
  | case2 c more parts ih =>
      rw [List.cons_append, List.cons_append, throughQuote_escape, ih within]
      rfl
  | case3 more _ =>
      rw [after, List.foldl_cons] at within
      change more.foldl step closed = inside at within
      rw [foldl_closed] at within
      cases within
  | case4 c more single unquoted parts ih =>
      by_cases escape : c = '\\'
      · subst escape
        cases more with
        | nil => cases within
        | cons d others => exact absurd rfl (single d others rfl)
      · rw [after_plain_cons unquoted escape] at within
        rw [List.cons_append, throughQuote_plain unquoted escape, ih within]
        rfl

/-- What follows an opening quote goes up to a closing one, or up to the end. -/
theorem throughQuote_cases (text : List Char) :
    (∃ run, (throughQuote text).1 = run ++ ['"'] ∧ after run = inside) ∨
      after (throughQuote text).1 ≠ closed ∧ (throughQuote text).2 = [] := by
  fun_induction throughQuote text with
  | case1 => exact .inr ⟨by decide, rfl⟩
  | case2 c rest parts ih =>
      rcases ih with ⟨run, whole, within⟩ | within
      · refine .inl ⟨'\\' :: c :: run, ?_, within⟩
        simp only [parts, whole, List.cons_append]
      · exact .inr within
  | case3 rest _ => exact .inl ⟨[], rfl, rfl⟩
  | case4 c rest single unquoted parts ih =>
      by_cases escape : c = '\\'
      · subst escape
        cases rest with
        | nil => exact .inr ⟨by decide, rfl⟩
        | cons d others => exact absurd rfl (single d others rfl)
      · rcases ih with ⟨run, whole, within⟩ | within
        · refine .inl ⟨c :: run, ?_, ?_⟩
          · simp only [parts, whole, List.cons_append]
          · rw [after_plain_cons unquoted escape]
            exact within
        · refine .inr ?_
          rw [after_plain_cons unquoted escape]
          exact within

/-- A quote behind a text that stays inside the quotes closes them exactly if no backslash takes
it. -/
theorem endsInQuote_append_iff {text : List Char} (within : after text ≠ closed) :
    endsInQuote (text ++ ['"']) = true ↔ after text = inside := by
  have parity := after_eq_escaped_iff within
  simp only [endsInQuote, List.getLast?_concat, List.dropLast_concat, Bool.and_eq_true, beq_iff_eq,
    true_and]
  cases state : after text with
  | inside =>
      have even : ¬ trailingBackslashes text % 2 = 1 := by
        intro odd
        have taken := parity.mpr odd
        rw [state] at taken
        cases taken
      simp only [iff_true]
      omega
  | escaped =>
      have odd := parity.mp state
      simp only [reduceCtorEq, iff_false]
      omega
  | closed => exact absurd state within

/-- A text that stays inside the quotes does not end in one that closes them. -/
theorem not_endsInQuote {text : List Char} (within : after text ≠ closed) :
    endsInQuote text = false := by
  by_contra ends
  have last : text.getLast? = some '"' := by
    simp only [Bool.not_eq_false, endsInQuote, Bool.and_eq_true, beq_iff_eq] at ends
    exact ends.1
  obtain ⟨front, rfl⟩ := List.getLast?_eq_some_iff.mp last
  have before := after_ne_closed_of_append ['"'] within
  have state := (endsInQuote_append_iff before).mp (by simpa using ends)
  rw [after_append_singleton, state] at within
  exact within rfl

/-- Closed quotes enclose what stands between them. -/
theorem withoutQuotes_closed {text : List Char} (within : after text = inside) :
    withoutQuotes ('"' :: (text ++ ['"'])) = text := by
  have ends := (endsInQuote_append_iff (by simp [within])).mpr within
  change (if endsInQuote (text ++ ['"']) then (text ++ ['"']).dropLast else text ++ ['"']) = text
  rw [if_pos ends, List.dropLast_concat]

/-- A quote that is not closed encloses everything behind it. -/
theorem withoutQuotes_unclosed {text : List Char} (within : after text ≠ closed) :
    withoutQuotes ('"' :: text) = text := by
  have ends := not_endsInQuote within
  change (if endsInQuote text then text.dropLast else text) = text
  rw [ends, if_neg (by simp)]

/-- The contents of a quoted run never close the quotes. -/
theorem after_withoutQuotes (text : List Char) :
    after (withoutQuotes ('"' :: (throughQuote text).1)) ≠ closed := by
  rcases throughQuote_cases text with ⟨run, whole, within⟩ | ⟨within, -⟩
  · rw [whole, withoutQuotes_closed within, within]
    exact nofun
  · rw [withoutQuotes_unclosed within]
    exact within

/-- A part of a phrase as `ofPhrase` cuts it: a quoted run stays inside its quotes. -/
def Contained : Segment → Prop
  | plain _ => True
  | quoted run => after (withoutQuotes run) ≠ closed

theorem contained_of_mem_ofPhrase {phrase : List Char} :
    ∀ segment ∈ ofPhrase phrase, segment.Contained := by
  fun_induction ofPhrase phrase with
  | case1 => exact nofun
  | case2 rest parts ih =>
      intro segment member
      rcases List.mem_append.mp member with member | member
      · simp only [ofRun?] at member
        split at member
        · cases member
        · rw [Option.toList_some, List.mem_singleton] at member
          rw [member]
          exact after_withoutQuotes rest
      · exact ih segment member
  | case3 c rest unquoted ih =>
      intro segment member
      rcases List.mem_append.mp member with member | member
      · simp only [ofText?] at member
        split at member
        · cases member
        · rw [Option.toList_some, List.mem_singleton] at member
          rw [member]
          trivial
      · exact ih segment member

end Segment

namespace Text

theorem runsAt_kept {keep : Char → Bool} {offset : Nat} {text : List Char} :
    ∀ run ∈ runsAt keep offset text, ∀ c ∈ run.2, keep c = true := by
  fun_induction runsAt keep offset text with
  | case1 => exact nofun
  | case2 offset c rest kept run ih =>
      intro found member d inside
      rcases List.mem_cons.mp member with rfl | member
      · rcases List.mem_cons.mp inside with rfl | inside
        · exact kept
        · exact List.mem_takeWhile_imp inside
      · exact ih found member d inside
  | case3 offset c rest skipped ih => exact ih

/-- Words have no blanks. -/
theorem isBlank_of_mem_words {text word : List Char} (member : word ∈ words text) :
    ∀ c ∈ word, isBlank c = false := by
  obtain ⟨run, found, rfl⟩ := List.mem_map.mp member
  intro c inside
  have kept := runsAt_kept run found c inside
  simpa using kept

end Text

end FacetSearch
