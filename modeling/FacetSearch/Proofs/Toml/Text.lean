import Mathlib
import FacetSearch.Proofs.Text.Reading
import FacetSearch.Toml.Printer
import FacetSearch.Toml.Text

/-!
Written texts are read back, whatever characters they hold and whichever quotes they get
(`text_writeText`). On one line every character is read by itself. On several lines what a quote
means depends on the quotes next to it, so the parts are followed one by one (`Gathers`): of three
quotes in a row a text with escapes has one behind a backslash, and a text without escapes has no
three.
-/

set_option autoImplicit false

namespace FacetSearch.Toml

open Text (Reader)
open Text.Reader

section Parts

variable {item : Reader (List Char)} {text front contents rest after : List Char}

/-- A reader takes the parts of a text one after another, with these contents, and refuses what is
left. -/
inductive Gathers (item : Reader (List Char)) : (text contents rest : List Char) → Prop
  | stop {rest : List Char} (refused : item rest = none) : Gathers item rest [] rest
  | step {text next front contents rest : List Char} (taken : item text = some (front, next))
      (shorter : next.length < text.length) (onward : Gathers item next contents rest) :
      Gathers item text (front ++ contents) rest

theorem Gathers.joined_eq (gathers : Gathers item text contents rest) :
    joined item text = some (contents, rest) := by
  have same : (rounds item text).1.flatten = contents ∧ (rounds item text).2 = rest := by
    induction gathers with
    | stop refused =>
        rw [rounds_of_refused refused]
        exact ⟨rfl, rfl⟩
    | step taken shorter _ ih =>
        rw [rounds_of_taken taken shorter, List.flatten_cons, ih.1]
        exact ⟨rfl, ih.2⟩
  change some ((rounds item text).1.flatten, (rounds item text).2) = _
  rw [same.1, same.2]

/-- A part that is taken before anything. -/
theorem Gathers.part (takes : item (text ++ after) = some (front, after)) (inhabited : text ≠ [])
    (onward : Gathers item after contents rest) :
    Gathers item (text ++ after) (front ++ contents) rest := by
  have size := List.length_pos_iff.mpr inhabited
  exact .step takes (by simp only [List.length_append]; omega) onward

end Parts

variable {c quote : Char} {text rest : List Char}

theorem plainChar_cons (visible : isControl c = false) (different : c ≠ quote)
    (rest : List Char) : plainChar quote (c :: rest) = some ([c], rest) := by
  have passes : (!isControl c && c != quote) = true := by simp [visible, different]
  exact bind_of_taken (satisfying_cons passes rest)

theorem plainChar_quote (quote : Char) (rest : List Char) :
    plainChar quote (quote :: rest) = none := by
  have fails : (!isControl quote && quote != quote) = false := by simp
  exact bind_of_refused (satisfying_cons_of_neg _ fails rest)

theorem unescaped_cons (visible : isControl c = false) (noQuote : c ≠ '"') (noEscape : c ≠ '\\')
    (rest : List Char) : unescaped (c :: rest) = some ([c], rest) := by
  have passes : require (decide (some c ≠ some '\\')) (c :: rest) = some ((), c :: rest) := by
    simp [require, noEscape, pure_apply]
  have looked : peek? (c :: rest) = some (some c, c :: rest) := rfl
  rw [unescaped, bind_of_taken looked, bind_of_taken passes]
  exact plainChar_cons visible noQuote rest

theorem unescaped_quote (rest : List Char) : unescaped ('"' :: rest) = none :=
  plainChar_quote '"' rest

theorem escaped_of_ne (different : c ≠ '\\') (rest : List Char) : escaped (c :: rest) = none :=
  bind_of_refused (char_of_ne different rest)

theorem ofDigits_fourDigits : ∀ n < 128, Text.ofDigits 16 (fourDigits n) = n := by
  decide

theorem isSome_hexDigit?_fourDigits : ∀ n < 128,
    (fourDigits n).all (fun c => (Text.hexDigit? c).isSome) = true := by
  decide

/-- Four digits are read as the character with their code point. -/
theorem codePoint_fourDigits (small : c.toNat < 128) (rest : List Char) :
    codePoint 4 (fourDigits c.toNat ++ rest) = some (c, rest) := by
  have taken : exactCount 4 (fun c => (Text.hexDigit? c).isSome) (fourDigits c.toNat ++ rest)
      = some (fourDigits c.toNat, rest) := by
    have hexadecimal := isSome_hexDigit?_fourDigits c.toNat small
    have size : (fourDigits c.toNat).length = 4 := rfl
    have front : (fourDigits c.toNat ++ rest).take 4 = fourDigits c.toNat := by
      rw [← size, List.take_left]
    have back : (fourDigits c.toNat ++ rest).drop 4 = rest := by
      rw [← size, List.drop_left]
    simp only [exactCount, front, back, hexadecimal, size, decide_true, Bool.and_self, if_true]
  rw [codePoint, bind_of_taken taken, ofDigits_fourDigits _ small]
  have code : Text.charOfCode? c.toNat = some c := by
    have valid : c.toNat.isValidChar := c.valid
    rw [Text.charOfCode?, if_pos valid, Char.ofNat_toNat]
  rw [code]
  rfl

/-- An escape: a backslash and a letter that a folded line cannot have, read as one character. -/
structure IsEscape (c : Char) (written : List Char) : Prop where
  spelled : ∃ letter digits, written = '\\' :: letter :: digits ∧ isSpace letter = false ∧
    letter ≠ '\n' ∧ letter ≠ '\r'
  read : ∀ rest, escaped (written ++ rest) = some ([c], rest)

theorem isEscape_short {letter : Char} (listed : shortEscapes.lookup letter = some c)
    (inLine : isSpace letter = false) (noNewline : letter ≠ '\n') (noReturn : letter ≠ '\r') :
    IsEscape c ['\\', letter] where
  spelled := ⟨letter, [], rfl, inLine, noNewline, noReturn⟩
  read rest := by
    change escaped ('\\' :: letter :: rest) = _
    rw [escaped, bind_of_taken (char_cons _ _), bind_of_taken (satisfying_cons rfl rest), listed]
    rfl

theorem isEscape_digits (small : c.toNat < 128) :
    IsEscape c ('\\' :: 'u' :: fourDigits c.toNat) where
  spelled := ⟨'u', _, rfl, by decide, by decide, by decide⟩
  read rest := by
    change escaped ('\\' :: 'u' :: (fourDigits c.toNat ++ rest)) = _
    rw [escaped, bind_of_taken (char_cons _ _), bind_of_taken (satisfying_cons rfl _)]
    exact bind_of_taken (codePoint_fourDigits small rest)

/-- A character is written as itself or as an escape. -/
theorem escapeControl_cases (c : Char) :
    escapeControl c = [c] ∧ isControl c = false ∧ c ≠ '\\' ∨
    IsEscape c (escapeControl c) := by
  unfold escapeControl
  split
  · exact .inr (isEscape_short rfl (by decide) (by decide) (by decide))
  · exact .inr (isEscape_short rfl (by decide) (by decide) (by decide))
  · exact .inr (isEscape_short rfl (by decide) (by decide) (by decide))
  · exact .inr (isEscape_short rfl (by decide) (by decide) (by decide))
  · exact .inr (isEscape_short rfl (by decide) (by decide) (by decide))
  · exact .inr (isEscape_short rfl (by decide) (by decide) (by decide))
  · next noEscape =>
      cases control : isControl c with
      | true =>
          have small : c.toNat < 128 := by
            simp only [isControl, Bool.or_eq_true, Bool.and_eq_true, decide_eq_true_eq,
              beq_iff_eq] at control
            omega
          exact .inr (isEscape_digits small)
      | false => exact .inl ⟨rfl, rfl, noEscape⟩

/-- A character as a text with escapes holds it. -/
def writeChar (c : Char) : List Char := if c = '"' then ['\\', '"'] else escapeControl c

theorem takes_writeChar (c : Char) : Takes (escaped <|> unescaped) (writeChar c) [c] := by
  intro rest
  by_cases isQuote : c = '"'
  · have formed : IsEscape '"' ['\\', '"'] :=
      isEscape_short rfl (by decide) (by decide) (by decide)
    rw [writeChar, if_pos isQuote, isQuote]
    exact orElse_of_taken (formed.read rest)
  · rw [writeChar, if_neg isQuote]
    rcases escapeControl_cases c with ⟨same, visible, noEscape⟩ | formed
    · rw [same]
      exact (orElse_of_refused (escaped_of_ne noEscape rest)).trans
        (unescaped_cons visible isQuote noEscape rest)
    · exact orElse_of_taken (formed.read rest)

theorem exists_cons_writeChar (c : Char) :
    ∃ first more, writeChar c = first :: more ∧ first ≠ '"' := by
  rw [writeChar]
  split
  · exact ⟨'\\', ['"'], rfl, by decide⟩
  · next noQuote =>
      rcases escapeControl_cases c with ⟨same, -, -⟩ | ⟨⟨letter, digits, same, -⟩, -⟩
      · exact ⟨c, [], same, noQuote⟩
      · exact ⟨'\\', letter :: digits, same, by decide⟩

/-- A text on one line, from quote to quote. -/
theorem quoted_append {item : Reader (List Char)} {inside contents : List Char}
    (gathers : Gathers item (inside ++ quote :: rest) contents (quote :: rest)) :
    (do char quote; let contents ← joined item; char quote; return contents : Reader (List Char))
      (quote :: (inside ++ quote :: rest)) = some (contents, rest) := by
  rw [bind_of_taken (char_cons _ _), bind_of_taken gathers.joined_eq, bind_of_taken (char_cons _ _)]
  rfl

theorem basicLine_writeBasic (text rest : List Char) :
    basicLine (writeBasic text ++ rest) = some (text, rest) := by
  have gathers : Gathers (escaped <|> unescaped) (text.flatMap writeChar ++ '"' :: rest) text
      ('"' :: rest) := by
    induction text with
    | nil =>
        exact .stop ((orElse_of_refused (escaped_of_ne (by decide) rest)).trans
          (unescaped_quote rest))
    | cons c more ih =>
        obtain ⟨first, others, spelled, -⟩ := exists_cons_writeChar c
        have inhabited : writeChar c ≠ [] := by simp [spelled]
        rw [List.flatMap_cons, List.append_assoc]
        exact Gathers.part (takes_writeChar c _) inhabited ih
  have whole : writeBasic text ++ rest = '"' :: (text.flatMap writeChar ++ '"' :: rest) := by
    change '"' :: (text.flatMap writeChar ++ ['"']) ++ rest = _
    simp
  rw [whole]
  exact quoted_append gathers

theorem literalLine_append (visible : ∀ c ∈ text, isControl c = false)
    (unquoted : '\'' ∉ text) (rest : List Char) :
    literalLine ('\'' :: text ++ '\'' :: rest) = some (text, rest) := by
  have gathers : Gathers (plainChar '\'') (text ++ '\'' :: rest) text ('\'' :: rest) := by
    induction text with
    | nil => exact .stop (plainChar_quote '\'' rest)
    | cons c more ih =>
        have later := ih (fun d member => visible d (List.mem_cons_of_mem _ member))
          (fun member => unquoted (List.mem_cons_of_mem _ member))
        have different : c ≠ '\'' := fun same => unquoted (same ▸ List.mem_cons_self)
        exact .step (plainChar_cons (visible c List.mem_cons_self) different _) (by simp) later
  exact quoted_append gathers

/-- What may stand behind the quotes that belong to a text: no quote, or the three that close it. -/
def FollowsQuotes (quote : Char) (text : List Char) : Prop :=
  text.head? ≠ some quote ∨
    ∃ rest, text = quote :: quote :: quote :: rest ∧ rest.head? ≠ some quote

theorem takeWhile_quotes (noQuote : rest.head? ≠ some quote) :
    rest.takeWhile (· == quote) = [] := by
  cases rest with
  | nil => rfl
  | cons c more =>
      have different : c ≠ quote := fun same => noQuote (congrArg some same)
      exact List.takeWhile_cons_of_neg (by simpa using different)

/-- How many quotes stand at the front of a text. -/
theorem length_takeWhile_quotes (count : Nat) (noQuote : rest.head? ≠ some quote) :
    ((List.replicate count quote ++ rest).takeWhile (· == quote)).length = count := by
  rw [List.takeWhile_append_of_pos (by simp), takeWhile_quotes noQuote, List.append_nil,
    List.length_replicate]

theorem looseQuotes_one (follows : FollowsQuotes quote rest) :
    looseQuotes quote (quote :: rest) = some ([quote], rest) := by
  unfold looseQuotes
  rcases follows with noQuote | ⟨after, rfl, noQuote⟩
  · rw [show ((quote :: rest).takeWhile (· == quote)).length
      = 1 from length_takeWhile_quotes 1 noQuote]
    rfl
  · rw [show ((quote :: quote :: quote :: quote :: after).takeWhile (· == quote)).length = 4 from
      length_takeWhile_quotes 4 noQuote]
    rfl

theorem looseQuotes_two (follows : FollowsQuotes quote rest) :
    looseQuotes quote (quote :: quote :: rest) = some ([quote, quote], rest) := by
  unfold looseQuotes
  rcases follows with noQuote | ⟨after, rfl, noQuote⟩
  · rw [show ((quote :: quote :: rest).takeWhile (· == quote)).length = 2 from
      length_takeWhile_quotes 2 noQuote]
    rfl
  · rw [show ((quote :: quote :: quote :: quote :: quote :: after).takeWhile (· == quote)).length
      = 5
      from length_takeWhile_quotes 5 noQuote]
    rfl

theorem looseQuotes_closing (noQuote : rest.head? ≠ some quote) :
    looseQuotes quote (quote :: quote :: quote :: rest) = none := by
  unfold looseQuotes
  rw [show ((quote :: quote :: quote :: rest).takeWhile (· == quote)).length = 3 from
    length_takeWhile_quotes 3 noQuote]
  rfl

theorem looseQuotes_of_ne (different : c ≠ quote) (rest : List Char) :
    looseQuotes quote (c :: rest) = none := by
  unfold looseQuotes
  rw [takeWhile_quotes (by simpa using different)]
  rfl

theorem newline_cons (rest : List Char) : newline ('\n' :: rest) = some (['\n'], rest) := rfl

theorem newline_of_ne (noNewline : c ≠ '\n') (noReturn : c ≠ '\r') (rest : List Char) :
    newline (c :: rest) = none :=
  (orElse_of_refused (bind_of_refused (exactly_of_ne noNewline _ rest))).trans
    (bind_of_refused (exactly_of_ne noReturn _ rest))

theorem foldedLine_of_ne (different : c ≠ '\\') (rest : List Char) :
    foldedLine (c :: rest) = none :=
  bind_of_refused (char_of_ne different rest)

theorem foldedLine_escape {written : List Char} (formed : IsEscape c written) (rest : List Char) :
    foldedLine (written ++ rest) = none := by
  obtain ⟨⟨letter, digits, rfl, inLine, noNewline, noReturn⟩, -⟩ := formed
  have untaken : whileTrue isSpace (letter :: (digits ++ rest))
      = some ([], letter :: (digits ++ rest)) := by
    simp [whileTrue, inLine]
  have skipped : spaces (letter :: (digits ++ rest)) = some ((), letter :: (digits ++ rest)) :=
    bind_of_taken untaken
  change foldedLine ('\\' :: letter :: (digits ++ rest)) = none
  rw [foldedLine, bind_of_taken (char_cons _ _), bind_of_taken skipped]
  exact bind_of_refused (newline_of_ne noNewline noReturn _)

/-- A character other than a quote as a text with escapes on several lines holds it. -/
def writePart (c : Char) : List Char := if c = '\n' then ['\n'] else escapeControl c

theorem ne_return_of_not_isControl (visible : isControl c = false) : c ≠ '\r' := by
  rintro rfl
  cases visible

theorem basicPart_writePart (noQuote : c ≠ '"') (rest : List Char) :
    basicPart (writePart c ++ rest) = some ([c], rest) := by
  by_cases ends : c = '\n'
  · subst ends
    exact (orElse_of_refused (foldedLine_of_ne (by decide) rest)).trans
      ((orElse_of_refused (escaped_of_ne (by decide) rest)).trans
        (orElse_of_taken (newline_cons rest)))
  · rw [writePart, if_neg ends]
    rcases escapeControl_cases c with ⟨same, visible, noEscape⟩ | formed
    · rw [same]
      exact (orElse_of_refused (foldedLine_of_ne noEscape rest)).trans
        ((orElse_of_refused (escaped_of_ne noEscape rest)).trans
        ((orElse_of_refused (newline_of_ne ends (ne_return_of_not_isControl visible) rest)).trans
        ((orElse_of_refused (looseQuotes_of_ne noQuote rest)).trans
        (unescaped_cons visible noQuote noEscape rest))))
    · exact (orElse_of_refused (foldedLine_escape formed rest)).trans
        (orElse_of_taken (formed.read rest))

theorem basicPart_escapedQuote (rest : List Char) :
    basicPart ('\\' :: '"' :: rest) = some (['"'], rest) := by
  have formed : IsEscape '"' ['\\', '"'] := isEscape_short rfl (by decide) (by decide) (by decide)
  exact (orElse_of_refused (foldedLine_escape formed rest)).trans
    (orElse_of_taken (formed.read rest))

theorem basicPart_quote (rest : List Char) :
    basicPart ('"' :: rest) = (looseQuotes '"' <|> unescaped) ('"' :: rest) :=
  (orElse_of_refused (foldedLine_of_ne (by decide) rest)).trans
    ((orElse_of_refused (escaped_of_ne (by decide) rest)).trans
    (orElse_of_refused (newline_of_ne (by decide) (by decide) rest)))

theorem escapeLines_of_ne (noQuote : c ≠ '"') (quotes : Nat) (text : List Char) :
    escapeLines quotes (c :: text) = writePart c ++ escapeLines 0 text := by
  rw [escapeLines, if_neg noQuote, writePart]
  split <;> rfl

/-- What a character other than a quote begins with. -/
theorem exists_cons_writePart (noQuote : c ≠ '"') : ∃ first more,
    writePart c = first :: more ∧ first ≠ '"' ∧ first ≠ '\r' ∧
    (first = '\n' → c = '\n') := by
  rw [writePart]
  split
  · next ends => exact ⟨'\n', [], rfl, by decide, by decide, fun _ => ends⟩
  · rcases escapeControl_cases c with
      ⟨same, visible, -⟩ | ⟨⟨letter, digits, same, -⟩, -⟩
    · exact ⟨c, [], same, noQuote, ne_return_of_not_isControl visible, id⟩
    · exact ⟨'\\', _, same, by decide, by decide, fun ends => absurd ends (by decide)⟩

theorem head?_escapeLines_of_ne (noQuote : c ≠ '"') (text after : List Char) :
    (escapeLines 0 (c :: text) ++ after).head? ≠ some '"' := by
  obtain ⟨first, more, spelled, different, -⟩ := exists_cons_writePart noQuote
  rw [escapeLines_of_ne noQuote, spelled]
  simpa using different

variable {after : List Char}

/-- Behind two quotes a text goes on with something else, or ends. -/
theorem followsQuotes_escapeLines (noQuote : after.head? ≠ some '"') (text : List Char) :
    FollowsQuotes '"' (escapeLines 2 text ++ ('"' :: '"' :: '"' :: after)) := by
  cases text with
  | nil => exact .inr ⟨after, rfl, noQuote⟩
  | cons c more =>
      left
      by_cases isQuote : c = '"'
      · subst isQuote
        change some '\\' ≠ some '"'
        decide
      · rw [escapeLines_of_ne isQuote, ← escapeLines_of_ne isQuote 0]
        exact head?_escapeLines_of_ne isQuote more _

/-- The parts of a text with escapes on several lines, at its start or behind two quotes. Behind a
single quote there is nothing to show: it is taken together with what decides about it. -/
theorem gathers_escapeLines (noQuote : after.head? ≠ some '"') : (text : List Char) →
    let closing := '"' :: '"' :: '"' :: after
    Gathers basicPart (escapeLines 0 text ++ closing) text closing ∧
      Gathers basicPart (escapeLines 2 text ++ closing) text closing
  | [] => by
      have stop : basicPart ('"' :: '"' :: '"' :: after) = none :=
        (basicPart_quote _).trans
          ((orElse_of_refused (looseQuotes_closing noQuote)).trans (unescaped_quote _))
      exact ⟨.stop stop, .stop stop⟩
  | c :: more => by
      intro closing
      by_cases isQuote : c = '"'
      · subst isQuote
        have behind : Gathers basicPart (escapeLines 2 ('"' :: more) ++ closing)
            ('"' :: more) closing :=
          .step (basicPart_escapedQuote _) (by simp) (gathers_escapeLines noQuote more).1
        refine ⟨?_, behind⟩
        match more with
        | [] =>
            have taken : basicPart ('"' :: closing) = some (['"'], closing) :=
              (basicPart_quote _).trans
                (orElse_of_taken (looseQuotes_one (.inr ⟨after, rfl, noQuote⟩)))
            exact .step taken (by simp) (gathers_escapeLines noQuote []).1
        | d :: others =>
            by_cases second : d = '"'
            · subst second
              have taken : basicPart ('"' :: '"' :: (escapeLines 2 others ++ closing))
                  = some (['"', '"'], escapeLines 2 others ++ closing) :=
                (basicPart_quote _).trans
                  (orElse_of_taken (looseQuotes_two (followsQuotes_escapeLines noQuote others)))
              exact .step taken (by simp) (gathers_escapeLines noQuote others).2
            · have taken : basicPart ('"' :: (escapeLines 0 (d :: others) ++ closing))
                  = some (['"'], escapeLines 0 (d :: others) ++ closing) :=
                (basicPart_quote _).trans
                  (orElse_of_taken (looseQuotes_one (.inl (head?_escapeLines_of_ne second _ _))))
              have same : escapeLines 0 ('"' :: d :: others)
                  = '"' :: escapeLines 0 (d :: others) := by
                rw [escapeLines_of_ne second, ← escapeLines_of_ne second 1]
                rfl
              rw [same]
              exact .step taken (by simp) (gathers_escapeLines noQuote (d :: others)).1
      · have onward := (gathers_escapeLines noQuote more).1
        obtain ⟨first, rest, spelled, -⟩ := exists_cons_writePart isQuote
        have inhabited : writePart c ≠ [] := by simp [spelled]
        rw [escapeLines_of_ne isQuote, escapeLines_of_ne isQuote, List.append_assoc]
        exact ⟨.part (basicPart_writePart isQuote _) inhabited onward,
          .part (basicPart_writePart isQuote _) inhabited onward⟩

/-- A text of several lines, from quotes to quotes. A line end right after the opening quotes is
skipped; a text that has one there is written with one more. -/
theorem enclosed_append {item : Reader (List Char)} {newline : Bool} {inside contents : List Char}
    (unbroken : newline = false → Toml.newline (inside ++ quote :: quote :: quote :: rest) = none)
    (gathers : Gathers item (inside ++ quote :: quote :: quote :: rest) contents
      (quote :: quote :: quote :: rest)) :
    (do
      exactly [quote, quote, quote]
      let _ ← optional Toml.newline
      let contents ← joined item
      exactly [quote, quote, quote]
      return contents : Reader (List Char))
      (encloseLines quote newline inside ++ rest) = some (contents, rest) := by
  have closed : exactly [quote, quote, quote] (quote :: quote :: quote :: rest) = some ((), rest) :=
    takes_exactly [quote, quote, quote] rest
  have whole : encloseLines quote newline inside ++ rest = [quote, quote, quote]
      ++ ((if newline then ['\n'] else []) ++ (inside ++ quote :: quote :: quote :: rest)) := by
    simp [encloseLines]
  obtain ⟨skipped, opened⟩ : ∃ skipped,
      optional Toml.newline ((if newline then ['\n'] else [])
      ++ (inside ++ quote :: quote :: quote :: rest))
        = some (skipped, inside ++ quote :: quote :: quote :: rest) := by
    cases newline with
    | true => exact ⟨_, optional_of_taken (newline_cons _)⟩
    | false => exact ⟨_, optional_of_refused (unbroken rfl)⟩
  rw [whole, bind_of_taken (takes_exactly [quote, quote, quote] _), bind_of_taken opened,
    bind_of_taken gathers.joined_eq, bind_of_taken closed]
  rfl

theorem basicLines_encloseLines {newline : Bool} (fits : newline = false → '\n' ∉ text)
    (noQuote : rest.head? ≠ some '"') :
    basicLines (encloseLines '"' newline (escapeLines 0 text) ++ rest) = some (text, rest) := by
  have unbroken : newline = false →
      Toml.newline (escapeLines 0 text ++ '"' :: '"' :: '"' :: rest) = none := by
    intro lone
    cases text with
    | nil => exact newline_of_ne (by decide) (by decide) _
    | cons c more =>
        have noNewline : c ≠ '\n' := fun same => fits lone (same ▸ List.mem_cons_self)
        by_cases isQuote : c = '"'
        · subst isQuote
          exact newline_of_ne (by decide) (by decide) _
        · obtain ⟨first, others, spelled, -, noReturn, ends⟩ := exists_cons_writePart isQuote
          rw [escapeLines_of_ne isQuote, spelled]
          exact newline_of_ne (fun same => noNewline (ends same)) noReturn _
  exact enclosed_append unbroken (gathers_escapeLines noQuote text).1

theorem le_longestRun (c : Char) (text : List Char) (current longest : Nat) :
    current ≤ TextShape.longestRun c current longest text ∧
      longest ≤ TextShape.longestRun c current longest text := by
  induction text generalizing current longest with
  | nil => simp [TextShape.longestRun]
  | cons next rest ih =>
      rw [TextShape.longestRun]
      split
      · exact ⟨Nat.le_of_succ_le (ih _ _).1, (ih _ _).2⟩
      · have above := (ih 0 (max current longest)).2
        omega

theorem not_mem_of_longestRun (text : List Char) (longest : Nat)
    (absent : TextShape.longestRun c 0 longest text = 0) : c ∉ text := by
  induction text generalizing longest with
  | nil => exact List.not_mem_nil
  | cons next rest ih =>
      rw [TextShape.longestRun] at absent
      split at absent
      next =>
        exact absurd absent (Nat.ne_of_gt (le_longestRun c rest (0 + 1) longest).1)
      next different =>
        intro member
        rcases List.mem_cons.mp member with same | later
        · exact different same.symm
        · exact ih _ absent later

/-- A character that stands for itself in a text without escapes on several lines. -/
def IsLiteral (c : Char) : Prop := isControl c = false ∨ c = '\n'

theorem literalPart_quote (rest : List Char) :
    literalPart ('\'' :: rest) = (looseQuotes '\'' <|> plainChar '\'') ('\'' :: rest) :=
  orElse_of_refused (newline_of_ne (by decide) (by decide) rest)

theorem literalPart_cons (literal : IsLiteral c) (noQuote : c ≠ '\'') (rest : List Char) :
    literalPart (c :: rest) = some ([c], rest) := by
  by_cases ends : c = '\n'
  · subst ends
    exact orElse_of_taken (newline_cons rest)
  · have visible : isControl c = false := literal.resolve_right ends
    exact (orElse_of_refused (newline_of_ne ends (ne_return_of_not_isControl visible) rest)).trans
      ((orElse_of_refused (looseQuotes_of_ne noQuote rest)).trans
        (plainChar_cons visible noQuote rest))

/-- What does not begin with the character starts a new count. -/
theorem longestRun_restart (start : text.head? ≠ some c) (current longest : Nat) :
    TextShape.longestRun c current longest text
      = TextShape.longestRun c 0 (max current longest) text := by
  cases text with
  | nil => simp [TextShape.longestRun]
  | cons next rest =>
      have different : next ≠ c := fun same => start (congrArg some same)
      rw [TextShape.longestRun, if_neg different, TextShape.longestRun,
        if_neg different, Nat.zero_max]

theorem FollowsQuotes.append (start : text.head? ≠ some quote)
    (ending : FollowsQuotes quote rest) : FollowsQuotes quote (text ++ rest) := by
  cases text with
  | nil => exact ending
  | cons c more => exact .inl start

/-- The parts of a text without escapes on several lines, if it has no three quotes in a row. -/
theorem gathers_literal (noQuote : after.head? ≠ some '\'') :
    (text : List Char) → (longest : Nat) →
    TextShape.longestRun '\'' 0 longest text ≤ 2 → (∀ c ∈ text, IsLiteral c) →
    let closing := '\'' :: '\'' :: '\'' :: after
    Gathers literalPart (text ++ closing) text closing
  | [], _, _, _ => by
      exact .stop ((literalPart_quote _).trans
        ((orElse_of_refused (looseQuotes_closing noQuote)).trans (plainChar_quote _ _)))
  | c :: more, longest, short, literal => by
      intro closing
      have literals : ∀ d ∈ more, IsLiteral d :=
        fun d member => literal d (List.mem_cons_of_mem _ member)
      have ending : FollowsQuotes '\'' closing := .inr ⟨after, rfl, noQuote⟩
      by_cases isQuote : c = '\''
      · subst isQuote
        by_cases lone : more.head? = some '\''
        · obtain ⟨others, rfl⟩ := List.head?_eq_some_iff.mp lone
          have counted : TextShape.longestRun '\'' 2 longest others ≤ 2 := short
          have noThird : others.head? ≠ some '\'' := by
            intro third
            obtain ⟨rest, rfl⟩ := List.head?_eq_some_iff.mp third
            have three := (le_longestRun '\'' rest 3 longest).1
            exact absurd (Nat.le_trans three counted) (by decide)
          have taken : literalPart ('\'' :: '\'' :: (others ++ closing))
              = some (['\'', '\''], others ++ closing) :=
            (literalPart_quote _).trans (orElse_of_taken (looseQuotes_two (ending.append noThird)))
          rw [longestRun_restart noThird] at counted
          exact .step taken (by simp) (gathers_literal noQuote others _ counted
            fun d member => literals d (List.mem_cons_of_mem _ member))
        · have counted : TextShape.longestRun '\'' 1 longest more ≤ 2 := short
          have taken : literalPart ('\'' :: (more ++ closing)) = some (['\''], more ++ closing) :=
            (literalPart_quote _).trans (orElse_of_taken (looseQuotes_one (ending.append lone)))
          rw [longestRun_restart lone] at counted
          exact .step taken (by simp) (gathers_literal noQuote more _ counted literals)
      · have counted := short
        rw [TextShape.longestRun, if_neg isQuote] at counted
        exact .step (literalPart_cons (literal c List.mem_cons_self) isQuote _) (by simp)
          (gathers_literal noQuote more _ counted literals)

theorem literalLines_encloseLines {newline : Bool} (fits : newline = false → '\n' ∉ text)
    (literal : ∀ c ∈ text, IsLiteral c) (short : TextShape.longestRun '\'' 0 0 text ≤ 2)
    (noQuote : rest.head? ≠ some '\'') :
    literalLines (encloseLines '\'' newline text ++ rest) = some (text, rest) := by
  have unbroken : newline = false →
      Toml.newline (text ++ '\'' :: '\'' :: '\'' :: rest) = none := by
    intro lone
    cases text with
    | nil => exact newline_of_ne (by decide) (by decide) _
    | cons c more =>
        have noNewline : c ≠ '\n' := fun same => fits lone (same ▸ List.mem_cons_self)
        have visible : isControl c = false := (literal c List.mem_cons_self).resolve_right noNewline
        exact newline_of_ne noNewline (ne_return_of_not_isControl visible) _
  exact enclosed_append unbroken (gathers_literal noQuote text 0 short literal)

theorem exactly_append_of_ne {front more : List Char} (different : rest.head? ≠ some c) :
    exactly (front ++ c :: more) (front ++ rest) = none := by
  have apart : ¬ front ++ c :: more <+: front ++ rest := by
    rw [List.prefix_append_right_inj]
    rintro ⟨behind, rfl⟩
    exact different rfl
  simp [exactly, List.isPrefixOf_iff_prefix, apart]

/-- One quote does not open a text of several lines. -/
theorem exactly_quotes_of_head?_ne (noSecond : rest.head? ≠ some quote) :
    exactly [quote, quote, quote] (quote :: rest) = none :=
  @exactly_append_of_ne quote rest [quote] [quote] noSecond

/-- A text with escapes on one line is not taken for one on several lines. -/
theorem text_writeBasic (noQuote : rest.head? ≠ some '"') :
    Toml.text (writeBasic text ++ rest) = some (text, rest) := by
  have lone : basicLines (writeBasic text ++ rest) = none := by
    cases text with
    | nil => exact bind_of_refused (@exactly_append_of_ne '"' rest ['"', '"'] [] noQuote)
    | cons c more =>
        have spelled : writeBasic (c :: more) ++ rest
            = '"' :: (writeChar c ++ (more.flatMap writeChar ++ '"' :: rest)) := by
          change '"' :: ((c :: more).flatMap writeChar ++ ['"']) ++ rest = _
          simp
        obtain ⟨first, others, begins, different⟩ := exists_cons_writeChar c
        rw [spelled, begins]
        exact bind_of_refused (exactly_quotes_of_head?_ne (by simpa using different))
  refine (orElse_of_refused lone).trans ((orElse_of_refused ?_).trans
    (orElse_of_taken (basicLine_writeBasic text rest)))
  exact bind_of_refused (exactly_of_ne (by decide) _ _)

theorem basicLine_of_ne (noQuote : c ≠ '"') (rest : List Char) : basicLine (c :: rest) = none :=
  bind_of_refused (char_of_ne noQuote rest)

theorem basicLines_of_ne (noQuote : c ≠ '"') (rest : List Char) : basicLines (c :: rest) = none :=
  bind_of_refused (exactly_of_ne noQuote _ rest)

theorem isLiteral_of_control (shape : (TextShape.ofText text).control = false) :
    ∀ c ∈ text, IsLiteral c := by
  intro c member
  have quiet := List.any_eq_false.mp shape c member
  cases control : isControl c with
  | false => exact .inl control
  | true => exact .inr (by simpa [control] using quiet)

theorem not_mem_of_newline (shape : (TextShape.ofText text).newline = false) : '\n' ∉ text := by
  intro member
  have held : text.contains '\n' = true := List.contains_iff_mem.mpr member
  rw [show text.contains '\n' = false from shape] at held
  cases held

theorem not_isControl_of_shape (control : (TextShape.ofText text).control = false)
    (newline : (TextShape.ofText text).newline = false) : ∀ c ∈ text, isControl c = false := by
  intro c member
  refine (isLiteral_of_control control c member).resolve_right fun ends => ?_
  exact not_mem_of_newline newline (ends ▸ member)

/-- A text without escapes on one line is not taken for one on several lines. -/
theorem text_literalLine (inhabited : text ≠ [])
    (control : (TextShape.ofText text).control = false)
    (newline : (TextShape.ofText text).newline = false)
    (quotes : (TextShape.ofText text).singleQuotes = 0) :
    Toml.text ('\'' :: text ++ ['\''] ++ rest) = some (text, rest) := by
  have unquoted : '\'' ∉ text := not_mem_of_longestRun text 0 quotes
  have visible := not_isControl_of_shape control newline
  obtain ⟨c, more, rfl⟩ := List.exists_cons_of_ne_nil inhabited
  have different : c ≠ '\'' := fun same => unquoted (same ▸ List.mem_cons_self)
  rw [List.append_assoc, List.singleton_append]
  exact (orElse_of_refused (basicLines_of_ne (by decide) _)).trans
    ((orElse_of_refused
      (bind_of_refused (exactly_quotes_of_head?_ne (by simpa using different)))).trans
    ((orElse_of_refused (basicLine_of_ne (by decide) _)).trans
      (literalLine_append visible unquoted rest)))

/-- A written text is read back before anything that is no quote. -/
theorem text_writeText (text : List Char)
    (ends : ∀ c ∈ rest.head?, c ≠ '"' ∧ c ≠ '\'') :
    Toml.text (writeText text ++ rest) = some (text, rest) := by
  have noQuote : rest.head? ≠ some '"' := fun same => (ends '"' same).1 rfl
  have noApostrophe : rest.head? ≠ some '\'' := fun same => (ends '\'' same).2 rfl
  unfold writeText
  simp only []
  split
  next => exact text_writeBasic noQuote
  next notPlain =>
    split
    next shape =>
      simp only [Bool.and_eq_true, Bool.not_eq_true', decide_eq_true_eq] at shape
      have inhabited : text ≠ [] := by
        rintro rfl
        exact notPlain rfl
      exact text_literalLine inhabited shape.1.1 shape.1.2 shape.2
    next =>
      split
      next =>
        exact orElse_of_taken (basicLines_encloseLines not_mem_of_newline noQuote)
      next =>
        split
        next shape =>
          simp only [Bool.and_eq_true, Bool.not_eq_true', decide_eq_true_eq] at shape
          exact (orElse_of_refused (basicLines_of_ne (by decide) _)).trans
            (orElse_of_taken (literalLines_encloseLines not_mem_of_newline
              (isLiteral_of_control shape.1) shape.2 noApostrophe))
        next =>
          split
          next => exact orElse_of_taken (basicLines_encloseLines nofun noQuote)
          next => exact text_writeBasic noQuote

theorem textLine_of_ne (noQuote : c ≠ '"') (noApostrophe : c ≠ '\'') (rest : List Char) :
    textLine (c :: rest) = none :=
  (orElse_of_refused (basicLine_of_ne noQuote rest)).trans
    (bind_of_refused (char_of_ne noApostrophe rest))

theorem text_of_ne (noQuote : c ≠ '"') (noApostrophe : c ≠ '\'') (rest : List Char) :
    Toml.text (c :: rest) = none :=
  (orElse_of_refused (basicLines_of_ne noQuote rest)).trans
    ((orElse_of_refused (bind_of_refused (exactly_of_ne noApostrophe _ rest))).trans
    (textLine_of_ne noQuote noApostrophe rest))

end FacetSearch.Toml
