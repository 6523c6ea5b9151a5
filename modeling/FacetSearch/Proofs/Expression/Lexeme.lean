import Mathlib
import FacetSearch.Expression.Parser
import FacetSearch.Expression.Printer

/-!
Texts of tokens. `Spells` says that a text is taken apart into tokens wherever a delimiter follows
it, and `wellFormed_of_scan` which tokens there are.
-/

set_option autoImplicit false

/-- What holds of all characters of a text is decided by running through the text. -/
theorem FacetSearch.Text.forall_of_all {good : Char → Prop} [DecidablePred good]
    {text : List Char} (checked : text.all (fun c => decide (good c)) = true) :
    ∀ c ∈ text, good c := by
  intro c member
  exact of_decide_eq_true (List.all_eq_true.mp checked c member)

namespace FacetSearch.Token

/-- The tokens of a text, wherever it starts. -/
def Scans (text : List Char) (tokens : List Token) : Prop :=
  ∀ position, ∃ located, scan position text = .ok located ∧ located.map Located.token = tokens

theorem tokenize_of_scans {input : String} {tokens : List Token}
    (scans : Scans input.toList tokens) : tokenize input = .ok tokens := by
  obtain ⟨located, scanned, rfl⟩ := scans 0
  unfold tokenize
  rw [scanned]

theorem scans_nil : Scans [] [] := by
  intro position
  exact ⟨[], by rw [scan], rfl⟩

theorem Scans.cons {first : Char} {rest after : List Char} {token : Token} {tokens : List Token}
    (visible : Text.isBlank first = false) (taken : take first rest = .ok (token, after))
    (onward : Scans after tokens) : Scans (first :: rest) (token :: tokens) := by
  intro position
  obtain ⟨located, scanned, rfl⟩ :=
    onward (position + (Text.byteLength (first :: rest) - Text.byteLength after))
  refine ⟨⟨token, position⟩ :: located, ?_, rfl⟩
  rw [scan, visible]
  simp only [Bool.false_eq_true, ↓reduceIte]
  split
  · rename_i flaw failed
    cases taken.symm.trans failed
  · rename_i other tail found
    cases taken.symm.trans found
    simp only [scanned, Except.map]

/-- A word ends here: at the end of the text, at a blank or at a reserved character. -/
def Delimited (rest : List Char) : Prop := ∀ c more, rest = c :: more → isWordChar c = false

theorem delimited_nil : Delimited [] := nofun

theorem delimited_cons {c : Char} (ends : isWordChar c = false) (rest : List Char) :
    Delimited (c :: rest) := by
  rintro other more equal
  cases equal
  exact ends

theorem takeWhile_append_eq {keep : Char → Bool} {word rest : List Char}
    (kept : ∀ c ∈ word, keep c = true)
    (ends : ∀ c more, rest = c :: more → keep c = false) :
    (word ++ rest).takeWhile keep = word := by
  rw [List.takeWhile_append_of_pos kept]
  cases rest with
  | nil => rw [List.takeWhile_nil, List.append_nil]
  | cons c more =>
      rw [List.takeWhile_cons_of_neg (by simp [ends c more rfl]), List.append_nil]

theorem dropWhile_append_eq {keep : Char → Bool} {word rest : List Char}
    (kept : ∀ c ∈ word, keep c = true)
    (ends : ∀ c more, rest = c :: more → keep c = false) :
    (word ++ rest).dropWhile keep = rest := by
  rw [List.dropWhile_append_of_pos kept]
  cases rest with
  | nil => rfl
  | cons c more => exact List.dropWhile_cons_of_neg (by simp [ends c more rfl])

theorem isWordChar_iff {c : Char} :
    isWordChar c = true ↔ Text.isBlank c = false ∧ isReserved c = false := by
  simp only [isWordChar, Bool.and_eq_true, Bool.not_eq_true']

/-- A character that starts a word starts no other token. -/
theorem take_of_isWordChar {first : Char} (wordChar : isWordChar first = true) (rest : List Char) :
    take first rest =
      .ok (word (String.ofList (first :: rest.takeWhile isWordChar)),
        rest.dropWhile isWordChar) := by
  have plain := (isWordChar_iff.mp wordChar).2
  have unlike : ∀ c, isReserved c = true → first ≠ c := by
    rintro c reserved rfl
    rw [plain] at reserved
    cases reserved
  have quotes : ¬ (first = '"' ∨ first = '\'') :=
    not_or.mpr ⟨unlike '"' (by decide), unlike '\'' (by decide)⟩
  simp only [take, plain, unlike '(' (by decide), unlike ')' (by decide), unlike ';' (by decide),
    unlike ',' (by decide), quotes, Bool.false_eq_true, ↓reduceIte]

theorem Scans.word {text rest : List Char} {tokens : List Token} (named : text ≠ [])
    (plain : ∀ c ∈ text, isWordChar c = true) (ends : Delimited rest)
    (onward : Scans rest tokens) : Scans (text ++ rest) (.word (String.ofList text) :: tokens) := by
  cases text with
  | nil => exact absurd rfl named
  | cons first others =>
      have kept : ∀ c ∈ others, isWordChar c = true := fun c member =>
        plain c (List.mem_cons_of_mem first member)
      have taken := take_of_isWordChar (plain first List.mem_cons_self) (others ++ rest)
      rw [takeWhile_append_eq kept ends, dropWhile_append_eq kept ends] at taken
      exact .cons (isWordChar_iff.mp (plain first List.mem_cons_self)).1 taken onward

theorem Scans.quoted (text : List Char) {rest : List Char} {tokens : List Token}
    (onward : Scans rest tokens) :
    Scans (Text.Quoted.enclose '"' text ++ rest) (.quoted (String.ofList text) :: tokens) := by
  have read := Text.Quoted.read_escape '"' (by decide) text rest
  have taken : take '"' (Text.Quoted.escape '"' text ++ '"' :: rest)
      = .ok (.quoted (String.ofList text), rest) := by
    simp [take, read]
  rw [Text.Quoted.enclose, List.cons_append, List.append_assoc]
  exact .cons (by decide) taken onward

/-- Operators that stand between equals signs. -/
def IsNamed (symbol : String) : Prop :=
  ∃ letters, symbol.toList = '=' :: (letters ++ ['=']) ∧ ∀ c ∈ letters, c.isAlpha = true

theorem Scans.named {symbol : String} {rest : List Char} {tokens : List Token}
    (named : IsNamed symbol) (onward : Scans rest tokens) :
    Scans (symbol.toList ++ rest) (.operator symbol :: tokens) := by
  obtain ⟨letters, spelled, alphabetic⟩ := named
  have ends : ∀ c more, '=' :: rest = c :: more → c.isAlpha = false := by
    rintro c more equal
    cases equal
    rfl
  have operator : takeOperator '=' (letters ++ '=' :: rest)
      = .ok (.operator (String.ofList ('=' :: (letters ++ ['=']))), rest) := by
    simp [takeOperator, takeWhile_append_eq alphabetic ends, dropWhile_append_eq alphabetic ends]
  have reserved : isReserved '=' = true := by decide
  have taken : take '=' (letters ++ '=' :: rest) = .ok (.operator symbol, rest) := by
    rw [← spelled, String.ofList_toList] at operator
    simp [take, reserved, operator]
  rw [spelled, List.cons_append, List.append_assoc]
  exact .cons (by decide) taken onward

theorem Scans.unequal {rest : List Char} {tokens : List Token} (onward : Scans rest tokens) :
    Scans ("!=".toList ++ rest) (.operator "!=" :: tokens) := by
  have reserved : isReserved '!' = true := by decide
  have taken : take '!' ('=' :: rest) = .ok (.operator "!=", rest) := by
    simp [take, takeOperator, reserved]
  exact .cons (by decide) taken onward

/-- A text falls apart into tokens, whatever follows it behind a delimiter. -/
def Spells (text : List Char) (tokens : List Token) : Prop :=
  ∀ rest more, Delimited rest → Scans rest more → Scans (text ++ rest) (tokens ++ more)

theorem Spells.scans {text : List Char} {tokens : List Token} (spells : Spells text tokens) :
    Scans text tokens := by
  have alone := spells [] [] delimited_nil scans_nil
  rwa [List.append_nil, List.append_nil] at alone

/-- Texts that a reserved character keeps apart. -/
theorem Spells.append {front back : List Char} {first second : List Token}
    (one : Spells front first) (other : Spells back second)
    (apart : ∀ rest, Delimited rest → Delimited (back ++ rest)) :
    Spells (front ++ back) (first ++ second) := by
  intro rest more ends onward
  rw [List.append_assoc, List.append_assoc]
  exact one _ _ (apart rest ends) (other rest more ends onward)

theorem spells_of_take {c : Char} {token : Token} (visible : Text.isBlank c = false)
    (taken : ∀ rest, take c rest = .ok (token, rest)) {text : List Char} {tokens : List Token}
    (spells : Spells text tokens) : Spells (c :: text) (token :: tokens) := by
  intro rest more ends onward
  exact .cons visible (taken _) (spells rest more ends onward)

theorem spells_nil : Spells [] [] := fun _ _ _ onward => onward

theorem Spells.opening {text : List Char} {tokens : List Token} (spells : Spells text tokens) :
    Spells ('(' :: text) (.opening :: tokens) :=
  spells_of_take (by decide) (fun _ => rfl) spells

theorem Spells.comma {text : List Char} {tokens : List Token} (spells : Spells text tokens) :
    Spells (',' :: text) (.comma :: tokens) :=
  spells_of_take (by decide) (fun _ => rfl) spells

theorem Spells.semicolon {text : List Char} {tokens : List Token} (spells : Spells text tokens) :
    Spells (';' :: text) (.semicolon :: tokens) :=
  spells_of_take (by decide) (fun _ => rfl) spells

theorem Spells.closed {text : List Char} {tokens : List Token} (spells : Spells text tokens) :
    Spells (text ++ [')']) (tokens ++ [.closing]) :=
  spells.append (spells_of_take (by decide) (fun _ => rfl) spells_nil)
    fun rest _ => delimited_cons (by decide) rest

/-- Which tokens there are: words are runs of word characters, operators are comparison signs or
stand between equals signs. -/
def WellFormed : Token → Prop
  | .word text => text.toList ≠ [] ∧ ∀ c ∈ text.toList, isWordChar c = true
  | .operator symbol => symbol ∈ ["<", "<=", ">", ">=", "!="] ∨ IsNamed symbol
  | _ => True

theorem wellFormed_of_takeOperator {first : Char} {rest after : List Char} {token : Token}
    (sign : first = '<' ∨ first = '>' ∨ first = '!' ∨ first = '=')
    (taken : takeOperator first rest = .ok (token, after)) : token.WellFormed := by
  unfold takeOperator at taken
  split at taken
  · rename_i angle
    split at taken <;> cases taken
    · rcases angle with rfl | rfl <;> exact .inl (by decide)
    · rcases angle with rfl | rfl <;> exact .inl (by decide)
  · rename_i angle
    split at taken
    · split at taken <;> cases taken
      exact .inl (by decide)
    · rename_i exclamation
      split at taken <;> cases taken
      refine .inr ⟨rest.takeWhile Char.isAlpha, ?_, fun c member => ?_⟩
      · have equals : first = '=' := by
          rcases sign with rfl | rfl | rfl | rfl
          · exact absurd (.inl rfl) angle
          · exact absurd (.inr rfl) angle
          · exact absurd rfl exclamation
          · rfl
        rw [String.toList_ofList, equals]
      · exact List.all_eq_true.mp List.all_takeWhile c member

theorem wellFormed_of_take {first : Char} {rest after : List Char} {token : Token}
    (visible : Text.isBlank first = false) (taken : take first rest = .ok (token, after)) :
    token.WellFormed := by
  unfold take at taken
  split at taken
  · cases taken; trivial
  split at taken
  · cases taken; trivial
  split at taken
  · cases taken; trivial
  split at taken
  · cases taken; trivial
  split at taken
  · split at taken <;> cases taken
    trivial
  rename_i opening closing semicolon comma quote
  split at taken
  · rename_i reserved
    refine wellFormed_of_takeOperator ?_ taken
    simp only [isReserved, List.contains_cons, List.contains_nil, Bool.or_eq_true, beq_iff_eq,
      Bool.false_eq_true, or_false] at reserved
    grind
  · rename_i plain
    cases taken
    refine ⟨by rw [String.toList_ofList]; exact List.cons_ne_nil _ _, fun c member => ?_⟩
    rw [String.toList_ofList] at member
    rcases List.mem_cons.mp member with rfl | member
    · exact isWordChar_iff.mpr ⟨visible, Bool.not_eq_true _ ▸ plain⟩
    · exact List.all_eq_true.mp List.all_takeWhile c member

theorem wellFormed_of_scan {position : Nat} {text : List Char} {located : List Located}
    (scanned : scan position text = .ok located) :
    ∀ token ∈ located.map Located.token, token.WellFormed := by
  fun_induction scan position text generalizing located with
  | case1 =>
      cases scanned
      exact nofun
  | case2 position first rest blank ih => exact ih scanned
  | case3 => cases scanned
  | case4 position first rest visible token after taken length =>
      rename_i ih
      generalize result : scan _ after = scanning at scanned
      cases scanning with
      | error failure => cases scanned
      | ok tail =>
          cases scanned
          intro other member
          rw [List.map_cons] at member
          rcases List.mem_cons.mp member with rfl | member
          · exact wellFormed_of_take (Bool.not_eq_true _ ▸ visible) taken
          · exact ih result other member

end FacetSearch.Token
