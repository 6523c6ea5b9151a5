import FacetSearch.Proofs.Expression.Rewording
import FacetSearch.Proofs.Text.Occurrence

/-!
Whether the hint of an error fits the failure of the text. A hint is chosen by phrases that occur in
the message, and a message may show words and values of the user. Phrases with a blank cannot lie
across a quote or a parenthesis of the message, nor within a text without blanks
(`Hint.quiet_of_enclosed`), so most messages call for what their own wording says. The others are
those where a parenthesis closes nothing, a list is given to an operator that takes one argument, or
a text is left over: there, and only there, the hint does not fit (`Grammar.hintFits_iff`).
-/

set_option autoImplicit false

namespace FacetSearch

namespace Text

/-- What is no hexadecimal digit stands in no hexadecimal number. -/
theorem notMem_toDigits {c : Char} (other : ∀ d < 16, c ≠ Nat.digitChar d) (n : Nat) :
    c ∉ Nat.toDigits 16 n := by
  induction n using Nat.strongRecOn with
  | ind n ih =>
      by_cases small : n < 16
      · rw [Nat.toDigits_of_lt_base small, List.mem_singleton]
        exact other n small
      · rw [Nat.toDigits_of_base_le (by decide) (by omega), List.mem_append, not_or]
        exact ⟨ih (n / 16) (by omega), by
          rw [List.mem_singleton]; exact other _ (Nat.mod_lt _ (by decide))⟩

/-- A literal shows a blank only for a blank. -/
theorem eq_of_blank_mem_literalChar {c : Char} (blank : ' ' ∈ literalChar c) : c = ' ' := by
  unfold literalChar at blank
  split at blank
  case h_7 =>
    split at blank
    · exact (List.mem_singleton.mp blank).symm
    · have other : ∀ d < 16, ' ' ≠ Nat.digitChar d := by decide
      simp [notMem_toDigits other] at blank
  all_goals exact absurd blank (by decide)

theorem blank_notMem_literal {text : List Char} (plain : ' ' ∉ text) :
    ' ' ∉ text.flatMap literalChar := by
  intro blank
  obtain ⟨c, member, shown⟩ := List.mem_flatMap.mp blank
  exact plain (eq_of_blank_mem_literalChar shown ▸ member)

end Text

namespace Hint

/-- None of the phrases occurs that a hint goes by, but for the word that calls for the form of a
comparison. -/
def Quiet (message : List Char) : Prop :=
  Text.contains "unclosed quote".toList message = false ∧
    Text.contains "closing parenthesis".toList message = false ∧
    Text.contains "single argument".toList message = false

instance (message : List Char) : Decidable (Quiet message) :=
  inferInstanceAs (Decidable (_ ∧ _ ∧ _))

variable {message : String} {sign : Char} {front text back phrase : List Char}

theorem ofMessage?_of_quiet (quiet : Quiet message.toList) :
    ofMessage? message =
      if Text.contains "operator".toList message.toList then some comparisonForm else none := by
  obtain ⟨unclosed, closing, single⟩ := quiet
  simp only [ofMessage?, unclosed, closing, single, Bool.false_eq_true, if_false]

/-- What stands between quotes is quiet if it has no blank. -/
theorem quiet_of_enclosed (quote : sign = '"' ∨ sign = '\'') (plain : ' ' ∉ text)
    (before : Quiet front) (behind : Quiet back) :
    Quiet (front ++ sign :: (text ++ sign :: back)) := by
  have enclosed {phrase : List Char} (blank : ' ' ∈ phrase) (unquoted : '"' ∉ phrase ∧
      '\'' ∉ phrase)
      (one : Text.contains phrase front = false) (other : Text.contains phrase back = false) :
      Text.contains phrase (front ++ sign :: (text ++ sign :: back)) = false := by
    have absent : sign ∉ phrase := by
      rcases quote with rfl | rfl
      · exact unquoted.1
      · exact unquoted.2
    rw [Text.contains_enclosed absent blank plain, one, other]
    rfl
  exact ⟨enclosed (by decide) (by decide) before.1 behind.1,
    enclosed (by decide) (by decide) before.2.1 behind.2.1,
    enclosed (by decide) (by decide) before.2.2 behind.2.2⟩

theorem ofMessage?_of_operator (quiet : Quiet message.toList)
    (mentions : Text.contains "operator".toList message.toList = true) :
    ofMessage? message = some comparisonForm := by
  rw [ofMessage?_of_quiet quiet, if_pos mentions]

theorem eq_comparisonForm_of_quiet (quiet : Quiet message.toList) {hint : Hint}
    (found : ofMessage? message = some hint) : hint = comparisonForm := by
  rw [ofMessage?_of_quiet quiet] at found
  split_ifs at found
  exact (Option.some.inj found).symm

theorem quiet_label {front symbol : String} (plain : ' ' ∉ symbol.toList)
    (before : Quiet (front ++ "Operator(").toList) :
    Quiet (front ++ (Token.operator symbol).label).toList := by
  have whole : (front ++ (Token.operator symbol).label).toList = (front ++ "Operator(").toList ++
      '"' :: (symbol.toList.flatMap Text.literalChar ++ '"' :: [')']) := by
    simp [Token.label, Text.literal]
  rw [whole]
  exact quiet_of_enclosed (.inl rfl) (Text.blank_notMem_literal plain) before (by decide)

/-- A text between apostrophes behind a wording about operators calls for the form of a
comparison. -/
theorem ofMessage?_of_apostrophes {opening text : String} {front : List Char}
    (opened : opening.toList = front ++ ['\'']) (before : Quiet front)
    (mentions : Text.contains "operator".toList front = true) (plain : ' ' ∉ text.toList) :
    ofMessage? (opening ++ text ++ "'") = some comparisonForm := by
  have whole : (opening ++ text ++ "'").toList = front ++ '\'' :: (text.toList ++ '\'' :: []) := by
    simp [opened]
  refine ofMessage?_of_operator ?_ ?_
  · rw [whole]
    exact quiet_of_enclosed (.inr rfl) plain before (by decide)
  · rw [whole, Text.contains_append_cons (by decide) (by decide), mentions, Bool.true_or]

theorem ofMessage?_missingOperator {field : String} (plain : ' ' ∉ field.toList) :
    ofMessage? (SyntaxFlaw.missingOperator field).message = some comparisonForm := by
  have opened : "expected comparison operator after '".toList =
      "expected comparison operator after ".toList ++ ['\''] := by decide
  exact ofMessage?_of_apostrophes opened (by decide) (by decide) plain

theorem ofMessage?_brokenOperator {symbol : String} (plain : ' ' ∉ symbol.toList) :
    ofMessage? (SyntaxFlaw.lexical (.brokenOperator symbol)).message = some comparisonForm := by
  have opened : "invalid comparison operator '".toList
      = "invalid comparison operator ".toList ++ ['\''] := by
    decide
  exact ofMessage?_of_apostrophes opened (by decide) (by decide) plain

/-- The word operator is looked for before what calls for a single argument. -/
theorem ofMessage?_ne_singleArgument
    (mentions : Text.contains "operator".toList message.toList = true) :
    ofMessage? message ≠ some singleArgument := by
  simp only [ofMessage?, mentions, if_true]
  split_ifs <;> simp

theorem ofMessage?_listNotAccepted (operator : Operator) :
    ofMessage? (SyntaxFlaw.listNotAccepted operator).message ≠ some singleArgument := by
  have begins : "operator".toList <+: "operator ".toList := by decide
  have mentions : Text.contains "operator".toList
      ("operator " ++ operator.symbol ++ " expects a single argument, not a list").toList
        = true := by
    rw [Text.contains_iff, String.toList_append, String.toList_append, List.append_assoc]
    exact (begins.trans (List.prefix_append _ _)).isInfix
  exact ofMessage?_ne_singleArgument mentions

end Hint

namespace Grammar

open Expression (State)
open Expression.State (Refusal Refuses)

variable {before : List Token} {reached : State} {next : Option Token} {flaw : SyntaxFlaw}

theorem blank_notMem_word {text : String} (formed : (Token.word text).WellFormed) :
    ' ' ∉ text.toList :=
  fun blank => absurd (formed.2 ' ' blank) (by decide)

theorem blank_notMem_operator {symbol : String} (formed : (Token.operator symbol).WellFormed) :
    ' ' ∉ symbol.toList := by
  rcases formed with known | ⟨letters, spelled, alphabetic⟩
  · intro blank
    revert symbol
    decide
  · rw [spelled]
    intro blank
    simp only [List.mem_cons, List.mem_append, List.not_mem_nil, or_false] at blank
    rcases blank with equals | letter | equals
    · cases equals
    · cases alphabetic ' ' letter
    · cases equals

/-- Tokens that the user does not write himself are shown in quiet words. -/
theorem quiet_token {front : String} {token : Token} (formed : token.WellFormed)
    (other : ∀ text, token ≠ .word text ∧ token ≠ .quoted text)
    (before : ∀ label ∈ ["Operator(", "LParen", "RParen", "Semicolon", "Comma"],
      Hint.Quiet (front ++ label).toList) : Hint.Quiet (front ++ token.label).toList := by
  cases token with
  | word text => exact absurd rfl (other text).1
  | quoted text => exact absurd rfl (other text).2
  | operator symbol => exact Hint.quiet_label (blank_notMem_operator formed) (before _ (by simp))
  | _ => exact before _ (by simp [Token.label])

/-- A flaw that shows no text of the user but a field, and does not come from a list, calls for
nothing but the form of a comparison, unless it is about a closing parenthesis. -/
theorem eq_comparisonForm_of_refusal
    (formed : ∀ token ∈ before ++ next.toList, token.WellFormed)
    (leads : State.start.Leads before reached) (refusal : Refusal reached next flaw)
    (texts : ∀ text, ¬ Shows text flaw)
    (single : ∀ operator, flaw ≠ .listNotAccepted operator) :
    flaw = .unexpectedClosing ∨ flaw = .unclosedParenthesis ∨
      ∀ hint, Hint.ofMessage? flaw.message = some hint → hint = .comparisonForm := by
  have refused {token : Token} (same : next = some token) : token.WellFormed :=
    formed token (by simp [same])
  have quietly (quiet : Hint.Quiet flaw.message.toList) :
      flaw = .unexpectedClosing ∨ flaw = .unclosedParenthesis ∨
        ∀ hint, Hint.ofMessage? flaw.message = some hint → hint = .comparisonForm :=
    .inr (.inr fun _ => Hint.eq_comparisonForm_of_quiet quiet)
  cases refusal with
  | closing => exact .inl rfl
  | listEnd | group => exact .inr (.inl rfl)
  | separator | constraint | arguments | listArgument => exact quietly (by decide)
  | quoted _ _ text => exact absurd .selector (texts text)
  | symbol => exact quietly (quiet_token (refused rfl) (fun _ => ⟨nofun, nofun⟩) (by decide))
  | operator level outer field =>
      obtain ⟨earlier, rfl⟩ := State.exists_field leads
      have word : (Token.word field).WellFormed := formed _ (by simp)
      refine .inr (.inr fun hint found => ?_)
      rw [Hint.ofMessage?_missingOperator (blank_notMem_word word)] at found
      exact (Option.some.inj found).symm
  | list => exact absurd rfl (single _)
  | argument _ _ _ _ other => exact quietly (quiet_token (refused rfl) other.2 (by decide))
  | listed _ _ _ _ _ other => exact quietly (quiet_token (refused rfl) other (by decide))
  | @beyond _ token other =>
      refine quietly (quiet_token (refused rfl) (fun text => ⟨?_, ?_⟩) (by decide))
      · rintro rfl
        exact texts text .word
      · rintro rfl
        exact texts text .quoted

variable {input other : String} {error again : QueryError} {place : Nat}

theorem wellFormed_of_tokenize {tokens : List Token}
    (tokenized : Token.tokenize input = .ok tokens) : ∀ token ∈ tokens, token.WellFormed := by
  obtain ⟨located, scanned, rfl⟩ := (Expression.tokenize_eq_ok_iff _ _).mp tokenized
  exact Token.wellFormed_of_scan scanned

theorem Stuck.wellFormed (stuck : Stuck input before next) :
    ∀ token ∈ before ++ next.toList, token.WellFormed := by
  obtain ⟨after, tokenized, -⟩ := stuck.exists_tokens
  intro token member
  refine wellFormed_of_tokenize tokenized token ?_
  rw [← List.append_assoc]
  exact List.mem_append_left after member

theorem suggestion_report (input : String) (flaw : SyntaxFlaw) (place : Nat) :
    (Expression.report input flaw place).suggestion = Hint.ofMessage? flaw.message := by
  cases flaw <;> rfl

theorem hint_brokenOperator {symbol : String}
    (refused : Expression.read input = .error (.lexical (.brokenOperator symbol), place)) :
    Hint.ofMessage? (SyntaxFlaw.lexical (.brokenOperator symbol)).message
      = some .comparisonForm := by
  rcases exists_stuck refused with ⟨broken, same, scanned⟩ | ⟨_, _, _, _, _, refuses⟩
  · cases same
    obtain ⟨front, first, rest, tokens, -, -, failed⟩ := exists_unread scanned
    rcases Token.unclosed_or_broken_of_take failed with ⟨same, -⟩ | ⟨other, same, visible⟩
    · cases same
    · cases same
      exact Hint.ofMessage?_brokenOperator fun blank => absurd (visible ' ' blank) (by decide)
  · cases State.refusal_of_refuses refuses

theorem hint_missingOperator {field : String}
    (refused : Expression.read input = .error (.missingOperator field, place)) :
    Hint.ofMessage? (SyntaxFlaw.missingOperator field).message = some .comparisonForm := by
  rcases exists_stuck refused with
    ⟨broken, same, -⟩ | ⟨before, next, reached, stuck, leads, refuses⟩
  · cases same
  · cases State.refusal_of_refuses refuses with
    | operator level outer field =>
        obtain ⟨earlier, rfl⟩ := State.exists_field leads
        exact Hint.ofMessage?_missingOperator (blank_notMem_word (stuck.wellFormed _ (by simp)))

theorem exists_lexical {failure : LexError} (failed : Token.tokenize input = .error failure)
    (refused : Expression.read input = .error (flaw, place)) :
    ∃ broken, flaw = .lexical broken := by
  rcases exists_stuck refused with ⟨broken, same, -⟩ | ⟨before, next, reached, stuck, -⟩
  · exact ⟨broken, same⟩
  · obtain ⟨after, tokenized, -⟩ := stuck.exists_tokens
    cases failed.symm.trans tokenized

theorem wellFormed_word {text : String}
    (plain : text.toList ≠ [] ∧ text.toList.all Token.isWordChar = true) :
    (Token.word text).WellFormed :=
  ⟨plain.1, List.all_eq_true.mp plain.2⟩

/-- A hint fits the failure of a text: it says what is missing if and only if that is missing, and
texts with the same failure have the same hint, whatever their fields and values are. -/
structure HintFits (input : String) (error : QueryError) : Prop where
  quote : error.suggestion = some .closeQuote ↔ LeavesQuoteOpen input
  parenthesis : error.suggestion = some .closeParenthesis ↔ StuckWhere input LeavesParenthesisOpen
  list : error.suggestion = some .singleArgument ↔ StuckWhere input OpensList
  /-- Texts of the same tokens but for what fields and values say. -/
  texts : ∀ {tokens twins other again}, Token.tokenize input = .ok tokens →
    Token.tokenize other = .ok twins → Reworded [] tokens twins →
    Expression.parse other = .error again → again.suggestion = error.suggestion
  /-- Texts that do not fall apart into tokens. -/
  breaks : ∀ {failure broken other again}, Token.tokenize input = .error failure →
    Token.tokenize other = .error broken → (LeavesQuoteOpen input ↔ LeavesQuoteOpen other) →
    Expression.parse other = .error again → again.suggestion = error.suggestion

/-- Words and values in the place of a text that is shown. -/
theorem exists_shows {text : String} (refusal : Refusal reached next flaw) (shows : Shows text flaw)
    {reworded : String} (formed : (Token.word reworded).WellFormed)
    (plain : (Token.word reworded).isConjunction = false ∧
      (Token.word reworded).isDisjunction = false) :
    ∃ token twin found, next = some token ∧ token.Alike twin ∧ twin.WellFormed ∧
      reached.JoinAlike token twin ∧ reached.step twin = .error found ∧
      Shows reworded found := by
  cases shows with
  | selector =>
      cases refusal with
      | quoted level outer =>
          exact ⟨_, .quoted reworded, _, rfl, trivial, trivial, nofun, rfl, .selector⟩
  | word =>
      cases refusal with
      | beyond level different =>
          refine ⟨_, .word reworded, _, rfl, trivial, formed, fun _ => ?_,
            (Refusal.beyond level plain).refuses, .word⟩
          rw [different.1, different.2, plain.1, plain.2]
          exact ⟨rfl, rfl⟩
  | quoted =>
      cases refusal with
      | beyond level different =>
          exact ⟨_, .quoted reworded, _, rfl, trivial, trivial, fun _ => ⟨rfl, rfl⟩,
            rfl, .quoted⟩

/-- A text that is shown may be any other one. -/
theorem exists_reworded {text : String} (refused : Expression.read input = .error (flaw, place))
    (shows : Shows text flaw) {reworded : String} (formed : (Token.word reworded).WellFormed)
    (plain : (Token.word reworded).isConjunction = false ∧
      (Token.word reworded).isDisjunction = false) :
    ∃ tokens twins other again found, Token.tokenize input = .ok tokens ∧
      Token.tokenize other = .ok twins ∧
      Reworded [] tokens twins ∧ Expression.parse other = .error again ∧
      Shows reworded found ∧ again.suggestion = Hint.ofMessage? found.message := by
  rcases exists_stuck refused with
    ⟨broken, rfl, -⟩ | ⟨before, next, reached, stuck, leads, refuses⟩
  · cases shows
  obtain ⟨token, twin, found, rfl, alike, whole, join, refused', shown⟩ :=
    exists_shows (State.refusal_of_refuses refuses) shows formed plain
  obtain ⟨after, tokenized, -⟩ := stuck.exists_tokens
  have all := wellFormed_of_tokenize tokenized
  have twins : ∀ token ∈ before ++ twin :: after, token.WellFormed := by
    intro other member
    rcases List.mem_append.mp member with earlier | later
    · exact all other (List.mem_append_left _ earlier)
    · rcases List.mem_cons.mp later with rfl | later
      · exact whole
      · exact all other (by simp [later])
  obtain ⟨other, reread⟩ := Token.exists_tokenize twins
  obtain ⟨stop, unread⟩ := exists_read_eq_error reread leads refused'
  have rejected : Expression.parse other = .error (Expression.report other found stop) := by
    rw [Expression.parse, unread]
    rfl
  have reworded : Reworded [] (before ++ token :: after) (before ++ twin :: after) :=
    .replace after alike fun viable => join ((viable_semicolon_iff leads).mp viable)
  exact ⟨_, _, other, _, found, tokenized, reread, reworded, rejected, shown,
    suggestion_report _ _ _⟩

/-- A text is refused for a quote that nothing closes or a parenthesis that is not closed, each with
its hint, or for something that calls for nothing but the form of a comparison, if no parenthesis
closes nothing, no list is given and no text is left over. -/
theorem hint_cases (refused : Expression.read input = .error (flaw, place))
    (closing : flaw ≠ .unexpectedClosing)
    (single : ∀ operator, flaw ≠ .listNotAccepted operator)
    (texts : ∀ text, ¬ Shows text flaw) :
    flaw = .lexical .unclosedQuote ∨ flaw = .unclosedParenthesis ∨
      (flaw ≠ .lexical .unclosedQuote ∧ flaw ≠ .unclosedParenthesis ∧
        ∀ hint, Hint.ofMessage? flaw.message = some hint → hint = .comparisonForm) := by
  rcases exists_stuck refused with
    ⟨broken, rfl, -⟩ | ⟨before, next, reached, stuck, leads, refuses⟩
  · cases broken with
    | unclosedQuote => exact .inl rfl
    | brokenOperator symbol =>
        refine .inr (.inr ⟨nofun, nofun, fun hint found => ?_⟩)
        rw [hint_brokenOperator refused] at found
        exact (Option.some.inj found).symm
  · have refusal := State.refusal_of_refuses refuses
    rcases eq_comparisonForm_of_refusal stuck.wellFormed leads refusal texts single with
      closes | opened | quiet
    · exact absurd closes closing
    · exact .inr (.inl opened)
    · by_cases opened : flaw = .unclosedParenthesis
      · exact .inr (.inl opened)
      · refine .inr (.inr ⟨?_, opened, quiet⟩)
        rintro rfl
        cases refusal

/-- Where nothing closes too much, no list is given and no text is left over, each of the two flaws
has its hint to itself, and nothing is said about lists. -/
theorem hint_iff_of_refused (refused : Expression.read input = .error (flaw, place))
    (closing : flaw ≠ .unexpectedClosing)
    (single : ∀ operator, flaw ≠ .listNotAccepted operator)
    (texts : ∀ text, ¬ Shows text flaw) :
    (Hint.ofMessage? flaw.message = some .closeQuote ↔ flaw = .lexical .unclosedQuote) ∧
      (Hint.ofMessage? flaw.message = some .closeParenthesis ↔ flaw = .unclosedParenthesis) ∧
      Hint.ofMessage? flaw.message ≠ some .singleArgument := by
  have quote : Hint.ofMessage? (SyntaxFlaw.message (.lexical .unclosedQuote))
      = some .closeQuote := by
    decide
  have parenthesis : Hint.ofMessage? (SyntaxFlaw.message .unclosedParenthesis)
      = some .closeParenthesis := by
    decide
  rcases hint_cases refused closing single texts with rfl | rfl | ⟨noQuote, noParenthesis, form⟩
  · simp [quote]
  · simp [parenthesis]
  · exact ⟨⟨fun found => (nomatch form _ found), fun same => absurd same noQuote⟩,
      ⟨fun found => (nomatch form _ found), fun same => absurd same noParenthesis⟩,
      fun found => (nomatch form _ found)⟩

/-- Whatever the hint is, there is a word that brings another one where it is shown. -/
theorem exists_word_changing (hint : Option Hint) : ∃ word, (Token.word word).WellFormed ∧
    ((Token.word word).isConjunction = false ∧ (Token.word word).isDisjunction = false) ∧
    ∀ flaw, Shows word flaw → Hint.ofMessage? flaw.message ≠ hint := by
  by_cases silent : hint = none
  · -- A word that is taken for the wording of the message.
    refine ⟨"operator", wellFormed_word (by decide), by decide, ?_⟩
    rintro flaw shows rfl
    have calls : Hint.ofMessage? flaw.message = some .comparisonForm := by cases shows <;> decide
    cases silent.symm.trans calls
  · refine ⟨"x", wellFormed_word (by decide), by decide, ?_⟩
    intro flaw shows same
    have calls : Hint.ofMessage? flaw.message = none := by cases shows <;> decide
    exact silent (same.symm.trans calls)

/-- If a text is shown, another one in its place brings another hint. -/
theorem exists_other_hint {text : String} (refused : Expression.read input = .error (flaw, place))
    (shows : Shows text flaw) (hint : Option Hint) :
    ∃ tokens twins other again, Token.tokenize input = .ok tokens ∧
      Token.tokenize other = .ok twins ∧
      Reworded [] tokens twins ∧ Expression.parse other = .error again ∧
      again.suggestion ≠ hint := by
  obtain ⟨word, formed, plain, changes⟩ := exists_word_changing hint
  obtain ⟨tokens, twins, other, again, found, tokenized, reread, reworded, rejected,
      shown, same⟩ :=
    exists_reworded refused shows formed plain
  exact ⟨tokens, twins, other, again, tokenized, reread, reworded, rejected,
    same ▸ changes found shown⟩

/-- Texts that break have one hint, if both of them or neither leaves a quote open. -/
theorem hint_eq_of_broken {broken found : Token.Flaw} {stop : Nat}
    (refused : Expression.read input = .error (.lexical broken, place))
    (again : Expression.read other = .error (.lexical found, stop))
    (quotes : broken = .unclosedQuote ↔ found = .unclosedQuote) :
    Hint.ofMessage? (SyntaxFlaw.lexical found).message =
      Hint.ofMessage? (SyntaxFlaw.lexical broken).message := by
  cases broken with
  | unclosedQuote => rw [quotes.mp rfl]
  | brokenOperator symbol =>
      cases found with
      | unclosedQuote => cases quotes.mpr rfl
      | brokenOperator _ => rw [hint_brokenOperator refused, hint_brokenOperator again]

/-- The hint of an error fits the failure of the text exactly unless a parenthesis is closed where a
comparison has to start, a list is given to an operator that takes one argument, or a word or value
is left over. -/
theorem hintFits_iff (refused : Expression.parse input = .error error) :
    HintFits input error ↔ ¬ StuckWhere input ClosesNothing ∧ ¬ StuckWhere input OpensList ∧
      ¬ StuckWhere input LeavesTextOver := by
  obtain ⟨flaw, place, unread, rfl⟩ := exists_report refused
  have quotes := leavesQuoteOpen_iff unread
  have parentheses : StuckWhere input LeavesParenthesisOpen ↔ flaw = .unclosedParenthesis :=
    stuckWhere_iff unread nofun leavesParenthesisOpen_iff
  have closings : StuckWhere input ClosesNothing ↔ flaw = .unexpectedClosing :=
    stuckWhere_iff unread nofun closesNothing_iff
  have lists : StuckWhere input OpensList ↔ ∃ operator, flaw = .listNotAccepted operator :=
    stuckWhere_iff unread nofun opensList_iff
  have leftovers : StuckWhere input LeavesTextOver ↔ ∃ text, Shows text flaw :=
    stuckWhere_iff unread (by rintro broken ⟨text, ⟨⟩⟩) leavesTextOver_iff
  have hint := suggestion_report input flaw place
  rw [closings, lists, leftovers]
  constructor
  · intro fits
    refine ⟨?_, ?_, ?_⟩
    · rintro rfl
      have closes : Hint.ofMessage? (SyntaxFlaw.message .unexpectedClosing)
          = some .closeParenthesis := by
        decide +kernel
      cases parentheses.mp (fits.parenthesis.mp (hint.trans closes))
    · rintro ⟨operator, rfl⟩
      have single := fits.list.mpr (lists.mpr ⟨operator, rfl⟩)
      exact Hint.ofMessage?_listNotAccepted operator (hint.symm.trans single)
    · rintro ⟨text, shows⟩
      obtain ⟨tokens, twins, other, again, tokenized, reread, reworded, rejected, changed⟩ :=
        exists_other_hint unread shows (Expression.report input flaw place).suggestion
      exact changed (fits.texts tokenized reread reworded rejected)
  · rintro ⟨closing, single, texts⟩
    have listless : ∀ operator, flaw ≠ .listNotAccepted operator :=
      fun operator same => single ⟨operator, same⟩
    have textless : ∀ text, ¬ Shows text flaw := fun text shows => texts ⟨text, shows⟩
    obtain ⟨quote, parenthesis, noList⟩ := hint_iff_of_refused unread closing listless textless
    refine ⟨?_, ?_, ?_, ?_, ?_⟩
    · rw [hint, quotes, quote]
    · rw [hint, parentheses, parenthesis]
    · rw [hint, lists]
      exact ⟨fun found => absurd found noList, fun found => absurd found single⟩
    · intro tokens twins other again tokenized reread reworded rejected
      obtain ⟨found, stop, unread', rfl⟩ := exists_report rejected
      rw [suggestion_report, hint]
      cases sameButField_of_reworded unread unread' tokenized reread reworded textless with
      | same => rfl
      | field => rw [hint_missingOperator unread, hint_missingOperator unread']
    · intro failure broken other again failed failed' alike rejected
      obtain ⟨found, stop, unread', rfl⟩ := exists_report rejected
      rw [suggestion_report, hint]
      rw [quotes, leavesQuoteOpen_iff unread'] at alike
      obtain ⟨one, rfl⟩ := exists_lexical failed unread
      obtain ⟨two, rfl⟩ := exists_lexical failed' unread'
      exact hint_eq_of_broken unread unread' (by simpa using alike)

theorem hintFits_iff_unclosed :
    let error := Expression.report "(operator==1" .unclosedParenthesis 12
    Expression.parse "(operator==1" = .error error ∧ HintFits "(operator==1" error := by
  intro error
  have unread : Expression.read "(operator==1" = .error (.unclosedParenthesis, 12) := by
    decide +kernel
  have refused : Expression.parse "(operator==1" = .error error := by
    rw [Expression.parse, unread]
    rfl
  refine ⟨refused, (hintFits_iff refused).mpr ⟨?_, ?_, ?_⟩⟩
  · rw [stuckWhere_iff unread nofun closesNothing_iff]
    nofun
  · rw [stuckWhere_iff unread nofun opensList_iff]
    nofun
  · rw [stuckWhere_iff unread (by rintro broken ⟨text, ⟨⟩⟩) leavesTextOver_iff]
    rintro ⟨text, ⟨⟩⟩

/-- A list for an operator that takes one argument gets the hint for the form of a comparison. -/
theorem hintFits_fails :
    let error := Expression.report "a==(1,2)" (.listNotAccepted .equal) 3
    Expression.parse "a==(1,2)" = .error error ∧ StuckWhere "a==(1,2)" OpensList ∧
      error.suggestion = some .comparisonForm ∧ ¬ HintFits "a==(1,2)" error := by
  intro error
  have unread : Expression.read "a==(1,2)" = .error (.listNotAccepted .equal, 3) := by
    decide +kernel
  have refused : Expression.parse "a==(1,2)" = .error error := by
    rw [Expression.parse, unread]
    rfl
  have opens : StuckWhere "a==(1,2)" OpensList :=
    (stuckWhere_iff unread nofun opensList_iff).mpr ⟨.equal, rfl⟩
  have hint : error.suggestion = some .comparisonForm := by
    rw [suggestion_report]
    decide +kernel
  refine ⟨refused, opens, hint, fun fits => ?_⟩
  cases hint.symm.trans (fits.list.mpr opens)

end Grammar

end FacetSearch
