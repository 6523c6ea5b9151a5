import FacetSearch.Proofs.Expression.Refusal
import FacetSearch.Proofs.Expression.TokenText
import FacetSearch.Proofs.Expression.Viability

/-!
Why the reader refuses a text, in terms of the grammar alone. The reader is stuck at one place only
(`Grammar.Stuck.unique`), and what could have stood there tells the flaws apart: a parenthesis is
not closed exactly where closing it would have been right (`Grammar.leavesParenthesisOpen_iff`), and
so on for each kind of flaw.
-/

set_option autoImplicit false

namespace FacetSearch

namespace Grammar

open Expression (State)
open Expression.State (Refusal Refuses)

variable {before : List Token} {reached : State} {next : Option Token} {flaw : SyntaxFlaw}

/-- Behind these tokens a comparison may start. -/
def StartsComparison (before : List Token) : Prop :=
  ∃ field symbol, Viable (before ++ [.word field, .operator symbol])

/-- These tokens form an expression. -/
def Complete (tokens : List Token) : Prop :=
  ∃ derivation : Alternatives, derivation.tokens = tokens

theorem viable_append_iff (leads : State.start.Leads before reached) (more : List Token) :
    Viable (before ++ more) ↔ ∃ final, reached.Leads more final := by
  constructor
  · rintro ⟨rest, derivation, same⟩
    have reads := derivation.reads
    rw [same] at reads
    obtain ⟨final, through⟩ := State.exists_leads_of_reads reads
    obtain ⟨again, one, other⟩ := through.exists_of_append
    rw [leads.unique one]
    exact ⟨final, other⟩
  · rintro ⟨final, onward⟩
    exact viable_of_leads (leads.trans onward)

theorem viable_token_iff (leads : State.start.Leads before reached) (token : Token) :
    Viable (before ++ [token]) ↔ ∃ final, reached.step token = .ok final := by
  simp only [viable_append_iff leads, State.leads_singleton_iff]

theorem complete_iff (leads : State.start.Leads before reached) :
    Complete before ↔ ∃ expression, reached.finish = .ok expression := by
  constructor
  · rintro ⟨derivation, same⟩
    have reads := derivation.reads
    rw [same, ← List.append_nil before, leads.reads_iff] at reads
    exact ⟨_, reads⟩
  · rintro ⟨expression, ended⟩
    have reads : State.start.Reads (before ++ []) expression := leads.reads_iff.mpr ended
    rw [List.append_nil] at reads
    obtain ⟨derivation, same, -⟩ := exists_derivation reads
    exact ⟨derivation, same⟩

theorem startsComparison_iff (leads : State.start.Leads before reached) :
    StartsComparison before ↔ reached.expected = .constraint := by
  simp only [StartsComparison, viable_append_iff leads]
  constructor
  · rintro ⟨field, symbol, final, onward⟩
    cases onward with
    | step next stepped later =>
        obtain ⟨other, expects⟩ :=
          State.exists_expected_operator (State.leads_singleton_iff.mp later)
        obtain ⟨expected, level, outer⟩ := next
        cases expects
        cases State.progress_of_step stepped
        rfl
  · intro expects
    obtain ⟨expected, level, outer⟩ := reached
    cases expects
    exact ⟨"a", "==", _, .step ⟨.operator "a", level, outer⟩ rfl (.single rfl)⟩

/-- The tokens of a text up to the first one with which no expression goes on, and that one; or all
tokens, if none of the expressions that go on with them ends there. -/
def Stuck (input : String) (before : List Token) (next : Option Token) : Prop :=
  Viable before ∧ match next with
    | some token => (∃ after, Token.tokenize input = .ok (before ++ token :: after)) ∧
        ¬ Viable (before ++ [token])
    | none => Token.tokenize input = .ok before ∧ ¬ Complete before

variable {input : String} {other : List Token} {last : Option Token} {place : Nat}

theorem Stuck.exists_tokens (stuck : Stuck input before next) :
    ∃ after, Token.tokenize input = .ok (before ++ (next.toList ++ after)) ∧
      (next = none → after = []) := by
  cases next with
  | none =>
      refine ⟨[], ?_, fun _ => rfl⟩
      rw [Option.toList_none, List.append_nil, List.append_nil]
      exact stuck.2.1
  | some token =>
      obtain ⟨after, tokenized⟩ := stuck.2.1
      exact ⟨after, tokenized, nofun⟩

/-- Tokens up to another place are no more: the one that is refused here would be among them. -/
theorem Stuck.length_le (stuck : Stuck input before next) (again : Stuck input other last) :
    other.length ≤ before.length := by
  obtain ⟨after, tokenized, ends⟩ := stuck.exists_tokens
  obtain ⟨more, same, -⟩ := again.exists_tokens
  have whole := Except.ok.inj (tokenized.symm.trans same)
  by_contra longer
  cases next with
  | none =>
      have lengths := congrArg List.length whole
      rw [ends rfl, Option.toList_none, List.append_nil, List.append_nil,
        List.length_append] at lengths
      omega
  | some token =>
      have short : (before ++ [token]).length ≤ other.length := by
        rw [List.length_append, List.length_singleton]
        omega
      have begins : before ++ [token] <+: before ++ (Option.toList (some token) ++ after) :=
        ⟨after, by rw [List.append_assoc]; rfl⟩
      obtain ⟨extra, rfl⟩ :=
        List.prefix_of_prefix_length_le begins (whole ▸ List.prefix_append _ _) short
      exact stuck.2.2 again.1.of_append

/-- The reader is stuck at one place only. -/
theorem Stuck.unique (stuck : Stuck input before next) (again : Stuck input other last) :
    before = other ∧ next = last := by
  obtain ⟨after, tokenized, ends⟩ := stuck.exists_tokens
  obtain ⟨more, same, stops⟩ := again.exists_tokens
  have whole := Except.ok.inj (tokenized.symm.trans same)
  have long := Nat.le_antisymm (again.length_le stuck) (stuck.length_le again)
  obtain ⟨rfl, rest⟩ := List.append_inj whole long
  refine ⟨rfl, ?_⟩
  cases next with
  | none =>
      cases last with
      | none => rfl
      | some token =>
          rw [ends rfl] at rest
          cases rest
  | some token =>
      cases last with
      | none =>
          rw [stops rfl] at rest
          cases rest
      | some other => exact congrArg some (List.cons.inj rest).1

/-- A text that does not fall apart into tokens has an offending token behind some others. -/
theorem exists_unread {broken : Token.Flaw}
    (scanned : Token.scan 0 input.toList = .error (broken, place)) :
    ∃ front first rest tokens, input.toList = front ++ first :: rest ∧
      Token.tokenize (String.ofList front) = .ok tokens ∧
      Token.take first rest = .error broken := by
  obtain ⟨tokens, first, rest, splits, failed, -⟩ := Token.splits_of_scan_error scanned
  obtain ⟨front, whole, earlier⟩ := splits.exists_front
  exact ⟨front, first, rest, tokens, whole, tokenize_ofList earlier, failed⟩

/-- Tokens that lead to a state which has something against what comes next. -/
theorem stuck_of_refuses {after : List Token}
    (tokenized : Token.tokenize input = .ok (before ++ (next.toList ++ after)))
    (ends : next = none → after = []) (leads : State.start.Leads before reached)
    (refuses : Refuses reached next flaw) : Stuck input before next := by
  refine ⟨viable_of_leads leads, ?_⟩
  cases next with
  | none =>
      rw [ends rfl, Option.toList_none, List.append_nil, List.append_nil] at tokenized
      refine ⟨tokenized, ?_⟩
      rintro ⟨derivation, same⟩
      exact not_accepted_of_finish leads refuses derivation same
  | some token => exact ⟨⟨after, tokenized⟩, not_viable_of_refused leads refuses []⟩

/-- A text that is refused breaks, or the reader is stuck in a state that has something against what
comes next. -/
theorem exists_stuck (refused : Expression.read input = .error (flaw, place)) :
    (∃ broken, flaw = .lexical broken ∧ Token.scan 0 input.toList = .error (broken, place)) ∨
      ∃ before next reached, Stuck input before next ∧ State.start.Leads before reached ∧
        Refuses reached next flaw := by
  rcases read_eq_error refused with ⟨broken, scanned⟩ | ⟨located, scanned, stuck⟩
  · refine .inl ⟨broken, ?_, scanned⟩
    unfold Expression.read at refused
    rw [scanned] at refused
    cases refused
    rfl
  · right
    have tokenized : Token.tokenize input = .ok (located.map Token.Located.token) :=
      (Expression.tokenize_eq_ok_iff _ _).mpr ⟨located, scanned, rfl⟩
    rcases State.exists_of_run_eq_error stuck with
      ⟨before, token, after, reached, rfl, leads, refuses⟩ | ⟨-, reached, leads, ended⟩
    · rw [List.map_append, List.map_cons] at tokenized
      exact ⟨_, some token, reached, stuck_of_refuses tokenized nofun leads refuses,
        leads, refuses⟩
    · have whole : located.map Token.Located.token ++ (Option.toList none ++ []) =
          located.map Token.Located.token := List.append_nil _
      rw [← whole] at tokenized
      exact ⟨_, none, reached, stuck_of_refuses tokenized (fun _ => rfl) leads ended,
        leads, ended⟩

/-- The flaw of a text is what the state where the reader is stuck has against what comes next. -/
theorem Stuck.flaw_eq {found : SyntaxFlaw} (stuck : Stuck input before next)
    (leads : State.start.Leads before reached) (refuses : Refuses reached next flaw)
    (refused : Expression.read input = .error (found, place)) : found = flaw := by
  rcases exists_stuck refused with
    ⟨broken, -, scanned⟩ | ⟨other, last, again, same, through, refuses'⟩
  · obtain ⟨after, tokenized, -⟩ := stuck.exists_tokens
    obtain ⟨located, found, -⟩ := (Expression.tokenize_eq_ok_iff _ _).mp tokenized
    cases scanned.symm.trans found
  · obtain ⟨rfl, rfl⟩ := stuck.unique same
    rw [leads.unique through] at refuses
    cases next with
    | none => exact Except.error.inj (refuses'.symm.trans refuses)
    | some token => exact Except.error.inj (refuses'.symm.trans refuses)

/-- A text whose reader is stuck at a token is refused for what the state has against the token. -/
theorem exists_read_eq_error {token : Token} {after : List Token}
    (tokenized : Token.tokenize input = .ok (before ++ token :: after))
    (leads : State.start.Leads before reached) (refuses : reached.step token = .error flaw) :
    ∃ place, Expression.read input = .error (flaw, place) := by
  have against : Refuses reached (some token) flaw := refuses
  have stuck : Stuck input before (some token) := stuck_of_refuses tokenized nofun leads against
  have absent : Expression.parse input ≠ .ok none := by
    rw [ne_eq, Expression.parse_eq_none_iff, tokenized]
    simp
  have unread (expression : Expression) : Expression.parse input ≠ .ok (some expression) := by
    rw [ne_eq, Expression.parse_eq_some_iff]
    rintro ⟨tokens, same, reads⟩
    rw [← Except.ok.inj (tokenized.symm.trans same), leads.reads_iff] at reads
    obtain ⟨next, stepped, -⟩ := reads
    cases refuses.symm.trans stepped
  obtain ⟨error, refused⟩ := Expression.exists_error_iff.mpr ⟨absent, unread⟩
  obtain ⟨found, place, unread, -⟩ := exists_report refused
  rw [stuck.flaw_eq leads against unread] at unread
  exact ⟨place, unread⟩

/-- The reader is stuck in such a way. -/
def StuckWhere (input : String) (way : List Token → Option Token → Prop) : Prop :=
  ∃ before next, Stuck input before next ∧ way before next

/-- A parenthesis could be closed. -/
def LeavesParenthesisOpen (before : List Token) (_next : Option Token) : Prop :=
  Viable (before ++ [.closing])

/-- A parenthesis follows an operator that takes one argument. -/
def OpensList (before : List Token) (next : Option Token) : Prop :=
  next = some .opening ∧ ∃ earlier field symbol,
    before = earlier ++ [.word field, .operator symbol] ∧ symbol ∈ loneSymbols

/-- A parenthesis is closed where a comparison has to start. -/
def ClosesNothing (before : List Token) (next : Option Token) : Prop :=
  next = some .closing ∧ StartsComparison before

/-- A text that the user has written stands where a comparison has to start, or behind all of the
expression. -/
def LeavesTextOver (before : List Token) (next : Option Token) : Prop :=
  (∃ text, next = some (.word text) ∨ next = some (.quoted text)) ∧
    (StartsComparison before ∨ Complete before)

/-- Flaws whose wording shows a text that the user has written, other than a field in its place. -/
inductive Shows (text : String) : SyntaxFlaw → Prop
  | word : Shows text (.unexpectedToken (.word text))
  | quoted : Shows text (.unexpectedToken (.quoted text))
  | selector : Shows text (.notASelector (.quoted text))

theorem leavesParenthesisOpen_iff (leads : State.start.Leads before reached)
    (refusal : Refusal reached next flaw) :
    LeavesParenthesisOpen before next ↔ flaw = .unclosedParenthesis := by
  rw [LeavesParenthesisOpen, viable_token_iff leads]
  cases refusal with
  | listEnd | group => exact ⟨fun _ => rfl, fun _ => ⟨_, rfl⟩⟩
  | _ => exact ⟨fun ⟨_, stepped⟩ => (nomatch stepped), nofun⟩

theorem closesNothing_iff (leads : State.start.Leads before reached)
    (refusal : Refusal reached next flaw) :
    ClosesNothing before next ↔ flaw = .unexpectedClosing := by
  rw [ClosesNothing, startsComparison_iff leads]
  cases refusal with
  | closing => exact ⟨fun _ => rfl, fun _ => ⟨rfl, rfl⟩⟩
  | separator _ _ joins => rcases joins with rfl | rfl <;> exact ⟨nofun, nofun⟩
  | _ => exact ⟨nofun, nofun⟩

theorem opensList_iff (leads : State.start.Leads before reached)
    (refusal : Refusal reached next flaw) :
    OpensList before next ↔ ∃ operator, flaw = .listNotAccepted operator := by
  constructor
  · rintro ⟨rfl, earlier, field, symbol, rfl, single⟩
    have through : State.start.Leads
        ((earlier ++ [.word field]) ++ [.operator symbol]) reached := by
      rw [List.append_assoc]
      exact leads
    obtain ⟨named, expects⟩ := State.exists_expected_arguments through
    cases refusal with
    | list => exact ⟨_, rfl⟩
    | argument _ _ _ _ other => exact absurd rfl other.1
    | _ => cases expects
  · rintro ⟨operator, rfl⟩
    cases refusal with
    | list level outer field single =>
        obtain ⟨earlier, symbol, rfl, rfl⟩ := State.exists_operator leads
        exact ⟨rfl, earlier, field, symbol, rfl, mem_loneSymbols_iff.mpr single⟩

theorem leavesTextOver_iff (leads : State.start.Leads before reached)
    (refusal : Refusal reached next flaw) :
    LeavesTextOver before next ↔ ∃ text, Shows text flaw := by
  rw [LeavesTextOver, startsComparison_iff leads, complete_iff leads]
  have blank {token : Token} (other : ∀ text, token ≠ .word text ∧ token ≠ .quoted text) :
      ¬ ∃ text, some token = some (.word text) ∨ some token = some (.quoted text) := by
    rintro ⟨text, same | same⟩
    · exact (other text).1 (Option.some.inj same)
    · exact (other text).2 (Option.some.inj same)
  cases refusal with
  | quoted _ _ text =>
      exact ⟨fun _ => ⟨text, .selector⟩, fun _ => ⟨⟨text, .inr rfl⟩, .inl rfl⟩⟩
  | closing | symbol =>
      exact ⟨fun found => absurd found.1 (blank fun _ => ⟨nofun, nofun⟩), nofun⟩
  | separator _ _ joins =>
      rcases joins with rfl | rfl
      · exact ⟨fun found => absurd found.1 (blank fun _ => ⟨nofun, nofun⟩), nofun⟩
      · exact ⟨fun found => absurd found.1 (blank fun _ => ⟨nofun, nofun⟩), nofun⟩
  | constraint =>
      refine ⟨?_, nofun⟩
      rintro ⟨⟨text, same | same⟩, -⟩ <;> cases same
  | beyond level other =>
      constructor
      · rintro ⟨⟨text, same | same⟩, -⟩
        · cases same
          exact ⟨text, .word⟩
        · cases same
          exact ⟨text, .quoted⟩
      · rintro ⟨text, shows⟩
        cases shows with
        | word => exact ⟨⟨text, .inl rfl⟩, .inr ⟨_, rfl⟩⟩
        | quoted => exact ⟨⟨text, .inr rfl⟩, .inr ⟨_, rfl⟩⟩
  | _ =>
      -- Neither a comparison nor the end may stand here.
      refine ⟨?_, nofun⟩
      rintro ⟨-, expects | ⟨_, ended⟩⟩
      · cases expects
      · cases ended

/-- What the place where the reader is stuck says about a text that is refused, its flaw says,
too. -/
theorem stuckWhere_iff (refused : Expression.read input = .error (flaw, place))
    {way : List Token → Option Token → Prop} {kind : SyntaxFlaw → Prop}
    (lexical : ∀ broken, ¬ kind (.lexical broken))
    (settled : ∀ {before next reached flaw}, State.start.Leads before reached →
      Refusal reached next flaw →
      (way before next ↔ kind flaw)) : StuckWhere input way ↔ kind flaw := by
  rcases exists_stuck refused with
    ⟨broken, rfl, scanned⟩ | ⟨before, next, reached, stuck, leads, refuses⟩
  · refine ⟨?_, fun kind => absurd kind (lexical broken)⟩
    rintro ⟨before, next, stuck, -⟩
    obtain ⟨after, tokenized, -⟩ := stuck.exists_tokens
    obtain ⟨located, found, -⟩ := (Expression.tokenize_eq_ok_iff _ _).mp tokenized
    cases scanned.symm.trans found
  · rw [← settled leads (State.refusal_of_refuses refuses)]
    constructor
    · rintro ⟨other, last, again, holds⟩
      obtain ⟨rfl, rfl⟩ := stuck.unique again
      exact holds
    · exact fun holds => ⟨before, next, stuck, holds⟩

/-- A quote stands where a token starts, and nothing closes it. -/
def LeavesQuoteOpen (input : String) : Prop :=
  ∃ front quote rest tokens, input.toList = front ++ quote :: rest ∧
    Token.tokenize (String.ofList front) = .ok tokens ∧ (quote = '"' ∨ quote = '\'') ∧
    ∀ inner after, Text.Quoted.Within quote inner → rest ≠ inner ++ quote :: after

theorem leavesQuoteOpen_iff (refused : Expression.read input = .error (flaw, place)) :
    LeavesQuoteOpen input ↔ flaw = .lexical .unclosedQuote := by
  constructor
  · rintro ⟨front, quote, rest, tokens, whole, tokenized, sign, unclosed⟩
    obtain ⟨located, scanned, -⟩ := (Expression.tokenize_eq_ok_iff _ _).mp tokenized
    rw [String.toList_ofList] at scanned
    obtain ⟨stop, broken⟩ := Token.scan_append_quote sign unclosed scanned
    rw [← whole] at broken
    unfold Expression.read at refused
    rw [broken] at refused
    cases refused
    rfl
  · rintro rfl
    rcases exists_stuck refused with ⟨broken, same, scanned⟩ | ⟨_, _, _, _, _, refuses⟩
    · cases same
      obtain ⟨front, first, rest, tokens, whole, tokenized, failed⟩ := exists_unread scanned
      rcases Token.unclosed_or_broken_of_take failed with
        ⟨-, sign, unclosed⟩ | ⟨symbol, same, -⟩
      · exact ⟨front, first, rest, tokens, whole, tokenized, sign, unclosed⟩
      · cases same
    · cases State.refusal_of_refuses refuses

end Grammar

end FacetSearch
