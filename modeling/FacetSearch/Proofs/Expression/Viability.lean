import FacetSearch.Proofs.Expression.Grammar
import FacetSearch.Proofs.Expression.Places

/-!
Where the reader refuses a text (`Grammar.place_of_parse_error`): at the first token with which no
expression can go on. The reader gets stuck nowhere before that, since each of its states can be
brought to an end (`State.exists_reads`), and a token that it refuses is refused by every
derivation.
-/

set_option autoImplicit false

namespace FacetSearch

namespace Expression.State

/-- Behind a constraint the parentheses that are open can be closed. -/
theorem exists_reads_junction (level : Level) (outer : List Level) :
    ∃ more expression, Reads ⟨.junction, level, outer⟩ more expression := by
  induction outer generalizing level with
  | nil => exact ⟨[], level.close, rfl⟩
  | cons around others ih =>
      obtain ⟨more, expression, reads⟩ := ih (around.add level.close)
      exact ⟨.closing :: more, expression, _, rfl, reads⟩

theorem exists_reads_arguments (field : String) (operator : Operator) (level : Level)
    (outer : List Level) :
    ∃ more expression, Reads ⟨.arguments field operator, level, outer⟩ more expression := by
  obtain ⟨more, expression, reads⟩ :=
    exists_reads_junction (level.add (.comparison ⟨field, operator, ["a"]⟩)) outer
  exact ⟨.word "a" :: more, expression, _, rfl, reads⟩

theorem exists_reads_operator (field : String) (level : Level) (outer : List Level) :
    ∃ more expression, Reads ⟨.operator field, level, outer⟩ more expression := by
  obtain ⟨more, expression, reads⟩ := exists_reads_arguments field (.ofSymbol "==") level outer
  exact ⟨.operator "==" :: more, expression, _, rfl, reads⟩

theorem exists_reads_listEnd (field : String) (operator : Operator) (given : List String)
    (level : Level) (outer : List Level) :
    ∃ more expression, Reads ⟨.listEnd field operator given, level,
      outer⟩ more expression := by
  obtain ⟨more, expression, reads⟩ :=
    exists_reads_junction (level.add (.comparison ⟨field, operator, given⟩)) outer
  exact ⟨.closing :: more, expression, _, rfl, reads⟩

/-- Some tokens bring every state to an end. -/
theorem exists_reads (state : State) : ∃ more expression, state.Reads more expression := by
  obtain ⟨expected, level, outer⟩ := state
  cases expected with
  | constraint =>
      obtain ⟨more, expression, reads⟩ := exists_reads_operator "a" level outer
      exact ⟨.word "a" :: more, expression, _, rfl, reads⟩
  | operator field => exact exists_reads_operator field level outer
  | arguments field operator => exact exists_reads_arguments field operator level outer
  | listArgument field operator given =>
      obtain ⟨more, expression, reads⟩ :=
        exists_reads_listEnd field operator (given ++ ["a"]) level outer
      exact ⟨.word "a" :: more, expression, _, rfl, reads⟩
  | listEnd field operator given => exact exists_reads_listEnd field operator given level outer
  | junction => exact exists_reads_junction level outer

/-- A run fails at a token that the state before it refuses, or at the end. -/
theorem exists_of_run_eq_error {stop place : Nat} {state : State} {located : List Token.Located}
    {flaw : SyntaxFlaw} (failed : state.run stop located = .error (flaw, place)) :
    (∃ before token after reached, located = before ++ ⟨token, place⟩ :: after ∧
      state.Leads (before.map Token.Located.token) reached ∧ reached.step token = .error flaw) ∨
    (place = stop ∧ ∃ reached, state.Leads (located.map Token.Located.token) reached ∧
      reached.finish = .error flaw) := by
  induction located generalizing state with
  | nil =>
      right
      rw [run] at failed
      cases ended : state.finish with
      | ok expression =>
          rw [ended] at failed
          cases failed
      | error other =>
          rw [ended] at failed
          cases failed
          exact ⟨rfl, state, .refl state, ended⟩
  | cons first rest ih =>
      rw [run] at failed
      cases stepped : state.step first.token with
      | error other =>
          rw [stepped] at failed
          cases failed
          exact .inl ⟨[], first.token, rest, state, rfl, .refl state, stepped⟩
      | ok next =>
          rw [stepped] at failed
          rcases ih failed with ⟨before, token, after, reached, rfl, leads, refused⟩ | ⟨last,
            reached, leads, ended⟩
          · exact .inl ⟨first :: before, token, after, reached, rfl,
              .step next stepped leads, refused⟩
          · exact .inr ⟨last, reached, .step next stepped leads, ended⟩

end Expression.State

namespace Grammar

open Expression (State)

/-- Tokens that the tokens of an expression begin with. -/
def Viable (tokens : List Token) : Prop :=
  ∃ (more : List Token) (derivation : Alternatives), derivation.tokens = tokens ++ more

theorem Viable.of_append {front back : List Token} (viable : Viable (front ++ back)) :
    Viable front := by
  obtain ⟨more, derivation, same⟩ := viable
  exact ⟨back ++ more, derivation, by rw [same, List.append_assoc]⟩

/-- Tokens that the reader gets through can be continued. -/
theorem viable_of_leads {tokens : List Token} {reached : State}
    (leads : State.start.Leads tokens reached) : Viable tokens := by
  obtain ⟨more, expression, reads⟩ := reached.exists_reads
  obtain ⟨derivation, same, -⟩ := exists_derivation (leads.reads_iff.mpr reads)
  exact ⟨more, derivation, same⟩

/-- No expression goes on with a token that the reader refuses. -/
theorem not_viable_of_refused {before : List Token} {token : Token} {reached : State}
    {flaw : SyntaxFlaw} (leads : State.start.Leads before reached)
    (refused : reached.step token = .error flaw) (after : List Token) :
    ¬ Viable (before ++ token :: after) := by
  intro viable
  obtain ⟨more, derivation, same⟩ := viable
  have reads := derivation.reads
  rw [same, List.append_assoc, leads.reads_iff] at reads
  obtain ⟨next, stepped, -⟩ := reads
  rw [refused] at stepped
  cases stepped

/-- Tokens can be continued as long as the one that is refused is not among them. -/
theorem viable_take_iff {before after : List Token} {token : Token} {reached : State}
    {flaw : SyntaxFlaw} (leads : State.start.Leads before reached)
    (refused : reached.step token = .error flaw) (count : Nat) :
    Viable ((before ++ token :: after).take count) ↔ count ≤ before.length := by
  constructor
  · intro viable
    by_contra longer
    obtain ⟨extra, rfl⟩ := Nat.exists_eq_add_of_lt (Nat.lt_of_not_le longer)
    have beyond : before.length + extra + 1 - before.length = extra + 1 := by omega
    rw [List.take_append, List.take_of_length_le (by omega), beyond, List.take_succ_cons] at viable
    exact not_viable_of_refused leads refused _ viable
  · intro short
    rw [List.take_append_of_le_length short]
    have whole := viable_of_leads leads
    rw [← List.take_append_drop count before] at whole
    exact whole.of_append

/-- Where the reader comes to the end of tokens that are not accepted, they can be continued. -/
theorem not_accepted_of_finish {tokens : List Token} {reached : State} {flaw : SyntaxFlaw}
    (leads : State.start.Leads tokens reached) (ended : reached.finish = .error flaw)
    (derivation : Alternatives) : derivation.tokens ≠ tokens := by
  intro same
  have reads := derivation.reads
  rw [same, ← List.append_nil tokens, leads.reads_iff] at reads
  rw [State.Reads, ended] at reads
  cases reads

/-- A token of a text starts at an offset: what stands before has the tokens before it, and what
begins there has the others. -/
def StartsAt (input : String) (tokens : List Token) (index offset : Nat) : Prop :=
  ∃ front first rest, input.toList = front ++ first :: rest ∧ Text.byteLength front = offset ∧
    Text.isBlank first = false ∧
    Token.tokenize (String.ofList front) = .ok (tokens.take index) ∧
    Token.tokenize (String.ofList (first :: rest)) = .ok (tokens.drop index)

theorem tokenize_ofList {text : List Char} {tokens : List Token} (scans : Token.Scans text tokens) :
    Token.tokenize (String.ofList text) = .ok tokens := by
  apply Token.tokenize_of_scans
  rw [String.toList_ofList]
  exact scans

/-- The offset of a token is the place where it starts. -/
theorem startsAt_of_scan {input : String} {before after : List Token.Located}
    {token : Token} {place : Nat}
    (scanned : Token.scan 0 input.toList = .ok (before ++ ⟨token, place⟩ :: after)) :
    StartsAt input ((before ++ ⟨token, place⟩ :: after).map Token.Located.token)
      before.length place := by
  obtain ⟨first, rest, splits, visible, scans, offset⟩ := Token.splits_of_scan scanned
  obtain ⟨front, whole, earlier⟩ := splits.exists_front
  refine ⟨front, first, rest, whole, ?_, visible, ?_, ?_⟩
  · rw [whole, Text.byteLength_append] at offset
    dsimp only at offset
    omega
  · rw [List.map_append, List.take_left' (List.length_map _)]
    exact tokenize_ofList earlier
  · rw [List.map_append, List.drop_left' (List.length_map _)]
    exact tokenize_ofList scans

theorem StartsAt.isBoundary {input : String} {tokens : List Token} {index offset : Nat}
    (starts : StartsAt input tokens index offset) : Text.isBoundary input.toList offset = true := by
  obtain ⟨front, first, rest, whole, length, -, -, -⟩ := starts
  exact Text.isBoundary_iff.mpr ⟨front, first :: rest, whole, length⟩

/-- A text is refused by its tokens, or by the reader of tokens. -/
theorem read_eq_error {input : String} {flaw : SyntaxFlaw} {place : Nat}
    (refused : Expression.read input = .error (flaw, place)) :
    (∃ broken, Token.scan 0 input.toList = .error (broken, place)) ∨
      ∃ located, Token.scan 0 input.toList = .ok located ∧
        State.start.run (Text.byteLength input.toList) located = .error (flaw, place) := by
  unfold Expression.read at refused
  cases scanned : Token.scan 0 input.toList with
  | error failure =>
      rw [scanned] at refused
      cases refused
      exact .inl ⟨failure.1, rfl⟩
  | ok located =>
      rw [scanned] at refused
      cases located with
      | nil => cases refused
      | cons first rest =>
          right
          refine ⟨first :: rest, rfl, ?_⟩
          dsimp only at refused
          generalize State.start.run (Text.byteLength input.toList) (first :: rest)
            = result at refused
          cases result with
          | ok expression => cases refused
          | error failure =>
              cases refused
              rfl

theorem query_report (input : String) (flaw : SyntaxFlaw) (place : Nat) :
    (Expression.report input flaw place).query = some input ∧
      (Expression.report input flaw place).position = some place := by
  cases flaw <;> exact ⟨rfl, rfl⟩

theorem exists_report {input : String} {error : QueryError}
    (refused : Expression.parse input = .error error) :
    ∃ flaw place, Expression.read input = .error (flaw, place) ∧
      error = Expression.report input flaw place := by
  unfold Expression.parse at refused
  cases result : Expression.read input with
  | ok read =>
      rw [result] at refused
      cases refused
  | error failure =>
      rw [result] at refused
      exact ⟨failure.1, failure.2, rfl, (Except.error.inj refused).symm⟩

/-- What does not fall apart into tokens breaks at the place of the error. -/
theorem broken_of_scan_error {input : String} {broken : Token.Flaw} {place : Nat}
    (scanned : Token.scan 0 input.toList = .error (broken, place)) :
    ∃ front back, input.toList = front ++ back ∧ Text.byteLength front = place ∧
      Token.Broken back ∧ ∃ tokens, Token.tokenize (String.ofList front) = .ok tokens := by
  obtain ⟨tokens, first, rest, splits, failed, offset⟩ := Token.splits_of_scan_error scanned
  obtain ⟨front, whole, earlier⟩ := splits.exists_front
  refine ⟨front, first :: rest, whole, ?_, Token.broken_of_take failed, tokens,
    tokenize_ofList earlier⟩
  rw [whole, Text.byteLength_append] at offset
  omega

/-- The reader is stuck at the first token with which no expression goes on, or at the end. -/
theorem place_of_run_error {input : String} {located : List Token.Located}
    {flaw : SyntaxFlaw} {place : Nat} (scanned : Token.scan 0 input.toList = .ok located)
    (stuck : State.start.run (Text.byteLength input.toList) located = .error (flaw, place)) :
    (∃ index, index < (located.map Token.Located.token).length ∧
        StartsAt input (located.map Token.Located.token) index place ∧
        ∀ count, Viable ((located.map Token.Located.token).take count) ↔ count ≤ index) ∨
      (place = input.utf8ByteSize ∧ Viable (located.map Token.Located.token) ∧
        ∀ derivation : Alternatives, derivation.tokens ≠ located.map Token.Located.token) := by
  rcases State.exists_of_run_eq_error stuck with
    ⟨before, token, after, reached, rfl, leads, refused⟩ | ⟨last, reached, leads, ended⟩
  · left
    have starts := startsAt_of_scan scanned
    refine ⟨before.length, by simp, starts, ?_⟩
    intro count
    rw [List.map_append, List.map_cons, viable_take_iff leads refused, List.length_map]
  · right
    rw [Text.byteLength_toList] at last
    exact ⟨last, viable_of_leads leads, not_accepted_of_finish leads ended⟩

/-- A text that is refused is shown with its place. If the text falls apart into tokens, this is
where the first token starts with which no expression goes on, although one goes on with every token
before it; or it is the end, if an expression could go on with all tokens and none ends with them.
Otherwise it is where the text breaks, with a quote that is not closed or an operator that is not
complete, and the text before it falls apart into tokens. -/
theorem place_of_parse_error {input : String} {error : QueryError}
    (refused : Expression.parse input = .error error) :
    ∃ place, error.query = some input ∧ error.position = some place ∧
      place ≤ input.utf8ByteSize ∧ Text.isBoundary input.toList place = true ∧
      (∀ tokens, Token.tokenize input = .ok tokens →
        (∃ index, index < tokens.length ∧ StartsAt input tokens index place ∧
          ∀ count, Viable (tokens.take count) ↔ count ≤ index) ∨
        (place = input.utf8ByteSize ∧ Viable tokens ∧
          ∀ derivation : Alternatives, derivation.tokens ≠ tokens)) ∧
      (∀ failure, Token.tokenize input = .error failure →
        ∃ front back, input.toList = front ++ back ∧ Text.byteLength front = place ∧
          Token.Broken back ∧ ∃ tokens, Token.tokenize (String.ofList front) = .ok tokens) := by
  obtain ⟨flaw, place, unread, rfl⟩ := exists_report refused
  obtain ⟨shown, located⟩ := query_report input flaw place
  have inside : Text.isBoundary input.toList place = true →
      place ≤ input.utf8ByteSize ∧ Text.isBoundary input.toList place = true := by
    intro boundary
    rw [← Text.byteLength_toList]
    exact ⟨Text.le_byteLength boundary, boundary⟩
  refine ⟨place, shown, located, ?_⟩
  rw [← and_assoc]
  rcases read_eq_error unread with ⟨broken, scanned⟩ | ⟨found, scanned, stuck⟩
  · obtain ⟨front, back, whole, length, breaks⟩ := broken_of_scan_error scanned
    refine ⟨inside (Text.isBoundary_iff.mpr ⟨front, back, whole, length⟩), ?_, ?_⟩
    · intro tokens tokenized
      obtain ⟨found, again, -⟩ := (Expression.tokenize_eq_ok_iff _ _).mp tokenized
      rw [scanned] at again
      cases again
    · intro failure _
      exact ⟨front, back, whole, length, breaks⟩
  · have tokenized : Token.tokenize input = .ok (found.map Token.Located.token) :=
      (Expression.tokenize_eq_ok_iff _ _).mpr ⟨found, scanned, rfl⟩
    have placed := place_of_run_error scanned stuck
    have boundary : Text.isBoundary input.toList place = true := by
      rcases placed with ⟨index, -, starts, -⟩ | ⟨last, -⟩
      · exact starts.isBoundary
      · rw [last, ← Text.byteLength_toList]
        exact Text.isBoundary_byteLength _
    refine ⟨inside boundary, ?_, ?_⟩
    · intro tokens again
      rw [tokenized] at again
      rw [← Except.ok.inj again]
      exact placed
    · intro failure broken
      rw [tokenized] at broken
      cases broken

/-- A word behind a comparison in parentheses, and a quote that is not closed, both behind a
character of two bytes. -/
theorem place_of_parse_error_accented :
    (let tokens : List Token := [.word "é", .operator "==", .word "1", .semicolon,
      .opening, .word "b",
        .operator "=in=", .word "x", .word "y"]
      ∃ error, Expression.parse "é==1;(b=in=x y" = .error error ∧ error.position = some 14 ∧
        ∃ index, StartsAt "é==1;(b=in=x y" tokens index 14 ∧
          ∀ count, Viable (tokens.take count) ↔ count ≤ index) ∧
    ∃ error, Expression.parse "é==\"x" = .error error ∧ error.position = some 4 ∧
      ∃ front back, "é==\"x".toList = front ++ back ∧ Text.byteLength front = 4 ∧
        Token.Broken back := by
  constructor
  · intro tokens
    have refused : Expression.parse "é==1;(b=in=x y" = .error
        ⟨.grammar, "expected closing parenthesis", some 14, some "é==1;(b=in=x y"⟩ := by
      decide +kernel
    have tokenized : Token.tokenize "é==1;(b=in=x y" = .ok tokens := by decide +kernel
    obtain ⟨place, -, located, -, -, accepted, -⟩ := place_of_parse_error refused
    obtain rfl : 14 = place := Option.some.inj located
    refine ⟨_, refused, rfl, ?_⟩
    rcases accepted _ tokenized with ⟨index, -, starts, viable⟩ | ⟨last, -⟩
    · exact ⟨index, starts, viable⟩
    · exact absurd last (by decide +kernel)
  · have refused : Expression.parse "é==\"x" = .error
        ⟨.tokens, "unclosed quote", some 4, some "é==\"x"⟩ := by
      decide +kernel
    have broken : Token.tokenize "é==\"x" = .error ⟨"unclosed quote", 4, "é==\"x"⟩ := by
      decide +kernel
    obtain ⟨place, -, located, -, -, -, breaks⟩ := place_of_parse_error refused
    obtain rfl : 4 = place := Option.some.inj located
    obtain ⟨front, back, whole, length, begins, -⟩ := breaks _ broken
    exact ⟨_, refused, rfl, front, back, whole, length, begins⟩

end Grammar

end FacetSearch
