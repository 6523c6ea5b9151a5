import Mathlib
import FacetSearch.Expression.Parser

/-!
Runs of the reader over tokens alone. Positions only matter for errors, so an expression that is
read from a text is one that is read from its tokens (`parse_eq_some_iff`).
-/

set_option autoImplicit false

namespace FacetSearch

namespace Expression

namespace State

/-- The tokens may end after these ones, and then an expression has been read. -/
def Reads (state : State) : List Token → Expression → Prop
  | [], expression => state.finish = .ok expression
  | token :: rest, expression =>
    ∃ next, state.step token = .ok next ∧ Reads next rest expression

theorem Reads.unique {state : State} {tokens : List Token} {first second : Expression}
    (one : state.Reads tokens first) (other : state.Reads tokens second) : first = second := by
  induction tokens generalizing state with
  | nil =>
      rw [Reads] at one other
      exact Except.ok.inj (one.symm.trans other)
  | cons token rest ih =>
      obtain ⟨next, stepped, read⟩ := one
      obtain ⟨again, same, reread⟩ := other
      rw [stepped] at same
      cases same
      exact ih read reread

theorem run_eq_ok_iff (stop : Nat) (state : State) (located : List Token.Located)
    (expression : Expression) :
    state.run stop located = .ok expression ↔
      state.Reads (located.map Token.Located.token) expression := by
  induction located generalizing state with
  | nil =>
      simp only [run, List.map_nil, Reads]
      cases state.finish with
      | error flaw => simp only [Except.mapError, reduceCtorEq]
      | ok found => simp only [Except.mapError, Except.ok.injEq]
  | cons first rest ih =>
      simp only [run, List.map_cons, Reads]
      cases state.step first.token with
      | error flaw => simp only [reduceCtorEq, false_and, exists_false]
      | ok next => simp only [ih, Except.ok.injEq, exists_eq_left']

/-- How a state goes on after some tokens have brought it to another one. -/
inductive Leads : State → List Token → State → Prop
  | refl (state : State) : Leads state [] state
  | step {state final : State} (next : State) {token : Token} {rest : List Token}
      (stepped : state.step token = .ok next) (onward : Leads next rest final) :
      Leads state (token :: rest) final

theorem Leads.single {state next : State} {token : Token} (stepped : state.step token = .ok next) :
    Leads state [token] next :=
  .step next stepped (.refl next)

theorem Leads.trans {first second third : State} {front back : List Token}
    (one : Leads first front second) (other : Leads second back third) :
    Leads first (front ++ back) third := by
  induction one with
  | refl state => exact other
  | step next stepped onward ih => exact .step next stepped (ih other)

theorem Leads.reads_iff {state next : State} {front back : List Token} {expression : Expression}
    (leads : Leads state front next) :
    state.Reads (front ++ back) expression ↔ next.Reads back expression := by
  induction leads with
  | refl state => rfl
  | @step state final next token rest stepped onward ih =>
      rw [List.cons_append, Reads, ← ih]
      simp only [stepped, Except.ok.injEq, exists_eq_left']

end State

theorem tokenize_eq_ok_iff (input : String) (tokens : List Token) :
    Token.tokenize input = .ok tokens ↔
      ∃ located, Token.scan 0 input.toList = .ok located ∧
        located.map Token.Located.token = tokens := by
  unfold Token.tokenize
  cases Token.scan 0 input.toList with
  | error failure => simp only [reduceCtorEq, false_and, exists_false]
  | ok located => simp only [Except.ok.injEq, exists_eq_left']

theorem parse_eq_none_iff (input : String) :
    parse input = .ok none ↔ Token.tokenize input = .ok [] := by
  unfold parse read Token.tokenize
  cases Token.scan 0 input.toList with
  | error failure => simp only [Except.mapError, reduceCtorEq]
  | ok located =>
      cases located with
      | nil => simp only [Except.mapError, List.map_nil]
      | cons first rest =>
          dsimp only
          generalize State.start.run (Text.byteLength input.toList) (first :: rest) = result
          cases result <;> simp [Except.mapError, Except.map]

/-- Reading a text is reading its tokens. -/
theorem parse_eq_some_iff (input : String) (expression : Expression) :
    parse input = .ok (some expression) ↔
      ∃ tokens, Token.tokenize input = .ok tokens ∧ State.start.Reads tokens expression := by
  unfold parse read Token.tokenize
  cases Token.scan 0 input.toList with
  | error failure => simp only [Except.mapError, reduceCtorEq, false_and, exists_false]
  | ok located =>
      simp only [Except.ok.injEq, exists_eq_left',
        ← State.run_eq_ok_iff (Text.byteLength input.toList)]
      cases located with
      | nil => simp only [Except.mapError, Except.ok.injEq, reduceCtorEq, State.run, State.start,
          State.finish]
      | cons first rest =>
          dsimp only
          generalize State.start.run (Text.byteLength input.toList) (first :: rest) = result
          cases result <;> simp [Except.mapError, Except.map]

/-- A text whose tokens are known has no expression, one expression, or an error. -/
theorem exists_error_iff {input : String} :
    (∃ error, parse input = .error error) ↔
      parse input ≠ .ok none ∧ ∀ expression, parse input ≠ .ok (some expression) := by
  rcases parse input with error | (_ | expression) <;> simp

end Expression

end FacetSearch
