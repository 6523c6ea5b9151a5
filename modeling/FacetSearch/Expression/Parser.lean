import FacetSearch.Expression.Error

/-!
Reading expressions.

```text
query      → or_expr
or_expr    → and_expr ((',' | "or") and_expr)*
and_expr   → constraint ((';' | "and") constraint)*
constraint → '(' or_expr ')' | comparison
comparison → SELECTOR OPERATOR arguments
arguments  → '(' value (',' value)* ')' | value
value      → WORD | QUOTED
```

The reader is a machine that takes one token at a time. Its state says what may come next and holds
what has been read of every parenthesis that is still open, so a token that cannot continue any
expression is refused when it is met.
-/

set_option autoImplicit false

namespace FacetSearch

namespace Token

/-- Whether the token is a word, upper and lower case being the same. -/
def isKeyword (keyword : String) : Token → Bool
  | word text => text.toList.map Char.toLower == keyword.toList
  | _ => false

/-- Tokens that join constraints by "and". -/
def isConjunction (token : Token) : Bool := token == semicolon || token.isKeyword "and"

/-- Tokens that join constraints by "or". -/
def isDisjunction (token : Token) : Bool := token == comma || token.isKeyword "or"

end Token

namespace Expression

/-- What has been read inside one pair of parentheses: complete alternatives, and the constraints of
the one that is being read. -/
structure Level where
  alternatives : List Expression
  constraints : List Expression

namespace Level

def start : Level := ⟨[], []⟩

def add (level : Level) (constraint : Expression) : Level :=
  { level with constraints := level.constraints ++ [constraint] }

/-- Ends the current alternative and starts the next one. -/
def next (level : Level) : Level := ⟨level.alternatives ++ [allOf level.constraints], []⟩

def close (level : Level) : Expression := anyOf (level.alternatives ++ [allOf level.constraints])

end Level

inductive Expected where
  | constraint
  | operator (field : String)
  | arguments (field : String) (operator : Operator)
  | listArgument (field : String) (operator : Operator) (given : List String)
  | listEnd (field : String) (operator : Operator) (given : List String)
  | junction

/-- The state of the reader: what it expects, the innermost open level and those around it. -/
structure State where
  expected : Expected
  level : Level
  outer : List Level

namespace State

def start : State := ⟨.constraint, .start, []⟩

def addComparison (state : State) (leaf : Comparison) : State :=
  { state with expected := .junction, level := state.level.add (.comparison leaf) }

def takeConstraint (state : State) : Token → Except SyntaxFlaw State
  | .opening => .ok ⟨.constraint, .start, state.level :: state.outer⟩
  | .word field => .ok { state with expected := .operator field }
  | .closing => .error .unexpectedClosing
  | .semicolon | .comma => .error .nothingToJoin
  | token => .error (.notASelector token)

def takeOperator (state : State) (field : String) : Token → Except SyntaxFlaw State
  | .operator symbol => .ok { state with expected := .arguments field (.ofSymbol symbol) }
  | _ => .error (.missingOperator field)

/-- Takes the only argument of an operator, or the start of its list. -/
def takeArguments (state : State) (field : String) (operator : Operator) :
    Token → Except SyntaxFlaw State
  | .opening =>
    if operator.takesList then .ok { state with expected := .listArgument field operator [] }
    else .error (.listNotAccepted operator)
  | .word value | .quoted value => .ok (state.addComparison ⟨field, operator, [value]⟩)
  | token => .error (.notAnArgument token)

def takeListArgument (state : State) (field : String) (operator : Operator)
    (given : List String) : Token → Except SyntaxFlaw State
  | .word value | .quoted value =>
    .ok { state with expected := .listEnd field operator (given ++ [value]) }
  | token => .error (.notAnArgument token)

/-- Takes what stands between the arguments of a list or ends it. -/
def takeListEnd (state : State) (field : String) (operator : Operator) (given : List String) :
    Token → Except SyntaxFlaw State
  | .comma => .ok { state with expected := .listArgument field operator given }
  | .closing => .ok (state.addComparison ⟨field, operator, given⟩)
  | _ => .error .unclosedParenthesis

/-- Takes what joins the constraint before it to another one, or closes a parenthesis. -/
def takeJunction (state : State) (token : Token) : Except SyntaxFlaw State :=
  if token.isConjunction then .ok { state with expected := .constraint }
  else if token.isDisjunction then
    .ok { state with expected := .constraint, level := state.level.next }
  else
    match state.outer with
    | [] => .error (.unexpectedToken token)
    | level :: outer =>
      if token = .closing then .ok ⟨.junction, level.add state.level.close, outer⟩
      else .error .unclosedParenthesis

def step (state : State) (token : Token) : Except SyntaxFlaw State :=
  match state.expected with
  | .constraint => state.takeConstraint token
  | .operator field => state.takeOperator field token
  | .arguments field operator => state.takeArguments field operator token
  | .listArgument field operator given => state.takeListArgument field operator given token
  | .listEnd field operator given => state.takeListEnd field operator given token
  | .junction => state.takeJunction token

/-- The expression, if the tokens may end here. -/
def finish (state : State) : Except SyntaxFlaw Expression :=
  match state.expected with
  | .constraint => .error .unexpectedEnd
  | .operator field => .error (.missingOperator field)
  | .arguments .. | .listArgument .. => .error .missingArgument
  | .listEnd .. => .error .unclosedParenthesis
  | .junction =>
    match state.outer with
    | [] => .ok state.level.close
    | _ => .error .unclosedParenthesis

/-- Takes all tokens. A flaw is located at the token that is refused, or at the end. -/
def run (stop : Nat) (state : State) : List Token.Located → Except (SyntaxFlaw × Nat) Expression
  | [] => state.finish.mapError (·, stop)
  | located :: rest =>
    match state.step located.token with
    | .error flaw => .error (flaw, located.position)
    | .ok next => run stop next rest

end State

/-- Reads a text: nothing when it is blank, an expression, or the first flaw and where it lies. -/
def read (input : String) : Except (SyntaxFlaw × Nat) (Option Expression) :=
  match Token.scan 0 input.toList with
  | .error (flaw, position) => .error (.lexical flaw, position)
  | .ok [] => .ok none
  | .ok tokens => (State.start.run (Text.byteLength input.toList) tokens).map some

def report (input : String) (flaw : SyntaxFlaw) (position : Nat) : QueryError :=
  match flaw with
  | .lexical _ => .ofLexError ⟨flaw.message, position, input⟩
  | _ => (QueryError.ofParseError ⟨flaw.message, some position⟩).withQuery input

/-- Reads a text and reports what is wrong with it. -/
def parse (input : String) : Except QueryError (Option Expression) :=
  (read input).mapError fun (flaw, position) => report input flaw position

end Expression

def Token.tokenize (input : String) : Except LexError (List Token) :=
  match Token.scan 0 input.toList with
  | .error (flaw, position) => .error ⟨(SyntaxFlaw.lexical flaw).message, position, input⟩
  | .ok tokens => .ok (tokens.map Located.token)

end FacetSearch
