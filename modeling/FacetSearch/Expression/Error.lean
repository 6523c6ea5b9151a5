import FacetSearch.Expression.Basic
import FacetSearch.Expression.Token

/-!
What can be wrong with the text of an expression, and how it is told to the user: the wording, the
line with a mark under the place, and a hint for common mistakes.
-/

set_option autoImplicit false

namespace FacetSearch

inductive SyntaxFlaw where
  | lexical (flaw : Token.Flaw)
  | unexpectedToken (token : Token)
  | unexpectedClosing
  | nothingToJoin
  | notASelector (token : Token)
  | unexpectedEnd
  | missingOperator (field : String)
  | listNotAccepted (operator : Operator)
  | notAnArgument (token : Token)
  | missingArgument
  | unclosedParenthesis
  deriving DecidableEq, Repr

def SyntaxFlaw.message : SyntaxFlaw → String
  | lexical .unclosedQuote => "unclosed quote"
  | lexical (.brokenOperator symbol) => "invalid comparison operator '" ++ symbol ++ "'"
  | unexpectedToken token => "unexpected token: " ++ token.label
  | unexpectedClosing => "unexpected closing parenthesis"
  | nothingToJoin => "logical operator needs a comparison before it"
  | notASelector token => "expected field selector, found " ++ token.label
  | unexpectedEnd => "unexpected end of expression"
  | missingOperator field => "expected comparison operator after '" ++ field ++ "'"
  | listNotAccepted operator =>
    "operator " ++ operator.symbol ++ " expects a single argument, not a list"
  | notAnArgument token => "expected argument value, found " ++ token.label
  | missingArgument => "expected argument value at end of expression"
  | unclosedParenthesis => "expected closing parenthesis"

namespace Text

def contains (part : List Char) : List Char → Bool
  | [] => part.isEmpty
  | c :: rest => part.isPrefixOf (c :: rest) || contains part rest

end Text

inductive Hint where
  | closeQuote
  | closeParenthesis
  | comparisonForm
  | singleArgument
  deriving DecidableEq, Repr

namespace Hint

def text : Hint → String
  | closeQuote => "Add a closing quote to complete the value"
  | closeParenthesis => "Add a closing parenthesis ) to match the opening one"
  | comparisonForm => "Comparisons look like field==value, field=in=(a,b) or field=ge=1500"
  | singleArgument => "Only =in= accepts a parenthesized list of values"

/-- The hint for an error message, chosen by the first phrase that occurs in it. -/
def ofMessage? (message : String) : Option Hint :=
  let mentions (phrase : String) : Bool := Text.contains phrase.toList message.toList
  if mentions "unclosed quote" then some closeQuote
  else if mentions "closing parenthesis" then some closeParenthesis
  else if mentions "operator" then some comparisonForm
  else if mentions "single argument" then some singleArgument
  else none

end Hint

def indentation (width : Nat) : String := String.ofList (List.replicate width ' ')

def syntaxErrorTitle : String := "expression syntax error: "

/-- A text that does not fall apart into tokens. -/
structure LexError where
  message : String
  position : Nat
  input : String
  deriving DecidableEq, Repr

namespace LexError

def summary (error : LexError) : String :=
  syntaxErrorTitle ++ error.message ++ " (at byte " ++ toString error.position ++ ")"

/-- The error, its text and a mark under the place. -/
def inContext (error : LexError) : String :=
  syntaxErrorTitle ++ error.message ++ "\n  " ++ error.input ++ "\n  "
    ++ indentation error.position ++ "^"

end LexError

/-- Tokens that do not form an expression. -/
structure ParseError where
  message : String
  position : Option Nat
  deriving DecidableEq, Repr

def ParseError.summary (error : ParseError) : String :=
  match error.position with
  | some position => "at byte " ++ toString position ++ ": " ++ error.message
  | none => error.message

inductive ReadingStage where
  | tokens
  | grammar
  deriving DecidableEq, Repr

/-- An error in the text of an expression, with the text if it is known. -/
structure QueryError where
  stage : ReadingStage
  message : String
  position : Option Nat
  query : Option String
  deriving DecidableEq, Repr

namespace QueryError

def ofLexError (error : LexError) : QueryError :=
  ⟨.tokens, error.message, some error.position, some error.input⟩

def ofParseError (error : ParseError) : QueryError :=
  ⟨.grammar, error.message, error.position, none⟩

def withQuery (error : QueryError) (query : String) : QueryError :=
  { error with query := some query }

def suggestion (error : QueryError) : Option Hint := Hint.ofMessage? error.message

/-- The line with the mark. The mark never stands further right than the end of the text. -/
def markLine (query : String) (position : Nat) : String :=
  "  " ++ indentation (min position (Text.byteLength query.toList)) ++ "^"

/-- The error over several lines: wording, text, mark and hint. -/
def display (error : QueryError) : String :=
  let context := match error.query with
    | none => ""
    | some query =>
      "  " ++ query ++ "\n" ++ match error.position with
        | none => ""
        | some position => markLine query position ++ "\n"
  let hint := match error.suggestion with
    | none => ""
    | some hint => "hint: " ++ hint.text
  syntaxErrorTitle ++ error.message ++ "\n" ++ context ++ hint

end QueryError

end FacetSearch
