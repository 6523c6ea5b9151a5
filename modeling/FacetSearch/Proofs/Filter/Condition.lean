import FacetSearch.Proofs.Query.ClauseText
import FacetSearch.Text.Reader

/-!
Conditions on documents, and how the text of a filter clause is read as one. The reader knows
nothing of how clauses are made: `Outline.read?` finds the tree of joints and parentheses, and each
leaf is a test on a field, with a sign in front of it or with tests behind it that are excluded by
the word NOT.
-/

set_option autoImplicit false

namespace FacetSearch

/-- A value in a document, as a text and as an integer if it reads as one. -/
structure FieldValue where
  text : String
  number? : Option Int
  deriving DecidableEq, Repr

/-- A document has a list of values in every field. It lacks a field whose list is empty. -/
abbrev Document := String → List FieldValue

/-- What is asked of a document. An end of a range may be open. -/
inductive Condition where
  | everything
  | present (field : String)
  | equals (field value : String)
  | oneOf (field : String) (values : List String)
  | between (field : String) (low high : Option Int)
  | not (excluded : Condition)
  | all (parts : List Condition)
  | any (parts : List Condition)

/-- Whether a value lies in a range. Only a closed end asks for an integer. -/
def FieldValue.isWithin (value : FieldValue) (low high : Option Int) : Bool :=
  low.all (fun least => value.number?.any (least ≤ ·)) && high.all (fun most =>
    value.number?.any (· ≤ most))

namespace Condition

mutual

/-- Whether a document satisfies a condition. -/
def holds (document : Document) : Condition → Bool
  | everything => true
  | present field => !(document field).isEmpty
  | equals field value => (document field).any (·.text == value)
  | oneOf field values => (document field).any (values.contains ·.text)
  | between field low high => (document field).any (·.isWithin low high)
  | not excluded => !holds document excluded
  | all parts => holdAll document parts
  | any parts => holdsAny document parts

/-- Whether a document satisfies all of some conditions. -/
def holdAll (document : Document) : List Condition → Bool
  | [] => true
  | part :: rest => holds document part && holdAll document rest

/-- Whether a document satisfies one of some conditions. -/
def holdsAny (document : Document) : List Condition → Bool
  | [] => false
  | part :: rest => holds document part || holdsAny document rest

end

open Text.Reader

/-- A text in quotes, its escapes resolved. -/
def readQuoted : Text.Reader String
  | '"' :: rest =>
      (Text.Quoted.read '"' rest).map fun (contents, after) => (String.ofList contents, after)
  | _ => none

/-- An integer in decimal digits, perhaps with a minus sign. -/
def readInteger : Text.Reader Int
  | '-' :: rest => (whileTrue1 Char.isDigit rest).map fun (digits, after) =>
    (-(Text.ofDigits 10 digits : Int), after)
  | text => (whileTrue1 Char.isDigit text).map fun (digits, after) =>
    ((Text.ofDigits 10 digits : Int), after)

/-- An end of a range: an integer, or a star where the range is open. -/
def readEnd : Text.Reader (Option Int)
  | '*' :: rest => some (none, rest)
  | text => (readInteger text).map fun (limit, after) => (some limit, after)

/-- What is asked of a field: any value, a range, one of several values, or one value. -/
def readTest (field : String) : Text.Reader Condition
  | '*' :: rest => some (present field, rest)
  | '[' :: rest => (do
    let low ← readEnd
    exactly " TO ".toList
    let high ← readEnd
    char ']'
    return between field low high) rest
  | '(' :: rest => (do
    let values ← separatedBy (exactly " OR ".toList) readQuoted
    char ')'
    return oneOf field values) rest
  | text => (readQuoted text).map fun (value, after) => (equals field value, after)

/-- A test on a field, or the one that all documents pass. -/
def readTerm : Text.Reader Condition
  | '*' :: ':' :: '*' :: rest => some (everything, rest)
  | text => (do
    let field ← whileTrue1 (decide <| IsNameChar ·)
    char ':'
    readTest (String.ofList field)) text

/-- A condition without the documents that satisfy other ones. -/
def without (condition : Condition) (excluded : List Condition) : Condition :=
  if excluded.isEmpty then condition else all (condition :: excluded.map not)

/-- A test with a sign, or one and tests behind it that are excluded. -/
def readLeaf : Text.Reader Condition
  | '-' :: rest => (readTerm rest).map fun (excluded, after) => (not excluded, after)
  | text => (do
    let condition ← readTerm
    let excluded ← many (do exactly " NOT ".toList; readTerm)
    return without condition excluded) text

mutual

/-- The condition that a tree of leaves states. A boost means nothing in a filter and is refused. -/
def ofOutline? : Outline → Option Condition
  | .leaf text => run? readLeaf text
  | .node .all parts => (ofOutlines? parts).map all
  | .node .any parts => (ofOutlines? parts).map any
  | .marked negated boost inside =>
    if boost.isEmpty then (ofOutline? inside).map fun condition =>
      if negated then not condition else condition
    else none

/-- The conditions of several trees. -/
def ofOutlines? : List Outline → Option (List Condition)
  | [] => some []
  | part :: rest => do
    let first ← ofOutline? part
    let others ← ofOutlines? rest
    return first :: others

end

/-- The condition that a filter clause states. -/
def read? (clause : String) : Option Condition := (Outline.read? clause).bind ofOutline?

end Condition

example : (Condition.read? "-f:[* TO *]").map (·.holds fun _ => []) = some true := by cbv

end FacetSearch
