import FacetSearch.Expression.Basic
import FacetSearch.Text.Blank
import FacetSearch.Text.Quoted
import FacetSearch.Text.Literal

/-!
Writing expressions: as text of the expression language, and as a tree with one node on each line.
-/

set_option autoImplicit false

namespace FacetSearch.Expression

/-- Characters that an argument cannot hold outside quotes. -/
def needsQuotes (c : Char) : Bool :=
  Text.isBlank c || ['"', '\'', '(', ')', ';', ',', '=', '!', '<', '>', '~'].contains c

/-- An argument, in quotes where it needs them. -/
def writeArgument (value : String) : String :=
  if value.isEmpty || value.toList.any needsQuotes then
    String.ofList (Text.Quoted.enclose '"' value.toList)
  else
    value

/-- A comparison. Only `=in=` keeps the parentheses around a lone argument. -/
def writeComparison (leaf : Comparison) : String :=
  match leaf.arguments.map writeArgument with
  | [only] =>
    if leaf.operator = .oneOf then leaf.field ++ leaf.operator.symbol ++ "(" ++ only ++ ")"
    else leaf.field ++ leaf.operator.symbol ++ only
  | values => leaf.field ++ leaf.operator.symbol ++ "(" ++ ",".intercalate values ++ ")"

mutual

/-- An expression as text; below another node a disjunction of several parts takes parentheses. -/
def write (nested : Bool) : Expression → String
  | all parts => ";".intercalate (writeParts parts)
  | any parts =>
    let text := ",".intercalate (writeParts parts)
    if nested && decide (1 < parts.length) then "(" ++ text ++ ")" else text
  | comparison leaf => writeComparison leaf

def writeParts : List Expression → List String
  | [] => []
  | part :: rest => part.write true :: writeParts rest

end

def toText (expression : Expression) : String := expression.write false

mutual

/-- The lines of the tree, parts being indented below their node. -/
def treeLines : Expression → List String
  | all parts => "And" :: treeLinesOfParts parts
  | any parts => "Or" :: treeLinesOfParts parts
  | comparison leaf =>
    ["Comparison(" ++ Text.literal leaf.field ++ " " ++ leaf.operator.symbol ++ " "
      ++ Text.literals leaf.arguments ++ ")"]

def treeLinesOfParts : List Expression → List String
  | [] => []
  | part :: rest => part.treeLines.map ("  " ++ ·) ++ treeLinesOfParts rest

end

def toTree (expression : Expression) : String :=
  String.join (expression.treeLines.map (· ++ "\n"))

end FacetSearch.Expression
