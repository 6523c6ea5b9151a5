import FacetSearch.Toml.Document
import FacetSearch.Toml.Scalar
import FacetSearch.Toml.Text

/-!
Reading TOML documents. Arrays and inline tables nest at most 80 levels deep.
-/

set_option autoImplicit false

namespace FacetSearch.Toml

open Text (Reader)
open Text.Reader

def comment : Reader Unit := do
  char '#'
  let _ ← whileTrue fun c => !isControl c

def gapPart : Reader Unit :=
  (do let _ ← satisfying isSpace) <|> (do let _ ← newline) <|> comment

def gap : Reader Unit := do
  let _ ← many gapPart

/-- A key without dots. -/
def simpleKey : Reader String := do
  return String.ofList (← textLine <|> whileTrue1 isBareChar)

def keyPart : Reader String := do
  spaces
  let key ← simpleKey
  spaces
  return key

/-- A key, dotted or not, with blanks around it. -/
def keyPath : Reader KeyPath := do
  let keys ← separatedBy (char '.') keyPart
  match keys.getLast? with
  | some key => return ⟨keys.dropLast, key⟩
  | none => failure

/-- Characters of numbers, moments and keywords. -/
def isScalarChar (c : Char) : Bool := isBareChar c || c == '+' || c == '.' || c == ':'

/-- A number, a keyword or a moment. A date and a time may have one blank between them. -/
def scalar : Reader Toml := do
  let first ← whileTrue1 isScalarChar
  let withTime : Reader Toml := do
    require (isDate first)
    char ' '
    let time ← whileTrue1 isScalarChar
    match moment? (first ++ 'T' :: time) with
    | some value => return value
    | none => failure
  withTime <|> (match scalar? first with
    | some value => return value
    | none => failure)

def simpleValue : Reader Toml := (do return .string (String.ofList (← text))) <|> scalar

def comma : Reader Unit := do
  char ','
  gap

def withGap {α : Type} (item : Reader α) : Reader α := do
  let part ← item
  gap
  return part

/-- The comma that may stand behind the last part, if there are parts. -/
def trailingComma (present : Bool) : Reader Unit :=
  if present then (do let _ ← optional comma) else pure ()

/-- Parts between two brackets, with commas between them and perhaps after the last one. -/
def bracketed {α : Type} (opening closing : Char) (item : Reader α) : Reader (List α) := do
  char opening
  gap
  let items ← optional (separatedBy comma (withGap item))
  trailingComma items.isSome
  char closing
  return items.getD []

def pair (value : Reader Toml) : Reader Pair := do
  let path ← keyPath
  char '='
  spaces
  return ⟨path, ← value⟩

/-- A value that nests at most so many levels deep. -/
def value : Nat → Reader Toml
  | 0 => simpleValue
  | levels + 1 =>
    simpleValue
      <|> (do return .array (← bracketed '[' ']' (value levels)))
      <|> (do
        match ofPairs? (← bracketed '\x7b' '\x7d' (pair (value levels))) with
        | some inline => return inline
        | none => failure)

def maxLevels : Nat := 80

inductive Line where
  | blank
  | pair (pair : Pair)
  | header (header : Header)

/-- The header of a table or of an element of a list of tables. -/
def header : Reader Header :=
  (do
    exactly ['[', '[']
    let path ← keyPath
    exactly [']', ']']
    return .element path)
  <|> (do
    char '['
    let path ← keyPath
    char ']'
    return .table path)

def lineContent : Reader Line :=
  (Line.header <$> header) <|> (Line.pair <$> pair (value maxLevels)) <|> pure .blank

/-- A line, with its comment but without its end. -/
def line : Reader Line := do
  spaces
  let content ← lineContent
  spaces
  let _ ← optional comment
  return content

/-- Gathers pairs below their headers. `pairs` are those of the current header in reverse. -/
def partsFrom (header : Header) (pairs : List Pair) : List Line → List (Header × List Pair)
  | [] => [(header, pairs.reverse)]
  | .blank :: rest => partsFrom header pairs rest
  | .pair next :: rest => partsFrom header (next :: pairs) rest
  | .header next :: rest => (header, pairs.reverse) :: partsFrom next [] rest

/-- Reads a document as a table. A byte order mark may stand in front of it. -/
def read? (source : String) : Option Toml := do
  let text := match source.toList with
    | '\uFEFF' :: rest => rest
    | text => text
  let lines ← run? (separatedBy (do let _ ← newline) line) text
  ofParts? (partsFrom .root [] lines)

end FacetSearch.Toml
