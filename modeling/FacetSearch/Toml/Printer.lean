import FacetSearch.Decimal.Layout
import FacetSearch.Toml.Basic

/-!
Writing TOML documents. Texts take the kind of quotes that needs no escapes, if there is one; texts
with line ends are written on several lines, and so are arrays of two and more items. Every table
has a header of its own, except for those that hold nothing but tables. Floating-point numbers are
those of 32 bits.
-/

set_option autoImplicit false

namespace FacetSearch.Toml

/-- What the choice of quotes for a text depends on: its longest runs of either quote, and whether
it has line ends, backslashes or control characters. -/
structure TextShape where
  doubleQuotes : Nat
  singleQuotes : Nat
  newline : Bool
  backslash : Bool
  control : Bool

namespace TextShape

def longestRun (c : Char) (current longest : Nat) : List Char → Nat
  | [] => max current longest
  | next :: rest =>
    if next = c then longestRun c (current + 1) longest rest
    else longestRun c 0 (max current longest) rest

/-- The shape of a text. A tab counts as no control character, but a carriage return does. -/
def ofText (text : List Char) : TextShape where
  doubleQuotes := longestRun '"' 0 0 text
  singleQuotes := longestRun '\'' 0 0 text
  newline := text.contains '\n'
  backslash := text.contains '\\'
  control := text.any fun c => isControl c && c != '\n'

end TextShape

def fourDigits (n : Nat) : List Char :=
  [12, 8, 4, 0].map fun shift => (Nat.digitChar (n / Nat.pow 2 shift % 16)).toUpper

/-- A control character or a backslash behind a backslash. -/
def escapeControl (c : Char) : List Char :=
  match c with
  | '\x08' => ['\\', 'b']
  | '\t' => ['\\', 't']
  | '\n' => ['\\', 'n']
  | '\x0c' => ['\\', 'f']
  | '\r' => ['\\', 'r']
  | '\\' => ['\\', '\\']
  | c => if isControl c then '\\' :: 'u' :: fourDigits c.toNat else [c]

/-- A text with escapes on one line. -/
def writeBasic (text : List Char) : List Char :=
  '"' :: text.flatMap (fun c => if c = '"' then ['\\', '"'] else escapeControl c) ++ ['"']

/-- The inside of a text with escapes on several lines; every third quote in a row is escaped. -/
def escapeLines (quotes : Nat) : List Char → List Char
  | [] => []
  | c :: rest =>
    if c = '"' then
      if quotes = 2 then '\\' :: '"' :: escapeLines 0 rest else '"' :: escapeLines (quotes + 1) rest
    else if c = '\n' then '\n' :: escapeLines 0 rest
    else escapeControl c ++ escapeLines 0 rest

/-- Three quotes around a text, and a line end after the first three if the text has several
lines. -/
def encloseLines (quote : Char) (newline : Bool) (inside : List Char) : List Char :=
  let quotes := [quote, quote, quote]
  quotes ++ (if newline then ['\n'] else []) ++ inside ++ quotes

def writeText (text : List Char) : List Char :=
  let shape := TextShape.ofText text
  let escapes := shape.backslash || shape.control
  if !escapes && !shape.newline && shape.doubleQuotes = 0 then writeBasic text
  else if !shape.control && !shape.newline && shape.singleQuotes = 0 then '\'' :: text ++ ['\'']
  else if !escapes && shape.doubleQuotes ≤ 2 then
    encloseLines '"' shape.newline (escapeLines 0 text)
  else if !shape.control && shape.singleQuotes ≤ 2 then encloseLines '\'' shape.newline text
  else if shape.newline then encloseLines '"' true (escapeLines 0 text)
  else writeBasic text

/-- A key, in quotes where it needs them. -/
def writeKey (key : String) : String :=
  let text := key.toList
  let shape := TextShape.ofText text
  if !text.isEmpty && text.all isBareChar then key
  else if shape.doubleQuotes = 0 && !shape.backslash && !shape.control && !shape.newline then
    String.ofList (writeBasic text)
  else if !shape.control && !shape.newline && shape.singleQuotes = 0 then
    String.ofList ('\'' :: text ++ ['\''])
  else String.ofList (writeBasic text)

mutual

def write : Toml → String
  | boolean value => if value then "true" else "false"
  | integer value => toString value
  | float value => value.withPlaces .single
  | string value => String.ofList (writeText value.toList)
  | moment text => text
  | array items =>
    match writeItems items with
    | [] => "[]"
    | [only] => "[" ++ only ++ "]"
    | several => "[\n" ++ String.join (several.map fun item => "    " ++ item ++ ",\n") ++ "]"
  | table entries =>
    match writeEntries entries with
    | [] => "\x7b\x7d"
    | several => "\x7b " ++ ", ".intercalate several ++ " \x7d"

def writeItems : List Toml → List String
  | [] => []
  | item :: rest => item.write :: writeItems rest

/-- The entries of a table within a line. -/
def writeEntries : List (String × Toml) → List String
  | [] => []
  | (key, value) :: rest => (writeKey key ++ " = " ++ value.write) :: writeEntries rest

end

/-- The lines of the entries that are no tables. -/
def ownLines (entries : List (String × Toml)) : List String :=
  writeEntries (entries.filter fun entry => !entry.2.isTable)

/-- The part of a document for one table: its header and its own lines. A table that holds nothing
but tables has none, and neither has the document itself without lines. -/
def ownSection (path : List String) (entries : List (String × Toml)) : List String :=
  let lines := ownLines entries
  let hasTables := entries.any (·.2.isTable)
  if lines.isEmpty && (path.isEmpty || hasTables) then []
  else
    let header := if path.isEmpty then [] else ["[" ++ ".".intercalate (path.map writeKey) ++ "]"]
    [String.join ((header ++ lines).map (· ++ "\n"))]

mutual

/-- The parts of a document for a table and the tables below it; no other value has any. -/
def sections (path : List String) : Toml → List String
  | table entries => ownSection path entries ++ sectionsBelow path entries
  | _ => []

def sectionsBelow (path : List String) : List (String × Toml) → List String
  | [] => []
  | (key, value) :: rest => value.sections (path ++ [key]) ++ sectionsBelow path rest

end

/-- A document, with an empty line between its parts. -/
def document (root : Toml) : String := "\n".intercalate (root.sections [])

end FacetSearch.Toml
