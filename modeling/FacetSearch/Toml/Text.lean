import FacetSearch.Text.Reader
import FacetSearch.Toml.Basic

/-!
TOML strings, on one line or several, with escapes or without.
-/

set_option autoImplicit false

namespace FacetSearch.Toml

open Text (Reader)
open Text.Reader

def newline : Reader (List Char) :=
  (do exactly ['\n']; return ['\n']) <|> (do exactly ['\r', '\n']; return ['\r', '\n'])

/-- Blanks within a line. -/
def isSpace (c : Char) : Bool := c == ' ' || c == '\t'

def spaces : Reader Unit := do
  let _ ← whileTrue isSpace

def exactCount (count : Nat) (test : Char → Bool) : Reader (List Char) := fun text =>
  let taken := text.take count
  if taken.length = count && taken.all test then some (taken, text.drop count) else none

/-- The character with a code point of so many hexadecimal digits. -/
def codePoint (width : Nat) : Reader Char := do
  let digits ← exactCount width fun c => (Text.hexDigit? c).isSome
  match Text.charOfCode? (Text.ofDigits 16 digits) with
  | some c => return c
  | none => failure

/-- Characters that a backslash and a letter stand for. -/
def shortEscapes : List (Char × Char) :=
  [('b', '\x08'), ('t', '\t'), ('n', '\n'), ('f', '\x0c'), ('r', '\r'), ('e', '\x1b'), ('"', '"'),
    ('\\', '\\')]

def escaped : Reader (List Char) := do
  char '\\'
  let letter ← satisfying fun _ => true
  match shortEscapes.lookup letter with
  | some c => return [c]
  | none =>
    let c ← match letter with
      | 'x' => codePoint 2
      | 'u' => codePoint 4
      | 'U' => codePoint 8
      | _ => failure
    return [c]

/-- A backslash at the end of a line, which takes the blanks and line ends after it with it. -/
def foldedLine : Reader (List Char) := do
  char '\\'
  spaces
  let _ ← newline
  let _ ← many ((do let _ ← satisfying isSpace) <|> (do let _ ← newline))
  return []

/-- A character that stands for itself, other than the given quote. -/
def plainChar (quote : Char) : Reader (List Char) := do
  let c ← satisfying fun c => !isControl c && c != quote
  return [c]

/-- One or two quotes that do not close a text of several lines. Three close it, and one or two
right before those still belong to it. -/
def looseQuotes (quote : Char) : Reader (List Char) := fun text =>
  match (text.takeWhile (· == quote)).length with
  | 1 | 4 => some ([quote], text.drop 1)
  | 2 | 5 => some ([quote, quote], text.drop 2)
  | _ => none

def unescaped : Reader (List Char) := do
  require ((← peek?) ≠ some '\\')
  plainChar '"'

def joined (item : Reader (List Char)) : Reader (List Char) := do
  return (← many item).flatten

/-- A text with escapes on one line. -/
def basicLine : Reader (List Char) := do
  char '"'
  let contents ← joined (escaped <|> unescaped)
  char '"'
  return contents

def literalLine : Reader (List Char) := do
  char '\''
  let contents ← joined (plainChar '\'')
  char '\''
  return contents

def basicPart : Reader (List Char) :=
  foldedLine <|> escaped <|> newline <|> looseQuotes '"' <|> unescaped

def literalPart : Reader (List Char) := newline <|> looseQuotes '\'' <|> plainChar '\''

/-- A text with escapes on several lines. A line end right after the opening quotes is no part of
it. -/
def basicLines : Reader (List Char) := do
  exactly ['"', '"', '"']
  let _ ← optional newline
  let contents ← joined basicPart
  exactly ['"', '"', '"']
  return contents

def literalLines : Reader (List Char) := do
  exactly ['\'', '\'', '\'']
  let _ ← optional newline
  let contents ← joined literalPart
  exactly ['\'', '\'', '\'']
  return contents

def textLine : Reader (List Char) := basicLine <|> literalLine

def text : Reader (List Char) := basicLines <|> literalLines <|> textLine

end FacetSearch.Toml
