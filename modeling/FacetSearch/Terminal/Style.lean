import FacetSearch.Text.Bytes

/-!
Colours and weights on a terminal: control codes around a text.
-/

set_option autoImplicit false

namespace FacetSearch.Terminal

inductive Style where
  | bold
  | cyan
  | green
  | yellow
  | magenta
  | dim
  deriving DecidableEq, Repr

def Style.code : Style → String
  | bold => "1"
  | cyan => "36"
  | green => "32"
  | yellow => "33"
  | magenta => "35"
  | dim => "2"

def control (code : String) : List Char := '\x1b' :: '[' :: code.toList ++ ['m']

def reset : List Char := control "0"

def styled (styles : List Style) (text : List Char) : List Char :=
  styles.flatMap (fun style => control style.code) ++ text ++ reset

/-- The style of matches. -/
def mark (text : List Char) : List Char := styled [.bold, .yellow] text

def header (text : String) : String := String.ofList (styled [.bold, .cyan] text.toList)

def dim (text : String) : String := String.ofList (styled [.dim] text.toList)

def success (text : String) : String := String.ofList (styled [.green] text.toList)

def warning (text : String) : String := String.ofList (styled [.yellow] text.toList)

/-- Whether a range, from `start` to `stop`, can be marked in a text that is done up to `free`. -/
def canMark (text : List Char) (free start stop : Nat) : Bool :=
  decide (free ≤ start) && decide (start ≤ stop) && Text.isBoundary text start
    && Text.isBoundary text stop

def emphasizeFrom (text : List Char) (free : Nat) : List (Nat × Nat) → List Char
  | [] => (Text.cut free text).2
  | (start, stop) :: rest =>
    if canMark text free start stop then
      Text.slice text free start ++ mark (Text.slice text start stop) ++
        emphasizeFrom text stop rest
    else
      emphasizeFrom text free rest

/-- Marks ranges of bytes in a text. A range is passed over when it begins before the end of the one
before it, is reversed, or does not lie between characters of the text. -/
def emphasize (text : List Char) (ranges : List (Nat × Nat)) : List Char :=
  emphasizeFrom text 0 ranges

/-- The words that join the clauses of an engine query. -/
def connectives : List (List Char) := [['A', 'N', 'D'], ['O', 'R'], ['N', 'O', 'T']]

def colourWord (word : List Char) : List Char :=
  if connectives.contains word then styled [.magenta] word else word

/-- Colours the connectives of a query, given the word that has been read up to here, reversed. -/
def colourAfter (word : List Char) : List Char → List Char
  | [] => colourWord word.reverse
  | c :: rest =>
    if c = ' ' then colourWord word.reverse ++ c :: colourAfter [] rest
    else colourAfter (c :: word) rest

/-- Colours the connectives of a query. Words are what stands between spaces. -/
def query (text : String) : String := String.ofList (colourAfter [] text.toList)

end FacetSearch.Terminal
