import FacetSearch.Text.Blank

/-!
Readers take a value off the front of a text, or fail and leave the text to an alternative.

Repetition ends at the first round that fails or takes nothing, which makes it total without a bound
on the number of rounds.
-/

set_option autoImplicit false

namespace FacetSearch.Text

/-- A computation over the rest of a text that may fail. -/
abbrev Reader (α : Type) := StateT (List Char) Option α

namespace Reader

/-- The next character, left in place. -/
def peek? : Reader (Option Char) := fun text => some (text.head?, text)

def satisfying (test : Char → Bool) : Reader Char
  | [] => none
  | c :: rest => if test c then some (c, rest) else none

def exactly (expected : List Char) : Reader Unit := fun text =>
  if expected.isPrefixOf text then some ((), text.drop expected.length) else none

def char (expected : Char) : Reader Unit := do
  let _ ← satisfying (· == expected)

def whileTrue (test : Char → Bool) : Reader (List Char) := fun text =>
  some (text.takeWhile test, text.dropWhile test)

/-- Like `whileTrue`, and fails when there is nothing to take. -/
def whileTrue1 (test : Char → Bool) : Reader (List Char) := do
  let first ← satisfying test
  let others ← whileTrue test
  return first :: others

def require (condition : Bool) : Reader Unit := if condition then pure () else failure

/-- The rounds of a repetition, and what they leave. -/
def rounds {α : Type} (item : Reader α) (text : List Char) : List α × List Char :=
  match item text with
  | none => ([], text)
  | some (value, rest) =>
    if rest.length < text.length then
      let later := rounds item rest
      (value :: later.1, later.2)
    else
      ([], text)
termination_by text.length

def many {α : Type} (item : Reader α) : Reader (List α) := fun text => some (rounds item text)

/-- Items with a separator between any two of them, and at least one. -/
def separatedBy {α : Type} (separator : Reader Unit) (item : Reader α) : Reader (List α) := do
  let first ← item
  let others ← many (do separator; item)
  return first :: others

/-- Runs a reader that has to take the whole text. -/
def run? {α : Type} (reader : Reader α) (text : List Char) : Option α :=
  match reader text with
  | some (value, []) => some value
  | _ => none

end Reader

def hexDigit? (c : Char) : Option Nat :=
  if c.isDigit then some (c.toNat - 48)
  else if 'a' ≤ c ∧ c ≤ 'f' then some (c.toNat - 87)
  else if 'A' ≤ c ∧ c ≤ 'F' then some (c.toNat - 55)
  else none

/-- The number written by digits of a base; digits that are none count as zero. -/
def ofDigits (base : Nat) (digits : List Char) : Nat :=
  digits.foldl (fun value c => value * base + (hexDigit? c).getD 0) 0

/-- The character with a code point, unless the code point is a surrogate or too large. -/
def charOfCode? (code : Nat) : Option Char :=
  if code.isValidChar then some (Char.ofNat code) else none

end FacetSearch.Text
