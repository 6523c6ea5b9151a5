import FacetSearch.Json.Basic
import FacetSearch.Text.Reader

/-!
Reading JSON text. Arrays and objects nest at most 127 levels deep; a key that comes twice keeps its
first place and its last value; half a surrogate pair is an error, and so is a number beyond the
largest one of 64 bits.
-/

set_option autoImplicit false

namespace FacetSearch.Json

open Text (Reader)
open Text.Reader

def isGap (c : Char) : Bool := c == ' ' || c == '\n' || c == '\t' || c == '\r'

def gap : Reader Unit := do
  let _ ← whileTrue isGap

def fourDigits? (a b c d : Char) : Option Nat :=
  if ([a, b, c, d].all fun digit => (Text.hexDigit? digit).isSome) then
    some (Text.ofDigits 16 [a, b, c, d])
  else
    none

/-- Characters that a backslash and a letter stand for. -/
def shortEscapes : List (Char × Char) :=
  [('"', '"'), ('\\', '\\'), ('/', '/'), ('b', '\x08'), ('f', '\x0c'), ('n', '\n'), ('r', '\r'),
    ('t', '\t')]

/-- The character of two surrogates. -/
def ofSurrogates? (high low : Nat) : Option Char :=
  if 0xD800 ≤ high ∧ high < 0xDC00 ∧ 0xDC00 ≤ low ∧ low < 0xE000 then
    Text.charOfCode? (0x10000 + (high - 0xD800) * 0x400 + (low - 0xDC00))
  else
    none

/-- Reads the contents of a string up to its closing quote, and past it. -/
def contents : List Char → Option (List Char × List Char)
  | [] => none
  | '"' :: rest => some ([], rest)
  | '\\' :: 'u' :: a :: b :: c :: d :: rest => do
    let first ← fourDigits? a b c d
    match Text.charOfCode? first with
    | some char =>
      let (later, after) ← contents rest
      return (char :: later, after)
    | none =>
      match rest with
      | '\\' :: 'u' :: e :: f :: g :: h :: rest =>
        let char ← ofSurrogates? first (← fourDigits? e f g h)
        let (later, after) ← contents rest
        return (char :: later, after)
      | _ => none
  | '\\' :: letter :: rest => do
    let char ← shortEscapes.lookup letter
    let (later, after) ← contents rest
    return (char :: later, after)
  | char :: rest =>
    if char.toNat < 0x20 then none
    else do
      let (later, after) ← contents rest
      return (char :: later, after)

def text : Reader String := do
  char '"'
  let characters ← contents
  return String.ofList characters

/-- The digits that a number takes into account, as a significand below `2 ^ 64`, and a power of ten
for those that it leaves out. -/
structure Significand where
  value : Nat
  exponent : Int

namespace Significand

/-- Takes a digit in, if the significand has room for it. -/
def push? (significand : Significand) (digit : Char) : Option Nat :=
  let value := significand.value * 10 + (digit.toNat - 48)
  if value < Nat.pow 2 64 then some value else none

/-- Digits before the point: once one has no room, it and all later ones only count. -/
def whole (significand : Significand) : List Char → Significand
  | [] => significand
  | digit :: rest =>
    match significand.push? digit with
    | some value => whole { significand with value } rest
    | none => { significand with exponent := significand.exponent + rest.length + 1 }

/-- Digits after the point: once one has no room, it and all later ones are dropped. -/
def fraction (significand : Significand) : List Char → Significand
  | [] => significand
  | digit :: rest =>
    match significand.push? digit with
    | some value => fraction ⟨value, significand.exponent - 1⟩ rest
    | none => significand

end Significand

/-- Scales a number by a power of ten, with one rounding for every factor that a number of 64 bits
can hold. There is no result beyond the largest number. -/
def scale (number : Binary) (exponent : Int) : Option Binary :=
  if exponent < -308 then
    match number with
    | .finite _ 0 _ => some number
    | _ =>
        scale (Binary.dividedBy .double number (Binary.ofDecimal .double false 1 308))
          (exponent + 308)
  else if exponent < 0 then
    some (Binary.dividedBy .double number (Binary.ofDecimal .double false 1 (-exponent)))
  else if exponent ≤ 308 then
    let scaled := Binary.times .double number (Binary.ofDecimal .double false 1 exponent)
    if scaled.isFinite then some scaled else none
  else
    match number with
    | .finite _ 0 _ => some number
    | _ => none
termination_by (-exponent).toNat
decreasing_by omega

def signed (negative : Bool) : Binary → Binary
  | .finite _ significand exponent => .finite negative significand exponent
  | .infinite _ => .infinite negative
  | .undefined => .undefined

/-- The value of a number with a fraction, an exponent or more digits than an integer can have. -/
def float? (negative : Bool) (significand : Significand) (exponent : Int) : Option Json := do
  let number := Binary.ofInt .double significand.value
  let scaled ← scale number (significand.exponent + exponent)
  return float (signed negative scaled)

/-- The value of a number without fraction and exponent. Minus zero is a floating-point number. -/
def whole? (negative : Bool) (digits : List Char) : Option Json :=
  let n := Text.ofDigits 10 digits
  if !negative && n < Nat.pow 2 64 then some (integer n)
  else if negative && 0 < n && n ≤ Nat.pow 2 63 then some (integer (-n))
  else float? negative (Significand.whole ⟨0, 0⟩ digits) 0

def exponentPart : Reader Int := do
  let _ ← satisfying (fun c => c == 'e' || c == 'E')
  let sign ← optional (satisfying fun c => c == '+' || c == '-')
  let digits ← whileTrue1 Char.isDigit
  let n : Int := Text.ofDigits 10 digits
  return if sign = some '-' then -n else n

def number : Reader Json := do
  let minus ← optional (char '-')
  let digits ← whileTrue1 Char.isDigit
  require (digits.head? ≠ some '0' || digits.length = 1)
  let fraction ← optional (do char '.'; whileTrue1 Char.isDigit)
  let next ← peek?
  let exponent ← if next = some 'e' ∨ next = some 'E' then some <$> exponentPart else pure none
  let negative := minus.isSome
  let value? :=
    match fraction, exponent with
    | none, none => whole? negative digits
    | places, exponent =>
      let whole := Significand.whole ⟨0, 0⟩ digits
      float? negative (whole.fraction (places.getD [])) (exponent.getD 0)
  match value? with
  | some value => return value
  | none => failure

def scalarValue : Reader Json :=
  (do exactly ['n', 'u', 'l', 'l']; return null)
    <|> (do exactly ['t', 'r', 'u', 'e']; return boolean true)
    <|> (do exactly ['f', 'a', 'l', 's', 'e']; return boolean false)
    <|> (string <$> text)
    <|> number

/-- An array of the given kind of items. -/
def arrayOf (item : Reader Json) : Reader Json := do
  char '['
  gap
  let items ← optional (separatedBy (do char ','; gap) (do let value ← item; gap; return value))
  char ']'
  return array (items.getD [])

def memberOf (item : Reader Json) : Reader (String × Json) := do
  let key ← text
  gap
  char ':'
  gap
  let value ← item
  gap
  return (key, value)

def objectOf (item : Reader Json) : Reader Json := do
  char '\x7b'
  gap
  let members ← optional (separatedBy (do char ','; gap) (memberOf item))
  char '\x7d'
  return object ((members.getD []).foldl (fun known (key, value) => setMember known key value) [])

/-- A value that nests at most so many levels deep. -/
def value : Nat → Reader Json
  | 0 => scalarValue
  | levels + 1 => scalarValue <|> arrayOf (value levels) <|> objectOf (value levels)

def maxLevels : Nat := 127

def read? (source : String) : Option Json :=
  run? (do gap; let result ← value maxLevels; gap; return result) source.toList

end FacetSearch.Json
