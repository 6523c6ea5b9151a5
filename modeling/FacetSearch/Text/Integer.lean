import FacetSearch.Text.Reader

/-!
Integers of 64 bits in decimal digits, with an optional sign.
-/

set_option autoImplicit false

namespace FacetSearch.Text

def ofDecimalDigits? (digits : List Char) : Option Nat :=
  if digits.isEmpty || !digits.all Char.isDigit then none else some (ofDigits 10 digits)

def toInt64? (text : List Char) : Option Int := do
  let n : Int ← match text with
    | '-' :: digits => (ofDecimalDigits? digits).map fun n => -(n : Int)
    | '+' :: digits => (ofDecimalDigits? digits).map Int.ofNat
    | digits => (ofDecimalDigits? digits).map Int.ofNat
  if -Int.pow 2 63 ≤ n ∧ n < Int.pow 2 63 then some n else none

/-- Reads a natural number of 64 bits; a plus sign may stand in front of it. -/
def toNat64? (text : List Char) : Option Nat := do
  let n ← match text with
    | '+' :: digits => ofDecimalDigits? digits
    | digits => ofDecimalDigits? digits
  if n < Nat.pow 2 64 then some n else none

end FacetSearch.Text
