import FacetSearch.Decimal.Shortest

/-!
Written forms of floating-point numbers.
-/

set_option autoImplicit false

namespace FacetSearch

namespace Decimal

def digitsOf (n : Nat) : List Char := Nat.toDigits 10 n

/-- A decimal without an exponent, and without a fraction when it is integral. -/
def positional (decimal : Decimal) : String :=
  let digits := digitsOf decimal.digits
  if 0 ≤ decimal.exponent then
    String.ofList (digits ++ List.replicate decimal.exponent.toNat '0')
  else
    let places := (-decimal.exponent).toNat
    let padded := List.replicate (places + 1 - digits.length) '0' ++ digits
    let whole := padded.length - places
    String.ofList (padded.take whole ++ '.' :: padded.drop whole)

/-- A decimal with at least one place, in scientific form from `10 ^ 16` on and below `10 ^ -5`. -/
def scientific (decimal : Decimal) : String :=
  let digits := digitsOf decimal.digits
  let point : Int := digits.length + decimal.exponent
  if 0 ≤ decimal.exponent ∧ point ≤ 16 then
    decimal.positional ++ ".0"
  else if -5 < point ∧ point ≤ 16 then
    decimal.positional
  else
    let mantissa := match digits with
      | [only] => [only]
      | first :: rest => first :: '.' :: rest
      | [] => []
    String.ofList mantissa ++ (if 0 < point then "e+" else "e") ++ toString (point - 1)

end Decimal

namespace Binary

def sign (negative : Bool) : String := if negative then "-" else ""

/-- Writes the parts that every form has in common: the sign, infinities and undefined values. -/
def write (format : BinaryFormat) (tie : Tie) (zero : String) (form : Decimal → String) :
    Binary → String
  | finite negative 0 _ => sign negative ++ zero
  | finite negative significand exponent =>
    sign negative ++ form (Decimal.shortest format tie significand exponent)
  | infinite negative => sign negative ++ "inf"
  | undefined => "NaN"

/-- The shortest decimal, without an exponent; halves go up. -/
def plain (format : BinaryFormat) (number : Binary) : String :=
  number.write format .up "0" Decimal.positional

/-- The shortest decimal without an exponent, and with at least one place. -/
def withPlaces (format : BinaryFormat) (number : Binary) : String :=
  number.plain format ++ if number.isIntegral then ".0" else ""

/-- The shortest decimal; halves go to the even digit, large and small ones have an exponent. -/
def scientific (format : BinaryFormat) (number : Binary) : String :=
  number.write format .even "0.0" Decimal.scientific

/-- All digits of an integral number and one place; other numbers as in `plain`. -/
def exactWithPlaces (format : BinaryFormat) (number : Binary) : String :=
  match number with
  | finite negative significand exponent =>
    if number.isIntegral then
      sign negative
        ++ toString (significand * Nat.pow 2 exponent.toNat / Nat.pow 2 (-exponent).toNat) ++ ".0"
    else number.plain format
  | _ => number.plain format

end Binary

end FacetSearch
