/-!
Binary floating-point numbers, as exact values: a significand times a power of two. Rounding works
on quotients of natural numbers, so every result is the nearest one, a tie going to the even
significand.
-/

set_option autoImplicit false

namespace FacetSearch

/-- A format: significands below `2 ^ precision`, and units in the last place from `2 ^ least` to
`2 ^ greatest`. -/
structure BinaryFormat where
  precision : Nat
  least : Int
  greatest : Int

def BinaryFormat.single : BinaryFormat := ⟨24, -149, 104⟩

def BinaryFormat.double : BinaryFormat := ⟨53, -1074, 971⟩

/-- A floating-point number; a finite one is `significand * 2 ^ exponent`. -/
inductive Binary where
  | finite (negative : Bool) (significand : Nat) (exponent : Int)
  | infinite (negative : Bool)
  | undefined
  deriving DecidableEq, Repr

namespace Binary

/-- Divides to the nearest natural number, a tie to the even one. -/
def divideEven (numerator denominator : Nat) : Nat :=
  let quotient := numerator / denominator
  let twice := 2 * (numerator % denominator)
  if twice < denominator then quotient
  else if denominator < twice then quotient + 1
  else quotient + quotient % 2

/-- A quotient times `2 ^ shift`, again as a quotient. -/
def shifted (numerator denominator : Nat) (shift : Int) : Nat × Nat :=
  (numerator * Nat.pow 2 shift.toNat, denominator * Nat.pow 2 (-shift).toNat)

/-- The greatest power of two, as an exponent, that is not above a positive quotient. -/
def floorLog2 (numerator denominator : Nat) : Int :=
  let guess : Int := (numerator.log2 : Int) - denominator.log2
  let scaled := shifted numerator denominator (-guess)
  if scaled.2 ≤ scaled.1 then guess else guess - 1

/-- The number of a format that is nearest to a quotient. -/
def ofQuotient (format : BinaryFormat) (negative : Bool) (numerator denominator : Nat) : Binary :=
  if numerator = 0 then
    finite negative 0 format.least
  else
    let exponent := max format.least (floorLog2 numerator denominator - format.precision + 1)
    let scaled := shifted numerator denominator (-exponent)
    let significand := divideEven scaled.1 scaled.2
    let (significand, exponent) :=
      if significand = Nat.pow 2 format.precision then
        (Nat.pow 2 (format.precision - 1), exponent + 1)
      else (significand, exponent)
    if format.greatest < exponent then infinite negative else finite negative significand exponent

def digitCount (n : Nat) : Nat := (Nat.toDigits 10 n).length

/-- The number of a format that is nearest to `digits * 10 ^ exponent`. Exponents that no format
comes near are decided without computing the power. -/
def ofDecimal (format : BinaryFormat) (negative : Bool) (digits : Nat) (exponent : Int) : Binary :=
  if digits = 0 then finite negative 0 format.least
  else if 400 < exponent then infinite negative
  else if exponent + digitCount digits < -400 then finite negative 0 format.least
  else ofQuotient format negative (digits * Nat.pow 10 exponent.toNat)
      (Nat.pow 10 (-exponent).toNat)

def ofInt (format : BinaryFormat) (n : Int) : Binary :=
  ofQuotient format (n < 0) n.natAbs 1

def convert (format : BinaryFormat) : Binary → Binary
  | finite negative significand exponent =>
    let scaled := shifted significand 1 exponent
    ofQuotient format negative scaled.1 scaled.2
  | other => other

/-- Product, rounded. An operand that is not finite stands for the result. -/
def times (format : BinaryFormat) : Binary → Binary → Binary
  | finite negative m p, finite minus n q =>
    let scaled := shifted (m * n) 1 (p + q)
    ofQuotient format (negative != minus) scaled.1 scaled.2
  | finite .., other => other
  | other, _ => other

/-- Quotient by a nonzero number, rounded. An operand that is not finite stands for the result. -/
def dividedBy (format : BinaryFormat) : Binary → Binary → Binary
  | finite negative m p, finite minus n q =>
    let scaled := shifted m n (p - q)
    ofQuotient format (negative != minus) scaled.1 scaled.2
  | finite .., other => other
  | other, _ => other

def isFinite : Binary → Bool
  | finite .. => true
  | _ => false

/-- Zero, of either sign, or below it. -/
def isNonPositive : Binary → Bool
  | finite negative significand _ => negative || significand = 0
  | infinite negative => negative
  | undefined => false

def isIntegral : Binary → Bool
  | finite _ significand exponent => significand % Nat.pow 2 (-exponent).toNat = 0
  | _ => false

/-- Equality of the values: both zeros are the same, and what is undefined equals nothing. -/
def sameValue : Binary → Binary → Bool
  | finite _ 0 _, finite _ 0 _ => true
  | undefined, _ => false
  | first, second => first = second

end Binary

end FacetSearch
