import FacetSearch.Decimal.Binary

/-!
Shortest decimals: the fewest digits that read back as the same floating-point number, and of those
the nearest to it. The search goes through decimal grids of falling width. On the first grid with a
point that reads back, a neighbour of the value does so, too, which makes the two neighbours enough.
-/

set_option autoImplicit false

namespace FacetSearch

/-- What becomes of a value halfway between the two shortest candidates. -/
inductive Tie where
  | up
  | even
  deriving DecidableEq, Repr

/-- A decimal: `digits * 10 ^ exponent`. -/
structure Decimal where
  digits : Nat
  exponent : Int
  deriving DecidableEq, Repr

namespace Decimal

/-- The numbers that round to `value`, with bounds on the same scale: all of them stand for
themselves times `unit`, a quotient. -/
structure Neighbourhood where
  value : Nat
  low : Nat
  high : Nat
  closed : Bool

/-- The reals that a format rounds to `significand * 2 ^ exponent`, in quarters of the unit in the
last place. Below a power of two the numbers lie twice as close. -/
def neighbourhood (format : BinaryFormat) (significand : Nat) (exponent : Int) : Neighbourhood :=
  let close := significand = Nat.pow 2 (format.precision - 1) ∧ format.least < exponent
  { value := 4 * significand
    low := if close then 4 * significand - 1 else 4 * significand - 2
    high := 4 * significand + 2
    closed := significand % 2 = 0 }

/-- The same neighbourhood on a scale `factor` times as fine. -/
def Neighbourhood.scale (around : Neighbourhood) (factor : Nat) : Neighbourhood :=
  { around with
    value := around.value * factor
    low := around.low * factor
    high := around.high * factor }

def Neighbourhood.holds (around : Neighbourhood) (n : Nat) : Bool :=
  if around.closed then decide (around.low ≤ n) && decide (n ≤ around.high)
  else decide (around.low < n) && decide (n < around.high)

/-- The point of a grid of width `width` that reads back and is nearest to the value. -/
def Neighbourhood.point? (around : Neighbourhood) (tie : Tie) (width : Nat) : Option Nat :=
  let below := around.value / width
  let down := around.holds (below * width) && below != 0
  let up := around.holds ((below + 1) * width)
  let rest := 2 * (around.value % width)
  if down && up then
    if rest < width then some below
    else if width < rest then some (below + 1)
    else match tie with
      | .up => some (below + 1)
      | .even => some (below + below % 2)
  else if down then some below
  else if up then some (below + 1)
  else none

/-- The greatest power of ten, as an exponent, that is not above a positive quotient. -/
def floorLog10 (numerator denominator : Nat) : Int :=
  let guess : Int := (Binary.digitCount numerator : Int) - Binary.digitCount denominator
  if denominator * Nat.pow 10 guess.toNat ≤ numerator * Nat.pow 10 (-guess).toNat then guess
  else guess - 1

/-- The shortest decimal of a finite, positive number. Grids are tried from one above the leading
digit down to twenty below it, which is finer than either format. -/
def shortest (format : BinaryFormat) (tie : Tie) (significand : Nat) (exponent : Int) : Decimal :=
  let around := neighbourhood format significand exponent
  let unit := Binary.shifted 1 1 (exponent - 2)
  let leading := floorLog10 (around.value * unit.1) unit.2
  let grids := (List.range 22).map fun (i : Nat) => leading + 1 - i
  let hit := grids.findSome? fun grid =>
    let fine := around.scale (unit.1 * Nat.pow 10 (-grid).toNat)
    (fine.point? tie (unit.2 * Nat.pow 10 grid.toNat)).map fun digits =>
      (⟨digits, grid⟩ : Decimal)
  hit.getD ⟨0, 0⟩

end Decimal

end FacetSearch
