/-!
Sets of code points, given by the ranges of a character property.
-/

set_option autoImplicit false

namespace FacetSearch.Text

/-- Closed ranges of code points, in increasing order. -/
abbrev CodeRanges := List (Nat × Nat)

/-- Membership; the search ends at the first range that begins above the code point. -/
def CodeRanges.contains : CodeRanges → Nat → Bool
  | [], _ => false
  | (first, last) :: rest, code =>
    decide (first ≤ code) && (decide (code ≤ last) || CodeRanges.contains rest code)

end FacetSearch.Text
