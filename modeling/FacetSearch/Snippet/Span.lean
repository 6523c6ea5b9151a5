import FacetSearch.Text.Bytes

/-!
Spans: stretches of a text, given by the byte offsets of their edges.
-/

set_option autoImplicit false

namespace FacetSearch

/-- A stretch of a text; `stop` is the offset just past it. -/
structure Span where
  start : Nat
  stop : Nat
  ordered : start ≤ stop := by omega
  deriving DecidableEq, Repr

namespace Span

/-- The span between two offsets in either order. -/
def between (first second : Nat) : Span := ⟨min first second, max first second, by omega⟩

def length (span : Span) : Nat := span.stop - span.start

def isEmpty (span : Span) : Bool := span.start == span.stop

/-- Whether two spans overlap or meet at an edge. -/
def touches (span other : Span) : Bool :=
  decide (span.start ≤ other.stop) && decide (other.start ≤ span.stop)

def union (span other : Span) : Span :=
  ⟨min span.start other.start, max span.stop other.stop, by
    have first := span.ordered
    omega⟩

/-- Whether another span lies inside this one. -/
def contains (span other : Span) : Bool :=
  decide (span.start ≤ other.start) && decide (other.stop ≤ span.stop)

/-- The order of spans in a text: by start, then by end. -/
def precedes (span other : Span) : Bool :=
  decide (span.start < other.start)
    || (span.start == other.start && decide (span.stop ≤ other.stop))

def covered (span : Span) (text : List Char) : List Char := Text.slice text span.start span.stop

end Span

end FacetSearch
