import FacetSearch.Snippet.Span
import FacetSearch.Text.Blank
import FacetSearch.Text.Alphanumeric
import FacetSearch.Text.LowerCase

/-!
Matches of search terms in a text. Words are maximal runs of letters and digits, and upper and lower
case are the same. A term of several words matches consecutive words; a star at its end makes the
last one match every word that starts with it.
-/

set_option autoImplicit false

namespace FacetSearch

/-- A search term: its words in lower case, and whether the last one stands for its beginnings. -/
structure Term where
  words : List (List Char)
  openEnded : Bool
  deriving DecidableEq, Repr

/-- A word of a text, its place and its lower case. -/
structure PlacedWord where
  span : Span
  lower : List Char
  deriving DecidableEq, Repr

def PlacedWord.ofText (text : List Char) : List PlacedWord :=
  (Text.runsAt Text.isAlphanumeric 0 text).map fun (start, word) =>
    ⟨⟨start, start + Text.byteLength word, Nat.le_add_right ..⟩, Text.lowerCase word⟩

namespace Term

/-- Reads a term. Text without any word is no term. A star counts also inside closing quotes. -/
def ofText? (text : String) : Option Term :=
  match Text.runs Text.isAlphanumeric text.toList with
  | [] => none
  | words =>
    let unquoted := (Text.trim text.toList).reverse.dropWhile (· == '"')
    some ⟨words.map Text.lowerCase, unquoted.head? == some '*'⟩

def matchesLast (openEnded : Bool) (wanted : List Char) (found : PlacedWord) : Bool :=
  if openEnded then wanted.isPrefixOf found.lower else wanted == found.lower

/-- Where the match ends that begins at the first of the given words, if there is one. -/
def stop? (openEnded : Bool) : List (List Char) → List PlacedWord → Option Nat
  | [], _ | _ :: _, [] => none
  | [wanted], found :: _ =>
    if matchesLast openEnded wanted found then some found.span.stop else none
  | wanted :: others, found :: rest =>
    if wanted = found.lower then stop? openEnded others rest else none

/-- The matches of a term, overlapping ones included. -/
def occurrences (term : Term) : List PlacedWord → List Span
  | [] => []
  | found :: rest =>
    ((stop? term.openEnded term.words (found :: rest)).map (.between found.span.start)).toList
      ++ occurrences term rest

end Term

namespace Span

/-- Drops the spans of a list that start before the previous one ends. -/
def separate (free : Nat) : List Span → List Span
  | [] => []
  | span :: rest =>
    if free ≤ span.start then span :: separate span.stop rest else separate free rest

/-- The matches of all terms in a text. Of matches that overlap the earliest stays. -/
def ofTerms (text : List Char) (terms : List String) : List Span :=
  let words := PlacedWord.ofText text
  let found := (terms.filterMap Term.ofText?).flatMap (·.occurrences words)
  separate 0 (found.mergeSort Span.precedes)

end Span

end FacetSearch
