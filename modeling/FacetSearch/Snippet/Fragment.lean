import FacetSearch.Notice
import FacetSearch.Snippet.Boundary
import FacetSearch.Snippet.Match

/-!
Snippets: the passages of a text around the matches of search terms. Windows that touch become one
fragment, so the fragments of a snippet lie apart.
-/

set_option autoImplicit false

namespace FacetSearch

/-- How snippets are cut and marked: characters of context on each side of a match, dividers, the
greatest number of fragments, and the tags around a match. -/
structure SnippetStyle where
  padding : Nat := 60
  dividers : Dividers := .ofText Dividers.standard
  maxFragments : Nat := 3
  openTag : String := "<em>"
  closeTag : String := "</em>"

/-- A passage of a text and the matches in it. -/
structure Fragment where
  window : Span
  hits : List Span
  deriving DecidableEq, Repr

namespace Fragment

/-- Continues a fragment with the matches that follow: a window that touches it extends it, and the
first one that does not starts the next fragment. -/
def gather (around : Span → Span) (current : Fragment) : List Span → List Fragment
  | [] => [current]
  | hit :: rest =>
    let window := around hit
    if current.window.touches window then
      gather around ⟨current.window.union window, current.hits ++ [hit]⟩ rest
    else
      current :: gather around ⟨window, [hit]⟩ rest

def ofHits (around : Span → Span) : List Span → List Fragment
  | [] => []
  | hit :: rest => gather around ⟨around hit, [hit]⟩ rest

/-- The text from an offset to another one, with marks around the matches in between. -/
def markFrom (mark : List Char → List Char) (text : List Char) (stop start : Nat) :
    List Span → List Char
  | [] => Text.slice text start stop
  | hit :: rest =>
    Text.slice text start hit.start ++ mark (hit.covered text)
      ++ markFrom mark text stop hit.stop rest

/-- The text of a fragment with its matches marked, without blanks around it. -/
def render (fragment : Fragment) (mark : List Char → List Char) (text : List Char) : List Char :=
  Text.trim (markFrom mark text fragment.window.stop fragment.window.start fragment.hits)

end Fragment

structure Snippet where
  text : String
  windows : List Span
  hits : List Span
  deriving DecidableEq, Repr

namespace Snippet

def ellipsis : List Char := [' ', '…', ' ']

def tagged (style : SnippetStyle) (hit : List Char) : List Char :=
  style.openTag.toList ++ hit ++ style.closeTag.toList

def fragments (style : SnippetStyle) (text : List Char) (terms : List String) : List Fragment :=
  (Fragment.ofHits (fun hit => style.dividers.windowAround text hit.start hit.stop style.padding)
    (Span.ofTerms text terms)).take (max 1 style.maxFragments)

/-- The snippet of a text, if any of the terms occurs in it. -/
def cutFrom (style : SnippetStyle) (text : String) (terms : List String) :
    Logged (Option Snippet) := do
  match fragments style text.toList terms with
  | [] =>
    Logged.note (.noSnippet terms)
    return none
  | fragments =>
    let rendered := fragments.map (·.render (tagged style) text.toList)
    return some
      { text := String.ofList (ellipsis.intercalate rendered)
        windows := fragments.map (·.window)
        hits := fragments.flatMap (·.hits) }

end Snippet

end FacetSearch
