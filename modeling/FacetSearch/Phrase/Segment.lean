import FacetSearch.Text.Blank

/-!
Segments of a search phrase: runs in double quotes, and the text between them.

A quote opens a run that goes up to the next quote without a backslash before it, or to the end of
the phrase. Text outside quotes keeps its inner spacing. Runs without contents are dropped, and so
is blank text between runs.
-/

set_option autoImplicit false

namespace FacetSearch

/-- A part of a phrase. A quoted part includes its quotes. -/
inductive Segment where
  | plain (text : List Char)
  | quoted (text : List Char)
  deriving DecidableEq, Repr

namespace Segment

/-- The text of a segment as it stands in the phrase. -/
def text : Segment → List Char
  | plain text | quoted text => text

def isQuoted : Segment → Bool
  | plain _ => false
  | quoted _ => true

def trailingBackslashes (text : List Char) : Nat := (text.reverse.takeWhile (· == '\\')).length

/-- Whether a text ends in a quote that no backslash takes its meaning from. -/
def endsInQuote (text : List Char) : Bool :=
  text.getLast? == some '"' && trailingBackslashes text.dropLast % 2 == 0

/-- A quoted run without its quotes; the closing one may be missing. -/
def withoutQuotes (run : List Char) : List Char :=
  let body := if run.head? = some '"' then run.tail else run
  if endsInQuote body then body.dropLast else body

def inner : Segment → List Char
  | plain text => text
  | quoted text => withoutQuotes text

def words (segment : Segment) : List (List Char) := Text.words segment.inner

/-- What follows an opening quote up to the closing one, and what follows that. A backslash takes
the next character with it. -/
def throughQuote : List Char → List Char × List Char
  | [] => ([], [])
  | '\\' :: c :: rest =>
    let parts := throughQuote rest
    ('\\' :: c :: parts.1, parts.2)
  | c :: rest =>
    if c = '"' then ([c], rest)
    else
      let parts := throughQuote rest
      (c :: parts.1, parts.2)

theorem throughQuote_append (text : List Char) :
    (throughQuote text).1 ++ (throughQuote text).2 = text := by
  fun_induction throughQuote text with
  | case1 => rfl
  | case2 c rest parts ih => simp [parts, ih]
  | case3 => rfl
  | case4 c rest _ _ parts ih => simp [parts, ih]

theorem length_throughQuote_le (text : List Char) :
    (throughQuote text).2.length ≤ text.length := by
  have parts := congrArg List.length (throughQuote_append text)
  simp only [List.length_append] at parts
  omega

/-- A quoted run, unless its contents are blank. -/
def ofRun? (run : List Char) : Option Segment :=
  if Text.allBlank (withoutQuotes run) then none else some (quoted run)

/-- Text outside quotes without the blanks around it, unless it is blank. -/
def ofText? (text : List Char) : Option Segment :=
  if Text.allBlank text then none else some (plain (Text.trim text))

def ofPhrase (phrase : List Char) : List Segment :=
  match phrase with
  | [] => []
  | c :: rest =>
    if c = '"' then
      let parts := throughQuote rest
      (ofRun? (c :: parts.1)).toList ++ ofPhrase parts.2
    else
      (ofText? (c :: rest.takeWhile (· != '"'))).toList ++ ofPhrase (rest.dropWhile (· != '"'))
termination_by phrase.length
decreasing_by
  · have shorter := length_throughQuote_le rest
    simp only [List.length_cons]
    omega
  · have shorter := Text.length_dropWhile_le (· != '"') rest
    simp only [List.length_cons]
    omega

end Segment

end FacetSearch
