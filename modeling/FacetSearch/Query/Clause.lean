import FacetSearch.Expression.Basic
import FacetSearch.Phrase.Segment
import FacetSearch.Schema.Basic
import FacetSearch.Text.Quoted

/-!
Clauses of an engine query: what a comparison becomes on one field, and its text.

A value that reads like a search phrase becomes a clause of several terms: phrases in quotes on the
field's variant for phrases, words on the one for words, all of which have to match.
-/

set_option autoImplicit false

namespace FacetSearch

namespace Engine

def quote (value : String) : String := String.ofList (Text.Quoted.enclose '"' value.toList)

/-- Whether a value stands for itself without quotes: digits only, or a star alone. -/
def isBare (value : String) : Bool :=
  (!value.isEmpty && value.toList.all Char.isDigit) || value == "*"

/-- A value, in quotes unless it stands for itself. -/
def quoteValue (value : String) : String := if isBare value then value else quote value

/-- Characters with a meaning for the engine that make a value a search phrase. -/
def phraseChars : List Char :=
  ['"', '(', ')', '[', ']', '\x7b', '\x7d', '~', '^', '?', ':', '\\', '/', '+', '!']

/-- Whether a value reads like a search phrase: it has blanks or characters with a meaning for the
engine, or a star that does not stand alone. -/
def isFreeText (value : String) : Bool :=
  let text := Text.trim value.toList
  text.any (fun c => Text.isBlank c || phraseChars.contains c)
    || (text.contains '*' && text != ['*'])

/-- Characters of a word that lose their meaning for the engine by a backslash. -/
def escapedChars : List Char :=
  ['+', '-', '&', '|', '!', '(', ')', '\x7b', '\x7d', '[', ']', '^', '"', '~', ':', '\\', '/']

/-- Puts a backslash before every character with a meaning, except for the wildcards. -/
def escapeWord (word : List Char) : List Char :=
  word.flatMap fun c => if escapedChars.contains c then ['\\', c] else [c]

/-- Doubles a last backslash that would take the closing quote with it. -/
def closeEscapes (phrase : List Char) : List Char :=
  if Segment.trailingBackslashes phrase % 2 = 1 then phrase ++ ['\\'] else phrase

end Engine

/-- A term of a search phrase on a variant of a field. -/
inductive FreeTerm where
  | word (variant : String) (text : List Char)
  | phrase (variant : String) (text : List Char)
  deriving DecidableEq

namespace FreeTerm

def write : FreeTerm → String
  | word variant text => variant ++ ":" ++ String.ofList (Engine.escapeWord text)
  | phrase variant text => variant ++ ":\"" ++ String.ofList (Engine.closeEscapes text) ++ "\""

/-- The terms of a segment. Quoted runs have contents, so none of them is left out. -/
def ofSegment (catalog : Catalog) (field : String) : Segment → List FreeTerm
  | .quoted run => [phrase (catalog.phraseField field) (Text.trim (Segment.withoutQuotes run))]
  | .plain text => (Text.words text).map (word (catalog.wordField field))

def ofPhrase (catalog : Catalog) (field value : String) : List FreeTerm :=
  (Segment.ofPhrase value.toList).flatMap (ofSegment catalog field)

end FreeTerm

/-- The sides of a range that has one open end. -/
inductive RangeBound where
  | atLeast
  | above
  | atMost
  | below
  deriving DecidableEq, Repr

inductive Clause where
  | value (negated : Bool) (text : String)
  | freeText (negated : Bool) (terms : List FreeTerm)
  | oneOf (values : List String)
  | range (bound : RangeBound) (limit : String)
  | custom (symbol : String) (arguments : List String)
  deriving DecidableEq

namespace Clause

def sign (negated : Bool) : String := if negated then "-" else ""

/-- A range in its brackets: square ones include the limit, curly ones do not. -/
def writeRange (limit : String) : RangeBound → String
  | .atLeast => "[" ++ limit ++ " TO *]"
  | .above => "\x7b" ++ limit ++ " TO *\x7d"
  | .atMost => "[* TO " ++ limit ++ "]"
  | .below => "\x7b* TO " ++ limit ++ "\x7d"

def write (field : FieldDescriptor) : Clause → String
  | value negated text =>
      sign negated ++ field.name ++ ":" ++ Engine.quoteValue text ++ field.suffix
  | freeText negated terms =>
    sign negated ++ "(" ++ " AND ".intercalate (terms.map FreeTerm.write) ++ ")" ++ field.suffix
  | oneOf values =>
    field.name ++ ":(" ++ " OR ".intercalate (values.map Engine.quoteValue) ++ ")" ++ field.suffix
  | range bound limit => field.name ++ ":" ++ writeRange limit bound ++ field.suffix
  | custom symbol arguments =>
    field.name ++ " " ++ symbol ++ " " ++ ",".intercalate arguments ++ field.suffix

end Clause

end FacetSearch
