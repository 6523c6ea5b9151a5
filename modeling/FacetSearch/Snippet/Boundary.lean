import FacetSearch.Snippet.Span
import FacetSearch.Text.Alphanumeric

/-!
Windows around matches. A window never cuts a word in two, and it ends at dividers: where an edge
would stand in a stretch between words that holds a divider, it moves to the word inside.

Offsets that a caller gives are clamped to the text and moved back to a character boundary.
-/

set_option autoImplicit false

namespace FacetSearch

open Text (cut byteLength isAlphanumeric)

def Text.separatesWords (c : Char) : Bool := !isAlphanumeric c

/-- The characters at which windows end. -/
structure Dividers where
  chars : List Char
  deriving DecidableEq, Repr

namespace Dividers

def standard : String := "()[]\x7b\x7d;.:!?"

def ofText (text : String) : Dividers := ⟨text.toList⟩

def holds (dividers : Dividers) (c : Char) : Bool := dividers.chars.contains c

/-- Moves the left edge of a window. Inside a word it goes back to the start of the word; in front
of a stretch with a divider it goes on to the next word. -/
def left (dividers : Dividers) (text : List Char) (offset : Nat) : Nat :=
  let parts := cut offset text
  let start := byteLength parts.1
  let word := parts.1.reverse.takeWhile isAlphanumeric
  if word.isEmpty then
    let gap := parts.2.takeWhile Text.separatesWords
    if gap.any dividers.holds then start + byteLength gap else start
  else
    start - byteLength word

/-- Moves the right edge of a window. Inside a word it goes on to the end of the word; behind a
stretch with a divider it goes back to the previous word. -/
def right (dividers : Dividers) (text : List Char) (offset : Nat) : Nat :=
  let parts := cut offset text
  let stop := byteLength parts.1
  let word := parts.2.takeWhile isAlphanumeric
  if word.isEmpty then
    let gap := parts.1.reverse.takeWhile Text.separatesWords
    if gap.any dividers.holds then stop - byteLength gap else stop
  else
    stop + byteLength word

def window (dividers : Dividers) (text : List Char) (start stop : Nat) : Span :=
  .between (dividers.left text start) (dividers.right text stop)

/-- The start of the first word at or after an offset, or the end of the text. -/
def nextWordStart (text : List Char) (offset : Nat) : Nat :=
  offset + byteLength ((cut offset text).2.takeWhile Text.separatesWords)

/-- The end of the last word before an offset, or the start of the text. -/
def previousWordEnd (text : List Char) (offset : Nat) : Nat :=
  offset - byteLength ((cut offset text).1.reverse.takeWhile Text.separatesWords)

/-- The left edge of a window around a match: the given one, or the first word behind the last
divider in front of the match. -/
def startInside (dividers : Dividers) (text : List Char) (matched : Span) (start : Nat) : Nat :=
  let front := Text.slice text start matched.start
  if front.any dividers.holds then
    let kept := front.reverse.takeWhile (!dividers.holds ·)
    min (nextWordStart text (matched.start - byteLength kept)) matched.start
  else
    start

/-- The right edge of a window around a match: the given one, or the last word in front of the first
divider behind the match. -/
def stopInside (dividers : Dividers) (text : List Char) (matched : Span) (stop : Nat) : Nat :=
  let back := Text.slice text matched.stop stop
  if back.any dividers.holds then
    let kept := back.takeWhile (!dividers.holds ·)
    max (previousWordEnd text (matched.stop + byteLength kept)) matched.stop
  else
    stop

/-- The window around a match with so many characters on both sides of it. It always holds the
match, and between its edges and the match there is no divider. -/
def windowAround (dividers : Dividers) (text : List Char) (start stop padding : Nat) : Span :=
  let matched := Span.between (Text.floor text start) (Text.floor text stop)
  let before := (cut matched.start text).1
  let after := (cut matched.stop text).2
  let wide := (dividers.window text
    (matched.start - byteLength (before.reverse.take padding))
    (matched.stop + byteLength (after.take padding))).union matched
  .between (dividers.startInside text matched wide.start)
    (dividers.stopInside text matched wide.stop)

end Dividers

end FacetSearch
