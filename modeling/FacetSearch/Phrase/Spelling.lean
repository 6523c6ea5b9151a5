import FacetSearch.Notice
import FacetSearch.Phrase.Segment

/-!
Spelling corrections. A spellchecker sees only the words outside quotes, and answers with a flat
list of words; they go back into the phrase one for one, and everything else stays as it was typed.
-/

set_option autoImplicit false

namespace FacetSearch.Spelling

/-- The words of a phrase outside quotes. -/
def looseWords (segments : List Segment) : List (List Char) :=
  (segments.filter (!·.isQuoted)).flatMap Segment.words

/-- The text that a spellchecker is asked about, if there is any. -/
def question? (phrase : String) : Option String :=
  match looseWords (Segment.ofPhrase phrase.toList) with
  | [] => none
  | words => some (String.ofList ([' '].intercalate words))

/-- Replaces words in order as long as there are corrections, and keeps the blanks between them.
Returns the text and the corrections that are left. -/
def replace (corrections : List (List Char)) (text : List Char) :
    List Char × List (List Char) :=
  match text with
  | [] => ([], corrections)
  | c :: rest =>
    if Text.isBlank c then
      let later := replace corrections rest
      (c :: later.1, later.2)
    else
      let word := c :: rest.takeWhile (!Text.isBlank ·)
      let later := replace corrections.tail (rest.dropWhile (!Text.isBlank ·))
      (corrections.headD word ++ later.1, later.2)
termination_by text.length
decreasing_by
  · simp only [List.length_cons]
    omega
  · have shorter := Text.length_dropWhile_le (!Text.isBlank ·) rest
    simp only [List.length_cons]
    omega

/-- Replaces the words of all segments outside quotes. Returns the texts of the segments and the
corrections that are left. -/
def replaceAll (corrections : List (List Char)) :
    List Segment → List (List Char) × List (List Char)
  | [] => ([], corrections)
  | .quoted text :: rest =>
    let later := replaceAll corrections rest
    (text :: later.1, later.2)
  | .plain text :: rest =>
    let here := replace corrections text
    let later := replaceAll here.2 rest
    (here.1 :: later.1, later.2)

/-- Puts a correction into a phrase. Segments are joined by one blank; words that are too many are
dropped. A blank phrase and a blank correction change nothing. -/
def merge (phrase correction : String) : Logged String := do
  if Text.allBlank phrase.toList || Text.allBlank correction.toList then
    return phrase
  let merged := replaceAll (Text.words correction.toList) (Segment.ofPhrase phrase.toList)
  if merged.2.length ≠ 0 then
    Logged.note (.surplusWords merged.2.length phrase)
  return String.ofList ([' '].intercalate merged.1)

end FacetSearch.Spelling
