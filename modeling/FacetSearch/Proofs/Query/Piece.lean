import FacetSearch.Phrase.Segment
import FacetSearch.Proofs.Expression.NormalForm
import FacetSearch.Proofs.Phrase.QuotedRun

/-!
The structure of a query text, for a reader who knows nothing of what the text was made from. A
backslash takes the next character with it, a quoted run is opaque, brackets of three kinds enclose
what stands between them, and " AND " and " OR " join what stands on both sides.

`chars_of_ofText?` says that the reader drops nothing. `Forms` says which pieces a text becomes
wherever it stands, and `Fits` where the text ends, a bracket closes or a blank follows.
-/

set_option autoImplicit false

namespace FacetSearch

/-- The word that joins the parts of a node, with its blanks. -/
def Junction.word : Junction → List Char
  | all => " AND ".toList
  | any => " OR ".toList

/-- A piece of a query text: characters that belong together, a joint, or a pair of brackets with
what it encloses. -/
inductive Piece where
  | text (chars : List Char)
  | joint (kind : Junction)
  | bracketed (opening : Char) (inside : List Piece)

namespace Piece

/-- The bracket that closes what a bracket opens. -/
def closing? : Char → Option Char
  | '(' => some ')'
  | '[' => some ']'
  | '\x7b' => some '\x7d'
  | _ => none

/-- Characters with a meaning for the reader. -/
def structural : List Char := [' ', '"', '\\', '(', ')', '[', ']', '\x7b', '\x7d']

/-- Closes the innermost open bracket, if it is one of the same kind. -/
def close? (level : List Piece) (closing : Char) :
    List (List Piece × Char) → Option (List Piece × List (List Piece × Char))
  | [] => none
  | (before, opening) :: outer =>
    if closing? opening = some closing then some (before ++ [.bracketed opening level], outer)
    else none

/-- Reads a text, where `level` stands before it in its brackets, and around these stand the levels
of `outer`, each up to the bracket that opened the next one. -/
def read? (level : List Piece) (outer : List (List Piece × Char)) (text : List Char) :
    Option (List Piece) :=
  match text with
  | [] => if outer.isEmpty then some level else none
  | ' ' :: 'A' :: 'N' :: 'D' :: ' ' :: rest => read? (level ++ [.joint .all]) outer rest
  | ' ' :: 'O' :: 'R' :: ' ' :: rest => read? (level ++ [.joint .any]) outer rest
  | '\\' :: c :: rest => read? (level ++ [.text ['\\', c]]) outer rest
  | '"' :: rest =>
    let run := Segment.throughQuote rest
    read? (level ++ [.text ('"' :: run.1)]) outer run.2
  | c :: rest =>
    if (closing? c).isSome then read? [] ((level, c) :: outer) rest
    else if [')', ']', '\x7d'].contains c then
      match close? level c outer with
      | some (level, outer) => read? level outer rest
      | none => none
    else read? (level ++ [.text [c]]) outer rest
termination_by text.length
decreasing_by
  all_goals simp only [List.length_cons]
  any_goals omega
  have shorter := Segment.length_throughQuote_le rest
  omega

/-- The pieces of a text in which all brackets match. -/
def ofText? (text : List Char) : Option (List Piece) := read? [] [] text

mutual

/-- A piece as it stands in the text. -/
def chars : Piece → List Char
  | text chars => chars
  | joint kind => kind.word
  | bracketed opening inside => opening :: charsOf inside ++ (closing? opening).toList

/-- Pieces as they stand in the text. -/
def charsOf : List Piece → List Char
  | [] => []
  | piece :: rest => piece.chars ++ charsOf rest

end

@[simp] theorem charsOf_append (front back : List Piece) :
    charsOf (front ++ back) = charsOf front ++ charsOf back := by
  induction front with
  | nil => rfl
  | cons piece rest ih =>
      rw [List.cons_append, charsOf, charsOf, ih, List.append_assoc]

@[simp] theorem charsOf_singleton (piece : Piece) : charsOf [piece] = piece.chars := by
  rw [charsOf, charsOf, List.append_nil]

/-- The text of levels up to the innermost open bracket. -/
def charsOfOuter : List (List Piece × Char) → List Char
  | [] => []
  | (before, opening) :: outer => charsOfOuter outer ++ charsOf before ++ [opening]

theorem chars_of_close? {level next : List Piece} {closing : Char}
    {outer onward : List (List Piece × Char)}
    (closed : close? level closing outer = some (next, onward)) :
    charsOfOuter onward ++ charsOf next = charsOfOuter outer ++ charsOf level ++ [closing] := by
  cases outer with
  | nil => cases closed
  | cons innermost outer =>
      obtain ⟨before, opening⟩ := innermost
      by_cases pair : closing? opening = some closing
      · rw [close?, if_pos pair] at closed
        cases closed
        simp [charsOfOuter, chars, pair]
      · rw [close?, if_neg pair] at closed
        cases closed

theorem chars_of_read? {level made : List Piece} {outer : List (List Piece × Char)}
    {text : List Char} (read : read? level outer text = some made) :
    charsOf made = charsOfOuter outer ++ charsOf level ++ text := by
  fun_induction read? level outer text with
  | case1 level outer closed =>
      rw [List.isEmpty_iff.mp closed]
      simp only [Option.some.injEq] at read
      simp [read, charsOfOuter]
  | case2 => cases read
  | case3 level outer rest ih => simp [ih read, chars, Junction.word]
  | case4 level outer rest ih => simp [ih read, chars, Junction.word]
  | case5 level outer c rest ih => simp [ih read, chars]
  | case6 level outer rest run ih =>
      have whole := Segment.throughQuote_append rest
      simp [ih read, chars, run, whole]
  | case7 level outer c rest _ _ _ _ opens ih => simp [ih read, charsOfOuter, charsOf]
  | case8 level outer c rest _ _ _ _ _ _ next onward closed ih =>
      rw [ih read, chars_of_close? closed, List.append_assoc, List.singleton_append]
  | case9 => cases read
  | case10 level outer c rest _ _ _ _ _ _ ih => simp [ih read, chars]

/-- The reader drops nothing. -/
theorem chars_of_ofText? {text : List Char} {pieces : List Piece}
    (read : ofText? text = some pieces) : charsOf pieces = text := by
  have whole := chars_of_read? read
  simpa [charsOfOuter, charsOf] using whole

theorem read?_space {rest : List Char} (noAll : ∀ more, rest ≠ 'A' :: 'N' :: 'D' :: ' ' :: more)
    (noAny : ∀ more, rest ≠ 'O' :: 'R' :: ' ' :: more) (level : List Piece)
    (outer : List (List Piece × Char)) :
    read? level outer (' ' :: rest) = read? (level ++ [.text [' ']]) outer rest := by
  rw [read?]
  · rfl
  · exact fun more _ same => noAll more same
  · exact fun more _ same => noAny more same
  · exact fun c more same => absurd same (by decide)
  · exact fun same => absurd same (by decide)

theorem read?_plain {c : Char} (plain : c ∉ structural) (level : List Piece)
    (outer : List (List Piece × Char)) (rest : List Char) :
    read? level outer (c :: rest) = read? (level ++ [.text [c]]) outer rest := by
  simp only [structural, List.mem_cons, List.not_mem_nil, or_false, not_or] at plain
  obtain ⟨noBlank, noQuote, noEscape, roundOpens, roundCloses, squareOpens, squareCloses,
    curlyOpens, curlyCloses⟩ := plain
  have opens : closing? c = none := by
    unfold closing?
    split <;> first | rfl | contradiction
  have closes : [')', ']', '\x7d'].contains c = false := by
    simp [roundCloses, squareCloses, curlyCloses]
  rw [read?]
  · rw [opens, closes]
    rfl
  · exact fun more same _ => absurd same noBlank
  · exact fun more same _ => absurd same noBlank
  · exact fun d more same _ => absurd same noEscape
  · exact fun same => absurd same noQuote

theorem read?_opening {opening closing : Char} (pair : closing? opening = some closing)
    (level : List Piece) (outer : List (List Piece × Char)) (rest : List Char) :
    read? level outer (opening :: rest) = read? [] ((level, opening) :: outer) rest := by
  have opens : opening = '(' ∨ opening = '[' ∨ opening = '\x7b' := by
    unfold closing? at pair
    split at pair <;> simp_all
  rcases opens with rfl | rfl | rfl
  all_goals
    rw [read?]
    · rfl
    all_goals simp

theorem read?_closing {opening closing : Char} (pair : closing? opening = some closing)
    (level before : List Piece) (outer : List (List Piece × Char)) (rest : List Char) :
    read? level ((before, opening) :: outer) (closing :: rest)
      = read? (before ++ [.bracketed opening level]) outer rest := by
  have closes : closing = ')' ∨ closing = ']' ∨ closing = '\x7d' := by
    unfold closing? at pair
    split at pair <;> simp_all [eq_comm]
  rcases closes with rfl | rfl | rfl
  all_goals
    rw [read?]
    · simp only [close?, pair, if_true]
      rfl
    all_goals simp

/-- A text becomes these pieces wherever it stands. -/
def Forms (text : List Char) (made : List Piece) : Prop :=
  ∀ level outer rest, read? level outer (text ++ rest) = read? (level ++ made) outer rest

/-- What stands behind the text of a query: nothing, the bracket around it or, if it is followed by
another part of its level, a joint. -/
def Ends (followed : Bool) (rest : List Char) : Prop :=
  rest = [] ∨ (∃ more, rest = ')' :: more) ∨
    (followed = true ∧ ∃ more, rest = ' ' :: more)

/-- A text becomes these pieces where it is not continued by a longer word. -/
def Fits (followed : Bool) (text : List Char) (made : List Piece) : Prop :=
  ∀ level outer rest, Ends followed rest →
    read? level outer (text ++ rest) = read? (level ++ made) outer rest

theorem Forms.fits {followed : Bool} {text : List Char} {made : List Piece}
    (forms : Forms text made) : Fits followed text made :=
  fun level outer rest _ => forms level outer rest

variable {followed : Bool}

theorem Fits.ofText?_eq {text : List Char} {made : List Piece} (fits : Fits followed text made) :
    ofText? text = some made := by
  have whole := fits [] [] [] (.inl rfl)
  rw [List.append_nil, List.nil_append] at whole
  rw [ofText?, whole, read?]
  rfl

/-- Pieces stand for the text that they were read from. -/
theorem Fits.charsOf_eq {text : List Char} {made : List Piece} (fits : Fits followed text made) :
    charsOf made = text := chars_of_ofText? fits.ofText?_eq

theorem forms_nil : Forms [] [] := by
  intro level outer rest
  rw [List.nil_append, List.append_nil]

theorem Forms.append {front back : List Char} {first second : List Piece}
    (head : Forms front first) (tail : Forms back second) :
    Forms (front ++ back) (first ++ second) := by
  intro level outer rest
  rw [List.append_assoc, head, tail, List.append_assoc]

theorem Forms.append_fits {front back : List Char} {first second : List Piece}
    (head : Forms front first) (tail : Fits followed back second) :
    Fits followed (front ++ back) (first ++ second) := by
  intro level outer rest ends
  rw [List.append_assoc, head, tail _ _ _ ends, List.append_assoc]

/-- Characters as pieces of their own. -/
def single (text : List Char) : List Piece := text.map fun c => .text [c]

theorem forms_plain {text : List Char} (plain : ∀ c ∈ text, c ∉ structural) :
    Forms text (single text) := by
  induction text with
  | nil => exact forms_nil
  | cons c rest ih =>
      intro level outer more
      rw [List.cons_append, read?_plain (plain c List.mem_cons_self),
        ih (fun d member => plain d (List.mem_cons_of_mem _ member)), List.append_assoc]
      rfl

theorem forms_escaped (c : Char) : Forms ['\\', c] [.text ['\\', c]] := by
  intro level outer rest
  rw [List.cons_append, List.singleton_append, read?]

/-- A quoted run is one piece, whatever it says. -/
theorem forms_quoted {run : List Char} (within : QuoteState.after run = .inside) :
    Forms ('"' :: (run ++ ['"'])) [.text ('"' :: (run ++ ['"']))] := by
  intro level outer rest
  rw [List.cons_append, List.append_assoc, List.singleton_append, read?,
    Segment.throughQuote_append_quote within]

theorem forms_word (kind : Junction) : Forms kind.word [.joint kind] := by
  intro level outer rest
  cases kind with
  | all =>
      change read? level outer (' ' :: 'A' :: 'N' :: 'D' :: ' ' :: rest) = _
      rw [read?]
  | any =>
      change read? level outer (' ' :: 'O' :: 'R' :: ' ' :: rest) = _
      rw [read?]

/-- A blank before anything that cannot begin a joint. -/
theorem Forms.space {c : Char} {text : List Char} {made : List Piece} (noAll : c ≠ 'A')
    (noAny : c ≠ 'O') (forms : Forms (c :: text) made) :
    Forms (' ' :: c :: text) (.text [' '] :: made) := by
  intro level outer rest
  have onward := forms (level ++ [.text [' ']]) outer rest
  rw [List.cons_append] at onward
  rw [List.cons_append, List.cons_append, read?_space, onward, List.append_assoc]
  · rfl
  · exact fun more same => noAll (List.cons.inj same).1
  · exact fun more same => noAny (List.cons.inj same).1

/-- Brackets make one piece of what they enclose, also where the text ends at the bracket. -/
theorem Fits.enclosed {text : List Char} {made : List Piece} (fits : Fits followed text made) :
    Forms ('(' :: (text ++ [')'])) [.bracketed '(' made] := by
  intro level outer rest
  have inside := fits [] ((level, '(') :: outer) (')' :: rest) (.inr (.inl ⟨rest, rfl⟩))
  rw [List.cons_append, List.append_assoc, List.singleton_append, read?_opening rfl, inside,
    List.nil_append, read?_closing rfl]

theorem Forms.bracketed {opening closing : Char} {text : List Char} {made : List Piece}
    (pair : closing? opening = some closing) (forms : Forms text made) :
    Forms (opening :: (text ++ [closing])) [.bracketed opening made] := by
  intro level outer rest
  rw [List.cons_append, List.append_assoc, List.singleton_append, read?_opening pair, forms,
    List.nil_append, read?_closing pair]

/-- Pieces of several texts with joints between them. -/
def joined (kind : Junction) (parts : List (List Piece)) : List Piece :=
  [joint kind].intercalate parts

theorem joined_cons_cons (kind : Junction) (first second : List Piece) (rest : List (List Piece)) :
    joined kind (first :: second :: rest)
      = first ++ joint kind :: joined kind (second :: rest) := by
  rw [joined, List.intercalate_cons_cons, List.append_assoc]
  rfl

/-- Texts joined by a word become their pieces with joints between them. All but the last one are
followed by a joint. -/
theorem fits_intercalate (kind : Junction) {α : Type} {text : α → List Char}
    {pieces : α → List Piece} (items : List α)
    (before : ∀ item ∈ items.dropLast, Fits true (text item) (pieces item))
    (last : ∀ item ∈ items.getLast?, Fits followed (text item) (pieces item)) :
    Fits followed (kind.word.intercalate (items.map text)) (joined kind (items.map pieces)) := by
  induction items with
  | nil => exact forms_nil.fits
  | cons first items ih =>
      cases items with
      | nil =>
          have lone := last first rfl
          simpa [joined] using lone
      | cons second items =>
          rw [List.dropLast_cons_cons] at before
          rw [List.getLast?_cons_cons] at last
          have head := before first List.mem_cons_self
          have tail := ih (fun item member => before item (List.mem_cons_of_mem _ member)) last
          have word : ∀ more, Ends true (kind.word ++ more) := by
            intro more
            cases kind <;> exact .inr (.inr ⟨rfl, _, rfl⟩)
          have onward := (forms_word kind).append_fits tail
          intro level outer rest ends
          rw [List.map_cons, List.map_cons, List.map_cons, List.map_cons, joined_cons_cons,
            List.intercalate_cons_cons, List.append_assoc, List.append_assoc, head _ _ _ (word _),
            ← List.append_assoc]
          rw [List.map_cons, List.map_cons] at onward
          rw [onward _ _ _ ends, List.append_assoc]
          rfl

theorem forms_enclosed_intercalate (kind : Junction) {α : Type} {text : α → List Char}
    {pieces : α → List Piece} (items : List α)
    (each : ∀ item ∈ items, Forms (text item) (pieces item)) :
    Forms ('(' :: (kind.word.intercalate (items.map text) ++ [')']))
      [.bracketed '(' (joined kind (items.map pieces))] := by
  have inside : Fits false (kind.word.intercalate (items.map text))
      (joined kind (items.map pieces)) := by
    apply fits_intercalate
    · exact fun item member => (each item (List.mem_of_mem_dropLast member)).fits
    · exact fun item final => (each item (List.mem_of_getLast? final)).fits
  exact inside.enclosed

end Piece

end FacetSearch
