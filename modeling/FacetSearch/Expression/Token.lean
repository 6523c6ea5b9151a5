import FacetSearch.Text.Blank
import FacetSearch.Text.Quoted
import FacetSearch.Text.Literal

/-!
Tokens of the expression language, and how a text falls apart into them.

Blanks only separate. A word goes up to the next blank or reserved character; a quoted value may use
either quote character and a backslash before anything; operators are `==`, `!=`, `<`, `<=`, `>`,
`>=` and `=letters=`. Every token carries the byte offset of its first character.
-/

set_option autoImplicit false

namespace FacetSearch

inductive Token where
  | word (text : String)
  | quoted (text : String)
  | operator (symbol : String)
  | opening
  | closing
  | semicolon
  | comma
  deriving DecidableEq, Repr

namespace Token

/-- How messages name a token. -/
def label : Token → String
  | word text => "Word(" ++ Text.literal text ++ ")"
  | quoted text => "Quoted(" ++ Text.literal text ++ ")"
  | operator symbol => "Operator(" ++ Text.literal symbol ++ ")"
  | opening => "LParen"
  | closing => "RParen"
  | semicolon => "Semicolon"
  | comma => "Comma"

/-- A token and the byte offset at which it starts. -/
structure Located where
  token : Token
  position : Nat
  deriving DecidableEq, Repr

inductive Flaw where
  | unclosedQuote
  | brokenOperator (symbol : String)
  deriving DecidableEq, Repr

/-- Characters that end a word. -/
def isReserved (c : Char) : Bool :=
  ['"', '\'', '(', ')', ';', ',', '=', '!', '<', '>'].contains c

/-- Characters that a word is made of. -/
def isWordChar (c : Char) : Bool := !Text.isBlank c && !isReserved c

/-- The operator that starts with `first`, and what follows it. -/
def takeOperator (first : Char) (rest : List Char) : Except Flaw (Token × List Char) :=
  if first = '<' ∨ first = '>' then
    match rest with
    | '=' :: after => .ok (operator (String.ofList [first, '=']), after)
    | _ => .ok (operator (String.ofList [first]), rest)
  else if first = '!' then
    match rest with
    | '=' :: after => .ok (operator "!=", after)
    | _ => .error (.brokenOperator "!")
  else
    let letters := rest.takeWhile Char.isAlpha
    match rest.dropWhile Char.isAlpha with
    | '=' :: after => .ok (operator (String.ofList (first :: (letters ++ ['=']))), after)
    | _ => .error (.brokenOperator (String.ofList (first :: letters)))

/-- The token that starts with a character which is not blank, and what follows it. -/
def take (first : Char) (rest : List Char) : Except Flaw (Token × List Char) :=
  if first = '(' then .ok (opening, rest)
  else if first = ')' then .ok (closing, rest)
  else if first = ';' then .ok (semicolon, rest)
  else if first = ',' then .ok (comma, rest)
  else if first = '"' ∨ first = '\'' then
    match Text.Quoted.read first rest with
    | some (contents, after) => .ok (quoted (String.ofList contents), after)
    | none => .error .unclosedQuote
  else if isReserved first then takeOperator first rest
  else .ok (word (String.ofList (first :: rest.takeWhile isWordChar)), rest.dropWhile isWordChar)

end Token

namespace Text.Quoted

theorem length_read_lt {quote : Char} {text contents after : List Char}
    (success : read quote text = some (contents, after)) : after.length < text.length := by
  fun_induction read quote text generalizing contents after with
  | case1 => cases success
  | case2 => cases success
  | case3 c rest ih =>
    obtain ⟨⟨inner, tail⟩, found, equal⟩ := Option.map_eq_some_iff.1 success
    have shorter := ih found
    cases equal
    simp only [List.length_cons]
    omega
  | case4 rest =>
    cases success
    simp
  | case5 c rest _ _ ih =>
    obtain ⟨⟨inner, tail⟩, found, equal⟩ := Option.map_eq_some_iff.1 success
    have shorter := ih found
    cases equal
    simp only [List.length_cons]
    omega

end Text.Quoted

namespace Token

theorem length_takeOperator_le {first : Char} {rest after : List Char} {token : Token}
    (success : takeOperator first rest = .ok (token, after)) : after.length ≤ rest.length := by
  unfold takeOperator at success
  split at success
  · split at success <;> cases success
    · simp
    · exact Nat.le_refl _
  · split at success
    · split at success <;> cases success
      simp
    · have shorter := Text.length_dropWhile_le Char.isAlpha rest
      split at success <;> cases success
      rename_i found
      rw [found] at shorter
      exact Nat.le_of_succ_le shorter

theorem length_take_le {first : Char} {rest after : List Char} {token : Token}
    (success : take first rest = .ok (token, after)) : after.length ≤ rest.length := by
  unfold take at success
  split at success
  · cases success; exact Nat.le_refl _
  split at success
  · cases success; exact Nat.le_refl _
  split at success
  · cases success; exact Nat.le_refl _
  split at success
  · cases success; exact Nat.le_refl _
  split at success
  · split at success <;> cases success
    exact Nat.le_of_lt (Text.Quoted.length_read_lt ‹_›)
  split at success
  · exact length_takeOperator_le success
  · cases success
    exact Text.length_dropWhile_le _ _

/-- The tokens of a text that starts at a byte offset; a flaw comes with the offset of the token in
which it lies. -/
def scan (position : Nat) (text : List Char) : Except (Flaw × Nat) (List Located) :=
  match text with
  | [] => .ok []
  | first :: rest =>
    if Text.isBlank first then
      scan (position + first.utf8Size) rest
    else
      match _taken : take first rest with
      | .error flaw => .error (flaw, position)
      | .ok (token, after) =>
        let length := Text.byteLength (first :: rest) - Text.byteLength after
        (scan (position + length) after).map (⟨token, position⟩ :: ·)
termination_by text.length
decreasing_by
  · simp only [List.length_cons]; omega
  · have shorter := length_take_le _taken
    simp only [List.length_cons]; omega

end Token

end FacetSearch
