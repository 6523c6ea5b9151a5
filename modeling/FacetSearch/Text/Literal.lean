import FacetSearch.Text.Graphic

/-!
Literals: texts as messages and listings show them, in double quotes with escapes for quotes,
backslashes and everything that is not graphic.
-/

set_option autoImplicit false

namespace FacetSearch.Text

/-- How a literal shows a character: itself, a short escape, or its code point in hexadecimal. -/
def literalChar (c : Char) : List Char :=
  match c with
  | '\x00' => ['\\', '0']
  | '\t' => ['\\', 't']
  | '\n' => ['\\', 'n']
  | '\r' => ['\\', 'r']
  | '"' => ['\\', '"']
  | '\\' => ['\\', '\\']
  | c =>
    if isGraphic c then [c]
    else ['\\', 'u', '\x7b'] ++ Nat.toDigits 16 c.toNat ++ ['\x7d']

def literal (text : String) : String :=
  "\"" ++ String.ofList (text.toList.flatMap literalChar) ++ "\""

def literals (texts : List String) : String :=
  "[" ++ ", ".intercalate (texts.map literal) ++ "]"

end FacetSearch.Text
