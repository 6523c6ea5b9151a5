import FacetSearch.Json.Basic
import FacetSearch.Decimal.Layout

/-!
JSON text, on one line or indented by two blanks.
-/

set_option autoImplicit false

namespace FacetSearch.Json

def escapeChar (c : Char) : List Char :=
  match c with
  | '"' => ['\\', '"']
  | '\\' => ['\\', '\\']
  | '\n' => ['\\', 'n']
  | '\r' => ['\\', 'r']
  | '\t' => ['\\', 't']
  | c =>
    if c.toNat = 8 then ['\\', 'b']
    else if c.toNat = 12 then ['\\', 'f']
    else if c.toNat < 0x20 then
      ['\\', 'u', '0', '0', Nat.digitChar (c.toNat / 16), Nat.digitChar (c.toNat % 16)]
    else [c]

def quoted (text : String) : String :=
  "\"" ++ String.ofList (text.toList.flatMap escapeChar) ++ "\""

/-- A value without parts. Brackets stand for values that have none of theirs. -/
def scalar : Json → String
  | null => "null"
  | boolean value => if value then "true" else "false"
  | integer value => toString value
  | float value => value.scientific .double
  | string value => quoted value
  | array _ => "[]"
  | object _ => "\x7b\x7d"

mutual

/-- A value on one line, without blanks. -/
def compact : Json → String
  | array items => "[" ++ ",".intercalate (compactItems items) ++ "]"
  | object members => "\x7b" ++ ",".intercalate (compactMembers members) ++ "\x7d"
  | value => value.scalar

def compactItems : List Json → List String
  | [] => []
  | item :: rest => item.compact :: compactItems rest

def compactMembers : List (String × Json) → List String
  | [] => []
  | (key, value) :: rest => (quoted key ++ ":" ++ value.compact) :: compactMembers rest

end

/-- Parts in brackets, each on a line of its own. -/
def block (margin opening : String) (parts : List String) (closing : String) : String :=
  match parts with
  | [] => opening ++ closing
  | parts =>
    opening ++ "\n" ++ ",\n".intercalate (parts.map (margin ++ "  " ++ ·)) ++ "\n" ++ margin
      ++ closing

mutual

/-- A value over several lines; `margin` stands before all lines but the first. -/
def indented (margin : String) : Json → String
  | array items => block margin "[" (indentedItems (margin ++ "  ") items) "]"
  | object members => block margin "\x7b" (indentedMembers (margin ++ "  ") members) "\x7d"
  | value => value.scalar

def indentedItems (margin : String) : List Json → List String
  | [] => []
  | item :: rest => item.indented margin :: indentedItems margin rest

def indentedMembers (margin : String) : List (String × Json) → List String
  | [] => []
  | (key, value) :: rest =>
    (quoted key ++ ": " ++ value.indented margin) :: indentedMembers margin rest

end

def pretty (value : Json) : String := value.indented ""

end FacetSearch.Json
