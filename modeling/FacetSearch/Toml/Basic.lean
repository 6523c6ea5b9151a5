import FacetSearch.Decimal.Binary

/-!
TOML values. The entries of a table are in the order in which the document defines them, each key
once.
-/

set_option autoImplicit false

namespace FacetSearch

/-- A TOML value. A moment is a date, a time of day or both, as text. -/
inductive Toml where
  | boolean (value : Bool)
  | integer (value : Int)
  | float (value : Binary)
  | string (value : String)
  | moment (text : String)
  | array (items : List Toml)
  | table (entries : List (String × Toml))
  deriving Inhabited

namespace Toml

def isTable : Toml → Bool
  | table _ => true
  | _ => false

/-- Characters that a key can have without quotes. -/
def isBareChar (c : Char) : Bool := c.isAlphanum || c == '_' || c == '-'

/-- Control characters that stand in no text and no comment. -/
def isControl (c : Char) : Bool := (c.toNat < 0x20 && c != '\t') || c.toNat == 0x7F

end Toml

end FacetSearch
