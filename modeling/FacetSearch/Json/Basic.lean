import FacetSearch.Decimal.Binary

/-!
JSON values. Members of an object keep the order in which their keys first appear.
-/

set_option autoImplicit false

namespace FacetSearch

/-- A JSON value. Integers between `-2 ^ 63` and `2 ^ 64 - 1` are exact; all other numbers are
floating-point numbers of 64 bits. -/
inductive Json where
  | null
  | boolean (value : Bool)
  | integer (value : Int)
  | float (value : Binary)
  | string (value : String)
  | array (items : List Json)
  | object (members : List (String × Json))
  deriving Inhabited

namespace Json

def kind : Json → String
  | null => "null"
  | boolean _ => "boolean"
  | integer _ | float _ => "number"
  | string _ => "string"
  | array _ => "array"
  | object _ => "object"

def member? (members : List (String × Json)) (key : String) : Option Json := members.lookup key

/-- Sets a member: a known key keeps its place and gets the new value. -/
def setMember (members : List (String × Json)) (key : String) (value : Json) :
    List (String × Json) :=
  if members.any (·.1 == key) then
    members.map fun entry => if entry.1 == key then (key, value) else entry
  else
    members ++ [(key, value)]

end Json

end FacetSearch
