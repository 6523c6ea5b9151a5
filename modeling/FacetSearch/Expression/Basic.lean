/-!
Search expressions: comparisons of a field with arguments, joined by "and" and "or".

Reading builds expressions with `allOf` and `anyOf`, which merge a part of the same kind into its
parent and stand for a lone part themselves.
-/

set_option autoImplicit false

namespace FacetSearch

inductive Operator where
  | equal
  | unequal
  | oneOf
  | above
  | atLeast
  | below
  | atMost
  | custom (symbol : String)
  deriving DecidableEq, Repr

namespace Operator

/-- The operator that a symbol stands for. Every unknown symbol is an operator of its own. -/
def ofSymbol (symbol : String) : Operator :=
  if symbol = "==" then equal
  else if symbol = "!=" then unequal
  else if symbol = "=in=" then oneOf
  else if symbol = "=gt=" ∨ symbol = ">" then above
  else if symbol = "=ge=" ∨ symbol = ">=" then atLeast
  else if symbol = "=lt=" ∨ symbol = "<" then below
  else if symbol = "=le=" ∨ symbol = "<=" then atMost
  else custom symbol

/-- The one symbol under which an operator is written. -/
def symbol : Operator → String
  | equal => "=="
  | unequal => "!="
  | oneOf => "=in="
  | above => "=gt="
  | atLeast => "=ge="
  | below => "=lt="
  | atMost => "=le="
  | custom symbol => symbol

def takesList : Operator → Bool
  | oneOf | custom _ => true
  | _ => false

end Operator

/-- A field, an operator and its arguments. The field may be the name of a group of fields. -/
structure Comparison where
  field : String
  operator : Operator
  arguments : List String
  deriving DecidableEq, Repr

inductive Expression where
  | all (parts : List Expression)
  | any (parts : List Expression)
  | comparison (comparison : Comparison)
  deriving Inhabited

namespace Expression

mutual

def decEq : (first second : Expression) → Decidable (first = second)
  | all parts, all others =>
    match decEqList parts others with
    | isTrue same => isTrue (by rw [same])
    | isFalse different => isFalse (by intro same; exact different (all.inj same))
  | any parts, any others =>
    match decEqList parts others with
    | isTrue same => isTrue (by rw [same])
    | isFalse different => isFalse (by intro same; exact different (any.inj same))
  | comparison leaf, comparison other =>
    if same : leaf = other then isTrue (by rw [same])
    else isFalse (by intro equal; exact same (comparison.inj equal))
  | all _, any _ => isFalse nofun
  | all _, comparison _ => isFalse nofun
  | any _, all _ => isFalse nofun
  | any _, comparison _ => isFalse nofun
  | comparison _, all _ => isFalse nofun
  | comparison _, any _ => isFalse nofun

def decEqList : (first second : List Expression) → Decidable (first = second)
  | [], [] => isTrue rfl
  | [], _ :: _ => isFalse nofun
  | _ :: _, [] => isFalse nofun
  | part :: parts, other :: others =>
    match decEq part other, decEqList parts others with
    | isTrue same, isTrue rest => isTrue (by rw [same, rest])
    | isFalse different, _ => isFalse (by intro same; exact different (List.cons.inj same).1)
    | _, isFalse different => isFalse (by intro same; exact different (List.cons.inj same).2)

end

instance : DecidableEq Expression := decEq

/-- The parts of a conjunction; any other expression is its own only part. -/
def conjuncts : Expression → List Expression
  | all parts => parts
  | other => [other]

def disjuncts : Expression → List Expression
  | any parts => parts
  | other => [other]

def allOf (parts : List Expression) : Expression :=
  match parts.flatMap conjuncts with
  | [only] => only
  | merged => all merged

def anyOf (parts : List Expression) : Expression :=
  match parts.flatMap disjuncts with
  | [only] => only
  | merged => any merged

end Expression

end FacetSearch
