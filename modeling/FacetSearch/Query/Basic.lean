import FacetSearch.Query.Clause

/-!
Engine queries: clauses on fields, joined by "and" and "or". `write` gives the text for the engine;
parentheses stand around several parts below a node of the other kind, and around every group.
-/

set_option autoImplicit false

namespace FacetSearch

/-- An engine query. A `group` joins by "or" what one comparison says about several fields. -/
inductive Query where
  | clause (field : FieldDescriptor) (body : Clause)
  | all (parts : List Query)
  | any (parts : List Query)
  | group (parts : List Query)
  deriving Inhabited

namespace Query

inductive Place where
  | top
  | inAll
  | inAny
  deriving DecidableEq, Repr

/-- Joins parts, in parentheses if there are several and the place needs them. -/
def join (separator : String) (wrap : Bool) (parts : List String) : String :=
  let text := separator.intercalate parts
  if wrap && decide (1 < parts.length) then "(" ++ text ++ ")" else text

mutual

def write (place : Place) : Query → String
  | clause field body => body.write field
  | all parts => join " AND " (place == .inAny) (writeParts .inAll parts)
  | any parts => join " OR " (place == .inAll) (writeParts .inAny parts)
  | group parts => "(" ++ " OR ".intercalate (writeParts .inAny parts) ++ ")"

def writeParts (place : Place) : List Query → List String
  | [] => []
  | part :: rest => part.write place :: writeParts place rest

end

mutual

/-- The boosted names of the fields of all clauses, from left to right. -/
def fieldNames : Query → List String
  | clause field _ => [field.boostedName]
  | all parts | any parts | group parts => fieldNamesOfParts parts

def fieldNamesOfParts : List Query → List String
  | [] => []
  | part :: rest => part.fieldNames ++ fieldNamesOfParts rest

end

end Query

/-- A query as the engine takes it, and the boosted names of its fields, each one once. -/
structure CompiledQuery where
  query : String
  fields : List String
  deriving DecidableEq, Repr

namespace CompiledQuery

/-- The text and the fields of a query. Where there is nothing to search both are empty. -/
def ofQuery? : Option Query → CompiledQuery
  | some query => ⟨query.write .top, query.fieldNames.eraseDups⟩
  | none => ⟨"", []⟩

end CompiledQuery

end FacetSearch
