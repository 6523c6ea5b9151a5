import FacetSearch.Expression.Parser
import FacetSearch.Notice
import FacetSearch.Query.Basic
import FacetSearch.Query.Selection

/-!
From expressions to engine queries. Comparisons are said of every field that their name stands for;
what says nothing, such as a phrase without terms or a group inside itself, is left out together
with the nodes that are left without parts.
-/

set_option autoImplicit false

namespace FacetSearch

inductive Arity where
  | one
  | several
  deriving DecidableEq, Repr

def Arity.text : Arity → String
  | one => "exactly one value"
  | several => "at least one value"

inductive CompileError where
  | invalidField (field : String)
  | arguments (field : String) (operator : Operator) (expected : Arity) (given : Nat)
  | query (error : QueryError)
  deriving DecidableEq, Repr

def CompileError.message : CompileError → String
  | invalidField field => "invalid field '" ++ field ++ "'"
  | arguments field operator expected given =>
    "operator " ++ operator.symbol ++ " on '" ++ field ++ "' expects " ++ expected.text ++ ", got "
      ++ toString given
  | query error => error.display

/-- Compilation can fail, and the notices up to there are kept. -/
abbrev Compiling (α : Type) := ExceptT CompileError Logged α

namespace Comparison

def onlyArgument (comparison : Comparison) (field : String) : Except CompileError String :=
  match comparison.arguments with
  | [value] => .ok value
  | given => .error (.arguments field comparison.operator .one given.length)

/-- All arguments, of which there has to be one. -/
def someArguments (comparison : Comparison) (field : String) :
    Except CompileError (List String) :=
  match comparison.arguments with
  | [] => .error (.arguments field comparison.operator .several 0)
  | given => .ok given

/-- What a search phrase says about a field: its terms, of which there may be none. -/
def phraseClause (catalog : Catalog) (field : String) (negated : Bool) (phrase : String) :
    Logged (Option Clause) := do
  match FreeTerm.ofPhrase catalog field phrase with
  | [] =>
    Logged.note (.noTerms field phrase)
    return none
  | terms => return some (.freeText negated terms)

/-- What a value says about a field: the value itself, or the terms of a search phrase. -/
def valueClause (catalog : Catalog) (field : String) (negated : Bool) (value : String) :
    Logged (Option Clause) :=
  let value := String.ofList (Text.trim value.toList)
  if Engine.isFreeText value then phraseClause catalog field negated value
  else pure (some (.value negated value))

/-- What the comparison says about a field, if it says anything. -/
def clause? (catalog : Catalog) (field : String) (comparison : Comparison) :
    Compiling (Option Clause) := do
  match comparison.operator with
  | .equal => valueClause catalog field false (← liftExcept (comparison.onlyArgument field))
  | .unequal => valueClause catalog field true (← liftExcept (comparison.onlyArgument field))
  | .oneOf => return some (.oneOf (← liftExcept (comparison.someArguments field)))
  | .atLeast => return some (.range .atLeast (← liftExcept (comparison.onlyArgument field)))
  | .above => return some (.range .above (← liftExcept (comparison.onlyArgument field)))
  | .atMost => return some (.range .atMost (← liftExcept (comparison.onlyArgument field)))
  | .below => return some (.range .below (← liftExcept (comparison.onlyArgument field)))
  | .custom symbol =>
    return some (.custom symbol (← liftExcept (comparison.someArguments field)))
where
  /-- A failure without notices. -/
  liftExcept {α : Type} (result : Except CompileError α) : Compiling α :=
    ExceptT.mk (pure result)

mutual

/-- The query of a comparison on what its name stands for. -/
def compileOn (catalog : Catalog) (comparison : Comparison) :
    Selection → Compiling (Option Query)
  | .field name => do
    if catalog.isField name then
      let clause ← comparison.clause? catalog name
      return clause.map (.clause (catalog.descriptor name))
    else
      throw (.invalidField name)
  | .group _ members => do
    match ← compileOnAll catalog comparison members with
    | [] => return none
    | parts => return some (.group parts)
  | .recurring name => do
    ExceptT.lift (Logged.note (.recurringGroup name))
    return none
  | .memberless name => do
    ExceptT.lift (Logged.note (.memberlessGroup name))
    return none

def compileOnAll (catalog : Catalog) (comparison : Comparison) :
    List Selection → Compiling (List Query)
  | [] => pure []
  | selection :: rest => do
    let part ← compileOn catalog comparison selection
    let parts ← compileOnAll catalog comparison rest
    return part.toList ++ parts

end

end Comparison

namespace Expression

mutual

/-- The query of an expression, if there is anything to search. -/
def toQuery? (catalog : Catalog) : Expression → Compiling (Option Query)
  | all parts => do
    match ← toQueries catalog parts with
    | [] => return none
    | parts => return some (.all parts)
  | any parts => do
    match ← toQueries catalog parts with
    | [] => return none
    | parts => return some (.any parts)
  | comparison leaf => leaf.compileOn catalog (.ofName catalog leaf.field)

def toQueries (catalog : Catalog) : List Expression → Compiling (List Query)
  | [] => pure []
  | part :: rest => do
    let query ← part.toQuery? catalog
    let queries ← toQueries catalog rest
    return query.toList ++ queries

end

def compile (catalog : Catalog) (expression : Expression) : Compiling CompiledQuery := do
  return .ofQuery? (← expression.toQuery? catalog)

/-- Compiles the text of an expression; blank text has no query. -/
def compileText (catalog : Catalog) (input : String) : Compiling (Option CompiledQuery) := do
  match parse input with
  | .error error => throw (.query error)
  | .ok none => return none
  | .ok (some expression) => return some (← expression.compile catalog)

end Expression

end FacetSearch
