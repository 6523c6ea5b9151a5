import FacetSearch.Query.Clause

/-!
Filter clauses: what a filter asks of a document, and its text for the engine.
-/

set_option autoImplicit false

namespace FacetSearch

inductive FieldTest where
  | equals (value : String)
  | oneOf (values : List String)
  | between (start stop : Int)
  deriving DecidableEq, Repr

def FieldTest.write (field : String) : FieldTest → String
  | equals value => field ++ ":" ++ Engine.quote value
  | oneOf values => field ++ ":(" ++ " OR ".intercalate (values.map Engine.quote) ++ ")"
  | between start stop => field ++ ":[" ++ toString start ++ " TO " ++ toString stop ++ "]"

/-- Two dates to lie between, and what is asked of documents that lack one or both: an `exact`
filter refuses those that lack one, and only one with `missing` accepts those that lack both. -/
structure DateRange where
  start : Int
  stop : Int
  exact : Bool
  missing : Bool
  deriving DecidableEq, Repr

namespace DateRange

def write (range : DateRange) (first last : String) : String :=
  let since := first ++ ":[" ++ toString range.start ++ " TO *]"
  let upTo := last ++ ":[* TO " ++ toString range.stop ++ "]"
  if range.exact then
    let within := since ++ " AND " ++ upTo
    if range.missing then
      "(" ++ within ++ ") OR (*:* NOT " ++ first ++ ":* NOT " ++ last ++ ":*)"
    else within
  else
    let lenient := "(" ++ since ++ " OR (*:* NOT " ++ first ++ ":*)) AND (" ++ upTo
      ++ " OR (*:* NOT " ++ last ++ ":*))"
    if range.missing then lenient
    else lenient ++ " AND (" ++ first ++ ":* OR " ++ last ++ ":*)"

end DateRange

inductive FilterClause where
  | present (field : String) (test : FieldTest)
  | presentOrMissing (field : String) (test : FieldTest)
  | missing (field : String)
  | dates (first last : String) (range : DateRange)
  deriving DecidableEq, Repr

namespace FilterClause

def write : FilterClause → String
  | present field test => test.write field
  | presentOrMissing field test =>
    "(*:* NOT " ++ field ++ ":*) OR (" ++ test.write field ++ ")"
  | missing field => "-" ++ field ++ ":[* TO *]"
  | dates first last range => range.write first last

/-- The clause of a test, of missing values, or of both. -/
def combine? (field : String) (test : Option FieldTest) (orMissing : Bool) : Option FilterClause :=
  match test, orMissing with
  | some test, true => some (presentOrMissing field test)
  | none, true => some (missing field)
  | some test, false => some (present field test)
  | none, false => none

end FilterClause

/-- Clause texts with their tags, each text once, in the order in which they came. -/
structure FilterQueries where
  clauses : List (String × Option String)
  distinct : (clauses.map Prod.fst).Nodup

namespace FilterQueries

def empty : FilterQueries := ⟨[], .nil⟩

/-- Adds a clause. A known one keeps its place and gets the new tag. -/
def insert (queries : FilterQueries) (clause : String) (tag : Option String) : FilterQueries :=
  if known : clause ∈ queries.clauses.map Prod.fst then
    ⟨queries.clauses.map fun entry => if entry.1 = clause then (clause, tag) else entry, by
      have same : (queries.clauses.map fun entry =>
          if entry.1 = clause then (clause, tag) else entry).map Prod.fst
          = queries.clauses.map Prod.fst := by
        rw [List.map_map]
        refine List.map_congr_left fun entry _ => ?_
        by_cases equal : entry.1 = clause
        · simp [equal]
        · simp [equal]
      rw [same]
      exact queries.distinct⟩
  else
    ⟨queries.clauses ++ [(clause, tag)], by
      rw [List.map_append, List.nodup_append]
      refine ⟨queries.distinct, by simp, fun x member y last => ?_⟩
      have equal : y = clause := by simpa using last
      rw [equal]
      intro same
      exact known (same ▸ member)⟩

def size (queries : FilterQueries) : Nat := queries.clauses.length

def isEmpty (queries : FilterQueries) : Bool := queries.clauses.isEmpty

/-- The tag of a clause, if the clause is there; it may be there without one. -/
def tag? (queries : FilterQueries) (clause : String) : Option (Option String) :=
  queries.clauses.lookup clause

/-- The clauses as parameters for the engine, with their tags in front. -/
def params (queries : FilterQueries) : List String :=
  queries.clauses.map fun (clause, tag) =>
    match tag with
    | some tag => "\x7b!tag=" ++ tag ++ "\x7d" ++ clause
    | none => clause

end FilterQueries

end FacetSearch
