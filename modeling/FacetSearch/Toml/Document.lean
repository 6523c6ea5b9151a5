import FacetSearch.Toml.Basic

/-!
How the statements of a TOML document make up its tables. A table is defined once: by its header, by
the dotted keys that lead through it, or as a value. Headers and dotted keys may open tables above
the one they define, and those may still be defined by a header of their own.
-/

set_option autoImplicit false

namespace FacetSearch.Toml

/-- How a table that is not written as a value came about: through its own header, on the way of a
header, or on the way of a dotted key. -/
inductive Origin where
  | header
  | path
  | dotted
  deriving DecidableEq, Repr

/-- A document under construction: values, tables, and lists of tables. -/
inductive Node where
  | value (value : Toml)
  | table (origin : Origin) (entries : List (String × Node))
  | tables (elements : List (List (String × Node)))
  deriving Inhabited

abbrev Entries := List (String × Node)

/-- A dotted key: the tables on the way, and the key in the last one of them. -/
structure KeyPath where
  way : List String
  key : String

structure Pair where
  path : KeyPath
  value : Toml

/-- A part of a document: pairs below a header. -/
inductive Header where
  | root
  | table (path : KeyPath)
  | element (path : KeyPath)

namespace Entries

def set (entries : Entries) (key : String) (node : Node) : Entries :=
  if entries.any (·.1 == key) then
    entries.map fun entry => if entry.1 == key then (key, node) else entry
  else
    entries ++ [(key, node)]

/-- Changes the table at the end of a way. Tables that are missing on the way are opened; in a list
of tables the way leads through the last one. Dotted keys do not lead into tables with headers. -/
def change (dotted : Bool) (action : Origin → Entries → Option Entries) (origin : Origin)
    (entries : Entries) : List String → Option Entries
  | [] => action origin entries
  | key :: way => do
    match entries.lookup key with
    | none =>
      let opened := if dotted then Origin.dotted else Origin.path
      return set entries key (.table opened (← change dotted action opened [] way))
    | some (.value _) => none
    | some (.table held inner) =>
      if dotted && held == .header then none
      else return set entries key (.table held (← change dotted action held inner way))
    | some (.tables elements) =>
      let last ← elements.getLast?
      let changed ← change dotted action .header last way
      return set entries key (.tables (elements.dropLast ++ [changed]))

/-- Adds a pair. The key must be new, and a way must end in a table made by dotted keys. -/
def addPair (entries : Entries) (pair : Pair) : Option Entries :=
  let add (origin : Origin) (inner : Entries) : Option Entries :=
    if !pair.path.way.isEmpty && origin != .dotted then none
    else if inner.any (·.1 == pair.path.key) then none
    else some (inner ++ [(pair.path.key, .value pair.value)])
  change true add .header entries pair.path.way

def addPairs (entries : Entries) (pairs : List Pair) : Option Entries :=
  pairs.foldlM addPair entries

/-- Adds a table with a header of its own. Headers may have led through it, but it has none yet. -/
def addTable (key : String) (pairs : List Pair) (entries : Entries) : Option Entries :=
  match entries.lookup key with
  | none => do return entries.set key (.table .header (← addPairs [] pairs))
  | some (.table .path opened) => do
    return entries.set key (.table .header (← addPairs opened pairs))
  | some _ => none

def addElement (key : String) (pairs : List Pair) (entries : Entries) : Option Entries :=
  match entries.lookup key with
  | none => do return entries.set key (.tables [← addPairs [] pairs])
  | some (.tables elements) => do
    return entries.set key (.tables (elements ++ [← addPairs [] pairs]))
  | some _ => none

def addPart (entries : Entries) (header : Header) (pairs : List Pair) : Option Entries :=
  match header with
  | .root => addPairs entries pairs
  | .table path => change false (fun _ => addTable path.key pairs) .header entries path.way
  | .element path => change false (fun _ => addElement path.key pairs) .header entries path.way

def addParts (entries : Entries) (parts : List (Header × List Pair)) : Option Entries :=
  parts.foldlM (fun entries part => addPart entries part.1 part.2) entries

end Entries

mutual

/-- The value that a finished node stands for. -/
def Node.toToml : Node → Toml
  | .value value => value
  | .table _ entries => .table (entriesToToml entries)
  | .tables elements => .array (elementsToToml elements)

def entriesToToml : List (String × Node) → List (String × Toml)
  | [] => []
  | (key, node) :: rest => (key, node.toToml) :: entriesToToml rest

def elementsToToml : List (List (String × Node)) → List Toml
  | [] => []
  | entries :: rest => .table (entriesToToml entries) :: elementsToToml rest

end

def ofPairs? (pairs : List Pair) : Option Toml :=
  (Entries.addPairs [] pairs).map fun entries => .table (entriesToToml entries)

def ofParts? (parts : List (Header × List Pair)) : Option Toml :=
  (Entries.addParts [] parts).map fun entries => .table (entriesToToml entries)

end FacetSearch.Toml
