import Mathlib
import FacetSearch.Toml.Document

/-!
How parts of a document add up to tables. A part whose header leads through a key changes the table
under that key as it would change a document of its own (`addParts_below`), and nothing else. So the
parts of a table, put under a new key, add that table (`addParts_open`, `addParts_fresh`).
-/

set_option autoImplicit false

namespace FacetSearch.Toml

namespace Entries

variable {entries inner grown : Entries} {key : String} {node : Node} {origin : Origin}
  {pairs : List Pair} {path : KeyPath}

/-- The keys of a table under construction. -/
def keys (entries : Entries) : List String := entries.map Prod.fst

theorem lookup_eq_none (fresh : key ∉ entries.keys) : entries.lookup key = none := by
  refine List.lookup_eq_none_iff.mpr fun entry member => ?_
  simp only [bne_iff_ne, ne_eq]
  rintro rfl
  exact fresh (List.mem_map_of_mem member)

theorem lookup_append (fresh : key ∉ entries.keys) (node : Node) :
    (entries ++ [(key, node)]).lookup key = some node := by
  rw [List.lookup_append, lookup_eq_none fresh]
  simp

theorem any_key_eq_false (fresh : key ∉ entries.keys) : entries.any (·.1 == key) = false := by
  refine List.any_eq_false.mpr fun entry member same => ?_
  exact fresh (beq_iff_eq.mp same ▸ List.mem_map_of_mem member)

theorem set_fresh (fresh : key ∉ entries.keys) (node : Node) :
    entries.set key node = entries ++ [(key, node)] := by
  rw [set, any_key_eq_false fresh]
  rfl

theorem set_append (fresh : key ∉ entries.keys) (node other : Node) :
    set (entries ++ [(key, node)]) key other = entries ++ [(key, other)] := by
  have present : ((entries ++ [(key, node)]).any (·.1 == key)) = true := by simp
  have others : entries.map (fun entry => if entry.1 == key then (key, other) else entry)
      = entries := by
    refine (List.map_congr_left fun entry member => ?_).trans (List.map_id entries)
    have different : ¬ (entry.1 == key) = true := by
      intro same
      exact fresh (beq_iff_eq.mp same ▸ List.mem_map_of_mem member)
    exact if_neg different
  rw [set, if_pos present, List.map_append, others]
  simp

/-- What a header does at the end of its way does not depend on how the table there came about. -/
theorem change_origin (action : Entries → Option Entries) (origin : Origin) (entries : Entries)
    (way : List String) :
    change false (fun _ => action) origin entries way
      = change false (fun _ => action) .header entries way := by
  cases way <;> rfl

/-- A header that leads through a table changes that table like a document of its own. -/
theorem addPart_under (fresh : key ∉ entries.keys)
    (added : addPart inner (.table path) pairs = some grown) :
    addPart (entries ++ [(key, .table origin inner)]) (.table ⟨key :: path.way, path.key⟩) pairs
      = some (entries ++ [(key, .table origin grown)]) := by
  have within : change false (fun _ => addTable path.key pairs) origin inner path.way
      = some grown :=
    (change_origin _ origin inner path.way).trans added
  simp only [addPart, change, lookup_append fresh, within, Option.bind_eq_bind, Option.bind_some,
    Bool.false_and, Bool.false_eq_true, if_false, set_append fresh]
  rfl

/-- A header that leads through a new key opens a table under it. -/
theorem addPart_open (fresh : key ∉ entries.keys)
    (added : addPart [] (.table path) pairs = some grown) :
    addPart entries (.table ⟨key :: path.way, path.key⟩) pairs
      = some (entries ++ [(key, .table .path grown)]) := by
  have within : change false (fun _ => addTable path.key pairs) .path [] path.way = some grown :=
    (change_origin _ .path [] path.way).trans added
  simp only [addPart, change, lookup_eq_none fresh, within, Option.bind_eq_bind, Option.bind_some,
    Bool.false_eq_true, if_false, set_fresh fresh]
  rfl

/-- The header of a new table adds it. -/
theorem addPart_fresh (fresh : key ∉ entries.keys) (added : addPairs [] pairs = some grown) :
    addPart entries (.table ⟨[], key⟩) pairs
      = some (entries ++ [(key, .table .header grown)]) := by
  simp only [addPart, change, addTable, lookup_eq_none fresh, added, Option.bind_eq_bind,
    Option.bind_some, set_fresh fresh]
  rfl

/-- Entries as the pairs of a part. -/
def pairsOf (values : List (String × Toml)) : List Pair :=
  values.map fun entry => ⟨⟨[], entry.1⟩, entry.2⟩

/-- Entries as those of a table under construction. -/
def ofValues (values : List (String × Toml)) : Entries :=
  values.map fun entry => (entry.1, .value entry.2)

theorem keys_append (first second : Entries) : keys (first ++ second) = keys first ++ keys second :=
  List.map_append

theorem keys_ofValues (values : List (String × Toml)) :
    (ofValues values).keys = values.map Prod.fst :=
  List.map_map

/-- Pairs with new and distinct keys are added in their order. -/
theorem addPairs_fresh {values : List (String × Toml)}
    (distinct : (entries.keys ++ values.map Prod.fst).Nodup) :
    addPairs entries (pairsOf values) = some (entries ++ ofValues values) := by
  induction values generalizing entries with
  | nil => simp [addPairs, pairsOf, ofValues]
  | cons entry rest ih =>
      obtain ⟨-, -, apart⟩ := List.nodup_append.mp distinct
      have fresh : entry.1 ∉ entries.keys := fun member => apart _ member _ List.mem_cons_self rfl
      have later : (keys (entries ++ [(entry.1, .value entry.2)]) ++ rest.map Prod.fst).Nodup := by
        simpa [keys] using distinct
      have added : addPair entries ⟨⟨[], entry.1⟩, entry.2⟩
          = some (entries ++ [(entry.1, .value entry.2)]) := by
        simp [addPair, change, any_key_eq_false fresh]
      have onward := ih later
      rw [List.append_assoc] at onward
      exact Option.bind_eq_some_iff.mpr ⟨_, added, onward⟩

/-- A part of a document under its header. -/
def headed (part : KeyPath × List Pair) : Header × List Pair := (.table part.1, part.2)

/-- A part of a document with one more key in front of its header. -/
def below (key : String) (part : KeyPath × List Pair) : KeyPath × List Pair :=
  (⟨key :: part.1.way, part.1.key⟩, part.2)

variable {parts : List (KeyPath × List Pair)}

/-- Parts below one key, added one after the other, change the table under it like a document of its
own. -/
theorem addParts_below (fresh : key ∉ entries.keys)
    (added : addParts inner (parts.map headed) = some grown) :
    addParts (entries ++ [(key, .table origin inner)]) ((parts.map (below key)).map headed)
      = some (entries ++ [(key, .table origin grown)]) := by
  induction parts generalizing inner with
  | nil =>
      cases added
      rfl
  | cons part rest ih =>
      obtain ⟨next, first, onward⟩ := Option.bind_eq_some_iff.mp added
      exact Option.bind_eq_some_iff.mpr ⟨_, addPart_under fresh first, ih onward⟩

/-- Parts below a new key open a table under it. -/
theorem addParts_open (fresh : key ∉ entries.keys) (inhabited : parts ≠ [])
    (added : addParts [] (parts.map headed) = some grown) :
    addParts entries ((parts.map (below key)).map headed)
      = some (entries ++ [(key, .table .path grown)]) := by
  obtain ⟨part, rest, rfl⟩ := List.exists_cons_of_ne_nil inhabited
  obtain ⟨next, first, onward⟩ := Option.bind_eq_some_iff.mp added
  exact Option.bind_eq_some_iff.mpr ⟨_, addPart_open fresh first, addParts_below fresh onward⟩

/-- A part under a new key, and parts below that key behind it. -/
theorem addParts_fresh (fresh : key ∉ entries.keys) (own : addPairs [] pairs = some inner)
    (added : addParts inner (parts.map headed) = some grown) :
    addParts entries
      ((((⟨[], key⟩, pairs) : KeyPath × List Pair) :: parts.map (below key)).map headed)
      = some (entries ++ [(key, .table .header grown)]) :=
  Option.bind_eq_some_iff.mpr ⟨_, addPart_fresh fresh own, addParts_below fresh added⟩

end Entries

end FacetSearch.Toml
