import FacetSearch.Schema.Basic

/-!
Selections: what a name in a comparison stands for. A group stands for its members, which may be
groups again; a group inside itself stands for nothing, so every selection is a finite tree. A name
that is both a group and a field is the group.
-/

set_option autoImplicit false

namespace FacetSearch

/-- The fields that a name stands for, along the groups that lead to them. -/
inductive Selection where
  | field (name : String)
  | group (name : String) (members : List Selection)
  | recurring (name : String)
  | memberless (name : String)

namespace Selection

/-- What a name stands for while some groups are being expanded. Every group that is opened leaves
fewer to open, which bounds the depth. -/
def expand (catalog : Catalog) (opened : List String) (name : String) : Selection :=
  match _found : catalog.groups.get? name with
  | none => field name
  | some members =>
    if _closed : opened.contains name then recurring name
    else if members.isEmpty then memberless name
    else group name (members.map fun member => expand catalog (name :: opened) member)
termination_by (catalog.groups.unopened opened).length
decreasing_by exact Groups.length_unopened_lt _found _closed

def ofName (catalog : Catalog) (name : String) : Selection := expand catalog [] name

end Selection

end FacetSearch
