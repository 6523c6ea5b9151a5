/-!
Paths as they are written: names between slashes. A path keeps its spelling; what it means, without
empty names and dots that change nothing, is the list of its components.
-/

set_option autoImplicit false

namespace FacetSearch.Path

inductive Component where
  | root
  | here
  | up
  | name (text : List Char)
  deriving DecidableEq, Repr

/-- The names between the slashes of a text, empty ones included. -/
def splitSlashes : List Char → List (List Char)
  | [] => [[]]
  | c :: rest =>
    let parts := splitSlashes rest
    if c = '/' then [] :: parts
    else (c :: parts.headD []) :: parts.tail

def isAbsolute (path : String) : Bool := path.toList.head? == some '/'

/-- The component that a name stands for, if it is not idle. -/
def component? (text : List Char) : Option Component :=
  if text = [] ∨ text = ['.'] then none
  else if text = ['.', '.'] then some .up
  else some (.name text)

/-- The components of a path. Only a dot in front of a relative path is one. -/
def components (path : String) : List Component :=
  let parts := splitSlashes path.toList
  let front := if isAbsolute path then [Component.root]
    else if parts.head? = some ['.'] then [.here]
    else []
  front ++ parts.filterMap component?

/-- Whether two paths have the same components. -/
def same (first second : String) : Bool := components first == components second

/-- How many characters of a path are its start: the slash of an absolute path, or the dot in front
of a relative one. -/
def startLength (path : List Char) : Nat :=
  match path with
  | '/' :: _ | ['.'] | '.' :: '/' :: _ => 1
  | _ => 0

/-- Drops idle names and the slashes before them from the end of a reversed text. -/
def dropIdle (reversed : List Char) : List Char :=
  match reversed with
  | [] => []
  | '/' :: rest => dropIdle rest
  | ['.'] => []
  | '.' :: '/' :: rest => dropIdle rest
  | other => other

/-- Drops the last name of a reversed text and the slash before it. -/
def dropName (reversed : List Char) : List Char := (reversed.dropWhile (· != '/')).drop 1

/-- The path without its last component. The root and the empty path have none to drop. -/
def parent? (path : String) : Option String :=
  let text := path.toList
  let start := text.take (startLength text)
  let body := dropIdle (text.drop (startLength text)).reverse
  if body.isEmpty then
    if start = ['.'] then some "" else none
  else
    some (String.ofList (start ++ (dropIdle (dropName body)).reverse))

/-- A path seen from another one. An absolute path stays as it is. -/
def join (base path : String) : String :=
  if isAbsolute path || base.isEmpty then path
  else if base.toList.getLast? = some '/' then base ++ path
  else base ++ "/" ++ path

theorem length_dropIdle_le (reversed : List Char) :
    (dropIdle reversed).length ≤ reversed.length := by
  fun_induction dropIdle reversed with
  | case1 => simp
  | case2 rest ih => simp only [List.length_cons]; omega
  | case3 => simp
  | case4 rest ih => simp only [List.length_cons]; omega
  | case5 => simp

theorem length_dropName_lt {reversed : List Char} (nonempty : reversed ≠ []) :
    (dropName reversed).length < reversed.length := by
  have fewer := (List.dropWhile_sublist (p := (· != '/')) (l := reversed)).length_le
  cases reversed with
  | nil => exact absurd rfl nonempty
  | cons c rest =>
    simp only [dropName, List.length_drop, List.length_cons] at *
    omega

theorem length_parent?_lt {path parent : String} (found : parent? path = some parent) :
    parent.length < path.length := by
  simp only [parent?] at found
  split at found
  · split at found
    · rename_i start
      cases found
      have long := congrArg List.length start
      simp only [List.length_take, List.length_cons, List.length_nil, String.length_toList] at long
      simp only [String.length_empty]
      omega
    · cases found
  · rename_i nonempty
    cases found
    have dropped := length_dropName_lt fun none => nonempty (List.isEmpty_iff.2 none)
    have outer := length_dropIdle_le
      (dropName (dropIdle (path.toList.drop (startLength path.toList)).reverse))
    have inner := length_dropIdle_le (path.toList.drop (startLength path.toList)).reverse
    simp only [String.length_ofList, List.length_append, List.length_reverse, List.length_take,
      List.length_drop, String.length_toList] at *
    omega

/-- A path and all paths above it, the closest first. -/
def ancestors (path : String) : List String :=
  match _found : parent? path with
  | none => [path]
  | some parent => path :: ancestors parent
termination_by path.length
decreasing_by exact length_parent?_lt _found

end FacetSearch.Path
