import FacetSearch.Files.Path

/-!
File trees: directories and files under absolute paths. Reading a path follows its components
through directories, so "up" is the directory above the one that is reached, whatever the path
spells.
-/

set_option autoImplicit false

namespace FacetSearch

/-- What stands under a path. -/
inductive FileEntry where
  | directory
  | file (contents : ByteArray)

/-- Where an entry stands: the names that lead to it from the root. -/
abbrev Place := List (List Char)

inductive FileFlaw where
  | notFound
  | notADirectory
  | isADirectory
  | notText
  deriving DecidableEq, Repr

def FileFlaw.text : FileFlaw → String
  | notFound => "No such file or directory (os error 2)"
  | notADirectory => "Not a directory (os error 20)"
  | isADirectory => "Is a directory (os error 21)"
  | notText => "stream did not contain valid UTF-8"

/-- A tree of files; of several entries under a place the first one counts. -/
structure FileTree where
  entries : List (Place × FileEntry)

namespace FileTree

/-- What stands at a place. The root is always a directory. -/
def entry? (tree : FileTree) (place : Place) : Option FileEntry :=
  if place = [] then some .directory else tree.entries.lookup place

/-- Whether a place is a directory; if not, why no path leads through it. -/
def enter (tree : FileTree) (place : Place) : Except FileFlaw Unit :=
  match tree.entry? place with
  | some .directory => .ok ()
  | some (.file _) => .error .notADirectory
  | none => .error .notFound

/-- The place that components lead to. Everything on the way has to be a directory. -/
def follow (tree : FileTree) (place : Place) : List Path.Component → Except FileFlaw Place
  | [] => .ok place
  | component :: rest => do
    tree.enter place
    match component with
    | .root => follow tree [] rest
    | .here => follow tree place rest
    | .up => follow tree place.dropLast rest
    | .name text => follow tree (place ++ [text]) rest

/-- All steps of a path as it is written. A slash or a dot at the end asks for a directory. -/
def steps (path : String) : List Path.Component :=
  let components := Path.components path
  match (Path.splitSlashes path.toList).getLast? with
  | some [] | some ['.'] => components ++ [.here]
  | _ => components

def resolve (tree : FileTree) (path : String) : Except FileFlaw Place := tree.follow [] (steps path)

def find? (tree : FileTree) (path : String) : Option FileEntry :=
  match tree.resolve path with
  | .ok place => tree.entry? place
  | .error _ => none

def isFile (tree : FileTree) (path : String) : Bool :=
  match tree.find? path with
  | some (.file _) => true
  | _ => false

def read (tree : FileTree) (path : String) : Except FileFlaw String := do
  match tree.entry? (← tree.resolve path) with
  | none => .error .notFound
  | some .directory => .error .isADirectory
  | some (.file contents) =>
    match String.fromUTF8? contents with
    | some text => .ok text
    | none => .error .notText

/-- The tree after a text has been written to a path. -/
def write (tree : FileTree) (path text : String) : Except FileFlaw FileTree := do
  let place ← tree.resolve path
  tree.enter place.dropLast
  match tree.entry? place with
  | some .directory => .error .isADirectory
  | _ => return ⟨(place, .file text.toUTF8) :: tree.entries⟩

end FileTree

/-- A place in a file tree from which a program runs: its working directory and its home
directory. -/
structure Environment where
  tree : FileTree
  directory : String
  home : String

end FacetSearch
