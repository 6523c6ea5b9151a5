import FacetSearch.CommandLine.Session

/-!
The program: it looks up the files that a run may need, runs the command line over them, and writes
what is to be written.
-/

set_option autoImplicit false

namespace FacetSearch

def lookUp (path : String) : IO (Option FileEntry) := do
  let path := (← IO.currentDir) / path
  if !(← path.pathExists) then return none
  else if ← path.isDir then return some .directory
  else return some (.file (← IO.FS.readBinFile path))

/-- The entries of a tree for a path and the directories above it. -/
def entriesFor (path : String) : IO (List (Place × FileEntry)) := do
  let place (path : String) : Place := (Path.components path).filterMap fun component =>
    match component with
    | .name text => some text
    | _ => none
  let found ← lookUp path
  let above := (Path.ancestors path).drop 1
  let directories ← above.filterM fun directory => do return (← lookUp directory).isSome
  return (found.toList.map fun entry => (place path, entry))
    ++ directories.map fun directory => (place directory, .directory)

end FacetSearch

def main (arguments : List String) : IO UInt32 := do
  let directory := (← IO.currentDir).toString
  let home := (← IO.getEnv "HOME").getD "/"
  let paths := FacetSearch.CommandLine.relevantPaths directory home arguments
  let entries ← paths.mapM FacetSearch.entriesFor
  let environment : FacetSearch.Environment := ⟨⟨entries.flatten⟩, directory, home⟩
  let report := FacetSearch.CommandLine.report environment arguments
  IO.print report.output
  IO.eprint report.errors
  if let some (path, text) := report.written then
    IO.FS.writeFile path text
  return report.code
