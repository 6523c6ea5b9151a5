import FacetSearch.Config.Decoding
import FacetSearch.Config.Merge
import FacetSearch.Files.Tree

/-!
Finding configuration files. Every directory from the working directory upwards may have one; the
one in the home directory comes last, unless it has been found on the way. A root file ends the
search.
-/

set_option autoImplicit false

namespace FacetSearch

/-- The configuration of some files, each with its path, the most important one first. It belongs to
the directory of the first one. -/
def Config.ofFiles (files : List (String × ConfigLayer)) : Except ConfigError Config :=
  ofLayers (files.head?.bind fun file => Path.parent? file.1) (files.map Prod.snd)

namespace Environment

def fileName : String := ".disco.toml"

/-- The path of the configuration file in the home directory. -/
def globalPath (environment : Environment) : String :=
  Path.join environment.home fileName

def isGlobal (environment : Environment) (path : String) : Bool :=
  Path.same path environment.globalPath

def readLayer (environment : Environment) (path : String) : Except ConfigError ConfigLayer :=
  match environment.tree.read path with
  | .ok contents => ConfigLayer.parse path contents
  | .error flaw => .error (.unreadable path flaw.text)

/-- Whether a path is that of a root file. A file that cannot be read is none. -/
def isRoot (environment : Environment) (path : String) : Bool :=
  match environment.readLayer path with
  | .ok layer => layer.root == some true
  | .error _ => false

/-- The files of some directories up to the first root file, and whether there is one. -/
def filesUpToRoot (environment : Environment) : (directories : List String) → List String × Bool
  | [] => ([], false)
  | directory :: rest =>
    let path := Path.join directory fileName
    if !environment.tree.isFile path then filesUpToRoot environment rest
    else if environment.isRoot path then ([path], true)
    else
      let later := filesUpToRoot environment rest
      (path :: later.1, later.2)

/-- The configuration files that apply in the working directory, the most important one first. -/
def configFiles (environment : Environment) : List String :=
  let found := environment.filesUpToRoot (Path.ancestors environment.directory)
  let global := environment.globalPath
  if !found.2 && environment.tree.isFile global && !found.1.any (Path.same · global) then
    found.1 ++ [global]
  else
    found.1

/-- Reads files up to the first one that cannot be read. -/
def readLayers (environment : Environment) :
    List String → ExceptT ConfigError Logged (List (String × ConfigLayer))
  | [] => pure []
  | path :: rest => do
    ExceptT.lift (Logged.note (.readingFile path))
    match environment.readLayer path with
    | .error error => throw error
    | .ok layer => return (path, layer) :: (← readLayers environment rest)

def loadFiles (environment : Environment) (paths : List String) :
    ExceptT ConfigError Logged Config := do
  match Config.ofFiles (← environment.readLayers paths) with
  | .ok config => return config
  | .error error => throw error

/-- The configuration that applies in the working directory. -/
def load (environment : Environment) : ExceptT ConfigError Logged Config :=
  environment.loadFiles environment.configFiles

end Environment

/-- The configuration of one text, which belongs to no directory. -/
def Config.ofText (contents : String) : Except ConfigError Config := do
  let layer ← ConfigLayer.parse "<inline>" contents
  Config.ofLayers none [layer]

end FacetSearch
