import Mathlib
import FacetSearch.Config.Discovery
import FacetSearch.Proofs.Files.Path

/-!
Which configuration files there are. A root file keeps a project to itself: nothing above it and no
file in the home directory changes what is found and loaded (`configFiles_isolated`). Without one,
every file on the way up is found, then the one in the home directory.
-/

set_option autoImplicit false

namespace FacetSearch

namespace FileTree

variable {tree : FileTree} {path : String} {contents : ByteArray}

theorem isFile_iff : tree.isFile path = true ↔
    ∃ contents, tree.find? path = some (.file contents) := by
  unfold isFile
  split
  · rename_i contents found
    exact ⟨fun _ => ⟨contents, found⟩, fun _ => rfl⟩
  · rename_i none
    exact ⟨nofun, fun ⟨contents, found⟩ => absurd found (none contents)⟩

theorem read_of_find? (found : tree.find? path = some (.file contents)) :
    tree.read path = (String.fromUTF8? contents).elim (.error .notText) .ok := by
  unfold find? at found
  split at found
  · rename_i place resolved
    unfold read
    rw [resolved]
    simp only [bind, Except.bind, found]
    cases String.fromUTF8? contents <;> rfl
  · cases found

end FileTree

namespace Environment

/-- The path of the configuration file of a directory. -/
def pathIn (directory : String) : String := Path.join directory ".disco.toml"

/-- A directory has a configuration file that can be read and is a root file. -/
def HoldsRoot (environment : Environment) (directory : String) : Prop :=
  ∃ contents text layer, environment.tree.find? (pathIn directory) = some (.file contents) ∧
    String.fromUTF8? contents = some text ∧
    ConfigLayer.parse (pathIn directory) text = .ok layer ∧
    layer.root = some true

/-- Two file trees have the same configuration file in a directory, or none. -/
def Agrees (environment other : Environment) (directory : String) : Prop :=
  environment.tree.find? (pathIn directory) = other.tree.find? (pathIn directory)

variable {environment other : Environment} {directory path : String}
    {directories paths : List String}

theorem join_fileName (directory : String) : Path.join directory fileName = pathIn directory := rfl

theorem globalPath_eq (environment : Environment) :
    environment.globalPath = pathIn environment.home := rfl

theorem readLayer_of_find? {contents : ByteArray}
    (found : environment.tree.find? path = some (.file contents)) :
    environment.readLayer path = (String.fromUTF8? contents).elim
      (.error (.unreadable path FileFlaw.notText.text)) (ConfigLayer.parse path) := by
  rw [readLayer, FileTree.read_of_find? found]
  cases String.fromUTF8? contents <;> rfl

theorem isRoot_iff : environment.isRoot path = true ↔
    ∃ layer, environment.readLayer path = .ok layer ∧ layer.root = some true := by
  unfold isRoot
  generalize environment.readLayer path = read
  cases read with
  | error flaw =>
      refine ⟨fun root => absurd root Bool.false_ne_true, ?_⟩
      rintro ⟨layer, read, -⟩
      cases read
  | ok layer =>
      refine ⟨fun root => ⟨layer, rfl, beq_iff_eq.mp root⟩, ?_⟩
      rintro ⟨other, read, root⟩
      cases read
      exact beq_iff_eq.mpr root

theorem holdsRoot_iff : environment.HoldsRoot directory ↔
    environment.tree.isFile (pathIn directory) = true ∧
    environment.isRoot (pathIn directory) = true := by
  rw [FileTree.isFile_iff, isRoot_iff]
  constructor
  · rintro ⟨contents, text, layer, found, utf8, parsed, root⟩
    refine ⟨⟨contents, found⟩, layer, ?_, root⟩
    rw [readLayer_of_find? found, utf8, Option.elim_some, parsed]
  · rintro ⟨⟨contents, found⟩, layer, read, root⟩
    rw [readLayer_of_find? found] at read
    cases utf8 : String.fromUTF8? contents with
    | none =>
        rw [utf8] at read
        cases read
    | some text =>
        rw [utf8] at read
        exact ⟨contents, text, layer, found, utf8, read, root⟩

theorem Agrees.isFile (agrees : environment.Agrees other directory) :
    other.tree.isFile (pathIn directory) = environment.tree.isFile (pathIn directory) := by
  rw [FileTree.isFile, FileTree.isFile, agrees]

theorem Agrees.readLayer (agrees : environment.Agrees other directory)
    (isFile : environment.tree.isFile (pathIn directory) = true) :
    other.readLayer (pathIn directory) = environment.readLayer (pathIn directory) := by
  obtain ⟨contents, found⟩ := FileTree.isFile_iff.mp isFile
  rw [readLayer_of_find? found, readLayer_of_find? (agrees ▸ found)]

theorem filesUpToRoot_of_holdsRoot (root : environment.HoldsRoot directory) (above : List String) :
    environment.filesUpToRoot (directory :: above) = ([pathIn directory], true) := by
  obtain ⟨isFile, isRoot⟩ := holdsRoot_iff.mp root
  simp [filesUpToRoot, join_fileName, isFile, isRoot]

theorem filesUpToRoot_of_not_holdsRoot (none : ¬ environment.HoldsRoot directory)
    (above : List String) : environment.filesUpToRoot (directory :: above) =
      ([pathIn directory].filter environment.tree.isFile ++ (environment.filesUpToRoot above).1,
        (environment.filesUpToRoot above).2) := by
  rw [holdsRoot_iff] at none
  cases isFile : environment.tree.isFile (pathIn directory) <;>
    simp_all [filesUpToRoot, join_fileName]

/-- Nothing above a root file counts. -/
theorem filesUpToRoot_append (root : environment.HoldsRoot directory) (near far : List String) :
    environment.filesUpToRoot (near ++ directory :: far) =
        environment.filesUpToRoot (near ++ [directory]) ∧
      (environment.filesUpToRoot (near ++ [directory])).2 = true := by
  induction near with
  | nil =>
      rw [List.nil_append, List.nil_append, filesUpToRoot_of_holdsRoot root,
        filesUpToRoot_of_holdsRoot root]
      exact ⟨rfl, rfl⟩
  | cons closest near ih =>
      rw [List.cons_append, List.cons_append]
      by_cases nearer : environment.HoldsRoot closest
      · rw [filesUpToRoot_of_holdsRoot nearer, filesUpToRoot_of_holdsRoot nearer]
        exact ⟨rfl, rfl⟩
      · rw [filesUpToRoot_of_not_holdsRoot nearer, filesUpToRoot_of_not_holdsRoot nearer, ih.1]
        exact ⟨rfl, ih.2⟩

theorem filesUpToRoot_of_none
    (none : ∀ directory ∈ directories, ¬ environment.HoldsRoot directory) :
    environment.filesUpToRoot directories =
      ((directories.map pathIn).filter environment.tree.isFile, false) := by
  induction directories with
  | nil => rfl
  | cons closest above ih =>
      rw [List.forall_mem_cons] at none
      rw [filesUpToRoot_of_not_holdsRoot none.1, ih none.2, ← List.filter_append]
      rfl

theorem filesUpToRoot_sublist (environment : Environment) (directories : List String) :
    (environment.filesUpToRoot directories).1.Sublist
      ((directories.map pathIn).filter environment.tree.isFile) := by
  induction directories with
  | nil => exact List.Sublist.refl _
  | cons closest above ih =>
      have split : ((closest :: above).map pathIn).filter environment.tree.isFile =
          [pathIn closest].filter environment.tree.isFile ++
            (above.map pathIn).filter environment.tree.isFile :=
        List.filter_append [pathIn closest] (above.map pathIn)
      rw [split]
      by_cases root : environment.HoldsRoot closest
      · rw [filesUpToRoot_of_holdsRoot root, List.filter_singleton, (holdsRoot_iff.mp root).1]
        exact List.sublist_append_left _ _
      · rw [filesUpToRoot_of_not_holdsRoot root]
        exact List.Sublist.append_left ih _

theorem holdsRoot_congr (agrees : environment.Agrees other directory) :
    other.HoldsRoot directory ↔ environment.HoldsRoot directory := by
  rw [HoldsRoot, HoldsRoot, agrees]

theorem filesUpToRoot_congr
    (agree : ∀ directory ∈ directories, environment.Agrees other directory) :
    other.filesUpToRoot directories = environment.filesUpToRoot directories := by
  induction directories with
  | nil => rfl
  | cons closest above ih =>
      rw [List.forall_mem_cons] at agree
      have same := holdsRoot_congr agree.1
      by_cases root : environment.HoldsRoot closest
      · rw [filesUpToRoot_of_holdsRoot root, filesUpToRoot_of_holdsRoot (same.mpr root)]
      · rw [filesUpToRoot_of_not_holdsRoot root, filesUpToRoot_of_not_holdsRoot (mt same.mp root),
          ih agree.2, List.filter_singleton, List.filter_singleton, agree.1.isFile]

theorem loadFiles_congr
    (same : ∀ path ∈ paths, other.readLayer path = environment.readLayer path) :
    other.loadFiles paths = environment.loadFiles paths := by
  have layers : other.readLayers paths = environment.readLayers paths := by
    induction paths with
    | nil => rfl
    | cons path rest ih =>
        rw [List.forall_mem_cons] at same
        rw [readLayers, readLayers, same.1, ih same.2]
  rw [loadFiles, loadFiles, layers]

/-- The configuration files of the directories from the working directory upwards, the closest
first. -/
def filesAbove (environment : Environment) : List String :=
  ((Path.ancestors environment.directory).map pathIn).filter environment.tree.isFile

theorem components_pathIn (directory : String) :
    Path.components (pathIn directory) = Path.components directory ++
      [.name ".disco.toml".toList] :=
  Path.components_join directory (by decide) (by decide)

theorem pairwise_filesAbove (environment : Environment) :
    environment.filesAbove.Pairwise fun one other => Path.same one other = false := by
  refine List.Pairwise.filter _ (List.pairwise_map.mpr ?_)
  refine (Path.pairwise_ancestors environment.directory).imp fun {near far} fewer => ?_
  rw [Path.same, beq_eq_false_iff_ne]
  intro equal
  have lengths := congrArg List.length equal
  rw [components_pathIn, components_pathIn, List.length_append, List.length_append] at lengths
  omega

/-- The configuration file in the home directory, if there is one besides the given files. -/
def globalBesides (environment : Environment) (paths : List String) : List String :=
  if environment.tree.isFile (pathIn environment.home) = true ∧
      ∀ path ∈ paths, Path.same path (pathIn environment.home) = false then
    [pathIn environment.home]
  else []

theorem configFiles_eq (environment : Environment) :
    let found := environment.filesUpToRoot (Path.ancestors environment.directory)
    environment.configFiles
      = found.1 ++ if found.2 then [] else environment.globalBesides found.1 := by
  dsimp only [configFiles]
  rw [globalPath_eq]
  generalize environment.filesUpToRoot (Path.ancestors environment.directory) = found
  have apart : (found.1.any (Path.same · (pathIn environment.home))) = false ↔
      ∀ path ∈ found.1, Path.same path (pathIn environment.home) = false := by
    rw [List.any_eq_false]
    simp only [Bool.not_eq_true]
  by_cases besides : ∀ path ∈ found.1, Path.same path (pathIn environment.home) = false
  · have none := apart.mpr besides
    have all := eq_true besides
    cases found.2 <;> cases isFile : environment.tree.isFile (pathIn environment.home) <;>
      simp [globalBesides, none, all, isFile]
  · have listed := Bool.not_eq_false _ ▸ mt apart.mp besides
    cases found.2 <;> simp [globalBesides, listed, besides]

theorem pairwise_configFiles (environment : Environment) :
    environment.configFiles.Pairwise fun one other => Path.same one other = false := by
  have listed := (pairwise_filesAbove environment).sublist
    (filesUpToRoot_sublist environment (Path.ancestors environment.directory))
  rw [configFiles_eq]
  generalize environment.filesUpToRoot (Path.ancestors environment.directory) = found at listed
  have besides : ∀ path ∈ found.1,
      ∀ last ∈ (if found.2 then [] else environment.globalBesides found.1),
      Path.same path last = false := by
    intro path inside last member
    unfold globalBesides at member
    split_ifs at member with _ only
    · cases member
    · exact List.mem_singleton.mp member ▸ only.2 path inside
    · cases member
  have single : (if found.2 then [] else environment.globalBesides found.1).Pairwise
      fun one other => Path.same one other = false := by
    unfold globalBesides
    split_ifs <;> simp
  exact List.pairwise_append.mpr ⟨listed, single, besides⟩

/-- A root file keeps a project to itself: what is found and loaded is the same in all file trees
with the same configuration files up to it, whatever there is above it or in the home directory.
Without one, every configuration file upwards is found and then the one in the home directory. No
file is found twice. -/
theorem configFiles_isolated (environment : Environment) :
    (∀ other near directory far,
      Path.ancestors environment.directory = near ++ directory :: far →
      environment.HoldsRoot directory → other.directory = environment.directory →
      (∀ inside ∈ near ++ [directory], environment.Agrees other inside) →
        other.configFiles = environment.configFiles ∧ other.load = environment.load) ∧
    ((∀ directory ∈ Path.ancestors environment.directory,
      ¬ environment.HoldsRoot directory) → environment.configFiles =
        environment.filesAbove ++ environment.globalBesides environment.filesAbove) ∧
    environment.configFiles.Pairwise fun one other => Path.same one other = false := by
  refine ⟨fun other near directory far whole root same agree => ?_, fun none => ?_,
    pairwise_configFiles environment⟩
  · have stops := filesUpToRoot_append root near far
    have root' := (holdsRoot_congr (agree directory (by simp))).mpr root
    have stops' := filesUpToRoot_append root' near far
    have congr := filesUpToRoot_congr agree
    have files : other.configFiles = environment.configFiles := by
      rw [configFiles_eq, configFiles_eq, same, whole, stops.1, stops'.1, stops.2, stops'.2, congr]
      rfl
    refine ⟨files, ?_⟩
    rw [load, load, files]
    refine loadFiles_congr fun path found => ?_
    rw [configFiles_eq, whole, stops.1, stops.2, if_pos rfl, List.append_nil] at found
    have listed := (filesUpToRoot_sublist environment (near ++ [directory])).subset found
    obtain ⟨mapped, isFile⟩ := List.mem_filter.mp listed
    obtain ⟨inside, member, rfl⟩ := List.mem_map.mp mapped
    exact (agree inside member).readLayer isFile
  · rw [configFiles_eq, filesUpToRoot_of_none none]
    rfl

/-- The root file of a project hides the file above it, which cannot be read, and the home
directory. Where no file upwards is a root file, the file in the home directory is found last, or on
the way if the home directory is above. -/
theorem configFiles_isolated_project :
    let name := ".disco.toml".toList
    let entries : List (Place × FileEntry) :=
      [([['p']], .directory), ([['p'], ['c']], .directory),
        ([['p'], name], .file "root = true".toUTF8)]
    let environment : Environment := ⟨⟨entries⟩, "/p/c", "/h"⟩
    let other : Environment := ⟨⟨([name], .file "?".toUTF8) :: entries⟩, "/p/c", "/"⟩
    let files : FileTree := ⟨[([name], .file "".toUTF8), ([['p']], .directory),
      ([['p'], ['c']], .directory), ([['p'], ['c'], name], .file "?".toUTF8),
      ([['h']], .directory), ([['h'], name], .file "root = true".toUTF8)]⟩
    let rootless : Environment := ⟨files, "/p/c", "/h"⟩
    let homed : Environment := ⟨files, "/p/c", "/"⟩
    environment.HoldsRoot "/p" ∧
      (∀ inside ∈ ["/p/c", "/p"], environment.Agrees other inside) ∧
      other.configFiles = environment.configFiles ∧ other.load = environment.load ∧
      (∀ directory ∈ ["/p/c", "/p", "/"], ¬ rootless.HoldsRoot directory) ∧
      rootless.configFiles = ["/p/c/.disco.toml", "/.disco.toml", "/h/.disco.toml"] ∧
      homed.configFiles = ["/p/c/.disco.toml", "/.disco.toml"] := by
  intro name entries environment other files rootless homed
  have root : environment.HoldsRoot "/p" :=
    holdsRoot_iff.mpr ⟨by decide +kernel, by decide +kernel⟩
  have agree : ∀ inside ∈ ["/p/c", "/p"], environment.Agrees other inside := by
    rintro inside member
    rcases List.mem_pair.mp member with rfl | rfl
    · rfl
    · rfl
  have above : Path.ancestors "/p/c" = ["/p/c"] ++ "/p" :: ["/"] := by decide +kernel
  obtain ⟨same, loaded⟩ :=
    (configFiles_isolated environment).1 other ["/p/c"] "/p" ["/"] above root rfl agree
  have rootlessAt : ∀ directory ∈ ["/p/c", "/p", "/"], ¬ rootless.HoldsRoot directory := by
    have silent : ∀ directory ∈ ["/p/c", "/p", "/"],
        rootless.isRoot (pathIn directory) = false := by
      decide +kernel
    intro directory member root
    have isRoot := (holdsRoot_iff.mp root).2
    rw [silent directory member] at isRoot
    cases isRoot
  have nowhere : ∀ directory ∈ Path.ancestors "/p/c", ¬ rootless.HoldsRoot directory := by
    rw [above]
    exact rootlessAt
  have found := (configFiles_isolated rootless).2.1 nowhere
  have once := (configFiles_isolated homed).2.1 nowhere
  exact ⟨root, agree, same, loaded, rootlessAt, found.trans (by decide +kernel),
    once.trans (by decide +kernel)⟩

end Environment

end FacetSearch
