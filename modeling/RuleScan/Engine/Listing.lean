import RuleScan.Engine.Run
import RuleScan.Rule.Scope

/-!
# The files to look at

The files of a project are those that its version control knows, or else all regular files below
its directory, except in directories that hold the work of others.  The universe of an evaluation
is the set of these files without the excluded ones, as a sorted list of clean paths.
-/

namespace RuleScan

/-- The directories that are never entered. -/
def noiseDirectories : List String :=
  [".git", "node_modules", "vendor", "bower_components", ".venv", "__pycache__"]

/-- Whether a directory of that name is never entered. -/
def isNoise (name : String) : Bool := noiseDirectories.contains name

/-- A way to list the files below a directory, by their paths from there. -/
abbrev Lister := Signal → Disk → String → RunM (List String)

namespace Lister

/-- What a walk through a directory comes across: the directory itself and the entries below. -/
def visits (d : Disk) (root : String) : List Disk.Visit :=
  match d.lstat root with
  | .ok n => ⟨[], n⟩ :: Disk.visits (fun name => !isNoise name) [] n
  | .error _ => []

/-- Goes through the entries of a walk and keeps the regular files; the signal is looked at for
each entry. -/
def collect (signal : Signal) : List Disk.Visit → RunM (List String)
  | [] => return []
  | v :: rest => do
    RunM.check signal
    let more ← collect signal rest
    if v.node.isRegular then
      return (if v.path.isEmpty then "." else "/".intercalate v.path) :: more
    else return more

/-- Lists the regular files by walking through the directory. -/
def walk : Lister := fun signal d root =>
  tryCatch (collect signal (visits d root)) fun f => throw (f.during ("walk " ++ root))

/-- The paths in the output of the version control: each is followed by a zero byte, and any other
byte may be in it. -/
def printedPaths (output : Text.Bytes) : List Text.Bytes :=
  (Text.splitBytes 0 output).filter (! ·.isEmpty)

/-- Asks the version control for the files that it knows; their paths are bytes. -/
def printed (signal : Signal) (d : Disk) : RunM (List Text.Bytes) := do
  let outcome ← RunM.exec signal d.directory { name := "git", arguments := ["ls-files", "-z"] }
  match outcome with
  | .ok response => return printedPaths response.stdout
  | .error e => throw (e.failure.during "git ls-files")

/-- Lists the files that the version control knows, by the texts of their paths. -/
def tracked : Lister := fun signal d _ => do
  let paths ← printed signal d
  return paths.map Text.textOf

/-- Tries one way first, and another if it fails or lists nothing. -/
def orElse (first second : Lister) : Lister := fun signal d root => do
  let found ← tryCatch (first signal d root) fun _ => return []
  if !found.isEmpty then return found
  RunM.check signal
  second signal d root

/-- The usual way: what the version control knows, or else a walk. -/
def usual : Lister := orElse tracked walk

/-- A fixed list. -/
def fixed (files : List String) : Lister := fun _ _ _ => return files

/-- A way that fails. -/
def failing (f : Failure) : Lister := fun _ _ _ => throw f

end Lister

/-- Drops elements that equal the one before. -/
def dropAdjacent : List String → List String
  | a :: b :: rest => if a = b then dropAdjacent (b :: rest) else a :: dropAdjacent (b :: rest)
  | short => short

/-- The clean path of a listed one, if it names something that is not excluded. -/
def universePath? (exclude : GlobSet) (file : String) : Option String :=
  let f := Text.trim file
  if f.isEmpty then none
  else
    let f := Path.withoutHere (Path.clean f)
    if exclude.accepts f then none else some f

/-- The universe of listed files: clean paths in order, each once, without the excluded ones. -/
def universeOf (exclude : GlobSet) (files : List String) : List String :=
  dropAdjacent ((files.filterMap (universePath? exclude)).mergeSort (· ≤ ·))

end RuleScan
