import RuleScan.Failure
import RuleScan.Path
import RuleScan.Text.Utf8

/-!
# Files

A tree of files, the disk that it makes with a working directory, and plans of changing one.
-/

/-!
## Trees of files

A tree of files as a value: directories with named entries, regular files with their contents,
symbolic links with their targets, and named pipes.  Nothing here follows a link; paths are given
as the list of names that lead from the root of the tree to the place in question.  The entries of
a directory are kept in the order of their names.
-/

namespace RuleScan.Disk

open RuleScan.Text (Bytes)

/-- What a name in a directory stands for. -/
inductive Node where
  | file (content : Bytes)
  | directory (entries : List (String × Node))
  | link (target : String)
  | pipe
  deriving Inhabited

/-- The entries of a directory. -/
abbrev Entries := List (String × Node)

namespace Node

/-- Whether this is a directory. -/
def isDirectory : Node → Bool
  | .directory _ => true
  | _ => false

/-- Whether this is a regular file. -/
def isRegular : Node → Bool
  | .file _ => true
  | _ => false

/-- The entries of a directory; anything else has none. -/
def entries : Node → Entries
  | .directory es => es
  | _ => []

/-- The entry with a name. -/
def entry? (name : String) (n : Node) : Option Node :=
  (n.entries.find? (·.1 = name)).map (·.2)

/-- Puts an entry in its place, instead of one that has the name already. -/
def insertEntry (name : String) (n : Node) : Entries → Entries
  | [] => [(name, n)]
  | (other, m) :: rest =>
    if name = other then (name, n) :: rest
    else if name < other then (name, n) :: (other, m) :: rest
    else (other, m) :: insertEntry name n rest

/-- The node that names lead to. -/
def get? : List String → Node → Option Node
  | [], n => some n
  | name :: rest, n => (n.entry? name).bind (get? rest)

/-- Puts a node where names lead to; directories that are missing on the way are made. -/
def put (n : Node) (path : List String) (new : Node) : Node :=
  match path with
  | [] => new
  | name :: rest =>
    .directory (insertEntry name (put ((n.entry? name).getD (.directory [])) rest new) n.entries)

/-- Takes away what names lead to. -/
def erase : List String → Node → Node
  | [], n => n
  | [name], n =>
    match n with
    | .directory es => .directory (es.filter (·.1 ≠ name))
    | n => n
  | name :: rest, n =>
    match n.entry? name with
    | some m => .directory (insertEntry name (erase rest m) n.entries)
    | none => n

end Node

/-- A step of a walk through a tree: the names that lead to an entry and what it is. -/
structure Visit where
  path : List String
  node : Node
  deriving Inhabited

mutual

/-- The entries below a directory in the order of a walk: names in order, a directory before what
is in it.  Directories that are not entered are left out with everything in them. -/
def visits (enters : String → Bool) (path : List String) : Node → List Visit
  | .directory es => visitsOf enters path es
  | _ => []

/-- The walk through some entries. -/
def visitsOf (enters : String → Bool) (path : List String) : List (String × Node) → List Visit
  | [] => []
  | (name, n) :: rest =>
    (if n.isDirectory && !enters name then []
      else ⟨path ++ [name], n⟩ :: visits enters (path ++ [name]) n) ++
      visitsOf enters path rest

end

end RuleScan.Disk

/-!
## Files on a disk

A disk is a tree of files together with a working directory.  Paths are followed name by name and
through symbolic links, `..` leads to the directory above the real place, and every operation says
why it cannot be done in the words of the system.  An operation that changes something gives back
the changed disk.
-/

namespace RuleScan

open RuleScan.Text (Bytes)

/-- A tree of files with a working directory. -/
structure Disk where
  root : Disk.Node := .directory []
  directory : String := "/"
  deriving Inhabited

namespace Disk

/-- Why an operation on files cannot be done. -/
inductive Fault where
  | notExist
  | notDirectory
  | isDirectory
  | exists
  | notEmpty
  | loop
  | nameTooLong
  | invalid
  deriving Repr, DecidableEq, Inhabited

/-- The text of a fault. -/
def Fault.message : Fault → String
  | .notExist => "no such file or directory"
  | .notDirectory => "not a directory"
  | .isDirectory => "is a directory"
  | .exists => "file exists"
  | .notEmpty => "directory not empty"
  | .loop => "too many levels of symbolic links"
  | .nameTooLong => "file name too long"
  | .invalid => "invalid argument"

/-- The failure of an operation on a path. -/
def Fault.failure (operation path : String) (f : Fault) : Failure :=
  { message := operation ++ " " ++ path ++ ": " ++ f.message
    causes := if f = .notExist then [.notExist] else [] }

/-- The names of a path that say something. -/
def names (path : String) : List String :=
  (Path.segments path).filter fun s => s ≠ "" && s ≠ "."

/-- The path of a place. -/
def pathOf (place : List String) : String := "/" ++ "/".intercalate place

/-- How many symbolic links are followed for one path. -/
def maxLinks : Nat := 40

/-- How many bytes a name may have. -/
def maxNameLength : Nat := 255

/-- What the last name of a path stands for. -/
inductive Ending where
  /-- The entry itself, also if it is a link. -/
  | entry
  /-- What is behind links. -/
  | target
  /-- What is behind links, or where it could be made. -/
  | room
  deriving Repr, DecidableEq, Inhabited

/-- Follows names from a place that is known to be a directory; gives the real place.  Links on
the way are followed. -/
def follow (root : Node) (ending : Ending) (links : Nat) (place : List String)
    (todo : List String) : Except Fault (List String) :=
  match todo with
  | [] => .ok place
  | name :: rest =>
    if name = ".." then follow root ending links place.dropLast rest
    else if Text.byteLength name > maxNameLength then .error .nameTooLong
    else
      match root.get? (place ++ [name]) with
      | none => if rest.isEmpty && ending = .room then .ok (place ++ [name]) else .error .notExist
      | some (.link target) =>
        if rest.isEmpty && ending = .entry then .ok (place ++ [name])
        else
          match links with
          | 0 => .error .loop
          | links + 1 =>
            let start := if Path.isAbs target then [] else place
            follow root ending links start (names target ++ rest)
      | some (.directory _) => follow root ending links (place ++ [name]) rest
      | some _ => if rest.isEmpty then .ok (place ++ [name]) else .error .notDirectory
termination_by (links, todo.length)

/-- The names that lead from the root of the disk along a path. -/
def fullNames (d : Disk) (path : String) : List String :=
  if Path.isAbs path then names path else names d.directory ++ names path

/-- The real place of a path. -/
def place (d : Disk) (path : String) : Except Fault (List String) :=
  if path.isEmpty then .error .notExist
  else follow d.root .target maxLinks [] (d.fullNames path)

/-- What is at a path, behind links. -/
def stat (d : Disk) (path : String) : Except Fault Node := do
  match d.root.get? (← d.place path) with
  | some n => if Path.asksDirectory path && !n.isDirectory then throw .notDirectory else return n
  | none => throw .notExist

/-- What is at a path; a link at the end is not followed unless a directory is asked for. -/
def lstat (d : Disk) (path : String) : Except Fault Node := do
  if path.isEmpty then throw .notExist
  if Path.asksDirectory path then d.stat path
  else match d.root.get? (← follow d.root .entry maxLinks [] (d.fullNames path)) with
  | some n => return n
  | none => throw .notExist

/-- Whether there is something at a path. -/
def has (d : Disk) (path : String) : Bool :=
  match d.stat path with
  | .ok _ => true
  | .error _ => false

/-- The content of a file; the failure says which step went wrong. -/
def read (d : Disk) (path : String) : Except Failure Bytes :=
  match d.stat path with
  | .error f => .error (f.failure "open" path)
  | .ok (.file content) => .ok content
  | .ok (.directory _) => .error (Fault.isDirectory.failure "read" path)
  | .ok _ => .ok []

/-- The place where a file of a path would be made, behind links that lead nowhere yet. -/
def newPlace (d : Disk) (path : String) : Except Fault (List String) :=
  if path.isEmpty then .error .notExist
  else follow d.root .room maxLinks [] (d.fullNames path)

/-- Writes a file; the directory above has to be there. -/
def write (d : Disk) (path : String) (content : Bytes) : Except Failure Disk :=
  match d.newPlace path with
  | .error f => .error (f.failure "open" path)
  | .ok p =>
    if Path.asksDirectory path || (d.root.get? p).any Node.isDirectory then
      .error (Fault.isDirectory.failure "open" path)
    else .ok { d with root := d.root.put p (.file content) }

/-- Makes one directory in a directory that is there. -/
def made (d : Disk) (path : String) : Except Fault Disk :=
  let full := d.fullNames path
  match follow d.root .target maxLinks [] full.dropLast, full.getLast? with
  | .error f, _ => .error f
  | .ok _, none => .error .exists
  | .ok above, some name =>
    if Text.byteLength name > maxNameLength then .error .nameTooLong
    else match d.root.get? above, d.root.get? (above ++ [name]) with
    | some (.directory _), none =>
      .ok { d with root := d.root.put (above ++ [name]) (.directory []) }
    | some (.directory _), some _ => .error .exists
    | _, _ => .error .notDirectory

/-- Makes one directory, or says why it cannot be made. -/
def makeDirectory (d : Disk) (path : String) : Except Failure Disk :=
  (d.made path).mapError (·.failure "mkdir" path)

/-- The paths of the directories above a path and the path itself, the shortest first. -/
def ancestors (path : String) : List String :=
  let full := Path.cleanSegments path
  (List.range full.length).map fun i =>
    (if Path.isAbs path then "/" else "") ++ "/".intercalate (full.take (i + 1))

/-- Makes the directories of a list one after the other unless they are there.  If one cannot be
made, those before it stay; it is told with a slash behind it unless it is the last. -/
def makeEach (d : Disk) : List String → Disk × Option Failure
  | [] => (d, none)
  | path :: rest =>
    match d.stat path with
    | .ok (.directory _) => d.makeEach rest
    | _ =>
      match d.made path with
      | .ok d => d.makeEach rest
      | .error f => (d, some (f.failure "mkdir" (if rest.isEmpty then path else path ++ "/")))

/-- Makes a directory and those above it, as far as they can be made. -/
def makePath (d : Disk) (path : String) : Disk × Option Failure :=
  match d.stat path with
  | .ok (.directory _) => (d, none)
  | .ok _ => (d, some (Fault.notDirectory.failure "mkdir" path))
  | .error _ => d.makeEach (ancestors path)

/-- Makes a directory and those above it. -/
def makeDirectories (d : Disk) (path : String) : Except Failure Disk :=
  match d.makePath path with
  | (made, none) => .ok made
  | (_, some f) => .error f

/-- The place of an entry itself, whether or not it is there; the directory above has to be. -/
def entryPlace (d : Disk) (path : String) : Except Fault (List String) := do
  let full := d.fullNames path
  match full.getLast? with
  | none => return []
  | some name =>
    let above ← follow d.root .target maxLinks [] full.dropLast
    if !(d.root.get? above).any Node.isDirectory then throw .notDirectory
    if Text.byteLength name > maxNameLength then throw .nameTooLong
    return above ++ [name]

/-- Gives a file or directory another path; a file there is replaced.  A directory cannot be moved
into itself. -/
def rename (d : Disk) (source target : String) : Except Failure Disk :=
  let failure (f : Fault) : Failure :=
    { message := "rename " ++ source ++ " " ++ target ++ ": " ++ f.message
      causes := if f = .notExist then [.notExist] else [] }
  match d.entryPlace source, d.entryPlace target with
  | .error f, _ => .error (failure f)
  | _, .error f => .error (failure f)
  | .ok a, .ok b =>
    match d.root.get? a, d.root.get? b with
    | none, _ => .error (failure .notExist)
    | some n, none =>
      if a.isPrefixOf b then .error (failure .invalid)
      else .ok { d with root := (d.root.erase a).put b n }
    | some n, some m =>
      if m.isDirectory then .error (failure .exists)
      else if n.isDirectory then .error (failure .notDirectory)
      else .ok { d with root := (d.root.erase a).put b n }

/-- Takes away an entry with everything below it; nothing happens if it is not there. -/
def remove (d : Disk) (path : String) : Disk :=
  match d.entryPlace path with
  | .error _ => d
  | .ok p =>
    match d.root.get? p with
    | none => d
    | some _ => { d with root := d.root.erase p }

/-- Puts a node at a path; what is missing above is made. -/
def set (d : Disk) (path : String) (n : Node) : Disk :=
  { d with root := d.root.put (d.fullNames path) n }

end Disk

end RuleScan

/-!
## Regular files

Documents are read only from regular files; anything else at the path is told apart.
-/

namespace RuleScan.Disk

open RuleScan.Text (Bytes)

/-- Reads a regular file. -/
def readRegular (d : Disk) (path : String) : Except Failure Bytes :=
  match d.stat path with
  | .error f => .error ((f.failure "stat" path).during "stat file")
  | .ok (.file content) => .ok content
  | .ok (.directory _) => .error (.plain (path ++ ": path is a directory"))
  | .ok _ => .error (.plain (path ++ ": unknown file state"))

end RuleScan.Disk

/-!
## Plans

A change of several files is planned first, as a list of steps, and then carried out step by step.
The first step that cannot be done ends it, and what was done before stays.  A step can also fail in
the middle, by an accident that has nothing to do with the files; then a part of it may be done.
-/

namespace RuleScan.Disk

open RuleScan.Text (Bytes)

/-- One step of a change. -/
inductive Step where
  | rename (source target : String)
  | makeDirectories (path : String)
  | write (path : String) (content : Bytes)
  deriving Repr, DecidableEq, Inhabited

/-- A change that is made as a whole or not at all. -/
def orUnchanged (d : Disk) : Except Failure Disk → Disk × Option Failure
  | .ok changed => (changed, none)
  | .error f => (d, some f)

/-- What a step does, and why it cannot be done to its end. -/
def Step.run (d : Disk) : Step → Disk × Option Failure
  | .rename source target => d.orUnchanged (d.rename source target)
  | .makeDirectories path => d.makePath path
  | .write path content => d.orUnchanged (d.write path content)

/-- What a step that fails may leave behind: the files as they were, some of the directories, or a
file with the front of the content. -/
inductive Step.Leaves (d : Disk) : Step → Disk → Prop
  | unchanged (step : Step) : Leaves d step d
  | directories {path : String} (n : Nat) :
      Leaves d (.makeDirectories path) (d.makeEach ((ancestors path).take n)).1
  | part {path : String} {content : Bytes} {changed : Disk} (n : Nat) :
      d.write path (content.take n) = .ok changed → Leaves d (.write path content) changed

/-- The accidents of a run: which steps fail, and what they leave behind. -/
structure Accidents where
  strike : Disk → Step → Option (Disk × Failure)
  leaves : ∀ d step left f, strike d step = some (left, f) → step.Leaves d left

/-- A run without accidents. -/
def Accidents.none : Accidents where
  strike _ _ := .none
  leaves _ _ _ _ h := by cases h

/-- A step with its accidents. -/
def Accidents.perform (a : Accidents) (d : Disk) (step : Step) : Disk × Option Failure :=
  match a.strike d step with
  | some (left, f) => (left, some f)
  | .none => step.run d

/-- Steps, each with the activities that a failure is told under, the innermost first. -/
abbrev Plan := List (Step × List String)

/-- Carries out a plan; gives the disk afterwards and the failure if a step could not be done. -/
def Plan.run (a : Accidents) (d : Disk) : Plan → Disk × Option Failure
  | [] => (d, none)
  | (step, activities) :: rest =>
    match a.perform d step with
    | (left, some f) => (left, some (activities.foldl Failure.during f))
    | (changed, .none) => Plan.run a changed rest

end RuleScan.Disk
