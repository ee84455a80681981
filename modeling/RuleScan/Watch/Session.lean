import RuleScan.Watch.Basic

/-!
# Changes and what is heard of them

Changes to the files on a disk, and what someone hears of them who listens at some directories:
one event for each entry of such a directory that is made, written, taken away or given another
name.  A listener stays with its directory when that moves together with a directory above it, and
goes on telling the path that it was set up with.
-/

namespace RuleScan

open RuleScan.Text (Bytes)

namespace Disk

/-- A change to the files on a disk. -/
inductive Change where
  | write (path : String) (content : Bytes)
  | makeDirectory (path : String)
  /-- Takes away a path with everything below it. -/
  | remove (path : String)
  | rename (source target : String)
  /-- Moves something that was made elsewhere to a path. -/
  | bring (path : String) (n : Node)
  /-- Changes the attributes only. -/
  | touch (path : String)
  deriving Inhabited

/-- Something that happened at a real place. -/
structure Notice where
  kind : Event.Kind
  place : List String
  deriving Repr, DecidableEq, Inhabited

/-- The notices of taking away what is at a place: what is below comes first. -/
def removalNotices (place : List String) (n : Node) : List Notice :=
  ((visits (fun _ => true) place n).map fun v => ⟨.removed, v.path⟩).reverse ++
    [⟨.removed, place⟩]

/-- The disk after a change that could be made, and what happened. -/
def change (d : Disk) : Change → Option (Disk × List Notice)
  | .write path content => do
    let place ← (d.newPlace path).toOption
    let after ← (d.write path content).toOption
    let kind := if (d.root.get? place).isSome then Event.Kind.written else .created
    return (after, [⟨kind, place⟩])
  | .makeDirectory path => do
    let after ← (d.makeDirectory path).toOption
    return (after, [⟨.created, ← (d.entryPlace path).toOption⟩])
  | .remove path => do
    let place ← (d.entryPlace path).toOption
    let n ← d.root.get? place
    return (d.remove path, removalNotices place n)
  | .rename source target => do
    let a ← (d.entryPlace source).toOption
    let b ← (d.entryPlace target).toOption
    let after ← (d.rename source target).toOption
    return (after, [⟨.renamed, a⟩, ⟨.created, b⟩])
  | .bring path n => do
    let place ← (d.entryPlace path).toOption
    return ({ d with root := d.root.put place n }, [⟨.created, place⟩])
  | .touch path => do
    let place ← (d.place path).toOption
    return (d, [⟨.touched, place⟩])

end Disk

/-- A listener at a directory. -/
structure Listener where
  /-- Where the directory really is. -/
  place : List String
  /-- The path that is told. -/
  path : String
  deriving Repr, DecidableEq, Inhabited

namespace Listener

/-- What a listener tells of a notice. -/
def hear? (l : Listener) (n : Disk.Notice) : Option Event :=
  if n.place.dropLast = l.place then
    n.place.getLast?.map fun name => ⟨[n.kind], l.path ++ "/" ++ name⟩
  else none

/-- The part of a place below another one. -/
def below? (above : List String) (place : List String) : Option (List String) :=
  if above.isPrefixOf place then some (place.drop above.length) else none

/-- A listener after a change: gone with its directory, gone when its directory is moved by itself,
moved along when a directory above it moves. -/
def after? (l : Listener) : Disk.Change → List Disk.Notice → Option Listener
  | .rename _ _, [⟨_, a⟩, ⟨_, b⟩] =>
    match below? a l.place with
    | none => some l
    | some [] => none
    | some rest => some { l with place := b ++ rest }
  | .remove _, notices => if notices.any (·.place = l.place) then none else some l
  | _, _ => some l

end Listener

/-- A watcher at work: the files, the watcher and the listeners it has set up. -/
structure Session where
  disk : Disk
  watcher : Watcher
  listeners : List Listener := []
  deriving Inhabited

namespace Session

/-- Sets up listeners at paths; a directory that has one keeps it. -/
def listen (s : Session) (paths : List String) : Session :=
  paths.foldl (fun s path =>
    match s.disk.place path with
    | .ok place =>
      if s.listeners.any (·.place = place) then s
      else { s with listeners := s.listeners ++ [⟨place, path⟩] }
    | .error _ => s) s

/-- Starts watching. -/
def start (d : Disk) (root : String) : Except Failure Session :=
  (Watcher.make d root).map fun w => listen { disk := d, watcher := w } w.directories

/-- Hands an event to the watcher and sets up the listeners it asks for. -/
def deliver (s : Session) (e : Event) : Session :=
  let w := s.watcher.receive s.disk e
  listen { s with watcher := w } (w.directories.filter (! s.watcher.directories.contains ·))

/-- Makes a change and delivers what is heard of it; a change that cannot be made is left out. -/
def perform (s : Session) (c : Disk.Change) : Session :=
  match s.disk.change c with
  | none => s
  | some (disk, notices) =>
    let events := notices.flatMap fun n => s.listeners.filterMap (·.hear? n)
    let listeners := s.listeners.filterMap (·.after? c notices)
    events.foldl deliver { s with disk, listeners }

/-- Lets the timer go off; tells the changes if there are any. -/
def settle (s : Session) : Session × Option (List String) :=
  let (watcher, told) := s.watcher.step s.disk .timer
  ({ s with watcher }, told)

end Session

end RuleScan

/-!
## Differences between disks

The changes that lead from one disk to another one.  Whoever cannot be told of changes can look at
the files again and again, and hear of what is different.
-/

namespace RuleScan.Disk

/-- Whether two nodes are of one kind. -/
def Node.alike : Node → Node → Bool
  | .file _, .file _ => true
  | .directory _, .directory _ => true
  | .link _, .link _ => true
  | .pipe, .pipe => true
  | _, _ => false

/-- What is taken away on the way from one tree to another one: what is missing there, or of
another kind. -/
def removals (old new : Node) : List Change :=
  (visits (fun _ => true) [] old).filterMap fun v =>
    match new.get? v.path with
    | some n => if v.node.alike n then none else some (.remove (pathOf v.path))
    | none => some (.remove (pathOf v.path))

/-- What is made or written on the way from one tree to another one. -/
def additions (old new : Node) : List Change :=
  (visits (fun _ => true) [] new).filterMap fun v =>
    match v.node, old.get? v.path with
    | .file a, some (.file b) => if a = b then none else some (.write (pathOf v.path) a)
    | .file a, _ => some (.write (pathOf v.path) a)
    | .directory _, some (.directory _) => none
    | .directory _, _ => some (.makeDirectory (pathOf v.path))
    | .link a, some (.link b) => if a = b then none else some (.bring (pathOf v.path) (.link a))
    | .pipe, some .pipe => none
    | n, _ => some (.bring (pathOf v.path) n)

/-- The changes that lead from one disk to another one. -/
def differences (old new : Disk) : List Change :=
  removals old.root new.root ++ additions old.root new.root

end RuleScan.Disk
