import RuleScan.Engine.Listing

/-!
# Watching a tree

A watcher follows the directories below a root and gathers what changes in them.  It is a state
machine: events add to the pending changes and wind up a timer, and when the timer goes off all
pending changes are told at once.  New directories are watched from their first event on;
directories that are never searched are never watched.
-/

namespace RuleScan

/-- What happened to an entry of a watched directory. -/
inductive Event.Kind where
  | created
  | written
  | removed
  /-- The entry has another name now. -/
  | renamed
  /-- Only its attributes changed. -/
  | touched
  deriving Repr, DecidableEq, Inhabited

/-- Something that happened at a path; it may be of several kinds at once. -/
structure Event where
  kinds : List Event.Kind
  path : String
  deriving Repr, DecidableEq, Inhabited

/-- Whether an event is of a kind. -/
def Event.has (e : Event) (kind : Event.Kind) : Bool := e.kinds.contains kind

/-- A watcher of the directories below a root. -/
structure Watcher where
  /-- A full path. -/
  root : String
  /-- The full paths of the watched directories, each once. -/
  directories : List String := []
  /-- The paths, seen from the root, that changed since changes were told last; each once. -/
  pending : List String := []
  /-- Whether the timer is wound up. -/
  armed : Bool := false
  deriving Repr, DecidableEq, Inhabited

/-- What a watcher reacts to. -/
inductive Watcher.Input where
  | event (e : Event)
  /-- The timer has gone off. -/
  | timer
  /-- The source of the events has trouble. -/
  | fault
  deriving Repr, DecidableEq, Inhabited

namespace Watcher

/-- The directories of a tree that are watched: not those that are never searched, nor anything in
them.  The root itself may have any name. -/
def directoriesAt (root : String) (d : Disk) (path : String) : Except Failure (List String) :=
  match d.lstat path with
  | .error f => .error ((f.failure "lstat" path).during ("watch " ++ path))
  | .ok n =>
    if !n.isDirectory || (path ≠ root && isNoise (Path.base path)) then .ok []
    else
      .ok (path :: (Disk.visits (fun name => !isNoise name) [] n).filterMap fun v =>
        if v.node.isDirectory then some (Path.join (path :: v.path)) else none)

/-- Adds the elements that are not there yet. -/
def addNew (known new : List String) : List String :=
  known ++ new.filter (! known.contains ·)

/-- Watches the directories of a tree too. -/
def follow (w : Watcher) (d : Disk) (path : String) : Except Failure Watcher :=
  (directoriesAt w.root d path).map fun found =>
    { w with directories := addNew w.directories found }

/-- A watcher of everything below a root. -/
def make (d : Disk) (root : String) : Except Failure Watcher :=
  let root := Path.absolute d.directory root
  follow { root } d root

/-- Whether what happens at a path does not matter: it is outside the root, or in a directory that
is never searched. -/
def ignores (w : Watcher) (path : String) : Bool :=
  match Path.relative? w.root path with
  | none => true
  | some rel => "..".toList.isPrefixOf rel.toList || (Path.segments rel).any isNoise

/-- Whether an event is one to tell of. -/
def heeds (w : Watcher) (e : Event) : Bool := !e.has .touched && !w.ignores e.path

/-- The directories when something is new at a path. -/
def directoriesWith (w : Watcher) (d : Disk) (path : String) : List String :=
  match d.stat path with
  | .ok (.directory _) =>
    match w.follow d path with
    | .ok w => w.directories
    | .error _ => w.directories
  | _ => w.directories

/-- The directories after an event. -/
def directoriesAfter (w : Watcher) (d : Disk) (e : Event) : List String :=
  let found := if e.has .created then w.directoriesWith d e.path else w.directories
  if e.has .removed || e.has .renamed then found.filter (· ≠ e.path) else found

/-- Takes in an event, with the files as they are then. -/
def receive (w : Watcher) (d : Disk) (e : Event) : Watcher :=
  if !w.heeds e then w
  else
    match Path.relative? w.root e.path with
    | none => w
    | some rel =>
      { w with
        directories := w.directoriesAfter d e
        pending := addNew w.pending [rel]
        armed := true }

/-- One step: the watcher afterwards, and the changes that are told. -/
def step (w : Watcher) (d : Disk) : Input → Watcher × Option (List String)
  | .event e => (w.receive d e, none)
  | .timer =>
    if w.armed then
      ({ w with pending := [], armed := false }, some (w.pending.mergeSort (· ≤ ·)))
    else (w, none)
  | .fault => (w, none)

/-- The watched directories seen from the root, in order. -/
def shown (w : Watcher) : List String :=
  (w.directories.filterMap (Path.relative? w.root)).mergeSort (· ≤ ·)

end Watcher

end RuleScan
