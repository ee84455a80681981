import RuleScan.Cli.Program

/-!
# Watch mode

A first scan, and then another one whenever files have changed.  The file that the report is
written to does not count as a change.
-/

namespace RuleScan.Cli

/-- What is logged while files are watched. -/
inductive WatchRecord where
  | finished (status : Status)
  | failed (message : String)
  | watching (directories : Nat)

/-- A record as a log record. -/
def WatchRecord.record : WatchRecord → Log.Record
  | .finished status =>
    { message := "scan finished", attributes := [("status", .string status.name)], level := .info }
  | .failed message =>
    { message := "scan failed", attributes := [("error", .string message)], level := .error }
  | .watching n =>
    { message := "watching for changes", attributes := [("dirs", .int n)], level := .info }

/-- Watch mode at work. -/
structure Watching where
  world : World
  session : Session
  scanner : Scanner
  /-- The file for the report, seen from the scanned directory. -/
  ownFile : Option String
  records : List WatchRecord := []

namespace Watching

/-- Scans; gives what is printed.  The report in a file is a change that is heard of too. -/
def scan (m : Watching) (signal : Signal) : Watching × String :=
  let (world, r) := scanOnce { m.world with disk := m.session.disk } signal m.scanner
  match r with
  | .error f => ({ m with world, records := m.records ++ [.failed f.message] }, "")
  | .ok o =>
    let m := { m with world, records := m.records ++ [.finished o.status] }
    if m.scanner.output = "" then (m, o.text)
    else
      let change : Disk.Change := .write m.scanner.output (Text.bytesOf o.text)
      ({ m with session := m.session.perform change }, "")

/-- Starts watching with a first scan. -/
def start (w : World) (signal : Signal) (s : Scanner) : Except Failure (Watching × String) := do
  let session ← (Session.start w.disk s.root).mapError (·.during ("watch " ++ s.root))
  let ownFile :=
    if s.output = "" then none
    else Path.relative? s.root (Path.absolute w.disk.directory s.output)
  let (m, text) := scan { world := w, session, scanner := s, ownFile } signal
  let record := WatchRecord.watching m.session.watcher.directories.length
  return ({ m with records := m.records ++ [record] }, text)

/-- Waits until the changes have settled, and scans again if any of them counts. -/
def settle (m : Watching) (signal : Signal) : Watching × String :=
  let (session, told) := m.session.settle
  let m := { m with session }
  let changed := (told.getD []).filter fun p => some p ≠ m.ownFile
  if changed.isEmpty then (m, "") else m.scan signal

/-- Makes some changes and waits until they have settled. -/
def change (m : Watching) (signal : Signal) (cs : List Disk.Change) : Watching × String :=
  settle { m with session := cs.foldl Session.perform m.session } signal

end Watching

/-- Whether a command line asks for watch mode. -/
def wantsWatching (w : World) (args : List String) : Bool :=
  match read w.environment args with
  | .ok (.command .scan g _) => (g.switch? "watch").getD false
  | _ => false

/-- Starts watch mode for a command line. -/
def startWatching (w : World) (signal : Signal) (args : List String) :
    Except Failure (Watching × String) := do
  match ← read w.environment args with
  | .command .scan g args => Watching.start w signal (← scannerFor w g args)
  | _ => throw (.plain "nothing to watch")

end RuleScan.Cli
