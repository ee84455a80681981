import RuleScan.Cli.Watching
import RuleScan.Watch.Session

/-!
# The executable

Reads the files that a run can reach, hands them to the program as a disk, and makes the changes of
the run to the real files.  Nothing is decided here.  No other programs are started, so files are
listed by walking and searched by the program itself.
-/

namespace RuleScan.Executable

open RuleScan.Disk (Node)

/-- What is at a path, with everything below it.  Of a repository's own directory only its presence
counts. -/
partial def readNode (path : String) : IO (Option Node) := do
  let here := (← IO.currentDir) / path
  try
    match (← here.symlinkMetadata).type with
    | .dir =>
      if Path.base path = ".git" then return some (.directory [])
      let mut entries : Disk.Entries := []
      for e in ← here.readDir do
        if let some n ← readNode (Path.join [path, e.fileName]) then
          entries := Node.insertEntry e.fileName n entries
      return some (.directory entries)
    | .file => return some (.file (← IO.FS.readBinFile here).toList)
    | .symlink => return some (.link (← IO.FS.realPath here).toString)
    | .other => return some .pipe
  catch _ => return none

/-- Adds what is at a path to a disk. -/
def withPath (d : Disk) (path : String) : IO Disk := do
  let path := Path.absolute d.directory path
  match ← readNode path with
  | some n => return d.set path n
  | none => return d

/-- The paths above a path that a search upward can come to: repositories and project
configurations. -/
def pathsAbove (path : String) : List String :=
  (Path.upward path).flatMap fun directory =>
    (".git" :: ConfigFile.projectNames).map fun name => Path.join [directory, name]

/-- The disk that a command line can reach: what is above and below the working directory and what
the arguments name. -/
def readDisk (env : Environment) (args : List String) : IO Disk := do
  let directory := (← IO.currentDir).toString
  let values := args.flatMap fun a => a :: (a.splitOn "=").drop 1
  let named := (values.filter (· ≠ "")).map (Path.absolute directory)
  let starts := directory :: named
  let mut d : Disk := { directory }
  for path in starts.flatMap pathsAbove ++ ConfigFile.userConfigPath env :: starts do
    d ← withPath d path
  return d

/-- Makes a change to the real files. -/
def perform : Disk.Change → IO Unit
  | .write path content => do
    IO.FS.createDirAll (Path.dir path)
    IO.FS.writeBinFile path content.toByteArray
  | .makeDirectory path => IO.FS.createDirAll path
  | .remove path => do
    let here := (← IO.currentDir) / path
    if ← here.isDir then IO.FS.removeDirAll path
    else if ← here.pathExists then IO.FS.removeFile path
  | .rename source target => IO.FS.rename source target
  | .bring _ _ | .touch _ => return

/-- The variables that the program looks at. -/
def variableNames : List String :=
  ["XDG_CONFIG_HOME", "HOME", "TMPDIR", "PATH"] ++
    (Cli.Verb.all.flatMap fun v => (Cli.flagsOf (some v)).map Cli.Flag.variableName).eraseDups

/-- The values of the variables that are set. -/
def readEnvironment : IO Environment :=
  variableNames.filterMapM fun name => do
    return (← IO.getEnv name).map fun value => (name, value)

/-- A name for the run that no other run has. -/
def freshTrace : IO String := do
  let bytes ← IO.getRandomBytes 16
  return String.join (bytes.toList.map fun b =>
    String.ofList [Nat.digitChar (b.toNat / 16), Nat.digitChar (b.toNat % 16)])

/-- What a run starts from. -/
def readWorld (args : List String) : IO Cli.World := do
  let environment ← readEnvironment
  return {
    disk := ← readDisk environment args
    environment := environment
    circumstances := { trace := ← freshTrace }
    stamp := toString (← IO.monoNanosNow) }

/-- Makes the changes from one disk to another one to the real files. -/
def writeBack (old new : Disk) : IO Unit := (old.differences new).forM perform

/-- Looks at the files again and again, and goes on with what has changed. -/
partial def keepWatching (env : Environment) (args : List String) (m : Cli.Watching) : IO Unit := do
  IO.sleep 300
  let before := m.session.disk
  let seen ← readDisk env args
  let (m, text) := m.change .quiet (before.differences seen)
  writeBack seen m.session.disk
  IO.print text
  (← IO.getStdout).flush
  keepWatching env args m

/-- Shows how a run ended; gives its code. -/
def finish (e : Cli.Ending) : IO UInt32 := do
  IO.eprint e.shown
  return e.code.toUInt32

/-- Runs a command line. -/
def run (args : List String) : IO UInt32 := do
  let w ← readWorld args
  if Cli.wantsWatching w args then
    match Cli.startWatching w .quiet args with
    | .error f => finish (.failed f)
    | .ok (m, text) =>
      writeBack w.disk m.session.disk
      IO.print text
      (← IO.getStdout).flush
      keepWatching w.environment args m
      return 0
  else
    let r := Cli.run w .quiet args
    writeBack w.disk r.world.disk
    IO.print r.output
    finish r.ending

end RuleScan.Executable

/-- The program. -/
def main (args : List String) : IO UInt32 := RuleScan.Executable.run args
