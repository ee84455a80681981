import RuleScan.Settings.Files
import RuleScan.Spec.Basic

/-!
# Settings in effect

The settings of one run: those of the user, over them those of the project, and over both what the
run itself asks for.
-/

namespace RuleScan

/-- The settings in effect for a directory. -/
structure Settings where
  engine : EngineSettings
  report : ReportSettings
  /-- The specification document. -/
  specPath : String
  /-- Globs of files that the project excludes. -/
  exclude : List String := []
  deriving Repr, DecidableEq, Inhabited

/-- What a run asks for; what it does not ask for is as set elsewhere. -/
structure Wishes where
  searchCommand : Option String := none
  strictSearch : Option Bool := none
  concurrency : Option Int := none
  timeout : Option String := none
  format : Option String := none
  /-- Another specification document; empty for none. -/
  specPath : String := ""
  deriving Repr, DecidableEq, Inhabited

/-- A directory to work in: its full path. -/
def resolveRoot (d : Disk) (path : String) : Except Failure String :=
  let root := Path.absolute d.directory path
  match d.stat root with
  | .error f => .error ((f.failure "stat" root).during "stat path")
  | .ok n =>
    if n.isDirectory then .ok root else .error (.plain (path ++ ": not a directory"))

namespace Settings

/-- Reads a configuration file; failures name it. -/
def readFile {α : Type} (d : Disk) (what path : String) (load : String → Except Failure α) :
    Except Failure α := do
  let content ← (d.readRegular path).mapError
    (·.during ("read " ++ what ++ " " ++ Text.quoted path))
  (load (Text.textOf content)).mapError (·.during ("invalid " ++ what ++ " " ++ Text.quoted path))

/-- The configuration of the user.  A file that nobody asked for need not be there. -/
def loadUser (d : Disk) (path : String) (asked : Bool) : Except Failure UserConfig :=
  match d.stat path with
  | .error .notExist =>
    if asked then readFile d "configuration" path UserConfig.load else .ok {}
  | _ => readFile d "configuration" path UserConfig.load

/-- The configuration of the project of a directory, with its path. -/
def loadProject (d : Disk) (root : String) : Except Failure (Option (String × ProjectConfig)) := do
  match ← ConfigFile.findProject d root with
  | none => return none
  | some path =>
    return some (path, ← readFile d "project configuration" path ProjectConfig.load)

/-- The settings of a user and a project for a directory. -/
def combine (root : String) (user : UserConfig) (project : Option (String × ProjectConfig)) :
    Settings :=
  let default := Spec.defaultPath root
  match project with
  | none => { engine := user.engine, report := user.report, specPath := default }
  | some (path, p) =>
    let c := user.withProject p
    { engine := c.engine
      report := c.report
      specPath := if p.specPath path = "" then default else p.specPath path
      exclude := p.exclude }

/-- Loads the settings for a directory. -/
def load (d : Disk) (root userPath : String) (asked : Bool) : Except Failure Settings := do
  let user ← loadUser d userPath asked
  return combine root user (← loadProject d root)

/-- The settings with what a run asks for over them. -/
def withWishes (s : Settings) (w : Wishes) : Settings :=
  let search : SearchSettings := { command := w.searchCommand, strict := w.strictSearch }
  let engine : EngineSettings :=
    { concurrency := w.concurrency, timeout := w.timeout, search := some search }
  { s with
    engine := engine.laidOver s.engine
    report := { s.report with format := overlay s.report.format w.format }
    specPath := if w.specPath = "" then s.specPath else w.specPath }

/-- The first thing that is wrong with the settings. -/
def problem? (s : Settings) : Option Failure :=
  (s.engine.problem?.map (·.during "invalid engine settings")).orElse fun _ =>
    s.report.problem?.map (·.during "invalid report settings")

end Settings

end RuleScan
