import RuleScan.Cli.Command
import RuleScan.Report.Format
import RuleScan.Scan
import RuleScan.Watch.Session

/-!
# The program

What each command does: what it prints, what it changes on the disk, and how it ends.
-/

namespace RuleScan.Cli

/-- What a run of the program starts from. -/
structure World where
  disk : Disk
  environment : Environment := []
  programs : Programs := {}
  circumstances : Circumstances := {}
  /-- The time, which tells kept files apart. -/
  stamp : String := ""

/-- How a run ends. -/
inductive Ending where
  | done
  /-- With a code that says what was found. -/
  | status (code : Nat)
  | failed (f : Failure)

namespace Ending

/-- The code that a run ends with. -/
def code : Ending → Nat
  | .done => 0
  | .status code => code
  | .failed _ => 3

/-- The ending with a code; zero says that all is well. -/
def ofCode (code : Nat) : Ending := if code = 0 then .done else .status code

/-- The failure behind an ending. -/
def failure? : Ending → Option Failure
  | .done => none
  | .status code => some (.plain ("exit status " ++ toString code))
  | .failed f => some f

end Ending

/-- What a run leaves behind. -/
structure Result where
  world : World
  output : String := ""
  ending : Ending := .done

/-- Ends without changing anything. -/
def World.ends (w : World) (r : Except Failure (String × Ending)) : Result :=
  match r with
  | .ok (output, ending) => { world := w, output, ending }
  | .error f => { world := w, ending := .failed f }

/-- The variables as programs see them. -/
def World.variables (w : World) : List String := w.environment.map fun (k, v) => k ++ "=" ++ v

/-- The configuration of the user: its path, and whether it was asked for. -/
def configPath (w : World) (g : Given) : String × Bool :=
  match (g.text? "config").getD "" with
  | "" => (ConfigFile.userConfigPath w.environment, false)
  | path => (path, true)

/-- The settings for a directory. -/
def settingsFor (w : World) (g : Given) (root : String) : Except Failure Settings :=
  let (path, asked) := configPath w g
  Settings.load w.disk root path asked

/-- The directory that arguments name; without any, the working directory. -/
def directoryOf (args : List String) : String := args.headD "."

/-! ## Scanning -/

/-- What the flags of a scan ask for. -/
def wishesOf (g : Given) : Wishes :=
  { searchCommand := g.text? "search-cmd"
    strictSearch := g.switch? "strict-search"
    concurrency := g.whole? "concurrency"
    timeout := g.text? "timeout"
    format := g.text? "format"
    specPath := (g.text? "spec").getD "" }

/-- The scanner for a command line. -/
def scannerFor (w : World) (g : Given) (args : List String) : Except Failure Scanner := do
  let root ← resolveRoot w.disk (directoryOf args)
  let s := (← settingsFor w g root).withWishes (wishesOf g)
  match s.problem? with
  | some f => throw f
  | none =>
    let scanner ← Scanner.make w.variables root s
    return { scanner with
      profile := (g.text? "profile").getD ""
      files := g.texts "files"
      exclude := g.texts "exclude"
      output := (g.text? "output").getD "" }

/-- Scans once: what is printed and what is written to the file for the report. -/
def scanOnce (w : World) (signal : Signal) (s : Scanner) : World × Except Failure Scanner.Outcome :=
  let (r, run) := (s.scan w.circumstances signal w.disk).run.run { programs := w.programs }
  ({ w with programs := run.programs }, r)

/-- The disk with a report in its file. -/
def withReport (d : Disk) (s : Scanner) (text : String) : Disk :=
  if s.output = "" then d
  else match d.write s.output (Text.bytesOf text) with
    | .ok d => d
    | .error _ => d

/-- Scans and ends with what was found. -/
def runScan (w : World) (signal : Signal) (g : Given) (args : List String) : Result :=
  match scannerFor w g args with
  | .error f => { world := w, ending := .failed f }
  | .ok s =>
    match scanOnce w signal s with
    | (w, .error f) => { world := w, ending := .failed f }
    | (w, .ok o) =>
      { world := { w with disk := withReport w.disk s o.text }
        output := if s.output = "" then o.text else ""
        ending := .ofCode o.status.exitCode }

/-! ## Other commands -/

/-- Checks profile files. -/
def runValidate (w : World) (args : List String) : Result :=
  let shown (path : String) : Bool × String :=
    match Profile.complaints w.disk path with
    | [] => (true, "valid " ++ path ++ "\n")
    | errors =>
      (false, "invalid " ++ path ++ "\n" ++
        String.join (errors.map fun e => "  " ++ Text.block ("- " ++ e) ++ "\n"))
  let all := args.map shown
  w.ends (.ok (String.join (all.map (·.2)), .ofCode (if all.all (·.1) then 0 else 1)))

/-- Lists the profiles that are known by name. -/
def runProfiles (w : World) (args : List String) : Result :=
  w.ends do
    let root ← resolveRoot w.disk (directoryOf args)
    let c : Catalog := { root }
    let line (name : String) : String := match c.load w.disk name with
      | .ok p => name ++ " (" ++ toString p.rules.length ++ " rules) " ++ p.description ++ "\n"
      | .error _ => name ++ " (invalid)\n"
    return (String.join (c.names.map line), .done)

/-- Prints the specification. -/
def runSpec (w : World) (g : Given) (args : List String) : Result :=
  w.ends do
    let root ← resolveRoot w.disk (directoryOf args)
    let s ← settingsFor w g root
    let path := match (g.text? "spec").getD "" with
      | "" => s.specPath
      | path => path
    let (spec, _) ← Spec.load w.disk path (some { root })
    return (spec.toYaml, .done)

/-- Reads a report from a file. -/
def readReport (d : Disk) (path : String) : Except Failure Report :=
  match d.stat path with
  | .error f => .error ((f.failure "open" path).during "open report")
  | .ok n =>
    let read : Except Failure Report := match n with
      | .directory _ => .error ((Disk.Fault.isDirectory.failure "read" path).during "decode report")
      | .file content => Report.read (Text.textOf content)
      | _ => Report.read ""
    read.mapError (·.during path)

/-- The code of a program that broke down. -/
def breakdownCode : Nat := 2

/-- Compares two reports. -/
def runDiff (w : World) (old new : String) : Result :=
  w.ends do
    let a ← readReport w.disk old
    let b ← readReport w.disk new
    match Report.diff? .standard old a new b with
    | some text => return (text, .ofCode (if text = "" then 0 else 1))
    | none => return ("", .status breakdownCode)

/-- The schemas that can be printed. -/
def schemas : List (String × Json) :=
  [("config", Schema.configSchema), ("profile", Schema.profileSchema),
    ("project", Schema.projectSchema)]

/-- Prints a schema. -/
def runSchema (w : World) (g : Given) : Result :=
  let kind := (g.text? "kind").getD "profile"
  w.ends (match schemas.lookup kind with
    | some schema => .ok (schema.pretty ++ "\n", .done)
    | none =>
      .error (.plain ("invalid argument " ++ Text.quoted kind ++ " for --kind: one of " ++
        ", ".intercalate (schemas.map (·.1)))))

/-- Writes the configuration that a user starts with. -/
def runInit (w : World) (g : Given) : Result :=
  let path := (configPath w g).1
  let (disk, failed) :=
    UserConfig.writeDefaultTo w.disk path ((g.switch? "force").getD false) w.stamp
  let w := { w with disk }
  match failed with
  | some f => { world := w, ending := .failed f }
  | none => { world := w, output := path ++ "\n" }

/-! ## Command lines -/

/-- What a command line asks for. -/
inductive Request where
  | help
  | command (v : Verb) (g : Given) (args : List String)

/-- Checks the flags that say how to log. -/
def checkLogging (g : Given) : Except Failure Unit := do
  let wrong (f : Failure) : Failure := (f.during "invalid argument").during "create log handler"
  let _ ← (Log.Level.parse ((g.text? "log-level").getD "info")).mapError wrong
  let _ ← (Log.Form.parse ((g.text? "log-format").getD "text")).mapError wrong

/-- Reads a command line. -/
def read (env : Environment) (args : List String) : Except Failure Request := do
  let wrong (e : UsageError) : Failure := .plain e.message
  let (verb, args) ← (findCommand args).mapError wrong
  let (g, args) ← (parseArguments env (flagsOf verb) args).mapError wrong
  match verb with
  | none | some .help | some .completion => return .help
  | some v =>
    if (g.switch? "help").getD false then return .help
    match v.misfit? args with
    | some e => throw (wrong e)
    | none =>
      checkLogging g
      return .command v g args

/-- Does what a command line asks for.  Help is not part of the output here. -/
def run (w : World) (signal : Signal) (args : List String) : Result :=
  match read w.environment args with
  | .error f => { world := w, ending := .failed f }
  | .ok .help => { world := w }
  | .ok (.command v g args) =>
    match v with
    | .scan => runScan w signal g args
    | .validate => runValidate w args
    | .profiles => runProfiles w args
    | .spec => runSpec w g args
    | .diff => runDiff w (args.headD "") (args.getLastD "")
    | .schema => runSchema w g
    | .init => runInit w g
    | .help | .completion => { world := w }

/-! ## Errors -/

/-- The fronts of messages about a wrong command line. -/
def usageFronts : List String :=
  ["flag needs an argument:", "unknown flag:", "unknown shorthand flag:", "unknown command",
    "invalid argument", "accepts ", "requires at least"]

/-- Whether a failure is about a wrong command line. -/
def isUsage (f : Failure) : Bool :=
  usageFronts.any fun front => front.toList.isPrefixOf f.message.toList

/-- A message in a block with a line to its left. -/
def boxed (message : String) : String :=
  "\n".intercalate ((Text.splitLines (Text.block message)).map ("  │ " ++ ·))

/-- What is shown of an ending: the message of a failure, and a hint if the command line was
wrong. -/
def Ending.shown : Ending → String
  | .failed f =>
    "\n" ++ boxed f.message ++ "\n\n" ++ (if isUsage f then "Try--help for usage.\n\n" else "")
  | _ => ""

end RuleScan.Cli
