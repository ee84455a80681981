import RuleScan.Json.Read
import RuleScan.Text.Quoted
import RuleScan.Unicode.Case
import RuleScan.Decimal.Read
import RuleScan.Engine.Evaluate
import RuleScan.Report.Format
import RuleScan.Time.Duration

/-!
# Settings and their sizes

How sizes are written, and the settings that need them.
-/

/-!
## Sizes in words

A size such as `1.5 MiB` or `2,000 kB`: a number and a unit, which is a power of 1000 or, with an
`i`, of 1024.  The number may have commas, and a size without unit counts bytes.
-/

namespace RuleScan.Size

open RuleScan.Text (Bytes)

/-- Why a text is no size. -/
inductive Error where
  | noNumber (text : Bytes)
  | outOfRange (text : Bytes)
  | tooLarge (text : String)
  | unknownUnit (name : String)
  deriving Repr, DecidableEq, Inhabited

/-- The text of the refusal. -/
def Error.message : Error → String
  | .noNumber text => "strconv.ParseFloat: parsing " ++ Text.quotedBytes text ++ ": invalid syntax"
  | .outOfRange text =>
    "strconv.ParseFloat: parsing " ++ Text.quotedBytes text ++ ": value out of range"
  | .tooLarge text => "too large: " ++ text
  | .unknownUnit name => "unhandled size name: " ++ name

/-- The exponents of the units, by the letter that names them. -/
def unitLetters : List (Char × Nat) :=
  [('k', 1), ('m', 2), ('g', 3), ('t', 4), ('p', 5), ('e', 6)]

/-- The bytes of a unit that is written in lower case. -/
def unit? (name : String) : Option Nat :=
  match name.toList with
  | [] | ['b'] => some 1
  | letter :: rest =>
    match unitLetters.lookup letter with
    | none => none
    | some n =>
      if rest = [] || rest = ['b'] then some (Nat.pow 1000 n)
      else if rest = ['i'] || rest = ['i', 'b'] then some (Nat.pow 1024 n)
      else none

/-- Whether a character may stand in the number. -/
def inNumber (c : Char) : Bool := Unicode.isDigit c.toNat || c = '.' || c = ','

/-- The digits of a number: those before and behind a single point. -/
def number? (bs : Bytes) : Option (List Char × List Char) :=
  let cs := bs.map fun b => Char.ofNat b.toNat
  let (whole, rest) := cs.span Char.isDigit
  let fraction : Option (List Char) := match rest with
    | [] => some []
    | '.' :: ds => if ds.all Char.isDigit then some ds else none
    | _ => none
  match fraction with
  | some ds => if whole.isEmpty && ds.isEmpty then none else some (whole, ds)
  | none => none

/-- The number of bytes that a text means.  As many bytes are taken for the number as characters
can stand in one. -/
def parse (text : String) : Except Error Nat := do
  let bytes := Text.bytesOf text
  let count := (text.toList.takeWhile inNumber).length
  let digits := (bytes.take count).filter (· ≠ 0x2c)
  match number? digits with
  | none => throw (.noNumber digits)
  | some (whole, fraction) =>
    let x := Json.nearestFloat false (Json.digitsValue (whole ++ fraction)) (-(fraction.length : Int))
    if x.isInf then throw (.outOfRange digits)
    let name := Unicode.lowerText (Text.trim (Text.textOf (bytes.drop count)))
    match unit? name with
    | none => throw (.unknownUnit name)
    | some u =>
      let size := x * Float.ofNat u
      if size >= Float.ofNat Word.size then throw (.tooLarge text)
      return size.toUInt64.toNat

end RuleScan.Size

/-!
## Settings

The settings of searches and reports.  Each may be set or not; settings are laid over one another,
so that what is set above hides what is set below, and what is set nowhere has a default.
-/

namespace RuleScan

/-- A failure told at a place of a document. -/
def Failure.atPath (f : Failure) (path : Yaml.Path) : Failure :=
  let e : Yaml.Error := { cause := some f.message, path := some path }
  { f with message := e.message, document := some e }

/-- What is set above, or else what is set below. -/
def overlay {α : Type} (below above : Option α) : Option α := above.orElse fun _ => below

/-- How patterns are searched for. -/
structure SearchSettings where
  /-- The command line of a search program; empty for none. -/
  command : Option String := none
  /-- Whether a search that cannot be done fails the evaluation. -/
  strict : Option Bool := none
  deriving Repr, DecidableEq, Inhabited

/-- How files are evaluated. -/
structure EngineSettings where
  concurrency : Option Int := none
  maxFileSize : Option String := none
  suppressionMarker : Option String := none
  timeout : Option String := none
  search : Option SearchSettings := none
  deriving Repr, DecidableEq, Inhabited

/-- How reports are written. -/
structure ReportSettings where
  format : Option String := none
  highlight : Option String := none
  theme : Option String := none
  deriving Repr, DecidableEq, Inhabited

namespace SearchSettings

/-- Search settings over others. -/
def laidOver (above below : SearchSettings) : SearchSettings :=
  { command := overlay below.command above.command
    strict := overlay below.strict above.strict }

/-- The search settings when nothing is set. -/
def defaults : SearchSettings := { command := some "", strict := some false }

end SearchSettings

/-- A part of settings that may be missing on either side, laid over the other. -/
def overPart {α : Type} (lay : α → α → α) (empty : α) (above below : Option α) : Option α :=
  match above with
  | none => below
  | some a => some (lay a (below.getD empty))

/-- What an engine is set up with. -/
inductive Engine.Setting where
  | maxFileSize (n : Int)
  | concurrency (n : Int)
  | marker (text : String)
  | strict (b : Bool)
  | searcher (c : Command)
  deriving Repr, DecidableEq, Inhabited

/-- Sets up an engine.  How many searches run at a time does not change what is found. -/
def Engine.set (e : Engine) : Engine.Setting → Engine
  | .maxFileSize n => { e with maxFileSize := n }
  | .concurrency _ => e
  | .marker text => { e with marker := text }
  | .strict b => { e with strict := b }
  | .searcher c => { e with searcher := Searcher.external c }

namespace EngineSettings

/-- Engine settings over others. -/
def laidOver (above below : EngineSettings) : EngineSettings :=
  { concurrency := overlay below.concurrency above.concurrency
    maxFileSize := overlay below.maxFileSize above.maxFileSize
    suppressionMarker := overlay below.suppressionMarker above.suppressionMarker
    timeout := overlay below.timeout above.timeout
    search := overPart SearchSettings.laidOver {} above.search below.search }

/-- The engine settings when nothing is set. -/
def defaults : EngineSettings :=
  { concurrency := some 0
    maxFileSize := some "1.0 MiB"
    suppressionMarker := some defaultMarker
    timeout := some "0s"
    search := some SearchSettings.defaults }

/-- The settings with the defaults where nothing is set. -/
def withDefaults (s : EngineSettings) : EngineSettings := s.laidOver defaults

/-- The size up to which files are searched.  A size past the range of 64 bits with a sign turns
negative. -/
def fileSize (s : EngineSettings) : Except Failure Int :=
  match s.maxFileSize with
  | none | some "" => .ok defaultMaxSize
  | some text =>
    match Size.parse text with
    | .ok n => .ok (Int.bmod n Word.size)
    | .error e => .error (.plain ("parse max file size: " ++ e.message))

/-- The nanoseconds that an evaluation may take; zero is no limit. -/
def timeLimit (s : EngineSettings) : Except Failure Int :=
  match s.timeout with
  | none | some "" => .ok 0
  | some text => (Duration.parse text).mapError fun e => .plain ("parse timeout: " ++ e.message)

/-- The command line of the search program, if there is one. -/
def searchLine? (s : EngineSettings) : Option String :=
  (s.search.bind SearchSettings.command).filter (· ≠ "")

/-- The first thing that is wrong with the settings. -/
def problem? (s : EngineSettings) : Option Failure :=
  let place := Yaml.Path.root.child "engine"
  let failed {α : Type} (r : Except Failure α) (path : Yaml.Path) : Option Failure :=
    match r with
    | .ok _ => none
    | .error f => some (f.atPath path)
  if s.concurrency.any (· < 0) then
    some ((Failure.plain "concurrency must not be negative").atPath (place.child "concurrency"))
  else
    (failed s.fileSize (place.child "maxFileSize")).orElse fun _ =>
    (failed s.timeLimit (place.child "timeout")).orElse fun _ =>
    match s.searchLine? with
    | none => none
    | some line =>
      failed ((Command.parse [] line).mapError Command.ParseError.failure)
        ((place.child "search").child "command")

/-- What an engine is set up with by these settings. -/
def options (environment : List String) (s : EngineSettings) :
    Except Failure (List Engine.Setting) := do
  let size ← s.fileSize
  let search ← match s.searchLine? with
    | none => pure []
    | some line => do pure [.searcher (← Searcher.ofLine environment line)]
  return [.maxFileSize size] ++ (s.concurrency.map Engine.Setting.concurrency).toList ++
    (s.suppressionMarker.map Engine.Setting.marker).toList ++
    ((s.search.bind SearchSettings.strict).map Engine.Setting.strict).toList ++ search

end EngineSettings

namespace ReportSettings

/-- Report settings over others. -/
def laidOver (above below : ReportSettings) : ReportSettings :=
  { format := overlay below.format above.format
    highlight := overlay below.highlight above.highlight
    theme := overlay below.theme above.theme }

/-- The report settings when nothing is set. -/
def defaults : ReportSettings :=
  { format := some "", highlight := some "monokai", theme := some "auto" }

/-- The settings with the defaults where nothing is set. -/
def withDefaults (s : ReportSettings) : ReportSettings := s.laidOver defaults

/-- What is wrong with the settings. -/
def problem? (s : ReportSettings) : Option Failure :=
  match s.format with
  | none | some "" => none
  | some name =>
    match Format.parse name with
    | .ok _ => none
    | .error f =>
      some ((f.during "invalid report format").atPath
        ((Yaml.Path.root.child "report").child "format"))

end ReportSettings

/-- The configuration of a user. -/
structure UserConfig where
  engine : EngineSettings := EngineSettings.defaults
  report : ReportSettings := ReportSettings.defaults
  deriving Repr, DecidableEq, Inhabited

/-- The configuration of a project. -/
structure ProjectConfig where
  engine : Option EngineSettings := none
  report : Option ReportSettings := none
  /-- The specification document, seen from the configuration file. -/
  spec : String := ""
  /-- Globs of files that are never searched. -/
  exclude : List String := []
  deriving Repr, DecidableEq, Inhabited

/-- What is wrong with parts of a configuration. -/
def settingsProblems (engine : Option EngineSettings) (report : Option ReportSettings) :
    List Failure :=
  ((engine.bind EngineSettings.problem?).map (·.during "validate engine config")).toList ++
    ((report.bind ReportSettings.problem?).map (·.during "validate report config")).toList

/-- All problems as one failure, or the value if there are none. -/
def checked {α : Type} (a : α) : List Failure → Except Failure α
  | [] => .ok a
  | problems => .error (.join problems)

namespace UserConfig

/-- What is wrong with a user's configuration. -/
def problems (c : UserConfig) : List Failure := settingsProblems (some c.engine) (some c.report)

/-- A user's configuration with that of a project over it. -/
def withProject (c : UserConfig) (p : ProjectConfig) : UserConfig :=
  { engine := (p.engine.getD {}).laidOver c.engine
    report := (p.report.getD {}).laidOver c.report }

end UserConfig

namespace ProjectConfig

/-- The exclusions that cannot be read, each with its place. -/
def badExclusions (i : Nat) : List String → List Failure
  | [] => []
  | glob :: rest =>
    match Glob.ofText glob with
    | .ok _ => badExclusions (i + 1) rest
    | .error e =>
      (Failure.plain ("invalid exclude glob " ++ Text.quoted glob ++ ": " ++ e.message)).atPath
        ((Yaml.Path.root.child "exclude").index i) :: badExclusions (i + 1) rest

/-- What is wrong with a project's configuration. -/
def problems (c : ProjectConfig) : List Failure :=
  settingsProblems c.engine c.report ++ badExclusions 0 c.exclude

/-- The path of the specification for a configuration file; empty if none is named. -/
def specPath (c : ProjectConfig) (file : String) : String :=
  if c.spec = "" then ""
  else if Path.isAbs c.spec then c.spec
  else Path.join [Path.dir file, c.spec]

end ProjectConfig

end RuleScan
