import RuleScan.Disk.Basic
import RuleScan.Settings.Document

/-!
# Where configurations are kept

A user's configuration lies in a directory of its own.  A project's configuration is looked for
from the scanned path upward, and never outside the repository that the path is in.  Writing a
default configuration never loses one that is there.
-/

namespace RuleScan

open RuleScan.Text (Bytes)

/-- The values of the variables that are set. -/
abbrev Environment := List (String × String)

namespace Environment

/-- The value of a variable; an empty one counts as not set. -/
def filled? (env : Environment) (name : String) : Option String :=
  (env.lookup name).filter (· ≠ "")

end Environment

namespace ConfigFile

/-- The name of the directory of configurations. -/
def directoryName : String := "guardrail"

/-- The path of a file in the configuration directory of a user. -/
def userPath (env : Environment) (name : String) : String :=
  match env.filled? "XDG_CONFIG_HOME", env.filled? "HOME" with
  | some home, _ => Path.join [home, directoryName, name]
  | none, some home => Path.join [home, ".config", directoryName, name]
  | none, none => Path.join [(env.filled? "TMPDIR").getD "/tmp", directoryName, name]

/-- The path of a user's configuration. -/
def userConfigPath (env : Environment) : String := userPath env "config.yaml"

/-- The names of project configurations, the first one preferred. -/
def projectNames : List String := [".guardrail.yaml", ".guardrail.yml"]

/-- The first of some names that is there in a directory. -/
def findIn (d : Disk) (names : List String) (directory : String) : Option String :=
  (names.map fun name => Path.join [directory, name]).find? d.has

/-- The first file of some names in the first directory that has one; a directory with a
repository is the last that is looked at. -/
def searchUp (d : Disk) (names : List String) : List String → Option String
  | [] => none
  | directory :: above =>
    match findIn d names directory with
    | some path => some path
    | none => if d.has (Path.join [directory, ".git"]) then none else searchUp d names above

/-- Looks for a file of some names from a path upward. -/
def find (d : Disk) (path : String) (names : List String) : Except Failure (Option String) :=
  let full := Path.absolute d.directory path
  match d.stat full with
  | .error f => .error ((f.failure "stat" full).during "stat path")
  | .ok n =>
    let start := if n.isDirectory then full else Path.dir full
    .ok (searchUp d names (Path.upward start))

/-- Looks for the configuration of the project that a path belongs to. -/
def findProject (d : Disk) (path : String) : Except Failure (Option String) :=
  (find d path projectNames).mapError (·.during "find project config")

/-! ## Writing -/

/-- Whether a regular file is there; something else at the path is refused. -/
def regularThere (d : Disk) (path : String) : Except Failure Bool :=
  match d.stat path with
  | .error _ => .ok false
  | .ok (.file _) => .ok true
  | .ok (.directory _) => .error (.plain (path ++ ": path is a directory"))
  | .ok _ => .error (.plain (path ++ ": unknown file state"))

/-- The plan of writing a file together with the directories above it. -/
def writePlan (path : String) (content : Bytes) (activities : List String) : Disk.Plan :=
  [(.makeDirectories (Path.dir path), "create directories" :: activities),
    (.write path content, "write file" :: activities)]

/-- The plan of writing a file unless there is one. -/
def writeNewPlan (d : Disk) (path : String) (content : Bytes) : Except Failure Disk.Plan := do
  if ← regularThere d path then return []
  return writePlan path content []

/-- The name under which an older file is kept. -/
def backupPath (path stamp : String) : String :=
  Path.join [Path.dir path, Path.base path ++ "." ++ stamp ++ ".old"]

/-- The plan of writing a default file.  A file that is there is kept as it is, or by force under
another name. -/
def writeDefaultPlan (d : Disk) (path : String) (content : Bytes) (force : Bool)
    (kind stamp : String) : Except Failure Disk.Plan := do
  let isThere ← regularThere d path
  if isThere && !force then return []
  let backup : Disk.Plan := if isThere then
      [(.rename path (backupPath path stamp), ["rename existing " ++ kind ++ " file to backup"])]
    else []
  return backup ++ writePlan path content ["write " ++ kind ++ " file"]

/-- Carries out a plan if there is one. -/
def carryOut (a : Disk.Accidents) (d : Disk) : Except Failure Disk.Plan → Disk × Option Failure
  | .error f => (d, some f)
  | .ok plan => plan.run a d

/-- Writes a file unless there is one. -/
def writeNew (d : Disk) (path : String) (content : Bytes) : Disk × Option Failure :=
  carryOut .none d (writeNewPlan d path content)

/-- Writes a default file, with accidents; the stamp tells the older file apart. -/
def writeDefaultAmid (a : Disk.Accidents) (d : Disk) (path : String) (content : Bytes) (force : Bool)
    (kind stamp : String) : Disk × Option Failure :=
  carryOut a d (writeDefaultPlan d path content force kind stamp)

/-- Writes a default file. -/
def writeDefault (d : Disk) (path : String) (content : Bytes) (force : Bool)
    (kind stamp : String) : Disk × Option Failure :=
  writeDefaultAmid .none d path content force kind stamp

end ConfigFile

namespace UserConfig

/-- The configuration that a user starts with. -/
def defaultText : String :=
  "# yaml-language-server: $schema=https://raw.githubusercontent.com/macropower/guardrail/main/api/v1beta1/configs/configs.v1beta1.json
apiVersion: guardrail.jacobcolvin.com/v1beta1
kind: Configuration
engine:
  # Maximum concurrent searches. 0 uses the number of CPUs.
  concurrency: 0
  # Files larger than this are skipped.
  maxFileSize: 1.0 MiB
  # Matched lines containing this marker are not reported.
  suppressionMarker: \"guardrail:ignore\"
  # Upper bound for one evaluation. 0s disables the limit.
  timeout: 0s
  search:
    # External ripgrep-compatible command, e.g. \"rg --no-config\".
    # Empty searches files in-process.
    command: \"\"
    # Fail instead of reporting a diagnostic when the search command is unavailable.
    strict: false
report:
  # text, json, or sarif. Empty picks text on a terminal and json otherwise.
  format: \"\"
  # Chroma style for snippet highlighting. Empty disables highlighting.
  highlight: monokai
  # Chroma style that report colors are derived from: auto, dark, light, or a style name.
  theme: auto
"

/-- Writes a user's configuration unless there is one. -/
def writeTo (c : UserConfig) (d : Disk) (path : String) : Disk × Option Failure :=
  let (d, failed) := ConfigFile.writeNew d path (Text.bytesOf c.toYaml)
  (d, failed.map (·.during "write config"))

/-- Writes the configuration that a user starts with. -/
def writeDefaultTo (d : Disk) (path : String) (force : Bool) (stamp : String) :
    Disk × Option Failure :=
  let (d, failed) :=
    ConfigFile.writeDefault d path (Text.bytesOf defaultText) force "configuration" stamp
  (d, failed.map (·.during "write default config"))

end UserConfig

end RuleScan
