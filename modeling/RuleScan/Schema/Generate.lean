import RuleScan.Disk.Basic
import RuleScan.Json.Write
import RuleScan.Profile.Schema
import RuleScan.Schema.Source.Notes
import RuleScan.Settings.Schema

/-!
# Generating schemas

The schema of a record, with what the comments in its source files say about it.  The files are
those of packages of one module, which is found from the working directory upward.
-/

namespace RuleScan.Schema

/-- What a schema can be generated for. -/
inductive Subject where
  | profile
  | config
  | project
  | rule
  | pattern
  | patternSpec
  | scope
  | engineConfig
  | reportConfig
  deriving Repr, DecidableEq, Inhabited

namespace Subject

/-- The subjects by name. -/
def names : List (String × Subject) :=
  [("profile", .profile), ("config", .config), ("project", .project), ("rule", .rule),
    ("pattern", .pattern), ("patternSpec", .patternSpec), ("scope", .scope),
    ("engineConfig", .engineConfig), ("reportConfig", .reportConfig)]

/-- The record of a subject. -/
def record : Subject → Record
  | .profile => profileRecord
  | .config => configRecord
  | .project => projectRecord
  | .rule => ruleRecord
  | .pattern => patternRecord
  | .patternSpec => patternSpecRecord
  | .scope => scopeRecord
  | .engineConfig => engineRecord
  | .reportConfig => reportRecord

end Subject

/-! ## Modules and packages -/

/-- A module: where it is and what the paths of its packages start with. -/
structure Module where
  directory : String
  path : String
  deriving Repr, DecidableEq, Inhabited

/-- The file that names a module. -/
def moduleFile : String := "go.mod"

/-- The path of a module in the file that names it; empty if it does not. -/
def modulePath (content : String) : String :=
  let named (line : String) : Option String :=
    (Text.stripFront? "module " (Text.trim line)).map fun rest =>
      String.ofList (Text.trimWhile (· = '"') (Text.trim rest).toList)
  ((Text.splitLines content).findSome? named).getD ""

/-- Looks for a module in directories, one after the other. -/
def findModule (d : Disk) : List String → Except Failure Module
  | [] => .error (.plain "go.mod not found")
  | directory :: above =>
    let file := Path.join [directory, moduleFile]
    match d.stat file with
    | .error _ => findModule d above
    | .ok n =>
      let content := match n with
        | .file bytes => Text.textOf bytes
        | _ => ""
      match modulePath content with
      | "" => .error (.plain (file ++ ": no module directive"))
      | path => .ok { directory, path }

/-- The notes in one directory: those of its source files, in the order of their names. -/
def directoryNotes (d : Disk) (directory : String) (n : Disk.Node) : Except Failure Source.Notes := do
  let files := n.entries.filter fun (name, n) =>
    !n.isDirectory && (Text.stripEnd? ".go" name).isSome
  let notes ← files.mapM fun (name, _) => do
    let file := Path.join [directory, name]
    let content ← d.read file
    (Source.notesOf file content).mapError Failure.plain
  return notes.flatten

/-- The notes in a directory and those below, each with the path from `home` on before its name. -/
def treeNotes (d : Disk) (home directory : String) : Except Failure Source.Notes := do
  match d.lstat directory with
  | .error f => throw (f.failure "lstat" directory)
  | .ok n =>
    let below := (Disk.visits (fun _ => true) [] n).filter (·.node.isDirectory)
    let own : List Disk.Visit := if n.isDirectory then [⟨[], n⟩] else []
    let notes ← (own ++ below).mapM fun v => do
      let found ← directoryNotes d (Path.join (directory :: v.path)) v.node
      let front := String.join (home :: v.path.map ("/" ++ ·))
      return found.map fun (name, text) => (front ++ "." ++ name, text)
    return notes.flatten

/-- The notes of a package of a module. -/
def packageNotes (d : Disk) (m : Module) (package : String) : Except Failure Source.Notes :=
  match Text.stripFront? m.path package with
  | none =>
    .error (.plain ("package " ++ Text.quoted package ++ " is outside module " ++
      Text.quoted m.path))
  | some rest =>
    (treeNotes d package (Path.join [m.directory, rest])).mapError
      (·.during ("read comments of " ++ package))

/-- The notes of some packages. -/
def notesOf (d : Disk) (packages : List String) : Except Failure Source.Notes := do
  if packages.isEmpty then return []
  let m ← findModule d (Path.upward d.directory)
  return (← packages.mapM (packageNotes d m)).flatten

/-! ## Schemas -/

/-- How generated schemas are written.  Of several notes on one thing the last counts. -/
def generated (notes : Source.Notes) : Style :=
  let order := ["$schema", "$id", "$ref", "$defs", "anyOf", "oneOf", "items", "properties",
    "additionalProperties", "type", "enum", "const", "minimum", "minLength", "pattern",
    "minItems", "required", "title", "description", "default", "deprecated"]
  let note (name : String) : String := (notes.reverse.lookup name).getD ""
  { order
    topOrder := order
    recordNote := fun r => note r.source
    propertyNote := fun p => note p.source
    listsRequired := false }

/-- All records that others mention. -/
def allRecords : List Record := profileRecords ++ settingsRecords

/-- The text of the schema for a subject, with the notes of some packages. -/
def generate (d : Disk) (subject : Subject) (id : String) (packages : List String) :
    Except Failure String :=
  (notesOf d packages).map fun notes =>
    Json.pretty (document (generated notes) allRecords id subject.record) ++ "\n"

end RuleScan.Schema
