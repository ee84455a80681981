import RuleScan.Profile.Basic
import RuleScan.Profile.Schema
import RuleScan.Rule.Document
import RuleScan.Schema.Validate
import RuleScan.Yaml.Write

/-!
# Profiles in documents

How profiles and single rules are loaded: a document is checked against the schema, read, completed
with defaults, and then checked for what a schema cannot say.  What goes wrong on the way is told as
trouble with the profile, either with its text or with its content.
-/

namespace RuleScan

open RuleScan.Yaml (Node Reading)

namespace Profile

/-- The character that a number stands for as a key. -/
def keyChar (k : Int) : Char :=
  if 0 ≤ k && k.toNat.isValidChar then Char.ofNat k.toNat else Char.ofNat Text.replacement

/-- The key of the metadata that a written key stands for: a number stands for the character with
that code. -/
def metadataKey (key : Node) : Reading String := do
  let refuse (kind : String) : Reading String :=
    Reading.refuse key.token ("cannot convert \"" ++ kind ++ "\" type to \"string\" type")
  match ← Reading.value key with
  | .string s => pure s
  | .bytes b | .binary b => pure (Text.textOf b)
  | .null => pure ""
  | .int k => pure (String.ofList [keyChar k])
  | .float _ => refuse "float64"
  | .bool _ => refuse "bool"
  | .moment _ => refuse "struct"
  | .array _ => refuse "slice"
  | .object _ => refuse "map"

/-- Reads the entries of the metadata one after the other; those of a map that is merged in take
the place of earlier ones, and a key may be written only once.  `fuel` bounds how deep maps are
merged in. -/
def metadataEntries (fuel : Nat) (entries : List (Node × Node)) (seen : List String)
    (done : List (String × Json)) : Reading (List (String × Json)) := do
  match fuel, entries with
  | 0, _ | _, [] => pure done
  | fuel + 1, (key, v) :: rest =>
    if ← Reading.isMergeKey key then
      let merged ← metadataEntries fuel (← Reading.entries true v) [] []
      metadataEntries fuel rest seen
        (merged.foldl (fun done (name, v) => Json.setField done name v) done)
    else
      let name ← metadataKey key
      Reading.checkNew seen name key
      metadataEntries fuel rest (name :: seen) (Json.setField done name (← Reading.value v))

/-- The metadata of a profile. -/
def readMetadata (n : Node) : Reading (List (String × Json)) := fun s =>
  (do metadataEntries (Yaml.depthOf s.tokens) (← Reading.entries false n) [] [] :
    Reading (List (String × Json))) s

/-- A profile as it is written; the name may stand under an older key. -/
def read (n : Node) : Reading Profile := do
  let fs ← Reading.fields n
  let text (name key : String) : Reading String :=
    Reading.field fs "document" name key "" (Reading.text "string")
  let metadata ← Reading.field fs "document" "Metadata" "metadata" [] readMetadata
  let name ← text "Name" "name"
  let older ← text "RefactorName" "refactor_name"
  let description ← text "Description" "description"
  let version ← text "Version" "version"
  let rules ← Reading.field fs "document" "Rules" "rules" []
    (Reading.list default Rule.read)
  return { metadata, name := if name = "" then older else name, description, version, rules }

/-- The metadata as a value; it is left out if it is empty. -/
def metadataField? (metadata : List (String × Json)) : Option Json :=
  if metadata.isEmpty then none else some (Yaml.sorted (.object metadata))

/-- A draft as a value. -/
def Draft.toJson (d : Draft) : Json :=
  let rule : Option Rule → Json
    | some r => r.toJson
    | none => .null
  .ofFields [("metadata", metadataField? d.metadata), ("name", some (.string d.name)),
    ("description", textField? d.description), ("version", textField? d.version),
    ("rules", some (.array (d.rules.map rule)))]

/-- A profile as a value. -/
def toJson (p : Profile) : Json := p.draft.toJson

/-- A profile as a document. -/
def toYaml (p : Profile) : String := Yaml.write p.toJson

/-- The words that start an error about a profile. -/
def errorFront (what source : String) : String := if source = "" then what else what ++ " " ++ source

/-- The failure of a document that cannot be read, perhaps at a place. -/
def unreadableFailure (source message : String) (e : Option Yaml.Error) : Failure :=
  let (line, column) := (e.map Yaml.Error.position).getD (0, 0)
  let place := if line > 0 then " at line " ++ toString line ++ ", column " ++ toString column else ""
  let cause := match e with
    | some e => e.cause.getD ""
    | none => message
  { message := errorFront "parse profile" source ++ place ++ ": " ++ cause
    causes := [.unreadableProfile]
    profile := some (.unreadable line column source ((e.map Yaml.Error.message).getD "")) }

/-- The failure of a document with errors. -/
def invalidFailure (source : String) (errors : List String) : Failure :=
  let body := match errors with
    | [e] => ": " ++ e
    | _ => ": " ++ toString errors.length ++ " errors:\n  - " ++ "\n  - ".intercalate errors
  { message := errorFront "invalid profile" source ++ body
    causes := [.invalidProfile]
    profile := some (.invalid source errors) }

/-- Tells a failure of loading as trouble with the profile. -/
def convert (source : String) (f : Failure) : Failure :=
  if f.has .parse then unreadableFailure source f.message f.document
  else if f.has .schema then
    let details := (f.document.map Yaml.Error.details).getD []
    invalidFailure source (if details.isEmpty then [f.message] else details)
  else f

/-- The validator of profile documents. -/
def validator : Schema.Validator := .of Schema.profileSchema ""

/-- The validator of single rules. -/
def ruleValidator : Schema.Validator :=
  .of Schema.profileSchema "/$defs/Rule"

/-- Loads a profile from the text of a document; the source names the document in errors. -/
def load (text source : String) : Except Failure Profile := do
  (Document.check validator text).mapError (convert source)
  let p ← (Document.read text default read).mapError (convert source)
  let p := p.withDefaults
  match p.problems with
  | [] => return p
  | problems => throw (invalidFailure source (problems.map Draft.Problem.message))

/-- Loads a rule from a plain value, as it stands in a list of rules. -/
def parseRule (v : Json) : Except Failure Rule := do
  (ruleValidator.validate v).mapError fun e =>
    convert "" ((Failure.ofDocument e).under .schema "schema")
  let r ← match Yaml.readDocument (Yaml.write (Yaml.sorted v)) Rule.read with
    | .ok r => pure r
    | .error .empty => pure default
    | .error e => throw (convert "" ((Failure.ofRead e).under .parse "parse"))
  let r := r.withDefaults
  match r.problems with
  | [] => return r
  | problems => throw (invalidFailure r.id (problems.map Rule.Problem.message))

end Profile

end RuleScan
