import RuleScan.Failure
import RuleScan.Schema.Check
import RuleScan.Yaml.Record

/-!
# Schemas that are ready for use

A document is first taken as a schema or refused; a schema that was taken tells of values what is
wrong with them, and other documents are checked against it before they are read.
-/

/-!
## Which documents are schemas

A document is taken as a schema if the schema of its draft allows it and if everything that can be
reached from the place where checking starts is in order: references lead somewhere and expressions
are understood.  A place that no keyword leads to is looked through when a reference leads to it.
-/

namespace RuleScan.Schema

/-- Puts an empty object in the place of what some steps lead to. -/
def blank : Json → List String → Json
  | _, [] => .object []
  | .object fields, s :: rest =>
    .object (fields.map fun (name, v) => if name = s then (name, blank v rest) else (name, v))
  | .array elements, s :: rest =>
    .array (elements.zipIdx.map fun (v, i) => if toString i = s then blank v rest else v)
  | v, _ => v
termination_by _ steps => steps.length

/-- Whether the value at a place is a schema of the draft of the place, leaving out the resources
in it, which may be of other drafts. -/
def Library.allows (lib : Library) (pointer : List String) : Bool :=
  let s := lib.sheet
  let inside := s.resources.filter fun r => r.pointer ≠ pointer && pointer.isPrefixOf r.pointer
  match follow? s.value pointer, lib.node? ⟨(s.home pointer).draft.address, []⟩ with
  | some v, some described =>
    let v := inside.foldl (fun v r => blank v (r.pointer.drop pointer.length)) v
    (lib.problems described v).isEmpty
  | _, _ => false

/-- Whether the value at a place and the resources in it are schemas. -/
def Library.allowsAll (lib : Library) (pointer : List String) : Bool :=
  lib.allows pointer && lib.sheet.resources.all fun r =>
    r.pointer = pointer || !pointer.isPrefixOf r.pointer || lib.allows r.pointer

/-- Looks through a place that no keyword led to. -/
def Library.enter? (lib : Library) (pointer : List String) : Option Library :=
  let s := lib.sheet
  if s.seen.contains pointer then some lib
  else do
    let v ← follow? s.value pointer
    let home := s.home pointer
    let s ← s.collect? (depth v) v home.address pointer home.draft
    let lib : Library := ⟨s⟩
    if lib.allowsAll pointer then some lib else none

/-- Whether an expression is understood. -/
def isPattern (s : String) : Bool := (Regex.parse s).isOk

/-- The keywords that hold one schema; for some of them a truth value is none. -/
def singleKeywords : List (String × Bool) :=
  [("not", true), ("additionalProperties", false), ("contains", true), ("propertyNames", true),
    ("if", true), ("unevaluatedItems", true), ("unevaluatedProperties", true)]

/-- The places that a schema leads to, none if a reference of it leads nowhere or an expression in
it is not understood. -/
def Node.next? (lib : Library) (n : Node) : Option (List Place) := do
  let s ← lib.sheet? n.place.address
  let home := s.home n.place.pointer
  let below (steps : List String) : Place := ⟨n.place.address, n.place.pointer ++ steps⟩
  let single (keyword : String) (schema : Bool) : List Place :=
    match n.get? keyword with
    | none => []
    | some (.bool _) => if schema then [below [keyword]] else []
    | some _ => [below [keyword]]
  let listed (keyword : String) : List Place :=
    (List.range (((n.get? keyword).map Json.elements).getD []).length).map fun i =>
      below [keyword, toString i]
  let named (keyword : String) : List (Place × Json) :=
    (((n.get? keyword).map Json.fields).getD []).map fun (name, v) => (below [keyword, name], v)
  let references ← ["$ref", "$recursiveRef", "$dynamicRef"].filterMapM fun keyword =>
    match n.text? keyword with
    | none => some none
    | some r => (lib.reference? n.place r).map some
  let patterns := (((n.get? "patternProperties").map Json.fields).getD []).map (·.1) ++
    (n.text? "pattern").toList
  if !patterns.all isPattern then none
  let items := match decide (n.draft.age < 2020), n.get? "items" with
    | true, some (.array _) => listed "items" ++ single "additionalItems" false
    | _, _ => single "items" true
  let branches := match n.get? "if" with
    | none => []
    | some (.bool b) => single (if b then "then" else "else") true
    | some _ => single "then" true ++ single "else" true
  let movable := if n.place.pointer = home.pointer && 2020 ≤ n.draft.age then
      home.movable.filterMap fun a => (home.anchors.lookup a).map (⟨n.place.address, ·⟩)
    else []
  return [⟨n.place.address, home.pointer⟩] ++ movable ++ references ++
    singleKeywords.flatMap (fun (k, schema) => single k schema) ++
    ["allOf", "anyOf", "oneOf", "prefixItems"].flatMap listed ++ items ++ branches ++
    (named "properties" ++ named "patternProperties" ++ named "dependentSchemas").map (·.1) ++
    (named "dependencies").filterMap fun (p, v) =>
      match v with
      | .array _ => none
      | _ => some p

/-- Visits all places that can be reached; `fuel` bounds their number. -/
def Library.visit? (fuel : Nat) (lib : Library) (done queue : List Place) : Option Library :=
  match fuel, queue with
  | 0, _ => none
  | _, [] => some lib
  | fuel + 1, p :: queue =>
    if done.contains p then lib.visit? fuel done queue
    else if p.address = lib.sheet.address then do
      let lib ← lib.enter? p.pointer
      let next ← (← lib.node? p).next? lib
      lib.visit? fuel (p :: done) (queue ++ next)
    else match (lib.node? p).map Node.value with
      | some (.bool _) | some (.object _) => lib.visit? fuel (p :: done) queue
      | _ => none

end RuleScan.Schema

/-!
## Validators

A validator is a schema that is ready for use.  Of the problems of a value it tells all, and it
points at the place that is described most exactly.
-/

namespace RuleScan.Schema

/-- A schema in the document that its references are seen from. -/
structure Validator where
  library : Library
  node : Node
  deriving Inhabited

/-- Why a text is no schema. -/
inductive BadSchema where
  | notJson
  | notCompiled
  deriving Repr, DecidableEq, Inhabited

mutual

/-- A value as a schema has it: numbers are doubles, and of fields with the same name the last one
counts.  None if a number is too large. -/
def settled? : Json → Option Json
  | .int n => settledFloat? (Float.ofInt n)
  | .float x => settledFloat? x
  | .array elements => (settledAll? elements).map .array
  | .object fields => (settledFields? fields).map .object
  | v => some v

/-- A double that is finite. -/
def settledFloat? (x : Float) : Option Json := if x.isFinite then some (.float x) else none

/-- Values as a schema has them. -/
def settledAll? : List Json → Option (List Json)
  | [] => some []
  | v :: rest => do return (← settled? v) :: (← settledAll? rest)

/-- Fields as a schema has them. -/
def settledFields? : List (String × Json) → Option (List (String × Json))
  | [] => some []
  | (name, v) :: rest => do
    let v ← settled? v
    let rest ← settledFields? rest
    return if rest.any (·.1 = name) then rest else (name, v) :: rest

end

namespace Validator

/-- The address of a schema document. -/
def home : String := "file:///schema.json"

/-- The validator for the part of a schema document that a pointer leads to, for schemas that are
known to be in order. -/
def of (schema : Json) (pointer : String) : Validator :=
  let lib : Library := ⟨(Sheet.make? home schema).getD default⟩
  ⟨lib, (((lib.sheet.resolve? pointer).bind lib.node?).getD default)⟩

/-- The validator for the part of a schema document that a pointer leads to. -/
def make? (schema : Json) (pointer : String) : Option Validator := do
  let lib : Library := ⟨← Sheet.make? home schema⟩
  if !lib.allowsAll [] then none
  let start ← lib.sheet.resolve? (← Address.decoded? pointer)
  let lib ← lib.visit? (4 * (extent schema + 2) * (extent schema + 2)) [] [start]
  return ⟨lib, ← lib.node? start⟩

/-- Reads a validator from the text of a schema document. -/
def read (text pointer : String) : Except BadSchema Validator :=
  match (Json.parse text).bind settled? with
  | none => .error .notJson
  | some schema =>
    match make? schema pointer with
    | some val => .ok val
    | none => .error .notCompiled

/-- The tree of violations of a value. -/
def violation? (val : Validator) (v : Json) : Option Violation :=
  match val.library.problems val.node v with
  | [] => none
  | causes => some (.node [] "" causes)

/-- Checks a value; the error points at the most exactly described place and tells of the first
problem. -/
def validate (val : Validator) (v : Json) : Except Yaml.Error Unit :=
  match val.violation? v with
  | none => .ok ()
  | some e =>
    let details := e.listing
    .error
      { cause := some (details.head?.getD "")
        path := some (Yaml.Path.ofLocation e.deepest)
        details }

end Validator

end RuleScan.Schema

/-!
## Checked documents

A document is first checked against a schema as a plain value and only then read into a record, so
that what is wrong with its shape is told in the words of the schema.  Every error carries the text
of the document and shows the lines around its place.
-/

namespace RuleScan.Document

open RuleScan.Yaml (Node Reading)

/-- The failure of a document that cannot be read. -/
def unreadable (source : String) (e : Yaml.ReadError) : Failure :=
  (Failure.ofRead (e.within source)).under .parse "parse"

/-- An error in a document that does not fit its schema. -/
def unfit (source : String) (e : Yaml.Error) : Failure :=
  (Failure.ofDocument (e.within source)).under .schema "schema"

/-- The plain value of a document; an empty one is null. -/
def value (source : String) : Except Failure Json :=
  match Yaml.read source with
  | .ok v => .ok v
  | .error .empty => .ok .null
  | .error e => .error (unreadable source e)

/-- Checks that a document can be read and fits a schema. -/
def check (validator : Schema.Validator) (source : String) : Except Failure Unit := do
  (validator.validate (← value source)).mapError (unfit source)

/-- Reads a document; an empty one gives the default. -/
def read {α : Type} (source : String) (default : α) (read : Node → Reading α) :
    Except Failure α :=
  match Yaml.readDocument source read with
  | .ok a => .ok a
  | .error .empty => .ok default
  | .error e => .error (unreadable source e)

end RuleScan.Document
