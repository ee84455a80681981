import RuleScan.Json.Basic

/-!
# Records and the schemas that describe them

A record is described once, by its properties: the key in documents, what kind of value it takes,
and the limits on the value.  From the description comes a JSON schema.  The schema of a record
stands at the top of the document, and those of the records it mentions stand under `$defs`.
-/

namespace RuleScan.Schema

/-- What values a property takes. -/
inductive Kind where
  | text
  | whole
  | flag
  | mapping
  | texts
  /-- A record with that name. -/
  | record (name : String)
  /-- A list of records with that name. -/
  | records (name : String)
  deriving Repr, DecidableEq, Inhabited

/-- A property of a record. -/
structure Property where
  key : String
  title : String
  kind : Kind := .text
  /-- The field that the property describes: the full name of its type and its own name. -/
  source : String := ""
  /-- Limits on the value. -/
  limits : List (String × Json) := []
  /-- What the published schema says about the property. -/
  note : String := ""
  /-- Whether the note belongs to the property itself, wherever it is described. -/
  pinned : Bool := false
  deprecated : Bool := false
  /-- The only texts that are allowed, if there are such. -/
  allowed : List String := []
  deriving Inhabited

/-- A record. -/
structure Record where
  /-- The name under `$defs`. -/
  name : String
  /-- The full name of its type. -/
  source : String
  properties : List Property
  /-- What the published schema says about the record. -/
  note : String := ""
  /-- Whether other properties are refused. -/
  closed : Bool := true
  /-- The properties that have to be there. -/
  required : List String := []
  /-- Whether these are listed in every schema, and not only in the published one. -/
  insists : Bool := false
  /-- Groups of properties of which one has to be there. -/
  alternatives : List (List String) := []
  deriving Inhabited

/-- The reference to a record. -/
def reference (name : String) : Json := .object [("$ref", .string ("#/$defs/" ++ name))]

/-- The part of a schema that says what kind of value is wanted. -/
def Kind.fields : Kind → List (String × Json)
  | .text => [("type", .string "string")]
  | .whole => [("type", .string "integer")]
  | .flag => [("type", .string "boolean")]
  | .mapping => [("type", .string "object")]
  | .texts => [("items", .object [("type", .string "string")]), ("type", .string "array")]
  | .record name => [("$ref", .string ("#/$defs/" ++ name))]
  | .records name => [("items", reference name), ("type", .string "array")]

/-- A field that is left out if the text is empty. -/
def noteField (key text : String) : List (String × Json) :=
  if text = "" then [] else [(key, .string text)]

/-- The choice among fixed texts. -/
def Property.choice (p : Property) : List (String × Json) :=
  if p.allowed.isEmpty then []
  else [("oneOf", .array (p.allowed.map fun v =>
    .object [("type", .string "string"), ("const", .string v), ("title", .string p.title)]))]

/-- The keys of a schema in the order in which they are written. -/
abbrev KeyOrder := List String

/-- Puts fields into an order; keys that it does not name come last. -/
def arrange (order : KeyOrder) (fields : List (String × Json)) : List (String × Json) :=
  (order.flatMap fun k => fields.filter (·.1 = k)) ++ fields.filter fun f => !order.contains f.1

/-- The schema of a property, with what is said about it. -/
def Property.schema (order : KeyOrder) (p : Property) (note : String) : Json :=
  .object (arrange order (p.kind.fields ++ p.limits ++ [("title", .string p.title)] ++
    noteField "description" note ++ (if p.deprecated then [("deprecated", .bool true)] else []) ++
    p.choice))

/-- How the schemas of a document are written: the order of keys, what is said about a record and
about a property, and whether the properties that have to be there are listed. -/
structure Style where
  order : KeyOrder
  /-- The order of the keys at the top. -/
  topOrder : KeyOrder
  recordNote : Record → String
  propertyNote : Property → String
  /-- Whether all records list what has to be there. -/
  listsRequired : Bool

/-- The fields of the schema of a record. -/
def Record.fields (s : Style) (r : Record) : List (String × Json) :=
  let property (p : Property) : String × Json :=
    (p.key, p.schema s.order (if p.pinned then p.note else s.propertyNote p))
  let required := if r.insists || s.listsRequired then r.required else []
  [("properties", .object (r.properties.map property))] ++
    (if r.closed then [("additionalProperties", .bool false)] else []) ++
    [("type", .string "object")] ++ noteField "description" (s.recordNote r) ++
    (if r.alternatives.isEmpty then []
      else [("anyOf", .array (r.alternatives.map fun keys =>
        .object [("required", Json.strings keys)]))]) ++
    (if required.isEmpty then [] else [("required", Json.strings required)])

/-- The record that a kind mentions. -/
def Kind.mentioned? : Kind → Option String
  | .record name | .records name => some name
  | _ => none

/-- The records that a record needs, directly or through others. -/
def needed (known : List Record) (fuel : Nat) (r : Record) : List String :=
  match fuel with
  | 0 => []
  | fuel + 1 =>
    r.properties.flatMap fun p =>
      match p.kind.mentioned? with
      | none => []
      | some name =>
        match known.find? (·.name = name) with
        | none => []
        | some m => name :: needed known fuel m

/-- The schema document of a record. -/
def document (s : Style) (known : List Record) (id : String) (r : Record) : Json :=
  let names := needed known known.length r
  let used := (known.filter fun m => names.contains m.name).mergeSort
    fun a b => a.name ≤ b.name
  let defs := used.map fun m => (m.name, Json.object (arrange s.order (m.fields s)))
  .object (arrange s.topOrder
    ([("$schema", .string "https://json-schema.org/draft/2020-12/schema")] ++
      noteField "$id" id ++
      (if defs.isEmpty then [] else [("$defs", .object defs)]) ++ r.fields s))

/-- How published schemas are written. -/
def published : Style :=
  { order := ["$ref", "items", "properties", "additionalProperties", "type", "enum", "const",
      "minimum", "minLength", "pattern", "minItems", "required", "title", "description",
      "default", "deprecated", "oneOf"]
    topOrder := ["$schema", "$id", "$defs", "properties", "additionalProperties", "type",
      "description", "anyOf", "required"]
    recordNote := Record.note
    propertyNote := Property.note
    listsRequired := true }

end RuleScan.Schema
