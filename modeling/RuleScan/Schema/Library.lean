import RuleScan.Schema.Meta

/-!
# Schemas that can be reached

A library is a schema document together with the documents of the language itself.  Its nodes are
the schemas at places of these documents; a keyword of a node counts only if the draft of the node
knows it.
-/

namespace RuleScan.Schema

/-- A schema document, from which the documents of the language can be reached as well. -/
structure Library where
  sheet : Sheet
  deriving Inhabited

/-- A schema at a place. -/
structure Node where
  place : Place
  value : Json
  draft : Draft
  deriving Inhabited

namespace Library

/-- The document at an address. -/
def sheet? (lib : Library) (address : String) : Option Sheet :=
  if address = lib.sheet.address then some lib.sheet else Meta.sheet? address

/-- The schema at a place. -/
def node? (lib : Library) (p : Place) : Option Node := do
  let s ← lib.sheet? p.address
  let value ← follow? s.value p.pointer
  return ⟨p, value, (s.home p.pointer).draft⟩

/-- The resource that a place belongs to. -/
def home? (lib : Library) (p : Place) : Option Resource :=
  (lib.sheet? p.address).map (·.home p.pointer)

/-- The place that a reference leads to from a place. -/
def reference? (lib : Library) (p : Place) (reference : String) : Option Place := do
  let s ← lib.sheet? p.address
  let (address, fragment) ← Address.join? (s.home p.pointer).address reference
  if address = s.address then s.resolve? fragment
  else match s.byAddress? address with
    | some r => s.inResource? fragment r
    | none => (← lib.sheet? address).resolve? fragment

end Library

namespace Node

/-- Whether a schema is nothing but a reference, as in older drafts one with a reference is. -/
def isReference (n : Node) : Bool :=
  n.draft.age < 2019 && match n.value.field? "$ref" with
    | some (.string _) => true
    | _ => false

/-- The value of a keyword that the draft of the schema knows. -/
def get? (n : Node) (keyword : String) : Option Json :=
  let first := Draft.since keyword
  if n.draft.age < first || (n.isReference && first = 4 && keyword ≠ "$ref") then none
  else n.value.field? keyword

/-- Whether a keyword is switched on. -/
def isOn (n : Node) (keyword : String) : Bool :=
  match n.get? keyword with
  | some (.bool b) => b
  | _ => false

/-- The text of a keyword. -/
def text? (n : Node) (keyword : String) : Option String :=
  match n.get? keyword with
  | some (.string s) => some s
  | _ => none

/-- The texts of a keyword. -/
def texts (n : Node) (keyword : String) : List String :=
  (((n.get? keyword).map Json.elements).getD []).filterMap Json.text?

/-- The schema some steps below. -/
def step? (lib : Library) (n : Node) (steps : List String) : Option Node :=
  lib.node? ⟨n.place.address, n.place.pointer ++ steps⟩

/-- The schema that is the value of a keyword. -/
def child? (lib : Library) (n : Node) (keyword : String) : Option Node :=
  (n.get? keyword).bind fun _ => n.step? lib [keyword]

/-- The schemas in the list that is the value of a keyword. -/
def children (lib : Library) (n : Node) (keyword : String) : List Node :=
  match n.get? keyword with
  | some (.array elements) =>
    (List.range elements.length).filterMap fun i => n.step? lib [keyword, toString i]
  | _ => []

/-- The schemas in the object that is the value of a keyword, with their names. -/
def named (lib : Library) (n : Node) (keyword : String) : List (String × Node) :=
  match n.get? keyword with
  | some (.object fields) =>
    fields.filterMap fun (name, _) => (n.step? lib [keyword, name]).map (name, ·)
  | _ => []

/-- The schema that the reference of a keyword leads to. -/
def target? (lib : Library) (n : Node) (keyword : String) : Option Node :=
  (n.text? keyword).bind fun r => (lib.reference? n.place r).bind lib.node?

end Node

end RuleScan.Schema
