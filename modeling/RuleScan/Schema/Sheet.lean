import RuleScan.Address.Basic
import RuleScan.Schema.Draft

/-!
# Schema documents and the places in them

A schema document is a value at an address.  A schema in it may have an address of its own; such a
schema is a resource, and what stands below it is seen from there.  A resource may also give names
to places in it.  References are resolved against the address of the resource they stand in: they
lead to a resource of the same document, or to another document.
-/

namespace RuleScan.Schema

/-- A part of a document with an address of its own. -/
structure Resource where
  pointer : List String
  address : String
  draft : Draft
  /-- Named places. -/
  anchors : List (String × List String) := []
  /-- Which of the names are looked up again where the schema is used. -/
  movable : List String := []
  deriving Repr, DecidableEq, Inhabited

/-- A schema document. -/
structure Sheet where
  address : String
  value : Json
  resources : List Resource := []
  /-- The places that were looked through for resources. -/
  seen : List (List String) := []
  deriving Inhabited

/-- A place in a document. -/
structure Place where
  address : String
  pointer : List String
  deriving Repr, DecidableEq, Inhabited

/-- A step of a pointer as it is written. -/
def escapeStep (s : String) : String := (s.replace "~" "~0").replace "/" "~1"

/-- A step of a pointer as it is read: a tilde has a zero or a one behind it. -/
def unescapeStep? : List Char → Option (List Char)
  | '~' :: '0' :: rest => (unescapeStep? rest).map ('~' :: ·)
  | '~' :: '1' :: rest => (unescapeStep? rest).map ('/' :: ·)
  | '~' :: _ => none
  | c :: rest => (unescapeStep? rest).map (c :: ·)
  | [] => some []

/-- The steps of a written pointer. -/
def steps? (pointer : String) : Option (List String) :=
  match Text.split "/" pointer with
  | "" :: parts => parts.mapM fun p => (unescapeStep? p.toList).map String.ofList
  | _ => none

/-- The text of a place: the address of the document and the way into it. -/
def Place.text (p : Place) : String :=
  let part (s : String) : String :=
    Address.escapeBytes (fun c => Address.isUnreserved c || "$&+:=@".toList.contains c)
      (Text.bytesOf (escapeStep s))
  p.address ++ "#" ++ String.join (p.pointer.map fun s => "/" ++ part s)

/-- The place of an element, from a step of a pointer. -/
def index? (s : String) : Option Nat :=
  let digits := match s.toList with
    | '+' :: rest => rest
    | cs => cs
  if digits.isEmpty || !digits.all Char.isDigit then none
  else some (digits.foldl (fun n d => n * 10 + (d.toNat - 48)) 0)

/-- Follows steps into a value. -/
def follow? (v : Json) : List String → Option Json
  | [] => some v
  | s :: rest =>
    match v with
    | .object _ => (v.field? s).bind (follow? · rest)
    | .array elements => (index? s).bind fun i => (elements[i]?).bind (follow? · rest)
    | _ => none

/-- The address that a schema gives itself, without a fragment.  In older drafts a reference hides
it. -/
def Draft.idOf (d : Draft) (v : Json) : String :=
  if d.age < 2019 && (v.field? "$ref").isSome then ""
  else match v.field? d.idKeyword with
    | some (.string id) => (Address.cutFragment id).1
    | _ => ""

/-- The draft that a schema says it is written in, or else the given one; none if it is not
known. -/
def draftOf? (v : Json) (given : Draft) : Option Draft :=
  match v.field? "$schema" with
  | some (.string s) => Draft.ofAddress? s
  | _ => some given

/-- The names that a schema gives to its place, and whether each is movable. -/
def anchorsOf? (d : Draft) (v : Json) : Option (List (String × Bool)) :=
  let named (keyword : String) (movable : Bool) : List (String × Bool) :=
    match v.field? keyword with
    | some (.string s) => [(s, movable)]
    | _ => []
  if d.age < 2019 then
    if (v.field? "$ref").isSome then some []
    else match v.field? d.idKeyword with
      | some (.string id) =>
        (Address.decoded? (Address.cutFragment id).2).map fun f =>
          if f = "" || f.toList.head? = some '/' then [] else [(f, false)]
      | _ => some []
  else some (named "$anchor" false ++ if d.age < 2020 then [] else named "$dynamicAnchor" true)

/-- Gives a name to a place of a resource; none if another place has it. -/
def Resource.name? (r : Resource) (pointer : List String) (anchor : String × Bool) :
    Option Resource :=
  let movable := if anchor.2 then r.movable ++ [anchor.1] else r.movable
  match r.anchors.lookup anchor.1 with
  | some p => if p = pointer then some { r with movable } else none
  | none => some { r with anchors := r.anchors ++ [(anchor.1, pointer)], movable }

namespace Sheet

/-- The resource with an address. -/
def byAddress? (s : Sheet) (address : String) : Option Resource :=
  s.resources.find? (·.address = address)

/-- Puts a resource in the place of the one with the same pointer, or adds it. -/
def put (s : Sheet) (r : Resource) : Sheet :=
  if s.resources.any (·.pointer = r.pointer) then
    { s with resources := s.resources.map fun q => if q.pointer = r.pointer then r else q }
  else { s with resources := s.resources ++ [r] }

/-- Adds a resource with its address; none if another one has the address. -/
def addResource? (s : Sheet) (r : Resource) : Option Sheet :=
  match s.byAddress? r.address with
  | some q => if q.pointer = r.pointer then some s else none
  | none => some (s.put r)

/-- Looks through a value for resources and names; `fuel` bounds its depth.  None if an address
or a draft is not understood, or an address or a name is given twice. -/
def collect? (fuel : Nat) (s : Sheet) (v : Json) (base : String) (pointer : List String)
    (given : Draft) : Option Sheet :=
  if s.seen.contains pointer then some s
  else
    let marked (s : Sheet) : Sheet := { s with seen := pointer :: s.seen }
    match fuel, v with
    | fuel + 1, .object _ => do
      let said ← draftOf? v given
      let said := if said.idOf v = "" && !pointer.isEmpty then given else said
      let id := said.idOf v
      let base ← if id = "" then some base else (Address.join? base id).map (·.1)
      let declares : Bool := match v.field? "$schema" with
        | some (.string t) => t ≠ ""
        | _ => false
      let own : Resource := { pointer, address := base, draft := if declares then said else given }
      let s ← if id = "" && !pointer.isEmpty then some s else s.addResource? own
      let home ← s.byAddress? base
      let names ← anchorsOf? home.draft v
      let home ← names.foldlM (fun r a => r.name? pointer a) home
      let s ← (said.inner v).foldlM (fun s (steps, w) =>
        collect? fuel s w base (pointer ++ steps) home.draft) (s.put home)
      return marked s
    | _, .bool _ =>
      if pointer.isEmpty then
        some (marked (s.put { pointer, address := base, draft := given }))
      else some (marked s)
    | _, _ => some (marked s)

/-- The resource that a place belongs to. -/
def home (s : Sheet) (pointer : List String) : Resource :=
  let near := s.resources.filter fun r => r.pointer.isPrefixOf pointer
  near.foldl (fun best r => if r.pointer.length ≥ best.pointer.length then r else best)
    { pointer := [], address := s.address, draft := .of2020 }

/-- The place that a fragment names in a resource. -/
def inResource? (s : Sheet) (fragment : String) (r : Resource) : Option Place :=
  if fragment = "" || fragment.toList.head? = some '/' then
    if fragment = "" then some ⟨s.address, r.pointer⟩
    else (steps? fragment).map fun steps => ⟨s.address, r.pointer ++ steps⟩
  else (r.anchors.lookup fragment).map fun p => ⟨s.address, p⟩

/-- The place that a fragment names in a document. -/
def resolve? (s : Sheet) (fragment : String) : Option Place := s.inResource? fragment (s.home [])

end Sheet

mutual

/-- How deep a value is. -/
def depth : Json → Nat
  | .array elements => depthAll elements + 1
  | .object fields => depthFields fields + 1
  | _ => 1

/-- How deep the deepest of several values is. -/
def depthAll : List Json → Nat
  | [] => 0
  | v :: rest => max (depth v) (depthAll rest)

/-- How deep the deepest of several fields is. -/
def depthFields : List (String × Json) → Nat
  | [] => 0
  | (_, v) :: rest => max (depth v) (depthFields rest)

end

mutual

/-- How many values a value is made of. -/
def extent : Json → Nat
  | .array elements => extentAll elements + 1
  | .object fields => extentFields fields + 1
  | _ => 1

/-- How many values several values are made of. -/
def extentAll : List Json → Nat
  | [] => 0
  | v :: rest => extent v + extentAll rest

/-- How many values fields are made of. -/
def extentFields : List (String × Json) → Nat
  | [] => 0
  | (_, v) :: rest => extent v + extentFields rest

end

/-- The document with a value at an address, looked through for resources. -/
def Sheet.make? (address : String) (v : Json) : Option Sheet :=
  Sheet.collect? (depth v) { address, value := v } v address [] .of2020

end RuleScan.Schema
