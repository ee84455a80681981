import RuleScan.Regex.Program
import RuleScan.Schema.Fault
import RuleScan.Schema.Format
import RuleScan.Schema.Library

/-!
# Checking values against schemas

A value that a schema does not know, that has the wrong type, is not among the allowed values or is
in the wrong format is not looked at further; otherwise all problems are gathered.  Schemas that
apply to the same value are followed one inside the other, and a schema that comes back to itself
that way is a problem of its own.  Which fields and elements of a value no schema has looked at is
kept in mind for the keywords that speak of these.

Each group of keywords is a step that takes the problems found so far and adds its own; the steps
call the check of other schemas through a parameter, and `check` ties them together.
-/

namespace RuleScan.Schema

/-! ## Values -/

/-- The name of a value's type; some values have none. -/
def typeName? : Json → Option String
  | .null => some "null"
  | .bool _ => some "boolean"
  | .int _ | .float _ => some "number"
  | .string _ | .bytes _ => some "string"
  | .array _ => some "array"
  | .object _ => some "object"
  | .binary _ | .moment _ => none

/-- What a value without a type is called. -/
def strangeName : Json → String
  | .moment _ => "time.Time"
  | _ => "[]uint8"

/-- The types in the order in which messages list them. -/
def allTypes : List String :=
  ["null", "boolean", "number", "integer", "string", "array", "object"]

/-- Whether a number has no fraction. -/
def isWhole (v : Json) : Bool := ((Exact.ofJson? v).map Exact.isWhole).getD false

mutual

/-- Whether two values are the same, or a value in them that has no type. -/
def agree : Json → Json → Except Json Bool
  | .array a, .array b => agreeAll a b
  | .object a, .object b => if a.length == b.length then agreeFields a b else .ok false
  | a, b =>
    match typeName? a, typeName? b with
    | none, _ => .error a
    | _, none => .error b
    | some s, some t =>
      if s ≠ t then .ok false
      else if s = "number" then
        match Exact.ofJson? a, Exact.ofJson? b with
        | some m, some n => .ok (m.same n)
        | _, _ => .ok false
      else .ok (Json.same a b)

/-- Whether two lists hold the same values. -/
def agreeAll : List Json → List Json → Except Json Bool
  | [], [] => .ok true
  | a :: as, b :: bs =>
    match agree a b with
    | .ok true => agreeAll as bs
    | other => other
  | _, _ => .ok false

/-- Whether every field is found with the same value in the other object. -/
def agreeFields : List (String × Json) → List (String × Json) → Except Json Bool
  | [], _ => .ok true
  | (name, a) :: rest, others =>
    match others.lookup name with
    | none => .ok false
    | some b =>
      match agree a b with
      | .ok true => agreeFields rest others
      | other => other

end

/-- Whether a value is among several, which all have to be of a known type. -/
def isAmong (v : Json) : List Json → Except Json Bool
  | [] => .ok false
  | w :: rest =>
    match agree v w with
    | .ok false => isAmong v rest
    | other => other

/-- The first two equal elements of a list, with their places. -/
def equalPair? (elements : List Json) : Except Json (Option (Nat × Nat)) :=
  let numbered := elements.zipIdx
  let pairs := numbered.flatMap fun (b, j) => (numbered.take j).map fun (a, i) => (a, i, b, j)
  pairs.foldl (fun found (a, i, b, j) =>
    match found with
    | .ok none => (agree b a).map fun equal => if equal then some (i, j) else none
    | found => found) (.ok none)

/-- The text of a value as code points, if it is a text. -/
def runes? : Json → Option (List Text.Rune)
  | .string s => some (Text.decode (Text.bytesOf s))
  | .bytes b => some (Text.decode b)
  | _ => none

/-- Whether an expression matches anywhere in a text. -/
def patternMatches (pattern : String) (text : List Text.Rune) : Bool :=
  match Regex.parse pattern with
  | .ok r => Regex.isMatch (Regex.compile r) text
  | .error _ => false

/-! ## Where a check is -/

/-- A schema on the way to the present one: how it was reached, and how deep in the value. -/
structure Step where
  place : Place
  /-- The keyword of the reference that led here, or nothing if the schema stands in the one
  before. -/
  keyword : String
  depth : Nat
  deriving Repr, DecidableEq, Inhabited

/-- A check of a value against a schema. -/
structure Context where
  library : Library
  node : Node
  /-- The schemas on the way here, the present one first. -/
  trail : List Step
  location : List String
  value : Json
  deriving Inhabited

/-- The fields and elements of a value that no schema has looked at. -/
structure Unseen where
  fields : List String := []
  elements : List Nat := []
  deriving Repr, DecidableEq, Inhabited

/-- Whether there is nothing left. -/
def Unseen.isEmpty (u : Unseen) : Bool := u.fields.isEmpty && u.elements.isEmpty

/-- What neither of two checks has looked at. -/
def Unseen.merge (u w : Unseen) : Unseen :=
  ⟨u.fields.filter w.fields.contains, u.elements.filter w.elements.contains⟩

/-- The result of a check: what was left unseen, or the problems. -/
abbrev Verdict := Except (List Violation) Unseen

/-- A check of other schemas; the flag says whether it matters what they leave unseen. -/
abbrev Judge := Context → Bool → Verdict

/-- The problems found so far, and what has not been seen yet. -/
structure Progress where
  found : List Violation := []
  unseen : Unseen := {}
  deriving Inhabited

/-- Adds a problem. -/
def Progress.add (p : Progress) (v : Violation) : Progress := { p with found := p.found ++ [v] }

/-- Several problems of one value as one; a single one stands for itself. -/
def gather (location : List String) : List Violation → Violation
  | [one] => one
  | list => .node location Fault.several.message list

namespace Context

/-- How deep in the value the check is. -/
def depth (c : Context) : Nat := (c.trail.head?.map Step.depth).getD 0

/-- A problem of the value. -/
def fault (c : Context) (f : Fault) : Violation := .node c.location f.message []

/-- A problem of the value that has causes. -/
def faultOf (c : Context) (f : Fault) (causes : List Violation) : Violation :=
  .node c.location f.message causes

/-- The same value against another schema. -/
def beside (c : Context) (n : Node) (keyword : String) : Context :=
  { c with node := n, trail := ⟨n.place, keyword, c.depth⟩ :: c.trail }

/-- A part of the value against a schema. -/
def within (c : Context) (n : Node) (token : String) (v : Json) : Context :=
  { c with
    node := n
    trail := ⟨n.place, "", c.depth + 1⟩ :: c.trail
    location := c.location ++ [token]
    value := v }

/-- Checks the same value against another schema. -/
def also (c : Context) (judge : Judge) (p : Progress) (n : Node) (keyword : String) :
    Except (List Violation) Progress :=
  (judge (c.beside n keyword) (!p.unseen.isEmpty)).map fun u =>
    { p with unseen := p.unseen.merge u }

/-- Adds the problems of the same value against another schema. -/
def addAlso (c : Context) (judge : Judge) (p : Progress) (n : Node) : Progress :=
  match c.also judge p n "" with
  | .ok p => p
  | .error vs => p.add (gather c.location vs)

/-- Adds the problems of a part of the value. -/
def addWithin (c : Context) (judge : Judge) (p : Progress) (n : Node) (token : String) (v : Json) :
    Progress :=
  match judge (c.within n token v) (!p.unseen.isEmpty) with
  | .ok _ => p
  | .error vs => p.add (gather (c.location ++ [token]) vs)

/-- Adds the problems of the same value against a schema that is referred to. -/
def addReferred (c : Context) (judge : Judge) (p : Progress) (n : Node) (keyword : String) :
    Progress :=
  match c.also judge p n keyword with
  | .ok p => p
  | .error vs => p.add (c.faultOf (.reference n.place.text) vs)

/-! ## References -/

/-- The step on the way here that was at the same place with the same value, with what led to
it. -/
def cycle? (c : Context) : Option (List Step) :=
  match c.trail with
  | [] => none
  | here :: before =>
    let same := before.takeWhile (·.depth = here.depth)
    let skipped := same.takeWhile (·.place ≠ here.place)
    if skipped.length = same.length then none else some (before.drop skipped.length)

/-- The keywords that lead to the first of some steps. -/
def keywords : List Step → String
  | here :: parent :: rest =>
    keywords (parent :: rest) ++
      if here.keyword = "" then
        String.ofList (here.place.text.toList.drop parent.place.text.length)
      else "/" ++ escapeStep here.keyword
  | _ => ""

/-- The outermost of the resources on the way here that ask to be taken instead of another one. -/
def outermost (c : Context) (choose : Place → Resource → Option Place) (n : Node) : Node :=
  let places := c.trail.filterMap fun s =>
    (c.library.home? s.place).bind fun r => choose ⟨s.place.address, r.pointer⟩ r
  (places.getLast?.bind c.library.node?).getD n

/-- The schema that `$recursiveRef` leads to. -/
def recursive? (c : Context) : Option Node :=
  (c.node.target? c.library "$recursiveRef").map fun n =>
    if n.isOn "$recursiveAnchor" then
      c.outermost (fun root _ =>
        if ((c.library.node? root).map (·.isOn "$recursiveAnchor")).getD false then some root
        else none) n
    else n

/-- The schema that `$dynamicRef` leads to. -/
def dynamic? (c : Context) : Option Node :=
  (c.node.target? c.library "$dynamicRef").map fun n =>
    let fragment := ((c.node.text? "$dynamicRef").bind fun r =>
      Address.decoded? (Address.cutFragment r).2).getD ""
    if fragment ≠ "" && fragment.toList.head? ≠ some '/' &&
        n.text? "$dynamicAnchor" = some fragment then
      c.outermost (fun root r =>
        if 2020 ≤ r.draft.age && r.movable.contains fragment then
          (r.anchors.lookup fragment).map fun p => ⟨root.address, p⟩
        else none) n
    else n

/-! ## Groups of keywords -/

/-- The whole number of a keyword, as it fits into a word. -/
def whole? (c : Context) (keyword : String) : Option Int :=
  ((c.node.get? keyword).bind Exact.ofJson?).bind fun n =>
    n.whole?.map fun k => Int.bmod k Word.size

/-- The limits on a size. -/
def sizes (c : Context) (word : String) (n : Nat) (p : Progress) : Progress :=
  let limit (keyword : String) (fails : Int → Bool) (p : Progress) : Progress :=
    match c.whole? keyword with
    | some k => if fails k then p.add (c.fault (.size keyword n k)) else p
    | none => p
  limit ("max" ++ word) (fun k => k < (n : Int))
    (limit ("min" ++ word) (fun k => (n : Int) < k) p)

/-- The names of a list that an object does not have. -/
def absent (fields : List (String × Json)) (names : List String) : List String :=
  names.filter fun n => !fields.any (·.1 = n)

/-- The fields that have to be there. -/
def required (c : Context) (fields : List (String × Json)) (p : Progress) : Progress :=
  match absent fields (c.node.texts "required") with
  | [] => p
  | names => p.add (c.fault (.missing names))

/-- What has to hold if a field is there: other fields, or a schema. -/
def dependent (c : Context) (judge : Judge) (keyword : String) (fields : List (String × Json))
    (p : Progress) : Progress :=
  let entries := ((c.node.get? keyword).map Json.fields).getD []
  entries.foldl (fun p (name, dependency) =>
    if !fields.any (·.1 = name) then p
    else match dependency with
      | .array names =>
        match absent fields (names.filterMap Json.text?) with
        | [] => p
        | missing => p.add (c.fault (.missingWith missing name))
      | _ =>
        if keyword = "dependentRequired" then p
        else match c.node.step? c.library [keyword, name] with
          | some n => c.addAlso judge p n
          | none => p) p

/-- Checks a field against the named and the patterned schemas, and otherwise against the one for
additional fields.  Adds the names of fields that may not be there. -/
def field (c : Context) (judge : Judge) (named patterned : List (String × Node))
    (acc : Progress × List String) (f : String × Json) : Progress × List String :=
  let (p, refused) := acc
  let (name, v) := f
  let fitting := (named.filter (·.1 = name)).take 1 ++
    patterned.filter fun (pattern, _) =>
      patternMatches pattern (Text.decode (Text.bytesOf name))
  let p := fitting.foldl (fun p (_, n) => c.addWithin judge p n name v) p
  let seen (p : Progress) : Progress :=
    { p with unseen := { p.unseen with fields := p.unseen.fields.filter (· ≠ name) } }
  if !fitting.isEmpty then (seen p, refused)
  else match c.node.get? "additionalProperties" with
    | none => (p, refused)
    | some (.bool allowed) => (seen p, if allowed then refused else refused ++ [name])
    | some _ =>
      match c.node.child? c.library "additionalProperties" with
      | some n => (seen (c.addWithin judge p n name v), refused)
      | none => (p, refused)

/-- Checks the names of fields; each name stands for itself. -/
def fieldNames (c : Context) (judge : Judge) (fields : List (String × Json)) (p : Progress) :
    Progress :=
  match c.node.child? c.library "propertyNames" with
  | none => p
  | some n =>
    fields.foldl (fun p (name, _) =>
      match judge { c with node := n, trail := [⟨n.place, "", 0⟩], location := [],
                           value := .string name } false with
      | .ok _ => p
      | .error vs => p.add (.node [] (Fault.fieldName name).message vs)) p

/-- The keywords on objects. -/
def object (c : Context) (judge : Judge) (fields : List (String × Json)) (p : Progress) :
    Progress :=
  let p := c.sizes "Properties" fields.length p
  let p := c.required fields p
  let p := c.dependent judge "dependencies" fields p
  let named := c.node.named c.library "properties"
  let patterned := c.node.named c.library "patternProperties"
  let (p, refused) := fields.foldl (c.field judge named patterned) (p, [])
  let p := if refused.isEmpty then p else p.add (c.fault (.additionalFields refused))
  let p := c.fieldNames judge fields p
  let p := c.dependent judge "dependentSchemas" fields p
  c.dependent judge "dependentRequired" fields p

/-- Checks elements in turn against one schema; they are counted from zero. -/
def each (c : Context) (judge : Judge) (n : Node) (elements : List Json) (p : Progress) :
    Progress :=
  elements.zipIdx.foldl (fun p (v, i) => c.addWithin judge p n (toString i) v) p

/-- Checks elements against the schemas of the same place. -/
def front (c : Context) (judge : Judge) (schemas : List Node) (elements : List Json)
    (p : Progress) : Progress :=
  ((elements.zip schemas).zipIdx).foldl (fun p ((v, n), i) =>
    c.addWithin judge p n (toString i) v) p

/-- The keywords on the elements of a list, up to the draft of 2019. -/
def olderElements (c : Context) (judge : Judge) (elements : List Json) (p : Progress) : Progress :=
  let (p, rest) : Progress × List Json := match c.node.get? "items" with
    | none => (p, elements)
    | some (.array _) =>
      let schemas := c.node.children c.library "items"
      (c.front judge schemas elements p, elements.drop schemas.length)
    | some _ =>
      match c.node.child? c.library "items" with
      | some n => (c.each judge n elements p, [])
      | none => (p, elements)
  let isListed := match c.node.get? "items" with
    | some (.array _) => true
    | _ => false
  if !isListed then p
  else match c.node.get? "additionalItems" with
    | none | some (.bool true) => p
    | some (.bool false) =>
      if rest.isEmpty then p else p.add (c.fault (.additionalElements rest.length))
    | some _ =>
      match c.node.child? c.library "additionalItems" with
      | some n => c.each judge n rest p
      | none => p

/-- The keywords on the elements of a list, from the draft of 2020 on. -/
def newerElements (c : Context) (judge : Judge) (elements : List Json) (p : Progress) : Progress :=
  let schemas := c.node.children c.library "prefixItems"
  let p := c.front judge schemas elements p
  match c.node.child? c.library "items" with
  | some n => c.each judge n (elements.drop schemas.length) p
  | none => p

/-- The keywords on how many elements are of a kind. -/
def containing (c : Context) (judge : Judge) (elements : List Json) (p : Progress) : Progress :=
  match c.node.child? c.library "contains" with
  | none => p
  | some n =>
    let verdicts := elements.zipIdx.map fun (v, i) =>
      (i, judge (c.within n (toString i) v) (!p.unseen.isEmpty))
    let matched := verdicts.filterMap fun (i, r) =>
      match r with
      | .ok _ => some i
      | .error _ => none
    let causes := verdicts.filterMap fun (i, r) =>
      match r with
      | .ok _ => none
      | .error vs => some (gather (c.location ++ [toString i]) vs)
    let p := if c.node.draft.age < 2020 then p
      else { p with unseen :=
        { p.unseen with elements := p.unseen.elements.filter fun i => !matched.contains i } }
    let p := match c.whole? "minContains" with
      | some k =>
        if (matched.length : Int) < k then p.add (c.faultOf (.fewContained k matched) causes)
        else p
      | none => if matched.isEmpty then p.add (c.faultOf .noneContained causes) else p
    match c.whole? "maxContains" with
    | some k =>
      if k < (matched.length : Int) then p.add (c.fault (.manyContained k matched)) else p
    | none => p

/-- The keywords on lists. -/
def list (c : Context) (judge : Judge) (elements : List Json) (p : Progress) : Progress :=
  let p := c.sizes "Items" elements.length p
  let p := if !c.node.isOn "uniqueItems" then p
    else match equalPair? elements with
      | .error v => p.add (c.fault (.unknownKind (strangeName v)))
      | .ok (some (i, j)) => p.add (c.fault (.equalElements i j))
      | .ok none => p
  let p := if c.node.draft.age < 2020 then c.olderElements judge elements p
    else c.newerElements judge elements p
  c.containing judge elements p

/-- The keywords on texts. -/
def text (c : Context) (runes : List Text.Rune) (p : Progress) : Progress :=
  let p := c.sizes "Length" runes.length p
  match c.node.text? "pattern" with
  | some pattern =>
    if patternMatches pattern runes then p
    else p.add (c.fault (.unlikePattern c.value pattern))
  | none => p

/-- The keywords on numbers.  A bound that is switched to be exclusive takes the place of the other
one. -/
def number (c : Context) (n : Exact) (p : Progress) : Progress :=
  let own (keyword : String) : Option Exact := (c.node.get? keyword).bind Exact.ofJson?
  let bound (keyword : String) (limit : Option Exact) (fails : Exact → Bool) (p : Progress) :
      Progress :=
    match limit with
    | some k => if fails k then p.add (c.fault (.number keyword n k)) else p
    | none => p
  let least := own "minimum"
  let most := own "maximum"
  let above := c.node.isOn "exclusiveMinimum"
  let under := c.node.isOn "exclusiveMaximum"
  let p := bound "minimum" (if above then none else least) (fun k => n.less k) p
  let p := bound "maximum" (if under then none else most) (fun k => k.less n) p
  let p := bound "exclusiveMinimum" (if above then least else own "exclusiveMinimum")
    (fun k => !k.less n) p
  let p := bound "exclusiveMaximum" (if under then most else own "exclusiveMaximum")
    (fun k => !n.less k) p
  bound "multipleOf" (own "multipleOf") (fun k => !n.isMultipleOf k) p

/-- The keyword that forbids a schema. -/
def negated (c : Context) (judge : Judge) (p : Progress) : Progress :=
  match c.node.child? c.library "not" with
  | none => p
  | some n =>
    match c.also judge p n "" with
    | .ok p => p.add (c.fault .refuted)
    | .error _ => p

/-- The keyword that asks for all of several schemas. -/
def allOf (c : Context) (judge : Judge) (p : Progress) : Progress :=
  let (p, causes) := (c.node.children c.library "allOf").foldl (fun (p, causes) n =>
    match c.also judge p n "" with
    | .ok p => (p, causes)
    | .error vs => (p, causes ++ [gather c.location vs])) (p, [])
  if causes.isEmpty then p else p.add (c.faultOf .notAll causes)

/-- The keyword that asks for one or more of several schemas.  After the first one that fits, the
others count only for what is left unseen. -/
def anyOf (c : Context) (judge : Judge) (p : Progress) : Progress :=
  let schemas := c.node.children c.library "anyOf"
  let (p, matched, causes) := schemas.foldl (fun (p, matched, causes) n =>
    if matched && p.unseen.isEmpty then (p, matched, causes)
    else match c.also judge p n "" with
      | .ok p => (p, true, causes)
      | .error vs => (p, matched, causes ++ [gather c.location vs])) (p, false, [])
  if schemas.isEmpty || matched then p else p.add (c.faultOf .notAny causes)

/-- The keyword that asks for exactly one of several schemas. -/
def oneOf (c : Context) (judge : Judge) (p : Progress) : Progress :=
  let schemas := c.node.children c.library "oneOf"
  let (p, matched, causes) := schemas.zipIdx.foldl (fun (p, matched, causes) (n, i) =>
    if matched.length ≥ 2 then (p, matched, causes)
    else match c.also judge p n "" with
      | .ok p => (p, matched ++ [i], causes)
      | .error vs => (p, matched, causes ++ [gather c.location vs])) (p, ([] : List Nat), [])
  match schemas, matched with
  | [], _ | _, [_] => p
  | _, [] => p.add (c.faultOf .noneOf causes)
  | _, i :: j :: _ => p.add (c.fault (.severalOf i j))

/-- The keywords that ask for a schema only if another one fits, or only if it does not. -/
def conditional (c : Context) (judge : Judge) (p : Progress) : Progress :=
  match c.node.child? c.library "if" with
  | none => p
  | some n =>
    let (p, branch) : Progress × String := match c.also judge p n "" with
      | .ok p => (p, "then")
      | .error _ => (p, "else")
    match c.node.child? c.library branch with
    | some n => c.addAlso judge p n
    | none => p

/-- The keywords on what no other one has looked at. -/
def leftOver (c : Context) (judge : Judge) (p : Progress) : Progress :=
  let p := match c.value, c.node.child? c.library "unevaluatedProperties" with
    | .object fields, some n =>
      let q := (fields.filter fun f => p.unseen.fields.contains f.1).foldl
        (fun p (name, v) => c.addWithin judge p n name v) p
      { q with unseen := { q.unseen with fields := [] } }
    | _, _ => p
  match c.value, c.node.child? c.library "unevaluatedItems" with
  | .array elements, some n =>
    let q := (elements.zipIdx.filter fun e => p.unseen.elements.contains e.2).foldl
      (fun p (v, i) => c.addWithin judge p n (toString i) v) p
    { q with unseen := { q.unseen with elements := [] } }
  | _, _ => p

/-- What a schema leaves unseen of a value by itself, if that matters. -/
def unseen (c : Context) (needed : Bool) : Unseen :=
  let n := c.node
  match c.value with
  | .object fields =>
    let matters := needed || (n.get? "unevaluatedProperties").isSome
    if matters && (n.get? "additionalProperties").isNone then { fields := fields.map (·.1) } else {}
  | .array elements =>
    let matters := needed || (n.get? "unevaluatedItems").isSome
    let (all, first) : Bool × Nat :=
      if n.draft.age < 2020 then
        match n.get? "items" with
        | none => (false, 0)
        | some (.array schemas) => ((n.get? "additionalItems").isSome, schemas.length)
        | some _ => (true, 0)
      else ((n.get? "items").isSome, (((n.get? "prefixItems").map Json.elements).getD []).length)
    if matters && !all then { elements := (List.range elements.length).drop first } else {}
  | _ => {}

/-- The problem for which a value is not looked at further. -/
def firstFault? (c : Context) : Option Fault :=
  let n := c.node
  match typeName? c.value with
  | none => some (.unknownKind (strangeName c.value))
  | some got =>
    let wanted := match n.get? "type" with
      | some (.string t) => [t]
      | some (.array ts) => ts.filterMap Json.text?
      | _ => []
    let fits := wanted.contains got ||
      (got = "number" && wanted.contains "integer" && isWhole c.value)
    if !wanted.isEmpty && !fits then
      some (.wrongType got (allTypes.filter wanted.contains))
    else
      let constant := (n.get? "const").bind fun w =>
        match agree c.value w with
        | .error v => some (Fault.unknownKind (strangeName v))
        | .ok true => none
        | .ok false => some (.notTheConstant w)
      let choice := match n.get? "enum" with
        | some (.array ws) =>
          match isAmong c.value ws with
          | .error v => some (Fault.unknownKind (strangeName v))
          | .ok true => none
          | .ok false => some (.notAmong ws)
        | _ => none
      let format := if n.draft.age < 2019 then
          (n.text? "format").bind fun name =>
            match c.value with
            | .string s => (Format.problem? name s).map (.notInFormat c.value name ·)
            | _ => none
        else none
      constant <|> choice <|> format

/-- The keywords on values of one type. -/
def byType (c : Context) (judge : Judge) (p : Progress) : Progress :=
  match c.value with
  | .object fields => c.object judge fields p
  | .array elements => c.list judge elements p
  | v =>
    match runes? v, Exact.ofJson? v with
    | some runes, _ => c.text runes p
    | none, some n => c.number n p
    | none, none => p

/-- The references of later drafts. -/
def laterReferences (c : Context) (judge : Judge) (p : Progress) : Progress :=
  let p := match c.recursive? with
    | some n => c.addReferred judge p n "$recursiveRef"
    | none => p
  match c.dynamic? with
  | some n => c.addReferred judge p n "$dynamicRef"
  | none => p

/-- All keywords after the first ones. -/
def keywordsOf (c : Context) (judge : Judge) (p : Progress) : Progress :=
  let p := c.byType judge p
  let p := c.laterReferences judge p
  let p := c.negated judge p
  let p := c.allOf judge p
  let p := c.anyOf judge p
  let p := c.oneOf judge p
  let p := c.conditional judge p
  c.leftOver judge p

/-- Checks the value of a context against its schema, with a judge for other schemas. -/
def verdict (c : Context) (judge : Judge) (needed : Bool) : Verdict :=
  match c.node.value with
  | .bool true => .ok (c.unseen needed)
  | .bool false => .error [c.fault .nothingAllowed]
  | _ =>
    match c.cycle? with
    | some before =>
      .error [c.fault (.cycle (keywords c.trail) (keywords before) c.node.place.text)]
    | none =>
      match c.firstFault? with
      | some f => .error [c.fault f]
      | none =>
        let start : Progress := { unseen := c.unseen needed }
        let referred := match c.node.target? c.library "$ref" with
          | some n => c.addReferred judge start n "$ref"
          | none => start
        let p := if c.node.isReference then referred else c.keywordsOf judge referred
        if p.found.isEmpty then .ok p.unseen else .error p.found

end Context

/-- Checks a value against a schema; `fuel` bounds how many schemas are followed one inside the
other. -/
def check : Nat → Judge
  | 0 => fun _ _ => .ok {}
  | fuel + 1 => fun c needed => c.verdict (check fuel) needed

/-- A bound on how many schemas can be followed one inside the other: no schema comes twice for the
same part of a value. -/
def Library.fuel (lib : Library) (v : Json) : Nat :=
  (depth v + 2) * (extent lib.sheet.value + 1000)

/-- The problems of a value against the schema at a place. -/
def Library.problems (lib : Library) (n : Node) (v : Json) : List Violation :=
  match check (lib.fuel v) ⟨lib, n, [⟨n.place, "", 0⟩], [], v⟩ false with
  | .ok _ => []
  | .error vs => vs

end RuleScan.Schema
