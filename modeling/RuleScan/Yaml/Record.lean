import RuleScan.Decimal.Read
import RuleScan.Yaml.Value

/-!
# Reading documents into records

A record is read from a mapping by the names of its fields: a field that is absent or null keeps
its default, and unknown fields are passed over.  A value of the wrong type is refused; the refusal
names the field of the outermost record.
-/

namespace RuleScan.Yaml

/-- Why a node does not fit. -/
inductive Mismatch where
  | fault (f : Fault)
  /-- A value of one type where another is wanted, in a field of a record. -/
  | type (found wanted : String) (field : Option String) (token : Nat)
  deriving Inhabited

/-- What is known while reading: the tokens and the anchors of the document. -/
structure Source where
  tokens : Tokens
  anchors : Anchors
  deriving Inhabited

/-- A step of reading. -/
abbrev Reading (α : Type) := Source → Except Mismatch α

namespace Reading

instance : Monad Reading where
  pure a := fun _ => .ok a
  bind x f := fun s =>
    match x s with
    | .ok a => f a s
    | .error e => .error e

/-- Refuses a node. -/
def refuse {α : Type} (token : Nat) (message : String) : Reading α := fun s =>
  .error (.fault ⟨message, some token, s.tokens⟩)

/-- The node that anchors and aliases lead to. -/
def resolve (fuel : Nat) (n : Node) : Reading Node :=
  match fuel, n with
  | fuel + 1, .anchor _ _ v => resolve fuel v
  | fuel + 1, .alias _ name => fun s =>
    match s.anchors.nodes.find? (·.1 = textAt s.tokens name) with
    | some (_, some v) => resolve fuel v s
    | _ => .error (.fault
      ⟨"cannot find anchor by alias name " ++ textAt s.tokens name, none, s.tokens⟩)
  | _, n => pure n

/-- The node that anchors, aliases and tags lead to. -/
def plain (n : Node) : Reading Node := do
  match ← resolve 64 n with
  | .tag _ v => resolve 64 v
  | n => pure n

/-- Whether a node stands for null. -/
def isNull (n : Node) : Reading Bool := do
  let n ← resolve 64 n
  fun s => .ok (match n with
    | .scalar t => (match tokenValue (s.tokens[t]?.getD default) with
      | .null => true
      | _ => false)
    | _ => false)

/-- The value of a node. -/
def value (n : Node) : Reading Json := fun s =>
  match (evaluate s.tokens (depthOf s.tokens) [] n).run s.anchors with
  | .ok (v, _) => .ok v
  | .error f => .error (.fault f)

/-- The name of the type of a value in refusals. -/
def typeName : Json → String
  | .null => "nil"
  | .bool _ => "bool"
  | .int n => if n < 0 then "int64" else "uint64"
  | .float _ => "float64"
  | .string _ | .bytes _ => "string"
  | .binary _ => "[]uint8"
  | .moment _ => "time.Time"
  | .array _ => "[]interface \x7b\x7d"
  | .object _ => "map[string]interface \x7b\x7d"

/-- Refuses a value of the wrong type. -/
def wrongType {α : Type} (n : Node) (found : Json) (wanted : String) : Reading α := fun _ =>
  .error (.type (typeName found) wanted none n.token)

/-- A text; numbers and booleans are taken as they are written in general text. -/
def text (typeName : String) (n : Node) : Reading String := do
  let n ← resolve 64 n
  match ← value n with
  | .string s => pure s
  | .binary b => pure (Text.textOf b)
  | .null => pure ""
  | .bool b => pure (if b then "true" else "false")
  | .int k => pure (toString k)
  | .float x => pure (floatText x)
  | v => wrongType n v typeName

/-- A boolean. -/
def bool (n : Node) : Reading Bool := do
  let n ← resolve 64 n
  match ← value n with
  | .bool b => pure b
  | v => wrongType n v "bool"

/-- A fraction without its part behind the point, as a number of 64 bits; what does not fit is the
least such number. -/
def cutOff (x : Float) : Int :=
  let n : Int := if x < 0 then -(Int.ofNat (-x).toUInt64.toNat) else Int.ofNat x.toUInt64.toNat
  if Word.fits n then n else -(Word.half : Int)

/-- A whole number of 64 bits; a fraction is cut off. -/
def int (n : Node) : Reading Int := do
  let n ← resolve 64 n
  let tooLarge {α : Type} (written : String) : Reading α :=
    refuse n.token ("cannot unmarshal " ++ written ++ " into Go value of type int ( overflow )")
  match ← value n with
  | .int k => if k < Word.half then pure k else tooLarge (toString k)
  | .float x => if x ≤ Float.ofNat Word.half then pure (cutOff x) else tooLarge (floatText x)
  | v => wrongType n v "int"

/-- The elements of a list. -/
def elements (n : Node) : Reading (List Node) := do
  match ← plain n with
  | .sequence _ vs => pure vs
  | m => fun s => refuse m.token (nodeName s.tokens m ++ " was used where sequence is expected") s

/-- A list; an element that is null is the default. -/
def list {α : Type} (null : α) (read : Node → Reading α) (n : Node) : Reading (List α) := do
  go (← elements n)
where
  /-- Reads one element after the other. -/
  go : List Node → Reading (List α)
    | [] => pure []
    | n :: rest => do
      let v ← if ← isNull n then pure null else read n
      return v :: (← go rest)

/-- The entries of a mapping, found through anchors and aliases; `merging` tells that they are
merged into another one. -/
def entries (merging : Bool) (n : Node) : Reading (List (Node × Node)) := fun s =>
  (mapEntries s.tokens s.anchors.nodes (depthOf s.tokens) merging n).mapError .fault

/-- Whether a key is the merge key. -/
def isMergeKey (key : Node) : Reading Bool := fun s => .ok (isMerge s.tokens key)

/-- Refuses a key that was there already. -/
def checkNew (seen : List String) (key : String) (n : Node) : Reading Unit :=
  if seen.contains key then refuse n.token ("duplicate key " ++ Text.quoted key) else pure ()

/-- The fields of a mapping. -/
abbrev Fields := List (String × Node)

/-- Adds the fields of a merged map, none of which may be there already. -/
def addMerged (found : Fields) : Fields → Reading Fields
  | [] => pure found
  | (name, v) :: rest => do
    checkNew (found.map (·.1)) name v
    addMerged ((name, v) :: found) rest

/-- Gathers the fields of a mapping; `fuel` bounds how deep maps are merged in.  A key that is no
text makes a mapping without fields. -/
def fieldsOf (fuel : Nat) (es : List (Node × Node)) (found : Fields) : Reading Fields := do
  match fuel, es with
  | 0, _ | _, [] => pure found
  | fuel + 1, (k, v) :: rest =>
    if ← isMergeKey k then
      let more ← fieldsOf fuel (← entries true v) []
      fieldsOf fuel rest (← addMerged found more.reverse)
    else match ← value k with
      | .string name =>
        checkNew (found.map (·.1)) name k
        fieldsOf fuel rest ((name, v) :: found)
      | _ => pure []

/-- The fields of a record. -/
def fields (n : Node) : Reading Fields := fun s =>
  (do fieldsOf (depthOf s.tokens) (← entries false n) [] : Reading Fields) s

/-- Names the field of a record in a refusal. -/
def inField {α : Type} (record field : String) (read : Reading α) : Reading α := fun s =>
  match read s with
  | .error (.type found wanted _ token) =>
    .error (.type found wanted (some (record ++ "." ++ field)) token)
  | r => r

/-- A field of a record: its names in refusals and in documents, how it is read, and what it is
when it is absent or null. -/
def field {α : Type} (fields : Fields) (record name key : String) (default : α)
    (read : Node → Reading α) : Reading α := do
  match fields.find? (·.1 = key) with
  | none => pure default
  | some (_, n) =>
    if ← inField record name (isNull n) then pure default
    else inField record name (read n)

end Reading

/-- The fault that a mismatch amounts to. -/
def Mismatch.toFault (s : Source) : Mismatch → Fault
  | .fault f => f
  | .type found wanted field token =>
    let target := match field with
      | some f => "struct field " ++ f
      | none => "value"
    ⟨"cannot unmarshal " ++ found ++ " into Go " ++ target ++ " of type " ++ wanted, some token,
      s.tokens⟩

/-- Reads the first document of a stream. -/
def readDocument {α : Type} (source : String) (read : Node → Reading α) :
    Except ReadError α :=
  match load source with
  | .error f => .error (.ofFault f)
  | .ok loaded =>
    match loaded.documents with
    | [] => .error .empty
    | (n, _) :: _ =>
      let s : Source := ⟨loaded.tokens, loaded.anchors⟩
      match read n s with
      | .ok a => .ok a
      | .error m => .error (.ofFault (m.toFault s))

end RuleScan.Yaml
