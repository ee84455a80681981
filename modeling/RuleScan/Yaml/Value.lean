import RuleScan.Decimal.Shortest
import RuleScan.Json.Basic
import RuleScan.Text.Base64
import RuleScan.Yaml.Error

/-!
# Values of documents

The plain value of a document: tags are obeyed, aliases replaced by what they stand for and merge
keys by the entries they bring in.  A stream without any document has no value.
-/

namespace RuleScan.Yaml

/-- What the anchors met so far stand for, the newest first; an anchor whose value is still being
read has no node yet. -/
structure Anchors where
  nodes : List (String × Option Node) := []
  values : List (String × Json) := []
  deriving Inhabited

/-- A step of evaluating a document. -/
abbrev Evaluation := StateT Anchors (Except Fault)

/-- The text of a number in general text. -/
def floatText (x : Float) : String := Decimal.generalStyle.text x

mutual

/-- The text of a value in general text. -/
def generalText : Json → String
  | .null => "<nil>"
  | .bool b => if b then "true" else "false"
  | .int n => toString n
  | .float x => floatText x
  | .string s => s
  | .bytes b => Text.textOf b
  | .binary b => "[" ++ " ".intercalate (b.map fun x => toString x.toNat) ++ "]"
  | .moment m => m.longText
  | .array elements => "[" ++ " ".intercalate (generalTexts elements) ++ "]"
  | .object fields =>
    let entries := (generalFields fields).mergeSort fun a b => a.1 ≤ b.1
    "map[" ++ " ".intercalate (entries.map fun (k, v) => k ++ ":" ++ v) ++ "]"

/-- The texts of several values. -/
def generalTexts : List Json → List String
  | [] => []
  | v :: rest => generalText v :: generalTexts rest

/-- The texts of the values of fields. -/
def generalFields : List (String × Json) → List (String × String)
  | [] => []
  | (name, v) :: rest => (name, generalText v) :: generalFields rest

end

/-- The value of a scalar token. -/
def tokenValue (t : Token) : Json :=
  match t.kind with
  | .plain s =>
    match s with
    | .null => .null
    | .bool b => .bool b
    | .int n => .int n
    | .float x => .float x
    | .infinity negative => .float (if negative then -(1.0 / 0.0) else 1.0 / 0.0)
    | .notANumber => .float (0.0 / 0.0)
    | .text => .string t.value
  | .missing | .mergeKey => .null
  | _ => .string t.value

/-- The words for booleans behind a tag that asks for one. -/
def taggedBool? (text : String) : Option Bool :=
  let word := Text.asciiLower text
  if ["1", "t", "true", "yes"].contains word then some true
  else if ["0", "f", "false", "no"].contains word then some false
  else none

/-- The whole number behind a tag that asks for one: the nearest of 64 bits, and zero for what is
no number. -/
def taggedInt (text : String) : Int :=
  let clamp (n : Int) : Int := max (-(Word.half : Int)) (min n ((Word.half : Int) - 1))
  match text.toList with
  | '-' :: ds => ((digitsIn? 10 ds).map fun n => clamp (-(n : Int))).getD 0
  | '+' :: ds => ((digitsIn? 10 ds).map fun n => clamp n).getD 0
  | ds => ((digitsIn? 10 ds).map fun n => clamp n).getD 0

/-- The fraction behind a tag that asks for one. -/
def taggedFloat : Json → Json
  | .int n => .float (Float.ofInt n)
  | .float x => .float x
  | .string s => .float (((Decimal.read? s).map Decimal.Written.value).getD 0)
  | _ => .int 0

/-- The moment behind a tag that asks for one; what is no moment is the first of all. -/
def taggedMoment : Json → Json
  | .moment m => .moment m
  | .string s => .moment ((Time.Moment.parseAny? true s).getD .first)
  | _ => .moment .first

/-- A value as a tag asks for it. -/
def retag (tag : String) (v : Json) : Except String Json :=
  match tag with
  | "!!int" => .ok (.int (taggedInt (generalText v)))
  | "!!float" => .ok (taggedFloat v)
  | "!!null" => .ok .null
  | "!!timestamp" => .ok (taggedMoment v)
  | "!!binary" =>
    match v with
    | .string s => .ok (.binary (Text.Base64.decodeSome s))
    | v => .error ("cannot convert " ++ Text.quoted (generalText v) ++ " to string")
  | "!!bool" =>
    match taggedBool? (generalText v) with
    | some b => .ok (.bool b)
    | none => .error ("cannot convert " ++ Text.quoted (generalText v) ++ " to boolean")
  | "!!str" =>
    match v with
    | .null => .ok (.string "")
    | v => .ok (.string (generalText v))
  | _ => .ok v

/-- Whether a key is the merge key. -/
def isMerge (tokens : Tokens) : Node → Bool
  | .scalar t =>
    match (tokens[t]?.getD default).kind with
    | .mergeKey => true
    | _ => false
  | .explicit _ v | .tag _ v | .anchor _ _ v => isMerge tokens v
  | _ => false

/-- The name that the value of a key gives its entry. -/
def keyName : Json → String
  | .null => "null"
  | v => generalText v

/-- The name of the kind of a node in messages. -/
def nodeName (tokens : Tokens) : Node → String
  | .scalar t =>
    match (tokens[t]?.getD default).kind with
    | .plain s =>
      match s with
      | .null => "null"
      | .bool _ => "boolean"
      | .int _ => "int"
      | .float _ => "float"
      | .infinity _ => "inf"
      | .notANumber => "nan"
      | .text => "string"
    | .missing => "null"
    | .mergeKey => "merge key"
    | _ => "string"
  | .word _ => "string"
  | .block _ _ => "scalar"
  | .mapping _ _ => "mapping"
  | .sequence _ _ => "sequence"
  | .anchor _ _ _ => "anchor"
  | .alias _ _ => "alias"
  | .tag _ _ => "tag"
  | .explicit _ _ => "key"
  | .directive _ => "directive"

/-- The value of a token. -/
def textAt (tokens : Tokens) (i : Nat) : String := (tokens[i]?.getD default).value

mutual

/-- The entries of a map, found through anchors and aliases.  Where maps are merged in, a list of
maps stands for the entries of all of them. -/
def mapEntries (tokens : Tokens) (anchors : List (String × Option Node)) (fuel : Nat)
    (merging : Bool) (n : Node) : Except Fault (List (Node × Node)) :=
  match fuel, n with
  | 0, _ => .ok []
  | _, .mapping _ entries => .ok entries
  | fuel + 1, .anchor _ _ value => mapEntries tokens anchors fuel merging value
  | fuel + 1, .alias _ name =>
    match anchors.find? (·.1 = textAt tokens name) with
    | some (_, some value) => mapEntries tokens anchors fuel merging value
    | _ => .error ⟨"cannot find anchor by alias name " ++ textAt tokens name, none, tokens⟩
  | fuel + 1, n =>
    match merging, n with
    | true, .sequence _ elements => allEntries tokens anchors fuel elements
    | _, n =>
      .error ⟨nodeName tokens n ++ " was used where mapping is expected", some n.token, tokens⟩

/-- The entries of several maps. -/
def allEntries (tokens : Tokens) (anchors : List (String × Option Node)) (fuel : Nat)
    (nodes : List Node) : Except Fault (List (Node × Node)) :=
  match fuel, nodes with
  | 0, _ | _, [] => .ok []
  | fuel + 1, n :: rest => do
    return (← mapEntries tokens anchors fuel false n) ++ (← allEntries tokens anchors fuel rest)

end

mutual

/-- The value of a node; `around` names the anchors that it stands in, and `fuel` bounds how deep
the document may be. -/
def evaluate (tokens : Tokens) (fuel : Nat) (around : List String) (n : Node) :
    Evaluation Json := do
  match fuel with
  | 0 => return .null
  | fuel + 1 =>
    match n with
    | .scalar t => return tokenValue (tokens[t]?.getD default)
    | .word t => return .string (textAt tokens t)
    | .block _ text => return .string ((text.map (textAt tokens)).getD "")
    | .sequence _ elements => return .array (← evaluateAll tokens fuel around elements)
    | .mapping _ entries => return .object (← evaluateEntries tokens fuel around entries [])
    | .anchor _ name value =>
      let text := textAt tokens name
      modify fun a => { a with nodes := (text, none) :: a.nodes }
      let v ← evaluate tokens fuel (text :: around) value
      modify fun a => ⟨(text, some value) :: a.nodes, (text, v) :: a.values⟩
      return v
    | .alias _ name =>
      let text := textAt tokens name
      if around.contains text then return .null
      match (← get).values.find? (·.1 = text) with
      | some (_, v) => return v
      | none => throw ⟨"could not find alias " ++ Text.quoted text, some name, tokens⟩
    | .tag _ (.word t) => return .string (textAt tokens t)
    | .tag t value =>
      let tag := textAt tokens t
      let v ← try evaluate tokens fuel around value
        catch f => if tag = "!!timestamp" then pure .null else throw f
      match retag tag v with
      | .ok v => return v
      | .error message => throw ⟨message, some value.token, tokens⟩
    | .explicit _ key => evaluate tokens fuel around key
    | .directive _ => return .null

/-- The values of several nodes. -/
def evaluateAll (tokens : Tokens) (fuel : Nat) (around : List String) (nodes : List Node) :
    Evaluation (List Json) := do
  match fuel, nodes with
  | 0, _ | _, [] => return []
  | fuel + 1, n :: rest =>
    let v ← evaluate tokens fuel around n
    return v :: (← evaluateAll tokens fuel around rest)

/-- The values of the entries of a map, set one after the other. -/
def evaluateEntries (tokens : Tokens) (fuel : Nat) (around : List String)
    (entries : List (Node × Node)) (fields : List (String × Json)) :
    Evaluation (List (String × Json)) := do
  match fuel, entries with
  | 0, _ | _, [] => return fields
  | fuel + 1, (k, n) :: rest =>
    let fields ←
      if isMerge tokens k then
        evaluateEntries tokens fuel around
          (← mapEntries tokens (← get).nodes fuel true n) fields
      else do
        let name := keyName (← evaluate tokens fuel around k)
        let v ← evaluate tokens fuel around n
        pure (Json.setField fields name v)
    evaluateEntries tokens fuel around rest fields

end

/-- The documents of a stream that hold a value, with what their anchors stand for. -/
structure Loaded where
  tokens : Tokens
  anchors : Anchors
  documents : List (Node × Json)
  deriving Inhabited

/-- The bound on the depth of a document. -/
def depthOf (tokens : Tokens) : Nat := 64 * (tokens.size + 8)

/-- Reads a stream and evaluates its documents. -/
def load (source : String) : Except Fault Loaded := do
  let stream ← parse source
  let nodes := stream.documents.filterMap id
  let (values, anchors) ←
    (nodes.mapM (evaluate stream.tokens (depthOf stream.tokens) [])).run {}
  let documents := (nodes.zip values).filter fun (n, v) =>
    match n, v with
    | .directive _, _ => false
    | .scalar _, .null => true
    | _, .null => false
    | _, _ => true
  return ⟨stream.tokens, anchors, documents⟩

/-- Why a document yields no value. -/
inductive ReadError where
  /-- The stream holds no document. -/
  | empty
  /-- A failure without a place. -/
  | plain (message : String)
  | document (e : Error)
  deriving Inhabited

/-- The failure that a fault amounts to. -/
def ReadError.ofFault (f : Fault) : ReadError :=
  if f.token.isSome then .document (.ofFault f) else .plain f.message

/-- The text of the failure. -/
def ReadError.message : ReadError → String
  | .empty => "EOF"
  | .plain message => message
  | .document e => e.message

/-- Gives an error the text of its document. -/
def ReadError.within (source : String) : ReadError → ReadError
  | .empty => .empty
  | .plain message => .plain message
  | .document e => .document (e.within source)

/-- The plain value of the first document. -/
def read (source : String) : Except ReadError Json :=
  match load source with
  | .error f => .error (.ofFault f)
  | .ok loaded =>
    match loaded.documents with
    | [] => .error .empty
    | (_, v) :: _ => .ok v

end RuleScan.Yaml
