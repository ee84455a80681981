import RuleScan.Text.Utf8
import RuleScan.Time.Moment

/-!
# Plain values

The values that documents hold before they mean anything: null, booleans, numbers, texts, bytes,
moments, lists and objects.  Both JSON and YAML documents are read into them; only the latter hold
bytes and moments.  The fields of an object keep the
order in which they were written, and a later field of the same name hides an earlier one only
where a reader says so.
-/

namespace RuleScan

/-- A plain value. -/
inductive Json where
  | null
  | bool (b : Bool)
  | int (n : Int)
  | float (x : Float)
  | string (s : String)
  /-- A text given by its bytes, which need not be well formed. -/
  | bytes (content : List UInt8)
  /-- Bytes that are no text. -/
  | binary (content : List UInt8)
  | moment (m : Time.Moment)
  | array (elements : List Json)
  | object (fields : List (String × Json))
  deriving Inhabited

namespace Json

/-- The field of an object. -/
def field? (name : String) : Json → Option Json
  | .object fields => (fields.find? (·.1 = name)).map (·.2)
  | _ => none

/-- The fields of an object; other values have none. -/
def fields : Json → List (String × Json)
  | .object fields => fields
  | _ => []

/-- The elements of a list; other values have none. -/
def elements : Json → List Json
  | .array elements => elements
  | _ => []

/-- The text, if the value is one. -/
def text? : Json → Option String
  | .string s => some s
  | .bytes b => some (Text.textOf b)
  | _ => none

/-- An object of the fields that are there. -/
def ofFields (fields : List (String × Option Json)) : Json :=
  .object (fields.filterMap fun (name, v) => v.map (name, ·))

/-- A list of texts. -/
def strings (list : List String) : Json := .array (list.map .string)

/-- Sets a field, in the place of the one that has the name already or else at the end. -/
def setField (fields : List (String × Json)) (name : String) (v : Json) : List (String × Json) :=
  if fields.any (·.1 = name) then fields.map fun f => if f.1 = name then (name, v) else f
  else fields ++ [(name, v)]

mutual

/-- Whether two values are the same; the order of fields does not count. -/
def same : Json → Json → Bool
  | .null, .null => true
  | .bool a, .bool b => a == b
  | .int a, .int b => a == b
  | .float a, .float b => a == b
  | .int a, .float b => Float.ofInt a == b
  | .float a, .int b => a == Float.ofInt b
  | .string a, .string b => a == b
  | .bytes a, .bytes b => a == b
  | .binary a, .binary b => a == b
  | .moment a, .moment b => a == b
  | .array a, .array b => sameAll a b
  | .object a, .object b => a.length == b.length && sameFields a b
  | _, _ => false

/-- Whether two lists hold the same values. -/
def sameAll : List Json → List Json → Bool
  | [], [] => true
  | a :: as, b :: bs => same a b && sameAll as bs
  | _, _ => false

/-- Whether every field is found with the same value in the other object. -/
def sameFields : List (String × Json) → List (String × Json) → Bool
  | [], _ => true
  | (name, a) :: rest, others =>
    (match others.find? (·.1 = name) with
      | some (_, b) => same a b
      | none => false) && sameFields rest others

end

end Json

end RuleScan
