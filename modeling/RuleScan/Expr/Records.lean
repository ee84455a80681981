import RuleScan.Expr.Typing
import RuleScan.Expr.Arithmetic
import RuleScan.Expr.Format
import RuleScan.Text.Base64

/-!
# Records

The record types that expressions can name, and the values that records of these types stand for.
-/

/-!
## Record types

A few record types can be named in expressions.  Most of them are only another way to write a
value: a record that holds one number is that number, or null.
-/

namespace RuleScan.Expr

/-- The record types. -/
inductive RecordType where
  /-- One value of a basic type; numbers may be `narrow`, with half as many bits. -/
  | wrapper (of : Ty) (narrow : Bool)
  | moment
  | duration
  /-- A value of any type together with the name of its type. -/
  | any
  /-- A document with named members, a list, and a document of any kind. -/
  | object
  | array
  | document
  | empty
  deriving Repr, DecidableEq, Inhabited

namespace RecordType

/-- The record types by their names. -/
def named : List (String × RecordType) :=
  [("BoolValue", .wrapper .bool false), ("BytesValue", .wrapper .bytes false),
   ("DoubleValue", .wrapper .double false), ("FloatValue", .wrapper .double true),
   ("Int64Value", .wrapper .int false), ("Int32Value", .wrapper .int true),
   ("UInt64Value", .wrapper .uint false), ("UInt32Value", .wrapper .uint true),
   ("StringValue", .wrapper .string false), ("Timestamp", .moment), ("Duration", .duration),
   ("Any", .any), ("Struct", .object), ("ListValue", .array), ("Value", .document),
   ("Empty", .empty)].map fun (name, t) => ("google.protobuf." ++ name, t)

/-- The record type of a name. -/
def ofName? (name : String) : Option RecordType := (named.find? (·.1 = name)).map (·.2)

/-- The type of the values of a record type. -/
def ty : RecordType → Ty
  | .wrapper t _ => .wrapper t
  | .moment => .timestamp
  | .duration => .duration
  | .any => .any
  | .object => .map .string .dyn
  | .array => .list .dyn
  | .document => .dyn
  | .empty => .record "google.protobuf.Empty"

/-- The fields of a record type. -/
def fields : RecordType → List (String × Ty)
  | .wrapper t _ => [("value", t)]
  | .moment | .duration => [("seconds", .int), ("nanos", .int)]
  | .any => [("type_url", .string), ("value", .bytes)]
  | .object => [("fields", .map .string .dyn)]
  | .array => [("values", .list .dyn)]
  | .document =>
    [("null_value", .int), ("number_value", .double), ("string_value", .string),
     ("bool_value", .bool), ("struct_value", .map .string .dyn), ("list_value", .list .dyn)]
  | .empty => []

/-- The record type that a type may be written as, by its name; a wrapped type always goes by its
widest form. -/
def nameOf? (t : Ty) : Option String :=
  match t with
  | .null => some "google.protobuf.NullValue"
  | t => (named.find? fun (_, r) => r.ty = t && r ≠ .empty).map (·.1)

end RecordType

/-- A number that has a name. -/
def namedNumbers : List (String × Int) := [("google.protobuf.NullValue.NULL_VALUE", 0)]

end RuleScan.Expr

/-!
## Values of record types

Evaluating a record yields the value that its type stands for.  Fields that are left out count as
zero, empty or false.
-/

namespace RuleScan.Expr

open RuleScan.Text RuleScan.Time

/-- How a value refuses to become part of a record. -/
def refusal (v : Val) (target : String) : String :=
  match v with
  | .bool _ => "type conversion error from bool to '" ++ target ++ "'"
  | .int _ => "unsupported type conversion from 'int' to " ++ target
  | .uint _ => "unsupported type conversion from 'uint' to " ++ target
  | .double _ => "type conversion error from 'Double' to '" ++ target ++ "'"
  | .string _ => "unsupported native conversion from string to '" ++ target ++ "'"
  | .bytes _ => "type conversion error from Bytes to '" ++ target ++ "'"
  | v => "type conversion error from '" ++ Val.spelledType v.typeName ++ "' to '" ++ target ++ "'"

/-- A field of a basic type, or its default. -/
def basicField (record field : String) (t : Ty) (narrow : Bool) (given : Option Val) : Outcome :=
  let fail (m : String) : Outcome := .error (.badField (record ++ "." ++ field) m)
  let target : String := match t with
    | .bool => "bool"
    | .bytes => "[]uint8"
    | .double => if narrow then "float32" else "float64"
    | .int => if narrow then "int32" else "int64"
    | .uint => if narrow then "uint32" else "uint64"
    | _ => "string"
  match t, given with
  | .bool, none => .ok (.bool false)
  | .bytes, none => .ok (.bytes [])
  | .double, none => .ok (.double 0.0)
  | .int, none => .ok (.int 0)
  | .uint, none => .ok (.uint 0)
  | _, none => .ok (.string "")
  | .bool, some (.bool b) => .ok (.bool b)
  | .bytes, some (.bytes b) => .ok (.bytes b)
  | .double, some (.double x) => .ok (.double (if narrow then x.toFloat32.toFloat else x))
  | .int, some (.int n) =>
    if narrow && (n < -2147483648 || n > 2147483647) then fail Failure.overflow.message
    else .ok (.int n)
  | .uint, some (.uint n) =>
    if narrow && n > 4294967295 then fail Failure.unsignedOverflow.message else .ok (.uint n)
  | .string, some (.string s) => .ok (.string s)
  | _, some v => fail (refusal v target)

/-- The greatest whole number up to which every one is a double. -/
def safeWhole : Nat := 9007199254740991

mutual

/-- A value as part of a document: numbers are doubles, and what a document cannot hold is
text. -/
def documentValue : Val → Except Failure Val
  | .int n => .ok (if n.natAbs ≤ safeWhole then .double (Val.doubleOf n) else .string (toString n))
  | .uint n => .ok (if n ≤ safeWhole then .double (Val.doubleOf n) else .string (toString n))
  | .bytes b => .ok (.string (Base64.encode b))
  | .duration n => .ok (.string (secondsText n))
  | .moment m => .ok (.string { m with ahead := 0 }.text)
  | .list _ es => do return .list .decoded (← documentValues es)
  | .map es => do return .map (← documentEntries es)
  | .type n => .error (.badPacking (refusal (.type n) "*structpb.Value"))
  | v => .ok v

/-- Values as parts of a document. -/
def documentValues : List Val → Except Failure (List Val)
  | [] => .ok []
  | v :: rest => do return (← documentValue v) :: (← documentValues rest)

/-- Entries as members of a document. -/
def documentEntries : List (Val × Val) → Except Failure (List (Val × Val))
  | [] => .ok []
  | (k, v) :: rest => do
    match k with
    | .string _ => return (k, ← documentValue v) :: (← documentEntries rest)
    | k => throw (.badPacking (refusal k "string"))

end

/-- The duration of seconds and nanoseconds, the longest there is if it is longer. -/
def saturated (n : Int) : Int := max intMin (min intMax n)

/-- The value of a record of a type with the given fields. -/
def RecordType.build (r : RecordType) (name : String) (fields : List (String × Val)) : Outcome :=
  let given (field : String) : Option Val := (fields.reverse.find? (·.1 = field)).map (·.2)
  let number (field : String) (narrow : Bool) : Except Failure Int := do
    match ← basicField name field .int narrow (given field) with
    | .int n => return n
    | _ => return 0
  match r with
  | .wrapper t narrow => basicField name "value" t narrow (given "value")
  | .moment => do
    let seconds ← number "seconds" false
    let nanos ← number "nanos" true
    return .moment (Moment.later { seconds } nanos)
  | .duration => do
    let seconds ← number "seconds" false
    let nanos ← number "nanos" true
    return .duration (saturated (seconds * 1000000000 + nanos))
  | .any => .error (.badPacking
      "anypb.UnmarshalNew() failed during type conversion: proto: invalid empty type URL")
  | .object => documentValue ((given "fields").getD (.map []))
  | .array => documentValue ((given "values").getD (.list .built []))
  | .document =>
    match fields.getLast? with
    | some ("null_value", _) | none => .ok .null
    | some (_, v) => documentValue v
  | .empty => .ok (.record name)

end RuleScan.Expr
