import RuleScan.Decimal.Read
import RuleScan.Decimal.Shortest
import RuleScan.Expr.Syntax
import RuleScan.Regex.Parse
import RuleScan.Text.Space
import RuleScan.Time.Duration
import RuleScan.Time.Moment

/-!
# Values of scope expressions

The values expressions evaluate to, how they are compared, and what can go wrong when they are
computed.  Numbers of different types are equal when they denote the same number, as far as
doubles tell; values of otherwise different types are just different.
-/

namespace RuleScan.Expr

open RuleScan.Text RuleScan.Time

/-- How a list came about; it shows only in messages. -/
inductive ListKind where
  /-- From values. -/
  | built
  /-- From texts. -/
  | texts
  /-- From two lists, one behind the other. -/
  | joined
  /-- From a document. -/
  | decoded
  deriving Repr, DecidableEq, Inhabited

/-- Values. -/
inductive Val where
  | null
  | bool (b : Bool)
  | int (n : Int)
  | uint (n : Nat)
  | double (x : Float)
  | string (s : String)
  | bytes (b : Bytes)
  /-- A duration in nanoseconds. -/
  | duration (nanos : Int)
  | moment (m : Moment)
  | list (kind : ListKind) (elements : List Val)
  | map (entries : List (Val × Val))
  | type (name : String)
  /-- A record without fields. -/
  | record (name : String)
  deriving Repr, Inhabited

/-- What can go wrong. -/
inductive Failure where
  | noSuchKey (key : String)
  | outOfBounds (index : String)
  | badIndexType (type : String)
  | badIndexValue (value : String)
  | badQualifier (kind : String)
  | overflow
  | unsignedOverflow
  | durationOverflow
  | momentOverflow
  | divisionByZero
  | modulusByZero
  | unordered
  | conversion (source target : String)
  | notText
  | noOverload
  | noOverloadNamed (function : String)
  | noOverloadFor (function : String) (types : List String)
  | unhashable (kind : String)
  | notIterable (type : String)
  | notComparable
  | notAlike
  | badRegex (cause : Regex.ParseError)
  | badGlob (message : String)
  | badZone (message : String)
  | badFormat (message : String)
  | badField (field message : String)
  | badPacking (message : String)
  | outOfRange (index : Int)
  | badSubstring (start stop : Int)
  | badSlice (start stop : Int) (why : String)
  | badJoin (element : String)
  | negativeLevel
  | noSuchAttribute (name : String)
  deriving Repr, Inhabited

/-- The text of a failure. -/
def Failure.message : Failure → String
  | .noSuchKey k => "no such key: " ++ k
  | .outOfBounds i => "index out of bounds: " ++ i
  | .badIndexType t => "unsupported index type '" ++ t ++ "' in list"
  | .badIndexValue v => "unsupported index value " ++ v ++ " in list"
  | .badQualifier k => "invalid qualifier type: " ++ k
  | .overflow => "integer overflow"
  | .unsignedOverflow => "unsigned integer overflow"
  | .durationOverflow => "duration overflow"
  | .momentOverflow => "timestamp overflow"
  | .divisionByZero => "division by zero"
  | .modulusByZero => "modulus by zero"
  | .unordered => "NaN values cannot be ordered"
  | .conversion a b => "type conversion error from '" ++ a ++ "' to '" ++ b ++ "'"
  | .notText => "invalid UTF-8 in bytes, cannot convert to string"
  | .noOverload => "no such overload"
  | .noOverloadNamed f => "no such overload: " ++ f
  | .noOverloadFor f types => "no such overload: " ++ f ++ "(" ++ ", ".intercalate types ++ ")"
  | .unhashable k => "internal error: runtime error: hash of unhashable type " ++ k
  | .notIterable t => "got '" ++ t ++ "', expected iterable type"
  | .notComparable => "list elements must be comparable"
  | .notAlike => "list elements must have the same type"
  | .badRegex e => e.message
  | .badGlob m => "pathMatch: " ++ m
  | .badZone m => m
  | .badFormat m => m
  | .badField f m => "field type conversion error for " ++ f ++ " value type: " ++ m
  | .badPacking m => m
  | .outOfRange i => "index out of range: " ++ toString i
  | .badSubstring a b =>
    "invalid substring range. start: " ++ toString a ++ ", end: " ++ toString b
  | .badSlice a b why => "cannot slice(" ++ toString a ++ ", " ++ toString b ++ "), " ++ why
  | .badJoin e => "join: invalid input: " ++ e
  | .negativeLevel => "level must be non-negative"
  | .noSuchAttribute n => "no such attribute(s): " ++ n

/-- The outcome of an evaluation. -/
abbrev Outcome := Except Failure Val

namespace Val

/-- The name of a value's type. -/
def typeName : Val → String
  | .null => "null_type"
  | .bool _ => "bool"
  | .int _ => "int"
  | .uint _ => "uint"
  | .double _ => "double"
  | .string _ => "string"
  | .bytes _ => "bytes"
  | .duration _ => "google.protobuf.Duration"
  | .moment _ => "google.protobuf.Timestamp"
  | .list _ _ => "list"
  | .map _ => "map"
  | .type _ => "type"
  | .record name => name

/-- A type in a message: lists and maps with the types of what is in them. -/
def spelledType (name : String) : String :=
  if name = "list" then "list(dyn)" else if name = "map" then "map(dyn, dyn)" else name

/-- How a value is held, for the message about a result that is no boolean. -/
def holderName : Val → String
  | .null => "structpb.NullValue"
  | .bool _ => "bool"
  | .int _ => "int64"
  | .uint _ => "uint64"
  | .double _ => "float64"
  | .string _ => "string"
  | .bytes _ => "[]uint8"
  | .duration _ => "time.Duration"
  | .moment _ => "time.Time"
  | .list .built _ => "[]ref.Val"
  | .list .texts _ => "[]string"
  | .list .joined _ => "[]interface \x7b\x7d"
  | .list .decoded _ => "*structpb.ListValue"
  | .map _ => "map[ref.Val]ref.Val"
  | .type _ => "string"
  | .record _ => "*emptypb.Empty"

/-- How a value is called when it cannot be iterated over or be an index. -/
def kindName : Val → String
  | .null => "types.Null"
  | .bool _ => "types.Bool"
  | .int _ => "types.Int"
  | .uint _ => "types.Uint"
  | .double _ => "types.Double"
  | .string _ => "types.String"
  | .bytes _ => "types.Bytes"
  | .duration _ => "types.Duration"
  | .moment _ => "types.Timestamp"
  | .list .joined _ => "*types.concatList"
  | .list _ _ => "*types.baseList"
  | .map _ => "*types.baseMap"
  | .type _ => "*types.Type"
  | .record _ => "*types.protoObj"

mutual

/-- A value in a message. -/
def shown : Val → String
  | .null => "0"
  | .bool b => toString b
  | .int n => toString n
  | .uint n => toString n
  | .double x => Decimal.generalStyle.text x
  | .string s => s
  | .bytes b => "[" ++ " ".intercalate (b.map fun x => toString x.toNat) ++ "]"
  | .duration n => Duration.text n
  | .moment m => m.longText
  | .list _ es => "[" ++ ", ".intercalate (shownAll es) ++ "]"
  | .map es => "\x7b" ++ ", ".intercalate (shownEntries es) ++ "\x7d"
  | .type n => spelledType n
  | .record n => n

/-- Values in a message. -/
def shownAll : List Val → List String
  | [] => []
  | v :: rest => v.shown :: shownAll rest

/-- Entries in a message. -/
def shownEntries : List (Val × Val) → List String
  | [] => []
  | (k, v) :: rest => (k.shown ++ ": " ++ v.shown) :: shownEntries rest

end

/-- The elements of a list. -/
def elements? : Val → Option (List Val)
  | .list _ es => some es
  | _ => none

/-- A list of texts. -/
def texts (ss : List String) : Val := .list .texts (ss.map .string)

/-- Whether a value is a number. -/
def isNumber : Val → Bool
  | .int _ | .uint _ | .double _ => true
  | _ => false

/-! ## Numbers -/

/-- The double nearest to a whole number. -/
def doubleOf (n : Int) : Float :=
  if n < 0 then -(Float.ofNat n.natAbs) else Float.ofNat n.natAbs

/-- The order of two doubles that are numbers. -/
def orderDoubles (a b : Float) : Ordering := if a < b then .lt else if b < a then .gt else .eq

/-- The order of a double and a whole number between two bounds. -/
def orderWithin (low high : Int) (x : Float) (n : Int) : Ordering :=
  if x < doubleOf low then .lt
  else if doubleOf high < x then .gt
  else orderDoubles x (doubleOf n)

/-- The order of two numbers; there is none with what is not a number. -/
def orderNumbers? (a b : Val) : Option Ordering :=
  let intLow : Int := -Word.half
  let intHigh : Int := Word.half - 1
  let uintHigh : Int := Word.size - 1
  let number? (x : Float) (o : Ordering) : Option Ordering := if x.isNaN then none else some o
  match a, b with
  | .double x, .double y => if x.isNaN || y.isNaN then none else some (orderDoubles x y)
  | .double x, .int n => number? x (orderWithin intLow intHigh x n)
  | .int n, .double x => number? x (orderWithin intLow intHigh x n).swap
  | .double x, .uint n => number? x (orderWithin 0 uintHigh x n)
  | .uint n, .double x => number? x (orderWithin 0 uintHigh x n).swap
  | .int m, .int n => some (compare m n)
  | .int m, .uint n => some (compare m n)
  | .uint m, .int n => some (compare (m : Int) n)
  | .uint m, .uint n => some (compare m n)
  | _, _ => none

/-- The whole number that a double is, if it is one. -/
def wholeOf? (x : Float) : Option Int :=
  match Decimal.classify x with
  | .finite b =>
    let m : Int := if b.negative then -(b.m : Int) else b.m
    if 0 ≤ b.q then some (m * Nat.pow 2 b.q.toNat)
    else
      let d := Nat.pow 2 (-b.q).toNat
      if m % d = 0 then some (m / d) else none
  | _ => none

/-- A number as a whole number with sign, if nothing is lost. -/
def exactInt? : Val → Option Int
  | .int n => some n
  | .uint n => if n < Word.half then some n else none
  | .double x =>
    (wholeOf? x).filter fun n => -(Word.half : Int) ≤ n && n < Word.half
  | _ => none

/-- A number as a whole number without sign, if nothing is lost. -/
def exactUint? : Val → Option Nat
  | .int n => if 0 ≤ n then some n.toNat else none
  | .uint n => some n
  | .double x =>
    ((wholeOf? x).filter fun (n : Int) => 0 ≤ n && n < Word.size).map Int.toNat
  | _ => none

/-! ## Equality -/

/-- Whether two values are one and the same key of a map.  Lists and maps never are. -/
def sameKey : Val → Val → Bool
  | .null, .null => true
  | .bool a, .bool b => a = b
  | .int a, .int b => a = b
  | .uint a, .uint b => a = b
  | .double a, .double b => a == b
  | .string a, .string b => a = b
  | .duration a, .duration b => a = b
  | .moment a, .moment b => a = b && a.ahead = 0
  | .type a, .type b => a = b
  | _, _ => false

/-- The entry of exactly this key. -/
def exactly? (entries : List (Val × Val)) (key : Val) : Option Val :=
  (entries.find? fun (k, _) => sameKey key k).map (·.2)

/-- The value of a key in a map.  A number is also looked for as a whole number of another type. -/
def lookup? (entries : List (Val × Val)) (key : Val) : Option Val :=
  let asInt := (exactInt? key).bind fun n => exactly? entries (.int n)
  let asUint := (exactUint? key).bind fun n => exactly? entries (.uint n)
  exactly? entries key <|> asInt <|> asUint

/-- Puts an entry into a map; of two values for one key the later one counts. -/
def insert (entries : List (Val × Val)) (key value : Val) : List (Val × Val) :=
  if (exactly? entries key).isSome then
    entries.map fun (k, v) => if sameKey key k then (k, value) else (k, v)
  else entries ++ [(key, value)]

mutual

/-- Equality of values. -/
def equal : Val → Val → Bool
  | .null, .null => true
  | .bool a, .bool b => a = b
  | .string a, .string b => a = b
  | .bytes a, .bytes b => a = b
  | .type a, .type b => a = b
  | .record a, .record b => a = b
  | .duration a, .duration b => a = b
  | .moment a, .moment b => a.order b = .eq
  | .list _ a, .list _ b => equalAll a b
  | .map a, .map b => a.length = b.length && equalEntries a b
  | a, b => isNumber a && isNumber b && orderNumbers? a b = some .eq

/-- Equality of lists of values. -/
def equalAll : List Val → List Val → Bool
  | [], [] => true
  | a :: as, b :: bs => equal a b && equalAll as bs
  | _, _ => false

/-- Whether every entry of the first map is in the second. -/
def equalEntries : List (Val × Val) → List (Val × Val) → Bool
  | [], _ => true
  | (k, v) :: rest, b => ((lookup? b k).any fun w => equal v w) && equalEntries rest b

end

/-! ## Order -/

/-- Bytes in dictionary order. -/
def orderBytes : Bytes → Bytes → Ordering
  | [], [] => .eq
  | [], _ :: _ => .lt
  | _ :: _, [] => .gt
  | a :: as, b :: bs => (compare a b).then (orderBytes as bs)

/-- Whether values of this kind can be compared at all. -/
def isComparable : Val → Bool
  | .bool _ | .int _ | .uint _ | .double _ | .string _ | .bytes _ | .duration _ | .moment _ => true
  | _ => false

/-- The order of two values. -/
def order (a b : Val) : Except Failure Ordering :=
  match a, b with
  | .bool a, .bool b => .ok (compare a.toNat b.toNat)
  | .string a, .string b => .ok (orderBytes (bytesOf a) (bytesOf b))
  | .bytes a, .bytes b => .ok (orderBytes a b)
  | .duration a, .duration b => .ok (compare a b)
  | .moment a, .moment b => .ok (a.order b)
  | a, b =>
    match orderNumbers? a b with
    | some o => .ok o
    | none =>
      let isNaN : Val → Bool
        | .double x => x.isNaN
        | _ => false
      if isNaN a || (a.isNumber && isNaN b) then .error .unordered else .error .noOverload

end Val

end RuleScan.Expr
