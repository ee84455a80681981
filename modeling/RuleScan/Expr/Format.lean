import RuleScan.Decimal.Shortest
import RuleScan.Decimal.Read
import RuleScan.Expr.Typing
import RuleScan.Expr.Value
import RuleScan.Text.Quoted

/-!
# Texts with gaps

The function `format` fills the gaps of a text, such as `%s` and `%.2f`, with the values of a
list.  When both are written out, the gaps are compared with the types of the values before
anything is evaluated.
-/

namespace RuleScan.Expr

open RuleScan.Text

/-- What is written into a gap. -/
inductive Clause where
  | text
  | decimal
  | fixed (places : Nat)
  | scientific (places : Nat)
  | binary
  | hexadecimal (upper : Bool)
  | octal
  deriving Repr, DecidableEq, Inhabited

namespace Clause

/-- The complaint about a value that a gap does not take. -/
def complaint (c : Clause) (typeName : String) : String :=
  let what := match c with
    | .text => "string clause can only be used on strings, bools, bytes, ints, doubles, maps, " ++
      "lists, types, durations, and timestamps"
    | .decimal => "decimal clause can only be used on ints, uints, and doubles"
    | .fixed _ => "fixed-point clause can only be used on ints, uints, and doubles"
    | .scientific _ => "scientific clause can only be used on ints, uints, and doubles"
    | .binary => "only ints, uints, and bools can be formatted as binary"
    | .hexadecimal _ => "only ints, uints, bytes, and strings can be formatted as hex"
    | .octal => "octal clause can only be used on ints and uints"
  what ++ ", was given " ++ typeName

/-- Whether a gap takes values of a type. -/
def takes (c : Clause) (t : Ty) : Bool :=
  let t := match t with
    | .wrapper t => t
    | t => t
  match c, t with
  | _, .dyn => true
  | .text, t =>
    match t with
    | .any | .error | .record _ | .var _ | .param _ => false
    | _ => true
  | .decimal, .int | .decimal, .uint | .decimal, .double => true
  | .fixed _, .int | .fixed _, .uint | .fixed _, .double => true
  | .scientific _, .int | .scientific _, .uint | .scientific _, .double => true
  | .binary, .bool | .binary, .int | .binary, .uint => true
  | .hexadecimal _, .int | .hexadecimal _, .uint | .hexadecimal _, .string
  | .hexadecimal _, .bytes => true
  | .octal, .int | .octal, .uint => true
  | _, _ => false

end Clause

/-! ## Values in gaps -/

/-- A double without an exponent. -/
def doubleText (x : Float) : String :=
  match Decimal.classify x with
  | .notANumber => "NaN"
  | .infinite negative => if negative then "-Infinity" else "Infinity"
  | .finite _ => Decimal.plainStyle.text x

/-- A duration in seconds. -/
def secondsText (nanos : Int) : String :=
  let part (n : Int) : Float := Val.doubleOf n
  let seconds := part (nanos.tdiv 1000000000) + part (nanos.tmod 1000000000) / 1.0e9
  Decimal.plainStyle.text seconds ++ "s"

mutual

/-- A value as text: what is in lists and maps is written in the same way, and maps in the order
of their keys. -/
def plainText : Val → Except String String
  | .null => .ok "null"
  | .bool b => .ok (toString b)
  | .int n => .ok (toString n)
  | .uint n => .ok (toString n)
  | .double x => .ok (doubleText x)
  | .string s => .ok s
  | .bytes b => .ok (textOf b)
  | .duration n => .ok (secondsText n)
  | .moment m => .ok { m with ahead := 0 }.text
  | .type name => .ok name
  | .list _ es => do return "[" ++ ", ".intercalate (← plainTexts es) ++ "]"
  | .map es => do
    let pairs := (← plainEntries es).mergeSort fun a b => Val.orderBytes (bytesOf a.1) (bytesOf b.1) != .gt
    return "\x7b" ++ ", ".intercalate (pairs.map fun (k, v) => k ++ ": " ++ v) ++ "\x7d"
  | .record name => .error (Clause.text.complaint name)

/-- Values as texts. -/
def plainTexts : List Val → Except String (List String)
  | [] => .ok []
  | v :: rest => do return (← plainText v) :: (← plainTexts rest)

/-- Entries as texts. -/
def plainEntries : List (Val × Val) → Except String (List (String × String))
  | [] => .ok []
  | (k, v) :: rest => do return (← plainText k, ← plainText v) :: (← plainEntries rest)

end

/-- A whole number in some base. -/
def inBase (base : Nat) (upper : Bool) (n : Int) : String :=
  let ds := Nat.toDigits base n.natAbs
  (if n < 0 then "-" else "") ++ String.ofList (if upper then ds.map Char.toUpper else ds)

/-- Bytes as pairs of hexadecimal digits. -/
def hexText (upper : Bool) (b : Bytes) : String :=
  let ds := (String.join (b.map fun x => hexPadded 2 x.toNat)).toList
  String.ofList (if upper then ds.map Char.toUpper else ds.map Char.toLower)

/-- What is written for a value into a gap, or a complaint. -/
def Clause.fill (c : Clause) (v : Val) : Except String String :=
  let refuse : Except String String := .error (c.complaint v.typeName)
  let withDouble (write : Decimal.Binary → String) (x : Float) : String :=
    match Decimal.classify x with
    | .finite b => write b
    | _ => doubleText x
  let number (write : Decimal.Binary → String) : Except String String :=
    match v with
    | .int n => .ok (withDouble write (Val.doubleOf n))
    | .uint n => .ok (withDouble write (Val.doubleOf n))
    | .double x => .ok (withDouble write x)
    | _ => refuse
  match c, v with
  | .text, v => plainText v
  | .decimal, .int n => .ok (toString n)
  | .decimal, .uint n => .ok (toString n)
  | .decimal, .double x => .ok (doubleText x)
  | .fixed places, _ => number (Decimal.fixed places)
  | .scientific places, _ => number (Decimal.scientific places)
  | .binary, .bool b => .ok (if b then "1" else "0")
  | .binary, .int n => .ok (inBase 2 false n)
  | .binary, .uint n => .ok (inBase 2 false n)
  | .hexadecimal upper, .int n => .ok (inBase 16 upper n)
  | .hexadecimal upper, .uint n => .ok (inBase 16 upper n)
  | .hexadecimal upper, .string s => .ok (hexText upper (bytesOf s))
  | .hexadecimal upper, .bytes b => .ok (hexText upper b)
  | .octal, .int n => .ok (inBase 8 false n)
  | .octal, .uint n => .ok (inBase 8 false n)
  | _, _ => refuse

/-! ## Gaps -/

/-- How many places are written if nothing is said. -/
def defaultPlaces : Nat := 6

/-- The number of places at the front, and what follows it. -/
def places? (s : List Char) : Except String (Nat × List Char) :=
  match s with
  | '.' :: rest =>
    let ds := rest.takeWhile Char.isDigit
    let after := rest.dropWhile Char.isDigit
    let refuse (why : String) : Except String (Nat × List Char) :=
      .error ("error while parsing precision: error while converting precision to integer: " ++
        "strconv.Atoi: parsing " ++ quoted (String.ofList ds) ++ ": " ++ why)
    let n := Decimal.digitsNumber ds
    if after.isEmpty then
      .error "error while parsing precision: could not find end of precision specifier"
    else if ds.isEmpty then refuse "invalid syntax"
    else if n ≥ Word.half then refuse "value out of range"
    else .ok (n, after)
  | s => .ok (defaultPlaces, s)

/-- The gap behind a percent sign, and what follows it. -/
def clause? (s : List Char) : Except String (Clause × List Char) := do
  let (places, rest) ← places? s
  match rest with
  | 's' :: rest => return (.text, rest)
  | 'd' :: rest => return (.decimal, rest)
  | 'f' :: rest => return (.fixed places, rest)
  | 'e' :: rest => return (.scientific places, rest)
  | 'b' :: rest => return (.binary, rest)
  | 'x' :: rest => return (.hexadecimal false, rest)
  | 'X' :: rest => return (.hexadecimal true, rest)
  | 'o' :: rest => return (.octal, rest)
  | c :: _ =>
    let first := (bytesOf (String.ofList [c])).headD 0
    throw ("unrecognized formatting clause \"" ++ String.ofList [Char.ofNat first.toNat] ++ "\"")
  | [] => throw "unexpected end of string"

/-- What is wrong with a text with gaps: as a whole, or in the gap for a value. -/
inductive FormatProblem where
  | whole (message : String)
  | value (offset : Nat) (message : String)
  deriving Repr, Inhabited

/-- Fills the gaps of a text for `count` values.  With `early`, a missing value is noticed before
anything else.  The result is the text and the number of gaps. -/
def fillGaps (count : Nat) (early : Bool) (fill : Nat → Clause → Except FormatProblem String) :
    Nat → List Char → Nat → List Char → Except FormatProblem (String × Nat)
  | 0, _, i, acc => .ok (String.ofList acc.reverse, i)
  | _ + 1, [], i, acc => .ok (String.ofList acc.reverse, i)
  | fuel + 1, '%' :: '%' :: rest, i, acc => fillGaps count early fill fuel rest i ('%' :: acc)
  | fuel + 1, '%' :: rest, i, acc => do
    let missing : FormatProblem := .whole ("index " ++ toString i ++ " out of range")
    if early && count ≤ i then throw missing
    if rest.isEmpty then throw (.whole "unexpected end of string")
    if count ≤ i then throw missing
    match clause? rest with
    | .error e => throw (.whole ("could not parse formatting clause: " ++ e))
    | .ok (c, rest) =>
      let s ← fill i c
      fillGaps count early fill fuel rest (i + 1) (s.toList.reverse ++ acc)
  | fuel + 1, c :: rest, i, acc => fillGaps count early fill fuel rest i (c :: acc)

/-- The words in front of a complaint about a value. -/
def duringFormatting (complaint : String) : String := "error during formatting: " ++ complaint

/-- Fills the gaps of a text with values. -/
def formatText (text : String) (values : List Val) : Outcome :=
  let fill (i : Nat) (c : Clause) : Except FormatProblem String :=
    match values[i]? with
    | some v => (c.fill v).mapError fun e => .whole (duringFormatting e)
    | none => .ok ""
  match fillGaps values.length true fill (text.length + 1) text.toList 0 [] with
  | .ok (s, _) => .ok (.string s)
  | .error (.whole m) | .error (.value _ m) => .error (.badFormat m)

/-! ## Gaps and types -/

mutual

/-- The offset and type of a part of an expression that cannot be written as text. -/
def unwritable? (typeAt : Nat → Ty) : Expr → Option (Nat × Ty)
  | .list p es => refused typeAt p <|> unwritableAmong? typeAt es
  | .map p es => refused typeAt p <|> unwritableEntry? typeAt es
  | e => refused typeAt e.offset
where
  /-- A place whose type cannot be written. -/
  refused (typeAt : Nat → Ty) (p : Nat) : Option (Nat × Ty) :=
    if Clause.text.takes (typeAt p) then none else some (p, typeAt p)

/-- The first of several expressions that cannot be written. -/
def unwritableAmong? (typeAt : Nat → Ty) : List Expr → Option (Nat × Ty)
  | [] => none
  | e :: rest => unwritable? typeAt e <|> unwritableAmong? typeAt rest

/-- The first key or value that cannot be written. -/
def unwritableEntry? (typeAt : Nat → Ty) : List (Expr × Expr) → Option (Nat × Ty)
  | [] => none
  | (k, v) :: rest => unwritable? typeAt k <|> unwritable? typeAt v <|> unwritableEntry? typeAt rest

end

/-- What is wrong with a call of `format` whose text and list are written out. -/
def formatIssue? (offset : Nat) (text : String) (values : List Expr) (typeAt : Nat → Ty) :
    Option Issue :=
  let fill (i : Nat) (c : Clause) : Except FormatProblem String :=
    match values[i]? with
    | none => .ok ""
    | some e =>
      let bad := match c with
        | .text => unwritable? typeAt e
        | c => if c.takes (typeAt e.offset) then none else some (e.offset, typeAt e.offset)
      match bad with
      | none => .ok ""
      | some (p, t) => .error (.value p (duringFormatting (c.complaint t.plainName)))
  match fillGaps values.length false fill (text.length + 1) text.toList 0 [] with
  | .error (.whole m) => some ⟨some offset, m⟩
  | .error (.value p m) => some ⟨some p, m⟩
  | .ok (_, gaps) =>
    if gaps < values.length then
      some ⟨some offset, "too many arguments supplied to string.format (expected " ++
        toString gaps ++ ", got " ++ toString values.length ++ ")"⟩
    else none

end RuleScan.Expr
