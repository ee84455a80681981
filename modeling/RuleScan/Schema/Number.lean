import RuleScan.Decimal.Shortest
import RuleScan.Json.Read

/-!
# Numbers against a schema

Numbers are compared as the decimal fractions that are written for them, so a tenth is a tenth
although no double is.  In messages they stand as English text has them: groups of three digits
with commas between them, and a power of ten with raised digits where the number is very large or
very small.
-/

namespace RuleScan.Schema

/-- A decimal fraction: a whole number divided by a power of ten. -/
structure Exact where
  number : Int
  places : Nat := 0
  deriving Repr, DecidableEq, Inhabited

namespace Exact

/-- The decimal fraction that is written for a double, if it is finite. -/
def ofFloat? (x : Float) : Option Exact :=
  match Decimal.classify x with
  | .finite b =>
    let d := Decimal.shortest b
    let n := Json.digitsValue d.digits
    let e := d.exponent - d.digits.length
    let n : Int := n * Nat.pow 10 e.toNat
    some ⟨if b.negative then -n else n, (-e).toNat⟩
  | _ => none

/-- The decimal fraction that a value is. -/
def ofJson? : Json → Option Exact
  | .int n => some ⟨n, 0⟩
  | .float x => ofFloat? x
  | _ => none

/-- The two numbers over a common power of ten. -/
def aligned (a b : Exact) : Int × Int :=
  (a.number * Nat.pow 10 b.places, b.number * Nat.pow 10 a.places)

/-- Whether a number is less than another one. -/
def less (a b : Exact) : Bool := let (m, n) := a.aligned b; m < n

/-- Whether two numbers are the same. -/
def same (a b : Exact) : Bool := let (m, n) := a.aligned b; m == n

/-- Whether a number is whole. -/
def isWhole (a : Exact) : Bool := a.number % (Nat.pow 10 a.places : Nat) == 0

/-- The whole number, if it is one. -/
def whole? (a : Exact) : Option Int :=
  if a.isWhole then some (a.number / (Nat.pow 10 a.places : Nat)) else none

/-- Whether a number is a whole multiple of another one. -/
def isMultipleOf (a b : Exact) : Bool := let (m, n) := a.aligned b; n != 0 && m % n == 0

/-- The nearest double. -/
def toFloat (a : Exact) : Float :=
  Json.nearestFloat (decide (a.number < 0)) a.number.natAbs (-(a.places : Int))

end Exact

/-- Digits with a comma before every group of three, counted from the end. -/
def groupDigits (ds : List Char) : List Char :=
  let rec go : Nat → List Char → List Char
    | _, [] => []
    | 3, d :: rest => ',' :: d :: go 1 rest
    | k, d :: rest => d :: go (k + 1) rest
  (go 0 ds.reverse).reverse

/-- A whole number with commas between groups of three digits. -/
def grouped (n : Int) : String :=
  (if n < 0 then "-" else "") ++ String.ofList (groupDigits (Nat.toDigits 10 n.natAbs))

/-- A raised digit. -/
def raised (d : Char) : Char :=
  match d with
  | '1' => '\u00b9'
  | '2' => '\u00b2'
  | '3' => '\u00b3'
  | d => Char.ofNat (0x2070 + (d.toNat - 48))

/-- The power of ten of a number in text, with at least two raised digits. -/
def powerOfTen (e : Int) : String :=
  let ds := Nat.toDigits 10 e.natAbs
  "\u00d710" ++ (if e < 0 then "\u207b" else "") ++
    String.ofList ((List.replicate (2 - ds.length) '0' ++ ds).map raised)

/-- A double in messages: positional for exponents from `-4` to `5`. -/
def floatMessage (x : Float) : String :=
  match Decimal.classify x with
  | .notANumber => "NaN"
  | .infinite negative => if negative then "-\u221e" else "\u221e"
  | .finite b =>
    let d := Decimal.shortest b
    let sign := if b.negative then "-" else ""
    let e := d.exponent - 1
    if d.digits.isEmpty || (-4 ≤ e && e < 6) then
      let cs := (Decimal.positional d).toList
      let whole := cs.takeWhile (· ≠ '.')
      sign ++ String.ofList (groupDigits whole ++ cs.drop whole.length)
    else
      let front := d.digits.take 1
      let rest := d.digits.drop 1
      sign ++ String.ofList front ++ (if rest.isEmpty then "" else "." ++ String.ofList rest) ++
        powerOfTen e

end RuleScan.Schema
