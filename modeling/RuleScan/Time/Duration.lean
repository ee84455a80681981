import RuleScan.Decimal.Read
import RuleScan.Json.Read
import RuleScan.Text.Quoted

/-!
# Durations in words

A duration such as `2m30s` or `1.5h`: numbers with units, one after the other, with an optional
sign in front.  It is counted in nanoseconds and has to fit into 64 bits with a sign.
-/

namespace RuleScan.Duration

/-- Why a text is no duration. -/
inductive Error where
  | invalid (text : String)
  | missingUnit (text : String)
  | unknownUnit (name text : String)
  deriving Repr, DecidableEq, Inhabited

/-- Bytes between quotes; those beyond ASCII and control characters are written by their
number. -/
def quotedBytes (bs : Text.Bytes) : String :=
  let piece (b : UInt8) : String :=
    if b < 0x20 || 0x80 ≤ b then "\\x" ++ Text.hexPadded 2 b.toNat
    else if b = 0x22 || b = 0x5c then String.ofList ['\\', Char.ofNat b.toNat]
    else String.ofList [Char.ofNat b.toNat]
  "\"" ++ String.join (bs.map piece) ++ "\""

/-- A text between quotes, by its bytes. -/
def quoted (text : String) : String := quotedBytes (Text.bytesOf text)

/-- The text of the refusal. -/
def Error.message : Error → String
  | .invalid text => "time: invalid duration " ++ quoted text
  | .missingUnit text => "time: missing unit in duration " ++ quoted text
  | .unknownUnit name text =>
    "time: unknown unit " ++ quoted name ++ " in duration " ++ quoted text

/-- The nanoseconds of a unit. -/
def unit? (name : String) : Option Nat :=
  if name = "ns" then some 1
  else if name = "us" || name = "\u00b5s" || name = "\u03bcs" then some 1000
  else if name = "ms" then some 1000000
  else if name = "s" then some 1000000000
  else if name = "m" then some 60000000000
  else if name = "h" then some 3600000000000
  else none

/-- The greatest magnitude. -/
def limit : Nat := Word.half

/-- The digits behind a point as a number and the power of ten that they are divided by; digits
that would take it past the limit are left out. -/
def fractionOf (digits : List Char) : Nat × Nat :=
  let step (acc : Nat × Nat × Bool) (c : Char) : Nat × Nat × Bool :=
    let (x, scale, full) := acc
    let y := x * 10 + (c.toNat - 48)
    if full || x > (limit - 1) / 10 || y > limit then (x, scale, true)
    else (y, scale * 10, false)
  let (x, scale, _) := digits.foldl step (0, 1, false)
  (x, scale)

/-- Whether a character ends a unit. -/
def endsUnit (c : Char) : Bool := c = '.' || c.isDigit

/-- The nanoseconds of one number with its unit, and what follows them. -/
def part (text : String) (cs : List Char) : Except Error (Nat × List Char) := do
  let (whole, rest) := cs.span Char.isDigit
  let (fraction, rest) : List Char × List Char := match rest with
    | '.' :: r => r.span Char.isDigit
    | r => ([], r)
  if whole.isEmpty && fraction.isEmpty then throw (.invalid text)
  let v := Json.digitsValue whole
  if v > limit then throw (.invalid text)
  let (name, rest) := rest.span fun c => !endsUnit c
  if name.isEmpty then throw (.missingUnit text)
  match unit? (String.ofList name) with
  | none => throw (.unknownUnit (String.ofList name) text)
  | some u =>
    if v > limit / u then throw (.invalid text)
    let (f, scale) := fractionOf fraction
    let more := if f = 0 then 0
      else (Float.ofNat f * (Float.ofNat u / Float.ofNat scale)).toUInt64.toNat
    if v * u + more > limit then throw (.invalid text)
    return (v * u + more, rest)

/-- The sum of all parts. -/
def parts (text : String) (fuel : Nat) (total : Nat) (cs : List Char) : Except Error Nat :=
  match fuel, cs with
  | _, [] => .ok total
  | 0, _ => .error (.invalid text)
  | fuel + 1, cs => do
    let (n, rest) ← part text cs
    let total := (total + n) % Word.size
    if total > limit then throw (.invalid text)
    parts text fuel total rest

/-- The nanoseconds that a text means. -/
def parse (text : String) : Except Error Int := do
  let (negative, cs) : Bool × List Char := match text.toList with
    | '-' :: rest => (true, rest)
    | '+' :: rest => (false, rest)
    | cs => (false, cs)
  if cs = ['0'] then return 0
  if cs.isEmpty then throw (.invalid text)
  let n ← parts text cs.length 0 cs
  if negative then return -n
  if n > limit - 1 then throw (.invalid text)
  return n

/-! ## Durations as texts -/

/-- A number of units with a fraction of so many digits, without zeros at its end. -/
def fractional (n digits : Nat) : String :=
  let one := Nat.pow 10 digits
  let ds := Nat.toDigits 10 (n % one)
  let padded := List.replicate (digits - ds.length) '0' ++ ds
  let kept := (padded.reverse.dropWhile (· = '0')).reverse
  toString (n / one) ++ if kept.isEmpty then "" else "." ++ String.ofList kept

/-- A duration in the form in which it is read, with the largest units that it fills. -/
def text (nanos : Int) : String :=
  let n := nanos.natAbs
  let seconds := n / 1000000000
  let body :=
    if n = 0 then "0s"
    else if n < 1000 then toString n ++ "ns"
    else if n < 1000000 then fractional n 3 ++ "\u00b5s"
    else if n < 1000000000 then fractional n 6 ++ "ms"
    else
      let rest := fractional (n % 60000000000) 9 ++ "s"
      if seconds < 60 then rest
      else if seconds < 3600 then toString (seconds / 60) ++ "m" ++ rest
      else toString (seconds / 3600) ++ "h" ++ toString (seconds / 60 % 60) ++ "m" ++ rest
  (if nanos < 0 then "-" else "") ++ body

end RuleScan.Duration
