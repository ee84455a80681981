import RuleScan.Decimal.Read

/-!
# Shortest decimal digits of a binary fraction

A double is `m * 2 ^ q` for whole numbers `m` and `q`.  The digits written for it are the fewest
that still read back as the same double: for one digit, two digits, and so on, the two neighbours
of the value on that decimal grid are tested against the interval of reals that round to it, in
exact arithmetic.
-/

namespace RuleScan.Decimal

/-- A finite double as `(-1)^negative * m * 2 ^ q`. -/
structure Binary where
  negative : Bool
  m : Nat
  q : Int
  /-- Whether the next smaller double is only half as far away as the next greater one. -/
  narrowBelow : Bool
  deriving Repr, DecidableEq, Inhabited

/-- The kinds of doubles. -/
inductive Class where
  | finite (b : Binary)
  | infinite (negative : Bool)
  | notANumber
  deriving Repr, DecidableEq, Inhabited

/-- The leading bit of a fraction, which is not written: two to the power 52. -/
def hidden : Nat := 4503599627370496

/-- Takes a double apart. -/
def classify (x : Float) : Class :=
  let bits : Nat := x.toBits.toNat
  let negative : Bool := bits ≥ Word.half
  let e : Nat := bits / hidden % 2048
  let f : Nat := bits % hidden
  if e = 2047 then if f = 0 then .infinite negative else .notANumber
  else if e = 0 then .finite ⟨negative, f, -1074, false⟩
  else .finite ⟨negative, f + hidden, (e : Int) - 1075, f = 0 && e > 1⟩

/-- The decimal digits of a value `0.d₁d₂... * 10 ^ exponent`, without trailing zeros. -/
structure Digits where
  digits : List Char
  exponent : Int
  deriving Repr, DecidableEq, Inhabited

/-- `a * 2 ^ s * 10 ^ t` as a fraction. -/
def scaled (a : Nat) (s t : Int) : Nat × Nat :=
  (a * Nat.pow 2 s.toNat * Nat.pow 10 t.toNat, Nat.pow 2 (-s).toNat * Nat.pow 10 (-t).toNat)

/-- The least `k` with `m * 2 ^ q < 10 ^ k`, looked for near the estimate from the number of
bits. -/
def magnitude (m : Nat) (q : Int) : Int :=
  let estimate := (((Nat.log2 m : Nat) : Int) + q) * 30103 / 100000
  let below (k : Int) : Bool := let (n, d) := scaled m q (-k); n < d
  if below (estimate - 1) then estimate - 1
  else if below estimate then estimate
  else if below (estimate + 1) then estimate + 1
  else estimate + 2

/-- The digits on the grid of `n` digits that read back as the value, if there are any. -/
def onGrid? (b : Binary) (k : Int) (n : Nat) : Option Nat :=
  let t := -(k - n)
  let s := b.q - 2
  let (value, den) := scaled (4 * b.m) s t
  let low := (scaled (4 * b.m - if b.narrowBelow then 1 else 2) s t).1
  let high := (scaled (4 * b.m + 2) s t).1
  let fits (c : Nat) : Bool :=
    if b.m % 2 = 0 then low ≤ c * den && c * den ≤ high
    else low < c * den && c * den < high
  let a := value / den
  match fits a, fits (a + 1) with
  | true, true => if value - a * den ≤ (a + 1) * den - value then some a else some (a + 1)
  | true, false => some a
  | false, true => some (a + 1)
  | false, false => none

/-- The fewest digits that read back as the value. -/
def shortest (b : Binary) : Digits :=
  if b.m = 0 then ⟨[], 0⟩
  else
    let k := magnitude b.m b.q
    match (List.range 17).findSome? fun i => (onGrid? b k (i + 1)).map fun a => (i + 1, a) with
    | none => ⟨[], 0⟩
    | some (n, a) =>
      let ds := Nat.toDigits 10 a
      let trimmed := (ds.reverse.dropWhile (· = '0')).reverse
      ⟨trimmed, k + ((ds.length : Int) - n)⟩

/-- Digits as a positional number. -/
def positional (d : Digits) : String :=
  if d.digits.isEmpty then "0"
  else if d.exponent ≤ 0 then
    "0." ++ String.ofList (List.replicate (-d.exponent).toNat '0' ++ d.digits)
  else
    let n := d.exponent.toNat
    if d.digits.length ≤ n then
      String.ofList (d.digits ++ List.replicate (n - d.digits.length) '0')
    else String.ofList (d.digits.take n) ++ "." ++ String.ofList (d.digits.drop n)

/-- Digits with an exponent of at least `width` digits. -/
def withExponent (width : Nat) (d : Digits) : String :=
  match d.digits with
  | [] => "0e+" ++ String.ofList (List.replicate width '0')
  | first :: rest =>
    let e := d.exponent - 1
    let ds := Nat.toDigits 10 e.natAbs
    let padded := List.replicate (width - ds.length) '0' ++ ds
    String.ofList [first] ++ (if rest.isEmpty then "" else "." ++ String.ofList rest) ++
      (if e < 0 then "e-" else "e+") ++ String.ofList padded

/-- Which exponents are written positionally, and how wide the others are. -/
structure Style where
  /-- The least decimal exponent written positionally. -/
  least : Int
  /-- The first one that no longer is. -/
  bound : Int
  exponentWidth : Nat
  deriving Repr, DecidableEq, Inhabited

/-- Values in JSON documents: an exponent below `1e-6` and from `1e21` on. -/
def jsonStyle : Style := ⟨-6, 21, 1⟩

/-- Values in general text: an exponent below `1e-4` and from `1e6` on. -/
def generalStyle : Style := ⟨-4, 6, 2⟩

/-- Values without an exponent. -/
def plainStyle : Style := ⟨-1000, 1000, 2⟩

/-- The text of a double. -/
def Style.text (style : Style) (x : Float) : String :=
  match classify x with
  | .notANumber => "NaN"
  | .infinite negative => if negative then "-Inf" else "+Inf"
  | .finite b =>
    let d := shortest b
    let sign := if b.negative then "-" else ""
    let e := d.exponent - 1
    if d.digits.isEmpty || (style.least ≤ e && e < style.bound) then sign ++ positional d
    else sign ++ withExponent style.exponentWidth d

end RuleScan.Decimal

/-!
## Doubles with a given number of decimals

The exact value of a double is rounded to so many places, a half to the even neighbour.
-/

namespace RuleScan.Decimal

/-- A quotient rounded to the nearest whole number, a half to the even one. -/
def roundQuotient (n d : Nat) : Nat :=
  let q := n / d
  let r := n % d
  if 2 * r < d then q
  else if 2 * r > d then q + 1
  else if q % 2 = 0 then q else q + 1

/-- A whole number with a point before its last `places` digits. -/
def withPoint (places n : Nat) : String :=
  let ds := Nat.toDigits 10 n
  let ds := List.replicate (places + 1 - ds.length) '0' ++ ds
  let whole := String.ofList (ds.take (ds.length - places))
  if places = 0 then whole else whole ++ "." ++ String.ofList (ds.drop (ds.length - places))

/-- A value with so many decimals. -/
def fixed (places : Nat) (b : Binary) : String :=
  let (n, d) := scaled b.m b.q places
  (if b.negative then "-" else "") ++ withPoint places (roundQuotient n d)

/-- A value as a number with one digit before the point, so many behind it, and a power of ten. -/
def scientific (places : Nat) (b : Binary) : String :=
  let (digits, e) : Nat × Int :=
    if b.m = 0 then (0, 0)
    else
      let e := magnitude b.m b.q - 1
      let (n, d) := scaled b.m b.q (places - e)
      let v := roundQuotient n d
      if v < Nat.pow 10 (places + 1) then (v, e) else (v / 10, e + 1)
  let eds := Nat.toDigits 10 e.natAbs
  (if b.negative then "-" else "") ++ withPoint places digits ++ (if e < 0 then "e-" else "e+") ++
    String.ofList (List.replicate (2 - eds.length) '0' ++ eds)

end RuleScan.Decimal
