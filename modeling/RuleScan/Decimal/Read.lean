import RuleScan.Unicode.Ranges

/-!
# Numbers of the machine, and how fractions are read

A fraction is written in decimal digits with an optional exponent, or in hexadecimal ones with an
exponent of two, with an optional sign and with low lines between the digits.  The value is the
nearest double; a number beyond all doubles is infinite, and known to be too large.
-/

/-!
## Words of 64 bits

The bounds of whole numbers that fit into a word, with a sign and without one.
-/

namespace RuleScan.Word

/-- How many words there are: one more than the greatest number without a sign. -/
def size : Nat := 18446744073709551616

/-- One more than the greatest number with a sign. -/
def half : Nat := 9223372036854775808

/-- Whether a number with a sign fits. -/
def fits (n : Int) : Bool := -(half : Int) ≤ n && n < half

end RuleScan.Word

/-! ## Written fractions -/

namespace RuleScan.Decimal

/-- The double nearest to `mantissa * 10 ^ exponent`. -/
def nearest (mantissa : Nat) (exponent : Int) : Float :=
  let size : Int := (Nat.toDigits 10 mantissa).length + exponent
  if mantissa = 0 || size < -400 then 0.0
  else if size > 400 then 1.0 / 0.0
  else if exponent < 0 then Float.ofScientific mantissa true exponent.natAbs
  else Float.ofScientific mantissa false exponent.toNat

/-- The double nearest to `mantissa * 2 ^ exponent`. -/
def nearestBinary (mantissa : Nat) (exponent : Int) : Float :=
  if mantissa = 0 then 0.0
  else
    let size : Int := (Nat.log2 mantissa : Nat) + exponent
    if size > 1100 then 1.0 / 0.0
    else if size < -1200 then 0.0
    else Float.scaleB (Float.ofNat mantissa) exponent

/-- A number that was read. -/
structure Written where
  value : Float
  /-- Whether it is too large for a double. -/
  tooLarge : Bool := false

/-- The value of decimal digits. -/
def digitsNumber (ds : List Char) : Nat := ds.foldl (fun n c => n * 10 + (c.toNat - 48)) 0

/-- Whether low lines stand only between digits; `last` tells what precedes: a digit, a low line
or something else. -/
def linesBetween (isDigit : Char → Bool) (last : Char) : List Char → Bool
  | [] => last ≠ '_'
  | c :: rest =>
    if isDigit c then linesBetween isDigit '0' rest
    else if c = '_' then last = '0' && linesBetween isDigit '_' rest
    else last ≠ '_' && linesBetween isDigit '!' rest

/-- An exponent behind its mark: its value, if it is well formed. -/
def exponentValue? (cs : List Char) : Option Int :=
  let (negative, ds) := match cs with
    | '-' :: ds => (true, ds)
    | '+' :: ds => (false, ds)
    | ds => (false, ds)
  if ds.isEmpty || !ds.all Char.isDigit then none
  else
    let n : Int := min 100000 (digitsNumber (ds.dropWhile (· = '0') |>.take 7))
    some (if negative then -n else n)

/-- The digits before and behind the point, and what follows them. -/
def mantissaParts (isDigit : Char → Bool) (cs : List Char) :
    List Char × List Char × List Char :=
  let (whole, rest) := cs.span isDigit
  match rest with
  | '.' :: rest =>
    let (fraction, rest) := rest.span isDigit
    (whole, fraction, rest)
  | rest => (whole, [], rest)

/-- A number without sign and low lines in decimal. -/
def readDecimal? (cs : List Char) : Option Float := do
  let (whole, fraction, rest) := mantissaParts Char.isDigit cs
  if whole.isEmpty && fraction.isEmpty then none
  let e ← match rest with
    | [] => some 0
    | c :: rest => if c = 'e' || c = 'E' then exponentValue? rest else none
  return nearest (digitsNumber (whole ++ fraction)) (e - fraction.length)

/-- A number without sign, mark and low lines in hexadecimal. -/
def readHexadecimal? (cs : List Char) : Option Float := do
  let isHex (c : Char) : Bool := (Unicode.hexDigit? c).isSome
  let (whole, fraction, rest) := mantissaParts isHex cs
  let m ← Unicode.hexNumber? (whole ++ fraction)
  if whole.isEmpty && fraction.isEmpty then none
  match rest with
  | c :: rest =>
    if c = 'p' || c = 'P' then
      return nearestBinary m ((← exponentValue? rest) - 4 * fraction.length)
    else none
  | [] => none

/-- The words for numbers that are not finite. -/
def special? (cs : List Char) : Option Float :=
  let lower (cs : List Char) : String := (String.ofList cs).map Char.toLower
  let isInfinite (cs : List Char) : Bool := ["inf", "infinity"].contains (lower cs)
  match cs with
  | '-' :: rest => if isInfinite rest then some (-1.0 / 0.0) else none
  | '+' :: rest => if isInfinite rest then some (1.0 / 0.0) else none
  | cs =>
    if isInfinite cs then some (1.0 / 0.0)
    else if lower cs = "nan" then some (0.0 / 0.0)
    else none

/-- Reads a written fraction. -/
def read? (s : String) : Option Written :=
  match special? s.toList with
  | some x => some { value := x }
  | none => do
    let (negative, cs) := match s.toList with
      | '-' :: rest => (true, rest)
      | '+' :: rest => (false, rest)
      | cs => (false, cs)
    let bare := cs.filter (· ≠ '_')
    let (isHex, digits) := match bare with
      | '0' :: x :: rest => if x = 'x' || x = 'X' then (true, rest) else (false, bare)
      | bare => (false, bare)
    let isDigit (c : Char) : Bool := c.isDigit || (isHex && (Unicode.hexDigit? c).isSome)
    let apart := if isHex then linesBetween isDigit '0' (cs.drop 2)
      else linesBetween isDigit '!' cs
    if cs.contains '_' && !apart then none
    let x ← if isHex then readHexadecimal? digits else readDecimal? digits
    return { value := if negative then -x else x, tooLarge := x.isInf }

end RuleScan.Decimal
