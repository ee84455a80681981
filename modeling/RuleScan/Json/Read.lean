import RuleScan.Json.Basic
import RuleScan.Text.Utf8

/-!
# Reading JSON

Accepts exactly the JSON grammar.  A number without fraction and exponent is read as an integer of
any size.  Half of a surrogate pair that stands alone becomes the replacement character.
-/

namespace RuleScan.Json

/-- Drops the blanks that JSON allows between tokens. -/
def skipBlanks (cs : List Char) : List Char :=
  cs.dropWhile fun c => c = ' ' || c = '\t' || c = '\n' || c = '\r'

/-- Why a text is no JSON. -/
inductive Fault where
  /-- The text ends before the value does. -/
  | ended
  /-- A character stands where none of its kind can. -/
  | malformed
  deriving Repr, DecidableEq, Inhabited

/-- The value of a hexadecimal digit. -/
def hexValue? (c : Char) : Option Nat :=
  if '0' ≤ c && c ≤ '9' then some (c.toNat - 48)
  else if 'a' ≤ c && c ≤ 'f' then some (c.toNat - 87)
  else if 'A' ≤ c && c ≤ 'F' then some (c.toNat - 55)
  else none

/-- The value of as many hexadecimal digits as asked for, after those read before. -/
def hexDigits (n acc : Nat) (cs : List Char) : Except Fault (Nat × List Char) :=
  match n, cs with
  | 0, cs => .ok (acc, cs)
  | _ + 1, [] => .error .ended
  | n + 1, c :: rest =>
    match hexValue? c with
    | some d => hexDigits n (acc * 16 + d) rest
    | none => .error .malformed

/-- The character of a numbered escape, and what follows it.  A pair of escapes may stand for one
character. -/
def numbered (cs : List Char) : Except Fault (Char × List Char) := do
  let (n, rest) ← hexDigits 4 0 cs
  let replaced := Char.ofNat Text.replacement
  if 0xD800 ≤ n && n < 0xDC00 then
    match rest with
    | '\\' :: 'u' :: more =>
      match hexDigits 4 0 more with
      | .ok (m, rest') =>
        if 0xDC00 ≤ m && m < 0xE000 then
          return (Char.ofNat (0x10000 + (n - 0xD800) * 0x400 + (m - 0xDC00)), rest')
        else return (replaced, rest)
      | .error _ => return (replaced, rest)
    | _ => return (replaced, rest)
  else if 0xDC00 ≤ n && n < 0xE000 then return (replaced, rest)
  else return (Char.ofNat n, rest)

/-- The character of an escape, after the backslash. -/
def escape : List Char → Except Fault (Char × List Char)
  | '"' :: rest => .ok ('"', rest)
  | '\\' :: rest => .ok ('\\', rest)
  | '/' :: rest => .ok ('/', rest)
  | 'b' :: rest => .ok ('\x08', rest)
  | 'f' :: rest => .ok ('\x0c', rest)
  | 'n' :: rest => .ok ('\n', rest)
  | 'r' :: rest => .ok ('\r', rest)
  | 't' :: rest => .ok ('\t', rest)
  | 'u' :: rest => numbered rest
  | [] => .error .ended
  | _ => .error .malformed

/-- The rest of a text after its opening quote; `fuel` bounds the number of characters. -/
def readText (fuel : Nat) (cs : List Char) (acc : List Char) : Except Fault (String × List Char) :=
  match fuel, cs with
  | 0, _ => .error .ended
  | _, [] => .error .ended
  | _ + 1, '"' :: rest => .ok (String.ofList acc.reverse, rest)
  | fuel + 1, '\\' :: rest =>
    match escape rest with
    | .ok (c, rest) => readText fuel rest (c :: acc)
    | .error e => .error e
  | fuel + 1, c :: rest =>
    if c.toNat < 0x20 then .error .malformed else readText fuel rest (c :: acc)

/-- The value of decimal digits. -/
def digitsValue (ds : List Char) : Nat := ds.foldl (fun n d => n * 10 + (d.toNat - 48)) 0

/-- The digits at the front, of which there has to be one, and the rest. -/
def someDigits (cs : List Char) : Except Fault (List Char × List Char) :=
  let (ds, rest) := cs.span Char.isDigit
  if ds.isEmpty then .error (if rest.isEmpty then .ended else .malformed) else .ok (ds, rest)

/-- The exponent of a number, if one is written. -/
def readExponent (cs : List Char) : Except Fault (Option Int × List Char) :=
  match cs with
  | c :: rest =>
    if c = 'e' || c = 'E' then do
      let (negative, rest) : Bool × List Char := match rest with
        | '-' :: r => (true, r)
        | '+' :: r => (false, r)
        | r => (false, r)
      let (ds, rest) ← someDigits rest
      let e : Int := digitsValue ds
      return (some (if negative then -e else e), rest)
    else .ok (none, cs)
  | [] => .ok (none, [])

/-- The fraction of a number, if one is written. -/
def readFraction (cs : List Char) : Except Fault (Option (List Char) × List Char) :=
  match cs with
  | '.' :: rest => (someDigits rest).map fun (ds, rest) => (some ds, rest)
  | cs => .ok (none, cs)

/-- The digits before the point; behind a zero there are none. -/
def readWhole (cs : List Char) : Except Fault (List Char × List Char) :=
  match cs with
  | '0' :: rest => .ok (['0'], rest)
  | cs => someDigits cs

/-- A decimal fraction `mantissa * 10 ^ exponent` as the nearest double. -/
def nearestFloat (negative : Bool) (mantissa : Nat) (exponent : Int) : Float :=
  let x := if exponent < 0 then Float.ofScientific mantissa true exponent.natAbs
    else Float.ofScientific mantissa false exponent.toNat
  if negative then -x else x

/-- A number. -/
def readNumber (cs : List Char) : Except Fault (Json × List Char) := do
  let (negative, cs) : Bool × List Char := match cs with
    | '-' :: r => (true, r)
    | r => (false, r)
  let (whole, cs) ← readWhole cs
  let (fraction, cs) ← readFraction cs
  let (exponent, cs) ← readExponent cs
  match fraction, exponent with
  | none, none =>
    let n : Int := digitsValue whole
    return (.int (if negative then -n else n), cs)
  | _, _ =>
    let ds := fraction.getD []
    return (.float (nearestFloat negative (digitsValue (whole ++ ds))
      (exponent.getD 0 - ds.length)), cs)

/-- Reads a word of the grammar, which stands for a value. -/
def readWord (w : String) (v : Json) (cs : List Char) : Except Fault (Json × List Char) :=
  if w.toList.isPrefixOf cs then .ok (v, cs.drop w.length)
  else .error (if cs.isPrefixOf w.toList then .ended else .malformed)

/-- What is wrong where another character was expected. -/
def faultAt (cs : List Char) : Fault := if cs.isEmpty then .ended else .malformed

mutual

/-- A value and what follows it. -/
def readValue (fuel : Nat) (cs : List Char) : Except Fault (Json × List Char) :=
  match fuel with
  | 0 => .error .ended
  | fuel + 1 =>
    match skipBlanks cs with
    | [] => .error .ended
    | '"' :: rest => (readText (rest.length + 1) rest []).map fun (s, r) => (.string s, r)
    | '[' :: rest =>
      match skipBlanks rest with
      | ']' :: rest => .ok (.array [], rest)
      | rest => (readElements fuel rest []).map fun (vs, r) => (.array vs, r)
    | '\x7b' :: rest =>
      match skipBlanks rest with
      | '\x7d' :: rest => .ok (.object [], rest)
      | rest => (readFields fuel rest []).map fun (fs, r) => (.object fs, r)
    | c :: rest =>
      if c = 't' then readWord "true" (.bool true) (c :: rest)
      else if c = 'f' then readWord "false" (.bool false) (c :: rest)
      else if c = 'n' then readWord "null" .null (c :: rest)
      else readNumber (c :: rest)

/-- The elements of a list up to its end. -/
def readElements (fuel : Nat) (cs : List Char) (acc : List Json) :
    Except Fault (List Json × List Char) :=
  match fuel with
  | 0 => .error .ended
  | fuel + 1 =>
    match readValue fuel cs with
    | .error e => .error e
    | .ok (v, rest) =>
      match skipBlanks rest with
      | ',' :: rest => readElements fuel rest (v :: acc)
      | ']' :: rest => .ok ((v :: acc).reverse, rest)
      | rest => .error (faultAt rest)

/-- The fields of an object up to its end. -/
def readFields (fuel : Nat) (cs : List Char) (acc : List (String × Json)) :
    Except Fault (List (String × Json) × List Char) :=
  match fuel with
  | 0 => .error .ended
  | fuel + 1 =>
    match skipBlanks cs with
    | '"' :: rest =>
      match readText (rest.length + 1) rest [] with
      | .error e => .error e
      | .ok (name, rest) =>
        match skipBlanks rest with
        | ':' :: rest =>
          match readValue fuel rest with
          | .error e => .error e
          | .ok (v, rest) =>
            match skipBlanks rest with
            | ',' :: rest => readFields fuel rest ((name, v) :: acc)
            | '\x7d' :: rest => .ok (((name, v) :: acc).reverse, rest)
            | rest => .error (faultAt rest)
        | rest => .error (faultAt rest)
    | rest => .error (faultAt rest)

end

/-- The value at the front of a text, and what follows it. -/
def front (text : String) : Except Fault (Json × List Char) :=
  let cs := text.toList
  readValue (2 * cs.length + 2) cs

/-- The value of a JSON document. -/
def parse (text : String) : Option Json :=
  match front text with
  | .ok (v, rest) => if (skipBlanks rest).isEmpty then some v else none
  | .error _ => none

end RuleScan.Json
