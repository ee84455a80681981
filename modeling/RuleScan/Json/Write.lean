import RuleScan.Json.Basic
import RuleScan.Decimal.Shortest
import RuleScan.Text.Base64
import RuleScan.Text.Quoted

/-!
# Writing JSON

A value is written on one line or with one field or element a line, two blanks deeper than what
holds it.  Characters that could end a script or a markup element in which the text is embedded
are written as escapes.
-/

namespace RuleScan.Json

open RuleScan.Text

/-- One character inside a JSON text. -/
def escapeChar (c : Char) : List Char :=
  match c with
  | '"' => ['\\', '"']
  | '\\' => ['\\', '\\']
  | '\x08' => ['\\', 'b']
  | '\x0c' => ['\\', 'f']
  | '\n' => ['\\', 'n']
  | '\r' => ['\\', 'r']
  | '\t' => ['\\', 't']
  | c =>
    let n := c.toNat
    if n < 0x20 || c = '<' || c = '>' || c = '&' || n = 0x2028 || n = 0x2029 then
      '\\' :: 'u' :: (hexPadded 4 n).toList
    else [c]

/-- A text as JSON. -/
def writeText (s : String) : String :=
  String.ofList ('"' :: (s.toList.flatMap escapeChar ++ ['"']))

/-- A text that is given by its bytes; a byte outside any well-formed sequence is written as the
escape of the character that stands for it. -/
def writeBytes (b : Bytes) : String :=
  let piece (r : Rune) : List Char :=
    if r.code = replacement && r.width = 1 then "\\ufffd".toList
    else escapeChar (Char.ofNat r.code)
  String.ofList ('"' :: ((decode b).flatMap piece ++ ['"']))

/-- A number with a fraction as JSON; what is no number is null. -/
def writeFloat (x : Float) : String :=
  if x.isNaN || x.isInf then "null" else Decimal.jsonStyle.text x

/-- A list of texts between brackets, on one line or below one another. -/
def enclose (opening closing : String) (depth : Option Nat) (items : List String) : String :=
  if items.isEmpty then opening ++ closing
  else match depth with
    | none => opening ++ ",".intercalate items ++ closing
    | some n =>
      let margin (k : Nat) : String := "\n" ++ String.ofList (List.replicate (2 * k) ' ')
      opening ++ margin (n + 1) ++ ("," ++ margin (n + 1)).intercalate items ++ margin n ++ closing

mutual

/-- A value at a depth; without a depth it is written on one line. -/
def writeAt (depth : Option Nat) : Json → String
  | .null => "null"
  | .bool b => if b then "true" else "false"
  | .int n => toString n
  | .float x => writeFloat x
  | .string s => writeText s
  | .bytes b => writeBytes b
  | .binary b => writeText (Base64.encode b)
  | .moment m => writeText m.text
  | .array elements => enclose "[" "]" depth (writeElements (depth.map (· + 1)) elements)
  | .object fields => enclose "\x7b" "\x7d" depth (writeFields (depth.map (· + 1)) fields)

/-- The elements of a list. -/
def writeElements (depth : Option Nat) : List Json → List String
  | [] => []
  | v :: rest => writeAt depth v :: writeElements depth rest

/-- The fields of an object. -/
def writeFields (depth : Option Nat) : List (String × Json) → List String
  | [] => []
  | (name, v) :: rest =>
    (writeText name ++ (if depth.isSome then ": " else ":") ++ writeAt depth v) ::
      writeFields depth rest

end

/-- A value on one line. -/
def compact (v : Json) : String := writeAt none v

/-- A value over several lines. -/
def pretty (v : Json) : String := writeAt (some 0) v

end RuleScan.Json
