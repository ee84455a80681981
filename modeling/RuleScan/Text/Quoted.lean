import RuleScan.Text.Space
import RuleScan.Unicode.Category

/-!
# Quoted text

How a text is quoted inside a message: between double quotes, on one line, with everything that
is not printable written as an escape.
-/

namespace RuleScan.Text

/-- The digits of `n` in hexadecimal, lower case, padded with zeros to `width`. -/
def hexPadded (width n : Nat) : String :=
  let digits := Nat.toDigits 16 n
  String.ofList (List.replicate (width - digits.length) '0' ++ digits)

/-- The escapes that have a letter of their own. -/
def namedEscape? : Char → Option String
  | '\x07' => some "\\a"
  | '\x08' => some "\\b"
  | '\x0c' => some "\\f"
  | '\n' => some "\\n"
  | '\r' => some "\\r"
  | '\t' => some "\\t"
  | '\x0b' => some "\\v"
  | _ => none

/-- One character inside quotes of the kind `quote`. -/
def quoteChar (quote : Char) (c : Char) : String :=
  if c = quote || c = '\\' then String.ofList ['\\', c]
  else if Unicode.isPrintable c.toNat then String.ofList [c]
  else match namedEscape? c with
    | some e => e
    | none =>
      let n := c.toNat
      if n < 0x20 || n = 0x7f then "\\x" ++ hexPadded 2 n
      else if n < 0x10000 then "\\u" ++ hexPadded 4 n
      else "\\U" ++ hexPadded 8 n

/-- A text between double quotes. -/
def quoted (s : String) : String :=
  "\"" ++ String.join (s.toList.map (quoteChar '"')) ++ "\""

/-- The pieces of bytes inside quotes; a byte outside any well-formed sequence is written by its
number. -/
def quotePieces : Bytes → List String
  | [] => []
  | b :: rest =>
    let r := firstRune b rest
    (if r.code = replacement && r.width = 1 then "\\x" ++ hexPadded 2 b.toNat
      else quoteChar '"' (Char.ofNat r.code)) :: quotePieces (rest.drop (r.width - 1))
termination_by bs => bs.length
decreasing_by simp only [List.length_drop, List.length_cons]; omega

/-- Bytes between double quotes. -/
def quotedBytes (bs : Bytes) : String := "\"" ++ String.join (quotePieces bs) ++ "\""

/-- A character between single quotes. -/
def quotedChar (c : Char) : String :=
  "'" ++ quoteChar '\'' c ++ "'"

/-- The value of an escape inside double quotes, from behind the backslash on: the bytes it stands
for and what follows. -/
def unescaped? : List Char → Option (Bytes × List Char)
  | 'x' :: a :: b :: rest => byteIn 16 [a, b] rest
  | 'u' :: a :: b :: c :: d :: rest => codeIn [a, b, c, d] rest
  | 'U' :: a :: b :: c :: d :: e :: f :: g :: h :: rest => codeIn [a, b, c, d, e, f, g, h] rest
  | c :: rest =>
    if c = '\\' || c = '"' then some ([c.toNat.toUInt8], rest)
    else match ("abfnrtv".toList.zip [7, 8, 12, 10, 13, 9, 11]).find? (·.1 = c) with
      | some (_, byte) => some ([byte], rest)
      | none => match rest with
        | d :: e :: rest => byteIn 8 [c, d, e] rest
        | _ => none
  | [] => none
where
  /-- The number that digits stand for. -/
  number (base : Nat) (ds : List Char) : Option Nat :=
    ds.foldlM (fun n c => do
      let v ← Unicode.hexDigit? c
      if v < base then some (n * base + v) else none) 0
  /-- A byte given by its number. -/
  byteIn (base : Nat) (ds rest : List Char) : Option (Bytes × List Char) := do
    let n ← number base ds
    if n < 256 then some ([n.toUInt8], rest) else none
  /-- A character given by its number. -/
  codeIn (ds rest : List Char) : Option (Bytes × List Char) := do
    let n ← number 16 ds
    if n.isValidChar then some (bytesOf (String.singleton (Char.ofNat n)), rest) else none

/-- The bytes of a text that stands between double quotes, from behind the first one on; `fuel`
bounds its length. -/
def unquotedBytes? : Nat → List Char → Option Bytes
  | _ + 1, ['"'] => some []
  | fuel + 1, '\\' :: rest => do
    let (b, rest) ← unescaped? rest
    return b ++ (← unquotedBytes? fuel rest)
  | fuel + 1, c :: rest =>
    if c = '"' || c = '\n' then none
    else do return bytesOf (String.singleton c) ++ (← unquotedBytes? fuel rest)
  | _, _ => none

/-- The text that stands between double quotes. -/
def unquoted? (s : String) : Option String :=
  match s.toList with
  | '"' :: rest => (unquotedBytes? rest.length rest).map textOf
  | _ => none

end RuleScan.Text
