import RuleScan.Text.Utf8

/-!
# Bytes in the 64 characters of Base64

Three bytes are written as four characters; an incomplete group at the end is filled up with
equals signs.
-/

namespace RuleScan.Text.Base64

/-- The characters, by their values. -/
def alphabet : List Char :=
  "ABCDEFGHIJKLMNOPQRSTUVWXYZabcdefghijklmnopqrstuvwxyz0123456789+/".toList

/-- The character of a value below 64. -/
def digit (n : Nat) : Char := alphabet.getD (n % 64) 'A'

/-- Bytes as characters. -/
def encodeChars : Bytes → List Char
  | a :: b :: c :: rest =>
    let n := a.toNat * 65536 + b.toNat * 256 + c.toNat
    digit (n / 262144) :: digit (n / 4096) :: digit (n / 64) :: digit n :: encodeChars rest
  | [a, b] =>
    let n := a.toNat * 1024 + b.toNat * 4
    [digit (n / 4096), digit (n / 64), digit n, '=']
  | [a] =>
    let n := a.toNat * 16
    [digit (n / 64), digit n, '=', '=']
  | [] => []

/-- Bytes as text. -/
def encode (b : Bytes) : String := String.ofList (encodeChars b)

/-- The value of a character. -/
def value? (c : Char) : Option Nat := alphabet.idxOf? c

/-- The bytes of characters in groups of four; only the last group may be filled up. -/
def decodeChars? : List Char → Option Bytes
  | [] => some []
  | [a, b, '=', '='] => do
    let n := (← value? a) * 64 + (← value? b)
    return [(n / 16).toUInt8]
  | [a, b, c, '='] => do
    let n := (← value? a) * 4096 + (← value? b) * 64 + (← value? c)
    return [(n / 1024).toUInt8, (n / 4).toUInt8]
  | a :: b :: c :: d :: rest => do
    let n := (← value? a) * 262144 + (← value? b) * 4096 + (← value? c) * 64 + (← value? d)
    return (n / 65536).toUInt8 :: (n / 256).toUInt8 :: n.toUInt8 :: (← decodeChars? rest)
  | _ => none

/-- The bytes of a text; line ends in it are skipped. -/
def decode? (s : String) : Option Bytes :=
  decodeChars? (s.toList.filter fun c => c ≠ '\n' && c ≠ '\r')

/-- The bytes of the groups of four characters at the front that are well formed; a group that is
filled up ends them. -/
def decodeFront : List Char → Bytes
  | a :: b :: c :: d :: rest =>
    match value? a, value? b, value? c, value? d with
    | some a, some b, some c, some d =>
      let n := a * 262144 + b * 4096 + c * 64 + d
      (n / 65536).toUInt8 :: (n / 256).toUInt8 :: n.toUInt8 :: decodeFront rest
    | some a, some b, some c, none =>
      let n := a * 4096 + b * 64 + c
      if d = '=' then [(n / 1024).toUInt8, (n / 4).toUInt8] else []
    | some a, some b, none, none =>
      if c = '=' && d = '=' then [((a * 64 + b) / 16).toUInt8] else []
    | _, _, _, _ => []
  | _ => []

/-- As many bytes of a text as can be read; line ends in it are skipped. -/
def decodeSome (s : String) : Bytes :=
  decodeFront (s.toList.filter fun c => c ≠ '\n' && c ≠ '\r')

end RuleScan.Text.Base64
