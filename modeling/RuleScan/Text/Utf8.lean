/-!
# Bytes and the text they stand for

Files are bytes.  A line of a file is searched as a sequence of code points, but a match is
reported by its byte column, so decoding keeps the width of every code point.  A byte that
belongs to no well-formed sequence stands for U+FFFD and is one byte wide; decoding therefore
never fails and never loses its place.
-/

namespace RuleScan.Text

/-- The contents of a file. -/
abbrev Bytes := List UInt8

/-- A decoded code point and the number of bytes it took. -/
structure Rune where
  code : Nat
  width : Nat
  deriving Repr, DecidableEq, Inhabited

/-- The sum of some widths. -/
def total (widths : List Nat) : Nat := widths.foldr (· + ·) 0

/-- The code point that stands for a byte outside any well-formed sequence. -/
def replacement : Nat := 0xFFFD

/-- A byte that may follow the first byte of a sequence. -/
def isTail (b : UInt8) : Bool := 0x80 ≤ b && b ≤ 0xBF

/-- The bounds on the second byte of a three-byte sequence: overlong forms and surrogates are
refused by it. -/
def secondOfThree (b0 b1 : UInt8) : Bool :=
  if b0 = 0xE0 then 0xA0 ≤ b1 && b1 ≤ 0xBF
  else if b0 = 0xED then 0x80 ≤ b1 && b1 ≤ 0x9F
  else isTail b1

/-- The bounds on the second byte of a four-byte sequence: overlong forms and values past
U+10FFFF are refused by it. -/
def secondOfFour (b0 b1 : UInt8) : Bool :=
  if b0 = 0xF0 then 0x90 ≤ b1 && b1 ≤ 0xBF
  else if b0 = 0xF4 then 0x80 ≤ b1 && b1 ≤ 0x8F
  else isTail b1

/-- The low six bits of a tail byte. -/
def tailBits (b : UInt8) : Nat := b.toNat % 64

/-- The code point at the front of the bytes `b0 :: rest`. -/
def firstRune (b0 : UInt8) (rest : Bytes) : Rune :=
  if b0 < 0x80 then ⟨b0.toNat, 1⟩
  else if 0xC2 ≤ b0 && b0 ≤ 0xDF then
    match rest with
    | b1 :: _ => if isTail b1 then ⟨b0.toNat % 32 * 64 + tailBits b1, 2⟩ else ⟨replacement, 1⟩
    | [] => ⟨replacement, 1⟩
  else if 0xE0 ≤ b0 && b0 ≤ 0xEF then
    match rest with
    | b1 :: b2 :: _ =>
      if secondOfThree b0 b1 && isTail b2 then
        ⟨(b0.toNat % 16 * 64 + tailBits b1) * 64 + tailBits b2, 3⟩
      else ⟨replacement, 1⟩
    | _ => ⟨replacement, 1⟩
  else if 0xF0 ≤ b0 && b0 ≤ 0xF4 then
    match rest with
    | b1 :: b2 :: b3 :: _ =>
      if secondOfFour b0 b1 && isTail b2 && isTail b3 then
        ⟨((b0.toNat % 8 * 64 + tailBits b1) * 64 + tailBits b2) * 64 + tailBits b3, 4⟩
      else ⟨replacement, 1⟩
    | _ => ⟨replacement, 1⟩
  else ⟨replacement, 1⟩

/-- Decodes bytes into code points with their widths. -/
def decode : Bytes → List Rune
  | [] => []
  | b0 :: rest =>
    let r := firstRune b0 rest
    r :: decode (rest.drop (r.width - 1))
termination_by bs => bs.length
decreasing_by simp only [List.length_drop, List.length_cons]; omega

/-- The bytes of a text. -/
def bytesOf (s : String) : Bytes := s.toUTF8.toList

/-- The text that bytes stand for. -/
def textOf (bs : Bytes) : String :=
  String.ofList ((decode bs).map fun r => Char.ofNat r.code)

/-- The byte offset of the first occurrence of `needle`. -/
def indexOf? (needle : Bytes) (hay : Bytes) : Option Nat :=
  go hay 0
where
  /-- Looks for the needle at the front of what is left, `i` bytes in. -/
  go : Bytes → Nat → Option Nat
    | [], i => if needle.isEmpty then some i else none
    | b :: rest, i =>
      if needle.isPrefixOf (b :: rest) then some i else go rest (i + 1)

/-- Whether `needle` occurs in `hay`. -/
def containsBytes (needle hay : Bytes) : Bool := (indexOf? needle hay).isSome

/-- The pieces between occurrences of a byte; there is always at least one. -/
def splitBytes (separator : UInt8) (bs : Bytes) : List Bytes :=
  bs.foldr (fun b acc =>
    if b = separator then [] :: acc
    else match acc with
      | piece :: more => (b :: piece) :: more
      | [] => [[b]]) [[]]

/-- The number of bytes of a text. -/
def byteLength (s : String) : Nat := s.utf8ByteSize

end RuleScan.Text
