import RuleScan.Text.Utf8
import RuleScan.Text.Quoted

/-!
# Characters and literals

The characters of a source file, and the literals that are written with them.
-/

/-!
## Characters of a source file

A source file is read character by character, and a message about it names a line and a column.
So every character knows its place, and whether it may stand in a file at all: bytes that are no
text, a zero byte and a byte order mark inside the file may not.  A mark at the very front is
skipped.
-/

namespace RuleScan.Schema.Source

/-- A place in a file: the number of bytes before it, its line and its column; lines and columns
count from one, columns in bytes. -/
structure Place where
  offset : Nat := 0
  line : Nat := 1
  column : Nat := 1
  deriving Repr, DecidableEq, Inhabited

/-- Something wrong at a place. -/
structure Mistake where
  place : Place
  text : String
  deriving Repr, DecidableEq, Inhabited

/-- A character of a source file. -/
structure Glyph where
  char : Char
  place : Place
  /-- What is wrong with the way it is written. -/
  wrong : Option String := none
  deriving Repr, DecidableEq, Inhabited

/-- What is wrong with a character, if something is. -/
def Glyph.mistake? (g : Glyph) : Option Mistake := g.wrong.map fun text => ⟨g.place, text⟩

/-- The mark that gives the order of bytes. -/
def byteOrderMark : Char := '\uFEFF'

/-- What is wrong with a code point that starts after `offset` bytes. -/
def wrongRune (offset : Nat) (r : Text.Rune) : Option String :=
  if r.code = 0 then some "illegal character NUL"
  else if r.code = Text.replacement && r.width = 1 then some "illegal UTF-8 encoding"
  else if r.code = byteOrderMark.toNat && 0 < offset then some "illegal byte order mark"
  else none

/-- The place behind a code point. -/
def Place.past (p : Place) (r : Text.Rune) : Place :=
  if r.code = 10 then ⟨p.offset + r.width, p.line + 1, 1⟩
  else ⟨p.offset + r.width, p.line, p.column + r.width⟩

/-- The characters of a text from a place on. -/
def glyphsFrom (p : Place) : List Text.Rune → List Glyph
  | [] => []
  | r :: rest => ⟨Char.ofNat r.code, p, wrongRune p.offset r⟩ :: glyphsFrom (p.past r) rest

/-- Whether a file starts like one in units of two bytes. -/
def inWideUnits : Text.Bytes → Bool
  | a :: b :: _ => (a = 0xFF && b = 0xFE) || (a = 0xFE && b = 0xFF)
  | _ => false

/-- A file as it is read: its characters and the place where it ends.  A line is opened by the
character in it, so that a file that ends with a line end ends on that line. -/
structure Script where
  glyphs : List Glyph
  stop : Place
  /-- The number of bytes. -/
  size : Nat
  deriving Repr, Inhabited

/-- The place behind the last of some characters. -/
def stopOf (size : Nat) (glyphs : List Glyph) : Place :=
  match glyphs.getLast? with
  | none => { offset := size }
  | some g => ⟨size, g.place.line, g.place.column + (size - g.place.offset)⟩

/-- The characters of a file. -/
def Script.ofBytes (bytes : Text.Bytes) : Script :=
  let size := bytes.length
  if inWideUnits bytes then
    let g : Glyph := ⟨Char.ofNat Text.replacement, {}, some "illegal UTF-8 encoding (got UTF-16)"⟩
    { glyphs := [g], stop := stopOf size [g], size }
  else
    let glyphs := glyphsFrom {} (Text.decode bytes)
    let read := match glyphs with
      | g :: rest => if g.char = byteOrderMark then rest else glyphs
      | [] => []
    { glyphs := read, stop := stopOf size glyphs, size }

/-- A character by its number and, if it can be shown, as itself. -/
def numbered (c : Char) : String :=
  "U+" ++ Text.asciiUpper (Text.hexPadded 4 c.toNat) ++
    if Unicode.isPrintable c.toNat then " '" ++ String.ofList [c] ++ "'" else ""

end RuleScan.Schema.Source

/-!
## Literals of a source file

Numbers, characters and texts as they are written in a Go file: how far each one reaches, and what
is wrong with it.  A literal that is wrong is still read to its end.
-/

namespace RuleScan.Schema.Source

/-- What is read from the front of some characters: what follows it, and what is wrong with it. -/
structure Extent where
  rest : List Glyph
  mistakes : List Mistake := []
  deriving Repr, Inhabited

/-- The place of the first of some characters, or else the end of the file. -/
def placeAt (stop : Place) (gs : List Glyph) : Place := (gs.head?.map Glyph.place).getD stop

/-- The characters before a place. -/
def upTo (p : Place) (gs : List Glyph) : List Glyph :=
  gs.takeWhile fun g => g.place.offset < p.offset

/-- The first of some characters. -/
def frontChar (gs : List Glyph) : Option Char := gs.head?.map Glyph.char

/-- The value of a hexadecimal digit; 16 for any other character. -/
def digitValue (c : Char) : Nat :=
  if '0' ≤ c && c ≤ '9' then c.toNat - '0'.toNat
  else if 'a' ≤ c && c ≤ 'f' then c.toNat - 'a'.toNat + 10
  else if 'A' ≤ c && c ≤ 'F' then c.toNat - 'A'.toNat + 10
  else 16

/-! ### Numbers -/

/-- How a number is written. -/
inductive Radix where
  | decimal
  /-- With a zero in front. -/
  | zero
  | octal
  | binary
  | hexadecimal
  deriving Repr, DecidableEq, Inhabited

namespace Radix

/-- The name of a number that is written so. -/
def name : Radix → String
  | .decimal => "decimal literal"
  | .zero | .octal => "octal literal"
  | .binary => "binary literal"
  | .hexadecimal => "hexadecimal literal"

/-- The number of digits there are. -/
def digits : Radix → Nat
  | .decimal => 10
  | .zero | .octal => 8
  | .binary => 2
  | .hexadecimal => 16

/-- Whether a character belongs to the digits of such a number; digits that are too large are read
as well. -/
def reads (r : Radix) (c : Char) : Bool :=
  c = '_' || (if r = .hexadecimal then digitValue c < 16 else digitValue c < 10)

/-- How the number at the front is written, and its characters behind the mark for that. -/
def ofFront : List Glyph → Radix × List Glyph
  | a :: b :: rest =>
    if a.char ≠ '0' then (.decimal, a :: b :: rest)
    else if b.char = 'x' || b.char = 'X' then (.hexadecimal, rest)
    else if b.char = 'o' || b.char = 'O' then (.octal, rest)
    else if b.char = 'b' || b.char = 'B' then (.binary, rest)
    else (.zero, a :: b :: rest)
  | gs => (if frontChar gs = some '0' then .zero else .decimal, gs)

end Radix

/-- The first line between digits that does not stand between two of them.  `last` is whether a
digit, a line or something else comes before. -/
def strayLine? (hex : Bool) (last : Option Bool) (before : Option Glyph) :
    List Glyph → Option Glyph
  | [] => if last = some false then before else none
  | g :: rest =>
    if g.char = '_' then
      if last = some true then strayLine? hex (some false) (some g) rest else some g
    else if digitValue g.char < (if hex then 16 else 10) then
      strayLine? hex (some true) (some g) rest
    else if last = some false then before
    else strayLine? hex none (some g) rest

/-- Whether there is a digit among some characters. -/
def hasDigit (gs : List Glyph) : Bool := gs.any fun g => g.char ≠ '_'

/-- The exponent at the front of some characters, if there is one. -/
def exponent (stop : Place) (radix : Radix) (fraction : Bool) (gs : List Glyph) : Extent × Bool :=
  match gs with
  | [] =>
    let lacking := radix = .hexadecimal && fraction
    (⟨gs, if lacking then [⟨stop, "hexadecimal mantissa requires a 'p' exponent"⟩] else []⟩, false)
  | e :: rest =>
    let small := e.char.toLower
    if small = 'e' || small = 'p' then
      let wrong :=
        if small = 'e' && radix ≠ .decimal && radix ≠ .zero then
          [⟨e.place, Text.quotedChar e.char ++ " exponent requires decimal mantissa"⟩]
        else if small = 'p' && radix ≠ .hexadecimal then
          [⟨e.place, Text.quotedChar e.char ++ " exponent requires hexadecimal mantissa"⟩]
        else []
      let rest := match rest with
        | s :: more => if s.char = '+' || s.char = '-' then more else rest
        | [] => []
      let digits := rest.takeWhile fun g => Radix.decimal.reads g.char
      let after := rest.drop digits.length
      let empty := if hasDigit digits then [] else [⟨placeAt stop after, "exponent has no digits"⟩]
      (⟨after, wrong ++ empty⟩, true)
    else if radix = .hexadecimal && fraction then
      (⟨gs, [⟨e.place, "hexadecimal mantissa requires a 'p' exponent"⟩]⟩, false)
    else (⟨gs, []⟩, false)

/-- The number at the front of some characters. -/
def number (stop : Place) (gs : List Glyph) : Extent :=
  let pointed := frontChar gs = some '.'
  let (radix, body) := if pointed then (Radix.decimal, gs) else Radix.ofFront gs
  let whole := if pointed then [] else body.takeWhile fun g => radix.reads g.char
  let rest := body.drop whole.length
  let fraction := frontChar rest = some '.'
  let stray := if fraction && (radix = .octal || radix = .binary) then
      [⟨placeAt stop rest, "invalid radix point in " ++ radix.name⟩]
    else []
  let rest := if fraction then rest.drop 1 else rest
  let parts := if fraction then rest.takeWhile fun g => radix.reads g.char else []
  let rest := rest.drop parts.length
  let empty := if hasDigit whole || hasDigit parts then []
    else [⟨placeAt stop rest, radix.name ++ " has no digits"⟩]
  let (tail, raised) := exponent stop radix fraction rest
  let imaginary := frontChar tail.rest = some 'i'
  let rest := if imaginary then tail.rest.drop 1 else tail.rest
  let large :=
    if fraction || raised || imaginary || radix = .hexadecimal then []
    else match whole.find? fun g => g.char ≠ '_' && radix.digits ≤ digitValue g.char with
      | some g => [⟨g.place, "invalid digit " ++ Text.quotedChar g.char ++ " in " ++ radix.name⟩]
      | none => []
  let written := upTo (placeAt stop rest) gs
  let marked := radix ≠ .decimal && radix ≠ .zero
  let apart := match strayLine? (radix = .hexadecimal) (if marked then some true else none) none
      (if marked then written.drop 2 else written) with
    | some g => [⟨g.place, "'_' must separate successive digits"⟩]
    | none => []
  ⟨rest, stray ++ empty ++ tail.mistakes ++ large ++ apart⟩

/-! ### Texts -/

/-- The digits of an escape: `count` of them are left, and `value` is the number so far. -/
def escapeDigits (stop : Place) (base : Nat) : Nat → Nat → List Glyph → Except Extent (Nat × List Glyph)
  | 0, value, gs => .ok (value, gs)
  | count + 1, value, gs =>
    match gs with
    | [] => .error ⟨[], [⟨stop, "escape sequence not terminated"⟩]⟩
    | g :: rest =>
      if digitValue g.char < base then
        escapeDigits stop base count (value * base + digitValue g.char) rest
      else
        .error ⟨gs, [⟨g.place, "illegal character " ++ numbered g.char ++ " in escape sequence"⟩]⟩

/-- The escape at the front of some characters, behind its backslash. -/
def escapeExtent (stop : Place) (quote : Char) (gs : List Glyph) : Extent :=
  match gs with
  | [] => ⟨[], [⟨stop, "escape sequence not terminated"⟩]⟩
  | g :: rest =>
    let c := g.char
    let coded (count base greatest : Nat) (digits : List Glyph) : Extent :=
      match escapeDigits stop base count 0 digits with
      | .error e => e
      | .ok (value, rest) =>
        if greatest < value || (0xD800 ≤ value && value < 0xE000) then
          ⟨rest, [⟨g.place, "escape sequence is invalid Unicode code point"⟩]⟩
        else ⟨rest, []⟩
    if c = quote || "abfnrtv\\".contains c then ⟨rest, []⟩
    else if '0' ≤ c && c ≤ '7' then coded 3 8 255 gs
    else if c = 'x' then coded 2 16 255 rest
    else if c = 'u' then coded 4 16 0x10FFFF rest
    else if c = 'U' then coded 8 16 0x10FFFF rest
    else ⟨gs, [⟨g.place, "unknown escape sequence"⟩]⟩

/-- The text at the front of some characters, behind its quote at `opening`. -/
def textExtent (stop opening : Place) : Nat → List Glyph → Extent
  | 0, gs => ⟨gs, []⟩
  | fuel + 1, gs =>
    match gs with
    | [] => ⟨[], [⟨opening, "string literal not terminated"⟩]⟩
    | g :: rest =>
      if g.char = '\n' then ⟨gs, [⟨opening, "string literal not terminated"⟩]⟩
      else if g.char = '"' then ⟨rest, []⟩
      else if g.char = '\\' then
        let e := escapeExtent stop '"' rest
        let more := textExtent stop opening fuel e.rest
        ⟨more.rest, e.mistakes ++ more.mistakes⟩
      else textExtent stop opening fuel rest

/-- The character literal at the front of some characters, behind its quote at `opening`; `count`
characters of it have been read, and `valid` says that nothing is wrong so far. -/
def charExtent (stop opening : Place) (count : Nat) (valid : Bool) : Nat → List Glyph → Extent
  | 0, gs => ⟨gs, []⟩
  | fuel + 1, gs =>
    let unfinished : List Mistake :=
      if valid then [⟨opening, "rune literal not terminated"⟩] else []
    match gs with
    | [] => ⟨[], unfinished⟩
    | g :: rest =>
      if g.char = '\n' then ⟨gs, unfinished⟩
      else if g.char = '\'' then
        ⟨rest, if valid && count ≠ 1 then [⟨opening, "illegal rune literal"⟩] else []⟩
      else if g.char = '\\' then
        let e := escapeExtent stop '\'' rest
        let more := charExtent stop opening (count + 1) (valid && e.mistakes.isEmpty) fuel e.rest
        ⟨more.rest, e.mistakes ++ more.mistakes⟩
      else charExtent stop opening (count + 1) valid fuel rest

/-- The text between back quotes at the front of some characters, behind the first of them. -/
def rawExtent (opening : Place) (gs : List Glyph) : Extent :=
  match gs.dropWhile fun g => g.char ≠ '\x60' with
  | [] => ⟨[], [⟨opening, "raw string literal not terminated"⟩]⟩
  | _ :: rest => ⟨rest, []⟩

end RuleScan.Schema.Source
