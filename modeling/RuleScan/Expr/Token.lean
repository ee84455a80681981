import RuleScan.Text.Utf8
import RuleScan.Unicode.Ranges

/-!
# Words of scope expressions

Splits the text of an expression into its smallest pieces.  Blanks and comments separate pieces
and are dropped.  Quoted texts are read with their escapes already replaced.
-/

namespace RuleScan.Expr

open RuleScan.Unicode RuleScan.Text

/-- A piece of an expression's text. -/
inductive Word where
  | ident (name : String)
  /-- A name between backquotes, which may hold characters names otherwise cannot. -/
  | escapedIdent (name : String)
  | int (digits : String)
  | uint (digits : String)
  | double (digits : String)
  | string (s : String)
  | bytes (b : Bytes)
  /-- A quoted text with an escape that means nothing there, and why. -/
  | badQuoted (problem : String)
  | symbol (s : String)
  deriving Repr, DecidableEq, Inhabited

/-- A piece with its offset. -/
structure Token where
  word : Word
  offset : Nat
  deriving Repr, DecidableEq, Inhabited

namespace Word

/-- An ASCII letter or underscore. -/
def isNameStart (c : Char) : Bool := c.isAlpha || c = '_'

/-- A character of a name. -/
def isNameChar (c : Char) : Bool := c.isAlphanum || c = '_'

/-- The value of `n` hexadecimal digits at the front. -/
def hexValue? (n : Nat) (s : List Char) : Option (Nat × List Char) := do
  let digits := s.take n
  if digits.length < n then none
  let v ← hexNumber? digits
  some (v, s.drop n)

/-- The value of three octal digits at the front, the first at most three. -/
def octalValue? : List Char → Option (Nat × List Char)
  | a :: b :: c :: rest =>
    let d (x : Char) (top : Char) : Option Nat :=
      if '0' ≤ x ∧ x ≤ top then some (x.toNat - 0x30) else none
    do some ((← d a '3') * 64 + (← d b '7') * 8 + (← d c '7'), rest)
  | _ => none

/-- A character of a quoted text: itself, a code point by its number, or a single byte. -/
inductive Unit where
  | code (n : Nat)
  | point (n : Nat)
  | byte (n : Nat)
  deriving Repr, DecidableEq, Inhabited

/-- The escape behind a backslash. -/
def escape? (s : List Char) : Option (Unit × List Char) :=
  match s with
  | 'a' :: r => some (.code 0x07, r)
  | 'b' :: r => some (.code 0x08, r)
  | 'f' :: r => some (.code 0x0c, r)
  | 'n' :: r => some (.code 0x0a, r)
  | 'r' :: r => some (.code 0x0d, r)
  | 't' :: r => some (.code 0x09, r)
  | 'v' :: r => some (.code 0x0b, r)
  | '"' :: r => some (.code 0x22, r)
  | '\'' :: r => some (.code 0x27, r)
  | '\\' :: r => some (.code 0x5c, r)
  | '?' :: r => some (.code 0x3f, r)
  | '`' :: r => some (.code 0x60, r)
  | 'x' :: r | 'X' :: r => (hexValue? 2 r).map fun (v, r) => (.byte v, r)
  | 'u' :: r => (hexValue? 4 r).map fun (v, r) => (.point v, r)
  | 'U' :: r => (hexValue? 8 r).map fun (v, r) => (.point v, r)
  | _ => (octalValue? s).map fun (v, r) => (.byte v, r)

/-- The contents of a quoted text up to its closing quotes, and the rest.  A line end is refused
unless the quotes are tripled, and then always is a line feed. -/
def quotedBody (close : List Char) (raw : Bool) :
    Nat → List Char → List Unit → Option (List Unit × List Char)
  | 0, _, _ => none
  | fuel + 1, s, acc =>
    if close.isPrefixOf s then some (acc.reverse, s.drop close.length)
    else match s with
      | [] => none
      | c :: rest =>
        if c = '\\' && !raw then
          match escape? rest with
          | none => none
          | some (u, rest) => quotedBody close raw fuel rest (u :: acc)
        else if (c = '\n' || c = '\r') && close.length = 1 then none
        else if c = '\r' then
          let rest := if rest.head? = some '\n' then rest.tail else rest
          quotedBody close raw fuel rest (.code 0x0a :: acc)
        else quotedBody close raw fuel rest (.code c.toNat :: acc)

/-- A quoted text at the front, with single or tripled quotes of either kind. -/
def quoted? (raw : Bool) (s : List Char) : Option (List Unit × List Char) :=
  let tries (close : List Char) : Option (List Unit × List Char) :=
    if close.isPrefixOf s then quotedBody close raw (s.length + 1) (s.drop close.length) []
    else none
  tries ['"', '"', '"'] <|> tries ['\'', '\'', '\''] <|> tries ['"'] <|> tries ['\'']

/-- A text of quoted units; an escaped byte stands for the code point of that value. -/
def textOfUnits (us : List Unit) : Word :=
  let char? : Unit → Option Char
    | .code n | .point n | .byte n => if n.isValidChar then some (Char.ofNat n) else none
  match us.mapM char? with
  | some cs => .string (String.ofList cs)
  | none => .badQuoted "invalid unicode code point"

/-- Bytes of quoted units; a code point by its number is no byte. -/
def bytesOfUnits (us : List Unit) : Word :=
  let bytes? : Unit → Option Bytes
    | .code n => some (bytesOf (String.ofList [Char.ofNat n]))
    | .point _ => none
    | .byte n => some [n.toUInt8]
  match us.mapM bytes? with
  | some bs => .bytes bs.flatten
  | none => .badQuoted "unable to unescape string"

/-- A quoted text with its prefix letters, at the front. -/
def text? (s : List Char) : Option (Word × List Char) :=
  let asText (raw : Bool) (s : List Char) : Option (Word × List Char) :=
    (quoted? raw s).map fun (us, r) => (textOfUnits us, r)
  let asBytes (raw : Bool) (s : List Char) : Option (Word × List Char) :=
    (quoted? raw s).map fun (us, r) => (bytesOfUnits us, r)
  let isRaw (c : Char) : Bool := c = 'r' || c = 'R'
  let isBytes (c : Char) : Bool := c = 'b' || c = 'B'
  match s with
  | a :: b :: rest =>
    if isBytes a && isRaw b then asBytes true rest
    else if isBytes a then asBytes false (b :: rest)
    else if isRaw a then asText true (b :: rest)
    else asText false s
  | _ => asText false s

/-- The exponent of a number at the front, if there is one. -/
def exponent (s : List Char) : List Char × List Char :=
  match s with
  | e :: rest =>
    if e = 'e' || e = 'E' then
      let (sign, digits) := match rest with
        | c :: more => if c = '+' || c = '-' then ([c], more) else ([], rest)
        | [] => ([], rest)
      let ds := digits.takeWhile Char.isDigit
      if ds.isEmpty then ([], s) else (e :: sign ++ ds, digits.dropWhile Char.isDigit)
    else ([], s)
  | [] => ([], s)

/-- A number at the front. -/
def number? (s : List Char) : Option (Word × List Char) :=
  let unsigned (digits : List Char) (rest : List Char) : Word × List Char :=
    match rest with
    | u :: more =>
      if u = 'u' || u = 'U' then (.uint (String.ofList digits), more)
      else (.int (String.ofList digits), rest)
    | [] => (.int (String.ofList digits), rest)
  let isHex (c : Char) : Bool := (hexDigit? c).isSome
  match s with
  | '0' :: 'x' :: h :: rest =>
    if isHex h then
      some (unsigned ('0' :: 'x' :: h :: rest.takeWhile isHex) (rest.dropWhile isHex))
    else some (unsigned ['0'] ('x' :: h :: rest))
  | _ =>
    let whole := s.takeWhile Char.isDigit
    let after := s.dropWhile Char.isDigit
    match after with
    | '.' :: d :: more =>
      if d.isDigit then
        let fraction := d :: more.takeWhile Char.isDigit
        let (e, rest) := exponent (more.dropWhile Char.isDigit)
        some (.double (String.ofList (whole ++ '.' :: fraction ++ e)), rest)
      else if whole.isEmpty then none
      else some (unsigned whole after)
    | _ =>
      if whole.isEmpty then none
      else
        let (e, rest) := exponent after
        if e.isEmpty then some (unsigned whole after)
        else some (.double (String.ofList (whole ++ e)), rest)

/-- The symbols, the longer ones first. -/
def symbols : List String :=
  ["==", "!=", "<=", ">=", "&&", "||", "<", ">", "(", ")", "[", "]", "\x7b", "\x7d", ".", ",",
   "-", "!", "?", ":", "+", "*", "/", "%"]

/-- Names that are words of the language itself. -/
def keywords : List String := ["in", "true", "false", "null"]

/-- A name between backquotes at the front. -/
def backquoted? (s : List Char) : Option (Word × List Char) :=
  let ok (c : Char) : Bool :=
    c.isAlphanum || c = '_' || c = '.' || c = '-' || c = '/' || c = ' '
  match s with
  | '`' :: rest =>
    let name := rest.takeWhile ok
    match rest.dropWhile ok with
    | '`' :: more => if name.isEmpty then none else some (.escapedIdent (String.ofList name), more)
    | _ => none
  | _ => none

/-- The piece at the front of a text that does not start with a blank or a comment. -/
def next? (s : List Char) : Option (Word × List Char) :=
  match text? s with
  | some r => some r
  | none =>
    match s with
    | [] => none
    | c :: _ =>
      if isNameStart c then
        let name := String.ofList (s.takeWhile isNameChar)
        let rest := s.dropWhile isNameChar
        some (if keywords.contains name then .symbol name else .ident name, rest)
      else
        match number? s with
        | some r => some r
        | none =>
          match backquoted? s with
          | some r => some r
          | none =>
            (symbols.find? fun sym => sym.toList.isPrefixOf s).map fun sym =>
              (.symbol sym, s.drop sym.length)

end Word

namespace Token

/-- A blank between pieces. -/
def isBlank (c : Char) : Bool := c = ' ' || c = '\t' || c = '\r' || c = '\n' || c = '\x0c'

/-- Splits what is left of the text; each step consumes a character. -/
def scanFrom : Nat → List Char → Nat → List Token → Option (List Token)
  | 0, _, _, acc => some acc.reverse
  | _ + 1, [], _, acc => some acc.reverse
  | fuel + 1, c :: rest, offset, acc =>
    if isBlank c then scanFrom fuel rest (offset + 1) acc
    else if ['/', '/'].isPrefixOf (c :: rest) then
      let comment := (c :: rest).takeWhile (· ≠ '\n')
      scanFrom fuel ((c :: rest).drop comment.length) (offset + comment.length) acc
    else
      match Word.next? (c :: rest) with
      | none => none
      | some (word, left) =>
        scanFrom fuel left (offset + ((rest.length + 1) - left.length)) (⟨word, offset⟩ :: acc)

/-- The pieces of an expression's text; `none` if some of it is no piece at all. -/
def scan? (text : String) : Option (List Token) :=
  scanFrom (text.length + 1) text.toList 0 []

end Token

end RuleScan.Expr
