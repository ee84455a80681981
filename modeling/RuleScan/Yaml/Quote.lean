import RuleScan.Yaml.Cursor
import RuleScan.Text.Quoted

/-!
# Quoted scalars

A quoted text may go on over several lines: the blanks around a line end are dropped, one line end
becomes a space, and further ones are kept.  Double quotes also know escapes.
-/

namespace RuleScan.Yaml.Cursor

/-- The value so far after a line end; `again` tells that the line before held nothing. -/
def joinLine (value : List Char) (again : Bool) : List Char :=
  (if again then '\n' else ' ') :: value.dropWhile (· = ' ')

/-- Passes a line end inside quotes; a line that separates documents is refused. -/
def quotedLineEnd (s : Cursor) : Except Cursor Cursor :=
  let s := s.newLine
  if !s.rest.isEmpty && separatorAhead s.rest then
    .error (s.refuse "found unexpected document separator")
  else .ok s

/-- Reads up to the closing single quote.  The value is kept in reverse; `fresh` tells that the
line holds only blanks so far. -/
def singleQuoted (fuel : Nat) (start : Position) (s : Cursor) (value : List Char) (fresh : Bool) :
    Cursor :=
  match fuel, s.rest with
  | 0, _ | _, [] =>
    s.refuseAt start "could not find end character of single-quoted text"
  | fuel + 1, c :: rest =>
    let s := s.addOrigin c
    if isLineEnd c then
      match s.quotedLineEnd with
      | .error s => s
      | .ok s => singleQuoted fuel start s (joinLine value fresh) true
    else if fresh && c = ' ' then singleQuoted fuel start (s.advance 1) value fresh
    else if fresh && c = '\t' then
      if s.lastMark ≥ s.column then
        s.refuse "tab character cannot be used for indentation in single-quoted text"
      else singleQuoted fuel start (s.advance 1) value fresh
    else if c ≠ '\'' then singleQuoted fuel start (s.advance 1) (c :: value) false
    else if rest.head? = some '\'' then
      singleQuoted fuel start ((s.addOrigin c).advance 2) (c :: value) fresh
    else
      let s := s.advance 1
      (s.add
        { kind := .singleQuoted, value := String.ofList value.reverse, origin := s.originText,
          pos := start }).clear

/-- The escapes of one letter. -/
def letterEscape? : Char → Option Char
  | '0' => some '\x00'
  | 'a' => some '\x07'
  | 'b' => some '\x08'
  | 't' => some '\t'
  | 'n' => some '\n'
  | 'v' => some '\x0b'
  | 'f' => some '\x0c'
  | 'r' => some '\r'
  | 'e' => some '\x1b'
  | ' ' => some ' '
  | '"' => some '"'
  | '/' => some '/'
  | '\\' => some '\\'
  | 'N' => some (Char.ofNat 0x85)
  | '_' => some (Char.ofNat 0xa0)
  | 'L' => some (Char.ofNat 0x2028)
  | 'P' => some (Char.ofNat 0x2029)
  | '\t' => some '\t'
  | _ => none

/-- What a character counts as a hexadecimal digit; any other character counts by its distance
from the digit zero. -/
def hexWeight (c : Char) : Int :=
  if 'A' ≤ c && c ≤ 'F' then c.toNat - 55
  else if 'a' ≤ c && c ≤ 'f' then c.toNat - 87
  else (c.toNat : Int) - 48

/-- The number that characters stand for as hexadecimal digits. -/
def hexValue (cs : List Char) : Int := cs.foldl (fun n c => n * 16 + hexWeight c) 0

/-- A code point of 32 bits as a character; one that is none becomes the replacement character. -/
def charOf (n : Int) : Char :=
  let n := n % 4294967296
  if n < 0xD800 || (0xE000 ≤ n && n < 0x110000) then Char.ofNat n.toNat
  else Char.ofNat Text.replacement

/-- The outcome of an escape. -/
inductive Escape where
  /-- A character, given by as many characters behind the backslash; they are kept in the stretch
  only if `shown`. -/
  | char (c : Char) (passed : Nat) (shown : Bool)
  /-- The end of a line that is not part of the text. -/
  | lineEnd (passed : Nat)
  /-- An escape that breaks off or has an impossible value. -/
  | broken (reason : String)
  | unknown (c : Char)
  deriving Inhabited

/-- An escape of four hexadecimal digits, or of two such escapes that form a pair. -/
def readUnits (digits : List Char) : Escape :=
  let high := hexValue (digits.take 4)
  if digits.length < 4 then .broken "not enough length for escaped UTF-16 character"
  else if 0xD800 ≤ high && high ≤ 0xDBFF then
    let low := hexValue ((digits.drop 6).take 4)
    if digits.length < 10 then .broken "not enough length for escaped UTF-16 surrogate pair"
    else if (digits.drop 4).take 2 ≠ ['\\', 'u'] then
      .broken "found unexpected character after high surrogate for UTF-16 surrogate pair"
    else if low < 0xDC00 || low > 0xDFFF then
      .broken "found unexpected low surrogate after high surrogate"
    else .char (charOf ((high - 0xD800) * 0x400 + (low - 0xDC00) + 0x10000)) 11 false
  else .char (charOf high) 5 false

/-- Reads an escape, from the character behind the backslash on. -/
def readEscape (next : Char) (rest : List Char) : Escape :=
  match next with
  | 'x' =>
    if rest.length < 2 then .char 'x' 1 true else .char (charOf (hexValue (rest.take 2))) 3 false
  | 'u' => readUnits rest
  | 'U' =>
    if rest.length < 8 then .broken "not enough length for escaped UTF-32 character"
    else .char (charOf (hexValue (rest.take 8))) 9 false
  | '\n' => .lineEnd 1
  | '\r' => .lineEnd (if rest.head? = some '\n' then 2 else 1)
  | c =>
    match letterEscape? c with
    | some e => .char e 1 true
    | none => .unknown c

/-- Whether something other than blanks follows on the line. -/
def moreOnLine (cs : List Char) : Bool :=
  (cs.takeWhile fun c => !isLineEnd c).any fun c => !isBlank c

/-- Passes the end of a line behind a backslash.  Behind a carriage return the columns of the new
line are counted from the backslash on. -/
def escapedLineEnd (s : Cursor) (next : Char) (n : Nat) : Cursor :=
  if next = '\n' then (s.advance 1).newLine else s.newLine.advance n

/-- Reads up to the closing double quote.  A tab inside the text makes the place that is reached
run ahead of the characters that are read; `ahead` tells by how many. -/
def doubleQuoted (fuel : Nat) (start : Position) (s : Cursor) (value : List Char) (fresh : Bool)
    (ahead : Nat) : Cursor :=
  match fuel, s.rest with
  | 0, _ | _, [] =>
    s.refuseAt start "could not find end character of double-quoted text"
  | fuel + 1, c :: rest =>
    let s := s.addOrigin c
    if isLineEnd c then
      match s.quotedLineEnd with
      | .error s => s.pass ahead
      | .ok s => doubleQuoted fuel start s (joinLine value fresh) true ahead
    else if fresh && c = ' ' then doubleQuoted fuel start (s.advance 1) value fresh ahead
    else if fresh && c = '\t' then
      if s.lastMark ≥ s.column then
        (s.refuse "tab character cannot be used for indentation in double-quoted text").pass ahead
      else doubleQuoted fuel start (s.advance 1) value fresh ahead
    else if c = '\\' then
      match rest with
      | [] => doubleQuoted fuel start (s.advance 1) (c :: value) false ahead
      | next :: more =>
        match readEscape next more with
        | .char e n shown =>
          let s := if shown then s.addOrigin next else s
          doubleQuoted fuel start (s.advance (n + 1)) (e :: value) false ahead
        | .lineEnd n =>
          doubleQuoted fuel start ((s.addOrigins (rest.take n)).escapedLineEnd next n) value true
            ahead
        | .broken reason => (s.refuse reason).pass ahead
        | .unknown c =>
          ((s.advance 1).refuse ("found unknown escape character " ++ Text.quotedChar c)).pass ahead
    else if c = '\t' then
      if !moreOnLine rest then
        let blanks := rest.takeWhile isBlank
        doubleQuoted fuel start (s.advance (blanks.length + 1)) value fresh ahead
      else if rest.head? = some '"' then
        doubleQuoted fuel start (s.advance 1) (c :: value) fresh ahead
      else
        let s := s.advance 1
        doubleQuoted fuel start { s with column := s.column + 1 } (c :: value) fresh (ahead + 1)
    else if c ≠ '"' then doubleQuoted fuel start (s.advance 1) (c :: value) false ahead
    else
      let s := s.advance 1
      (s.add
        { kind := .doubleQuoted, value := String.ofList value.reverse, origin := s.originText,
          pos := start }).clear.pass ahead

/-- Reads a quoted text. -/
def quoted (s : Cursor) (quote : Char) : Cursor :=
  let start := s.pos
  let s := (s.addOrigin quote).advance 1
  if quote = '\'' then singleQuoted (s.rest.length + 1) start s [] false
  else doubleQuoted (s.rest.length + 1) start s [] false 0

end RuleScan.Yaml.Cursor
