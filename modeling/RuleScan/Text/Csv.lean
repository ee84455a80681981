import RuleScan.Text.Space

/-!
# Values between commas

One record of values that commas separate.  A value between quotes may hold commas and line ends,
and a quote in it is written twice; a value without quotes holds none.
-/

namespace RuleScan.Text.Csv

/-- Why a record cannot be read. -/
inductive Error where
  /-- There is none. -/
  | missing
  /-- A quote stands in a value without quotes. -/
  | bareQuote (line column : Nat)
  /-- A value in quotes does not end, or goes on behind its quotes. -/
  | openQuote (line column : Nat)
  deriving Repr, DecidableEq, Inhabited

/-- The place of a mistake in a record that starts on the first line read. -/
def placeText (start line column : Nat) : String :=
  (if line = start then "" else "record on line " ++ toString start ++ "; ") ++
    "parse error on line " ++ toString line ++ ", column " ++ toString column ++ ": "

/-- The text of an error in a record that starts on a line. -/
def Error.message (start : Nat) : Error → String
  | .missing => "EOF"
  | .bareQuote line column => placeText start line column ++ "bare \" in non-quoted field"
  | .openQuote line column =>
    placeText start line column ++ "extraneous or missing \" in quoted-field"

/-- How many bytes some characters take. -/
def size (cs : List Char) : Nat := total (cs.map Char.utf8Size)

/-- The lines of a text, each with its line feed; the carriage return before one is dropped, also
that at the end of the text. -/
def linesOf (s : String) : List (List Char) :=
  let pieces := splitWhere (· = '\n') s.toList
  let bare (cs : List Char) : List Char := if cs.getLast? = some '\r' then cs.dropLast else cs
  let last := bare (pieces.getLast?.getD [])
  pieces.dropLast.map (fun p => bare p ++ ['\n']) ++ if last.isEmpty then [] else [last]

/-- Where a value is read: the rest of the line, its place, and the lines below. -/
structure Cursor where
  rest : List Char
  line : Nat
  column : Nat
  below : List (List Char)
  deriving Repr, DecidableEq, Inhabited

/-- A value without quotes, and what follows the comma behind it. -/
def plainValue (c : Cursor) : Except Error (List Char × Option Cursor) :=
  let whole := c.rest.takeWhile (· ≠ ',')
  let after := c.rest.drop whole.length
  let value := if after.isEmpty then dropEndWhile (· = '\n') whole else whole
  if value.contains '"' then
    .error (.bareQuote c.line (c.column + size (value.takeWhile (· ≠ '"'))))
  else
    match after with
    | [] => .ok (value, none)
    | _ :: rest => .ok (value, some { c with rest, column := c.column + size whole + 1 })

/-- The rest of a value in quotes, and what follows the comma behind it. -/
def quotedValue (fuel : Nat) (c : Cursor) (acc : List Char) :
    Except Error (List Char × Option Cursor) :=
  match fuel with
  | 0 => .error (.openQuote c.line c.column)
  | fuel + 1 =>
    let part := c.rest.takeWhile (· ≠ '"')
    match c.rest.drop part.length with
    | '"' :: '"' :: rest =>
      quotedValue fuel { c with rest, column := c.column + size part + 2 } (acc ++ part ++ ['"'])
    | '"' :: ',' :: rest =>
      .ok (acc ++ part, some { c with rest, column := c.column + size part + 2 })
    | ['"'] | ['"', '\n'] => .ok (acc ++ part, none)
    | '"' :: _ => .error (.openQuote c.line (c.column + size part))
    | [] =>
      match c.below with
      | line :: below => quotedValue fuel ⟨line, c.line + 1, 1, below⟩ (acc ++ part)
      | [] => .error (.openQuote c.line (c.column + size part))
    | _ => .error (.openQuote c.line c.column)

/-- The values from a cursor on. -/
def valuesFrom (fuel : Nat) (c : Cursor) : Except Error (List String) :=
  match fuel with
  | 0 => .ok []
  | fuel + 1 => do
    let (value, next) ← match c.rest with
      | '"' :: rest =>
        quotedValue (fuel + 1) { c with rest, column := c.column + 1 } []
      | _ => plainValue c
    match next with
    | none => return [String.ofList value]
    | some c => return String.ofList value :: (← valuesFrom fuel c)

/-- The values of the first record of a text that is not empty; an error comes as its text. -/
def record (s : String) : Except String (List String) :=
  let lines := linesOf s
  let empty := lines.takeWhile (· = ['\n'])
  match lines.drop empty.length with
  | [] => .error (Error.missing.message 1)
  | line :: below =>
    let start := empty.length + 1
    (valuesFrom (s.length + 1) ⟨line, start, 1, below⟩).mapError (Error.message start)

end RuleScan.Text.Csv
