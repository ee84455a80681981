import RuleScan.Text.Space
import RuleScan.Unicode.Cluster

/-!
# Width on the screen

How many columns a text takes on a screen with letters of one width: the characters of East Asian
scripts and the pictographs take two, control characters and sequences of them take none, and what
belongs to the character before it takes no room of its own.  Texts of several lines can be filled
up to a block of one width.
-/

namespace RuleScan.Text

/-- The code points that take two columns. -/
def wideText : String :=
  "1100-115f 231a-231b 2329-232a 23e9-23ec 23f0 23f3 25fd-25fe 2614-2615 2630-2637 2648-2653
  267f 268a-268f 2693 26a1 26aa-26ab 26bd-26be 26c4-26c5 26ce 26d4 26ea 26f2-26f3 26f5 26fa
  26fd 2705 270a-270b 2728 274c 274e 2753-2755 2757 2795-2797 27b0 27bf 2b1b-2b1c 2b50 2b55
  2e80-2e99 2e9b-2ef3 2f00-2fd5 2ff0-303e 3041-3096 3099-30ff 3105-312f 3131-318e 3190-31e5
  31ef-321e 3220-3247 3250-a48c a490-a4c6 a960-a97c ac00-d7a3 f900-faff fe10-fe19 fe30-fe52
  fe54-fe66 fe68-fe6b ff01-ff60 ffe0-ffe6 16fe0-16fe4 16ff0-16ff1 17000-187f7 18800-18cd5
  18cff-18d08 1aff0-1aff3 1aff5-1affb 1affd-1affe 1b000-1b122 1b132 1b150-1b152 1b155
  1b164-1b167 1b170-1b2fb 1d300-1d356 1d360-1d376 1f004 1f0cf 1f18e 1f191-1f19a 1f200-1f202
  1f210-1f23b 1f240-1f248 1f250-1f251 1f260-1f265 1f300-1f320 1f32d-1f335 1f337-1f37c
  1f37e-1f393 1f3a0-1f3ca 1f3cf-1f3d3 1f3e0-1f3f0 1f3f4 1f3f8-1f43e 1f440 1f442-1f4fc
  1f4ff-1f53d 1f54b-1f54e 1f550-1f567 1f57a 1f595-1f596 1f5a4 1f5fb-1f64f 1f680-1f6c5 1f6cc
  1f6d0-1f6d2 1f6d5-1f6d7 1f6dc-1f6df 1f6eb-1f6ec 1f6f4-1f6fc 1f7e0-1f7eb 1f7f0 1f90c-1f93a
  1f93c-1f945 1f947-1f9ff 1fa70-1fa7c 1fa80-1fa89 1fa8f-1fac6 1face-1fadc 1fadf-1fae9
  1faf0-1faf8 20000-2fffd 30000-3fffd"

/-- The wide code points, read once. -/
def wideRanges : Unicode.Ranges := Unicode.Ranges.read wideText

/-- Whether a code point joins the one before it or shows nothing. -/
def isInvisible (code : Nat) : Bool :=
  code < 0x20 || (0x7f ≤ code && code < 0xa0) ||
    (0x300 ≤ code && ["Mn", "Me", "Cf"].any fun name =>
      (Unicode.category? name).any fun r => Unicode.Ranges.contains r code)

/-- The columns that a character takes. -/
def columns (c : Char) : Nat :=
  let code := c.toNat
  if 0x20 ≤ code && code < 0x7f then 1
  else if isInvisible code then 0
  else if 0x1100 ≤ code && Unicode.Ranges.contains wideRanges code then 2
  else 1

/-- The columns that a cluster takes: those of its first character, and two if it is to be shown
as a pictograph or is a flag. -/
def clusterColumns : List Char → Nat
  | [] => 0
  | [c] => columns c
  | c :: next :: _ =>
    let flag := Unicode.breakOf c.toNat = .flagLetter && Unicode.breakOf next.toNat = .flagLetter
    if next.toNat = 0xfe0f || flag then 2 else columns c

/-- Where a screen is in a sequence that tells it to do something and shows nothing. -/
inductive Mode where
  | plain
  | escape
  /-- Behind the first marks of a short sequence. -/
  | short
  /-- In a sequence of parameters. -/
  | parameters
  /-- In a text that a bell may end. -/
  | command
  /-- In a text that is not shown. -/
  | hidden
  deriving Repr, DecidableEq, Inhabited

/-- Where a screen is behind an ASCII character. -/
def Mode.next (m : Mode) (c : Char) : Mode :=
  let code := c.toNat
  if code = 0x1b then .escape
  else if code = 0x18 || code = 0x1a then .plain
  else match m with
    | .plain => .plain
    | .escape =>
      if code < 0x20 || code = 0x7f then .escape
      else if code < 0x30 then .short
      else if c = '[' then .parameters
      else if c = ']' then .command
      else if c = 'P' || c = 'X' || c = '^' || c = '_' then .hidden
      else .plain
    | .short => if 0x30 ≤ code && code < 0x7f then .plain else .short
    | .parameters => if 0x40 ≤ code && code < 0x7f then .plain else .parameters
    | .command => if code = 0x07 then .plain else .command
    | .hidden => .hidden

/-- The columns that characters take; `fuel` bounds their number. -/
def columnsFrom (fuel : Nat) (m : Mode) (cs : List Char) : Nat :=
  match fuel, cs with
  | 0, _ | _, [] => 0
  | fuel + 1, c :: rest =>
    if c.toNat < 0x80 then
      (if m = .plain then columns c else 0) + columnsFrom fuel (m.next c) rest
    else if m = .command || m = .hidden then columnsFrom fuel m rest
    else
      let cluster := Unicode.cluster c rest
      clusterColumns cluster + columnsFrom fuel .plain (rest.drop (cluster.length - 1))

/-- The columns that a line takes. -/
def lineWidth (cs : List Char) : Nat := columnsFrom cs.length .plain cs

/-- The greatest width of some lines. -/
def widest (lines : List (List Char)) : Nat := (lines.map lineWidth).foldl max 0

/-- Lines filled with blanks up to a width. -/
def fillTo (width : Nat) (lines : List (List Char)) : List (List Char) :=
  lines.map fun l => l ++ List.replicate (width - lineWidth l) ' '

/-- Drops a carriage return before a line feed and writes four blanks for a tab. -/
def plainBlanks : List Char → List Char
  | '\r' :: '\n' :: rest => '\n' :: plainBlanks rest
  | '\t' :: rest => ' ' :: ' ' :: ' ' :: ' ' :: plainBlanks rest
  | c :: rest => c :: plainBlanks rest
  | [] => []

/-- A text as a styled part of an output: the lines of one text have one width. -/
def block (s : String) : String :=
  let lines := splitWhere (· = '\n') (plainBlanks s.toList)
  String.ofList (['\n'].intercalate (fillTo (widest lines) lines))

end RuleScan.Text
