import RuleScan.Yaml.Value

/-!
# Writing YAML

A value is written in block style, each level two blanks deeper than the one above, lists
included.  A text stands without quotes where it can be read back that way, over several lines if
it holds line ends, and between double quotes otherwise.
-/

namespace RuleScan.Yaml

/-- The words of older dialects for booleans; they are quoted as well. -/
def legacyWords : List String :=
  ["y", "Y", "yes", "Yes", "YES", "on", "On", "ON", "n", "N", "no", "No", "NO", "off", "Off",
    "OFF"]

/-- Whether a word would not be read back as a text; the words for numbers that are not finite
are not quoted. -/
def isReserved (word : String) : Bool :=
  legacyWords.contains word || nullWords.contains word || trueWords.contains word ||
    falseWords.contains word || (numeral? word).isSome

/-- Whether a text is a time of day such as `12:30`. -/
def isClock (s : String) : Bool :=
  match Time.Moment.oneOrTwo? s.toList with
  | some (hour, ':' :: rest) =>
    match Time.Moment.oneOrTwo? rest with
    | some (minute, []) => hour < 24 && minute < 60
    | _ => false
  | _ => false

/-- Whether a text is a date, perhaps with a time, or a time of day. -/
def isTimestamp (s : String) : Bool := (Time.Moment.parseAny? false s).isSome || isClock s

/-- Whether a mark that is followed by a space, or one that starts a comment or an escape, stands
in a text. -/
def hasMark : List Char → Bool
  | [] => false
  | c :: rest =>
    c = '#' || c = '\\' || ((c = ':' || c = '-') && rest.head? = some ' ') || hasMark rest

/-- Whether a text has to be quoted. -/
def needsQuotes (s : String) : Bool :=
  let cs := s.toList
  match cs with
  | [] => true
  | first :: _ =>
    isReserved s || s = "-" ||
      ['*', '&', '[', '\x7b', '\x7d', ']', ',', '!', '|', '>', '%', '\'', '"', '@', ' '].contains
        first || first.toNat = 0x60 ||
      cs.getLast? = some ':' || cs.getLast? = some ' ' || isTimestamp s || hasMark cs

/-- The line end that a text uses. -/
def lineEndOf (cs : List Char) : String :=
  let feeds := cs.count '\n'
  let returns := cs.count '\r'
  let pairs := (Text.piecesBetween ['\r', '\n'] 0 cs).length - 1
  if feeds = pairs && returns = pairs then "\r\n"
  else if returns > feeds then "\r" else "\n"

/-- A number with a fraction. -/
def writeFloat (x : Float) : String :=
  if x.isNaN then ".nan"
  else if x.isInf then (if x < 0 then "-.inf" else ".inf")
  else
    let s := floatText x
    if s.toList.contains '.' || s.toList.contains 'e' then s else s ++ ".0"

/-- Blanks. -/
def pad (n : Nat) : String := String.ofList (List.replicate n ' ')

/-- A text without an ending. -/
def withoutEnd (ending s : String) : String := (Text.stripEnd? ending s).getD s

/-- A text that is written `n` blanks deep.  A text with line ends follows a header, two blanks
deeper than what holds it. -/
def writeText (n : Nat) (s : String) : String :=
  if needsQuotes s then Text.quoted s
  else
    let sep := lineEndOf s.toList
    let pieces := Text.split sep s
    if pieces.length = 1 then s
    else
      let header := match pieces.reverse with
        | "" :: "" :: _ :: _ => "|+"
        | "" :: _ => "|"
        | _ => "|-"
      let margin := pad (n + 2)
      let body := sep.intercalate (pieces.map (margin ++ ·))
      header ++ sep ++ withoutEnd margin (withoutEnd (sep ++ margin) body)

/-- A value that stands on the line of its key, or starts there; lists and objects with content do
not. -/
def inlineText? (n : Nat) : Json → Option String
  | .null => some "null"
  | .bool b => some (if b then "true" else "false")
  | .int n => some (toString n)
  | .float x => some (writeFloat x)
  | .string s => some (writeText n s)
  | .bytes b => some (writeText n (Text.textOf b))
  | .moment m => some m.text
  | .binary [] | .array [] => some "[]"
  | .object [] => some "\x7b\x7d"
  | .binary _ | .array _ | .object _ => none

/-- The line of a text in a list: it is two blanks deeper than the mark of its entry, unless it is
empty. -/
def entryLine (n : Nat) (line : String) : String :=
  let line := (Text.stripFront? (pad (n + 2)) line).getD line
  if line = "" then "" else pad (n + 2) ++ line

mutual

/-- The lines of a list or an object with content, `n` blanks deep. -/
def writeLines (n : Nat) : Json → List String
  | .object fields => writeEntries n fields
  | .array elements => writeElements n elements
  | .binary b => b.map fun x => pad n ++ "- " ++ toString x.toNat
  | _ => []

/-- The lines of the fields of an object. -/
def writeEntries (n : Nat) : List (String × Json) → List String
  | [] => []
  | (name, v) :: rest =>
    let key := pad n ++ writeText n name
    (match inlineText? n v with
      | some text => Text.splitLines (key ++ ": " ++ text)
      | none => Text.splitLines (key ++ ":") ++ writeLines (n + 2) v) ++ writeEntries n rest

/-- The lines of the elements of a list. -/
def writeElements (n : Nat) : List Json → List String
  | [] => []
  | v :: rest =>
    (match inlineText? n v with
      | some text =>
        match Text.splitLines text with
        | first :: more => (pad n ++ "- " ++ first) :: more.map (entryLine n)
        | [] => []
      | none =>
        match writeLines (n + 2) v with
        | first :: more =>
          (pad n ++ "- " ++ String.ofList (first.toList.drop (n + 2))) ::
            more.map fun l => if l.length ≤ n + 2 then "" else l
        | [] => []) ++ writeElements n rest

end

mutual

/-- A value with the fields of all objects in the order of their names. -/
def sorted : Json → Json
  | .array elements => .array (sortedAll elements)
  | .object fields => .object ((sortedFields fields).mergeSort fun a b => a.1 ≤ b.1)
  | v => v

/-- Several values with sorted fields. -/
def sortedAll : List Json → List Json
  | [] => []
  | v :: rest => sorted v :: sortedAll rest

/-- Fields with sorted values. -/
def sortedFields : List (String × Json) → List (String × Json)
  | [] => []
  | (name, v) :: rest => (name, sorted v) :: sortedFields rest

end

/-- A value as a document. -/
def write (v : Json) : String :=
  let lines := match inlineText? 0 v with
    | some text => [text]
    | none =>
      match v with
      | .object _ => writeLines 0 v
      | v => writeLines 2 v
  "\n".intercalate lines ++ "\n"

end RuleScan.Yaml
