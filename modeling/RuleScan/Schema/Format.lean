import RuleScan.Address.Basic
import RuleScan.Regex.Parse
import RuleScan.Time.Duration
import RuleScan.Time.Moment

/-!
# Texts in a named format

A schema may ask for a text in a format that has a name: a date, the name of a machine, an
address, and so on.  Each format says what is wrong with a text, or that nothing is.  Formats with
other names are not checked.
-/

namespace RuleScan.Schema.Format

open Address (byteChars)

/-- A list of checks, the first problem of which counts. -/
abbrev Problem := Option String

/-- The part of a text up to the last occurrence of a character and the part behind it. -/
def cutLast? (c : Char) (cs : List Char) : Option (List Char × List Char) :=
  let back := (cs.reverse.takeWhile (· ≠ c)).reverse
  if back.length = cs.length then none
  else some (cs.take (cs.length - back.length - 1), back)

/-- The pieces of a text between occurrences of a character. -/
def pieces (c : Char) (s : String) : List (List Char) :=
  (s.splitOn (String.singleton c)).map String.toList

/-- A whole number with an optional sign. -/
def signed? (cs : List Char) : Option Int :=
  let number (ds : List Char) : Option Int :=
    if ds.isEmpty || !ds.all Char.isDigit then none else some (Json.digitsValue ds)
  match cs with
  | '-' :: ds => (number ds).map fun n => -n
  | '+' :: ds => number ds
  | ds => number ds

/-- The number of bytes of characters. -/
def bytesIn (cs : List Char) : Nat := Text.byteLength (String.ofList cs)

/-! ## Pointers and identifiers -/

/-- A part of a pointer: a tilde is followed by a zero or a one. -/
def pointerPart : List Char → Problem
  | '~' :: '0' :: rest | '~' :: '1' :: rest => pointerPart rest
  | '~' :: _ => some "~ must be followed by 0 or 1"
  | _ :: rest => pointerPart rest
  | [] => none

/-- A pointer into a document. -/
def pointer (s : String) : Problem :=
  if s = "" then none
  else match pieces '/' s with
    | [] :: parts => parts.findSome? pointerPart
    | _ => some "not starting with /"

/-- A pointer that starts from a place in a document. -/
def relativePointer (s : String) : Problem :=
  let digits := s.toList.takeWhile Char.isDigit
  let rest := String.ofList (s.toList.drop digits.length)
  match digits with
  | [] => some "must start with non-negative integer"
  | '0' :: _ :: _ => some "starts with zero"
  | _ => if rest = "#" then none else pointer rest

/-- Groups of hexadecimal digits with hyphens between them. -/
def uuid (s : String) : Problem :=
  let sizes := [8, 4, 4, 4, 12]
  let groups := pieces '-' s
  if groups.length ≠ sizes.length then some "must have 5 elements"
  else ((groups.zip sizes).zipIdx).findSome? fun ((group, size), i) =>
    if bytesIn group ≠ size then
      some ("element " ++ toString (i + 1) ++ " must be " ++ toString size ++ " characters long")
    else (group.find? fun c => (Json.hexValue? c).isNone).map fun c =>
      "non-hex character " ++ Text.quotedChar c

/-! ## Times -/

/-- The parts of a duration before or behind the `T`; `all` are the units of that side and `units`
those that may still come. -/
def durationParts (fuel : Nat) (all units : List Char) (cs : List Char) : Problem :=
  match fuel, cs with
  | 0, _ | _, [] => none
  | fuel + 1, cs =>
    let digits := cs.takeWhile Char.isDigit
    if digits.isEmpty then some "missing number"
    else match cs.drop digits.length with
      | [] => some "missing unit"
      | unit :: rest =>
        if units.contains unit then
          durationParts fuel all ((units.dropWhile (· ≠ unit)).drop 1) rest
        else if all.contains unit then
          some ("unit " ++ Text.quotedChar unit ++ " out of order")
        else some ("invalid unit " ++ Text.quotedChar unit)

/-- A span of time such as `P3DT4H`. -/
def duration (s : String) : Problem :=
  match s.toList with
  | 'P' :: rest =>
    if rest.isEmpty then some "nothing after P"
    else if rest.getLast? = some 'W' then
      let weeks := rest.dropLast
      if weeks.isEmpty then some "no number in week"
      else if weeks.all Char.isDigit then none else some "invalid week"
    else
      let sides := pieces 'T' (String.ofList rest)
      (sides.zipIdx).findSome? fun (side, i) =>
        if i ≠ 0 && side.isEmpty then some "no time elements"
        else match i with
          | 0 => durationParts (side.length + 1) "YMD".toList "YMD".toList side
          | 1 => durationParts (side.length + 1) "HMS".toList "HMS".toList side
          | _ => some "more than one T"
  | _ => some "must start with P"

/-- A date such as `2024-02-29`. -/
def date (s : String) : Problem :=
  let bytes := Text.bytesOf s
  let quote (cs : List Char) : String := Duration.quotedBytes (cs.map fun c => c.toNat.toUInt8)
  let front := "parsing time " ++ Duration.quotedBytes bytes
  let unread (cs : List Char) (what : String) : Problem :=
    some (front ++ " as \"2006-01-02\": cannot parse " ++ quote cs ++ " as \"" ++ what ++ "\"")
  let number? (n : Nat) (cs : List Char) : Option (Nat × List Char) :=
    let ds := cs.take n
    if ds.length = n && ds.all Char.isDigit then some (Json.digitsValue ds, cs.drop n) else none
  let cs := byteChars s
  match number? 4 cs with
  | none => unread cs "2006"
  | some (year, cs) =>
    if cs.head? ≠ some '-' then unread cs "-"
    else match number? 2 (cs.drop 1) with
      | none => unread (cs.drop 1) "01"
      | some (month, cs) =>
        if month < 1 || month > 12 then some (front ++ ": month out of range")
        else if cs.head? ≠ some '-' then unread cs "-"
        else match number? 2 (cs.drop 1) with
          | none => unread (cs.drop 1) "02"
          | some (day, cs) =>
            if !cs.isEmpty then some (front ++ ": extra text: " ++ quote cs)
            else if (Time.Date.mk year month day).isValid then none
            else some (front ++ ": day out of range")

/-- The numbers of a time of day or of the distance of a clock. -/
def clockNumbers (word : String) (tokens : List (List Char)) : Except String (List Int) :=
  tokens.mapM fun t =>
    match signed? t with
    | none => .error ("invalid " ++ word)
    | some n => if n < 0 then .error ("non-positive " ++ word) else .ok n

/-- How far the clock is ahead, in minutes. -/
def clockAhead (cs : List Char) : Except String Int := do
  if cs = ['z'] || cs = ['Z'] then return 0
  if cs.length ≠ 6 then throw "offset must be 6 characters long"
  let sign : Int ← match cs with
    | '+' :: _ => pure 1
    | '-' :: _ => pure (-1)
    | _ => throw "offset must begin with plus/minus"
  let rest := cs.drop 1
  if rest[2]? ≠ some ':' then throw "missing colon in offset in correct place"
  match ← clockNumbers "hour/min in offset" [rest.take 2, rest.drop 3] with
  | [h, m] =>
    if h > 23 || m > 59 then throw "hour/min in offset out of range"
    return sign * (h * 60 + m)
  | _ => return 0

/-- A time of day with the distance of the clock; a second may be added at the end of a day. -/
def clock (cs : List Char) : Except String Unit := do
  if cs.length < 9 then throw "less than 9 characters long"
  if cs[2]? ≠ some ':' || cs[5]? ≠ some ':' then throw "missing colon in correct place"
  match ← clockNumbers "hour/min/sec" [cs.take 2, (cs.drop 3).take 2, (cs.drop 6).take 2] with
  | [h, m, s] =>
    if h > 23 || m > 59 || s > 60 then throw "hour/min/sec out of range"
    let rest ← match cs.drop 8 with
      | '.' :: rest =>
        if (rest.takeWhile Char.isDigit).isEmpty then throw "no digits in second fraction"
        else pure (rest.dropWhile Char.isDigit)
      | rest => pure rest
    let minutes := h * 60 + m - (← clockAhead rest)
    let minutes := if minutes < 0 then minutes + 24 * 60 else minutes
    if s ≥ 60 && minutes ≠ 23 * 60 + 59 then throw "invalid leap second"
  | _ => return

/-- The problem of a check that may fail. -/
def problemOf : Except String Unit → Problem
  | .ok _ => none
  | .error e => some e

/-- A time of day. -/
def time (s : String) : Problem := problemOf (clock (byteChars s))

/-- A date and a time of day. -/
def dateTime (s : String) : Problem :=
  let bytes := Text.bytesOf s
  let cs := byteChars s
  if cs.length < 20 then some "less than 20 characters long"
  else if cs[10]? ≠ some 't' && cs[10]? ≠ some 'T' then some "11th character must be t or T"
  else match date (Text.textOf (bytes.take 10)) with
    | some e => some ("invalid date element: " ++ e)
    | none => (problemOf (clock (cs.drop 11))).map ("invalid time element: " ++ ·)

/-- Two moments, or a moment and a duration. -/
def period (s : String) : Problem :=
  let front := s.toList.takeWhile (· ≠ '/')
  match s.toList.drop front.length with
  | [] => some "missing slash"
  | _ :: back =>
    let start := String.ofList front
    let stop := String.ofList back
    let said (what : String) (p : Problem) : Problem := p.map (what ++ ·)
    if front.head? = some 'P' then
      said "invalid start duration: " (duration start) <|>
        said "invalid end date-time: " (dateTime stop)
    else said "invalid start date-time: " (dateTime start) <|>
      if back.head? = some 'P' then said "invalid end duration: " (duration stop)
      else said "invalid end date-time: " (dateTime stop)

/-! ## Machines and people -/

/-- Four decimal numbers with points between them. -/
def ipv4 (s : String) : Problem :=
  let groups := pieces '.' s
  if groups.length ≠ 4 then some "expected four decimals"
  else groups.findSome? fun g =>
    if g.length > 1 && g.head? = some '0' then some "leading zeros"
    else match signed? g with
      | none =>
        some ("strconv.Atoi: parsing " ++ Text.quoted (String.ofList g) ++ ": invalid syntax")
      | some n =>
        if !Word.fits n then
          some ("strconv.Atoi: parsing " ++ Text.quoted (String.ofList g) ++
            ": value out of range")
        else if n < 0 || n > 255 then some "decimal must be between 0 and 255" else none

/-- Groups of hexadecimal digits with colons between them. -/
def ipv6 (s : String) : Problem :=
  if !s.contains ':' then some "missing colon"
  else match Address.numericZone? s with
    | .error t => some t.message
    | .ok (some _) => some "zone id is not a part of ipv6 address"
    | .ok none => none

/-- A part of the name of a machine. -/
def label (cs : List Char) : Problem :=
  if cs.isEmpty || bytesIn cs > 63 then some "label must be 1 to 63 characters long"
  else if cs.head? = some '-' then some "label starts with hyphen"
  else if cs.getLast? = some '-' then some "label ends with hyphen"
  else (cs.find? fun c => !(c.isAlphanum || c = '-')).map fun c =>
    "invalid character " ++ Text.quotedChar c

/-- The name of a machine. -/
def hostname (s : String) : Problem :=
  let cs := if s.toList.getLast? = some '.' then s.toList.dropLast else s.toList
  if bytesIn cs > 253 then some "more than 253 characters long"
  else (pieces '.' (String.ofList cs)).findSome? label

/-- Whether a text has two points in a row. -/
def hasDoublePoint : List Char → Bool
  | '.' :: '.' :: _ => true
  | _ :: rest => hasDoublePoint rest
  | [] => false

/-- The part of a mail address before the machine. -/
def mailbox (cs : List Char) : Problem :=
  if cs.length > 1 && cs.head? = some '"' && cs.getLast? = some '"' then
    let inner := (cs.drop 1).dropLast
    if inner.contains '\\' || inner.contains '"' then
      some "backslash and quote are not allowed within quoted local part"
    else none
  else if cs.head? = some '.' then some "starts with dot"
  else if cs.getLast? = some '.' then some "ends with dot"
  else if hasDoublePoint cs then some "consecutive dots"
  else (cs.find? fun c =>
      !(c.isAlphanum || ".!#$%&'*+-/=?^_`\x7b|\x7d~".toList.contains c)).map fun c =>
    "invalid character " ++ Text.quotedChar c

/-- A mail address. -/
def email (s : String) : Problem :=
  if Text.byteLength s > 254 then some "more than 255 characters long"
  else match cutLast? '@' s.toList with
    | none => some "missing @"
    | some (box, machine) =>
      if bytesIn box > 64 then some "local part more than 64 characters long"
      else (mailbox box) <|>
        if machine.head? = some '[' && machine.getLast? = some ']' then
          let inner := (machine.drop 1).dropLast
          if "IPv6:".toList.isPrefixOf inner then
            (ipv6 (String.ofList (inner.drop 5))).map ("invalid ipv6 address: " ++ ·)
          else (ipv4 (String.ofList inner)).map ("invalid ipv4 address: " ++ ·)
        else (hostname (String.ofList machine)).map ("invalid domain: " ++ ·)

/-! ## Addresses -/

/-- An address with its fragment, which is checked for its escapes only. -/
def address (s : String) : Except String Address :=
  let (front, fragment) := Address.cutFragment s
  match Address.read front with
  | .error e => .error ("parse " ++ Text.quoted front ++ ": " ++ e.message)
  | .ok a =>
    match Address.unescape false fragment.toList with
    | .error e => .error ("parse " ++ Text.quoted s ++ ": " ++ e.message)
    | .ok _ => .ok a

/-- An address with a scheme. -/
def uri (s : String) : Problem :=
  match address s with
  | .error e => some e
  | .ok a => if a.scheme = "" then some "relative url" else none

/-- An address with or without a scheme. -/
def uriReference (s : String) : Problem :=
  if s.contains '\\' then some "contains \\"
  else problemOf ((address s).map fun _ => ())

/-- Braces that open and close in turn. -/
def braces (inside : Bool) : List Char → Problem
  | [] => if inside then some "no matching closing brace" else none
  | c :: rest =>
    if c = '\x7b' || c = '\x7d' then
      if (c = '\x7b') = inside then some "nested curly braces" else braces (!inside) rest
    else braces inside rest

/-- An address with names in braces. -/
def uriTemplate (s : String) : Problem :=
  match address s with
  | .error e => some e
  | .ok a => (a.path.splitOn "/").findSome? fun part =>
    braces false ((Address.decoded? part).getD "").toList

/-! ## Versions -/

/-- Letters, digits and hyphens. -/
def isVersionChar (c : Char) : Bool := c.isAlphanum || c = '-'

/-- An identifier behind the numbers of a version. -/
def versionPart (word : String) (numbered : Bool) (cs : List Char) : Problem :=
  if cs.isEmpty then some (word ++ " identifier is empty")
  else match cs.find? fun c => !isVersionChar c with
    | some c => some ("invalid character " ++ Text.quotedChar c ++ " in " ++ word ++ " identifier")
    | none =>
      if numbered && cs.all Char.isDigit && cs.length > 1 && cs.head? = some '0' then
        some (word ++ " numeric identifier starts with zero")
      else none

/-- A version such as `1.2.3-rc.1+build`. -/
def semver (s : String) : Problem :=
  let front := s.toList.takeWhile (· ≠ '+')
  let numbers := front.takeWhile (· ≠ '-')
  let build := match s.toList.drop front.length with
    | [] => none
    | ['+'] => some "build is empty"
    | _ :: rest => (pieces '.' (String.ofList rest)).findSome? (versionPart "build" false)
  let early := match front.drop numbers.length with
    | [] => none
    | _ :: rest => (pieces '.' (String.ofList rest)).findSome? (versionPart "pre-release" true)
  let core :=
    let parts := pieces '.' (String.ofList numbers)
    if parts.length ≠ 3 then some "versionCore must have 3 numbers separated by dot"
    else (parts.zip ["major", "minor", "patch"]).findSome? fun (cs, name) =>
      if cs.isEmpty then some (name ++ " is empty")
      else if cs.length > 1 && cs.head? = some '0' then some (name ++ " starts with zero")
      else if cs.all Char.isDigit then none else some (name ++ " contains non-digit")
  build <|> early <|> core

/-- A regular expression. -/
def regex (s : String) : Problem :=
  match Regex.parse s with
  | .ok _ => none
  | .error e => some e.message

/-- The formats by name. -/
def known : List (String × (String → Problem)) :=
  [("json-pointer", pointer), ("relative-json-pointer", relativePointer), ("uuid", uuid),
    ("duration", duration), ("period", period), ("ipv4", ipv4), ("ipv6", ipv6),
    ("hostname", hostname), ("email", email), ("date", date), ("time", time),
    ("date-time", dateTime), ("uri", uri), ("iri", uri), ("uri-reference", uriReference),
    ("uriref", uriReference), ("iri-reference", uriReference), ("uri-template", uriTemplate),
    ("semver", semver), ("regex", regex)]

/-- What is wrong with a text in the format of that name. -/
def problem? (name s : String) : Problem := (known.lookup name).bind (· s)

end RuleScan.Schema.Format
