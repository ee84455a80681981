/-!
# Days and moments

The days of the calendar, and moments on them.
-/

/-!
## Days of the calendar

The days of the proleptic Gregorian calendar, counted from the first day of 1970.  Years are
counted from March on, so that the day that is put in comes last.
-/

namespace RuleScan.Time

/-- A day by its year, month and day, months and days counted from one. -/
structure Date where
  year : Int
  month : Nat
  day : Nat
  deriving Repr, DecidableEq, Inhabited

namespace Date

/-- Whether a year has a day more. -/
def isLeap (year : Int) : Bool := year % 4 = 0 && (year % 100 ≠ 0 || year % 400 = 0)

/-- How many days a month has. -/
def daysIn (year : Int) (month : Nat) : Nat :=
  if month = 2 then if isLeap year then 29 else 28
  else if [4, 6, 9, 11].contains month then 30
  else 31

/-- How many days lie between the first day of 1970 and a date. -/
def toDays (d : Date) : Int :=
  let y := if d.month ≤ 2 then d.year - 1 else d.year
  let era := y / 400
  let yearOfEra := y % 400
  let monthFromMarch : Int := ((d.month : Int) + 9) % 12
  let dayOfYear := (153 * monthFromMarch + 2) / 5 + (d.day : Int) - 1
  let dayOfEra := yearOfEra * 365 + yearOfEra / 4 - yearOfEra / 100 + dayOfYear
  era * 146097 + dayOfEra - 719468

/-- The date of a day that is counted from the first day of 1970. -/
def ofDays (days : Int) : Date :=
  let z := days + 719468
  let era := z / 146097
  let dayOfEra := z % 146097
  let yearOfEra :=
    (dayOfEra - dayOfEra / 1460 + dayOfEra / 36524 - dayOfEra / 146096) / 365
  let dayOfYear := dayOfEra - (365 * yearOfEra + yearOfEra / 4 - yearOfEra / 100)
  let monthFromMarch := (5 * dayOfYear + 2) / 153
  let day := dayOfYear - (153 * monthFromMarch + 2) / 5 + 1
  let month := if monthFromMarch < 10 then monthFromMarch + 3 else monthFromMarch - 9
  let year := yearOfEra + era * 400 + (if month ≤ 2 then 1 else 0)
  ⟨year, month.toNat, day.toNat⟩

/-- Whether there is such a day. -/
def isValid (d : Date) : Bool :=
  1 ≤ d.month && d.month ≤ 12 && 1 ≤ d.day && d.day ≤ daysIn d.year d.month

/-- The day of the year, counted from zero. -/
def dayOfYear (d : Date) : Int := d.toDays - (Date.mk d.year 1 1).toDays

/-- The day of the week, counted from Sunday on. -/
def weekday (d : Date) : Int := (d.toDays + 4) % 7

end Date

end RuleScan.Time

/-!
## Moments

A moment is a number of seconds since the first of January 1970 together with a part of a second,
seen from a place that is some seconds ahead of the meridian.  Moments are read from texts such as
`2020-01-01T10:20:30.5Z` and written in the same form.
-/

namespace RuleScan.Time

/-- A moment and the clock that it is read from. -/
structure Moment where
  seconds : Int
  nanos : Nat := 0
  /-- How many seconds the clock is ahead. -/
  ahead : Int := 0
  deriving Repr, DecidableEq, Inhabited

namespace Moment

/-- How many seconds a day has. -/
def daySeconds : Int := 86400

/-- The date on the clock of a moment. -/
def date (m : Moment) : Date := .ofDays ((m.seconds + m.ahead) / daySeconds)

/-- The seconds that have passed on the day of a moment. -/
def ofDay (m : Moment) : Int := (m.seconds + m.ahead) % daySeconds

/-- The hours on the clock. -/
def hour (m : Moment) : Int := m.ofDay / 3600

/-- The minutes on the clock. -/
def minute (m : Moment) : Int := m.ofDay % 3600 / 60

/-- The seconds on the clock. -/
def second (m : Moment) : Int := m.ofDay % 60

/-- The order of two moments, whatever their clocks. -/
def order (a b : Moment) : Ordering := (compare a.seconds b.seconds).then (compare a.nanos b.nanos)

/-! ### Texts -/

/-- A number with at least some digits. -/
def padded (width : Nat) (n : Nat) : String :=
  let ds := Nat.toDigits 10 n
  String.ofList (List.replicate (width - ds.length) '0' ++ ds)

/-- The part of a second behind its point, without zeros at its end. -/
def fractionText (nanos : Nat) : String :=
  let ds := (padded 9 nanos).toList
  let kept := (ds.reverse.dropWhile (· = '0')).reverse
  if kept.isEmpty then "" else "." ++ String.ofList kept

/-- How far a clock is ahead, as hours and minutes. -/
def aheadText (ahead : Int) : String :=
  if ahead = 0 then "Z"
  else
    let minutes := ahead.natAbs / 60
    (if ahead < 0 then "-" else "+") ++ padded 2 (minutes / 60) ++ ":" ++ padded 2 (minutes % 60)

/-- A moment as a text. -/
def text (m : Moment) : String :=
  let d := m.date
  (if d.year < 0 then "-" else "") ++ padded 4 d.year.natAbs ++ "-" ++ padded 2 d.month ++ "-" ++
    padded 2 d.day ++ "T" ++ padded 2 m.hour.toNat ++ ":" ++ padded 2 m.minute.toNat ++ ":" ++
    padded 2 m.second.toNat ++ fractionText m.nanos ++ aheadText m.ahead

/-- A moment in words: with a blank for the mark, the distance of the clock and its name. -/
def longText (m : Moment) : String :=
  let d := m.date
  let distance :=
    let minutes := m.ahead.natAbs / 60
    (if m.ahead < 0 then "-" else "+") ++ padded 2 (minutes / 60) ++ padded 2 (minutes % 60)
  (if d.year < 0 then "-" else "") ++ padded 4 d.year.natAbs ++ "-" ++ padded 2 d.month ++ "-" ++
    padded 2 d.day ++ " " ++ padded 2 m.hour.toNat ++ ":" ++ padded 2 m.minute.toNat ++ ":" ++
    padded 2 m.second.toNat ++ fractionText m.nanos ++ " " ++ distance ++ " " ++
    (if m.ahead = 0 then "UTC" else distance)

/-- A moment some nanoseconds later. -/
def later (m : Moment) (nanos : Int) : Moment :=
  let total := (m.nanos : Int) + nanos
  { m with seconds := m.seconds + total / 1000000000, nanos := (total % 1000000000).toNat }

/-- How many nanoseconds a moment is after another one. -/
def since (a b : Moment) : Int :=
  (a.seconds - b.seconds) * 1000000000 + ((a.nanos : Int) - b.nanos)

/-- A number of exactly so many digits at the front. -/
def digits? (n : Nat) (cs : List Char) : Option (Nat × List Char) :=
  let ds := cs.take n
  if ds.length = n && ds.all Char.isDigit then
    some (ds.foldl (fun k c => k * 10 + (c.toNat - 48)) 0, cs.drop n)
  else none

/-- A number of one or two digits at the front. -/
def oneOrTwo? (cs : List Char) : Option (Nat × List Char) :=
  match digits? 2 cs with
  | some r => some r
  | none => digits? 1 cs

/-- A character at the front. -/
def skip? (c : Char) : List Char → Option (List Char)
  | d :: rest => if c = d then some rest else none
  | [] => none

/-- A part of a second at the front, of which nine digits count; there may be none. -/
def fraction (cs : List Char) : Nat × List Char :=
  match cs with
  | p :: d :: rest =>
    if (p = '.' || p = ',') && d.isDigit then
      let ds := ((d :: rest).takeWhile Char.isDigit).take 9
      let n := ds.foldl (fun k c => k * 10 + (c.toNat - 48)) 0
      (n * Nat.pow 10 (9 - ds.length), (d :: rest).dropWhile Char.isDigit)
    else (0, cs)
  | cs => (0, cs)

/-- How far the clock is ahead, at the front. -/
def ahead? : List Char → Option (Int × List Char)
  | 'Z' :: rest => some (0, rest)
  | sign :: rest => do
    let (hours, rest) ← digits? 2 rest
    let (minutes, rest) ← digits? 2 (← skip? ':' rest)
    if hours > 24 || minutes > 60 then none
    let n : Int := hours * 3600 + minutes * 60
    if sign = '+' then return (n, rest) else if sign = '-' then return (-n, rest) else none
  | [] => none

/-- How the parts of a moment are written: whether months, days, minutes and seconds may have one
digit, what stands before the time of day, and whether the distance of the clock is given. -/
structure Form where
  short : Bool
  mark : Char
  ahead : Bool

/-- A number of two digits at the front, or of one where the form allows it. -/
def Form.number? (f : Form) (cs : List Char) : Option (Nat × List Char) :=
  if f.short then oneOrTwo? cs else digits? 2 cs

/-- A date at the front, in a form. -/
def Form.date? (f : Form) (cs : List Char) : Option (Date × List Char) := do
  let (year, cs) ← digits? 4 cs
  let (month, cs) ← f.number? (← skip? '-' cs)
  let (day, cs) ← f.number? (← skip? '-' cs)
  if month < 1 || month > 12 then none
  return (⟨year, month, day⟩, cs)

/-- A time of day at the front, in a form. -/
def Form.clock? (f : Form) (cs : List Char) : Option (Nat × Nat × List Char) := do
  let (hour, cs) ← oneOrTwo? cs
  let (minute, cs) ← f.number? (← skip? ':' cs)
  let (second, cs) ← f.number? (← skip? ':' cs)
  if hour > 23 || minute > 59 || second > 59 then none
  let (nanos, cs) := fraction cs
  return (hour * 3600 + minute * 60 + second, nanos, cs)

/-- Reads a date and a time of day in a form; a mark that is a space may be repeated. -/
def Form.parse? (f : Form) (s : String) : Option Moment := do
  let (d, cs) ← f.date? s.toList
  let cs ← skip? f.mark cs
  let cs := if f.mark = ' ' then cs.dropWhile (· = ' ') else cs
  let (seconds, nanos, cs) ← f.clock? cs
  let (ahead, cs) ← if f.ahead then ahead? cs else some (0, cs)
  if !cs.isEmpty || !d.isValid then none
  return { seconds := d.toDays * daySeconds + seconds - ahead, nanos, ahead }

/-- Reads a date alone in a form, which is its first moment. -/
def Form.day? (f : Form) (s : String) : Option Moment := do
  let (d, cs) ← f.date? s.toList
  if !cs.isEmpty || !d.isValid then none
  return { seconds := d.toDays * daySeconds }

/-- Reads a date, perhaps with a time of day behind the mark `T` or `t` and the distance of the
clock, or behind a space. -/
def parseAny? (short : Bool) (s : String) : Option Moment :=
  (Form.mk short 'T' true).parse? s <|> (Form.mk short 't' true).parse? s <|>
    (Form.mk short ' ' false).parse? s <|> (Form.mk short 'T' true).day? s

/-- The first moment of the first year. -/
def first : Moment := { seconds := -62135596800 }

/-- Reads a moment. -/
def parse? (s : String) : Option Moment := (Form.mk false 'T' true).parse? s

end Moment

end RuleScan.Time
