import RuleScan.Text.Utf8
import RuleScan.Unicode.Category
import RuleScan.Unicode.Case

/-!
# Fuzzy matching

A name matches a pattern loosely if the characters of the pattern occur in it in that order,
without regard to case.  Matches are ranked: characters at the start, behind a separator, at a
change of case or next to each other count for a name, characters that are passed over count
against it.
-/

namespace RuleScan.Text.Fuzzy

/-- Whether two characters are equal without regard to case. -/
def sameLetter (a b : Char) : Bool := Unicode.fold a.toNat = Unicode.fold b.toNat

/-- A character that separates words in a name. -/
def isSeparator (c : Char) : Bool := ['/', '-', '_', ' ', '.', '\\'].contains c

/-- How far the matching of a name has come. -/
structure State where
  /-- The characters of the pattern that are still to be found. -/
  pattern : List Char
  score : Int := 0
  /-- The place of the last character found. -/
  lastFound : Option Nat := none
  /-- How many characters have been found. -/
  found : Nat := 0
  /-- The best place so far for the next character of the pattern, with its score. -/
  best : Option (Nat × Int) := none
  /-- The bonus for characters found next to each other. -/
  run : Int := 0
  /-- The character before, with its place. -/
  before : Option (Nat × Char) := none
  deriving Inhabited

/-- The bonus of a character next to the last one found. -/
def adjacentBonus (s : State) : Int :=
  match s.lastFound, s.before with
  | some i, some (j, _) => if i = j then s.run * 2 + 5 else 0
  | _, _ => 0

/-- The score of a character of the name that fits the pattern. -/
def charScore (s : State) (place : Nat) (c : Char) : Int :=
  let change := match s.before with
    | some (_, b) => if Unicode.isLower b.toNat && Unicode.isUpper c.toNat then 20 else 0
    | none => 0
  let separated := match s.before with
    | some (_, b) => if isSeparator b then 20 else 0
    | none => 0
  (if place = 0 then 10 else 0) + change + separated + adjacentBonus s

/-- Takes a character of the name into account. -/
def consider (s : State) (place : Nat) (c : Char) : State :=
  match s.pattern with
  | [] => s
  | p :: _ =>
    if sameLetter c p then
      let score := charScore s place c
      let s := { s with run := s.run + adjacentBonus s }
      match s.best with
      | none => { s with best := some (place, score) }
      | some (_, b) => if score > b then { s with best := some (place, score) } else s
    else s

/-- Settles on the best place if the next character of the pattern is coming up or the name ends. -/
def settle (s : State) (next : Option Char) : State :=
  let due := match next, s.pattern with
    | none, _ => true
    | some c, _ :: p :: _ => sameLetter p c
    | some _, _ => false
  match due, s.best with
  | true, some (place, score) =>
    let leading := if s.found = 0 then max (-5 * (place : Int)) (-15) else 0
    { s with
      pattern := s.pattern.tail
      score := s.score + score + leading
      lastFound := some place
      found := s.found + 1
      best := none }
  | _, _ => s

/-- Goes through the characters of a name from a place on. -/
def run (s : State) (place : Nat) : List Char → State
  | [] => s
  | c :: rest =>
    let s := settle (consider s place c) rest.head?
    run { s with before := some (place, c) } (place + c.utf8Size) rest

/-- The rank of a name that matches a pattern. -/
def score? (pattern name : String) : Option Int :=
  let s := run { pattern := pattern.toList } 0 name.toList
  if s.pattern.isEmpty then some (s.score + s.found - (byteLength name : Int)) else none

/-- Puts a match in its place: behind all that are better, before all others. -/
def insert (m : Int × String) : List (Int × String) → List (Int × String)
  | [] => [m]
  | other :: rest => if m.1 ≥ other.1 then m :: other :: rest else other :: insert m rest

/-- The names that match a pattern, best first; of equals the later one stands first. -/
def find (pattern : String) (names : List String) : List String :=
  if pattern.isEmpty then []
  else
    let matched := names.filterMap fun n => (score? pattern n).map (·, n)
    (matched.foldl (fun acc m => insert m acc) []).map (·.2)

end RuleScan.Text.Fuzzy
