import RuleScan.Expr.Arithmetic
import RuleScan.Expr.Value
import RuleScan.Expr.Format
import RuleScan.Regex.Program
import RuleScan.Expr.Convert
import RuleScan.Glob.Compile
import RuleScan.Path

/-!
# The functions of scope expressions

What each function computes, by the kind of value it is about, and then all of them by name.
-/

/-!
## Functions on lists
-/

namespace RuleScan.Expr

/-- Removes repeated values, keeping the first. -/
def distinctValues (vs : List Val) : List Val :=
  vs.foldl (fun acc v => if acc.any (Val.equal v) then acc else acc ++ [v]) []

/-- Lists nested up to a depth made one. -/
def flattenValues : Nat → List Val → List Val
  | 0, vs => vs
  | n + 1, vs => vs.flatMap fun v =>
    match v.elements? with
    | some es => flattenValues n es
    | none => [v]

/-- Puts a value with its key before those with greater keys at the end of a list, which is given
from its end. -/
def insertBack (less : Val → Val → Bool) (x : Val × Val) : List (Val × Val) → List (Val × Val)
  | [] => [x]
  | y :: rest => if less x.1 y.1 then y :: insertBack less x rest else x :: y :: rest

/-- Values in the order of their keys; values with equal keys keep their order. -/
def sortByKeys (pairs : List (Val × Val)) : List Val :=
  let less (a b : Val) : Bool := match a.order b with
    | .ok o => o == .lt
    | .error _ => false
  (pairs.foldl (fun acc x => insertBack less x acc) []).reverse.map (·.2)

/-- A list sorted by its keys, which have to be of one type that can be compared. -/
def sortedBy (kind : ListKind) (es keys : List Val) : Outcome :=
  match keys with
  | [] => .ok (.list kind es)
  | first :: _ =>
    if !first.isComparable then .error .notComparable
    else if keys.any fun k => k.typeName ≠ first.typeName then .error .notAlike
    else .ok (.list .built (sortByKeys (keys.zip es)))

/-- The texts of a list with a separator between them. -/
def joinTexts (es : List Val) (separator : String) : Outcome := do
  let ss ← es.mapM fun
    | .string s => .ok s
    | v => .error (.badJoin v.shown)
  return .string (separator.intercalate ss)

/-- Part of a list. -/
def slice (es : List Val) (a b : Int) : Outcome :=
  let n : Int := es.length
  if a < 0 ∨ b < 0 then .error (.badSlice a b "negative indexes not supported")
  else if a > b then .error (.badSlice a b "start index must be less than or equal to end index")
  else if b > n then .error (.badSlice a b ("list is length " ++ toString n))
  else .ok (.list .built ((es.take b.toNat).drop a.toNat))

/-- Whether the first element of a list, if there is one, is of some kind. -/
def startsWithKind (p : Val → Bool) (es : List Val) : Bool := es.head?.all p

/-- Whether a value is a text. -/
def Val.isText : Val → Bool
  | .string _ => true
  | _ => false

/-- Whether a value is a list. -/
def Val.isList : Val → Bool
  | .list _ _ => true
  | _ => false

/-- Functions on a list; the first argument is the receiver. -/
def listFunction? (name : String) (args : List Val) : Option Outcome :=
  match name, args with
  | "join", [.list _ es] => if startsWithKind Val.isText es then some (joinTexts es "") else none
  | "join", [.list _ es, .string sep] =>
    if startsWithKind Val.isText es then some (joinTexts es sep) else none
  | "slice", [.list _ es, .int a, .int b] => some (slice es a b)
  | "reverse", [.list _ es] => some (.ok (.list .built es.reverse))
  | "distinct", [.list kind es] =>
    some (.ok (if es.isEmpty then .list kind es else .list .built (distinctValues es)))
  | "flatten", [.list _ es] =>
    if startsWithKind Val.isList es then some (.ok (.list .built (flattenValues 1 es))) else none
  | "flatten", [.list _ es, .int n] =>
    some (if n < 0 then .error .negativeLevel
      else .ok (.list .built (flattenValues n.toNat es)))
  | "sort", [.list kind es] => some (sortedBy kind es es)
  | "sort", [v] => some (lacking "sort" v)
  | "@sortByAssociatedKeys", [.list kind es, .list _ keys] => some (sortedBy kind es keys)
  | "@sortByAssociatedKeys", [.list _ _, _] => some (.error .noOverload)
  | "@sortByAssociatedKeys", [v, _] => some (lacking "@sortByAssociatedKeys" v)
  | "lists.range", [.int n] =>
    some (.ok (.list .built ((List.range n.toNat).map fun (i : Nat) => Val.int (Int.ofNat i))))
  | _, _ => none

end RuleScan.Expr

/-!
## Functions on moments and durations

The parts of a moment, on its own clock or on that of a named zone, and a duration in larger
units.
-/

namespace RuleScan.Expr

open RuleScan.Text RuleScan.Time

/-- A part of a moment by the name of its function.  Months and days of the month are counted from
zero. -/
def momentPart? (name : String) (m : Moment) : Option Int :=
  let d := m.date
  match name with
  | "getFullYear" => some d.year
  | "getMonth" => some ((d.month : Int) - 1)
  | "getDayOfYear" => some d.dayOfYear
  | "getDayOfMonth" => some ((d.day : Int) - 1)
  | "getDate" => some d.day
  | "getDayOfWeek" => some d.weekday
  | "getHours" => some m.hour
  | "getMinutes" => some m.minute
  | "getSeconds" => some m.second
  | "getMilliseconds" => some (m.nanos / 1000000 : Nat)
  | _ => none

/-- The whole number of units in a duration, as far as doubles tell. -/
def wholeUnits (nanos unit : Int) : Int :=
  let x := Val.doubleOf (nanos.tdiv unit) + Val.doubleOf (nanos.tmod unit) / Val.doubleOf unit
  let n : Int := (x.abs.floor.toUInt64.toNat : Nat)
  if x < 0 then -n else n

/-- A duration in the units of a function. -/
def durationPart? (name : String) (nanos : Int) : Option Int :=
  match name with
  | "getHours" => some (wholeUnits nanos 3600000000000)
  | "getMinutes" => some (wholeUnits nanos 60000000000)
  | "getSeconds" => some (wholeUnits nanos 1000000000)
  | "getMilliseconds" => some (nanos.tdiv 1000000)
  | _ => none

/-- A whole number that is part of a zone. -/
def zoneNumber (s : List Char) : Except Failure Int :=
  let (negative, ds) := match s with
    | '-' :: ds => (true, ds)
    | '+' :: ds => (false, ds)
    | ds => (false, ds)
  let n : Int := ds.foldl (fun n c => n * 10 + (c.toNat - 48)) 0
  let refuse (why : String) : Except Failure Int :=
    .error (.badZone ("strconv.Atoi: parsing " ++ quoted (String.ofList s) ++ ": " ++ why))
  if ds.isEmpty || !ds.all Char.isDigit then refuse "invalid syntax"
  else if Word.half ≤ n then refuse "value out of range"
  else .ok (if negative then -n else n)

/-- How many seconds the clock of a zone is ahead.  A zone is written as hours and minutes, or is
the zone of the meridian. -/
def zoneAhead (zone : String) : Except Failure Int :=
  match zone.toList.span (· ≠ ':') with
  | (hours, _ :: minutes) => do
    let h ← zoneNumber hours
    let m ← zoneNumber minutes
    return (if hours.head? = some '-' then h * 60 - m else h * 60 + m) * 60
  | _ =>
    if zone = "" || zone = "UTC" || zone = "Local" then .ok 0
    else if containsText ".." zone || zone.startsWith "/" || zone.startsWith "\\" then
      .error (.badZone "time: invalid location name")
    else .error (.badZone ("unknown time zone " ++ zone))

/-- Functions on a moment or a duration; the first argument is the receiver. -/
def timeFunction? (name : String) (args : List Val) : Option Outcome :=
  match args with
  | [.moment m] => (momentPart? name m).map (.ok ∘ .int)
  | [.moment m, .string zone] =>
    (momentPart? name m).map fun _ => do
      let ahead ← zoneAhead zone
      return .int ((momentPart? name { m with ahead }).getD 0)
  | [.duration n] => (durationPart? name n).map (.ok ∘ .int)
  | _ => none

end RuleScan.Expr

/-!
## Functions on texts

Places in a text are counted in characters, and a place behind the end is refused or not found,
as each function has it.
-/

namespace RuleScan.Expr

open RuleScan.Text

/-- The first place, from the place `start` on, where `needle` occurs in `hay`. -/
def findFrom (needle hay : List Char) (start : Nat) : Option Nat :=
  (List.range (hay.length + 1 - start)).findSome? fun i =>
    if needle.isPrefixOf (hay.drop (start + i)) then some (start + i) else none

/-- The last place, not after `start`, where `needle` occurs in `hay`. -/
def findBack (needle hay : List Char) (start : Nat) : Option Nat :=
  (List.range (start + 1)).reverse.find? fun i => needle.isPrefixOf (hay.drop i)

/-- Replaces the first `limit` occurrences, or all of them. -/
def replaceText (old new : List Char) : Nat → Option Nat → List Char → List Char
  | 0, _, s => s
  | fuel + 1, limit, s =>
    if limit = some 0 then s
    else match cut? old s with
      | none => s
      | some (before, after) =>
        before ++ new ++ replaceText old new fuel (limit.map (· - 1)) after

/-- Replacing the empty text puts the new one around every character. -/
def interleave (new : List Char) : Option Nat → List Char → List Char
  | some 0, s => s
  | limit, [] => if limit = some 0 then [] else new
  | limit, c :: rest => new ++ c :: interleave new (limit.map (· - 1)) rest

/-- Replacement in a text. -/
def replaceIn (s old new : String) (limit : Option Nat) : String :=
  String.ofList <|
    if old.isEmpty then interleave new.toList limit s.toList
    else replaceText old.toList new.toList (s.length + 1) limit s.toList

/-- The pieces between occurrences of a separator, at most `limit` of them. -/
def splitText (sep : List Char) : Nat → Option Nat → List Char → List (List Char)
  | 0, _, s => [s]
  | fuel + 1, limit, s =>
    if limit = some 1 then [s]
    else match cut? sep s with
      | none => [s]
      | some (before, after) => before :: splitText sep fuel (limit.map (· - 1)) after

/-- Splitting at the empty text gives the characters. -/
def splitChars : Option Nat → List Char → List (List Char)
  | _, [] => []
  | some 1, s => [s]
  | limit, c :: rest => [c] :: splitChars (limit.map (· - 1)) rest

/-- The pieces of a text; a negative limit is none. -/
def splitIn (s sep : String) (limit : Int) : List String :=
  if limit = 0 then []
  else
    let limit := if limit < 0 then none else some limit.toNat
    let pieces :=
      if sep.isEmpty then splitChars limit s.toList
      else splitText sep.toList (s.length + 1) limit s.toList
    pieces.map String.ofList

/-- A part of a text by its places. -/
def substring (s : String) (start stop : Int) : Outcome :=
  let n : Int := s.length
  if start > stop then .error (.badSubstring start stop)
  else if start < 0 ∨ start > n then .error (.outOfRange start)
  else if stop < 0 ∨ stop > n then .error (.outOfRange stop)
  else .ok (.string (String.ofList ((s.toList.take stop.toNat).drop start.toNat)))

/-- A text between quotes. -/
def quoteText (s : String) : String :=
  let one (c : Char) : String := match c with
    | '\x07' => "\\a"
    | '\x08' => "\\b"
    | '\x0c' => "\\f"
    | '\n' => "\\n"
    | '\r' => "\\r"
    | '\t' => "\\t"
    | '\x0b' => "\\v"
    | '\\' => "\\\\"
    | '"' => "\\\""
    | c => String.ofList [c]
  "\"" ++ String.join (s.toList.map one) ++ "\""

/-- Functions on a text; the first argument is the receiver. -/
def textFunction? (name : String) (args : List Val) : Option Outcome :=
  match name, args with
  | "contains", [.string a, .string b] => some (.ok (.bool (containsText b a)))
  | "startsWith", [.string a, .string b] => some (.ok (.bool (b.toList.isPrefixOf a.toList)))
  | "endsWith", [.string a, .string b] => some (.ok (.bool (b.toList.isSuffixOf a.toList)))
  | "contains", [_, _] | "startsWith", [_, _] | "endsWith", [_, _] => some (.error .noOverload)
  | "matches", [.string a, .string b] =>
    some (match Regex.parse b with
      | .error e => .error (.badRegex e)
      | .ok r => .ok (.bool (Regex.isMatch (Regex.compile r) (decode (bytesOf a)))))
  | "matches", [a, _] => some (lacking "matches" a)
  | "charAt", [.string s, .int i] =>
    some (if i < 0 ∨ i > s.length then .error (.outOfRange i)
      else .ok (.string (String.ofList ((s.toList.drop i.toNat).take 1))))
  | "indexOf", [.string s, .string t] =>
    some (.ok (.int (((findFrom t.toList s.toList 0).map Int.ofNat).getD (-1))))
  | "indexOf", [.string s, .string t, .int i] =>
    some (if t.isEmpty then .ok (.int i)
      else if i < 0 then .error (.outOfRange i)
      else .ok (.int (((findFrom t.toList s.toList i.toNat).map Int.ofNat).getD (-1))))
  | "lastIndexOf", [.string s, .string t] =>
    some (if t.isEmpty then .ok (.int s.length)
      else if s.isEmpty then .error (.outOfRange (-1))
      else .ok (.int (((findBack t.toList s.toList s.length).map Int.ofNat).getD (-1))))
  | "lastIndexOf", [.string s, .string t, .int i] =>
    some (if t.isEmpty then .ok (.int i)
      else if i < 0 then .error (.outOfRange i)
      else if i ≥ s.length then .ok (.int (-1))
      else .ok (.int (((findBack t.toList s.toList i.toNat).map Int.ofNat).getD (-1))))
  | "lowerAscii", [.string s] => some (.ok (.string (asciiLower s)))
  | "upperAscii", [.string s] => some (.ok (.string (asciiUpper s)))
  | "replace", [.string s, .string a, .string b] =>
    some (.ok (.string (replaceIn s a b none)))
  | "replace", [.string s, .string a, .string b, .int n] =>
    some (.ok (.string (replaceIn s a b (if n < 0 then none else some n.toNat))))
  | "split", [.string s, .string t] => some (.ok (.texts (splitIn s t (-1))))
  | "split", [.string s, .string t, .int n] => some (.ok (.texts (splitIn s t n)))
  | "substring", [.string s, .int a] => some (substring s a (max a s.length))
  | "substring", [.string s, .int a, .int b] => some (substring s a b)
  | "trim", [.string s] => some (.ok (.string (trim s)))
  | "reverse", [.string s] => some (.ok (.string (String.ofList s.toList.reverse)))
  | "strings.quote", [.string s] => some (.ok (.string (quoteText s)))
  | "format", [.string s, v] =>
    v.elements?.map fun vs => formatText s vs
  | _, _ => none

end RuleScan.Expr

/-!
## What the functions of scope expressions compute

Arguments of types that no signature allows can only come from values typed `dyn`, and fail.
-/

namespace RuleScan.Expr

/-- Functions on paths. -/
def pathFunction? (name : String) (args : List Val) : Option Outcome :=
  match name, args with
  | "pathBase", [.string p] => some (.ok (.string (Path.base p)))
  | "pathDir", [.string p] => some (.ok (.string (Path.dir p)))
  | "pathExt", [.string p] => some (.ok (.string (Path.ext p)))
  | "pathMatch", [.string p, .string g] =>
    some (match Glob.ofText g with
      | .error e => .error (.badGlob e.message)
      | .ok g => .ok (.bool (g.accepts p)))
  | _, _ => none

/-- Operators. -/
def operator? (name : String) (args : List Val) : Option Outcome :=
  match name, args with
  | "_+_", [a, b] => some (add a b)
  | "_-_", [a, b] => some (subtract a b)
  | "_*_", [a, b] => some (multiply a b)
  | "_/_", [a, b] => some (divide a b)
  | "_%_", [a, b] => some (modulo a b)
  | "-_", [a] => some (negate a)
  | "!_", [.bool b] => some (.ok (.bool !b))
  | "!_", _ => some (.error .noOverload)
  | "_==_", [a, b] => some (.ok (.bool (a.equal b)))
  | "_!=_", [a, b] => some (.ok (.bool !(a.equal b)))
  | "_<_", [a, b] => some (compareWith name (· == .lt) a b)
  | "_<=_", [a, b] => some (compareWith name (· != .gt) a b)
  | "_>_", [a, b] => some (compareWith name (· == .gt) a b)
  | "_>=_", [a, b] => some (compareWith name (· != .lt) a b)
  | "_[_]", [a, b] => some (index a b)
  | "@in", [a, b] => some (member? a b)
  | _, _ => none

/-- Functions on values of any type. -/
def generalFunction? (name : String) (args : List Val) : Option Outcome :=
  match name, args with
  | "dyn", [a] => some (.ok a)
  | "type", [a] => some (.ok (.type a.typeName))
  | "size", [.string s] => some (.ok (.int s.length))
  | "size", [.bytes b] => some (.ok (.int b.length))
  | "size", [.map es] => some (.ok (.int es.length))
  | "size", [.list _ es] => some (.ok (.int es.length))
  | "size", [v] => some (lacking "size" v)
  | _, _ => none

/-- The value of a call. -/
def applyFunction (name : String) (args : List Val) : Outcome :=
  let found := operator? name args <|> generalFunction? name args <|> conversion? name args <|>
    textFunction? name args <|> listFunction? name args <|> timeFunction? name args <|>
    pathFunction? name args
  found.getD (.error (.noOverloadFor name (args.map Val.typeName)))

end RuleScan.Expr
