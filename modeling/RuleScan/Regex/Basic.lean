import RuleScan.Unicode.Category
import RuleScan.Unicode.Script
import RuleScan.Unicode.Case

/-!
# Regular expressions

The expressions a pattern of kind `regex` may be written in: character classes, positions,
concatenation, choice and counted repetition.  Groups are kept, because nesting is limited, but
what they capture is never asked for.
-/

namespace RuleScan.Regex

open RuleScan.Unicode

/-- A part of a character class: some code points, or all others. -/
structure ClassItem where
  negated : Bool
  ranges : Ranges
  deriving Repr, DecidableEq, Inhabited

/-- A set of code points given by the parts it is made of, or its complement. -/
structure CharClass where
  negated : Bool
  items : List ClassItem
  deriving Repr, DecidableEq, Inhabited

/-- Membership in one part. -/
def ClassItem.contains (item : ClassItem) (code : Nat) : Bool :=
  item.negated != item.ranges.contains code

/-- Membership in a class. -/
def CharClass.contains (cls : CharClass) (code : Nat) : Bool :=
  cls.negated != cls.items.any (·.contains code)

/-- The code points that are equal to some other code point without regard to case, grouped. -/
def orbits : List (List Nat) :=
  let bases := foldRuns.flatMap fun r =>
    (List.range ((r.hi - r.lo) / r.step + 1)).map fun i =>
      (Int.ofNat (r.lo + i * r.step) + r.delta).toNat
  bases.eraseDups.map orbit

/-- A set of code points together with all that are equal to one of them without regard to
case.  A set of one code point does not consult the whole table. -/
def closeUnderFold (ranges : Ranges) : Ranges :=
  match ranges with
  | [⟨lo, hi, _⟩] =>
    if lo = hi then (orbit lo).map fun c => ⟨c, c, 1⟩ else closeAll
  | _ => closeAll
where
  /-- Adds every orbit that meets the set. -/
  closeAll : Ranges :=
    ranges ++ (orbits.filter fun o => o.any ranges.contains).flatMap fun o =>
      o.map fun c => ⟨c, c, 1⟩

/-- A position that can be asserted. -/
inductive Anchor where
  /-- Start of the text. -/
  | textStart
  /-- End of the text. -/
  | textEnd
  /-- Start of the text or after a line feed. -/
  | lineStart
  /-- End of the text or before a line feed. -/
  | lineEnd
  /-- Between a word character and another one, or an end. -/
  | wordEdge
  /-- Anywhere else. -/
  | noWordEdge
  deriving Repr, DecidableEq, Inhabited

/-- A word character is an ASCII letter or digit or the underscore. -/
def isWordCode (code : Nat) : Bool :=
  (0x30 ≤ code && code ≤ 0x39) || (0x41 ≤ code && code ≤ 0x5a) || code = 0x5f ||
    (0x61 ≤ code && code ≤ 0x7a)

/-- Whether a position holds between the code points `before` and `after`; `none` is an end of
the text. -/
def Anchor.holds (a : Anchor) (before after : Option Nat) : Bool :=
  match a with
  | .textStart => before.isNone
  | .textEnd => after.isNone
  | .lineStart => before.all (· = 0x0a)
  | .lineEnd => after.all (· = 0x0a)
  | .wordEdge => before.any isWordCode != after.any isWordCode
  | .noWordEdge => before.any isWordCode == after.any isWordCode

end RuleScan.Regex

namespace RuleScan

/-- Regular expressions. -/
inductive Regex where
  /-- Matches the empty text. -/
  | empty
  /-- Matches one code point of a class. -/
  | one (cls : Regex.CharClass)
  /-- Matches the empty text where a position holds. -/
  | at (anchor : Regex.Anchor)
  /-- One after the other. -/
  | seq (first second : Regex)
  /-- Either one. -/
  | alt (first second : Regex)
  /-- At least `min` times and, if there is a bound, at most `max` times. -/
  | repeated (min : Nat) (max : Option Nat) (body : Regex)
  /-- A capturing group. -/
  | group (body : Regex)
  deriving Repr, DecidableEq, Inhabited

namespace Regex

/-- The class of a single code point. -/
def CharClass.single (code : Nat) : CharClass := ⟨false, [⟨false, [⟨code, code, 1⟩]⟩]⟩

/-- The class of every code point. -/
def CharClass.any : CharClass := ⟨true, []⟩

/-- The class of every code point but the line feed. -/
def CharClass.anyButNewline : CharClass := ⟨true, [⟨false, [⟨0x0a, 0x0a, 1⟩]⟩]⟩

/-- Puts expressions one after the other. -/
def seqAll : List Regex → Regex
  | [] => .empty
  | [r] => r
  | r :: rest => .seq r (seqAll rest)

/-- Chooses between expressions. -/
def altAll : List Regex → Regex
  | [] => .empty
  | [r] => r
  | r :: rest => .alt r (altAll rest)

/-- Whether a class is one code point, perhaps without regard to case. -/
def CharClass.isLiteral (cls : CharClass) : Bool :=
  match cls with
  | ⟨false, [⟨false, ⟨lo, hi, _⟩ :: more⟩]⟩ =>
    lo = hi && more.length < 3 && more.all fun s => s.lo = s.hi && Unicode.fold s.lo = Unicode.fold lo
  | _ => false

/-- What counts of an expression for the nesting of those around it.  Literals that follow one
another are one text, and a choice between single code points is one class. -/
inductive Nesting where
  | literal
  | text
  | cls
  /-- A sequence, a choice or a repetition, with the depth of what stands in it. -/
  | sequence (inner : Nat)
  | choice (inner : Nat)
  | repetition (inner : Nat)
  | other (depth : Nat)
  deriving Repr, DecidableEq, Inhabited

namespace Nesting

/-- The depth of an expression that stands by itself. -/
def depth : Nesting → Nat
  | literal | text | cls => 1
  | sequence k | choice k | repetition k => k + 1
  | other k => k

/-- Two expressions one after the other; sequences in a sequence do not count. -/
def andThen (a b : Nesting) : Nesting :=
  let isText (n : Nesting) : Bool := n = literal || n = text
  let member : Nesting → Nat
    | sequence k => k
    | n => n.depth
  if isText a && isText b then text else sequence (max (member a) (member b))

/-- A choice between two expressions; choices in a choice do not count. -/
def orElse (a b : Nesting) : Nesting :=
  let isClass (n : Nesting) : Bool := n = literal || n = cls
  let member : Nesting → Nat
    | choice k => k
    | n => n.depth
  if isClass a && isClass b then cls else choice (max (member a) (member b))

/-- A repetition; one that is repeated itself does not count. -/
def repeated (a : Nesting) (simple : Bool) : Nesting :=
  match a, simple with
  | repetition k, true => repetition k
  | a, true => repetition a.depth
  | a, false => other (a.depth + 1)

end Nesting

/-- The nesting of an expression. -/
def nesting : Regex → Nesting
  | .one c => if c.isLiteral then .literal else .cls
  | .empty | .at _ => .other 1
  | .seq a b => (nesting a).andThen (nesting b)
  | .alt a b => (nesting a).orElse (nesting b)
  | .repeated lo hi r => (nesting r).repeated (lo ≤ 1 && hi.all (· = 1) && (lo, hi) ≠ (1, some 1))
  | .group r => .other ((nesting r).depth + 1)

/-- The nesting depth of an expression. -/
def depth (r : Regex) : Nat := r.nesting.depth

/-- Whether nested counted repetitions multiply to no more than `budget`. -/
def repeatsWithin (budget : Nat) : Regex → Bool
  | .empty | .one _ | .at _ => true
  | .seq a b | .alt a b => repeatsWithin budget a && repeatsWithin budget b
  | .group r => repeatsWithin budget r
  | .repeated lo hi r =>
    if hi = some 0 then true
    else
      let times := hi.getD lo
      if times > budget then false
      else repeatsWithin (if times > 0 then budget / times else budget) r

end Regex

end RuleScan
