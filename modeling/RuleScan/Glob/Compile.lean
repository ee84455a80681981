import RuleScan.Glob.Tree
import RuleScan.Glob.Matcher
import RuleScan.Text.Utf8

/-!
# Compiling path globs

The parts of a glob are turned into matchers and then joined: neighbours of fixed length into a
row, neighbours that only restrict characters into one matcher, and the rest into a tree around
its longest fixed part.  Choices with common ends are first rearranged so that the common ends
stand outside the choice.
-/

namespace RuleScan.Glob

open RuleScan.Text

namespace Matcher

/-! ## Joining matchers -/

/-- A tree around a fixed text whose sides are trivial is one of the simpler matchers. -/
def aroundText (s : Bytes) (left right : Option Matcher) : Matcher :=
  match left, right with
  | none, none => .text s
  | some .super, some .super => .holding s false
  | some .super, none => .endingWith s
  | none, some .super => .startingWith s
  | none, some (.endingWith back) => .between s back
  | some (.startingWith front), none => .between front s
  | some (.any seps), none => .anyThen s seps
  | none, some (.any seps) => .thenAny s seps
  | _, _ => .around (.text s) left right

mutual

/-- The matcher that stands for a matcher without its superfluous parts. -/
def simplify : Matcher → Matcher
  | .any seps => if seps.isEmpty then .super else .any seps
  | .anyOf [m] => m
  | .list [c] false => .text (encode c)
  | .around value left right =>
    match value with
    | .text s => aroundText s (simplifyOption left) (simplifyOption right)
    | _ => .around value (simplifyOption left) (simplifyOption right)
  | m => m

/-- Simplifies a part that may be missing. -/
def simplifyOption : Option Matcher → Option Matcher
  | none => none
  | some m => some (simplify m)

end

/-- How a matcher that only restricts characters does so: the characters it refuses, and
whether it stands for exactly one character. -/
structure Restriction where
  refused : List Nat
  one : Bool
  super : Bool
  deriving Inhabited

/-- The restriction a matcher amounts to, if it is one. -/
def restriction? : Matcher → Option Restriction
  | .super => some ⟨[], false, true⟩
  | .any seps => some ⟨seps, false, false⟩
  | .single seps => some ⟨seps, true, false⟩
  | .list codes true => some ⟨codes, true, false⟩
  | _ => none

/-- Joins matchers that all refuse the same characters. -/
def joinRestrictions? (ms : List Matcher) : Option Matcher := do
  if ms.length ≤ 1 then none
  let rs ← ms.mapM restriction?
  let refused := (rs.head?.map (·.refused)).getD []
  if rs.any (·.refused ≠ refused) then none
  let hasOne := rs.any (·.one)
  let hasSuper := rs.any (·.super)
  let hasAny := rs.any fun r => !r.one && !r.super
  let count := rs.countP (·.one)
  if hasSuper && !hasAny && !hasOne then return .super
  if hasAny && !hasSuper && !hasOne then return .any refused
  if (hasAny || hasSuper) && count > 0 && refused.isEmpty then return .atLeast count
  let lengths :=
    if count > 0 then
      .atLeast count :: if !hasAny && !hasSuper then [.atMost count] else []
    else []
  let bans :=
    if refused.isEmpty then [] else [.holding (refused.flatMap encode) true]
  return .everyOf (lengths ++ bans)

/-- Joins matchers of fixed length. -/
def joinRow? (ms : List Matcher) : Option Matcher := do
  if ms.length ≤ 1 then none
  let lengths ← ms.mapM length?
  return .row (Text.total lengths) ms

/-- Joins neighbours into one matcher, if there is one for them. -/
def join? (ms : List Matcher) : Option Matcher := joinRestrictions? ms <|> joinRow? ms

/-- A stretch of neighbours that can be joined. -/
structure Joint where
  joined : Matcher
  left : Nat
  right : Nat
  deriving Inhabited

/-- Whether a new stretch is to be preferred: it is longer, or matches more characters. -/
def Joint.improves (new old : Joint) : Bool :=
  (match old.joined.length?, new.joined.length? with
    | some a, some b => a < b
    | _, _ => false) || old.right - old.left < new.right - new.left

/-- The best stretch of neighbours to join. -/
def bestJoint? (ms : List Matcher) : Option Joint :=
  let n := ms.length
  let stretches := (List.range n).flatMap fun l =>
    ((List.range (n - l)).map fun k => (l, n - k))
  stretches.foldl (fun best (l, r) =>
    match join? ((ms.take r).drop l) with
    | none => best
    | some m =>
      let new : Joint := ⟨m, l, r⟩
      match best with
      | none => some new
      | some old => if new.improves old then some new else some old) none

/-- Joins stretches until nothing can be joined.  Every round shortens the list. -/
def joinAll : Nat → List Matcher → List Matcher
  | 0, ms => ms
  | fuel + 1, ms =>
    match bestJoint? ms with
    | none => ms
    | some j => joinAll fuel (ms.take j.left ++ j.joined :: ms.drop j.right)

/-- The longest matcher of fixed length, the last of several, with its place. -/
def longest? (ms : List Matcher) : Option (Nat × Matcher) :=
  (go ms 0 none).map fun (i, m, _) => (i, m)
where
  /-- `best` is the longest so far, with its length. -/
  go : List Matcher → Nat → Option (Nat × Matcher × Nat) → Option (Nat × Matcher × Nat)
    | [], _, best => best
    | m :: rest, i, best =>
      let best := match m.length? with
        | none => best
        | some n => if best.all fun (_, _, k) => k ≤ n then some (i, m, n) else best
      go rest (i + 1) best

/-- Builds the tree of a sequence of matchers.  Each side is shorter than the whole. -/
def assemble : Nat → List Matcher → Matcher
  | 0, _ => .nothing
  | fuel + 1, ms =>
    match ms with
    | [] => .nothing
    | [m] => m
    | first :: rest =>
      match join? ms with
      | some m => m
      | none =>
        match longest? ms with
        | none => .around first none (some (assemble fuel rest))
        | some (i, value) =>
          let side (ms : List Matcher) : Option Matcher :=
            if ms.isEmpty then none else some (assemble fuel ms)
          .around value (side (ms.take i)) (side (ms.drop (i + 1)))

end Matcher

namespace Tree

/-! ## Choices with common ends -/

/-- The parts of a sequence; other trees have none. -/
def children : Tree → List Tree
  | .pattern parts => parts
  | .anyOf choices => choices
  | _ => []

/-- Whether a tree is a sequence. -/
def isPattern : Tree → Bool
  | .pattern _ => true
  | _ => false

/-- The first of the shortest lists. -/
def shortest (lists : List (List Tree)) : Nat × List Tree :=
  (lists.zipIdx.foldl (fun best (l, i) =>
    match best with
    | none => some (i, l)
    | some (j, b) => if l.length < b.length then some (i, l) else some (j, b)) none).getD (0, [])

/-- Progress of the comparison of both ends: how many parts are common on the left and right, and
whether either side has ended. -/
structure Ends where
  left : Nat := 0
  right : Nat := 0
  leftDone : Bool := false
  rightDone : Bool := false
  deriving Inhabited

/-- Compares the parts `i` from the left and `j` from the left of the shortest list with those of
another list, whose right end is aligned with the shortest one's. -/
def Ends.compare (e : Ends) (base other : List Tree) (i j : Nat) : Ends :=
  if e.leftDone && e.rightDone then e
  else
    let leftDone := e.leftDone || base[i]? != other[i]?
    let rightDone := e.rightDone || (!leftDone && j ≤ i) ||
      base[j]? != other[j + other.length - base.length]?
    { e with leftDone, rightDone }

/-- How many parts all lists have in common at the left and at the right end. -/
def commonEnds (lists : List (List Tree)) : Nat × Nat :=
  if lists.length ≤ 1 then (0, 0)
  else
    let (k, base) := shortest lists
    let others := lists.eraseIdx k
    let n := base.length
    let e := (List.range n).foldl (fun (e : Ends) i =>
      let j := n - 1 - i
      if e.left + e.right < n && !(e.leftDone && e.rightDone) then
        let e := others.foldl (fun e other => e.compare base other i j) e
        { e with
          left := if e.leftDone then e.left else e.left + 1
          right := if e.rightDone then e.right else e.right + 1 }
      else e) {}
    (e.left, e.right)

/-- A choice between sequences with their common ends outside, if they have any. -/
def factor? (choices : List Tree) : Option Tree := do
  if !choices.all isPattern then none
  let lists := choices.map children
  let (l, r) := commonEnds lists
  if l = 0 && r = 0 then none
  let base := (shortest lists).2
  let middles : List Tree := lists.map fun parts =>
    let inner := (parts.take (parts.length - r)).drop l
    if inner.isEmpty then .nothing else .pattern inner
  let middles : List Tree := middles.foldl (fun acc m => if acc.contains m then acc else acc ++ [m]) []
  let choice : List Tree := match middles with
    | [.nothing] => []
    | [m] => [m]
    | ms => [.anyOf ms]
  let front := if l > 0 then [.pattern (base.take l)] else []
  let back := if r > 0 then [.pattern (base.drop (base.length - r))] else []
  return .pattern (front ++ choice ++ back)

mutual

/-- The number of nodes of a tree. -/
def size : Tree → Nat
  | .pattern parts => sizeAll parts + 1
  | .anyOf choices => sizeAll choices + 1
  | _ => 1

/-- The number of nodes of several trees. -/
def sizeAll : List Tree → Nat
  | [] => 0
  | t :: rest => size t + sizeAll rest

end

/-- The matcher of a tree.  Factoring a choice keeps fewer parts inside the choice, so three
times the size of the tree bounds the depth of the recursion. -/
def compile (separators : List Nat) : Nat → Tree → Matcher
  | 0, _ => .nothing
  | fuel + 1, t =>
    let all (ts : List Tree) : List Matcher :=
      ts.map fun t => (compile separators fuel t).simplify
    match t with
    | .anyOf choices =>
      match factor? choices with
      | some t => compile separators fuel t
      | none => .anyOf (all choices)
    | .pattern [] => .nothing
    | .pattern parts =>
      let ms := all parts
      (Matcher.assemble (ms.length + 1) (Matcher.joinAll ms.length ms)).simplify
    | .any => (Matcher.any separators).simplify
    | .super => .super
    | .single => .single separators
    | .nothing => .nothing
    | .list chars negated => (Matcher.list (chars.map Char.toNat) negated).simplify
    | .range lo hi negated => .range lo.toNat hi.toNat negated
    | .text chars => .text (bytesOf (String.ofList chars))

end Tree

end RuleScan.Glob

namespace RuleScan

/-- A compiled path glob. -/
structure Glob where
  matcher : Glob.Matcher
  deriving Inhabited

namespace Glob

/-- Reads and compiles a glob whose segments are separated by `/`. -/
def ofText (text : String) : Except ParseError Glob := do
  let tree ← Tree.parse text
  return ⟨Tree.compile [0x2f] (3 * tree.size + 3) tree⟩

/-- Whether a glob matches a whole path. -/
def accepts (g : Glob) (path : String) : Bool := g.matcher.accepts (Text.bytesOf path)

end Glob

end RuleScan
