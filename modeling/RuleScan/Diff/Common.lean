import RuleScan.Diff.Ranking

/-!
# Common lines

Finds lines that two lists have in common, in the order of both, as pairs of places.  The search
runs from both ends at once: with each round one more insertion or deletion is allowed, and the
search stops when the two runs meet.  It gives up after a number of rounds; what was found from
either end up to then is put together.

A search can only propose pairs.  `inStep` keeps those proposals that fit together, and everything
after it relies on that alone.
-/

namespace RuleScan.Diff

/-- A place in the old list and a place in the new one that hold the same line. -/
abbrev Pair := Nat × Nat

/-- How far the search got: for each number of changes and each diagonal, the place in the old
list. -/
abbrev Frontier := Array (Array Int)

/-- Whether a diagonal can be reached with a number of changes. -/
def reachable (changes k : Int) : Bool := 0 ≤ changes && -changes ≤ k && k ≤ changes

/-- The place that was reached on a diagonal. -/
def Frontier.get (f : Frontier) (changes k : Int) : Int :=
  (((f[changes.toNat]?).bind fun row => row[((changes + k) / 2).toNat]?)).getD 0

/-- The two lists and the corner up to which they are compared. -/
structure Grid (α : Type) where
  old : Array α
  new : Array α
  right : Int
  top : Int

namespace Grid

variable {α : Type} [DecidableEq α]

/-- How much longer the old list is. -/
def skew (g : Grid α) : Int := g.right - g.top

/-- The number of equal lines from two places on, within the corner. -/
def runOn (g : Grid α) (fuel : Nat) (i j : Nat) : Nat :=
  match fuel with
  | 0 => 0
  | fuel + 1 =>
    if (i : Int) < g.right && (j : Int) < g.top && g.old[i]? = g.new[j]? then
      runOn g fuel (i + 1) (j + 1) + 1
    else 0

/-- The number of equal lines before two places. -/
def runBack (g : Grid α) : Nat → Nat → Nat
  | i + 1, j + 1 => if g.old[i]? = g.new[j]? then runBack g i j + 1 else 0
  | _, _ => 0

/-- Follows equal lines along a diagonal to the upper right. -/
def climb (g : Grid α) (k x : Int) : Int :=
  let y := x - k
  if x < g.right && y < g.top && 0 ≤ x && 0 ≤ y then
    x + g.runOn (g.right - x).toNat x.toNat y.toNat
  else x

/-- Follows equal lines along a diagonal to the lower left; diagonals are counted from the
corner. -/
def descend (g : Grid α) (k x : Int) : Int :=
  let y := x - (k + g.skew)
  if 0 < x && 0 < y then x - g.runBack x.toNat y.toNat else x

/-- One more round from the lower left. -/
def forward (g : Grid α) (f : Frontier) : Frontier :=
  let d : Int := (f.size : Int) - 1
  f.push (((List.range (f.size + 1)).map fun (i : Nat) =>
    let k : Int := 2 * (i : Int) - (d + 1)
    if i = 0 then g.climb k (f.get d (k + 1))
    else if i = f.size then g.climb k (f.get d (k - 1) + 1)
    else max (g.climb k (f.get d (k - 1) + 1)) (g.climb k (f.get d (k + 1)))).toArray)

/-- One more round from the corner. -/
def backward (g : Grid α) (f : Frontier) : Frontier :=
  let d : Int := (f.size : Int) - 1
  f.push (((List.range (f.size + 1)).map fun (i : Nat) =>
    let k : Int := 2 * (i : Int) - (d + 1)
    if i = 0 then g.descend k (f.get d (k + 1) - 1)
    else if i = f.size then g.descend k (f.get d (k - 1))
    else min (g.descend k (f.get d (k - 1))) (g.descend k (f.get d (k + 1) - 1))).toArray)

/-- The frontiers before the first round. -/
def startForward (g : Grid α) : Frontier := #[#[g.climb 0 0]]

/-- The frontier at the corner before the first round. -/
def startBackward (g : Grid α) : Frontier := #[#[g.descend 0 g.right]]

/-- The equal lines on the way to a place that was reached from the lower left. -/
def traceForward (f : Frontier) (fuel : Nat) (d k x : Int) (acc : List (Int × Int)) :
    List (Int × Int) :=
  match fuel with
  | 0 => acc
  | fuel + 1 =>
    if x = 0 && x - k = 0 then acc
    else if reachable (d - 1) (k - 1) && x - 1 = f.get (d - 1) (k - 1) then
      traceForward f fuel (d - 1) (k - 1) (x - 1) acc
    else if reachable (d - 1) (k + 1) && x = f.get (d - 1) (k + 1) then
      traceForward f fuel (d - 1) (k + 1) x acc
    else traceForward f fuel d k (x - 1) ((x - 1, x - 1 - k) :: acc)

/-- The equal lines on the way from a place to the corner. -/
def traceBackward (g : Grid α) (f : Frontier) (fuel : Nat) (d k x : Int) : List (Int × Int) :=
  match fuel with
  | 0 => []
  | fuel + 1 =>
    let y := x - (k + g.skew)
    if x = g.right && y = g.top then []
    else if reachable (d - 1) (k - 1) && x = f.get (d - 1) (k - 1) then
      traceBackward g f fuel (d - 1) (k - 1) x
    else if reachable (d - 1) (k + 1) && x + 1 = f.get (d - 1) (k + 1) then
      traceBackward g f fuel (d - 1) (k + 1) (x + 1)
    else (x, y) :: traceBackward g f fuel d k (x + 1)

/-- The steps that a trace can take at most. -/
def traceFuel (g : Grid α) (d : Int) : Nat := (g.right + g.top + d + 2).toNat

/-- The equal lines up to the place reached on a diagonal. -/
def lower (g : Grid α) (f : Frontier) (d k : Int) : List (Int × Int) :=
  traceForward f (g.traceFuel d) d k (f.get d k) []

/-- The equal lines from the place reached on a diagonal on. -/
def upper (g : Grid α) (f : Frontier) (d k : Int) : List (Int × Int) :=
  traceBackward g f (g.traceFuel d) d k (f.get d k)

/-- The first of the diagonals `k, k + 2, ...` up to a last one that satisfies `p`. -/
def firstDiagonal (p : Int → Bool) (k last : Int) : Option Int :=
  ((List.range ((last - k) / 2 + 1).toNat).map fun (i : Nat) => k + 2 * (i : Int)).find? p

/-- The diagonal on which the two runs meet; one on which nothing is left to compare is
preferred. -/
def meeting? (g : Grid α) (f b : Frontier) : Option Int :=
  let df : Int := (f.size : Int) - 1
  let db : Int := (b.size : Int) - 1
  if (df + db + g.skew) % 2 ≠ 0 then none
  else
    let first := max (-df) (-db + g.skew)
    let last := min df (db + g.skew)
    (firstDiagonal (fun k => b.get db (k - g.skew) ≤ f.get df k) first last).map fun k =>
      (firstDiagonal (fun l =>
        let x := f.get df l
        let u := b.get db (l - g.skew)
        x = u || u = 0 || u - l = 0 || x - l = g.top || x = g.right) k last).getD k

/-- Runs from the lower left only, until the corner is reached. -/
def oneSided (g : Grid α) (limit : Nat) (f : Frontier) : List (Int × Int) :=
  let d : Int := (f.size : Int) - 1
  let row : List Int := (List.range f.size).map fun (i : Nat) => 2 * (i : Int) - d
  let order := match row with
    | k :: rest => k :: (rest.reverse.take 1 ++ rest.dropLast)
    | [] => []
  match order.find? fun k => f.get d k = g.right && f.get d k - k = g.top with
  | some k => g.lower f d k
  | none =>
    match limit with
    | 0 => []
    | limit + 1 => oneSided g limit (g.forward f)

/-- The equal lines on a way through the meeting point of the two runs. -/
def through (g : Grid α) (limit : Nat) (f b : Frontier) (k : Int) : List (Int × Int) :=
  let df : Int := (f.size : Int) - 1
  let db : Int := (b.size : Int) - 1
  let x := f.get df k
  let y := x - k
  let kb := k - g.skew
  let u := b.get db kb
  let v := u - k
  if x = u then g.lower f df k ++ g.upper b db kb
  else if 0 < u && reachable (df - 1) (u - 1 - v) && f.get (df - 1) (u - 1 - v) = u - 1 then
    g.lower f (df - 1) (u - 1 - v) ++ g.upper b db kb
  else if 0 < v && reachable (df - 1) (u - (v - 1)) && f.get (df - 1) (u - (v - 1)) = u then
    g.lower f (df - 1) (u - (v - 1)) ++ g.upper b db kb
  else if u = 0 || v = 0 then g.upper b db kb
  else if x = g.right || y = g.top then g.lower f df k
  else if x + 1 ≤ g.right && reachable (db - 1) (x + 1 - y - g.skew) &&
      b.get (db - 1) (x + 1 - y - g.skew) = x + 1 then
    g.lower f df k ++ g.upper b (db - 1) (kb + 1)
  else if y + 1 ≤ g.top && reachable (db - 1) (x - (y + 1) - g.skew) &&
      b.get (db - 1) (x - (y + 1) - g.skew) = x then
    g.lower f df k ++ g.upper b (db - 1) (kb - 1)
  else
    let inner : Grid α := { g with right := u, top := v }
    inner.oneSided limit inner.startForward ++ g.upper b db kb

end Grid

/-- A run of equal lines. -/
structure Block where
  x : Int
  y : Int
  length : Int
  deriving Repr, DecidableEq, Inhabited

/-- The runs of pairs that follow one another. -/
def blocksOf (pairs : List (Int × Int)) : List Block :=
  (pairs.foldl (fun (acc : List Block) (x, y) =>
    match acc with
    | b :: rest =>
      if b.x + b.length = x && b.y + b.length = y then { b with length := b.length + 1 } :: rest
      else ⟨x, y, 1⟩ :: acc
    | [] => [⟨x, y, 1⟩]) []).reverse

namespace Block

/-- The pairs of a run. -/
def pairs (b : Block) : List (Int × Int) :=
  (List.range b.length.toNat).map fun (i : Nat) => (b.x + (i : Int), b.y + (i : Int))

/-- Cuts a proposed run where it shares places with an accepted one; nothing is left if the two
cannot both be common lines. -/
def cutBy (accepted proposed : Block) : Option Block := do
  let p := proposed
  let p := if p.x ≤ accepted.x && accepted.x < p.x + p.length then
    { p with length := accepted.x - p.x } else p
  if p.length ≤ 0 then none
  let p := if accepted.x ≤ p.x && p.x < accepted.x + accepted.length then
      let by' := accepted.x + accepted.length - p.x
      ⟨p.x + by', p.y + by', p.length - by'⟩
    else p
  if p.length ≤ 0 then none
  let p := if p.y ≤ accepted.y && accepted.y < p.y + p.length then
    { p with length := accepted.y - p.y } else p
  if p.length ≤ 0 then none
  let p := if accepted.y ≤ p.y && p.y < accepted.y + accepted.length then
      let by' := accepted.y + accepted.length - p.y
      ⟨p.x + by', p.y + by', p.length - by'⟩
    else p
  if p.length ≤ 0 then none
  if (p.x + p.length ≤ accepted.x && p.y + p.length ≤ accepted.y) ||
      (accepted.x + accepted.length ≤ p.x && accepted.y + accepted.length ≤ p.y) then some p
  else none

/-- Accepts runs one after another, the longest first, each cut by those accepted before. -/
def compatible (blocks : List Block) : List Block :=
  let longestFirst := Ranking.order (fun a b => decide (b.length < a.length)) blocks
  let accepted := longestFirst.foldl (fun (acc : List Block) b =>
    match acc.foldlM (fun p a => cutBy a p) b with
    | some b => acc ++ [b]
    | none => acc) []
  accepted.mergeSort fun a b => a.x < b.x || (a.x = b.x && b.length ≤ a.length)

end Block

namespace Grid

variable {α : Type} [DecidableEq α]

/-- The greatest of the measured candidates; of equal ones the first. -/
def best (measure : Int → Int) (candidates : List Int) : Option Int :=
  candidates.foldl (fun acc k =>
    match acc with
    | some b => if measure k > measure b then some k else acc
    | none => some k) none

/-- What was found from both ends when the search gives up. -/
def partialWay (g : Grid α) (f b : Frontier) : List (Int × Int) :=
  let d : Int := (f.size : Int) - 1
  let ks : List Int := (List.range f.size).map fun (i : Nat) => 2 * (i : Int) - d
  let inFront := ks.filter fun k => f.get d k ≤ g.right && f.get d k - k ≤ g.top
  let behind := ks.filter fun k => 0 ≤ b.get d k && 0 ≤ b.get d k - (k + g.skew)
  let low := (best (fun k => 2 * f.get d k - k) inFront).map (g.lower f d)
  let high := (best (fun k => -(2 * b.get d k - (k + g.skew))) behind).map (g.upper b d)
  (Block.compatible (blocksOf (low.getD []) ++ blocksOf (high.getD []))).flatMap Block.pairs

/-- Searches from both ends; `rounds` bounds the number of further rounds. -/
def search (g : Grid α) (limit rounds : Nat) (f b : Frontier) : List (Int × Int) :=
  match rounds with
  | 0 => g.partialWay f b
  | rounds + 1 =>
    match g.meeting? f b with
    | some k => g.through limit f b k
    | none =>
      let f := g.forward f
      match g.meeting? f b with
      | some k => g.through limit f b k
      | none => g.search limit rounds f (g.backward b)

end Grid

/-- The rounds after which a search gives up. -/
def searchLimit : Nat := 50

/-- Pairs of places that may hold common lines, in order. -/
def proposals {α : Type} [DecidableEq α] (old new : List α) : List Pair :=
  let g : Grid α := ⟨old.toArray, new.toArray, old.length, new.length⟩
  let pairs := g.search searchLimit searchLimit g.startForward g.startBackward
  pairs.map fun (x, y) => (x.toNat, y.toNat)

/-- Keeps the pairs that hold the same line and lie behind those kept before. -/
def inStep {α : Type} [DecidableEq α] (old new : List α) (i j : Nat) : List Pair → List Pair
  | [] => []
  | (x, y) :: rest =>
    if i ≤ x && j ≤ y && x < old.length && y < new.length && old[x]? = new[y]? then
      (x, y) :: inStep old new (x + 1) (y + 1) rest
    else inStep old new i j rest

/-- Common lines of two lists. -/
def common {α : Type} [DecidableEq α] (old new : List α) : List Pair :=
  inStep old new 0 0 (proposals old new)

end RuleScan.Diff
