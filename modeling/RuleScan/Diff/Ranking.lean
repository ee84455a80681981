/-!
# Ranking

Puts items in order when the comparison leaves many of them level.  Which of two level items comes
first is then decided by the way the order is found, so the way is fixed here: few items are
inserted one by one; many are divided at a pivot, the lesser part before the greater; items that
fall apart too unevenly time and again are put on a heap.  Nothing is drawn at random: where items
are scattered, the places depend on their number alone.
-/

namespace RuleScan.Diff.Ranking

variable {α : Type} (less : α → α → Bool)

/-- Whether the item at one place has to come before the item at another. -/
def before (xs : Array α) (i j : Nat) : Bool :=
  match xs[i]?, xs[j]? with
  | some a, some b => less a b
  | _, _ => false

/-! ## Insertion -/

/-- Moves an item down as long as it has to come before the one below it, to `low` at most. -/
def sink (low : Nat) : Nat → Array α → Array α
  | 0, xs => xs
  | i + 1, xs =>
    if low ≤ i && before less xs (i + 1) i then sink low i (xs.swapIfInBounds (i + 1) i) else xs

/-- Moves the item below a place up as long as the next one has to come before it; `count` places
are left. -/
def rise (i : Nat) : Nat → Array α → Array α
  | 0, xs => xs
  | count + 1, xs =>
    if before less xs i (i - 1) then rise (i + 1) count (xs.swapIfInBounds i (i - 1)) else xs

/-- Inserts the items from `low` up to `high` one after the other. -/
def insertAll (xs : Array α) (low high : Nat) : Array α :=
  (List.range' (low + 1) (high - (low + 1))).foldl (fun xs i => sink less low i xs) xs

/-- The first place from `i` on whose item has to come before the one below it; `count` places are
left. -/
def stepDown (xs : Array α) (i : Nat) : Nat → Nat
  | 0 => i
  | count + 1 => if before less xs i (i - 1) then i else stepDown xs (i + 1) count

/-- The length from which single items out of order are moved. -/
def longEnough : Nat := 50

/-- Mends items that are in order but for a few; says whether that was enough. -/
def mend (xs : Array α) (low high i : Nat) : Nat → Array α × Bool
  | 0 => (xs, false)
  | rounds + 1 =>
    let i := stepDown less xs i (high - i)
    if i = high then (xs, true)
    else if high - low < longEnough then (xs, false)
    else
      let xs := xs.swapIfInBounds i (i - 1)
      let xs := if 2 ≤ i - low then sink less 0 (i - 1) xs else xs
      let xs := if 2 ≤ high - i then rise less (i + 1) (high - (i + 1)) xs else xs
      mend xs low high i rounds

/-! ## Heap -/

/-- Moves the item at `root` down in the heap of the items from `first` on. -/
def settle (first size : Nat) (root : Nat) : Nat → Array α → Array α
  | 0, xs => xs
  | fuel + 1, xs =>
    let left := 2 * root + 1
    if size ≤ left then xs
    else
      let child :=
        if left + 1 < size && before less xs (first + left) (first + left + 1) then left + 1
        else left
      if before less xs (first + root) (first + child) then
        settle first size child fuel (xs.swapIfInBounds (first + root) (first + child))
      else xs

/-- Orders the items from `low` up to `high` by a heap. -/
def byHeap (xs : Array α) (low high : Nat) : Array α :=
  let size := high - low
  let heap := (List.range ((size - 1) / 2 + 1)).reverse.foldl
    (fun xs i => settle less low size i size xs) xs
  (List.range size).reverse.foldl
    (fun xs i => settle less low i 0 size (xs.swapIfInBounds low (low + i))) heap

/-! ## Pivots -/

/-- Two places with the lesser item first, and how often places were exchanged so far. -/
def ordered (xs : Array α) (i j swaps : Nat) : Nat × Nat × Nat :=
  if before less xs j i then (j, i, swaps + 1) else (i, j, swaps)

/-- The place of the middle one of three items. -/
def median (xs : Array α) (i j k swaps : Nat) : Nat × Nat :=
  let (i, j, swaps) := ordered less xs i j swaps
  let (j, _, swaps) := ordered less xs j k swaps
  let (_, j, swaps) := ordered less xs i j swaps
  (j, swaps)

/-- The place of a pivot, and how often places were exchanged to find it.  Among many items the
middle ones of three neighbours are compared. -/
def pivot (xs : Array α) (low high : Nat) : Nat × Nat :=
  let quarter := (high - low) / 4
  let i := low + quarter
  let j := low + quarter * 2
  let k := low + quarter * 3
  if longEnough ≤ high - low then
    let (i, swaps) := median less xs (i - 1) i (i + 1) 0
    let (j, swaps) := median less xs (j - 1) j (j + 1) swaps
    let (k, swaps) := median less xs (k - 1) k (k + 1) swaps
    median less xs i j k swaps
  else median less xs i j k 0

/-- The exchanges after which items are taken to run downward. -/
def allExchanged : Nat := 12

/-- Turns the items from `low` up to `high` round. -/
def turned (xs : Array α) (low high : Nat) : Array α :=
  (List.range ((high - low) / 2)).foldl
    (fun xs i => xs.swapIfInBounds (low + i) (high - 1 - i)) xs

/-- The next number of a fixed sequence. -/
def nextSeed (s : UInt64) : UInt64 :=
  let s := s ^^^ (s <<< 13)
  let s := s ^^^ (s >>> 7)
  s ^^^ (s <<< 17)

/-- The number of binary digits. -/
def bits (n : Nat) : Nat := if n = 0 then 0 else n.log2 + 1

/-- Exchanges three items in the middle with others, to break up a pattern. -/
def scattered (xs : Array α) (low high : Nat) : Array α :=
  let size := high - low
  let middle := low + size / 4 * 2 - 1
  let step (state : Array α × UInt64) (i : Nat) : Array α × UInt64 :=
    let seed := nextSeed state.2
    let other := seed.toNat % Nat.pow 2 (bits size)
    let other := if size ≤ other then other - size else other
    (state.1.swapIfInBounds (middle - 1 + i) (low + other), seed)
  ([0, 1, 2].foldl step (xs, UInt64.ofNat size)).1

/-! ## Division -/

/-- The first place from `i` up to `j` at which `stop` holds; one past `j` if there is none. -/
def upTo (stop : Nat → Bool) (i j : Nat) : Nat → Nat
  | 0 => i
  | fuel + 1 => if i ≤ j && !stop i then upTo stop (i + 1) j fuel else i

/-- The last place from `j` down to `i` at which `stop` holds; one below `i` if there is none. -/
def downTo (stop : Nat → Bool) (i j : Nat) : Nat → Nat
  | 0 => j
  | fuel + 1 => if i ≤ j && !stop j then downTo stop i (j - 1) fuel else j

/-- Exchanges items that stand on the wrong side until the two sides meet.  Gives the places where
they met and the number of exchanges. -/
def divide (high low : Array α → Nat → Bool) (i j count : Nat) :
    Nat → Array α → Array α × Nat × Nat × Nat
  | 0, xs => (xs, i, j, count)
  | fuel + 1, xs =>
    let i := upTo (high xs) i j (fuel + 1)
    let j := downTo (low xs) i j (fuel + 1)
    if j < i then (xs, i, j, count)
    else divide high low (i + 1) (j - 1) (count + 1) fuel (xs.swapIfInBounds i j)

/-- Divides items into those that come before the pivot and the others.  Gives the place of the
pivot and whether they were divided already. -/
def divideAt (xs : Array α) (low high pivot : Nat) : Array α × Nat × Bool :=
  let xs := xs.swapIfInBounds low pivot
  let (xs, _, j, count) := divide (fun xs i => !before less xs i low)
    (fun xs j => before less xs j low) (low + 1) (high - 1) 0 (high - low) xs
  (xs.swapIfInBounds j low, j, count = 0)

/-- Divides items, none of which comes before the pivot, into those level with it and the others.
Gives the place of the first of the others. -/
def divideLevel (xs : Array α) (low high pivot : Nat) : Array α × Nat :=
  let xs := xs.swapIfInBounds low pivot
  let (xs, i, _) := divide (fun xs i => before less xs low i)
    (fun xs j => !before less xs low j) (low + 1) (high - 1) 0 (high - low) xs
  (xs, i)

/-! ## Order -/

/-- The number of items that are inserted one by one. -/
def few : Nat := 12

/-- What is known about the last division. -/
structure Trend where
  /-- The two parts were of similar length. -/
  even : Bool := true
  /-- The items were divided already. -/
  divided : Bool := true
  deriving Repr, DecidableEq, Inhabited

/-- Orders the items from `low` up to `high`; `patience` is the number of uneven divisions that are
put up with. -/
def orderFrom (xs : Array α) (low high patience : Nat) (trend : Trend) : Nat → Array α
  | 0 => xs
  | fuel + 1 =>
    let size := high - low
    if size ≤ few then insertAll less xs low high
    else if patience = 0 then byHeap less xs low high
    else
      let xs := if trend.even then xs else scattered xs low high
      let patience := if trend.even then patience else patience - 1
      let (at', swaps) := pivot less xs low high
      let downward := swaps = allExchanged
      let xs := if downward then turned xs low high else xs
      let at' := if downward then high - 1 - (at' - low) else at'
      let (xs, done) :=
        if trend.even && trend.divided && (swaps = 0 || downward) then
          mend less xs low high (low + 1) 5
        else (xs, false)
      if done then xs
      else if 0 < low && !before less xs (low - 1) at' then
        let (xs, middle) := divideLevel less xs low high at'
        orderFrom xs middle high patience trend fuel
      else
        let (xs, middle, divided) := divideAt less xs low high at'
        let left := middle - low
        let right := high - middle
        if left < right then
          orderFrom (orderFrom xs low middle patience {} fuel) (middle + 1) high patience
            ⟨size / 8 ≤ left, divided⟩ fuel
        else
          orderFrom (orderFrom xs (middle + 1) high patience {} fuel) low middle patience
            ⟨size / 8 ≤ right, divided⟩ fuel

/-- The items in order. -/
def order (items : List α) : List α :=
  let xs := items.toArray
  (orderFrom less xs 0 xs.size (bits xs.size) {} (xs.size + 1)).toList

end RuleScan.Diff.Ranking
