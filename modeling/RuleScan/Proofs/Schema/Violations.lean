import Mathlib.Data.List.MinMax
import Mathlib.Data.String.Basic
import RuleScan.Proofs.Text.Order
import RuleScan.Schema.Fault

/-!
# Trees of violations

What is told of a tree of violations, and where it is pointed at.

## What is proved

  * `leaves_eq` — the lines of a tree are those of its ENDS, the violations without causes;
  * `argmax_parts` — the place that is pointed at is the longest of all places in the tree, and of
    several the first one;
  * `pairwise_listing`, `mem_listing` — the problems that are listed are the lines of the ends, in
    order and each once;
  * `head?_listing` — so the first of them is the least line;
  * `map_snd_positioned`, `mem_positioned`, `pairwise_positioned` — the parts of a tree are what is
    found at its POSITIONS, in their order and each once;
  * `exists_first_deepest` — the place that is pointed at is that of the first violation, in this
    order, with a longest one;
  * `listing_flattens` — all that is told of a tree.

The two are chosen apart from each other, the place among ALL violations and by length, the line
among the ends and by its text; nothing here says that they belong together.
-/

namespace RuleScan.Schema.Violation

/-- What holds of a violation as soon as it holds of the causes holds of every violation. -/
@[induction_eliminator]
theorem byCauses {P : Violation → Prop}
    (node : ∀ location message causes, (∀ v ∈ causes, P v) → P (.node location message causes))
    (v : Violation) : P v :=
  @Violation.rec P (fun causes => ∀ v ∈ causes, P v) node (by simp)
    (fun _ _ hv hrest => List.forall_mem_cons.mpr ⟨hv, hrest⟩) v

/-! ## The violations in a tree -/

mutual

/-- All violations in a tree, each before its causes, from left to right. -/
def parts : Violation → List Violation
  | .node l m causes => .node l m causes :: partsAll causes

/-- All violations in several trees. -/
def partsAll : List Violation → List Violation
  | [] => []
  | v :: rest => parts v ++ partsAll rest

end

/-- A violation in words, with its place in front. -/
def told : Violation → String
  | .node l m _ => line l m

/-- The violations in a tree that have no causes. -/
def ends (v : Violation) : List Violation := v.parts.filter (·.causes.isEmpty)

variable {u v w : Violation}

theorem partsAll_eq (vs : List Violation) : partsAll vs = vs.flatMap parts := by
  induction vs with
  | nil => rfl
  | cons v rest ih => rw [partsAll, ih, List.flatMap_cons]

theorem parts_eq (v : Violation) : v.parts = v :: v.causes.flatMap parts := by
  cases v with
  | node l m causes => rw [parts, partsAll_eq, Violation.causes]

theorem mem_parts : w ∈ v.parts ↔ w = v ∨ ∃ u ∈ v.causes, w ∈ u.parts := by
  rw [parts_eq, List.mem_cons, List.mem_flatMap]

theorem self_mem_parts (v : Violation) : v ∈ v.parts := mem_parts.mpr (.inl rfl)

theorem mem_parts_trans (hw : w ∈ v.parts) (hu : u ∈ w.parts) : u ∈ v.parts := by
  induction v with
  | node l m causes ih =>
      rcases mem_parts.mp hw with rfl | ⟨c, hc, hw⟩
      · exact hu
      · exact mem_parts.mpr (.inr ⟨c, hc, ih c hc hw⟩)

theorem mem_ends : w ∈ v.ends ↔ w ∈ v.parts ∧ w.causes = [] := by
  rw [ends, List.mem_filter, List.isEmpty_iff]

/-- The causes of a violation end somewhere. -/
theorem exists_mem_ends (v : Violation) : ∃ w, w ∈ v.ends := by
  induction v with
  | node l m causes ih =>
      cases causes with
      | nil => exact ⟨.node l m [], mem_ends.mpr ⟨self_mem_parts _, rfl⟩⟩
      | cons c rest =>
          obtain ⟨w, hw⟩ := ih c List.mem_cons_self
          obtain ⟨hpart, hend⟩ := mem_ends.mp hw
          exact ⟨w, mem_ends.mpr ⟨mem_parts.mpr (.inr ⟨c, List.mem_cons_self, hpart⟩), hend⟩⟩

theorem leavesAll_eq (vs : List Violation) : leavesAll vs = vs.flatMap leaves := by
  induction vs with
  | nil => rfl
  | cons v rest ih => rw [leavesAll, ih, List.flatMap_cons]

/-- The lines of a tree are those of its ends. -/
theorem leaves_eq (v : Violation) : v.leaves = v.ends.map told := by
  induction v with
  | node l m causes ih =>
      cases causes with
      | nil => rfl
      | cons c rest =>
          have hself : (c :: rest).isEmpty = false := rfl
          rw [leaves, hself, if_neg Bool.false_ne_true, leavesAll_eq, ends, parts_eq,
            Violation.causes, List.filter_cons_of_neg (by simp [Violation.causes]),
            List.filter_flatMap, List.map_flatMap]
          exact List.flatMap_congr ih

/-! ## The place that is pointed at -/

theorem argmax_append {α β : Type} [LinearOrder β] (f : α → β) {l m : List α} {a : α}
    (h : l.argmax f = some a) : (l ++ m).argmax f = (a :: m).argmax f := by
  rw [List.argmax] at h ⊢
  rw [List.foldl_append, h]
  rfl

theorem argmax_deepestAll {vs : List Violation}
    (hvs : ∀ v ∈ vs, (v.parts.map location).argmax List.length = some v.deepest)
    (best : List String) :
    (best :: (vs.flatMap parts).map location).argmax List.length = some (deepestAll best vs) := by
  induction vs generalizing best with
  | nil => exact List.argmax_singleton
  | cons v rest ih =>
      obtain ⟨hv, hrest⟩ := List.forall_mem_cons.mp hvs
      have hfirst : (best :: v.parts.map location).argmax List.length =
          some (if v.deepest.length > best.length then v.deepest else best) := by
        rw [List.argmax_cons, hv]
        exact (apply_ite some _ _ _).symm
      rw [List.flatMap_cons, List.map_append, ← List.cons_append, argmax_append _ hfirst]
      exact ih hrest _

/-- The place that is pointed at is the first of the longest places in the tree. -/
theorem argmax_parts (v : Violation) :
    (v.parts.map location).argmax List.length = some v.deepest := by
  induction v with
  | node l m causes ih =>
      rw [parts_eq, List.map_cons]
      exact argmax_deepestAll ih l

theorem exists_part_deepest (v : Violation) : ∃ w ∈ v.parts, w.location = v.deepest :=
  List.mem_map.mp (List.argmax_mem (argmax_parts v))

theorem length_location_le (h : w ∈ v.parts) : w.location.length ≤ v.deepest.length :=
  List.le_of_mem_argmax (List.mem_map_of_mem h) (argmax_parts v)

/-! ## The problems that are listed -/

theorem mem_dropRepeats {s : String} (l : List String) : s ∈ dropRepeats l ↔ s ∈ l := by
  fun_induction dropRepeats l with
  | case1 a rest ih => simp [ih]
  | case2 a b rest hne ih => simp [ih]
  | case3 l hshort => rfl

/-- Without its repetitions, a list in order is in strict order. -/
theorem pairwise_dropRepeats {l : List String} (h : l.Pairwise (· ≤ ·)) :
    (dropRepeats l).Pairwise (· < ·) := by
  fun_induction dropRepeats l with
  | case1 a rest ih => exact ih h.of_cons
  | case2 a b rest hne ih =>
      refine List.pairwise_cons.mpr ⟨fun s hs => ?_, ih h.of_cons⟩
      have hb : a < b := lt_of_le_of_ne (List.rel_of_pairwise_cons h List.mem_cons_self) hne
      rcases List.mem_cons.mp ((mem_dropRepeats _).mp hs) with rfl | hs
      · exact hb
      · exact lt_of_lt_of_le hb (List.rel_of_pairwise_cons h.of_cons hs)
  | case3 l hshort =>
      match l, hshort with
      | [], _ => exact .nil
      | [a], _ => exact List.pairwise_singleton _ a
      | a :: b :: rest, hshort => exact absurd rfl (hshort a b rest)

theorem pairwise_listing (v : Violation) : v.listing.Pairwise (· < ·) :=
  pairwise_dropRepeats (Text.pairwise_sorted id v.leaves)

theorem mem_listing {s : String} : s ∈ v.listing ↔ ∃ w ∈ v.ends, w.told = s := by
  rw [listing, mem_dropRepeats, List.mem_mergeSort, leaves_eq, List.mem_map]

/-- The problem that is listed first is the least line of an end. -/
theorem head?_listing (v : Violation) :
    ∃ w ∈ v.ends, v.listing.head? = some w.told ∧ ∀ u ∈ v.ends, w.told ≤ u.told := by
  obtain ⟨w, hw⟩ := exists_mem_ends v
  cases hlisting : v.listing with
  | nil =>
      have hmem : w.told ∈ v.listing := mem_listing.mpr ⟨w, hw, rfl⟩
      rw [hlisting] at hmem
      cases hmem
  | cons s rest =>
      have hsorted := pairwise_listing v
      rw [hlisting] at hsorted
      obtain ⟨first, hfirst, rfl⟩ : ∃ w ∈ v.ends, w.told = s :=
        mem_listing.mp (hlisting ▸ List.mem_cons_self)
      refine ⟨first, hfirst, rfl, fun u hu => ?_⟩
      have hmem : u.told ∈ v.listing := mem_listing.mpr ⟨u, hu, rfl⟩
      rw [hlisting] at hmem
      rcases List.mem_cons.mp hmem with heq | hrest
      · exact heq.ge
      · exact (List.rel_of_pairwise_cons hsorted hrest).le

/-! ## The positions of violations in their tree

A violation in a tree is reached from above by the numbers of causes, one number for each step.
These numbers are its POSITION, not to be mixed up with the place in the value that it is about.  In
the order of positions a violation comes before its causes, and causes come from left to right.
Positions are needed because a tree may hold the same violation twice: which one comes first cannot
be said of the violations themselves. -/

/-- The violation at a position. -/
def below? (v : Violation) : List Nat → Option Violation
  | [] => some v
  | i :: rest => v.causes[i]?.bind fun c => c.below? rest

mutual

/-- The violations in a tree with their positions, each before its causes, from left to right. -/
def positioned : Violation → List (List Nat × Violation)
  | .node l m causes => ([], .node l m causes) :: positionedAll 0 causes

/-- The violations in several trees with their positions; the trees are numbered from `i` on. -/
def positionedAll (i : Nat) : List Violation → List (List Nat × Violation)
  | [] => []
  | v :: rest => (positioned v).map (Prod.map (i :: ·) id) ++ positionedAll (i + 1) rest

end

variable {position : List Nat}

theorem positioned_eq (v : Violation) : v.positioned = ([], v) :: positionedAll 0 v.causes := by
  cases v with
  | node l m causes => rfl

theorem map_snd_positionedAll {vs : List Violation}
    (h : ∀ v ∈ vs, v.positioned.map Prod.snd = v.parts) (i : Nat) :
    (positionedAll i vs).map Prod.snd = vs.flatMap parts := by
  induction vs generalizing i with
  | nil => rfl
  | cons v rest ih =>
      obtain ⟨hv, hrest⟩ := List.forall_mem_cons.mp h
      rw [positionedAll, List.map_append, List.map_map, List.flatMap_cons, ih hrest, ← hv]
      rfl

/-- Without their positions, these are the parts of the tree. -/
theorem map_snd_positioned (v : Violation) : v.positioned.map Prod.snd = v.parts := by
  induction v with
  | node l m causes ih =>
      rw [positioned_eq, parts_eq, List.map_cons, Violation.causes, map_snd_positionedAll ih]

theorem mem_positionedAll {vs : List Violation} {i : Nat} {x : List Nat × Violation} :
    x ∈ positionedAll i vs ↔
      ∃ k c, vs[k]? = some c ∧ ∃ y ∈ c.positioned, x = ((i + k) :: y.1, y.2) := by
  induction vs generalizing i with
  | nil => simp [positionedAll]
  | cons v rest ih =>
      rw [positionedAll, List.mem_append, List.mem_map, ih]
      constructor
      · rintro (⟨y, hy, rfl⟩ | ⟨k, c, hc, y, hy, rfl⟩)
        · exact ⟨0, v, rfl, y, hy, rfl⟩
        · exact ⟨k + 1, c, hc, y, hy, by rw [Nat.add_right_comm, Nat.add_assoc]⟩
      · rintro ⟨k, c, hc, y, hy, rfl⟩
        cases k with
        | zero =>
            obtain rfl := Option.some.inj hc
            exact .inl ⟨y, hy, rfl⟩
        | succ k => exact .inr ⟨k, c, hc, y, hy, by rw [Nat.add_right_comm, Nat.add_assoc]⟩

/-- The list has all positions of the tree. -/
theorem mem_positioned : (position, w) ∈ v.positioned ↔ v.below? position = some w := by
  induction v generalizing position with
  | node l m causes ih =>
      rw [positioned_eq, List.mem_cons, mem_positionedAll]
      cases position with
      | nil => simp [below?, eq_comm]
      | cons i rest =>
          simp only [below?, Violation.causes, Option.bind_eq_some_iff, Prod.mk.injEq,
            List.cons.injEq, Nat.zero_add, reduceCtorEq, false_and, false_or]
          constructor
          · rintro ⟨k, c, hc, y, hy, ⟨rfl, rfl⟩, rfl⟩
            exact ⟨c, hc, (ih c (List.mem_of_getElem? hc)).mp hy⟩
          · rintro ⟨c, hc, hbelow⟩
            exact ⟨i, c, hc, _, (ih c (List.mem_of_getElem? hc)).mpr hbelow, ⟨rfl, rfl⟩, rfl⟩

theorem pairwise_positionedAll {vs : List Violation}
    (h : ∀ v ∈ vs, v.positioned.Pairwise fun x y => x.1 < y.1) (i : Nat) :
    (positionedAll i vs).Pairwise fun x y => x.1 < y.1 := by
  induction vs generalizing i with
  | nil => exact .nil
  | cons v rest ih =>
      obtain ⟨hv, hrest⟩ := List.forall_mem_cons.mp h
      rw [positionedAll, List.pairwise_append]
      refine ⟨?_, ih hrest (i + 1), ?_⟩
      · rw [List.pairwise_map]
        exact hv.imp fun hxy => List.cons_lt_cons_self.mpr hxy
      · intro x hx y hy
        obtain ⟨x', -, rfl⟩ := List.mem_map.mp hx
        obtain ⟨k, c, -, y', -, rfl⟩ := mem_positionedAll.mp hy
        exact List.cons_lt_cons_iff.mpr (.inl (by omega))

/-- The list has the positions in their order, so each of them once. -/
theorem pairwise_positioned (v : Violation) : v.positioned.Pairwise fun x y => x.1 < y.1 := by
  induction v with
  | node l m causes ih =>
      rw [positioned_eq, List.pairwise_cons]
      refine ⟨fun x hx => ?_, pairwise_positionedAll ih 0⟩
      obtain ⟨k, c, -, y, -, rfl⟩ := mem_positionedAll.mp hx
      exact List.nil_lt_cons _ _

/-! ## What is told of a tree -/

theorem mem_parts_iff_below : w ∈ v.parts ↔ ∃ position, v.below? position = some w := by
  rw [← map_snd_positioned, List.mem_map]
  constructor
  · rintro ⟨x, hx, rfl⟩
    exact ⟨x.1, mem_positioned.mp hx⟩
  · rintro ⟨position, h⟩
    exact ⟨(position, w), mem_positioned.mpr h, rfl⟩

/-- What comes before the first of the greatest items is smaller. -/
theorem exists_append_of_argmax {α β : Type} [LinearOrder β] [DecidableEq α] {f : α → β}
    {l : List α} {a : α} (h : l.argmax f = some a) :
    ∃ before behind, l = before ++ a :: behind ∧ ∀ b ∈ before, f b < f a := by
  obtain ⟨hmem, -, hfirst⟩ := List.argmax_eq_some_iff.mp h
  obtain ⟨before, behind, rfl, hnot⟩ := List.eq_append_cons_of_mem hmem
  refine ⟨before, behind, rfl, fun b hb => lt_of_not_ge fun hle => ?_⟩
  have hindex := hfirst b (List.mem_append_left _ hb) hle
  rw [List.idxOf_append_of_notMem hnot, List.idxOf_cons_self, List.idxOf_append_of_mem hb] at hindex
  exact absurd (List.idxOf_lt_length_of_mem hb) (Nat.not_lt.mpr hindex)

/-- The place that is pointed at is that of the first violation with a longest one. -/
theorem exists_first_deepest (v : Violation) :
    ∃ position w, v.below? position = some w ∧ w.location = v.deepest ∧
      ∀ other u, v.below? other = some u → u.location.length ≤ w.location.length ∧
        (other < position → u.location.length < w.location.length) := by
  obtain ⟨before, behind, hsplit, hbefore⟩ := exists_append_of_argmax (argmax_parts v)
  rw [← map_snd_positioned, List.map_map] at hsplit
  obtain ⟨front, rest, hpositioned, rfl, hrest⟩ := List.map_eq_append_iff.mp hsplit
  obtain ⟨⟨position, w⟩, back, rfl, hw, -⟩ := List.map_eq_cons_iff.mp hrest
  have hhere : v.below? position = some w := mem_positioned.mp (by rw [hpositioned]; simp)
  have hlocation : w.location = v.deepest := hw
  refine ⟨position, w, hhere, hlocation, fun other u hu => ⟨?_, fun hlt => ?_⟩⟩
  · rw [hlocation]
    exact length_location_le (mem_parts_iff_below.mpr ⟨other, hu⟩)
  · have hsorted := pairwise_positioned v
    rw [hpositioned, List.pairwise_append, List.pairwise_cons] at hsorted
    obtain ⟨-, ⟨hback, -⟩, -⟩ := hsorted
    have hmem : (other, u) ∈ front ++ (position, w) :: back := hpositioned ▸ mem_positioned.mpr hu
    rw [hlocation]
    rcases List.mem_append.mp hmem with hfront | hrest
    · exact hbefore _ (List.mem_map_of_mem hfront)
    · rcases List.mem_cons.mp hrest with heq | hbehind
      · exact absurd ((Prod.mk.inj heq).1 ▸ hlt) (List.lt_irrefl position)
      · exact absurd hlt (List.lt_asymm (hback _ hbehind))

theorem listing_ne_nil (v : Violation) : v.listing ≠ [] := by
  obtain ⟨w, hw⟩ := exists_mem_ends v
  exact List.ne_nil_of_mem (mem_listing.mpr ⟨w, hw, rfl⟩)

/-- Of a tree the lines of the violations without causes are told, of each the one line and no
others, in strict order; and the place that is pointed at is that of the first violation, in the
order of positions, with a longest one. -/
theorem listing_flattens (v : Violation) :
    v.listing ≠ [] ∧ v.listing.Pairwise (· < ·) ∧
      (∀ s, s ∈ v.listing ↔
        ∃ position w, v.below? position = some w ∧ w.causes = [] ∧ w.told = s) ∧
      ∃ position w, v.below? position = some w ∧ w.location = v.deepest ∧
        ∀ other u, v.below? other = some u → u.location.length ≤ w.location.length ∧
          (other < position → u.location.length < w.location.length) := by
  refine ⟨listing_ne_nil v, pairwise_listing v, fun s => ?_, exists_first_deepest v⟩
  rw [mem_listing]
  constructor
  · rintro ⟨w, hw, hs⟩
    obtain ⟨hpart, hend⟩ := mem_ends.mp hw
    obtain ⟨position, hposition⟩ := mem_parts_iff_below.mp hpart
    exact ⟨position, w, hposition, hend, hs⟩
  · rintro ⟨position, w, hposition, hend, hs⟩
    exact ⟨w, mem_ends.mpr ⟨mem_parts_iff_below.mpr ⟨position, hposition⟩, hend⟩, hs⟩

/-- A tree that holds one violation twice, with another of the same depth between. -/
def sampleTree : Violation :=
  .node [] "" [.node ["a", "b"] "x" [],
    .node ["c"] "" [.node ["d", "e"] "y" [], .node ["a", "b"] "x" []]]

/-- The line of the violation in between is told, but another violation is pointed at. -/
theorem listing_flattens_sample :
    sampleTree.below? [1, 0] = some (.node ["d", "e"] "y" []) ∧
      "$.d.e: y" ∈ sampleTree.listing ∧
      ∃ position w, sampleTree.below? position = some w ∧ w.location = sampleTree.deepest ∧
        2 ≤ w.location.length ∧ sampleTree.deepest = ["a", "b"] := by
  have hposition : sampleTree.below? [1, 0] = some (.node ["d", "e"] "y" []) := rfl
  obtain ⟨-, -, hmem, position, w, hw, hlocation, hlongest⟩ := listing_flattens sampleTree
  exact ⟨hposition, (hmem _).mpr ⟨[1, 0], _, hposition, rfl, by decide⟩, position, w, hw, hlocation,
    (hlongest _ _ hposition).1, rfl⟩

end RuleScan.Schema.Violation
