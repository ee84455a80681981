import RuleScan.Markdown.Section

/-!
# Two passes over the fences of a document

`headings` goes through a whole document and needs the fences only to pass over what stands in a
block.  `blocks` goes through the lines of one section, with nothing open at first, and needs the
fences to find the blocks.  The two are written apart; here they are compared line by line.

## What is proved

  * `mem_headingsFrom` — a line is a heading exactly if it looks like one and NO FENCE IS OPEN
    before it (`openBehind`);
  * `whole_of_mem_headings` — so no fence is open where the body of a section starts, and none where
    it ends, unless it ends with the document;
  * `fences_agree` — hence the pass over the body of a section opens and closes blocks at the very
    lines where the pass over the document does, and only a section that reaches the end of the
    document can have a block that is not closed.

## Where a block stands

The blocks that `blocks` gives do not say where they were found.  `placedFrom` is the same pass,
with the place of every block beside it: forgetting the places gives `blocksFrom` back
(`map_snd_placedFrom`).
-/

namespace RuleScan.Markdown

/-! ## The open fence -/

/-- The fence that is open behind some lines. -/
def openBehind (opened : Option Fence) (lines : List Line) : Option Fence :=
  lines.foldl Fence.after opened

@[simp] theorem openBehind_nil (opened : Option Fence) : openBehind opened [] = opened := rfl

@[simp] theorem openBehind_cons (opened : Option Fence) (line : Line) (rest : List Line) :
    openBehind opened (line :: rest) = openBehind (Fence.after opened line) rest := rfl

theorem openBehind_append (opened : Option Fence) (front rest : List Line) :
    openBehind opened (front ++ rest) = openBehind (openBehind opened front) rest :=
  List.foldl_append

/-- The line `k` opens a block: no fence is open before it, and one is behind it. -/
def OpensAt (opened : Option Fence) (lines : List Line) (k : Nat) : Prop :=
  openBehind opened (lines.take k) = none ∧ (openBehind opened (lines.take (k + 1))).isSome = true

/-- The line `k` closes a block: a fence is open before it, and none is behind it. -/
def ClosesAt (opened : Option Fence) (lines : List Line) (k : Nat) : Prop :=
  (openBehind opened (lines.take k)).isSome = true ∧ openBehind opened (lines.take (k + 1)) = none

section Change

variable {opened : Option Fence} {lines : List Line} {k : Nat}

theorem OpensAt.lt_length (h : OpensAt opened lines k) : k < lines.length := by
  refine Nat.lt_of_not_le fun hge => ?_
  obtain ⟨hbefore, hbehind⟩ := h
  rw [List.take_of_length_le (by omega)] at hbefore hbehind
  rw [hbefore] at hbehind
  cases hbehind

theorem ClosesAt.lt_length (h : ClosesAt opened lines k) : k < lines.length := by
  refine Nat.lt_of_not_le fun hge => ?_
  obtain ⟨hbefore, hbehind⟩ := h
  rw [List.take_of_length_le (by omega)] at hbefore hbehind
  rw [hbehind] at hbefore
  cases hbefore

theorem not_opensAt_nil : ¬ OpensAt opened [] k := fun h => Nat.not_lt_zero _ h.lt_length

theorem not_closesAt_nil : ¬ ClosesAt opened [] k := fun h => Nat.not_lt_zero _ h.lt_length

end Change

/-- A place behind `n` lines is the next one or lies behind it. -/
theorem exists_place_iff {P : Nat → Prop} {n i : Nat} :
    (∃ k, i = n + k ∧ P k) ↔ (i = n ∧ P 0) ∨ ∃ k, i = n + 1 + k ∧ P (k + 1) := by
  constructor
  · rintro ⟨k, rfl, h⟩
    cases k with
    | zero => exact .inl ⟨rfl, h⟩
    | succ k => exact .inr ⟨k, by omega, h⟩
  · rintro (⟨rfl, h⟩ | ⟨k, rfl, h⟩)
    · exact ⟨0, rfl, h⟩
    · exact ⟨k + 1, by omega, h⟩

section Cons

variable (opened : Option Fence) (line : Line) (rest : List Line) (n i : Nat)

theorem exists_opensAt_cons :
    (∃ k, i = n + k ∧ OpensAt opened (line :: rest) k) ↔
      (i = n ∧ opened = none ∧ (Fence.after opened line).isSome = true) ∨
        ∃ k, i = n + 1 + k ∧ OpensAt (Fence.after opened line) rest k := by
  rw [exists_place_iff]
  simp [OpensAt]

theorem exists_closesAt_cons :
    (∃ k, i = n + k ∧ ClosesAt opened (line :: rest) k) ↔
      (i = n ∧ opened.isSome = true ∧ Fence.after opened line = none) ∨
        ∃ k, i = n + 1 + k ∧ ClosesAt (Fence.after opened line) rest k := by
  rw [exists_place_iff]
  simp [ClosesAt]

end Cons

/-! ## Blocks with their places -/

/-- Where a block stands: the line that opens it, and the one that closes it, if any does. -/
structure Extent where
  opening : Nat
  closing : Option Nat
  deriving Repr, DecidableEq

/-- A block that is being read, with the line that opened it. -/
abbrev Unfinished := Nat × Fence × String × List Line

/-- The pass of `blocksFrom`, with the place of every block; `n` lines stand before. -/
def placedFrom (n : Nat) : Option Unfinished → List Line → List (Extent × Block)
  | none, [] => []
  | some (opening, _, info, body), [] => [(⟨opening, none⟩, ⟨info, body.reverse⟩)]
  | none, line :: rest =>
    match Fence.ofLine? line with
    | some f => placedFrom (n + 1) (some (n, f, infoOf f line, [])) rest
    | none => placedFrom (n + 1) none rest
  | some (opening, f, info, body), line :: rest =>
    if f.closedBy line then
      (⟨opening, some n⟩, ⟨info, body.reverse⟩) :: placedFrom (n + 1) none rest
    else placedFrom (n + 1) (some (opening, f, info, line :: body)) rest

/-- The blocks of some lines with their places. -/
def placed (lines : List Line) : List (Extent × Block) := placedFrom 0 none lines

theorem map_snd_placedFrom (n : Nat) (state : Option Unfinished) (lines : List Line) :
    (placedFrom n state lines).map Prod.snd = blocksFrom (state.map Prod.snd) lines := by
  fun_induction placedFrom n state lines with
  | case1 => rfl
  | case2 => rfl
  | case3 n line rest f hf ih => rw [ih, Option.map_none, blocksFrom, hf, Option.map_some]
  | case4 n line rest hf ih => rw [ih, Option.map_none, blocksFrom, hf]
  | case5 n opening f info body line rest hclosed ih =>
      rw [List.map_cons, ih, Option.map_some, blocksFrom, if_pos hclosed, Option.map_none]
  | case6 n opening f info body line rest hclosed ih =>
      rw [ih, Option.map_some, Option.map_some, blocksFrom, if_neg hclosed]

theorem map_snd_placed (lines : List Line) : (placed lines).map Prod.snd = blocks lines :=
  map_snd_placedFrom 0 none lines

/-- The fence of a block that is being read. -/
def Unfinished.fence? (state : Option Unfinished) : Option Fence := state.map fun s => s.2.1

open Unfinished (fence?)

/-- The lines that open a block in the pass, but for the one that is being read already. -/
theorem exists_opening_iff (n : Nat) (state : Option Unfinished) (lines : List Line) (i : Nat) :
    (∃ p ∈ placedFrom n state lines, p.1.opening = i) ↔
      (∃ s, state = some s ∧ s.1 = i) ∨ ∃ k, i = n + k ∧ OpensAt (fence? state) lines k := by
  fun_induction placedFrom n state lines with
  | case1 n => simp [not_opensAt_nil]
  | case2 n opening f info body => simp [not_opensAt_nil]
  | case3 n line rest f hf ih =>
      rw [ih, exists_opensAt_cons]
      simp [fence?, Fence.after, hf, eq_comm]
  | case4 n line rest hf ih =>
      rw [ih, exists_opensAt_cons]
      simp [fence?, Fence.after, hf]
  | case5 n opening f info body line rest hclosed ih =>
      simp only [List.mem_cons, exists_eq_or_imp]
      rw [ih, exists_opensAt_cons]
      simp [fence?, Fence.after, hclosed]
  | case6 n opening f info body line rest hclosed ih =>
      rw [ih, exists_opensAt_cons]
      simp [fence?, Fence.after, hclosed]

/-- The lines that close a block in the pass. -/
theorem exists_closing_iff (n : Nat) (state : Option Unfinished) (lines : List Line) (i : Nat) :
    (∃ p ∈ placedFrom n state lines, p.1.closing = some i) ↔
      ∃ k, i = n + k ∧ ClosesAt (fence? state) lines k := by
  fun_induction placedFrom n state lines with
  | case1 n => simp [not_closesAt_nil]
  | case2 n opening f info body => simp [not_closesAt_nil]
  | case3 n line rest f hf ih =>
      rw [ih, exists_closesAt_cons]
      simp [fence?, Fence.after, hf]
  | case4 n line rest hf ih =>
      rw [ih, exists_closesAt_cons]
      simp [fence?, Fence.after, hf]
  | case5 n opening f info body line rest hclosed ih =>
      simp only [List.mem_cons, exists_eq_or_imp]
      rw [ih, exists_closesAt_cons]
      simp [fence?, Fence.after, hclosed, eq_comm]
  | case6 n opening f info body line rest hclosed ih =>
      rw [ih, exists_closesAt_cons]
      simp [fence?, Fence.after, hclosed]

/-- A block is not closed exactly if a fence is open at the end. -/
theorem exists_unclosed_iff (n : Nat) (state : Option Unfinished) (lines : List Line) :
    (∃ p ∈ placedFrom n state lines, p.1.closing = none) ↔
      (openBehind (fence? state) lines).isSome = true := by
  fun_induction placedFrom n state lines with
  | case1 n => simp [fence?]
  | case2 n opening f info body => simp [fence?]
  | case3 n line rest f hf ih => rw [ih]; simp [fence?, Fence.after, hf]
  | case4 n line rest hf ih => rw [ih]; simp [fence?, Fence.after, hf]
  | case5 n opening f info body line rest hclosed ih =>
      simp only [List.mem_cons, exists_eq_or_imp]
      rw [ih]
      simp [fence?, Fence.after, hclosed]
  | case6 n opening f info body line rest hclosed ih =>
      rw [ih]
      simp [fence?, Fence.after, hclosed]

/-! ## Where headings stand -/

/-- Behind some lines the pass over a document goes on with the fence that is open there. -/
theorem headingsFrom_append (opened : Option Fence) (n : Nat) (front rest : List Line) :
    headingsFrom opened n (front ++ rest) = headingsFrom opened n front ++
      headingsFrom (openBehind opened front) (n + front.length) rest := by
  induction front generalizing opened n with
  | nil => rfl
  | cons line front ih =>
      rw [List.cons_append, headingsFrom, headingsFrom, ih, List.append_assoc, openBehind_cons,
        List.length_cons, Nat.add_right_comm, Nat.add_assoc n]

theorem headingAt?_eq_some_iff {opened : Option Fence} {line : Line} {x : Nat × String} :
    headingAt? opened line = some x ↔
      heading? line = some x ∧ opened = none ∧ Fence.ofLine? line = none := by
  cases opened <;> cases h : Fence.ofLine? line <;> simp [headingAt?.eq_def, h]

theorem after_of_headingAt? {opened : Option Fence} {line : Line} {x : Nat × String}
    (h : headingAt? opened line = some x) : opened = none ∧ Fence.after opened line = none := by
  obtain ⟨-, rfl, hline⟩ := headingAt?_eq_some_iff.mp h
  exact ⟨rfl, hline⟩

/-- The headings of some lines are the lines that are one, given the fence that is open before. -/
theorem mem_headingsFrom {opened : Option Fence} {n : Nat} {lines : List Line} {level : Nat}
    {title : String} {start : Nat} :
    (level, title, start) ∈ headingsFrom opened n lines ↔
      ∃ k, start = n + k + 1 ∧ ∃ line, lines[k]? = some line ∧
        headingAt? (openBehind opened (lines.take k)) line = some (level, title) := by
  induction lines generalizing opened n with
  | nil => simp [headingsFrom]
  | cons line rest ih =>
      rw [headingsFrom, List.mem_append, ih]
      constructor
      · rintro (h | ⟨k, rfl, line', hline, h⟩)
        · obtain ⟨x, hx, heq⟩ := Option.map_eq_some_iff.mp (Option.mem_toList.mp h)
          cases heq
          exact ⟨0, rfl, line, rfl, hx⟩
        · exact ⟨k + 1, by omega, line', by simpa using hline, by simpa using h⟩
      · rintro ⟨k, rfl, line', hline, h⟩
        cases k with
        | zero =>
            obtain rfl : line = line' := by simpa using hline
            refine .inl (Option.mem_toList.mpr (Option.map_eq_some_iff.mpr ⟨_, h, rfl⟩))
        | succ k => exact .inr ⟨k, by omega, line', by simpa using hline, by simpa using h⟩

theorem pairwise_headingsFrom (opened : Option Fence) (n : Nat) (lines : List Line) :
    (headingsFrom opened n lines).Pairwise fun a b => a.2.2 < b.2.2 := by
  induction lines generalizing opened n with
  | nil => exact .nil
  | cons line rest ih =>
      rw [headingsFrom]
      cases headingAt? opened line with
      | none => exact ih _ _
      | some x =>
          refine List.pairwise_cons.mpr ⟨?_, ih _ _⟩
          rintro ⟨level, title, start⟩ hmem
          obtain ⟨k, rfl, -⟩ := mem_headingsFrom.mp hmem
          show n + 1 < n + 1 + k + 1
          omega

/-- The body of a heading ends with the document or in front of one of the headings behind it. -/
theorem of_mem_withStops {total : Nat} {list : List (Nat × String × Nat)} {h : Heading}
    (hmem : h ∈ withStops total list) :
    ∃ before rest, list = before ++ (h.level, h.title, h.start) :: rest ∧
      (h.stop = total ∨ ∃ x ∈ rest, h.stop = x.2.2 - 1) := by
  induction list with
  | nil => cases hmem
  | cons x list ih =>
      obtain ⟨level, title, start⟩ := x
      rcases List.mem_cons.mp hmem with rfl | hmem
      · refine ⟨[], list, rfl, ?_⟩
        cases hfind : list.find? (·.1 ≤ level) with
        | none => exact .inl rfl
        | some x => exact .inr ⟨x, List.mem_of_find?_eq_some hfind, rfl⟩
      · obtain ⟨before, rest, rfl, hstop⟩ := ih hmem
        exact ⟨_ :: before, rest, rfl, hstop⟩

/-- The body of a heading is cut out of the document between blocks. -/
structure Heading.Whole (h : Heading) (lines : List Line) : Prop where
  start_le : h.start ≤ h.stop
  stop_le : h.stop ≤ lines.length
  fresh : openBehind none (lines.take h.start) = none
  settled : h.stop < lines.length → openBehind none (lines.take h.stop) = none

theorem whole_of_mem_headings {lines : List Line} {h : Heading} (hmem : h ∈ headings lines) :
    h.Whole lines := by
  obtain ⟨before, rest, hsplit, hstop⟩ := of_mem_withStops hmem
  have hpair := pairwise_headingsFrom none 0 lines
  rw [hsplit, List.pairwise_append] at hpair
  obtain ⟨-, hpair, -⟩ := hpair
  have hplace : ∀ x ∈ before ++ (h.level, h.title, h.start) :: rest, ∃ k, x.2.2 = k + 1 ∧
      k < lines.length ∧ openBehind none (lines.take k) = none ∧
        openBehind none (lines.take (k + 1)) = none := by
    rintro ⟨level, title, start⟩ hx
    obtain ⟨k, rfl, line, hline, hat⟩ := mem_headingsFrom.mp (hsplit ▸ hx)
    obtain ⟨hbefore, hbehind⟩ := after_of_headingAt? hat
    obtain ⟨hk, -⟩ := List.getElem?_eq_some_iff.mp hline
    refine ⟨k, congrArg (· + 1) (Nat.zero_add k), hk, hbefore, ?_⟩
    rw [List.take_add_one, hline, openBehind_append]
    exact hbehind
  obtain ⟨k, hstart, hk, -, hbehind⟩ := hplace (h.level, h.title, h.start) (by simp)
  have hstart : h.start = k + 1 := hstart
  rcases hstop with hstop | ⟨x, hx, hstop⟩
  · exact ⟨by omega, by omega, hstart ▸ hbehind, fun hlt => by omega⟩
  · have hlt : h.start < x.2.2 := (List.pairwise_cons.mp hpair).1 x hx
    obtain ⟨j, hj, hjlength, hbefore, -⟩ := hplace x (by simp [hx])
    obtain rfl : h.stop = j := by omega
    exact ⟨by omega, by omega, hstart ▸ hbehind, fun _ => hbefore⟩

/-! ## Both passes -/

section Body

variable {lines : List Line} {h : Heading}

theorem Heading.Whole.length_body (hw : h.Whole lines) :
    (h.body lines).length = h.stop - h.start := by
  have := hw.stop_le
  rw [Heading.body, List.length_drop, List.length_take]
  omega

/-- Inside the body both passes have the same fence open. -/
theorem Heading.Whole.openBehind_body (hw : h.Whole lines) {k : Nat} (hk : h.start + k ≤ h.stop) :
    openBehind none ((h.body lines).take k) = openBehind none (lines.take (h.start + k)) := by
  have htake : (h.body lines).take k = (lines.drop h.start).take k := by
    rw [Heading.body, List.drop_take, List.take_take, Nat.min_eq_left (by omega)]
  rw [List.take_add, openBehind_append, hw.fresh, htake]

theorem Heading.Whole.opensAt_body (hw : h.Whole lines) (k : Nat) :
    OpensAt none (h.body lines) k ↔ h.start + k < h.stop ∧ OpensAt none lines (h.start + k) := by
  constructor
  · intro hopens
    have hlt := hopens.lt_length
    rw [hw.length_body] at hlt
    refine ⟨by omega, ?_⟩
    rwa [OpensAt, hw.openBehind_body (by omega), hw.openBehind_body (by omega)] at hopens
  · rintro ⟨hlt, hopens⟩
    rwa [OpensAt, hw.openBehind_body (by omega), hw.openBehind_body (by omega)]

theorem Heading.Whole.closesAt_body (hw : h.Whole lines) (k : Nat) :
    ClosesAt none (h.body lines) k ↔ h.start + k < h.stop ∧ ClosesAt none lines (h.start + k) := by
  constructor
  · intro hcloses
    have hlt := hcloses.lt_length
    rw [hw.length_body] at hlt
    refine ⟨by omega, ?_⟩
    rwa [ClosesAt, hw.openBehind_body (by omega), hw.openBehind_body (by omega)] at hcloses
  · rintro ⟨hlt, hcloses⟩
    rwa [ClosesAt, hw.openBehind_body (by omega), hw.openBehind_body (by omega)]

/-- The blocks of the body open where the pass over the document opens them. -/
theorem Heading.Whole.opening_iff (hw : h.Whole lines) (i : Nat) :
    (∃ p ∈ placed (h.body lines), h.start + p.1.opening = i) ↔
      h.start ≤ i ∧ i < h.stop ∧ OpensAt none lines i := by
  have hopening := exists_opening_iff 0 none (h.body lines)
  constructor
  · rintro ⟨p, hp, rfl⟩
    obtain ⟨s, hs, -⟩ | ⟨k, hk, hopens⟩ := (hopening p.1.opening).mp ⟨p, hp, rfl⟩
    · cases hs
    · rw [hk, Nat.zero_add]
      exact ⟨Nat.le_add_right _ _, (hw.opensAt_body k).mp hopens⟩
  · rintro ⟨hle, hlt, hopens⟩
    obtain ⟨k, rfl⟩ := Nat.exists_eq_add_of_le hle
    have hbody := (hw.opensAt_body k).mpr ⟨hlt, hopens⟩
    obtain ⟨p, hp, rfl⟩ := (hopening k).mpr (.inr ⟨k, (Nat.zero_add k).symm, hbody⟩)
    exact ⟨p, hp, rfl⟩

/-- The blocks of the body close where the pass over the document closes them. -/
theorem Heading.Whole.closing_iff (hw : h.Whole lines) (i : Nat) :
    (∃ p ∈ placed (h.body lines), ∃ k, p.1.closing = some k ∧ h.start + k = i) ↔
      h.start ≤ i ∧ i < h.stop ∧ ClosesAt none lines i := by
  have hclosing := exists_closing_iff 0 none (h.body lines)
  constructor
  · rintro ⟨p, hp, j, hj, rfl⟩
    obtain ⟨k, hk, hcloses⟩ := (hclosing j).mp ⟨p, hp, hj⟩
    rw [hk, Nat.zero_add]
    exact ⟨Nat.le_add_right _ _, (hw.closesAt_body k).mp hcloses⟩
  · rintro ⟨hle, hlt, hcloses⟩
    obtain ⟨k, rfl⟩ := Nat.exists_eq_add_of_le hle
    have hbody := (hw.closesAt_body k).mpr ⟨hlt, hcloses⟩
    obtain ⟨p, hp, hk⟩ := (hclosing k).mpr ⟨k, (Nat.zero_add k).symm, hbody⟩
    exact ⟨p, hp, k, hk, rfl⟩

/-- A block that is not closed leaves its fence open behind the body. -/
theorem Heading.Whole.stop_of_unclosed (hw : h.Whole lines) {p : Extent × Block}
    (hp : p ∈ placed (h.body lines)) (hnone : p.1.closing = none) : h.stop = lines.length := by
  have hopen := (exists_unclosed_iff 0 none (h.body lines)).mp ⟨p, hp, hnone⟩
  have hend : openBehind none (h.body lines) = openBehind none (lines.take h.stop) := by
    have hbody := hw.openBehind_body (k := h.stop - h.start) (by have := hw.start_le; omega)
    rwa [← hw.length_body, List.take_length, hw.length_body,
      Nat.add_sub_cancel' hw.start_le] at hbody
  refine Nat.le_antisymm hw.stop_le (Nat.le_of_not_lt fun hlt => ?_)
  rw [show fence? none = none from rfl, hend, hw.settled hlt] at hopen
  cases hopen

end Body

/-- **Both passes see the same fences.**  In the body of every heading of a document, the blocks
open and close at the very lines where the pass over the document opens and closes them.  Where the
body ends before the document does, each of them is closed inside it; only a body that reaches the
end of the document has a block that is not closed. -/
theorem fences_agree (content : Text.Bytes) {h : Heading}
    (hmem : h ∈ headings (linesOf content)) :
    (∀ front rest, linesOf content = front ++ rest → headingsFrom none 0 (linesOf content) =
      headingsFrom none 0 front ++ headingsFrom (openBehind none front) front.length rest) ∧
    (placed (h.body (linesOf content))).map Prod.snd = blocks (h.body (linesOf content)) ∧
    (∀ i, (∃ p ∈ placed (h.body (linesOf content)), h.start + p.1.opening = i) ↔
      h.start ≤ i ∧ i < h.stop ∧ OpensAt none (linesOf content) i) ∧
    (∀ i, (∃ p ∈ placed (h.body (linesOf content)), ∃ k, p.1.closing = some k ∧ h.start + k = i) ↔
      h.start ≤ i ∧ i < h.stop ∧ ClosesAt none (linesOf content) i) ∧
    (h.stop < (linesOf content).length → ∀ p ∈ placed (h.body (linesOf content)),
      ∃ k, p.1.closing = some k ∧ h.start + k < h.stop) ∧
    ((∃ p ∈ placed (h.body (linesOf content)), p.1.closing = none) →
      h.stop = (linesOf content).length) := by
  have hw := whole_of_mem_headings hmem
  refine ⟨?_, map_snd_placed _, hw.opening_iff, hw.closing_iff, ?_, ?_⟩
  · intro front rest hsplit
    rw [hsplit, headingsFrom_append, Nat.zero_add]
  · intro hlt p hp
    cases hk : p.1.closing with
    | none => exact absurd (hw.stop_of_unclosed hp hk) (Nat.ne_of_lt hlt)
    | some k => exact ⟨k, rfl, ((hw.closing_iff _).mp ⟨p, hp, k, hk, rfl⟩).2.1⟩
  · rintro ⟨p, hp, hnone⟩
    exact hw.stop_of_unclosed hp hnone

/-- A block of tildes with shorter and other fences and a heading inside, and a block that is not
closed. -/
def nestedDocument : Text.Bytes :=
  Text.bytesOf "# A\n~~~~\n~~~\n\x60\x60\x60\x60\n# x\n~~~~\n# B\n\x60\x60\x60\nx"

theorem headings_nestedDocument :
    headings (linesOf nestedDocument) = [⟨1, "a", 1, 6⟩, ⟨1, "b", 7, 9⟩] := by
  decide +kernel

theorem fences_agree_sample :
    (⟨1, "a", 1, 6⟩ : Heading) ∈ headings (linesOf nestedDocument) ∧
    (∃ p ∈ placed (Heading.body ⟨1, "a", 1, 6⟩ (linesOf nestedDocument)),
      1 + p.1.opening = 1 ∧ p.1.closing = some 4) ∧
    OpensAt none (linesOf nestedDocument) 1 ∧ ClosesAt none (linesOf nestedDocument) 5 := by
  have hmem : (⟨1, "a", 1, 6⟩ : Heading) ∈ headings (linesOf nestedDocument) := by
    rw [headings_nestedDocument]
    exact List.mem_cons_self
  have hplaced : ∃ p ∈ placed (Heading.body ⟨1, "a", 1, 6⟩ (linesOf nestedDocument)),
      1 + p.1.opening = 1 ∧ p.1.closing = some 4 := by
    decide +kernel
  obtain ⟨p, hp, hopening, hclosing⟩ := hplaced
  obtain ⟨-, -, hopens, hcloses, -⟩ := fences_agree nestedDocument hmem
  exact ⟨hmem, ⟨p, hp, hopening, hclosing⟩, ((hopens 1).mp ⟨p, hp, hopening⟩).2.2,
    ((hcloses 5).mp ⟨p, hp, 4, hclosing, rfl⟩).2.2⟩

end RuleScan.Markdown
