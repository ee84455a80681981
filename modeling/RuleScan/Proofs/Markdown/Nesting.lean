import RuleScan.Proofs.Markdown.Replaced

/-!
# The sections of a document and how they lie in each other

## What is proved

`sections_nested`: the headings of a document are the lines that look like one and stand in no
block; the body of each runs to the next heading that is NOT DEEPER, or to the end; and of two
sections the later one lies in the body of the earlier one with its heading, or has nothing in
common with it.

## How the argument goes

Whether a line stands in a block is asked of `placed`, the pass that collects the blocks, which does
not know of headings.  A line stands in a block exactly if a fence is open before it or behind it
(`blocked_iff`), and that is what the pass over the headings goes by.

Nesting takes no look at the list of levels.  A body ends where it does because of a heading that is
not deeper, and every heading inside it is deeper (`Heading.Bounded`).  If a later section started
inside the body and ended behind it, the heading where the body ends would be inside the later one,
so deeper than that, and yet not deeper than the earlier one.
-/

namespace RuleScan.Markdown

open RuleScan.Text (Bytes)
open Unfinished (fence?)

/-! ## Lines in blocks -/

/-- The line `k` opens the block, closes it or stands between the two. -/
def Extent.Covers (e : Extent) (k : Nat) : Prop := e.opening ≤ k ∧ ∀ c, e.closing = some c → k ≤ c

/-- The line `k` stands in one of the blocks. -/
def Blocked (lines : List Line) (k : Nat) : Prop := ∃ p ∈ placed lines, p.1.Covers k

/-- Of the lines that were read before, those count that stand behind the opening of the block that
is being read. -/
theorem exists_covers_before {n i : Nat} (state : Option Unfinished) (lines : List Line)
    (hi : i < n) :
    (∃ p ∈ placedFrom n state lines, p.1.Covers i) ↔ ∃ s, state = some s ∧ s.1 ≤ i := by
  fun_induction placedFrom n state lines with
  | case1 n => simp
  | case2 n opening f info body => simp [Extent.Covers]
  | case3 n line rest f hf ih => rw [ih (by omega)]; simp [hi]
  | case4 n line rest hf ih => rw [ih (by omega)]
  | case5 n opening f info body line rest hclosed ih =>
      simp only [List.mem_cons, exists_eq_or_imp]
      rw [ih (by omega)]
      simp [Extent.Covers]
      omega
  | case6 n opening f info body line rest hclosed ih => rw [ih (by omega)]; simp

/-- A fence is open before the line `k` or behind it. -/
def OpenAround (opened : Option Fence) (lines : List Line) (k : Nat) : Prop :=
  (openBehind opened (lines.take k)).isSome = true ∨
    (openBehind opened (lines.take (k + 1))).isSome = true

@[simp] theorem openAround_cons_zero (opened : Option Fence) (line : Line) (rest : List Line) :
    OpenAround opened (line :: rest) 0 ↔
      opened.isSome = true ∨ (Fence.after opened line).isSome = true := by
  simp [OpenAround]

@[simp] theorem openAround_cons_succ (opened : Option Fence) (line : Line) (rest : List Line)
    (k : Nat) : OpenAround opened (line :: rest) (k + 1) ↔
      OpenAround (Fence.after opened line) rest k := by
  simp [OpenAround]

/-- A line stands in a block exactly if a fence is open before it or behind it. -/
theorem exists_covers_iff {n k : Nat} (state : Option Unfinished) (lines : List Line)
    (hstate : ∀ s, state = some s → s.1 ≤ n) (hk : k < lines.length) :
    (∃ p ∈ placedFrom n state lines, p.1.Covers (n + k)) ↔
      OpenAround (Unfinished.fence? state) lines k := by
  -- The line itself is settled by the state before it; for those behind it the pass goes on.
  fun_induction placedFrom n state lines generalizing k with
  | case1 n => simp at hk
  | case2 n opening f info body => simp at hk
  | case3 n line rest f hf ih =>
      cases k with
      | zero => rw [exists_covers_before _ _ (by omega)]; simp [fence?, Fence.after, hf]
      | succ k =>
          rw [← Nat.add_assoc, Nat.add_right_comm n k 1, ih (by simp) (by simpa using hk)]
          simp [fence?, Fence.after, hf]
  | case4 n line rest hf ih =>
      cases k with
      | zero => rw [exists_covers_before _ _ (by omega)]; simp [fence?, Fence.after, hf]
      | succ k =>
          rw [← Nat.add_assoc, Nat.add_right_comm n k 1, ih (by simp) (by simpa using hk)]
          simp [fence?, Fence.after, hf]
  | case5 n opening f info body line rest hclosed ih =>
      have hopening : opening ≤ n := hstate _ rfl
      simp only [List.mem_cons, exists_eq_or_imp]
      cases k with
      | zero => simp [Extent.Covers, fence?, hopening]
      | succ k =>
          have hfirst : ¬ (⟨opening, some n⟩ : Extent).Covers (n + (k + 1)) := fun h => by
            have := h.2 n rfl
            omega
          rw [or_iff_right hfirst, ← Nat.add_assoc, Nat.add_right_comm n k 1,
            ih (by simp) (by simpa using hk)]
          simp [fence?, Fence.after, hclosed]
  | case6 n opening f info body line rest hclosed ih =>
      have hopening : opening ≤ n := hstate _ rfl
      cases k with
      | zero => rw [exists_covers_before _ _ (by omega)]; simp [fence?, hopening]
      | succ k =>
          rw [← Nat.add_assoc, Nat.add_right_comm n k 1,
            ih (by simpa using by omega) (by simpa using hk)]
          simp [fence?, Fence.after, hclosed]

theorem blocked_iff {lines : List Line} {k : Nat} (hk : k < lines.length) :
    Blocked lines k ↔ OpenAround none lines k := by
  have h := exists_covers_iff (n := 0) none lines (by simp) hk
  rwa [Nat.zero_add] at h

/-! ## Heading lines -/

/-- The line `k` looks like a heading and stands in no block. -/
def HeadingLine (lines : List Line) (k level : Nat) (title : String) : Prop :=
  (∃ line, lines[k]? = some line ∧ heading? line = some (level, title)) ∧ ¬ Blocked lines k

theorem headingLine_iff {lines : List Line} {k level : Nat} {title : String} :
    HeadingLine lines k level title ↔ (level, title, k + 1) ∈ headingsFrom none 0 lines := by
  rw [mem_headingsFrom]
  have hopen : ∀ line, lines[k]? = some line → (Blocked lines k ↔
      ¬ (openBehind none (lines.take k) = none ∧ Fence.ofLine? line = none)) := by
    intro line hline
    rw [blocked_iff (List.getElem?_eq_some_iff.mp hline).1, OpenAround, List.take_add_one, hline,
      openBehind_append]
    cases openBehind none (lines.take k) <;> simp [Fence.after, Option.isSome_iff_ne_none]
  constructor
  · rintro ⟨⟨line, hline, hlooks⟩, hblocked⟩
    rw [hopen line hline, not_not] at hblocked
    exact ⟨k, by omega, line, hline, headingAt?_eq_some_iff.mpr ⟨hlooks, hblocked⟩⟩
  · rintro ⟨k', hk, line, hline, hat⟩
    obtain rfl : k = k' := by omega
    obtain ⟨hlooks, hfree⟩ := headingAt?_eq_some_iff.mp hat
    exact ⟨⟨line, hline, hlooks⟩, fun hblocked => (hopen line hline).mp hblocked hfree⟩

/-- What is found in the pass is a heading line, and the line behind it. -/
theorem exists_headingLine {lines : List Line} {x : Nat × String × Nat}
    (hx : x ∈ headingsFrom none 0 lines) :
    ∃ k, x.2.2 = k + 1 ∧ HeadingLine lines k x.1 x.2.1 := by
  obtain ⟨level, title, start⟩ := x
  obtain ⟨k, hk, -⟩ := mem_headingsFrom.mp hx
  obtain rfl : start = k + 1 := by omega
  exact ⟨k, rfl, headingLine_iff.mpr hx⟩

/-! ## Where a body ends -/

theorem map_withStops (total : Nat) (list : List (Nat × String × Nat)) :
    (withStops total list).map (fun h => (h.level, h.title, h.start)) = list := by
  induction list with
  | nil => rfl
  | cons x list ih =>
      obtain ⟨level, title, start⟩ := x
      rw [withStops_cons, List.map_cons, ih]

theorem exists_rest_of_mem_withStops {total : Nat} {list : List (Nat × String × Nat)} {h : Heading}
    (hmem : h ∈ withStops total list) :
    ∃ before rest, list = before ++ (h.level, h.title, h.start) :: rest ∧
      h.stop = stopOf total h.level rest := by
  induction list with
  | nil => cases hmem
  | cons x list ih =>
      obtain ⟨level, title, start⟩ := x
      rw [withStops_cons] at hmem
      rcases List.mem_cons.mp hmem with rfl | hmem
      · exact ⟨[], list, rfl, rfl⟩
      · obtain ⟨before, rest, rfl, hstop⟩ := ih hmem
        exact ⟨_ :: before, rest, rfl, hstop⟩

section Ordered

variable {before rest : List (Nat × String × Nat)} {x y : Nat × String × Nat}
  (hpair : (before ++ x :: rest).Pairwise fun a b => a.2.2 < b.2.2) (hy : y ∈ before ++ x :: rest)
include hpair hy

theorem mem_of_start_lt (hlt : x.2.2 < y.2.2) : y ∈ rest := by
  obtain ⟨-, -, hbefore⟩ := List.pairwise_append.mp hpair
  rcases List.mem_append.mp hy with hmem | hmem
  · have := hbefore y hmem x (by simp)
    omega
  · rcases List.mem_cons.mp hmem with rfl | hmem
    · omega
    · exact hmem

theorem mem_of_lt_start (hlt : y.2.2 < x.2.2) : y ∈ before := by
  obtain ⟨-, hrest, -⟩ := List.pairwise_append.mp hpair
  rcases List.mem_append.mp hy with hmem | hmem
  · exact hmem
  · rcases List.mem_cons.mp hmem with rfl | hmem
    · omega
    · have := (List.pairwise_cons.mp hrest).1 y hmem
      omega

end Ordered

section Stop

variable {total level : Nat} {rest : List (Nat × String × Nat)}

/-- A heading that starts before the end of a body was passed over in the search for that end. -/
theorem level_lt_of_start_le (hpair : rest.Pairwise fun a b => a.2.2 < b.2.2)
    {x : Nat × String × Nat} (hx : x ∈ rest) (hpos : 1 ≤ x.2.2)
    (hlt : x.2.2 ≤ stopOf total level rest) : level < x.1 := by
  cases hfind : rest.find? (·.1 ≤ level) with
  | none => simpa using List.find?_eq_none.mp hfind x hx
  | some y =>
      have hstop : stopOf total level rest = y.2.2 - 1 := by rw [stopOf, hfind]; rfl
      obtain ⟨-, front, behind, rfl, hfront⟩ := List.find?_eq_some_iff_append.mp hfind
      have hmem := mem_of_lt_start hpair hx (by omega)
      simpa using hfront x hmem

theorem stopOf_eq_or (total level : Nat) (rest : List (Nat × String × Nat)) :
    stopOf total level rest = total ∨
      ∃ x ∈ rest, stopOf total level rest = x.2.2 - 1 ∧ x.1 ≤ level := by
  rw [stopOf]
  cases hfind : rest.find? (·.1 ≤ level) with
  | none => exact .inl rfl
  | some x =>
      exact .inr ⟨x, List.mem_of_find?_eq_some hfind, rfl, by simpa using List.find?_some hfind⟩

end Stop

/-- The body of a heading starts behind its line and ends with the document or at the first heading
behind it that is not deeper. -/
structure Heading.Bounded (h : Heading) (lines : List Line) : Prop where
  heads : ∃ k, h.start = k + 1 ∧ HeadingLine lines k h.level h.title
  start_le : h.start ≤ h.stop
  stop_le : h.stop ≤ lines.length
  deeper : ∀ {k level title}, HeadingLine lines k level title → h.start ≤ k → k < h.stop →
    h.level < level
  ends : h.stop = lines.length ∨
    ∃ level title, HeadingLine lines h.stop level title ∧ level ≤ h.level

theorem bounded_of_mem_headings {lines : List Line} {h : Heading} (hmem : h ∈ headings lines) :
    h.Bounded lines := by
  obtain ⟨start_le, stop_le, -, -⟩ := whole_of_mem_headings hmem
  obtain ⟨before, rest, hsplit, hstop⟩ := exists_rest_of_mem_withStops hmem
  have hpair := hsplit ▸ pairwise_headingsFrom none 0 lines
  have hline : ∀ x ∈ before ++ (h.level, h.title, h.start) :: rest,
      ∃ k, x.2.2 = k + 1 ∧ HeadingLine lines k x.1 x.2.1 :=
    fun x hx => exists_headingLine (hsplit ▸ hx)
  refine ⟨hline (h.level, h.title, h.start) (by simp), start_le, stop_le, ?deeper, ?ends⟩
  case deeper =>
    intro k level title hhead hk hlt
    have hrest : (level, title, k + 1) ∈ rest :=
      mem_of_start_lt hpair (hsplit ▸ headingLine_iff.mp hhead) (Nat.lt_succ_of_le hk)
    have hbehind := (List.pairwise_cons.mp (List.pairwise_append.mp hpair).2.1).2
    exact level_lt_of_start_le hbehind hrest (Nat.succ_pos k) (hstop ▸ hlt)
  case ends =>
    rcases stopOf_eq_or lines.length h.level rest with hend | ⟨x, hx, hend, hlevel⟩
    · exact .inl (hstop.trans hend)
    · obtain ⟨k, hk, hhead⟩ := hline x (by simp [hx])
      obtain rfl : h.stop = k := by omega
      exact .inr ⟨x.1, x.2.1, hhead, hlevel⟩

/-! ## Sections in sections -/

/-- The line `k` stands in the body of a heading. -/
def Heading.InBody (h : Heading) (k : Nat) : Prop := h.start ≤ k ∧ k < h.stop

/-- The line `k` is a heading or stands in its body. -/
def Heading.InSection (h : Heading) (k : Nat) : Prop := k + 1 = h.start ∨ h.InBody k

/-- Of two sections the later one, with its heading, lies in the body of the earlier one, or has no
line in common with it. -/
theorem Heading.Bounded.nested {lines : List Line} {h g : Heading} (hh : h.Bounded lines)
    (hg : g.Bounded lines) (hlt : h.start < g.start) :
    (∀ k, g.InSection k → ¬ h.InBody k) ∨ ∀ k, g.InSection k → h.InBody k := by
  obtain ⟨k, hk, hline⟩ := hg.heads
  simp only [InSection, InBody]
  rcases Nat.lt_or_ge k h.stop with hin | hout
  · right
    have hdeep : h.level < g.level := hh.deeper hline (by omega) hin
    have hstop : g.stop ≤ h.stop := by
      refine Nat.le_of_not_lt fun hover => ?_
      have hle := hg.stop_le
      rcases hh.ends with hend | ⟨level, title, hend, hlevel⟩
      · omega
      · have := hg.deeper hend (by omega) hover
        omega
    intro i hi
    omega
  · left
    intro i hi
    omega

/-- The headings of a document are the lines that look like one outside the blocks.  Each body
stands in the document and runs to the first heading behind it that is not deeper, or to the end;
and the sections lie in each other or apart. -/
theorem sections_nested (content : Bytes) :
    (∀ k level title, HeadingLine (linesOf content) k level title ↔
      ∃ h ∈ headings (linesOf content), h.start = k + 1 ∧ h.level = level ∧ h.title = title) ∧
    (∀ h ∈ headings (linesOf content),
      (1 ≤ h.start ∧ h.start ≤ h.stop ∧ h.stop ≤ (linesOf content).length) ∧
      (h.body (linesOf content)).length = h.stop - h.start ∧
      (∀ p ∈ placed (linesOf content), ¬ p.1.Covers (h.start - 1)) ∧
      (h.stop = (linesOf content).length ∨
        ∃ level title, HeadingLine (linesOf content) h.stop level title ∧ level ≤ h.level) ∧
      ∀ k level title, HeadingLine (linesOf content) k level title → h.start ≤ k → k < h.stop →
        h.level < level) ∧
    (headings (linesOf content)).Pairwise fun h g => h.start < g.start ∧
      ((∀ k, g.InSection k → ¬ h.InBody k) ∨ ∀ k, g.InSection k → h.InBody k) := by
  generalize linesOf content = lines
  refine ⟨fun k level title => ?_, fun h hmem => ?_, ?_⟩
  · have hmap := map_withStops lines.length (headingsFrom none 0 lines)
    rw [headingLine_iff, ← hmap, List.mem_map]
    refine exists_congr fun h => and_congr_right fun _ => ?_
    simp only [Prod.mk.injEq]
    tauto
  · have hb := bounded_of_mem_headings hmem
    obtain ⟨k, hk, hline⟩ := hb.heads
    refine ⟨⟨by omega, hb.start_le, hb.stop_le⟩, ?_, ?_, hb.ends, fun _ _ _ => hb.deeper⟩
    · exact (whole_of_mem_headings hmem).length_body
    · intro p hp hcovers
      rw [hk, Nat.add_sub_cancel] at hcovers
      exact hline.2 ⟨p, hp, hcovers⟩
  · have hpair : (headings lines).Pairwise fun h g => h.start < g.start := by
      have hpair := pairwise_headingsFrom none 0 lines
      rwa [← map_withStops lines.length (headingsFrom none 0 lines), List.pairwise_map] at hpair
    exact hpair.imp_of_mem fun hh hg hlt =>
      ⟨hlt, (bounded_of_mem_headings hh).nested (bounded_of_mem_headings hg) hlt⟩

/-- Headings of the levels 2, 4, 3, 1 and 2, right behind each other but for one line. -/
example : headings (linesOf (Text.bytesOf "## a\n#### b\n### c\nx\n# d\n## e")) =
    [⟨2, "a", 1, 4⟩, ⟨4, "b", 2, 2⟩, ⟨3, "c", 3, 4⟩, ⟨1, "d", 5, 6⟩, ⟨2, "e", 6, 6⟩] := by
  decide +kernel

end RuleScan.Markdown
