import Mathlib.Data.List.Forall2
import RuleScan.Proofs.Markdown.Passes

/-!
# What stands in a block

Two documents that differ only in the lines between two fences.

## What is proved

`headings_fill`: their headings come in pairs, with the same levels and titles in the same order,
and the two bodies of a pair are the same lines, UNLESS the section contains the block.

## How the argument goes

A document is cut at the block: `before`, the block, `after`.  No fence is open at either cut, so
the headings are those of `before` and those of `after`, the latter moved by the length of what
stands before them (`headingsFrom_lines`).  The end of a section is found by levels alone.  A pair
of headings is therefore of one of three kinds (`Counterpart`): a section in front of the block,
the same in both; one around it, which starts in front of it and ends behind it; and one behind it,
which is moved.  Of these only the one around it contains the block.
-/

namespace RuleScan.Markdown

/-! ## A block in a document -/

/-- A block that is closed, with what stands before and after it.  None of the lines inside closes
it, and no other block is open where it is opened. -/
structure Fenced where
  before : List Line
  opening : Line
  fence : Fence
  inner : List Line
  closing : Line
  after : List Line
  outside : openBehind none before = none
  opens : Fence.ofLine? opening = some fence
  unclosed : ∀ line ∈ inner, fence.closedBy line = false
  closes : fence.closedBy closing = true

namespace Fenced

/-- The lines of the block, with its fences. -/
def block (b : Fenced) : List Line := b.opening :: (b.inner ++ [b.closing])

/-- The lines of the document. -/
def lines (b : Fenced) : List Line := b.before ++ (b.block ++ b.after)

/-- The document with other lines inside the block. -/
def fill (b : Fenced) (inner : List Line) (h : ∀ line ∈ inner, b.fence.closedBy line = false) :
    Fenced :=
  { b with inner, unclosed := h }

/-- The number of lines up to the end of the block. -/
def stop (b : Fenced) : Nat := b.before.length + b.block.length

end Fenced

/-- The body of a heading contains a block with its fences. -/
def Heading.Holds (h : Heading) (b : Fenced) : Prop :=
  h.start ≤ b.before.length ∧ b.stop ≤ h.stop

/-! ## The headings around a block -/

theorem openBehind_inside {f : Fence} {lines : List Line}
    (h : ∀ line ∈ lines, f.closedBy line = false) : openBehind (some f) lines = some f := by
  induction lines with
  | nil => rfl
  | cons line rest ih =>
      obtain ⟨hline, hrest⟩ := List.forall_mem_cons.mp h
      rw [openBehind_cons, Fence.after, hline]
      exact ih hrest

theorem headingsFrom_inside {f : Fence} {lines : List Line}
    (h : ∀ line ∈ lines, f.closedBy line = false) (n : Nat) :
    headingsFrom (some f) n lines = [] := by
  induction lines generalizing n with
  | nil => rfl
  | cons line rest ih =>
      obtain ⟨hline, hrest⟩ := List.forall_mem_cons.mp h
      rw [headingsFrom, Fence.after, hline]
      exact ih hrest (n + 1)

theorem Fenced.openBehind_block (b : Fenced) : openBehind none b.block = none := by
  have hopening : Fence.after none b.opening = some b.fence := b.opens
  rw [block, openBehind_cons, hopening, openBehind_append, openBehind_inside b.unclosed,
    openBehind_cons, openBehind_nil, Fence.after, b.closes]
  rfl

theorem Fenced.headingsFrom_block (b : Fenced) (n : Nat) : headingsFrom none n b.block = [] := by
  have hopening : Fence.after none b.opening = some b.fence := b.opens
  have hnone : headingAt? none b.opening = none := by
    rw [headingAt?.eq_def, b.opens]
  rw [block, headingsFrom, hnone, hopening, headingsFrom_append, headingsFrom_inside b.unclosed,
    openBehind_inside b.unclosed]
  rfl

/-- A heading behind `d` more lines. -/
def moved (d : Nat) (x : Nat × String × Nat) : Nat × String × Nat := (x.1, x.2.1, d + x.2.2)

theorem headingsFrom_add (opened : Option Fence) (d n : Nat) (lines : List Line) :
    headingsFrom opened (d + n) lines = (headingsFrom opened n lines).map (moved d) := by
  induction lines generalizing opened n with
  | nil => rfl
  | cons line rest ih =>
      rw [headingsFrom, headingsFrom, List.map_append, Nat.add_assoc, ih]
      cases headingAt? opened line <;> rfl

/-- The headings of the document are those before the block and those after it. -/
theorem Fenced.headingsFrom_lines (b : Fenced) :
    headingsFrom none 0 b.lines =
      headingsFrom none 0 b.before ++ (headingsFrom none 0 b.after).map (moved b.stop) := by
  rw [lines, headingsFrom_append, b.outside, headingsFrom_append, b.headingsFrom_block,
    b.openBehind_block, List.nil_append, Nat.zero_add, ← headingsFrom_add, stop, Nat.add_zero]

theorem bounds_of_mem_headingsFrom {opened : Option Fence} {lines : List Line}
    {x : Nat × String × Nat} (h : x ∈ headingsFrom opened 0 lines) :
    1 ≤ x.2.2 ∧ x.2.2 ≤ lines.length := by
  obtain ⟨level, title, start⟩ := x
  obtain ⟨k, rfl, line, hline, -⟩ := mem_headingsFrom.mp h
  obtain ⟨hk, -⟩ := List.getElem?_eq_some_iff.mp hline
  show 1 ≤ 0 + k + 1 ∧ 0 + k + 1 ≤ lines.length
  omega

/-! ## The ends of sections -/

/-- Where the body of a heading ends, given the headings behind it. -/
def stopOf (total level : Nat) (list : List (Nat × String × Nat)) : Nat :=
  ((list.find? (·.1 ≤ level)).map (·.2.2 - 1)).getD total

theorem withStops_cons (total level : Nat) (title : String) (start : Nat)
    (list : List (Nat × String × Nat)) :
    withStops total ((level, title, start) :: list) =
      ⟨level, title, start, stopOf total level list⟩ :: withStops total list := by
  rw [withStops, stopOf]
  cases list.find? (·.1 ≤ level) <;> rfl

theorem stopOf_append (total level : Nat) (front rest : List (Nat × String × Nat)) :
    stopOf total level (front ++ rest) =
      ((front.find? (·.1 ≤ level)).map (·.2.2 - 1)).getD (stopOf total level rest) := by
  rw [stopOf, List.find?_append]
  cases front.find? (·.1 ≤ level) <;> rfl

theorem find?_moved (d level : Nat) (list : List (Nat × String × Nat)) :
    (list.map (moved d)).find? (·.1 ≤ level) = (list.find? (·.1 ≤ level)).map (moved d) := by
  rw [List.find?_map]
  rfl

theorem stopOf_moved {total level d : Nat} {list : List (Nat × String × Nat)}
    (h : ∀ x ∈ list, 1 ≤ x.2.2) :
    stopOf (d + total) level (list.map (moved d)) = d + stopOf total level list := by
  rw [stopOf, find?_moved, stopOf]
  cases hfind : list.find? (·.1 ≤ level) with
  | none => rfl
  | some x =>
      have hx := h x (List.mem_of_find?_eq_some hfind)
      show d + x.2.2 - 1 = d + (x.2.2 - 1)
      omega

/-! ## Pairs of headings -/

/-- The two headings of a pair, by the number of lines up to the end of the block in each. -/
inductive Counterpart (before d d' : Nat) : Heading → Heading → Prop
  | front {h : Heading} : h.stop ≤ before → Counterpart before d d' h h
  | around {level start stop : Nat} {title : String} : start ≤ before →
      Counterpart before d d' ⟨level, title, start, d + stop⟩ ⟨level, title, start, d' + stop⟩
  | behind {level start stop : Nat} {title : String} :
      Counterpart before d d' ⟨level, title, d + start, d + stop⟩
        ⟨level, title, d' + start, d' + stop⟩

section Pairs

variable {before total d d' : Nat}

theorem counterparts_behind {list : List (Nat × String × Nat)} (h : ∀ x ∈ list, 1 ≤ x.2.2) :
    List.Forall₂ (Counterpart before d d') (withStops (d + total) (list.map (moved d)))
      (withStops (d' + total) (list.map (moved d'))) := by
  induction list with
  | nil => exact .nil
  | cons x list ih =>
      obtain ⟨-, hlist⟩ := List.forall_mem_cons.mp h
      rw [List.map_cons, List.map_cons, moved, moved, withStops_cons, withStops_cons,
        stopOf_moved hlist, stopOf_moved hlist]
      exact .cons .behind (ih hlist)

/-- The headings before a block and those behind it, in both documents. -/
theorem counterparts {front behind : List (Nat × String × Nat)}
    (hfront : ∀ x ∈ front, x.2.2 ≤ before) (hbehind : ∀ x ∈ behind, 1 ≤ x.2.2) :
    List.Forall₂ (Counterpart before d d')
      (withStops (d + total) (front ++ behind.map (moved d)))
      (withStops (d' + total) (front ++ behind.map (moved d'))) := by
  induction front with
  | nil => exact counterparts_behind hbehind
  | cons x front ih =>
      obtain ⟨level, title, start⟩ := x
      obtain ⟨hstart, hrest⟩ := List.forall_mem_cons.mp hfront
      rw [List.cons_append, List.cons_append, withStops_cons, withStops_cons, stopOf_append,
        stopOf_append, stopOf_moved hbehind, stopOf_moved hbehind]
      refine .cons ?_ (ih hrest)
      -- The section ends in front of a heading before the block, or else behind the block.
      cases hfind : front.find? (·.1 ≤ level) with
      | some y =>
          have hy := hrest y (List.mem_of_find?_eq_some hfind)
          exact .front (Nat.le_trans (Nat.sub_le _ _) hy)
      | none => exact .around hstart

end Pairs

/-! ## Other lines in the block -/

section Fill

variable (b : Fenced) (inner : List Line) (hinner : ∀ line ∈ inner, b.fence.closedBy line = false)

theorem headings_counterparts :
    List.Forall₂ (Counterpart b.before.length b.stop (b.fill inner hinner).stop)
      (headings b.lines) (headings (b.fill inner hinner).lines) := by
  have hlength : ∀ b : Fenced, b.lines.length = b.stop + b.after.length := by
    intro b
    rw [Fenced.lines, List.length_append, List.length_append, Fenced.stop, Nat.add_assoc]
  rw [headings, headings, Fenced.headingsFrom_lines, Fenced.headingsFrom_lines, hlength, hlength]
  exact counterparts (fun x hx => (bounds_of_mem_headingsFrom hx).2)
    fun x hx => (bounds_of_mem_headingsFrom hx).1

variable {b inner hinner}

theorem Counterpart.level {h h' : Heading}
    (hc : Counterpart b.before.length b.stop (b.fill inner hinner).stop h h') :
    h'.level = h.level := by
  cases hc <;> rfl

theorem Counterpart.title {h h' : Heading}
    (hc : Counterpart b.before.length b.stop (b.fill inner hinner).stop h h') :
    h'.title = h.title := by
  cases hc <;> rfl

theorem body_before {b : Fenced} {h : Heading} (hstop : h.stop ≤ b.before.length) :
    h.body b.lines = h.body b.before := by
  rw [Heading.body, Fenced.lines, List.take_append_of_le_length hstop, Heading.body]

theorem body_after (b : Fenced) (level start stop : Nat) (title : String) :
    Heading.body ⟨level, title, b.stop + start, b.stop + stop⟩ b.lines =
      Heading.body ⟨level, title, start, stop⟩ b.after := by
  have hlength : (b.before ++ b.block).length = b.stop := by
    rw [List.length_append, Fenced.stop]
  rw [Heading.body, Heading.body, Fenced.lines, ← List.append_assoc, ← hlength,
    List.take_length_add_append, List.drop_length_add_append]

/-- A section that does not contain the block has the same body in both documents. -/
theorem Counterpart.body {h h' : Heading}
    (hc : Counterpart b.before.length b.stop (b.fill inner hinner).stop h h')
    (hout : ¬ h.Holds b) : h'.body (b.fill inner hinner).lines = h.body b.lines := by
  cases hc with
  | front hstop => rw [body_before hstop, body_before (b := b.fill inner hinner) hstop]; rfl
  | around hstart => exact absurd ⟨hstart, Nat.le_add_right _ _⟩ hout
  | behind => rw [body_after, body_after]; rfl

/-- The headings of both documents come in pairs, and a section that does not contain the block has
the same body in both. -/
theorem headings_fill :
    List.Forall₂ (fun h h' => h'.level = h.level ∧ h'.title = h.title ∧
        (¬ h.Holds b → h'.body (b.fill inner hinner).lines = h.body b.lines))
      (headings b.lines) (headings (b.fill inner hinner).lines) :=
  (headings_counterparts b inner hinner).imp fun _ _ hc => ⟨hc.level, hc.title, hc.body⟩

end Fill

end RuleScan.Markdown
