import Mathlib.Data.List.Forall2
import RuleScan.Proofs.Search.Lines
import RuleScan.Spec.Read

/-!
# Line ends

A project may be checked out with a carriage return before every line feed (`withReturns`).  Lines
are read in two ways: a search drops ONE carriage return at the end of a line, a specification drops
ALL carriage returns and line feeds there.

## What is proved

`same_withReturns`: neither a specification nor a search sees the added carriage returns.  For
specifications nothing is asked for.  For searches no line may end with a carriage return of its
own, because only one is dropped: a line `a`, carriage return, is read as `a` before the change and
as `a`, carriage return, after it.

## Why

Both ways start from the same lines.  `forall₂_contentLines` compares the lines of the two contents
one by one: an added carriage return stands at the end of a line that ends with a line feed, and
what follows the last line feed is left alone.
-/

namespace RuleScan

open RuleScan.Text (Bytes)

/-- A content with a carriage return before every line feed. -/
def withReturns (content : Bytes) : Bytes :=
  content.flatMap fun b => if b = 10 then [13, 10] else [b]

@[simp] theorem withReturns_nil : withReturns [] = [] := rfl

@[simp] theorem withReturns_feed (bs : Bytes) :
    withReturns (10 :: bs) = 13 :: 10 :: withReturns bs := rfl

theorem withReturns_cons {b : UInt8} (hb : b ≠ 10) (bs : Bytes) :
    withReturns (b :: bs) = b :: withReturns bs := by
  rw [withReturns, List.flatMap_cons, if_neg hb]
  rfl

/-! ## The lines of both contents -/

/-- A line as it was, or with a carriage return behind it. -/
inductive MayReturn (raw : Bytes) : Bytes → Prop
  | kept : MayReturn raw raw
  | added : MayReturn raw (raw ++ [13])

theorem MayReturn.cons {raw raw' : Bytes} (b : UInt8) (h : MayReturn raw raw') :
    MayReturn (b :: raw) (b :: raw') := by
  cases h with
  | kept => exact .kept
  | added => exact .added

/-- There are as many lines as before, and each is the old one or has a carriage return behind. -/
theorem forall₂_contentLines (content : Bytes) :
    List.Forall₂ MayReturn (contentLines content) (contentLines (withReturns content)) := by
  induction content with
  | nil => exact .nil
  | cons b bs ih =>
      by_cases hb : b = 10
      · subst hb
        have hreturn : (13 : UInt8) ≠ 10 := by decide
        rw [withReturns_feed, contentLines_feed, contentLines_cons hreturn, contentLines_feed]
        exact .cons .added ih
      · rw [withReturns_cons hb, contentLines_cons hb, contentLines_cons hb]
        -- The byte goes to the front of the first line of both, or is the only line of both.
        generalize contentLines bs = lines, contentLines (withReturns bs) = lines' at ih ⊢
        cases ih with
        | nil => exact .cons .kept .nil
        | cons hline hmore => exact .cons (hline.cons b) hmore

/-- What does not see an added carriage return on any line does not see them at all. -/
theorem map_contentLines_withReturns {α : Type} {f : Bytes → α} {content : Bytes}
    (h : ∀ raw ∈ contentLines content, f (raw ++ [13]) = f raw) :
    (contentLines (withReturns content)).map f = (contentLines content).map f := by
  have hlines := forall₂_contentLines content
  generalize contentLines content = lines, contentLines (withReturns content) = lines' at h hlines ⊢
  induction hlines with
  | nil => rfl
  | cons hline _ ih =>
      obtain ⟨hhere, hrest⟩ := List.forall_mem_cons.mp h
      rw [List.map_cons, List.map_cons, ih hrest]
      cases hline with
      | kept => rfl
      | added => rw [hhere]

/-! ## Specifications -/

theorem Markdown.linesOf_eq (content : Bytes) :
    linesOf content = (contentLines content).map Line.ofPiece := by
  rw [linesOf, contentLines_eq]

theorem Markdown.linesOf_withReturns (content : Bytes) :
    linesOf (withReturns content) = linesOf content := by
  rw [linesOf_eq, linesOf_eq]
  refine map_contentLines_withReturns fun raw _ => ?_
  simp [Line.ofPiece]

/-! ## Searches -/

theorem mem_contentLines_iff {content raw : Bytes} :
    raw ∈ contentLines content ↔ ∃ number, RawLine content number raw := by
  rw [List.mem_iff_getElem?]
  constructor
  · rintro ⟨i, hi⟩
    exact ⟨i + 1, (getElem?_contentLines content i raw).mp hi⟩
  · rintro ⟨number, h⟩
    obtain ⟨before, -, -, -, -, -, hnumber⟩ := id h
    exact ⟨before.count 10, (getElem?_contentLines content _ raw).mpr (hnumber ▸ h)⟩

theorem dropReturn_concat (raw : Bytes) : dropReturn (raw ++ [13]) = raw :=
  dropReturn_eq_iff.mpr (.inl rfl)

theorem dropReturn_of_ne {raw : Bytes} (h : raw.getLast? ≠ some 13) : dropReturn raw = raw :=
  dropReturn_eq_iff.mpr (.inr ⟨rfl, h⟩)

/-- **Line ends do not matter.**  A specification is the same, and so are the records of what was
left out of it, whether or not a carriage return stands before every line feed.  So are the matches
in a content none of whose lines ends with a carriage return of its own. -/
theorem same_withReturns (content : Bytes) :
    (∀ c : Catalog, Spec.parse c (withReturns content) = Spec.parse c content) ∧
      ((∀ number raw, RawLine content number raw → raw.getLast? ≠ some 13) →
        ∀ (file : String) (m : Matcher),
          searchContent file m (withReturns content) = searchContent file m content) := by
  constructor
  · intro c
    rw [Spec.parse, Spec.parse, Markdown.linesOf_withReturns]
  · intro hends file m
    rw [searchContent, searchContent, map_contentLines_withReturns]
    intro raw hraw
    obtain ⟨number, hline⟩ := mem_contentLines_iff.mp hraw
    rw [dropReturn_concat, dropReturn_of_ne (hends number raw hline)]

/-- A title, an empty line and a line that does not end. -/
def unendedText : Bytes := Text.bytesOf "# a\n\nto do"

/-- The end of the line is found although a carriage return stands before every line feed. -/
theorem same_withReturns_sample :
    withReturns unendedText = Text.bytesOf "# a\r\n\r\nto do" ∧
      ∃ m, (Pattern.regex "[ao]$").compile = .ok m ∧
        (searchContent "f" m (withReturns unendedText)).map (fun x => (x.line, x.column)) =
          [(1, 3), (3, 5)] := by
  have hends : ∀ raw ∈ contentLines unendedText, raw.getLast? ≠ some 13 := by
    decide +kernel
  have hfound : (Pattern.regex "[ao]$").compile.toOption.map (fun m =>
      (searchContent "f" m unendedText).map fun x => (x.line, x.column)) =
        some [(1, 3), (3, 5)] := by
    decide +kernel
  refine ⟨by decide +kernel, ?_⟩
  cases hm : (Pattern.regex "[ao]$").compile with
  | error e => simp [hm, Except.toOption] at hfound
  | ok m =>
      refine ⟨m, rfl, ?_⟩
      rw [(same_withReturns unendedText).2 (fun number raw h =>
        hends raw (mem_contentLines_iff.mpr ⟨number, h⟩)) "f" m]
      simpa [hm, Except.toOption] using hfound

/-- A line that ends with a carriage return of its own is read with it after the change. -/
example : (searchContent "f" ⟨.literal "a", none, [97]⟩ [97, 13, 10]).map Match.text = [[97]] ∧
    (searchContent "f" ⟨.literal "a", none, [97]⟩ (withReturns [97, 13, 10])).map Match.text =
      [[97, 13]] := by
  decide

end RuleScan
