import RuleScan.Proofs.Markdown.Replaced
import RuleScan.Spec.Read

/-!
# Code samples in a specification

## What is proved

`parse_fill`: whatever is put between the fences of a closed block, as long as it does not close the
block, the headings of the document stay, the bodies of the sections that do not contain the block
stay, and so does every part of the specification that is read from such a section.

## What a part is read from

Every part has a title, and it is read from the FIRST section of that title (`section?`).  A sample
that looks like a heading of that title, in front of the real one, is the case to think of: it is no
heading, because a fence is open before it.
-/

namespace RuleScan

open RuleScan.Text (Bytes)

namespace Markdown

/-- Paired lists have the same first element, up to the pairing, for a test that it respects. -/
theorem find?_paired {α : Type} {R : α → α → Prop} {p : α → Bool} {l l' : List α}
    (h : List.Forall₂ R l l') (hp : ∀ a a', R a a' → p a' = p a) :
    (l.find? p = none ∧ l'.find? p = none) ∨
      ∃ a a', l.find? p = some a ∧ l'.find? p = some a' ∧ R a a' := by
  induction h with
  | nil => exact .inl ⟨rfl, rfl⟩
  | @cons a a' l l' ha _ ih =>
      rw [List.find?_cons, List.find?_cons, hp a a' ha]
      cases p a with
      | true => exact .inr ⟨a, a', rfl, rfl, ha⟩
      | false => exact ih

/-- The section that is read for a title contains the block. -/
def Fenced.InSection (b : Fenced) (title : String) : Prop :=
  ∃ h, (headings b.lines).find? (·.title = title) = some h ∧ h.Holds b

variable {b : Fenced} {inner : List Line} {hinner : ∀ line ∈ inner, b.fence.closedBy line = false}

/-- What is read for a title whose section does not contain the block. -/
theorem section?_fill {title : String} (hout : ¬ b.InSection title) :
    Markdown.section? (b.fill inner hinner).lines title = Markdown.section? b.lines title := by
  have hpaired := @headings_fill b inner hinner
  rw [section?, section?]
  rcases find?_paired (p := fun h => decide (h.title = title)) hpaired
    (fun h h' hh => by rw [hh.2.1]) with ⟨hnone, hnone'⟩ | ⟨h, h', hfind, hfind', -, -, hbody⟩
  · rw [hnone, hnone']
    rfl
  · rw [hfind, hfind', Option.map_some, Option.map_some, hbody fun hin => hout ⟨h, hfind, hin⟩]

end Markdown

namespace Spec

open Markdown (Fenced Line headings linesOf)

/-- **Code samples cannot change the policy.**  Two documents that differ only in the lines of a
closed block have the same headings, the same bodies of the sections that do not contain the block,
and the same parts that are read from such sections. -/
theorem parse_fill (c : Catalog) (b : Fenced) {inner : List Line}
    (hinner : ∀ line ∈ inner, b.fence.closedBy line = false) {content content' : Bytes}
    (hlines : linesOf content = b.lines) (hlines' : linesOf content' = (b.fill inner hinner).lines) :
    List.Forall₂ (fun h h' => h'.level = h.level ∧ h'.title = h.title ∧
        (¬ h.Holds b → h'.body (linesOf content') = h.body (linesOf content)))
      (headings (linesOf content)) (headings (linesOf content')) ∧
    (¬ b.InSection profilesTitle → (parse c content').1.profiles = (parse c content).1.profiles) ∧
    (¬ b.InSection thresholdsTitle →
      (parse c content').1.thresholds = (parse c content).1.thresholds) ∧
    (¬ b.InSection rulesTitle →
      (parse c content').1.customRules = (parse c content).1.customRules) ∧
    (¬ b.InSection exclusionsTitle →
      (parse c content').1.exclusions = (parse c content).1.exclusions) := by
  have hsame : ∀ title, ¬ b.InSection title → Markdown.section? (linesOf content') title =
      Markdown.section? (linesOf content) title := by
    intro title hout
    rw [hlines, hlines']
    exact Markdown.section?_fill hout
  refine ⟨?_, ?_, ?_, ?_, ?_⟩
  · rw [hlines, hlines']
    exact Markdown.headings_fill
  all_goals
    intro hout
    simp only [parse, ofLines, hsame _ hout]

/-- A sample between a table of thresholds and a list of profiles. -/
def sampleNotes : Fenced where
  before := ["# Notes", "## Thresholds", "| high | 4 |", "## Sample"].map Text.bytesOf
  opening := Text.bytesOf "~~~ yaml"
  fence := ⟨'~', 3⟩
  inner := [Text.bytesOf "x: 1"]
  closing := Text.bytesOf "~~~~"
  after := [Text.bytesOf "## Enabled profiles", Text.bytesOf "- security"]
  outside := by decide +kernel
  opens := by decide +kernel
  unclosed := by decide +kernel
  closes := by decide +kernel

/-- Other lines for the sample: a heading, another fence, shorter ones, and a row. -/
def otherNotes : List Line :=
  ["## Enabled profiles", "\x60\x60\x60\x60", "~~", "~~~ text", "| high | 9 |"].map Text.bytesOf

/-- The document with some text as its sample. -/
def notesWith (sample : String) : Bytes :=
  Text.bytesOf ("# Notes\n## Thresholds\n| high | 4 |\n## Sample\n~~~ yaml\n" ++ sample ++
    "~~~~\n## Enabled profiles\n- security\n")

theorem otherNotes_unclosed : ∀ line ∈ otherNotes, sampleNotes.fence.closedBy line = false := by
  decide +kernel

theorem parse_fill_sample :
    (parse ⟨"", []⟩ (notesWith "x: 1\n")).1.thresholds = ⟨0, 4, 10, 50⟩ ∧
    (parse ⟨"", []⟩ (notesWith
      "## Enabled profiles\n\x60\x60\x60\x60\n~~\n~~~ text\n| high | 9 |\n")).1.thresholds =
        ⟨0, 4, 10, 50⟩ := by
  have hlines : linesOf (notesWith "x: 1\n") = sampleNotes.lines := by
    decide +kernel
  have hlines' : linesOf (notesWith
      "## Enabled profiles\n\x60\x60\x60\x60\n~~\n~~~ text\n| high | 9 |\n") =
        (sampleNotes.fill otherNotes otherNotes_unclosed).lines := by
    decide +kernel
  obtain ⟨-, -, hsame, -⟩ := parse_fill ⟨"", []⟩ sampleNotes otherNotes_unclosed hlines hlines'
  have hout : ¬ sampleNotes.InSection thresholdsTitle := by
    rintro ⟨h, hfind, -, hstop⟩
    have hfirst : (headings sampleNotes.lines).find? (·.title = thresholdsTitle) =
        some ⟨2, "thresholds", 2, 3⟩ := by
      decide +kernel
    obtain rfl : h = ⟨2, "thresholds", 2, 3⟩ := Option.some.inj (hfind.symm.trans hfirst)
    exact absurd hstop (by decide +kernel)
  have hread : (parse ⟨"", []⟩ (notesWith "x: 1\n")).1.thresholds = ⟨0, 4, 10, 50⟩ := by
    decide +kernel
  exact ⟨hread, (hsame hout).trans hread⟩

end Spec

end RuleScan
