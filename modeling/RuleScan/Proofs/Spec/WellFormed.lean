import Mathlib.Data.List.Induction
import RuleScan.Proofs.Profile.Sound
import RuleScan.Proofs.Text.Space

/-!
# Well-formed specifications

Any bytes give a specification.  What is wrong in one of the four sections is left out, and what is
left can be relied on by everything that is done with a specification.

## What is proved

`parse_wellFormed`: the specification in any document is `WellFormed`.  Part by part:

  * the profiles are the known names that are mentioned, in the order in which each is mentioned
    first (`Selected`), or the default where none is known;
  * a threshold is what the LAST valid row of its severity says (`Settled`), and the default where
    there is none;
  * the rules have no problems, and no default is left to fill in;
  * the exclusions are the lines of the first block that are `Listed`, in their order.

The lists are built from the front, the profiles and the thresholds with an eye on what is already
there.  Hence the inductions on the END of the section: one more line adds a name or not, sets a
threshold or not.
-/

namespace RuleScan

open RuleScan.Text (Bytes)

/-! ## Defaults -/

theorem PatternSpec.withDefaults_withDefaults (s : PatternSpec) :
    s.withDefaults.withDefaults = s.withDefaults := by
  have hlist : ∀ l : Option (List Pattern), (l.map (·.map Pattern.withDefaults)).map
      (·.map Pattern.withDefaults) = l.map (·.map Pattern.withDefaults) := by
    intro l
    cases l with
    | none => rfl
    | some ps => simp [Pattern.withDefaults_withDefaults]
  rw [withDefaults, withDefaults, hlist, hlist]

theorem Rule.withDefaults_withDefaults (r : Rule) :
    r.withDefaults.withDefaults = r.withDefaults := by
  have hexpect : (r.expect.map PatternSpec.withDefaults).map PatternSpec.withDefaults =
      r.expect.map PatternSpec.withDefaults := by
    cases r.expect with
    | none => rfl
    | some s => exact congrArg some s.withDefaults_withDefaults
  rw [withDefaults, withDefaults, PatternSpec.withDefaults_withDefaults, hexpect]
  by_cases hnone : r.severity = .other "" <;> simp [hnone]

namespace Spec

open Markdown (Line)

/-! ## Profiles -/

/-- One more element is kept if it is a new one. -/
theorem eraseDups_concat {α : Type} [DecidableEq α] (l : List α) (a : α) :
    (l ++ [a]).eraseDups = if a ∈ l then l.eraseDups else l.eraseDups ++ [a] := by
  rw [List.eraseDups_append, List.removeAll, List.filter_singleton]
  by_cases ha : a ∈ l <;> simp [ha, List.eraseDups_cons]

/-- Among the elements that are kept, the one that occurs first stands first. -/
theorem pairwise_eraseDups_filter {α : Type} [DecidableEq α] (p : α → Bool) (l : List α) :
    ((l.filter p).eraseDups).Pairwise fun a b => l.idxOf a < l.idxOf b := by
  induction l using List.reverseRecOn with
  | nil => exact .nil
  | append_singleton l x ih =>
      have hmem : ∀ a ∈ (l.filter p).eraseDups, a ∈ l := fun a ha =>
        (List.mem_filter.mp (List.mem_eraseDups.mp ha)).1
      have hplace : ∀ a ∈ (l.filter p).eraseDups, (l ++ [x]).idxOf a = l.idxOf a := fun a ha =>
        List.idxOf_append_of_mem (hmem a ha)
      have hfront : ((l.filter p).eraseDups).Pairwise fun a b =>
          (l ++ [x]).idxOf a < (l ++ [x]).idxOf b := by
        refine ih.imp_of_mem fun ha hb hab => ?_
        rwa [hplace _ ha, hplace _ hb]
      rw [List.filter_append, List.filter_singleton]
      cases hx : p x with
      | false => simpa using hfront
      | true =>
          rw [cond_true, eraseDups_concat]
          split
          · exact hfront
          · next hnew =>
              refine List.pairwise_append.mpr ⟨hfront, List.pairwise_singleton _ _, ?_⟩
              intro a ha b hb
              obtain rfl := List.mem_singleton.mp hb
              have hb : b ∉ l := fun hb => hnew (List.mem_filter.mpr ⟨hb, hx⟩)
              have hlt : l.idxOf a < l.length := List.idxOf_lt_length_of_mem (hmem a ha)
              rw [hplace a ha, List.idxOf_append_of_notMem hb]
              omega

/-- The profiles that a section selects. -/
inductive Selected (c : Catalog) (lines : List Line) : List String → Prop
  | default : (∀ name ∈ mentioned lines, c.has name = false) →
      Selected c lines ({} : Spec).profiles
  | known {names : List String} :
      (∀ name, name ∈ names ↔ name ∈ mentioned lines ∧ c.has name = true) →
      names.Pairwise (fun a b => (mentioned lines).idxOf a < (mentioned lines).idxOf b) →
      Selected c lines names

theorem Selected.nodup {c : Catalog} {lines : List Line} {names : List String}
    (h : Selected c lines names) : names.Nodup := by
  cases h with
  | default _ => exact List.nodup_singleton _
  | known _ horder =>
      refine horder.imp fun hlt heq => ?_
      rw [heq] at hlt
      exact Nat.lt_irrefl _ hlt

/-! ## Thresholds -/

/-- The severity and the count of a row of a table that has both. -/
def validRow? (line : Line) : Option (Severity × Int) :=
  (row? line).bind fun (severity, written) => (count? written).map (severity, ·)

/-- The threshold of a severity is what the last valid row for it says, or the default. -/
inductive Settled (severity : Severity) : List Line → Int → Prop
  | unset {lines : List Line} : (∀ line ∈ lines, ∀ n, validRow? line ≠ some (severity, n)) →
      Settled severity lines (Thresholds.default.get severity)
  | row {before after : List Line} {line : Line} {n : Int} :
      validRow? line = some (severity, n) →
      (∀ line ∈ after, ∀ n, validRow? line ≠ some (severity, n)) →
      Settled severity (before ++ line :: after) n

section Rows

variable {severity : Severity} {lines : List Line} {line : Line} {n : Int}

theorem isKnown_of_validRow? (h : validRow? line = some (severity, n)) :
    severity.isKnown = true := by
  obtain ⟨⟨severity, written⟩, hrow, hcount⟩ := Option.bind_eq_some_iff.mp h
  obtain ⟨m, -, heq⟩ := Option.map_eq_some_iff.mp hcount
  cases heq
  simp only [row?] at hrow
  split at hrow
  · split at hrow
    · split at hrow
      · next hknown =>
          cases hrow
          exact hknown
      · cases hrow
    · cases hrow
  · cases hrow

theorem nonneg_of_validRow? (h : validRow? line = some (severity, n)) : 0 ≤ n := by
  obtain ⟨⟨severity, written⟩, -, hcount⟩ := Option.bind_eq_some_iff.mp h
  obtain ⟨m, hm, heq⟩ := Option.map_eq_some_iff.mp hcount
  cases heq
  simpa using (Option.filter_eq_some_iff.mp hm).2

/-- What one more line sets. -/
theorem thresholdsOf_concat (lines : List Line) (line : Line) :
    thresholdsOf (lines ++ [line]) = match validRow? line with
      | some (severity, n) => (thresholdsOf lines).set severity n
      | none => thresholdsOf lines := by
  rw [thresholdsOf, List.filterMap_append, List.foldl_append, ← thresholdsOf, validRow?]
  cases hrow : row? line with
  | none => simp [hrow]
  | some row => cases hcount : count? row.2 <;> simp [hrow, hcount]

theorem Settled.concat (h : Settled severity lines n)
    (hline : ∀ m, validRow? line ≠ some (severity, m)) : Settled severity (lines ++ [line]) n := by
  cases h with
  | unset hnone =>
      refine .unset fun l hl => ?_
      rcases List.mem_append.mp hl with hl | hl
      · exact hnone l hl
      · rwa [List.mem_singleton.mp hl]
  | @row before after last _ hlast hnone =>
      rw [List.append_assoc, List.cons_append]
      refine .row hlast fun l hl => ?_
      rcases List.mem_append.mp hl with hl | hl
      · exact hnone l hl
      · rwa [List.mem_singleton.mp hl]

theorem settled_thresholdsOf (severity : Severity) (lines : List Line) :
    Settled severity lines ((thresholdsOf lines).get severity) := by
  induction lines using List.reverseRecOn with
  | nil => exact .unset (by simp)
  | append_singleton lines line ih =>
      rw [thresholdsOf_concat]
      cases hrow : validRow? line with
      | none => exact ih.concat (by simp [hrow])
      | some row =>
          obtain ⟨other, n⟩ := row
          dsimp only
          by_cases hsame : other = severity
          · rw [hsame] at hrow ⊢
            rw [Thresholds.get_set_same _ _ _ (isKnown_of_validRow? hrow)]
            exact .row hrow (by simp)
          · rw [Thresholds.get_set_other _ _ hsame]
            exact ih.concat (by simp [hrow, hsame])

theorem Settled.nonneg (h : Settled severity lines n) : 0 ≤ n := by
  cases h with
  | unset _ => cases severity <;> simp [Thresholds.get, Thresholds.default]
  | row hrow _ => exact nonneg_of_validRow? hrow

end Rows

/-! ## Exclusions -/

/-- The lines of the first block of a section. -/
def firstBlock (lines : List Line) : List Line :=
  ((Markdown.blocks lines).head?.map Markdown.Block.body).getD []

/-- A line of the block as a glob. -/
def globOf (line : Line) : String := Text.trim (Text.textOf line)

/-- A glob that counts. -/
structure Listed (glob : String) : Prop where
  trimmed : Text.trim glob = glob
  nonempty : glob ≠ ""
  uncommented : glob.toList.head? ≠ some '#'
  readable : (GlobSet.ofPatterns [glob]).isOk = true

/-- Whether a trimmed line can be listed, as its bytes say. -/
def counts (l : Bytes) : Bool := l ≠ [] && l.head? ≠ some 0x23

theorem counts_iff {l : Bytes} : counts l = true ↔
    Text.textOf l ≠ "" ∧ (Text.textOf l).toList.head? ≠ some '#' := by
  have hmark : (Text.textOf l).toList.head? = some '#' ↔ l.head? = some 0x23 :=
    Text.head?_textOf_eq_some_iff (by decide) (by decide)
  rw [counts, Bool.and_eq_true, decide_eq_true_iff, decide_eq_true_iff, Ne, Ne, Ne, Ne,
    Text.textOf_eq_empty_iff, hmark]

theorem listedGlobs_eq (lines : List Line) :
    listedGlobs lines = ((firstBlock lines).map Text.trimBytes).filter counts := by
  rw [listedGlobs, firstBlock]
  cases Markdown.blocks lines with
  | nil => rfl
  | cons b rest => rfl

theorem mem_exclusionsOf {lines : List Line} {glob : String} :
    glob ∈ exclusionsOf lines ↔ (∃ line ∈ firstBlock lines, globOf line = glob) ∧ Listed glob := by
  rw [exclusionsOf, listedGlobs_eq, List.mem_filter, List.mem_map]
  constructor
  · rintro ⟨⟨bytes, hmem, rfl⟩, hok⟩
    obtain ⟨hmem, hcounts⟩ := List.mem_filter.mp hmem
    obtain ⟨line, hline, rfl⟩ := List.mem_map.mp hmem
    obtain ⟨hne, hmark⟩ := counts_iff.mp hcounts
    refine ⟨⟨line, hline, (Text.textOf_trimBytes line).symm⟩, ?_, hne, hmark, hok⟩
    rw [Text.textOf_trimBytes, Text.trim_trim]
  · rintro ⟨⟨line, hline, rfl⟩, hlisted⟩
    refine ⟨⟨Text.trimBytes line, ?_, Text.textOf_trimBytes line⟩, hlisted.readable⟩
    refine List.mem_filter.mpr ⟨List.mem_map_of_mem hline, counts_iff.mpr ?_⟩
    rw [Text.textOf_trimBytes]
    exact ⟨hlisted.nonempty, hlisted.uncommented⟩

theorem exclusionsOf_sublist (lines : List Line) :
    (exclusionsOf lines).Sublist ((firstBlock lines).map globOf) := by
  have hglobs : (firstBlock lines).map globOf =
      ((firstBlock lines).map Text.trimBytes).map Text.textOf := by
    rw [List.map_map]
    exact List.map_congr_left fun line _ => (Text.textOf_trimBytes line).symm
  rw [exclusionsOf, listedGlobs_eq, hglobs]
  exact List.filter_sublist.trans (List.filter_sublist.map _)

/-! ## Documents -/

/-- The lines that a part of a specification is read from: the first section of its title. -/
def sectionLines (lines : List Line) (title : String) : List Line :=
  (Markdown.section? lines title).getD []

/-- What can be relied on in a specification that was read from some lines. -/
structure WellFormed (c : Catalog) (lines : List Line) (s : Spec) : Prop where
  profiles_ne : s.profiles ≠ []
  profiles_nodup : s.profiles.Nodup
  profiles : Selected c (sectionLines lines profilesTitle) s.profiles
  thresholds_nonneg : ∀ severity ∈ Severity.all, 0 ≤ s.thresholds.get severity
  thresholds : ∀ severity ∈ Severity.all,
    Settled severity (sectionLines lines thresholdsTitle) (s.thresholds.get severity)
  rules : ∀ r ∈ s.customRules, r.problems = [] ∧ r.withDefaults = r
  exclusions : ∀ glob, glob ∈ s.exclusions ↔
    (∃ line ∈ firstBlock (sectionLines lines exclusionsTitle), globOf line = glob) ∧ Listed glob
  exclusions_order : s.exclusions.Sublist
    ((firstBlock (sectionLines lines exclusionsTitle)).map globOf)
  exclusions_readable : ∃ globs, GlobSet.ofPatterns s.exclusions = .ok globs

theorem selected_ofLines (c : Catalog) (lines : List Line) :
    Selected c (sectionLines lines profilesTitle) (ofLines c lines).profiles ∧
      (ofLines c lines).profiles ≠ [] := by
  have hmem : ∀ name, name ∈ profilesOf c (sectionLines lines profilesTitle) ↔
      name ∈ mentioned (sectionLines lines profilesTitle) ∧ c.has name = true := by
    intro name
    rw [profilesOf, List.mem_eraseDups, List.mem_filter]
  rw [ofLines]
  dsimp only
  split
  · next hnone =>
      refine ⟨.default fun name hname => ?_, by simp⟩
      cases hhas : c.has name with
      | false => rfl
      | true =>
          have hknown := (hmem name).mpr ⟨hname, hhas⟩
          rw [sectionLines, hnone] at hknown
          cases hknown
  · next hsome => exact ⟨.known hmem (pairwise_eraseDups_filter c.has _), hsome⟩

theorem valid_of_mem_rulesOf {lines : List Line} {r : Rule} (h : r ∈ rulesOf lines) :
    r.problems = [] ∧ r.withDefaults = r := by
  obtain ⟨v, hv⟩ := exists_parseRule_of_mem_rulesOf h
  obtain ⟨-, q, -, rfl, hproblems⟩ := Profile.parseRule_eq_ok_iff.mp hv
  exact ⟨hproblems, q.withDefaults_withDefaults⟩

/-- **Every specification that is read is well formed**, whatever the bytes and the catalog. -/
theorem parse_wellFormed (c : Catalog) (content : Bytes) :
    (parse c content).1.WellFormed c (Markdown.linesOf content) := by
  obtain ⟨hselected, hne⟩ := selected_ofLines c (Markdown.linesOf content)
  have hsettled := fun severity =>
    settled_thresholdsOf severity (sectionLines (Markdown.linesOf content) thresholdsTitle)
  exact {
    profiles_ne := hne
    profiles_nodup := hselected.nodup
    profiles := hselected
    thresholds_nonneg := fun severity _ => (hsettled severity).nonneg
    thresholds := fun severity _ => hsettled severity
    rules := fun _ hr => valid_of_mem_rulesOf hr
    exclusions := fun _ => mem_exclusionsOf
    exclusions_order := exclusionsOf_sublist _
    exclusions_readable := exists_exclusions c content }

/-- The last row that is valid counts. -/
example : (parse ⟨"", []⟩ (Text.bytesOf
    "## Thresholds\n|high|3|\n|high|4|\n|high|-1|\n|none|9|\n")).1.thresholds = ⟨0, 4, 10, 50⟩ := by
  decide +kernel

end Spec

end RuleScan
