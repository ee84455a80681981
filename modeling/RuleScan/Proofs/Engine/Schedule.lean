import RuleScan.Proofs.Engine.Board
import RuleScan.Proofs.Engine.Native
import RuleScan.Proofs.Engine.Tally

/-!
# The order of tasks does not show

What becomes of a board on which all tasks have ended (`Engine.Board`).  The findings of a rule are
made of what was put down for its tasks; the tallies of files are gone through in some order
(`Engine.Tallies`), and the diagnostics are sorted by a sort that may leave equal ones anywhere.

## What is proved

`eq_conclude_of_schedule`: whatever was chosen on the way, the result is that of doing the tasks
one after the other with the same outcomes, provided that no task tells of a place twice.

## Why

All is about first findings.  A place that two patterns of a rule tell of belongs to the one with
the lower number, however the matches came; the order of matches within a task moves no place past
itself; and the tallies of two files share no place.
-/

namespace RuleScan.Diagnostic

/-! ## The order of diagnostics -/

theorem compare_eq_lex :
    compare = compareLex (compareOn kind) (compareLex (compareOn rule)
      (compareLex (compareOn pattern) (compareOn message))) := by
  funext a b
  rfl

instance : Std.TransCmp compare := compare_eq_lex ▸ inferInstance

/-- The order looks at all there is, so that diagnostics in the same place are the same. -/
theorem eq_of_compare_eq {a b : Diagnostic} (h : compare a b = .eq) : a = b := by
  simp only [compare, Ordering.then_eq_eq, Std.LawfulEqCmp.compare_eq_iff_eq] at h
  obtain ⟨hkind, hrule, hpattern, hmessage⟩ := h
  cases a
  cases b
  simp_all

theorem ne_gt_iff {a b : Diagnostic} : compare a b ≠ .gt ↔ (compare a b).isLE = true := by
  cases compare a b <;> decide

theorem pairwise_sort (l : List Diagnostic) :
    (sort l).Pairwise fun a b => compare a b ≠ .gt := by
  refine (List.pairwise_mergeSort ?_ ?_ l).imp ?_
  · intro a b c
    simp only [decide_eq_true_eq, ne_gt_iff]
    exact Std.TransCmp.isLE_trans
  · intro a b
    have hswap : compare b a = (compare a b).swap := Std.OrientedCmp.eq_swap
    simp only [Bool.or_eq_true, decide_eq_true_eq, ne_gt_iff, hswap]
    cases compare a b <;> decide
  · intro a b h
    simpa using h

/-- However a list is sorted, the result is the same. -/
theorem eq_sort {l l' : List Diagnostic} (hperm : l'.Perm l)
    (hsorted : l'.Pairwise fun a b => compare a b ≠ .gt) : l' = sort l := by
  refine (hperm.trans (List.mergeSort_perm l _).symm).eq_of_pairwise ?_ hsorted (pairwise_sort l)
  intro a b _ _ hab hba
  have hswap : compare b a = (compare a b).swap := Std.OrientedCmp.eq_swap
  refine eq_of_compare_eq ?_
  cases hc : compare a b with
  | lt => rw [hswap, hc] at hba; exact absurd rfl hba
  | eq => rfl
  | gt => exact absurd hc hab

end RuleScan.Diagnostic

/-- Where a match stands. -/
def RuleScan.Match.place (x : RuleScan.Match) : String × Int × Int := (x.file, x.line, x.column)

namespace RuleScan.Engine

/-! ## From a board to a result -/

/-- What was put down for the tasks of a rule, pattern by pattern. -/
def Board.slots (b : Board) (i : Nat) (part : Part) (s : Searched) :
    List (Matcher × List Match) :=
  (s.tasks part).zipIdx.map fun (mo, j) => (mo.1, b.found ⟨i, part, j⟩)

/-- The unmarked matches that were put down for the patterns that all have to occur. -/
def Board.groups (marker : String) (b : Board) (i : Nat) (s : Searched) : List (List Match) :=
  (b.slots i .all s).map fun (_, ms) => unmarked marker ms

/-- The findings of a rule, with the files of its tallies in some order. -/
def Board.ruleFindings (marker : String) (b : Board) (i : Nat) (s : Searched)
    (order : List String) : List Finding :=
  ((b.slots i .any s).flatMap fun (m, ms) =>
    (unmarked marker ms).map (Finding.ofMatch s.rule.rule m.pattern.confidence)) ++
    tallyFindings s.rule.rule (b.groups marker i s) order

/-- The results that a board can give. -/
structure Board.Gives (marker : String) (files : List String) (plan : List Searched) (b : Board)
    (result : Evaluation) : Prop where
  /-- The tallies of every rule are gone through in some order. -/
  findings : ∃ order : Nat → List String,
    (∀ i s, plan[i]? = some s → Enumerates (order i) (tallies (b.groups marker i s))) ∧
    result.findings = Finding.distinct
      (plan.zipIdx.flatMap fun (s, i) => b.ruleFindings marker i s (order i))
  files : result.files = files
  /-- The diagnostics are sorted in some way. -/
  diagnostics : result.diagnostics.Perm b.diagnostics ∧
    result.diagnostics.Pairwise fun x y => Diagnostic.compare x y ≠ .gt

/-- No task tells of a place twice. -/
def PlacesDistinct (plan : List Searched) : Prop :=
  ∀ s ∈ plan, ∀ mo ∈ s.anyOf ++ s.allOf, mo.2.found.Pairwise fun x y => x.place ≠ y.place

/-! ## The findings do not depend on the schedule -/

theorem map_zipIdx {α β : Type} (l : List α) (f : α → β) :
    l.map f = l.zipIdx.map fun p => f p.1 := by
  conv => lhs; rw [← List.zipIdx_map_fst 0 l, List.map_map]
  rfl

/-- The order of matches with different places does not show in first findings. -/
theorem firstAt_unmarked_perm (marker : String) (r : Rule) (confidence : Confidence)
    {ms ms' : List Match} (hperm : ms'.Perm ms) (hne : ms.Pairwise fun x y => x.place ≠ y.place)
    (k : Finding.Place) :
    Finding.firstAt k ((unmarked marker ms').map (Finding.ofMatch r confidence)) =
      Finding.firstAt k ((unmarked marker ms).map (Finding.ofMatch r confidence)) := by
  have hp : ((unmarked marker ms).map (Finding.ofMatch r confidence)).Perm
      ((unmarked marker ms').map (Finding.ofMatch r confidence)) :=
    (hperm.symm.filter _).map _
  refine (Finding.firstAt_perm hp ?_ k).symm
  refine List.pairwise_map.mpr ((hne.filter _).imp ?_)
  intro x y hxy hk
  simp only [Finding.key, Finding.ofMatch, Prod.mk.injEq, true_and] at hk
  exact hxy (by simp [Match.place, hk])

/-- Nor does it show in the tallies. -/
theorem firstOfAll_perm {α : Type} (marker : String) (r : Rule) {l : List α}
    {g g' : α → List Match} (hperm : ∀ a ∈ l, (g' a).Perm (g a))
    (hne : ∀ a ∈ l, (g a).Pairwise fun x y => x.place ≠ y.place) (k : Finding.Place) :
    firstOfAll r (l.map fun a => unmarked marker (g' a)) k =
      firstOfAll r (l.map fun a => unmarked marker (g a)) k := by
  refine firstOfAll_congr (fun a ha => ?_) fun a ha => ?_
  · simp only [unmarked, List.mem_filter, (hperm a ha).mem_iff]
  · exact firstAt_unmarked_perm marker r _ (hperm a ha) (hne a ha) k

/-- The first findings of a rule are those of doing its tasks one after the other. -/
theorem Board.Sound.firstAt_ruleFindings {plan : List Searched} {b : Board} (h : b.Sound plan)
    (hcomplete : b.Complete plan) (hplaces : PlacesDistinct plan) (marker : String) {i : Nat}
    {s : Searched} (hs : plan[i]? = some s) {order : List String}
    (horder : Enumerates order (tallies (b.groups marker i s))) (k : Finding.Place) :
    Finding.firstAt k (b.ruleFindings marker i s order) =
      Finding.firstAt k (Engine.ruleFindings marker s) := by
  have hperm : ∀ part, ∀ p ∈ (s.tasks part).zipIdx,
      (b.found ⟨i, part, p.2⟩).Perm p.1.2.found := fun part p hp =>
    h.found_perm hcomplete (taskAt?_eq_some hs (List.mem_zipIdx_iff_getElem?.mp hp))
  have hne : ∀ part, ∀ p ∈ (s.tasks part).zipIdx,
      p.1.2.found.Pairwise fun x y => x.place ≠ y.place := by
    intro part p hp
    have hmem : p.1 ∈ s.tasks part := List.mem_of_getElem? (List.mem_zipIdx_iff_getElem?.mp hp)
    refine hplaces s (List.mem_of_getElem? hs) p.1 (List.mem_append.mpr ?_)
    cases part with
    | any => exact .inl hmem
    | all => exact .inr hmem
  rw [Board.ruleFindings, Engine.ruleFindings, Finding.firstAt_append, Finding.firstAt_append,
    firstAt_tallyFindings _ horder, firstAt_allFindings]
  congr 1
  · rw [anyFindings, flatMap_zipIdx s.anyOf, Board.slots, List.flatMap_map]
    exact Finding.firstAt_flatMap_congr fun p hp =>
      firstAt_unmarked_perm marker _ _ (hperm .any p hp) (hne .any p hp) k
  · rw [allMatches, map_zipIdx s.allOf, Board.groups, Board.slots, List.map_map]
    exact firstOfAll_perm marker _ (hperm .all) (hne .all) k

/-- Every board gives some result. -/
theorem Board.exists_gives (marker : String) (files : List String) (plan : List Searched)
    (b : Board) : ∃ result, b.Gives marker files plan result := by
  have hsome : ∀ i, ∃ order, ∀ s, plan[i]? = some s →
      Enumerates order (tallies (b.groups marker i s)) := by
    intro i
    cases hs : plan[i]? with
    | none => exact ⟨[], fun s hs' => by cases hs'⟩
    | some s =>
        obtain ⟨order, horder⟩ := exists_enumerates (b.groups marker i s)
        refine ⟨order, fun s' hs' => ?_⟩
        rw [← Option.some.inj hs']
        exact horder
  choose order horder using hsome
  refine ⟨⟨_, files, Diagnostic.sort b.diagnostics⟩, ⟨order, horder, rfl⟩, rfl, ?_⟩
  exact ⟨List.mergeSort_perm _ _, Diagnostic.pairwise_sort _⟩

/-! ## The schedule does not show -/

/-- A board on which all tasks have ended gives the result of doing them one after the other. -/
theorem Board.Sound.eq_conclude {plan : List Searched} {b : Board} (h : b.Sound plan)
    (hcomplete : b.Complete plan) (hplaces : PlacesDistinct plan) {marker : String}
    {files : List String} {result : Evaluation} (hgives : b.Gives marker files plan result) :
    result = conclude marker files plan := by
  obtain ⟨order, horder, hfindings⟩ := hgives.findings
  have hsame : result.findings = (conclude marker files plan).findings := by
    rw [hfindings, conclude, flatMap_zipIdx plan]
    refine Finding.distinct_congr fun k => Finding.firstAt_flatMap_congr fun p hp => ?_
    have hs := List.mem_zipIdx_iff_getElem?.mp hp
    exact h.firstAt_ruleFindings hcomplete hplaces marker hs (horder p.2 p.1 hs) k
  have hdiagnostics : result.diagnostics = (conclude marker files plan).diagnostics :=
    Diagnostic.eq_sort (hgives.diagnostics.1.trans (h.diagnostics_perm hcomplete))
      hgives.diagnostics.2
  cases result
  simp only [conclude, Evaluation.mk.injEq] at hsame hdiagnostics ⊢
  exact ⟨hsame, hgives.files, hdiagnostics⟩

/-- Where no task tells of a place twice, every schedule can be brought to an end, and all of them
end with the result of doing the tasks one after the other — which is what an evaluation whose
tasks have these outcomes gives. -/
theorem eq_conclude_of_schedule {workers : Nat} (hworkers : 0 < workers) {plan : List Searched}
    (hplaces : PlacesDistinct plan) :
    (∀ marker files b result, Board.Reachable workers plan b → b.Complete plan →
      b.Gives marker files plan result → result = conclude marker files plan) ∧
    (∀ marker files b, Board.Reachable workers plan b →
      ∃ b' result, Relation.ReflTransGen (Board.Step workers plan) b b' ∧ b'.Complete plan ∧
        b'.Gives marker files plan result) ∧
    ∀ (e : Engine) d rules files exclude globs cs s s', GlobSet.ofPatterns exclude = .ok globs →
      compileRules rules = .ok cs →
      (runPlans e Signal.quiet ((FileReader.make e.root e.maxFileSize).load d) d.directory
        (cs.map (planOf (universeOf globs files)))).Yields s plan s' →
      (e.evaluate Signal.quiet d rules (some files) exclude).Yields s
        (conclude e.effectiveMarker (universeOf globs files) plan)
        { s' with moment := s'.moment + 1 } := by
  refine ⟨?_, ?_, ?_⟩
  · intro marker files b result hreach hcomplete hgives
    exact hreach.sound.eq_conclude hcomplete hplaces hgives
  · intro marker files b hreach
    obtain ⟨b', hsteps, hcomplete⟩ := hreach.sound.exists_complete hworkers
    obtain ⟨result, hgives⟩ := Board.exists_gives marker files plan b'
    exact ⟨b', result, hsteps, hcomplete, hgives⟩
  · intro e d rules files exclude globs cs s s' hglobs hrules htasks
    exact yields_evaluate hglobs hrules htasks

/-- Two patterns that tell of one place with different confidence, and a task that failed. -/
def samplePlan : List Searched :=
  [{ rule := { rule := { id := "r" }, scope := {}, anyOf := [], allOf := [] }
     anyOf :=
      [(⟨.regex "a", none, []⟩, .ok [⟨"f", [97], 2, 1⟩, ⟨"f", [97], 1, 1⟩]),
        (⟨.literal "a", none, [97]⟩, .ok [⟨"f", [97], 1, 1⟩]),
        (⟨.literal "b", none, [98]⟩, .error "no program")]
     allOf := [] }]

theorem eq_conclude_of_schedule_sample :
    ∃ b result, Board.Reachable 2 samplePlan b ∧ b.Complete samplePlan ∧
      b.Gives "!" ["f"] samplePlan result ∧ result = conclude "!" ["f"] samplePlan ∧
      (Finding.firstAt ("r", "f", 1, 1) result.findings).map Finding.confidence = some .medium ∧
      result.diagnostics.length = 1 := by
  have hplaces : PlacesDistinct samplePlan := by
    intro s hs
    rw [List.mem_singleton.mp hs]
    decide
  obtain ⟨hsame, hend, -⟩ := eq_conclude_of_schedule (show 0 < 2 by decide) hplaces
  obtain ⟨b, result, hsteps, hcomplete, hgives⟩ := hend "!" ["f"] {} .refl
  have hresult := hsame "!" ["f"] b result hsteps hcomplete hgives
  refine ⟨b, result, hsteps, hcomplete, hgives, hresult, ?_, ?_⟩
  · rw [hresult, conclude, Finding.firstAt_distinct]
    decide +kernel
  · rw [hresult]
    decide +kernel

end RuleScan.Engine
