import Mathlib.Algebra.GroupWithZero.Nat
import Mathlib.Algebra.Ring.Int.Defs
import RuleScan.Proofs.Engine.Separation
import RuleScan.Proofs.Profile.Loading
import RuleScan.Proofs.Profile.Sound
import RuleScan.Report.Basic

/-!
# Verdicts

A verdict looks at the four known severities only, so a finding with any other severity would pass
every gate unseen.

## What is proved

`Provided.verdict_accounts`: whatever rules are provided and however they are evaluated, every
finding ANSWERS to one of the rules and has a known severity.  So the four counts of a report add up
to all findings, and its verdict is what these counts say.

## Why

A finding takes its severity from its rule when it is made, and nothing that comes later — the
order, the dropping of repetitions — changes a finding.  The rule has a known severity because every
way in which rules are provided checks them (`RuleScan.Proofs.Profile.Sound`), after the default was
filled in.
-/

namespace RuleScan

open RuleScan.Engine

/-! ## Findings and their rules -/

/-- A finding says what its rule says. -/
structure Finding.Answers (f : Finding) (r : Rule) : Prop where
  rule : f.rule = r.id
  message : f.message = r.description
  severity : f.severity = r.severity
  category : f.category = r.findingCategory

theorem Finding.answers_ofMatch (r : Rule) (confidence : Confidence) (m : Match) :
    (ofMatch r confidence m).Answers r :=
  ⟨rfl, rfl, rfl, rfl⟩

namespace Engine

theorem answers_of_mem_ruleFindings {marker : String} {s : Searched} {f : Finding}
    (h : f ∈ ruleFindings marker s) : f.Answers s.rule.rule := by
  rcases List.mem_append.mp h with h | h
  · obtain ⟨⟨m, o⟩, -, h⟩ := List.mem_flatMap.mp h
    obtain ⟨x, -, rfl⟩ := List.mem_map.mp h
    exact Finding.answers_ofMatch _ _ x
  · rw [allFindings] at h
    split at h
    · cases h
    · obtain ⟨x, -, rfl⟩ := List.mem_map.mp h
      exact Finding.answers_ofMatch _ _ x

/-- Whatever the searches find, it is found for the rules that were planned, in their order. -/
theorem rules_of_runPlans {e : Engine} {signal : Signal} {read : String → Option Text.Bytes}
    {directory : String} {plans : List Plan} {searched : List Searched} {s s' : Run}
    (h : (runPlans e signal read directory plans).Yields s searched s') :
    searched.map Searched.rule = plans.map Plan.rule := by
  induction plans generalizing searched s with
  | nil =>
      cases h
      rfl
  | cons p rest ih =>
      obtain ⟨anyOf, s₁, -, h⟩ := h.of_bind
      obtain ⟨allOf, s₂, -, h⟩ := h.of_bind
      obtain ⟨found, s₃, hrest, h⟩ := h.of_bind
      cases h
      rw [List.map_cons, List.map_cons, ih hrest]

theorem not_yields_failWith {α : Type} {signal : Signal} {f : Failure} {s s' : Run} {a : α} :
    ¬ (failWith signal f).Yields s a s' := by
  intro h
  obtain ⟨o, s₁, -, h⟩ := h.of_bind
  cases o <;> cases h

/-- The findings of an evaluation answer to its rules. -/
theorem answers_evaluate {e : Engine} {signal : Signal} {d : Disk} {rules : List Rule}
    {files : Option (List String)} {exclude : List String} {result : Evaluation} {s s' : Run}
    (h : (e.evaluate signal d rules files exclude).Yields s result s') {f : Finding}
    (hf : f ∈ result.findings) : ∃ r ∈ rules, f.Answers r := by
  obtain ⟨cs, hcs, known, s₁, h⟩ := searchAll_of_yields h
  obtain ⟨searched, s₂, htasks, h⟩ := h.of_bind
  obtain ⟨o, s₃, -, h⟩ := h.of_bind
  have hplanned := rules_of_runPlans (RunM.Yields.of_tryCatch
    (fun _ _ => not_yields_failWith) htasks)
  cases o with
  | some i => cases h
  | none =>
      cases h
      have hmem := Finding.mem_of_firstAt (Finding.mem_distinct.mp hf)
      obtain ⟨x, hx, hf⟩ := List.mem_flatMap.mp hmem
      refine ⟨x.rule.rule, ?_, answers_of_mem_ruleFindings hf⟩
      have hx : x.rule ∈ (cs.map (planOf known)).map Plan.rule := by
        rw [← hplanned]
        exact List.mem_map_of_mem hx
      obtain ⟨p, hp, hpx⟩ := List.mem_map.mp hx
      obtain ⟨c, hc, rfl⟩ := List.mem_map.mp hp
      rw [← hpx, ← (compileRules_inv hcs).1]
      exact List.mem_map_of_mem hc

end Engine

theorem Provided.rulesSound {rules : List Rule} (h : Provided rules) : RulesSound rules := by
  cases h with
  | loaded hload => exact Profile.rulesSound_of_load hload
  | combined c content d => exact Spec.rulesSound_combine (Spec.sound_customRules c content) c d

/-! ## Counts -/

namespace Report

variable (findings : List Finding) (profile : String) (microseconds : Int) (o : Options)

/-- A count of a report is the number of findings, for every severity, whether it occurs or not. -/
@[simp] theorem count_build (severity : Severity) :
    (build findings profile microseconds o).summary.count severity = countOf findings severity := by
  have hfind : (countsOf findings).find? (·.1 = severity) =
      ((severitiesOf findings).find? (· = severity)).map fun s => (s, (countOf findings s : Int)) :=
    List.find?_map ..
  simp only [Summary.count, build, Option.getD_some, hfind]
  cases h : (severitiesOf findings).find? (· = severity) with
  | some s =>
      obtain rfl : s = severity := by simpa using List.find?_some h
      rfl
  | none =>
      -- A severity that is not listed does not occur.
      have hunlisted : severity ∉ severitiesOf findings := fun hs => by
        simpa using List.find?_eq_none.mp h severity hs
      have hnone : countOf findings severity = 0 := by
        refine List.countP_eq_zero.mpr fun f hf hs => hunlisted ?_
        rw [severitiesOf, List.mem_mergeSort, List.mem_eraseDups, ← of_decide_eq_true hs]
        exact List.mem_append_right _ (List.mem_map_of_mem hf)
      rw [hnone]
      rfl

variable {findings}

theorem countOf_pos_iff {severity : Severity} :
    0 < countOf findings severity ↔ ∃ f ∈ findings, f.severity = severity := by
  rw [countOf, List.countP_pos_iff]
  simp only [decide_eq_true_eq]

/-- One more finding is counted once for every time its severity is listed. -/
theorem sum_countOf_cons (severities : List Severity) (f : Finding) :
    (severities.map (countOf (f :: findings))).sum =
      (severities.map (countOf findings)).sum + severities.count f.severity := by
  induction severities with
  | nil => rfl
  | cons s rest ih =>
      simp only [List.map_cons, List.sum_cons, ih, List.count_cons, beq_iff_eq]
      rw [countOf, List.countP_cons, ← countOf]
      by_cases hs : f.severity = s
      · simp [hs]
        omega
      · simp [hs, Ne.symm hs]
        omega

/-- Findings whose severities are listed once are all counted, each once. -/
theorem sum_countOf_of_nodup {severities : List Severity} (hnodup : severities.Nodup)
    (h : ∀ f ∈ findings, f.severity ∈ severities) :
    (severities.map (countOf findings)).sum = findings.length := by
  induction findings with
  | nil => simp [show countOf [] = fun _ => 0 from rfl]
  | cons f rest ih =>
      obtain ⟨hf, hrest⟩ := List.forall_mem_cons.mp h
      rw [sum_countOf_cons, ih hrest, List.count_eq_one_of_mem hnodup hf, List.length_cons]

/-- Findings with known severities are all counted, each once. -/
theorem sum_countOf (h : ∀ f ∈ findings, f.severity ∈ Severity.all) :
    (Severity.all.map (countOf findings)).sum = findings.length :=
  sum_countOf_of_nodup (by decide) h

/-! ## The verdict -/

section Verdict

variable (t : Thresholds)

/-- More findings of a severity than are accepted. -/
def Exceeds (findings : List Finding) (severity : Severity) : Prop :=
  t.get severity < countOf findings severity

theorem verdict_eq_fail_iff : verdict t findings = .fail ↔
    Exceeds t findings .critical ∨ Exceeds t findings .high := by
  rw [verdict]
  split
  · next h => simpa [Exceeds] using h
  · next h =>
      split <;> simpa [Exceeds] using h

theorem verdict_eq_warning_iff : verdict t findings = .warning ↔
    verdict t findings ≠ .fail ∧ (Exceeds t findings .medium ∨ Exceeds t findings .low) := by
  rw [verdict]
  split
  · simp
  · split
    · next h => simpa [Exceeds] using h
    · next h => simpa [Exceeds] using h

theorem verdict_eq_pass_iff : verdict t findings = .pass ↔
    verdict t findings ≠ .fail ∧ verdict t findings ≠ .warning := by
  rw [verdict]
  split
  · simp
  · split <;> simp

theorem exceeds_none_iff {severity : Severity} :
    Exceeds Thresholds.none findings severity ↔ ∃ f ∈ findings, f.severity = severity := by
  rw [← countOf_pos_iff]
  cases severity <;> exact Int.natCast_pos

end Verdict

/-- Where no finding is accepted, only a report without findings passes. -/
theorem verdict_none_eq_pass_iff (hknown : ∀ f ∈ findings, f.severity ∈ Severity.all) :
    verdict Thresholds.none findings = .pass ↔ findings = [] := by
  constructor
  · intro hpass
    obtain ⟨hfail, hwarning⟩ := (verdict_eq_pass_iff _).mp hpass
    refine List.eq_nil_iff_forall_not_mem.mpr fun f hf => ?_
    have hexceeds : Exceeds Thresholds.none findings f.severity :=
      exceeds_none_iff.mpr ⟨f, hf, rfl⟩
    have hf := hknown f hf
    simp only [Severity.all, List.mem_cons, List.not_mem_nil, or_false] at hf
    rcases hf with hf | hf | hf | hf <;> rw [hf] at hexceeds
    · exact hfail ((verdict_eq_fail_iff _).mpr (.inl hexceeds))
    · exact hfail ((verdict_eq_fail_iff _).mpr (.inr hexceeds))
    · exact hwarning ((verdict_eq_warning_iff _).mpr ⟨hfail, .inl hexceeds⟩)
    · exact hwarning ((verdict_eq_warning_iff _).mpr ⟨hfail, .inr hexceeds⟩)
  · rintro rfl
    rfl

end Report

/-- **Verdicts account for every finding.**  Every finding of an evaluation of provided rules has a
known severity and says what its rule says.  So the counts of a report on the findings add up to
their number, and its verdict is told by the counts. -/
theorem Provided.verdict_accounts {rules : List Rule} (h : Provided rules) {e : Engine}
    {signal : Signal} {d : Disk} {files : Option (List String)} {exclude : List String}
    {result : Evaluation} {s s' : Run}
    (heval : (e.evaluate signal d rules files exclude).Yields s result s') :
    (∀ f ∈ result.findings, f.severity ∈ Severity.all ∧ ∃ r ∈ rules, f.Answers r) ∧
    ∀ (profile : String) (microseconds : Int) (o : Report.Options) (report : Report),
      report = Report.build result.findings profile microseconds o →
      report.summary.total = result.findings.length ∧
      (Severity.all.map report.summary.count).sum = report.summary.total ∧
      (o.thresholds = none →
        (report.status = .pass ↔ result.findings = []) ∧
        (report.status = .fail ↔
          ∃ f ∈ result.findings, f.severity = .critical ∨ f.severity = .high)) ∧
      ∀ t, o.thresholds = some t →
        (report.status = .fail ↔
          t.critical < report.summary.count .critical ∨ t.high < report.summary.count .high) ∧
        (report.status = .warning ↔ report.status ≠ .fail ∧
          (t.medium < report.summary.count .medium ∨ t.low < report.summary.count .low)) ∧
        (report.status = .pass ↔ report.status ≠ .fail ∧ report.status ≠ .warning) := by
  have hanswers : ∀ f ∈ result.findings, ∃ r ∈ rules, f.Answers r :=
    fun f hf => answers_evaluate heval hf
  have hknown : ∀ f ∈ result.findings, f.severity ∈ Severity.all := by
    intro f hf
    obtain ⟨r, hr, hanswer⟩ := hanswers f hf
    rw [hanswer.severity]
    exact (h.rulesSound.sound r hr).severity
  refine ⟨fun f hf => ⟨hknown f hf, hanswers f hf⟩, ?_⟩
  rintro profile microseconds o report rfl
  refine ⟨rfl, ?_, fun hnone => ?_, fun t ht => ?_⟩
  · have hsum := Report.sum_countOf hknown
    simp only [Severity.all, List.map_cons, List.map_nil, List.sum_cons, List.sum_nil,
      Report.count_build] at hsum ⊢
    rw [Report.build, ← hsum]
    push_cast
    rfl
  · have hstatus : (Report.build result.findings profile microseconds o).status =
        Report.verdict Thresholds.none result.findings := by
      rw [Report.build, hnone]
      rfl
    rw [hstatus]
    refine ⟨Report.verdict_none_eq_pass_iff hknown, ?_⟩
    rw [Report.verdict_eq_fail_iff, Report.exceeds_none_iff, Report.exceeds_none_iff,
      ← exists_or]
    simp only [← and_or_left]
  · have hstatus : (Report.build result.findings profile microseconds o).status =
        Report.verdict t result.findings := by
      rw [Report.build, ht]
      rfl
    rw [hstatus]
    simp only [Report.count_build]
    exact ⟨Report.verdict_eq_fail_iff t, Report.verdict_eq_warning_iff t,
      Report.verdict_eq_pass_iff t⟩

/-! ## A rule without a severity

The profile names no severity for its rule, which is given one when it is loaded. -/

/-- One file with a line that the rule is about. -/
def namelessDisk : Disk := { root := .directory [("f", .file [120, 10])] }

theorem load_namelessDisk :
    (FileReader.make "." defaultMaxSize).load namelessDisk "f" = some [120, 10] := by
  simp only [FileReader.make, FileReader.load, join_single, Disk.stat, namelessDisk, place_single]
  rfl

theorem yields_namelessDisk : ∃ result s',
    (({} : Engine).evaluate Signal.quiet namelessDisk [Profile.sampleRule.withDefaults]
      (some ["f"]) []).Yields {} result s' ∧ result.findings.map Finding.severity = [.medium] := by
  have hfound : (compileRules [Profile.sampleRule.withDefaults]).toOption.map (fun cs =>
      (nativeEvaluation defaultMarker (fun _ => some [120, 10]) ["f"] cs).findings.map
        Finding.severity) = some [.medium] := by
    decide +kernel
  obtain ⟨cs, hcs, hfound⟩ := Option.map_eq_some_iff.mp hfound
  have hknown : universeOf [] ["f"] = ["f"] := by decide +kernel
  obtain ⟨s', hyields⟩ := returns_evaluate (e := {}) rfl namelessDisk ["f"]
    (show GlobSet.ofPatterns [] = .ok [] from rfl) (eq_ok_of_toOption hcs) {}
  refine ⟨_, s', hyields, ?_⟩
  have hread : ∀ name ∈ ["f"], (FileReader.make "." defaultMaxSize).load namelessDisk name =
      some [120, 10] := by
    intro name hname
    rw [List.mem_singleton.mp hname]
    exact load_namelessDisk
  rw [hknown, nativeEvaluation_congr _ hread]
  exact hfound

/-- The finding counts, so the report does not pass; but ten like it are accepted as a rule. -/
theorem Provided.verdict_accounts_sample :
    ∃ result s', (({} : Engine).evaluate Signal.quiet namelessDisk [Profile.sampleRule.withDefaults]
        (some ["f"]) []).Yields {} result s' ∧
      result.findings.map Finding.severity = [.medium] ∧
      (Report.build result.findings "p" 0).status ≠ .pass ∧
      (Report.build result.findings "p" 0 { thresholds := some .default }).status = .pass := by
  obtain ⟨result, s', hyields, hmedium⟩ := yields_namelessDisk
  have hprovided : Provided [Profile.sampleRule.withDefaults] := .loaded Profile.load_sampleText
  obtain ⟨-, hreport⟩ := hprovided.verdict_accounts hyields
  refine ⟨result, s', hyields, hmedium, ?_, ?_⟩
  · obtain ⟨-, -, hverdict, -⟩ := hreport "p" 0 {} _ rfl
    intro hpass
    rw [(hverdict rfl).1.mp hpass] at hmedium
    cases hmedium
  · obtain ⟨-, -, -, hverdict⟩ := hreport "p" 0 { thresholds := some .default } _ rfl
    obtain ⟨hfail, hwarning, hpass⟩ := hverdict .default rfl
    have hcount : ∀ severity, Report.countOf result.findings severity =
        [Severity.medium].countP (· = severity) := by
      intro severity
      rw [← hmedium, List.countP_map]
      rfl
    simp only [Report.count_build, hcount] at hfail hwarning
    have hnotfail := mt hfail.mp (by decide)
    exact hpass.mpr ⟨hnotfail, fun h => absurd (hwarning.mp h).2 (by decide)⟩

end RuleScan
