import Mathlib.Algebra.BigOperators.Ring.Finset
import Mathlib.Data.Finset.Card
import Mathlib.Data.List.Perm.Subperm
import RuleScan.Proofs.Report.Roundtrip
import RuleScan.Proofs.Report.Verdict

/-!
# What a report says of its findings

A report sums up a LIST of findings, but what it says is said of a multiset: how many there are, of
which severities, in how many files, and whether that is accepted.

## What is proved

`build_sums_up`, of every report that is built:

  * the counts are those of the findings, every severity is counted once, and the counts add up;
  * the findings are those that were given, in order;
  * another order of the findings gives the same verdict and the same summary, and the same list
    where no two findings have one place;
  * more findings never make the verdict better, and higher thresholds never make it worse.

## Where the order could be seen

The counts are listed by the NAMES of the severities.  A severity that is none of the four may have
the name of one of them, and sorting by names would then leave the two as they came.  But the four
are always listed first (`pairwise_severitiesOf_name`), so that the list is the same all the same.
-/

namespace RuleScan

/-! ## Better and worse -/

/-- The place in the order of verdicts: a better one comes first.  Reports that are built have one
of the three words. -/
def Status.rank : Status → Nat
  | .pass => 0
  | .warning => 1
  | .fail => 2
  | .other _ => 3

/-- No severity has a higher threshold in the first than in the second. -/
def Thresholds.AtMost (t t' : Thresholds) : Prop := ∀ severity, t.get severity ≤ t'.get severity

namespace Report

/-- The thresholds that count: where none are given no finding is accepted. -/
def Options.accepted (o : Options) : Thresholds := o.thresholds.getD Thresholds.none

section Verdict

variable {findings findings' : List Finding} {t t' : Thresholds}

theorem Exceeds.mono {severity : Severity} (h : Exceeds t findings severity)
    (hmore : findings.Subperm findings') (hlower : t'.AtMost t) :
    Exceeds t' findings' severity :=
  calc t'.get severity
    _ ≤ t.get severity := hlower severity
    _ < countOf findings severity := h
    _ ≤ countOf findings' severity := Int.ofNat_le.mpr (hmore.countP_le _)

/-- More findings and lower thresholds never make a verdict better. -/
theorem rank_verdict_mono (hmore : findings.Subperm findings') (hlower : t'.AtMost t) :
    (verdict t findings).rank ≤ (verdict t' findings').rank := by
  have hmono : ∀ severity, Exceeds t findings severity → Exceeds t' findings' severity :=
    fun _ h => h.mono hmore hlower
  by_cases hfail : verdict t findings = .fail
  · have hfail' : verdict t' findings' = .fail :=
      (verdict_eq_fail_iff t').mpr (((verdict_eq_fail_iff t).mp hfail).imp (hmono _) (hmono _))
    rw [hfail, hfail']
  by_cases hwarning : verdict t findings = .warning
  · obtain ⟨-, hexceeds⟩ := (verdict_eq_warning_iff t).mp hwarning
    by_cases hfail' : verdict t' findings' = .fail
    · rw [hwarning, hfail']
      decide
    · have hwarning' : verdict t' findings' = .warning :=
        (verdict_eq_warning_iff t').mpr ⟨hfail', hexceeds.imp (hmono _) (hmono _)⟩
      rw [hwarning, hwarning']
  · rw [(verdict_eq_pass_iff t).mpr ⟨hfail, hwarning⟩]
    exact Nat.zero_le _

theorem verdict_perm (h : findings'.Perm findings) : verdict t findings' = verdict t findings := by
  have hcount : countOf findings' = countOf findings := funext fun _ => h.countP_eq _
  rw [verdict, hcount, ← verdict]

theorem verdict_mem (t : Thresholds) (findings : List Finding) :
    verdict t findings ∈ [Status.pass, .warning, .fail] := by
  rw [verdict]
  split
  · decide
  · split <;> decide

end Verdict

/-! ## The severities that are counted -/

section Severities

variable (findings : List Finding)

theorem mem_severitiesOf_iff {severity : Severity} : severity ∈ severitiesOf findings ↔
    severity ∈ Severity.all ∨ ∃ f ∈ findings, f.severity = severity := by
  rw [severitiesOf, List.mem_mergeSort, List.mem_eraseDups, List.mem_append, List.mem_map]

theorem nodup_severitiesOf : (severitiesOf findings).Nodup :=
  (List.mergeSort_perm _ _).nodup_iff.mpr (eraseDups_spec _).1

theorem isKnown_iff {severity : Severity} : severity.isKnown = true ↔ severity ∈ Severity.all := by
  cases severity <;> simp [Severity.isKnown, Severity.all]

/-- Severities of one name are the same, or one of them only is one of the four. -/
theorem eq_of_name_eq {a b : Severity} (hname : a.name = b.name)
    (hknown : a.isKnown = b.isKnown) : a = b := by
  cases a <;> cases b <;> simp_all [Severity.name, Severity.isKnown]

/-- Of two items without repetitions, each cannot stand before the other. -/
theorem not_sublist_swap {α : Type} {a b : α} {l : List α} (hnodup : l.Nodup)
    (h : [a, b].Sublist l) : ¬ [b, a].Sublist l := by
  induction l with
  | nil => cases h
  | cons c l ih =>
      obtain ⟨hc, hl⟩ := List.nodup_cons.mp hnodup
      intro h'
      cases h with
      | cons _ h =>
          cases h' with
          | cons _ h' => exact ih hl h h'
          | cons_cons _ h' => exact hc (h.subset (by simp))
      | cons_cons _ h =>
          cases h' with
          | cons _ h' => exact hc (h'.subset (by simp))
          | cons_cons _ h' => exact hc (h.subset List.mem_cons_self)

/-- The order in which severities are counted: by their names, and one of the four before another of
its name. -/
theorem pairwise_severitiesOf_name : (severitiesOf findings).Pairwise fun a b =>
    a.name ≤ b.name ∧ (a.name = b.name → b.isKnown = false) := by
  have hsorted := Text.pairwise_sorted Severity.name
    (Severity.all ++ findings.map Finding.severity).eraseDups
  refine List.pairwise_iff_forall_sublist.mpr fun {a b} hab =>
    ⟨List.pairwise_iff_forall_sublist.mp hsorted hab, fun hname => ?_⟩
  by_contra hb
  have hb : b.isKnown = true := by simpa using hb
  have ha : a.isKnown = false := by
    by_contra ha
    have hsame : a = b := eq_of_name_eq hname ((by simpa using ha : a.isKnown = true).trans hb.symm)
    exact List.pairwise_iff_forall_sublist.mp (nodup_severitiesOf findings) hab hsame
  -- The four are listed first, so `b` stands before `a`, and the sort leaves them so.
  have hlisted : a ∈ ((findings.map Finding.severity).removeAll Severity.all).eraseDups := by
    have hnot : a ∉ Severity.all := fun h => by simp [isKnown_iff.mpr h] at ha
    have hmem := (mem_severitiesOf_iff findings).mp (hab.subset List.mem_cons_self)
    simpa [List.removeAll, hnot] using hmem.resolve_left hnot
  have hba : [b, a].Sublist (Severity.all ++ findings.map Finding.severity).eraseDups := by
    rw [List.eraseDups_append]
    exact (List.singleton_sublist.mpr (isKnown_iff.mp hb)).append
      (List.singleton_sublist.mpr hlisted)
  refine not_sublist_swap (nodup_severitiesOf findings) hab (Text.sublist_sorted ?_ hba)
  exact List.pairwise_pair.mpr (hname ▸ String.le_refl _)

theorem severitiesOf_perm {findings findings' : List Finding} (h : findings'.Perm findings) :
    severitiesOf findings' = severitiesOf findings := by
  have hperm : (severitiesOf findings').Perm (severitiesOf findings) := by
    refine (List.perm_ext_iff_of_nodup (nodup_severitiesOf _) (nodup_severitiesOf _)).mpr ?_
    intro severity
    simp only [mem_severitiesOf_iff, h.mem_iff]
  refine hperm.eq_of_pairwise (fun a b _ _ hab hba => ?_) (pairwise_severitiesOf_name _)
    (pairwise_severitiesOf_name _)
  have hname := String.le_antisymm hab.1 hba.1
  exact eq_of_name_eq hname ((hba.2 hname.symm).trans (hab.2 hname).symm)

end Severities

/-! ## The summary -/

section Summary

variable {findings findings' : List Finding}

theorem length_eraseDups {α : Type} [DecidableEq α] (l : List α) :
    l.eraseDups.length = l.toFinset.card := by
  rw [← List.toFinset_card_of_nodup (eraseDups_spec l).1]
  congr 1
  ext a
  simp only [List.mem_toFinset, List.mem_eraseDups]

theorem sum_countsOf (findings : List Finding) :
    ((countsOf findings).map Prod.snd).sum = findings.length := by
  have hall := sum_countOf_of_nodup (nodup_severitiesOf findings) fun f hf =>
    (mem_severitiesOf_iff findings).mpr (.inr ⟨f, hf, rfl⟩)
  rw [countsOf, List.map_map, ← hall, Nat.cast_list_sum, List.map_map]
  rfl

theorem countsOf_perm (h : findings'.Perm findings) : countsOf findings' = countsOf findings := by
  have hcount : countOf findings' = countOf findings := funext fun _ => h.countP_eq _
  rw [countsOf, severitiesOf_perm h, hcount, ← countsOf]

theorem sort_perm (h : findings'.Perm findings) (hplaces : (findings.map Finding.key).Nodup) :
    Finding.sort findings' = Finding.sort findings := by
  have hperm := ((Finding.perm_sort findings').trans h).trans (Finding.perm_sort findings).symm
  refine hperm.eq_of_pairwise (fun f g hf hg hfg hgf => ?_) (Finding.pairwise_sort _)
    (Finding.pairwise_sort _)
  have hf := (Finding.perm_sort _).mem_iff.mp (hperm.mem_iff.mp hf)
  have hg := (Finding.perm_sort _).mem_iff.mp hg
  exact List.inj_on_of_nodup_map hplaces hf hg (Finding.key_eq_of_notAfter hfg hgf)

end Summary

/-! ## Reports -/

section Build

variable {findings findings' : List Finding} {profile : String} {microseconds : Int} {o : Options}

theorem status_build : (build findings profile microseconds o).status =
    verdict o.accepted findings := rfl

theorem summary_build_perm (h : findings'.Perm findings) :
    (build findings' profile microseconds o).summary =
      (build findings profile microseconds o).summary := by
  have hfiles : (findings'.map Finding.file).eraseDups.length =
      (findings.map Finding.file).eraseDups.length := by
    rw [length_eraseDups, length_eraseDups, List.toFinset_eq_of_perm _ _ (h.map Finding.file)]
  simp only [build, countsOf_perm h, hfiles, h.length_eq]

end Build

/-- What a report says of the findings that it was built from. -/
structure SumsUp (findings : List Finding) (r : Report) : Prop where
  /-- The verdict is one of the three words. -/
  status : r.status ∈ [Status.pass, .warning, .fail]
  /-- Every count is the number of the findings with the severity. -/
  count : ∀ severity,
    r.summary.count severity = (findings.filter fun f => f.severity = severity).length
  /-- The counts are listed, each severity once, and add up to the number of findings. -/
  counts : ∃ counts, r.summary.bySeverity = some counts ∧ (counts.map Prod.fst).Nodup ∧
    (counts.map Prod.snd).sum = r.summary.total
  total : r.summary.total = findings.length
  files : r.summary.files = (findings.map Finding.file).toFinset.card
  /-- The findings are those that were given, in order. -/
  findings : ∃ sorted, r.findings = some sorted ∧ sorted.Perm findings ∧
    sorted.Pairwise fun f g => f.compare g ≠ .gt

/-- **A report is told by what its findings are, not by their order, and more findings or lower
thresholds never make it look better.** -/
theorem build_sums_up (findings : List Finding) (profile : String) (microseconds : Int)
    (o : Options) :
    SumsUp findings (build findings profile microseconds o) ∧
      (∀ findings' : List Finding, findings'.Perm findings →
        (build findings' profile microseconds o).status =
            (build findings profile microseconds o).status ∧
          (build findings' profile microseconds o).summary =
            (build findings profile microseconds o).summary ∧
          ((findings.map Finding.key).Nodup →
            (build findings' profile microseconds o).findings =
              (build findings profile microseconds o).findings)) ∧
      (∀ findings' : List Finding, findings.Subperm findings' →
        (build findings profile microseconds o).status.rank ≤
          (build findings' profile microseconds o).status.rank) ∧
      ∀ o' : Options, o.accepted.AtMost o'.accepted →
        (build findings profile microseconds o').status.rank ≤
          (build findings profile microseconds o).status.rank := by
  refine ⟨?sums, fun findings' h => ⟨?status, summary_build_perm h, fun hplaces => ?list⟩,
    fun findings' h => ?more, fun o' h => ?higher⟩
  case sums =>
    refine ⟨verdict_mem _ _, fun severity => ?_, ⟨_, rfl, ?_, sum_countsOf findings⟩, rfl, ?_,
      _, rfl, Finding.perm_sort findings, ?_⟩
    · rw [count_build, countOf, List.countP_eq_length_filter]
    · have hnames : (countsOf findings).map Prod.fst = severitiesOf findings := by
        rw [countsOf, List.map_map]
        exact List.map_id _
      rw [hnames]
      exact nodup_severitiesOf findings
    · exact congrArg Int.ofNat (length_eraseDups _)
    · exact (Finding.pairwise_sort findings).imp of_decide_eq_true
  case status => rw [status_build, status_build, verdict_perm h]
  case list => exact congrArg some (sort_perm h hplaces)
  case more => exact rank_verdict_mono h fun _ => Int.le_refl _
  case higher => exact rank_verdict_mono (List.Subperm.refl findings) h

/-- Two findings that would be accepted by default, one of them with a severity that is none of the
four, and a third that would not be. -/
theorem build_sums_up_sample :
    let low : Finding := { rule := "r", file := "f", severity := .low, line := 2 }
    let odd : Finding := { rule := "r", file := "e", severity := .other "odd", line := 1 }
    let high : Finding := { rule := "q", file := "f", severity := .high, line := 1 }
    (build [low, odd] "p" 0).summary.files = 2 ∧
      (build [low, odd] "p" 0).summary = (build [odd, low] "p" 0).summary ∧
      (build [low, odd] "p" 0).findings = (build [odd, low] "p" 0).findings ∧
      (build [odd, low] "p" 0).status.rank ≤ (build [low, high, odd] "p" 0).status.rank ∧
      (build [odd, low] "p" 0 { thresholds := some .default }).status.rank ≤
        (build [odd, low] "p" 0).status.rank := by
  intro low odd high
  obtain ⟨hsums, hperm, hmore, hhigher⟩ := build_sums_up [odd, low] "p" 0 {}
  obtain ⟨-, hsummary, hfindings⟩ := hperm [low, odd] (.swap odd low [])
  refine ⟨?_, hsummary, hfindings (by decide), hmore [low, high, odd] ?_, hhigher _ ?_⟩
  · rw [hsummary, hsums.files]
    decide
  · exact ⟨[low, odd], .swap odd low [], .cons_cons low (.cons high (.refl [odd]))⟩
  · intro severity
    cases severity with
    | other name => exact Int.le_refl 0
    | _ => decide

end Report

end RuleScan
