import Mathlib.Data.Finset.Card
import Mathlib.Data.Finset.Dedup
import RuleScan.Proofs.Finding.Distinct
import RuleScan.Engine.Evaluate

/-!
# Tallies of patterns by file

`Engine.allFindings` goes through the matches of all patterns at once and keeps those in a file
where every pattern occurs.  The same can be done file by file: the matches come in one after the
other, every file has a tally of the patterns seen in it and of the matches in it, and the tallies
are gone through at the end — in ANY order, for they are kept in a table that has none.

`firstAt_tallyFindings` says what that gives: for each place the first match there in the order of
the patterns, if the tally of the file is full.  The order of the files is gone from it.
-/

namespace RuleScan.Engine

/-! ## The table -/

/-- The patterns seen in a file, by number, and the matches in it as they came. -/
structure Tally where
  patterns : Finset Nat := ∅
  found : List Match := []

/-- The tally with one more match. -/
def Tally.add (t : Tally) (pattern : Nat) (x : Match) : Tally :=
  ⟨insert pattern t.patterns, t.found ++ [x]⟩

/-- A table of tallies by file. -/
abbrev Tallies := String → Option Tally

/-- Enters a match of a pattern, into a new tally if the file has none. -/
def Tallies.add (ts : Tallies) (p : Nat × Match) : Tallies := fun file =>
  if file = p.2.file then some (((ts file).getD {}).add p.1 p.2) else ts file

/-- The matches of patterns with the numbers of their patterns. -/
def numbered (groups : List (List Match)) : List (Nat × Match) :=
  groups.zipIdx.flatMap fun (ms, i) => ms.map fun x => (i, x)

/-- The table after all matches. -/
def tallies (groups : List (List Match)) : Tallies :=
  (numbered groups).foldl Tallies.add fun _ => none

/-- A list goes through the files of a table, each once. -/
def Enumerates (order : List String) (ts : Tallies) : Prop :=
  order.Nodup ∧ ∀ file, file ∈ order ↔ (ts file).isSome = true

/-- The findings of a tally, if all patterns are in it. -/
def Tally.findings (r : Rule) (count : Nat) (t : Tally) : List Finding :=
  if t.patterns.card = count then t.found.map (Finding.ofMatch r (allConfidence r)) else []

/-- The findings in a file. -/
def fileFindings (r : Rule) (groups : List (List Match)) (file : String) : List Finding :=
  match tallies groups file with
  | some t => t.findings r groups.length
  | none => []

/-- The findings of all tallies, with the files in some order. -/
def tallyFindings (r : Rule) (groups : List (List Match)) (order : List String) : List Finding :=
  if groups.isEmpty then [] else order.flatMap (fileFindings r groups)

/-! ## What a tally holds -/

/-- The matches in a file, with the numbers of their patterns. -/
def numberedIn (file : String) (ps : List (Nat × Match)) : List (Nat × Match) :=
  ps.filter fun p => p.2.file = file

theorem foldl_tallies (ps : List (Nat × Match)) (file : String) :
    (ps.foldl Tallies.add fun _ => none) file =
      if numberedIn file ps = [] then none
      else some ⟨((numberedIn file ps).map Prod.fst).toFinset,
        (numberedIn file ps).map Prod.snd⟩ := by
  -- The table is filled from the front, so the last match is taken off at the end.
  induction ps using List.reverseRecOn with
  | nil => rfl
  | append_singleton ps p ih =>
      rw [List.foldl_append, List.foldl_cons, List.foldl_nil, Tallies.add, ih]
      by_cases hp : p.2.file = file
      · have hfile : numberedIn file (ps ++ [p]) = numberedIn file ps ++ [p] := by
          simp [numberedIn, hp]
        have hne : numberedIn file ps ++ [p] ≠ [] := by simp
        rw [hfile, if_pos hp.symm, if_neg hne]
        by_cases hps : numberedIn file ps = []
        · simp [hps, Tally.add]
        · simp only [hps, if_false, Option.getD_some, Tally.add, List.map_append, List.map_cons,
            List.map_nil, List.toFinset_append, List.toFinset_cons, List.toFinset_nil]
          rw [Finset.insert_eq, Finset.union_comm]
          rfl
      · have hfile : numberedIn file (ps ++ [p]) = numberedIn file ps := by
          simp [numberedIn, hp]
        rw [hfile, if_neg (Ne.symm hp)]

theorem mem_numbered {groups : List (List Match)} {i : Nat} {x : Match} :
    (i, x) ∈ numbered groups ↔ ∃ ms, groups[i]? = some ms ∧ x ∈ ms := by
  simp only [numbered, List.mem_flatMap, List.mem_map, Prod.exists, Prod.mk.injEq,
    List.mem_zipIdx_iff_getElem?]
  constructor
  · rintro ⟨ms, j, hms, y, hy, rfl, rfl⟩
    exact ⟨ms, hms, hy⟩
  · rintro ⟨ms, hms, hx⟩
    exact ⟨ms, i, hms, x, hx, rfl, rfl⟩

theorem map_snd_numbered (groups : List (List Match)) :
    (numbered groups).map Prod.snd = groups.flatten := by
  have hfst : groups.zipIdx.map Prod.fst = groups := List.zipIdx_map_fst 0 groups
  simp only [numbered, List.map_flatMap, List.map_map, Function.comp_def, List.map_id']
  conv => rhs; rw [← hfst]
  rw [List.flatMap_def]

/-- The files of a table can be gone through. -/
theorem exists_enumerates (groups : List (List Match)) :
    ∃ order, Enumerates order (tallies groups) := by
  refine ⟨((numbered groups).map fun p => p.2.file).dedup, List.nodup_dedup _, ?_⟩
  intro file
  have hfile : numberedIn file (numbered groups) ≠ [] ↔
      ∃ p ∈ numbered groups, p.2.file = file := by
    simp [numberedIn, List.filter_eq_nil_iff]
  rw [List.mem_dedup, List.mem_map, tallies, foldl_tallies, ← hfile]
  by_cases hnone : numberedIn file (numbered groups) = [] <;> simp [hnone]

/-! ## When a tally is full -/

/-- A tally is full when every pattern occurs in the file. -/
theorem card_patterns_eq_iff (groups : List (List Match)) (file : String) :
    ((numberedIn file (numbered groups)).map Prod.fst).toFinset.card = groups.length ↔
      occursAll groups file = true := by
  have hmem : ∀ i, i ∈ ((numberedIn file (numbered groups)).map Prod.fst).toFinset ↔
      ∃ ms, groups[i]? = some ms ∧ ∃ x ∈ ms, x.file = file := by
    intro i
    simp only [numberedIn, List.mem_toFinset, List.mem_map, List.mem_filter, decide_eq_true_eq,
      Prod.exists, exists_and_right, exists_eq_right, mem_numbered]
    constructor
    · rintro ⟨x, ⟨ms, hms, hx⟩, hfile⟩
      exact ⟨ms, hms, x, hx, hfile⟩
    · rintro ⟨ms, hms, x, hx, hfile⟩
      exact ⟨x, ⟨ms, hms, hx⟩, hfile⟩
  have hsub : ((numberedIn file (numbered groups)).map Prod.fst).toFinset ⊆
      Finset.range groups.length := by
    intro i hi
    obtain ⟨ms, hms, -⟩ := (hmem i).mp hi
    exact Finset.mem_range.mpr (List.getElem?_eq_some_iff.mp hms).1
  have hocc : occursAll groups file = true ↔ ∀ ms ∈ groups, ∃ x ∈ ms, x.file = file := by
    simp [occursAll]
  rw [hocc]
  constructor
  · intro hcard ms hms
    have heq := Finset.eq_of_subset_of_card_le hsub (by rw [hcard, Finset.card_range])
    obtain ⟨i, hi, rfl⟩ := List.mem_iff_getElem.mp hms
    have hin : i ∈ Finset.range groups.length := Finset.mem_range.mpr hi
    rw [← heq, hmem] at hin
    obtain ⟨ms, hms, hx⟩ := hin
    rw [List.getElem?_eq_getElem hi] at hms
    exact Option.some.inj hms ▸ hx
  · intro hall
    have heq : ((numberedIn file (numbered groups)).map Prod.fst).toFinset =
        Finset.range groups.length := by
      refine Finset.Subset.antisymm hsub fun i hi => ?_
      have hlt := Finset.mem_range.mp hi
      exact (hmem i).mpr ⟨groups[i], List.getElem?_eq_getElem hlt, hall _ (List.getElem_mem hlt)⟩
    rw [heq, Finset.card_range]

/-! ## First findings -/

/-- The first finding of a place among the patterns that all have to occur. -/
def firstOfAll (r : Rule) (groups : List (List Match)) (k : Finding.Place) : Option Finding :=
  if groups.isEmpty = false ∧ occursAll groups k.2.1 = true then
    Finding.firstAt k (groups.flatten.map (Finding.ofMatch r (allConfidence r)))
  else none

/-- It depends on whether the groups occur in the file, and on their first findings. -/
theorem firstOfAll_congr {α : Type} {r : Rule} {k : Finding.Place} {l : List α}
    {g g' : α → List Match}
    (hoccurs : ∀ a ∈ l, (∃ x ∈ g a, x.file = k.2.1) ↔ ∃ x ∈ g' a, x.file = k.2.1)
    (hfirst : ∀ a ∈ l,
      Finding.firstAt k ((g a).map (Finding.ofMatch r (allConfidence r))) =
        Finding.firstAt k ((g' a).map (Finding.ofMatch r (allConfidence r)))) :
    firstOfAll r (l.map g) k = firstOfAll r (l.map g') k := by
  have hall : occursAll (l.map g) k.2.1 = occursAll (l.map g') k.2.1 := by
    rw [occursAll, occursAll, List.all_map, List.all_map, Bool.eq_iff_iff, List.all_eq_true,
      List.all_eq_true]
    refine forall₂_congr fun a ha => ?_
    simpa only [Function.comp_apply, List.any_eq_true, decide_eq_true_eq] using hoccurs a ha
  have hflat : Finding.firstAt k ((l.map g).flatten.map (Finding.ofMatch r (allConfidence r))) =
      Finding.firstAt k ((l.map g').flatten.map (Finding.ofMatch r (allConfidence r))) := by
    rw [← List.flatMap_def, ← List.flatMap_def, List.map_flatMap, List.map_flatMap]
    exact Finding.firstAt_flatMap_congr hfirst
  have hempty : (l.map g).isEmpty = (l.map g').isEmpty := by
    simp
  rw [firstOfAll, firstOfAll, hall, hflat, hempty]

/-- Keeping matches by their files keeps the first findings in those files. -/
theorem firstAt_map_filter_file (r : Rule) (confidence : Confidence) (p : String → Bool)
    (ms : List Match) (k : Finding.Place) :
    Finding.firstAt k ((ms.filter fun x => p x.file).map (Finding.ofMatch r confidence)) =
      if p k.2.1 then Finding.firstAt k (ms.map (Finding.ofMatch r confidence)) else none := by
  rw [← Finding.firstAt_filter fun place => p place.2.1, List.filter_map]
  rfl

theorem firstAt_allFindings (marker : String) (s : Searched) (k : Finding.Place) :
    Finding.firstAt k (allFindings marker s) =
      firstOfAll s.rule.rule (allMatches marker s) k := by
  rw [allFindings, firstOfAll]
  by_cases hempty : (allMatches marker s).isEmpty = true
  · simp [hempty]
  · rw [if_neg hempty, firstAt_map_filter_file]
    simp [hempty]

/-- A file without matches has none of the patterns. -/
theorem occursAll_of_numberedIn {groups : List (List Match)} {file : String}
    (hgroups : groups.isEmpty = false) (h : numberedIn file (numbered groups) = []) :
    occursAll groups file = false := by
  rw [Bool.eq_false_iff]
  intro hocc
  have hcard := (card_patterns_eq_iff groups file).mpr hocc
  rw [h] at hcard
  have hlength : groups.length = 0 := by simpa using hcard.symm
  simp [List.length_eq_zero_iff.mp hlength] at hgroups

/-- A file where every pattern occurs gives all its matches, pattern by pattern. -/
theorem fileFindings_eq (r : Rule) {groups : List (List Match)}
    (hgroups : groups.isEmpty = false) (file : String) :
    fileFindings r groups file = if occursAll groups file = true then
      (groups.flatten.filter fun x => x.file = file).map (Finding.ofMatch r (allConfidence r))
      else [] := by
  rw [fileFindings, tallies, foldl_tallies]
  by_cases hnone : numberedIn file (numbered groups) = []
  · simp [hnone, occursAll_of_numberedIn hgroups hnone]
  · have hfound : (numberedIn file (numbered groups)).map Prod.snd =
        groups.flatten.filter fun x => x.file = file := by
      rw [← map_snd_numbered, List.filter_map]
      rfl
    simp only [hnone, if_false, Tally.findings, card_patterns_eq_iff, hfound]

theorem file_of_mem_fileFindings {r : Rule} {groups : List (List Match)}
    (hgroups : groups.isEmpty = false) {file : String} {x : Finding}
    (hx : x ∈ fileFindings r groups file) : x.file = file := by
  rw [fileFindings_eq r hgroups] at hx
  split at hx
  · obtain ⟨y, hy, rfl⟩ := List.mem_map.mp hx
    simpa [Finding.ofMatch] using (List.mem_filter.mp hy).2
  · cases hx

/-- Whatever the order of the files, the first findings are the same. -/
theorem firstAt_tallyFindings (r : Rule) {groups : List (List Match)} {order : List String}
    (horder : Enumerates order (tallies groups)) (k : Finding.Place) :
    Finding.firstAt k (tallyFindings r groups order) = firstOfAll r groups k := by
  rw [tallyFindings, firstOfAll]
  by_cases hempty : groups.isEmpty = true
  · simp [hempty]
  have hgroups : groups.isEmpty = false := by simpa using hempty
  rw [if_neg hempty, Finding.firstAt_flatMap_own (fun place => place.2.1)
    fun file _ x hx => file_of_mem_fileFindings hgroups hx]
  simp only [horder.2, tallies, foldl_tallies, fileFindings_eq r hgroups, hgroups, true_and]
  by_cases hnone : numberedIn k.2.1 (numbered groups) = []
  · simp [hnone, occursAll_of_numberedIn hgroups hnone]
  · simp only [hnone, if_false, Option.isSome_some, if_true]
    split
    · rw [firstAt_map_filter_file r _ fun file => decide (file = k.2.1)]
      simp
    · rfl

end RuleScan.Engine
