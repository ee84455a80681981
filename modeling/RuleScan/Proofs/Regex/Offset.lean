import RuleScan.Proofs.Text.Utf8
import RuleScan.Rule.Pattern

/-!
# Where a match can begin

A search gives the byte offset where a match begins.  Nothing is said here about WHICH offset: only
that it is one of the text, its end included (`find?_le`).  The invariant is that no thread began
later than the position that is looked at; it holds of a sweep because a sweep makes no new starts.
-/

namespace RuleScan.Regex

open RuleScan.Text

/-- No thread of a sweep began after an offset, and what was found did not either. -/
structure Sweep.Within (n : Nat) (w : Sweep) : Prop where
  threads : ∀ t ∈ w.threads, t.start ≤ n
  found : ∀ s, w.found = some s → s ≤ n

theorem follow_within (code : Array Inst) (before after : Option Nat) (mark : Nat) {start n : Nat}
    (hstart : start ≤ n) (fuel : Nat) (stack : List Nat) (w : Sweep) (h : w.Within n) :
    (follow code before after mark start fuel stack w).Within n := by
  fun_induction follow code before after mark start fuel stack w with
  | case1 stack w => exact h
  | case2 fuel w => exact h
  | case3 fuel place stack w hseen ih => exact ih h
  | case4 fuel place stack w hseen w' tester next hinst ih =>
      refine ih ⟨?_, h.found⟩
      intro t ht
      rcases List.mem_cons.mp ht with rfl | ht
      · exact hstart
      · exact h.threads t ht
  | case5 fuel place stack w hseen w' anchor next hinst ih => exact ih ⟨h.threads, h.found⟩
  | case6 fuel place stack w hseen w' first second hinst ih => exact ih ⟨h.threads, h.found⟩
  | case7 fuel place stack w hseen w' hinst ih =>
      refine ih ⟨h.threads, ?_⟩
      intro s hs
      cases hfound : w.found with
      | some s' => exact h.found s (by simpa [w', hfound] using hs)
      | none =>
          obtain rfl : start = s := by simpa [w', hfound] using hs
          exact hstart

theorem followAll_within (code : Array Inst) (before after : Option Nat) (mark : Nat) {n : Nat}
    (threads : List Thread) (w : Sweep) (hthreads : ∀ t ∈ threads, t.start ≤ n) (h : w.Within n) :
    (followAll code before after mark threads w).Within n := by
  fun_induction followAll code before after mark threads w with
  | case1 w => exact h
  | case2 t rest w hfound => exact h
  | case3 t rest w hfound ih =>
      obtain ⟨ht, hrest⟩ := List.forall_mem_cons.mp hthreads
      exact ih hrest (follow_within code before after mark ht _ _ w h)

/-- One position keeps the starts. -/
theorem position_within (p : Program) (before after : Option Nat) (mark offset : Nat)
    {threads : List Thread} {best : Option Nat} (seen : Array Nat)
    (hthreads : ∀ t ∈ threads, t.start ≤ offset) (hbest : ∀ s, best = some s → s ≤ offset) :
    (∀ t ∈ (position p before after mark offset threads best seen).1, t.start ≤ offset) ∧
      ∀ s, (position p before after mark offset threads best seen).2.1 = some s → s ≤ offset := by
  have hfresh : ∀ t ∈ threads ++ (if best.isNone then [⟨p.start, offset⟩] else []),
      t.start ≤ offset := by
    intro t ht
    rcases List.mem_append.mp ht with ht | ht
    · exact hthreads t ht
    · split at ht
      · obtain rfl := List.mem_singleton.mp ht
        exact Nat.le_refl offset
      · cases ht
  have hsweep := followAll_within p.insts before after mark _ { seen } hfresh ⟨by simp, by simp⟩
  rw [position]
  generalize followAll p.insts before after mark
    (threads ++ (if best.isNone then [⟨p.start, offset⟩] else [])) { seen } = w at hsweep ⊢
  refine ⟨?_, ?_⟩
  · intro t ht
    have ht := List.mem_reverse.mp ht
    refine hsweep.threads t ?_
    split at ht
    · exact (List.mem_filter.mp ht).1
    · exact ht
  · intro s hs
    cases hfound : w.found with
    | some s' => exact hsweep.found s (by simpa [hfound] using hs)
    | none => exact hbest s (by simpa [hfound] using hs)

theorem advance_within (code : Array Inst) (c : Nat) {threads : List Thread} {n : Nat}
    (h : ∀ t ∈ threads, t.start ≤ n) : ∀ t ∈ advance code c threads, t.start ≤ n := by
  intro t ht
  obtain ⟨u, hu, hadvance⟩ := List.mem_filterMap.mp ht
  have hstart : t.start = u.start := by
    split at hadvance
    · split at hadvance
      · rw [← Option.some.inj hadvance]
      · cases hadvance
    · cases hadvance
  rw [hstart]
  exact h u hu

/-- A run ends with a start that is no later than the end of the text. -/
theorem run_le (p : Program) (text : List Rune) (before : Option Nat) (mark offset : Nat)
    (threads : List Thread) (best : Option Nat) (seen : Array Nat)
    (hthreads : ∀ t ∈ threads, t.start ≤ offset) (hbest : ∀ s, best = some s → s ≤ offset)
    {s : Nat} (h : run p text before mark offset threads best seen = some s) :
    s ≤ offset + total (text.map Rune.width) := by
  induction text generalizing before mark offset threads best seen with
  | nil => exact (position_within p before none mark offset seen hthreads hbest).2 s h
  | cons r rest ih =>
      obtain ⟨hthreads', hbest'⟩ :=
        position_within p before (some r.code) mark offset seen hthreads hbest
      have htotal : total ((r :: rest).map Rune.width) =
          r.width + total (rest.map Rune.width) := rfl
      simp only [run] at h
      rw [htotal]
      split at h
      · exact Nat.le_trans (hbest' s h) (Nat.le_add_right _ _)
      · -- Starts that are not after this position are not after the next one.
        have hle := ih _ _ (offset + r.width) _ _ _
          (advance_within _ _ fun t ht => Nat.le_trans (hthreads' t ht) (Nat.le_add_right _ _))
          (fun s hs => Nat.le_trans (hbest' s hs) (Nat.le_add_right _ _)) h
        omega

theorem search?_le {p : Program} {text : List Rune} {s : Nat} (h : search? p text = some s) :
    s ≤ total (text.map Rune.width) := by
  have hle := run_le p text none 1 0 [] none _ (by simp) (by simp) h
  omega

end RuleScan.Regex

namespace RuleScan

open RuleScan.Text

theorem Text.indexOf?_go_le (needle hay : Bytes) (i : Nat) {n : Nat}
    (h : indexOf?.go needle hay i = some n) : n ≤ i + hay.length := by
  fun_induction indexOf?.go needle hay i with
  | case1 i hempty =>
      obtain rfl : i = n := Option.some.inj h
      exact Nat.le_refl _
  | case2 i hempty => cases h
  | case3 b rest i hfront =>
      obtain rfl : i = n := Option.some.inj h
      exact Nat.le_add_right _ _
  | case4 b rest i hfront ih =>
      have hle := ih h
      rw [List.length_cons]
      omega

/-- A column is one of the line, or the one after its end. -/
theorem Matcher.find?_le {m : Matcher} {line : Bytes} {column : Nat}
    (h : m.find? line = some column) : column ≤ line.length + 1 := by
  rw [Matcher.find?] at h
  split at h
  · obtain ⟨n, hn, rfl⟩ := Option.map_eq_some_iff.mp h
    have hle := Regex.search?_le hn
    rw [total_decode] at hle
    omega
  · obtain ⟨n, hn, rfl⟩ := Option.map_eq_some_iff.mp h
    have hle := indexOf?_go_le _ _ _ hn
    omega

end RuleScan
