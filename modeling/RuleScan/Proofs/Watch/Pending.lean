import Mathlib.Data.List.Induction
import Mathlib.Data.List.Sort
import Mathlib.Data.String.Basic
import RuleScan.Watch.Basic

/-!
# Changes that wait to be told

A watcher is a machine that takes one input after the other: an event, the timer, or trouble with
the source of events.  Each input comes with the files as they are at that moment, which are not
the watcher's doing and may be any.

## What is proved

`tells_outstanding`, for a watcher that has just begun to listen, after ANY inputs.  A change is
OUTSTANDING (`Watcher.Outstanding`) if an event has told of it and nothing has been told since.

  * The timer is wound up exactly if some change waits.
  * An outstanding change keeps the timer wound up, and is told when the timer goes off.
  * What is told is not empty and strictly increasing, and consists of the outstanding changes: none
    is lost, none is told twice, and none is made up.

## Why

`Outstanding` is about the inputs, and says nothing of the pending changes that a watcher keeps.
That the two are the same (`mem_pending_after`) is what one step preserves: an event adds to both,
and telling clears both.
-/

namespace RuleScan.Watcher

/-! ## Runs -/

/-- The watcher after some inputs, each with the files as they are then. -/
def after (w : Watcher) (inputs : List (Disk × Input)) : Watcher :=
  inputs.foldl (fun w i => (w.step i.1 i.2).1) w

/-- What is told at an input. -/
def tells (w : Watcher) (i : Disk × Input) : Option (List String) := (w.step i.1 i.2).2

/-- Through some inputs nothing is told. -/
def Silent (w : Watcher) : List (Disk × Input) → Prop
  | [] => True
  | i :: rest => w.tells i = none ∧ Silent (w.step i.1 i.2).1 rest

/-- The path that has changed, seen from the root, if the event is one to tell of. -/
def change? (w : Watcher) (e : Event) : Option String :=
  if w.heeds e then Path.relative? w.root e.path else none

/-- Some event has told of a change at a path, and since then nothing has been told. -/
def Outstanding (w : Watcher) (inputs : List (Disk × Input)) (path : String) : Prop :=
  ∃ before d e since, inputs = before ++ (d, .event e) :: since ∧ w.change? e = some path ∧
    Silent (w.after (before ++ [(d, .event e)])) since

variable {w : Watcher}

theorem after_concat (w : Watcher) (inputs : List (Disk × Input)) (i : Disk × Input) :
    w.after (inputs ++ [i]) = ((w.after inputs).step i.1 i.2).1 := by
  simp [after]

theorem after_append (w : Watcher) (a b : List (Disk × Input)) :
    w.after (a ++ b) = (w.after a).after b := by
  simp [after]

theorem silent_concat (w : Watcher) (inputs : List (Disk × Input)) (i : Disk × Input) :
    w.Silent (inputs ++ [i]) ↔ w.Silent inputs ∧ (w.after inputs).tells i = none := by
  induction inputs generalizing w with
  | nil => simp [Silent, after]
  | cons first rest ih =>
      rw [List.cons_append, Silent, Silent, ih, and_assoc]
      rfl

/-! ## One step -/

theorem root_step (w : Watcher) (d : Disk) (i : Input) : (w.step d i).1.root = w.root := by
  cases i with
  | event e =>
      simp only [step, receive]
      split
      · rfl
      · split <;> rfl
  | timer =>
      simp only [step]
      split <;> rfl
  | fault => rfl

theorem root_after (w : Watcher) (inputs : List (Disk × Input)) :
    (w.after inputs).root = w.root := by
  induction inputs using List.reverseRecOn with
  | nil => rfl
  | append_singleton inputs i ih => rw [after_concat, root_step, ih]

/-- Which events are told of depends on the root alone. -/
theorem change?_after (w : Watcher) (inputs : List (Disk × Input)) (e : Event) :
    (w.after inputs).change? e = w.change? e := by
  simp only [change?, heeds, ignores, root_after]
  rfl

/-- What is heeded lies below the root. -/
theorem exists_relative {e : Event} (h : w.heeds e = true) :
    ∃ path, Path.relative? w.root e.path = some path := by
  cases hpath : Path.relative? w.root e.path with
  | none => simp [heeds, ignores, hpath] at h
  | some path => exact ⟨path, rfl⟩

theorem receive_of_change? {e : Event} {path : String} (h : w.change? e = some path) (d : Disk) :
    (w.receive d e).pending = addNew w.pending [path] ∧ (w.receive d e).armed = true := by
  rw [change?] at h
  split at h
  · next hheeds => simp [receive, hheeds, h]
  · cases h

theorem receive_of_change?_eq_none {e : Event} (h : w.change? e = none) (d : Disk) :
    w.receive d e = w := by
  by_cases hheeds : w.heeds e = true
  · obtain ⟨path, hpath⟩ := exists_relative hheeds
    rw [change?, if_pos hheeds, hpath] at h
    cases h
  · simp [receive, hheeds]

theorem mem_addNew {known new : List String} {path : String} :
    path ∈ addNew known new ↔ path ∈ known ∨ path ∈ new := by
  by_cases h : path ∈ known <;> simp [addNew, h]

theorem nodup_addNew {known : List String} (h : known.Nodup) (path : String) :
    (addNew known [path]).Nodup := by
  by_cases hmem : path ∈ known
  · simpa [addNew, hmem] using h
  · simpa [addNew, hmem, List.nodup_append] using
      ⟨h, fun other hother heq => hmem (heq ▸ hother)⟩

/-- What a watcher keeps in order: the pending changes come once each, and the timer is wound up
exactly if there are any. -/
structure InOrder (w : Watcher) : Prop where
  nodup : w.pending.Nodup
  armed_iff : w.armed = true ↔ w.pending ≠ []

theorem InOrder.step (h : w.InOrder) (d : Disk) (i : Input) : (w.step d i).1.InOrder := by
  cases i with
  | event e =>
      show (w.receive d e).InOrder
      cases hchange : w.change? e with
      | none => rwa [receive_of_change?_eq_none hchange]
      | some path =>
          obtain ⟨hpending, harmed⟩ := receive_of_change? hchange d
          have hmem : path ∈ addNew w.pending [path] := mem_addNew.mpr (.inr List.mem_cons_self)
          refine ⟨hpending ▸ nodup_addNew h.nodup path, ?_⟩
          simp [harmed, hpending, List.ne_nil_of_mem hmem]
  | timer =>
      simp only [Watcher.step]
      split
      · exact ⟨List.nodup_nil, by simp⟩
      · exact h
  | fault => exact h

/-- After a step the changes are pending that were, and the one that is heard of, unless they have
just been told. -/
theorem mem_pending_step (w : Watcher) (i : Disk × Input) (path : String) :
    path ∈ (w.step i.1 i.2).1.pending ↔ w.tells i = none ∧
      (path ∈ w.pending ∨ ∃ e, i.2 = .event e ∧ w.change? e = some path) := by
  obtain ⟨d, i⟩ := i
  cases i with
  | event e =>
      show path ∈ (w.receive d e).pending ↔ _
      cases hchange : w.change? e with
      | none => simp [receive_of_change?_eq_none hchange, tells, Watcher.step, hchange]
      | some changed =>
          rw [(receive_of_change? hchange d).1, mem_addNew]
          simp [tells, Watcher.step, hchange, eq_comm]
  | timer =>
      cases harmed : w.armed with
      | true => simp [Watcher.step, tells, harmed]
      | false => simp [Watcher.step, tells, harmed]
  | fault => simp [Watcher.step, tells]

/-- What is told are the pending changes in order. -/
theorem tells_eq_some {i : Disk × Input} {told : List String} (h : w.tells i = some told) :
    w.armed = true ∧ told = w.pending.mergeSort (· ≤ ·) := by
  obtain ⟨d, i⟩ := i
  cases i with
  | event e => cases h
  | timer =>
      cases harmed : w.armed with
      | true => simpa [tells, Watcher.step, harmed, eq_comm] using h
      | false => simp [tells, Watcher.step, harmed] at h
  | fault => cases h

/-! ## A whole run -/

/-- A change stays outstanding until something is told. -/
theorem outstanding_concat (w : Watcher) (inputs : List (Disk × Input)) (i : Disk × Input)
    (path : String) :
    w.Outstanding (inputs ++ [i]) path ↔ (w.after inputs).tells i = none ∧
      (w.Outstanding inputs path ∨ ∃ e, i.2 = .event e ∧ w.change? e = some path) := by
  constructor
  · rintro ⟨before, d, e, since, hinputs, hchange, hsilent⟩
    rcases List.eq_nil_or_concat' since with rfl | ⟨since, last, rfl⟩
    · obtain ⟨rfl, hlast⟩ := List.append_inj' hinputs rfl
      obtain rfl : i = (d, .event e) := by simpa using hlast
      exact ⟨rfl, .inr ⟨e, rfl, hchange⟩⟩
    · rw [← List.cons_append, ← List.append_assoc] at hinputs
      obtain ⟨rfl, hlast⟩ := List.append_inj' hinputs rfl
      obtain rfl : i = last := by simpa using hlast
      rw [silent_concat, ← after_append, List.append_assoc, List.singleton_append] at hsilent
      exact ⟨hsilent.2, .inl ⟨before, d, e, since, rfl, hchange, hsilent.1⟩⟩
  · rintro ⟨htells, ⟨before, d, e, since, rfl, hchange, hsilent⟩ | ⟨e, hi, hchange⟩⟩
    · refine ⟨before, d, e, since ++ [i], by simp, hchange, ?_⟩
      rw [silent_concat, ← after_append, List.append_assoc, List.singleton_append]
      exact ⟨hsilent, htells⟩
    · obtain ⟨d, i⟩ := i
      obtain rfl : i = .event e := hi
      exact ⟨inputs, d, e, [], rfl, hchange, trivial⟩

theorem inOrder_after (h : w.InOrder) (inputs : List (Disk × Input)) :
    (w.after inputs).InOrder := by
  induction inputs using List.reverseRecOn with
  | nil => exact h
  | append_singleton inputs i ih =>
      rw [after_concat]
      exact ih.step i.1 i.2

/-- **The pending changes are the outstanding ones.** -/
theorem mem_pending_after (hpending : w.pending = []) (inputs : List (Disk × Input))
    (path : String) : path ∈ (w.after inputs).pending ↔ w.Outstanding inputs path := by
  induction inputs using List.reverseRecOn generalizing path with
  | nil =>
      show path ∈ w.pending ↔ _
      rw [hpending]
      refine ⟨nofun, ?_⟩
      rintro ⟨before, d, e, since, hnil, -, -⟩
      simp at hnil
  | append_singleton inputs i ih =>
      rw [after_concat, mem_pending_step, outstanding_concat, ih]
      simp only [change?_after]

/-- A list in order without repetitions is strictly increasing. -/
theorem pairwise_lt_mergeSort {l : List String} (h : l.Nodup) :
    (l.mergeSort (· ≤ ·)).Pairwise (· < ·) := by
  have hle : (l.mergeSort (· ≤ ·)).Pairwise (· ≤ ·) := List.pairwise_mergeSort' _ l
  have hne : (l.mergeSort (· ≤ ·)).Nodup := (List.mergeSort_perm l _).nodup_iff.mpr h
  exact (hle.and hne).imp fun hab => lt_of_le_of_ne hab.1 hab.2

/-- **Changes are told once, all of them and no others.**  A watcher of any root and directories
begins to listen; this is how it stands after any inputs, with any files.  The timer is wound up
exactly if a change is pending.  An event that is not about attributes and is not ignored has
a path below the root, and is outstanding as long as nothing is told.  A change that is outstanding
keeps the timer wound up, and is told when it goes off.  Whatever is told is a strictly increasing
list, not empty, of exactly the outstanding changes. -/
theorem tells_outstanding (root : String) (directories : List String)
    (inputs : List (Disk × Input)) :
    let w : Watcher := { root, directories }
    ((w.after inputs).pending ≠ [] ↔ (w.after inputs).armed = true) ∧
    (∀ e : Event, e.has .touched = false → w.ignores e.path = false →
      ∃ path, Path.relative? root e.path = some path ∧ ∀ d since,
        (w.after (inputs ++ [(d, .event e)])).Silent since →
          w.Outstanding (inputs ++ (d, .event e) :: since) path) ∧
    (∀ path, w.Outstanding inputs path → (w.after inputs).armed = true ∧
      ∀ d, ∃ told, (w.after inputs).tells (d, .timer) = some told ∧ path ∈ told) ∧
    ∀ i told, (w.after inputs).tells i = some told →
      told ≠ [] ∧ told.Pairwise (· < ·) ∧ ∀ path, path ∈ told ↔ w.Outstanding inputs path := by
  intro w
  have hstart : w.InOrder := ⟨List.nodup_nil, by simp [w]⟩
  have horder := inOrder_after hstart inputs
  have hmem := mem_pending_after rfl inputs (w := w)
  refine ⟨horder.armed_iff.symm, ?_, ?_, ?_⟩
  · intro e htouched hignores
    have hheeds : w.heeds e = true := by simp [heeds, htouched, hignores]
    obtain ⟨path, hpath⟩ := exists_relative hheeds
    exact ⟨path, hpath, fun d since hsilent =>
      ⟨inputs, d, e, since, rfl, by rw [change?, if_pos hheeds, hpath], hsilent⟩⟩
  · intro path hout
    have hpending := (hmem path).mpr hout
    have harmed := horder.armed_iff.mpr (List.ne_nil_of_mem hpending)
    exact ⟨harmed, fun d => ⟨_, by rw [tells, Watcher.step, if_pos harmed],
      List.mem_mergeSort.mpr hpending⟩⟩
  · intro i told htells
    obtain ⟨harmed, rfl⟩ := tells_eq_some htells
    refine ⟨?_, pairwise_lt_mergeSort horder.nodup, fun path => ?_⟩
    · obtain ⟨path, hpath⟩ := List.exists_mem_of_ne_nil _ (horder.armed_iff.mp harmed)
      exact List.ne_nil_of_mem (List.mem_mergeSort.mpr hpath)
    · rw [List.mem_mergeSort, hmem]

/-- One file is written twice, another one is made, and the rest does not matter. -/
def sampleInputs : List (Disk × Input) :=
  [({}, .event { kinds := [.written], path := "/r/a" }),
   ({}, .event { kinds := [.touched], path := "/r/c" }),
   ({}, .event { kinds := [.created, .written], path := "/r/b" }),
   ({}, .fault),
   ({}, .event { kinds := [.written], path := "/r/vendor/d" }),
   ({}, .event { kinds := [.written], path := "/r/a" })]

theorem tells_outstanding_sample :
    let w : Watcher := { root := "/r" }
    (w.after sampleInputs).tells ({}, .timer) = some ["a", "b"] ∧
      ∀ path, path ∈ ["a", "b"] ↔ w.Outstanding sampleInputs path := by
  intro w
  have hpending : (w.after sampleInputs).armed = true ∧
      (w.after sampleInputs).pending = ["a", "b"] := by decide
  have htells : (w.after sampleInputs).tells ({}, .timer) = some ["a", "b"] := by
    rw [tells, step, if_pos hpending.1, hpending.2, List.mergeSort_of_pairwise (by decide)]
  exact ⟨htells, ((tells_outstanding "/r" [] sampleInputs).2.2.2 _ _ htells).2.2⟩

end RuleScan.Watcher
