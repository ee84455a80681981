import Mathlib.Data.List.Nodup
import Mathlib.Logic.Relation
import RuleScan.Engine.Evaluate

/-!
# Workers and tasks

`Engine.runPlans` does the tasks of a plan one after the other.  Here they are done by several
workers: a task is started when a worker is free, and when it ends its matches are put into the
place kept for it, or a diagnostic is added to the ones that are there already.  Nothing is said
about WHICH task is started or ends next, nor about the order of the matches of a task.

## What is proved

  * `Board.Reachable.sound` — the invariant: what a finished task has put down is its outcome up to
    order, and the diagnostics are those of the finished tasks in the order they finished;
  * `Board.Sound.found_perm`, `Board.Sound.diagnostics_perm` — so when all tasks have ended, the
    outcomes and the diagnostics are there, up to order;
  * `Board.Sound.exists_complete` — and all tasks CAN end, whatever has been done so far.
-/

namespace RuleScan.Engine

/-! ## Tasks by their place in the plan -/

/-- The two lists of patterns of a rule. -/
inductive Part where
  | any
  | all
  deriving DecidableEq

/-- Where a task stands: the number of the rule, the list, and the number of the pattern. -/
structure TaskId where
  rule : Nat
  part : Part
  pattern : Nat
  deriving DecidableEq

/-- The tasks of a rule, with their outcomes. -/
def Searched.tasks (s : Searched) : Part → List (Matcher × Outcome)
  | .any => s.anyOf
  | .all => s.allOf

/-- A task with its rule. -/
structure Task where
  rule : Rule
  matcher : Matcher
  outcome : Outcome

/-- The task at a place. -/
def taskAt? (plan : List Searched) (t : TaskId) : Option Task := do
  let s ← plan[t.rule]?
  let (m, o) ← (s.tasks t.part)[t.pattern]?
  return ⟨s.rule.rule, m, o⟩

/-- The diagnostic of a task that could not be done. -/
def Task.diagnostic? (task : Task) : Option Diagnostic :=
  match task.outcome with
  | .ok _ => none
  | .error message =>
    some { rule := task.rule.id, pattern := task.matcher.pattern.text, message }

/-- What the task at a place has to say. -/
def told? (plan : List Searched) (t : TaskId) : Option Diagnostic :=
  (taskAt? plan t).bind Task.diagnostic?

/-! ## The board -/

/-- What the workers share. -/
structure Board where
  running : List TaskId := []
  /-- In the order in which they ended. -/
  finished : List TaskId := []
  /-- What has been put down for a task. -/
  found : TaskId → List Match := fun _ => []
  diagnostics : List Diagnostic := []

/-- The board when a task has ended. -/
def Board.finish (b : Board) (t : TaskId) (ms : List Match) (ds : List Diagnostic) : Board where
  running := b.running.erase t
  finished := b.finished ++ [t]
  found := fun u => if u = t then ms else b.found u
  diagnostics := b.diagnostics ++ ds

/-- What can happen next, with so many workers. -/
inductive Board.Step (workers : Nat) (plan : List Searched) : Board → Board → Prop
  | start {b : Board} {t : TaskId} : (taskAt? plan t).isSome = true → t ∉ b.running →
      t ∉ b.finished → b.running.length < workers →
      Step workers plan b { b with running := t :: b.running }
  | done {b : Board} {t : TaskId} {task : Task} {ms ms' : List Match} : t ∈ b.running →
      taskAt? plan t = some task → task.outcome = .ok ms → ms'.Perm ms →
      Step workers plan b (b.finish t ms' [])
  | unavailable {b : Board} {t : TaskId} {task : Task} {d : Diagnostic} : t ∈ b.running →
      taskAt? plan t = some task → task.diagnostic? = some d →
      Step workers plan b (b.finish t [] [d])

/-- The boards that workers can come to. -/
def Board.Reachable (workers : Nat) (plan : List Searched) (b : Board) : Prop :=
  Relation.ReflTransGen (Board.Step workers plan) {} b

/-- All tasks have ended.  A task without files is not started, and a task that finds nothing
leaves no trace, so these need not have been. -/
def Board.Complete (plan : List Searched) (b : Board) : Prop :=
  ∀ t task, taskAt? plan t = some task → task.outcome ≠ .ok [] → t ∈ b.finished

/-! ## What holds of every board -/

/-- Finished tasks have put down their outcomes. -/
structure Board.Sound (plan : List Searched) (b : Board) : Prop where
  running : b.running.Nodup
  planned : ∀ t ∈ b.running, (taskAt? plan t).isSome = true
  finished : b.finished.Nodup
  disjoint : ∀ t ∈ b.running, t ∉ b.finished
  known : ∀ t ∈ b.finished, ∃ task, taskAt? plan t = some task ∧
    (b.found t).Perm task.outcome.found
  untouched : ∀ t, t ∉ b.finished → b.found t = []
  told : b.diagnostics = b.finished.filterMap (told? plan)

theorem Board.sound_empty (plan : List Searched) : Board.Sound plan {} where
  running := List.nodup_nil
  planned := by simp
  finished := List.nodup_nil
  disjoint := by simp
  known := by simp
  untouched := fun _ _ => rfl
  told := rfl

/-- The end of a task keeps the board sound, if what is put down is its outcome. -/
theorem Board.Sound.finish {plan : List Searched} {b : Board} (h : b.Sound plan) {t : TaskId}
    {task : Task} {ms : List Match} {ds : List Diagnostic} (hrun : t ∈ b.running)
    (htask : taskAt? plan t = some task) (hms : ms.Perm task.outcome.found)
    (hds : ds = task.diagnostic?.toList) : (b.finish t ms ds).Sound plan where
  running := h.running.erase t
  planned := fun u hu => h.planned u (List.mem_of_mem_erase hu)
  finished := by
    refine List.nodup_append.mpr ⟨h.finished, List.nodup_singleton t, ?_⟩
    intro u hu v hv huv
    rw [List.mem_singleton.mp hv] at huv
    exact h.disjoint t hrun (huv ▸ hu)
  disjoint := by
    intro u hu hfin
    obtain ⟨hne, hu⟩ := (List.Nodup.mem_erase_iff h.running).mp hu
    rcases List.mem_append.mp hfin with hfin | hfin
    · exact h.disjoint u hu hfin
    · exact hne (List.mem_singleton.mp hfin)
  known := by
    intro u hu
    by_cases hut : u = t
    · subst hut
      exact ⟨task, htask, by simpa [Board.finish] using hms⟩
    · have hu : u ∈ b.finished := by
        rcases List.mem_append.mp hu with hu | hu
        · exact hu
        · exact absurd (List.mem_singleton.mp hu) hut
      obtain ⟨task', htask', hperm⟩ := h.known u hu
      exact ⟨task', htask', by simpa [Board.finish, hut] using hperm⟩
  untouched := by
    intro u hu
    have hu' : u ∉ b.finished ∧ u ≠ t := by
      simpa [Board.finish] using hu
    simpa [Board.finish, hu'.2] using h.untouched u hu'.1
  told := by
    simp only [Board.finish, List.filterMap_append, h.told, hds]
    cases hd : task.diagnostic? <;> simp [told?, htask, hd]

theorem Board.Sound.step {workers : Nat} {plan : List Searched} {b b' : Board}
    (h : b.Sound plan) (hstep : Board.Step workers plan b b') : b'.Sound plan := by
  cases hstep with
  | @start t htask hrun hfin _ =>
      refine ⟨List.nodup_cons.mpr ⟨hrun, h.running⟩, ?_, h.finished, ?_, h.known, h.untouched,
        h.told⟩
      · intro u hu
        rcases List.mem_cons.mp hu with rfl | hu
        · exact htask
        · exact h.planned u hu
      · intro u hu
        rcases List.mem_cons.mp hu with rfl | hu
        · exact hfin
        · exact h.disjoint u hu
  | @done t task ms ms' hrun htask hok hperm =>
      refine h.finish hrun htask ?_ ?_
      · rw [hok]
        exact hperm
      · simp [Task.diagnostic?, hok]
  | @unavailable t task d hrun htask hd =>
      refine h.finish hrun htask ?_ (by simp [hd])
      cases ho : task.outcome with
      | ok ms => simp [Task.diagnostic?, ho] at hd
      | error message => exact List.Perm.refl []

theorem Board.Reachable.sound {workers : Nat} {plan : List Searched} {b : Board}
    (h : Board.Reachable workers plan b) : b.Sound plan := by
  induction h with
  | refl => exact Board.sound_empty plan
  | tail _ hstep ih => exact ih.step hstep

/-- At the end, every task has its outcome put down, in some order. -/
theorem Board.Sound.found_perm {plan : List Searched} {b : Board} (h : b.Sound plan)
    (hcomplete : b.Complete plan) {t : TaskId} {task : Task} (htask : taskAt? plan t = some task) :
    (b.found t).Perm task.outcome.found := by
  by_cases hfin : t ∈ b.finished
  · obtain ⟨task', htask', hperm⟩ := h.known t hfin
    obtain rfl : task = task' := Option.some.inj (htask.symm.trans htask')
    exact hperm
  · have hok : task.outcome = .ok [] := by
      by_contra hne
      exact hfin (hcomplete t task htask hne)
    rw [h.untouched t hfin, hok]
    exact List.Perm.refl []

/-! ## All tasks

The tasks of a plan are listed by their places, each once.  With that list "all tasks have ended"
becomes a permutation. -/

theorem taskAt?_eq_some {plan : List Searched} {i j : Nat} {s : Searched} {part : Part}
    {mo : Matcher × Outcome} (hs : plan[i]? = some s) (ht : (s.tasks part)[j]? = some mo) :
    taskAt? plan ⟨i, part, j⟩ = some ⟨s.rule.rule, mo.1, mo.2⟩ := by
  simp [taskAt?, hs, ht]

/-- Going through a list may as well be going through it with numbers. -/
theorem flatMap_zipIdx {α β : Type} (l : List α) (f : α → List β) :
    l.flatMap f = l.zipIdx.flatMap fun p => f p.1 := by
  conv => lhs; rw [← List.zipIdx_map_fst 0 l, List.flatMap_map]

theorem nodup_zipIdx_snd {α : Type} (l : List α) : (l.zipIdx.map Prod.snd).Nodup := by
  rw [List.zipIdx_map_snd]
  exact List.nodup_range'

/-- The places of the tasks of a rule in one of its lists. -/
def Searched.partIds (s : Searched) (i : Nat) (part : Part) : List TaskId :=
  (s.tasks part).zipIdx.map fun p => ⟨i, part, p.2⟩

/-- The places of all tasks. -/
def taskIds (plan : List Searched) : List TaskId :=
  plan.zipIdx.flatMap fun (s, i) => s.partIds i .any ++ s.partIds i .all

theorem nodup_partIds (s : Searched) (i : Nat) (part : Part) : (s.partIds i part).Nodup := by
  have hmap : s.partIds i part =
      ((s.tasks part).zipIdx.map Prod.snd).map fun j => (⟨i, part, j⟩ : TaskId) := by
    rw [Searched.partIds, List.map_map]
    rfl
  rw [hmap]
  exact (nodup_zipIdx_snd _).map fun j j' hj => (TaskId.mk.inj hj).2.2

theorem mem_partIds {s : Searched} {i : Nat} {part : Part} {t : TaskId} :
    t ∈ s.partIds i part ↔
      t.rule = i ∧ t.part = part ∧ ((s.tasks part)[t.pattern]?).isSome = true := by
  constructor
  · intro ht
    obtain ⟨p, hp, rfl⟩ := List.mem_map.mp ht
    exact ⟨rfl, rfl, by rw [List.mem_zipIdx_iff_getElem?.mp hp]; rfl⟩
  · rintro ⟨rfl, rfl, ht⟩
    obtain ⟨mo, hmo⟩ := Option.isSome_iff_exists.mp ht
    exact List.mem_map.mpr ⟨(mo, t.pattern), List.mem_zipIdx_iff_getElem?.mpr hmo, rfl⟩

theorem mem_taskIds {plan : List Searched} {t : TaskId} :
    t ∈ taskIds plan ↔ (taskAt? plan t).isSome = true := by
  simp only [taskIds, List.mem_flatMap, Prod.exists, List.mem_zipIdx_iff_getElem?,
    List.mem_append, mem_partIds]
  constructor
  · rintro ⟨s, i, hs, ⟨rfl, hpart, ht⟩ | ⟨rfl, hpart, ht⟩⟩ <;>
      · obtain ⟨mo, hmo⟩ := Option.isSome_iff_exists.mp ht
        rw [← hpart] at hmo
        rw [taskAt?_eq_some hs hmo]
        rfl
  · intro ht
    cases hs : plan[t.rule]? with
    | none => simp [taskAt?, hs] at ht
    | some s =>
        refine ⟨s, t.rule, hs, ?_⟩
        have hmo : ((s.tasks t.part)[t.pattern]?).isSome = true := by
          cases hmo : (s.tasks t.part)[t.pattern]? with
          | none => simp [taskAt?, hs, hmo] at ht
          | some mo => rfl
        cases hpart : t.part with
        | any => exact .inl ⟨rfl, rfl, hpart ▸ hmo⟩
        | all => exact .inr ⟨rfl, rfl, hpart ▸ hmo⟩

theorem nodup_taskIds (plan : List Searched) : (taskIds plan).Nodup := by
  refine List.pairwise_flatMap.mpr ⟨?_, ?_⟩
  · intro p _
    refine List.nodup_append.mpr ⟨nodup_partIds _ _ _, nodup_partIds _ _ _, ?_⟩
    intro t ht u hu htu
    have hpart := (mem_partIds.mp ht).2.1
    rw [htu, (mem_partIds.mp hu).2.1] at hpart
    cases hpart
  · -- Tasks of different rules differ in the number of the rule.
    refine (List.pairwise_map.mp (nodup_zipIdx_snd plan)).imp ?_
    intro p p' hne t ht u hu htu
    have hrule : ∀ {q : Searched × Nat} {v : TaskId},
        v ∈ q.1.partIds q.2 .any ++ q.1.partIds q.2 .all → v.rule = q.2 := by
      intro q v hv
      rcases List.mem_append.mp hv with hv | hv <;> exact (mem_partIds.mp hv).1
    exact hne ((hrule ht).symm.trans (htu ▸ hrule hu))

/-! ## The diagnostics of all tasks -/

/-- Calling the tasks of a list of a rule gives its diagnostics. -/
theorem filterMap_partIds {plan : List Searched} {s : Searched} {i : Nat} (hs : plan[i]? = some s)
    (part : Part) :
    (s.partIds i part).filterMap (told? plan) =
      (s.tasks part).filterMap fun mo => Task.diagnostic? ⟨s.rule.rule, mo.1, mo.2⟩ := by
  conv => rhs; rw [← List.zipIdx_map_fst 0 (s.tasks part), List.filterMap_map]
  rw [Searched.partIds, List.filterMap_map]
  refine List.filterMap_congr fun p hp => ?_
  have htask := taskAt?_eq_some hs (List.mem_zipIdx_iff_getElem?.mp hp)
  simp [told?, htask]

theorem filterMap_taskIds (plan : List Searched) :
    (taskIds plan).filterMap (told? plan) = plan.flatMap ruleDiagnostics := by
  rw [taskIds, List.filterMap_flatMap, flatMap_zipIdx plan]
  refine List.flatMap_congr fun p hp => ?_
  have hs := List.mem_zipIdx_iff_getElem?.mp hp
  rw [List.filterMap_append, filterMap_partIds hs, filterMap_partIds hs, ← List.filterMap_append]
  rfl

/-- Lists without repetitions give the same up to order if they agree on what something is made
of. -/
theorem filterMap_perm_of_nodup {α β : Type} {f : α → Option β} {l l' : List α} (h : l.Nodup)
    (h' : l'.Nodup) (hmem : ∀ a, (f a).isSome = true → (a ∈ l ↔ a ∈ l')) :
    (l.filterMap f).Perm (l'.filterMap f) := by
  have hkeep : ∀ m : List α, m.filterMap f = (m.filter fun a => (f a).isSome).filterMap f := by
    intro m
    rw [List.filterMap_filter]
    refine List.filterMap_congr fun a _ => ?_
    cases hf : f a <;> simp
  rw [hkeep l, hkeep l']
  refine List.Perm.filterMap f ?_
  refine (List.perm_ext_iff_of_nodup (h.filter _) (h'.filter _)).mpr fun a => ?_
  simp only [List.mem_filter]
  exact and_congr_left fun ha => hmem a ha

/-- At the end, the diagnostics are those of the rules, in some order. -/
theorem Board.Sound.diagnostics_perm {plan : List Searched} {b : Board} (h : b.Sound plan)
    (hcomplete : b.Complete plan) : b.diagnostics.Perm (plan.flatMap ruleDiagnostics) := by
  rw [h.told, ← filterMap_taskIds]
  refine filterMap_perm_of_nodup h.finished (nodup_taskIds plan) fun t ht => ?_
  rw [mem_taskIds]
  cases htask : taskAt? plan t with
  | none => simp [told?, htask] at ht
  | some task =>
      refine iff_of_true (hcomplete t task htask ?_) rfl
      intro hok
      simp [told?, htask, Task.diagnostic?, hok] at ht

/-! ## Every schedule can be brought to an end -/

/-- A task that is running can end. -/
theorem Board.exists_finish (workers : Nat) {plan : List Searched} {b : Board} {t : TaskId}
    (hrun : t ∈ b.running) (htask : (taskAt? plan t).isSome = true) :
    ∃ b', Board.Step workers plan b b' ∧ b'.running = b.running.erase t ∧
      b'.finished = b.finished ++ [t] := by
  obtain ⟨task, htask⟩ := Option.isSome_iff_exists.mp htask
  cases ho : task.outcome with
  | ok ms => exact ⟨_, .done hrun htask ho (List.Perm.refl ms), rfl, rfl⟩
  | error message =>
      have hd : task.diagnostic? = some
          { rule := task.rule.id, pattern := task.matcher.pattern.text, message } := by
        simp [Task.diagnostic?, ho]
      exact ⟨_, .unavailable hrun htask hd, rfl, rfl⟩

/-- The tasks that are running can all end. -/
theorem Board.Sound.exists_idle (workers : Nat) {plan : List Searched} (n : Nat) :
    ∀ {b : Board}, b.Sound plan → b.running.length = n →
      ∃ b', Relation.ReflTransGen (Board.Step workers plan) b b' ∧ b'.Sound plan ∧
        b'.running = [] := by
  induction n with
  | zero => exact fun {b} h hn => ⟨b, .refl, h, List.length_eq_zero_iff.mp hn⟩
  | succ n ih =>
      intro b h hn
      obtain ⟨t, rest, hrun⟩ := List.exists_cons_of_length_eq_add_one hn
      have ht : t ∈ b.running := by rw [hrun]; exact List.mem_cons_self
      obtain ⟨b₁, hstep, hrun₁, -⟩ := Board.exists_finish workers ht (h.planned t ht)
      have hn₁ : b₁.running.length = n := by
        rw [hrun₁, List.length_erase_of_mem ht, hn]
        rfl
      obtain ⟨b', hsteps, h', hidle⟩ := ih (h.step hstep) hn₁
      exact ⟨b', .head hstep hsteps, h', hidle⟩

/-- From a board on which nothing is running, given tasks can be done. -/
theorem Board.Sound.exists_finished {workers : Nat} (hworkers : 0 < workers)
    {plan : List Searched} (ts : List TaskId)
    (hts : ∀ t ∈ ts, (taskAt? plan t).isSome = true) :
    ∀ {b : Board}, b.Sound plan → b.running = [] →
      ∃ b', Relation.ReflTransGen (Board.Step workers plan) b b' ∧
        ∀ t, t ∈ b.finished ∨ t ∈ ts → t ∈ b'.finished := by
  induction ts with
  | nil => exact fun {b} _ _ => ⟨b, .refl, by simp⟩
  | cons t ts ih =>
      intro b h hidle
      obtain ⟨ht, hts⟩ := List.forall_mem_cons.mp hts
      by_cases hfin : t ∈ b.finished
      · obtain ⟨b', hsteps, hall⟩ := ih hts h hidle
        refine ⟨b', hsteps, fun u hu => hall u ?_⟩
        rcases hu with hu | hu
        · exact .inl hu
        · rcases List.mem_cons.mp hu with rfl | hu
          · exact .inl hfin
          · exact .inr hu
      · have hstart : Board.Step workers plan b { b with running := t :: b.running } :=
          .start ht (by simp [hidle]) hfin (by simpa [hidle] using hworkers)
        have hrun : t ∈ ({ b with running := t :: b.running } : Board).running :=
          List.mem_cons_self
        obtain ⟨b₁, hend, hrun₁, hfin₁⟩ := Board.exists_finish workers hrun ht
        have hidle₁ : b₁.running = [] := by simp [hrun₁, hidle]
        obtain ⟨b', hsteps, hall⟩ := ih hts ((h.step hstart).step hend) hidle₁
        refine ⟨b', .head hstart (.head hend hsteps), fun u hu => hall u ?_⟩
        rw [hfin₁, List.mem_append, List.mem_singleton]
        rcases hu with hu | hu
        · exact .inl (.inl hu)
        · rcases List.mem_cons.mp hu with rfl | hu
          · exact .inl (.inr rfl)
          · exact .inr hu

/-- Whatever has been done so far, the rest can be done. -/
theorem Board.Sound.exists_complete {workers : Nat} (hworkers : 0 < workers)
    {plan : List Searched} {b : Board} (h : b.Sound plan) :
    ∃ b', Relation.ReflTransGen (Board.Step workers plan) b b' ∧ b'.Complete plan := by
  obtain ⟨b₁, hsteps₁, h₁, hidle⟩ := Board.Sound.exists_idle workers _ h rfl
  obtain ⟨b', hsteps, hall⟩ :=
    h₁.exists_finished hworkers (taskIds plan) (fun t ht => mem_taskIds.mp ht) hidle
  refine ⟨b', hsteps₁.trans hsteps, ?_⟩
  intro t task htask _
  exact hall t (.inr (mem_taskIds.mpr (by rw [htask]; rfl)))

end RuleScan.Engine
