import Mathlib.Logic.Relation
import RuleScan.Proofs.Engine.Board
import RuleScan.Proofs.Engine.Settled

/-!
# Workers that may be stopped

The tasks of an evaluation are done by workers side by side.  They share a signal: it is set when
the evaluation is interrupted, and also when a task fails, for then the others need not go on.  A
task looks at the signal in its own time, so between two looks of one task anything may happen to
the others, and an interruption may come at ANY point: before a task starts, between two of its
looks, while a program is running, or when all tasks have ended.

## The model

  * `Crew` is what the workers share, with the state of every task; `Crew.Step` says what can happen
    next.  Which task goes on, and how many are at work at a time, is left open.
  * `Work.attempt` is what a task does under a signal: `runTask`, from the state that the workers
    were given.  A task that has gone on after so many looks and is then stopped does what it does
    under the signal `Signal.since`.

## What is proved

  * `Crew.Reachable.sound` — the invariant: a task that has ended well gave what it gives when
    nothing interrupts it, and every failure was noted;
  * `Crew.Sound.settles` — so without a failure, what has been put down is what doing the tasks one
    after the other gives;
  * `Crew.exists_complete` — and the tasks can always come to their end.
-/

namespace RuleScan

/-- A signal that is set, or not, after so many looks. -/
def Signal.since (looks : Nat) (stop : Option Interruption) : Signal :=
  fun n => if n < looks then none else stop

theorem Signal.lasting_since (looks : Nat) (stop : Option Interruption) :
    (Signal.since looks stop).Lasting := by
  intro n i h
  rw [since] at h ⊢
  split at h
  · cases h
  · rwa [if_neg (by omega)]

namespace Engine

/-! ## The crew -/

/-- What the workers have to do, and what they do it with. -/
structure Work where
  engine : Engine
  disk : Disk
  plans : List Plan
  programs : Programs

/-- The patterns of a plan. -/
def Plan.matchers (p : Plan) : Part → List Matcher
  | .any => p.rule.anyOf
  | .all => p.rule.allOf

/-- The files and the pattern of a task. -/
def Work.taskAt? (w : Work) (t : TaskId) : Option (List String × Matcher) := do
  let p ← w.plans[t.rule]?
  let m ← (p.matchers t.part)[t.pattern]?
  return (p.paths, m)

/-- What becomes of a task under a signal. -/
def Work.attempt (w : Work) (signal : Signal) (task : List String × Matcher) :
    Except Failure Outcome × Run :=
  (runTask w.engine signal ((FileReader.make w.engine.root w.engine.maxFileSize).load w.disk)
    w.disk.directory task.1 task.2).run.run { programs := w.programs }

/-- How far a task is. -/
inductive Job where
  | waiting
  /-- It has looked at the signal so often and gone on. -/
  | working (looks : Nat)
  | ended (r : Except Failure Outcome)

/-- What the workers share. -/
structure Crew where
  /-- Whether the evaluation was interrupted. -/
  interrupted : Option Interruption := none
  /-- The signal of the tasks: it is set by an interruption and by the first failure. -/
  stop : Option Interruption := none
  /-- The first failure. -/
  failure : Option Failure := none
  job : TaskId → Job := fun _ => .waiting

namespace Crew

/-- The crew with another state of a task. -/
def put (c : Crew) (t : TaskId) (j : Job) : Crew :=
  { c with job := fun u => if u = t then j else c.job u }

/-- The crew when a task has ended; a failure stops the other tasks. -/
def finish (c : Crew) (t : TaskId) : Except Failure Outcome → Crew
  | .ok o => c.put t (.ended (.ok o))
  | .error f =>
    { c.put t (.ended (.error f)) with
      failure := c.failure.or (some f), stop := c.stop.or (some .canceled) }

/-- What can happen next. -/
inductive Step (w : Work) : Crew → Crew → Prop
  | interrupt {c : Crew} (i : Interruption) : c.interrupted = none →
      Step w c { c with interrupted := some i, stop := c.stop.or (some i) }
  | start {c : Crew} {t : TaskId} : (w.taskAt? t).isSome = true → c.job t = .waiting →
      Step w c (c.put t (.working 0))
  | look {c : Crew} {t : TaskId} {looks : Nat} : c.job t = .working looks → c.stop = none →
      Step w c (c.put t (.working (looks + 1)))
  /-- A task that was not stopped ends when it has looked often enough; one that was stopped has
  seen nothing in its looks so far and sees the signal from then on. -/
  | finish {c : Crew} {t : TaskId} {looks : Nat} {task : List String × Matcher} :
      w.taskAt? t = some task → c.job t = .working looks →
      (c.stop = none → (w.attempt Signal.quiet task).2.moment ≤ looks) →
      Step w c (c.finish t (w.attempt (Signal.since looks c.stop) task).1)

/-- A crew that has not begun, perhaps already interrupted. -/
def start (flag : Option Interruption) : Crew := { interrupted := flag, stop := flag }

/-- The crews that one can come to. -/
def Reachable (w : Work) (flag : Option Interruption) (c : Crew) : Prop :=
  Relation.ReflTransGen (Step w) (start flag) c

/-- All tasks with files have ended; those without are not started. -/
def Complete (w : Work) (c : Crew) : Prop :=
  ∀ t task, w.taskAt? t = some task → task.1 ≠ [] → ∃ r, c.job t = .ended r

/-- What has been put down for a task. -/
def outcome (c : Crew) (t : TaskId) : Outcome :=
  match c.job t with
  | .ended (.ok o) => o
  | _ => .ok []

/-- The tasks of a list of a rule, with what has been put down. -/
def tasks (c : Crew) (i : Nat) (part : Part) (ms : List Matcher) : List (Matcher × Outcome) :=
  ms.zipIdx.map fun (m, j) => (m, c.outcome ⟨i, part, j⟩)

/-- A plan with what has been put down. -/
def searched (c : Crew) (p : Plan × Nat) : Searched :=
  ⟨p.1.rule, c.tasks p.2 .any p.1.rule.anyOf, c.tasks p.2 .all p.1.rule.allOf⟩

/-- What comes out when the tasks have ended. -/
def result (w : Work) (known : List String) (c : Crew) : Except Failure Evaluation :=
  match c.interrupted, c.failure with
  | some i, _ => .error (failed i.failure)
  | none, some f => .error (failed f)
  | none, none =>
    .ok (conclude w.engine.effectiveMarker known (w.plans.zipIdx.map c.searched))

/-! ## What holds of every crew -/

/-- A task that ended well gave what it gives when nothing interrupts it, and a failure was
noted. -/
structure Sound (w : Work) (c : Crew) : Prop where
  complete : ∀ t task o, w.taskAt? t = some task → c.job t = .ended (.ok o) →
    (w.attempt Signal.quiet task).1 = .ok o
  noted : ∀ t f, c.job t = .ended (.error f) → c.failure.isSome = true

variable {w : Work} {c c' : Crew}

@[simp] theorem job_put (c : Crew) (t u : TaskId) (j : Job) :
    (c.put t j).job u = if u = t then j else c.job u := rfl

@[simp] theorem failure_put (c : Crew) (t : TaskId) (j : Job) :
    (c.put t j).failure = c.failure := rfl

theorem job_finish (c : Crew) (t u : TaskId) (r : Except Failure Outcome) :
    (c.finish t r).job u = if u = t then .ended r else c.job u := by
  cases r <;> rfl

theorem sound_start (w : Work) (flag : Option Interruption) : (start flag).Sound w where
  complete := fun _ _ _ _ h => by cases h
  noted := fun _ _ h => by cases h

/-- A task that is not yet at its end changes nothing. -/
theorem Sound.put {t : TaskId} {j : Job} (h : c.Sound w) (hj : ∀ r, j ≠ .ended r) :
    (c.put t j).Sound w where
  complete := by
    intro u task o htask hu
    rw [job_put] at hu
    split at hu
    · exact absurd hu (hj _)
    · exact h.complete u task o htask hu
  noted := by
    intro u f hu
    rw [job_put] at hu
    split at hu
    · exact absurd hu (hj _)
    · exact h.noted u f hu

/-- The end of a task keeps the crew sound, if it gave what it gives when nothing interrupts it or
failed. -/
theorem Sound.finish {t : TaskId} {task : List String × Matcher} {r : Except Failure Outcome}
    (h : c.Sound w) (htask : w.taskAt? t = some task)
    (hr : ∀ o, r = .ok o → (w.attempt Signal.quiet task).1 = .ok o) : (c.finish t r).Sound w where
  complete := by
    intro u task' o htask' hu
    rw [job_finish] at hu
    split at hu
    · next hut =>
        subst hut
        obtain rfl : task = task' := Option.some.inj (htask.symm.trans htask')
        exact hr o (Job.ended.inj hu)
    · exact h.complete u task' o htask' hu
  noted := by
    intro u f hu
    rw [job_finish] at hu
    cases r with
    | error f' => cases hc : c.failure <;> simp [Crew.finish, hc]
    | ok o =>
        split at hu
        · cases hu
        · exact h.noted u f hu

/-- A stopped task gives what it gives when nothing interrupts it, or fails. -/
theorem attempt_ok (hsearcher : w.engine.searcher.Standard) {looks : Nat}
    {stop : Option Interruption} {task : List String × Matcher} {o : Outcome}
    (h : (w.attempt (Signal.since looks stop) task).1 = .ok o) :
    (w.attempt Signal.quiet task).1 = .ok o := by
  rcases steadfast_runTask hsearcher
      ((FileReader.make w.engine.root w.engine.maxFileSize).load w.disk) w.disk.directory task.1
      task.2 _ (Signal.lasting_since looks stop) { programs := w.programs } with
    hsame | ⟨f, s', i, hrun, -⟩
  · rw [Work.attempt, hsame] at h
    exact h
  · rw [Work.attempt, hrun] at h
    cases h

theorem Sound.step (hsearcher : w.engine.searcher.Standard) (h : c.Sound w)
    (hstep : Step w c c') : c'.Sound w := by
  cases hstep with
  | interrupt i _ => exact ⟨h.complete, h.noted⟩
  | start _ _ => exact h.put fun r => by simp
  | look _ _ => exact h.put fun r => by simp
  | finish htask _ _ => exact h.finish htask fun o ho => attempt_ok hsearcher ho

theorem Reachable.sound (hsearcher : w.engine.searcher.Standard) {flag : Option Interruption}
    (h : Reachable w flag c) : c.Sound w := by
  induction h with
  | refl => exact sound_start w flag
  | tail _ hstep ih => exact ih.step hsearcher hstep

/-! ## Crews that have done all -/

theorem attempt_nil (w : Work) (signal : Signal) (m : Matcher) :
    (w.attempt signal ([], m)).1 = .ok (.ok []) := rfl

/-- Without a failure, everything that was put down is what an uninterrupted task gives. -/
theorem Sound.outcome (h : c.Sound w) (hcomplete : c.Complete w) (hfailure : c.failure = none)
    {t : TaskId} {task : List String × Matcher} (htask : w.taskAt? t = some task) :
    (w.attempt Signal.quiet task).1 = .ok (c.outcome t) := by
  rw [Crew.outcome]
  split
  · next o hjob => exact h.complete t task o htask hjob
  · next hjob =>
      -- A task that has not ended well has no files, or has failed.
      obtain ⟨paths, m⟩ := task
      by_cases hpaths : paths = []
      · rw [hpaths, attempt_nil]
      · obtain ⟨r, hr⟩ := hcomplete t (paths, m) htask hpaths
        cases r with
        | ok o => exact absurd hr (hjob o)
        | error f =>
            have hnoted := h.noted t f hr
            rw [hfailure] at hnoted
            cases hnoted

section Sequence

variable (hsearcher : w.engine.searcher.Standard) (hps : w.programs.Steady)

include hsearcher hps

theorem settles_attempt (task : List String × Matcher) :
    RunM.Settles w.programs (runTask w.engine Signal.quiet
      ((FileReader.make w.engine.root w.engine.maxFileSize).load w.disk) w.disk.directory task.1
      task.2) (w.attempt Signal.quiet task).1 := by
  obtain ⟨r, hr⟩ := settled_runTask hsearcher hps
    ((FileReader.make w.engine.root w.engine.maxFileSize).load w.disk) w.disk.directory task.1
    task.2
  obtain ⟨s', hrun, -⟩ := hr { programs := w.programs } rfl
  rw [Work.attempt, hrun]
  exact hr

/-- Tasks that are done one after the other give what each of them gives alone. -/
theorem settles_runTasks (paths : List String) (mos : List (Matcher × Outcome))
    (h : ∀ mo ∈ mos, (w.attempt Signal.quiet (paths, mo.1)).1 = .ok mo.2) :
    RunM.Settles w.programs (runTasks w.engine Signal.quiet
      ((FileReader.make w.engine.root w.engine.maxFileSize).load w.disk) w.disk.directory paths
      (mos.map Prod.fst)) (.ok mos) := by
  induction mos with
  | nil => exact RunM.settles_pure _
  | cons mo rest ih =>
      obtain ⟨hmo, hrest⟩ := List.forall_mem_cons.mp h
      have htask := settles_attempt hsearcher hps (paths, mo.1)
      rw [hmo] at htask
      exact htask.bind ((ih hrest).bind (RunM.settles_pure _))

theorem settles_runPlans (ps : List (Plan × Nat))
    (h : ∀ p ∈ ps, ∀ part, ∀ mo ∈ c.tasks p.2 part (p.1.matchers part),
      (w.attempt Signal.quiet (p.1.paths, mo.1)).1 = .ok mo.2) :
    RunM.Settles w.programs (runPlans w.engine Signal.quiet
      ((FileReader.make w.engine.root w.engine.maxFileSize).load w.disk) w.disk.directory
      (ps.map Prod.fst)) (.ok (ps.map c.searched)) := by
  induction ps with
  | nil => exact RunM.settles_pure _
  | cons p rest ih =>
      obtain ⟨hp, hrest⟩ := List.forall_mem_cons.mp h
      have hfst : ∀ i part ms, (c.tasks i part ms).map Prod.fst = ms := by
        intro i part ms
        rw [tasks, List.map_map]
        exact List.zipIdx_map_fst 0 ms
      have hany := settles_runTasks hsearcher hps p.1.paths _ (hp .any)
      have hall := settles_runTasks hsearcher hps p.1.paths _ (hp .all)
      rw [hfst] at hany hall
      exact hany.bind (hall.bind ((ih hrest).bind (RunM.settles_pure _)))

/-- A crew that has done all has done what is done one after the other. -/
theorem Sound.settles (h : c.Sound w) (hcomplete : c.Complete w) (hfailure : c.failure = none) :
    RunM.Settles w.programs (runPlans w.engine Signal.quiet
      ((FileReader.make w.engine.root w.engine.maxFileSize).load w.disk) w.disk.directory w.plans)
      (.ok (w.plans.zipIdx.map c.searched)) := by
  have hplans := settles_runPlans (c := c) hsearcher hps w.plans.zipIdx ?_
  · rwa [List.zipIdx_map_fst] at hplans
  · intro p hp part mo hmo
    obtain ⟨⟨m, j⟩, hm, rfl⟩ := List.mem_map.mp hmo
    have hplan := List.mem_zipIdx_iff_getElem?.mp hp
    have hmatcher := List.mem_zipIdx_iff_getElem?.mp hm
    exact h.outcome hcomplete hfailure (by simp [Work.taskAt?, hplan, hmatcher])

end Sequence

/-! ## Every crew can come to its end -/

/-- What can come to its end one by one, without harm to the others, can do so altogether. -/
theorem exists_all_of_each {σ τ : Type} {step : σ → σ → Prop} {done : σ → τ → Prop}
    (h : ∀ c t, ∃ c', Relation.ReflTransGen step c c' ∧ done c' t ∧ ∀ u, done c u → done c' u)
    (c : σ) (ts : List τ) : ∃ c', Relation.ReflTransGen step c c' ∧ ∀ t ∈ ts, done c' t := by
  induction ts with
  | nil => exact ⟨c, .refl, by simp⟩
  | cons t rest ih =>
      obtain ⟨c₁, hsteps, hrest⟩ := ih
      obtain ⟨c₂, hsteps', ht, hkept⟩ := h c₁ t
      exact ⟨c₂, hsteps.trans hsteps',
        List.forall_mem_cons.mpr ⟨ht, fun u hu => hkept u (hrest u hu)⟩⟩

theorem put_put (c : Crew) (t : TaskId) (j j' : Job) : (c.put t j).put t j' = c.put t j' := by
  simp only [Crew.put, Crew.mk.injEq, true_and]
  funext u
  split <;> rfl

theorem put_self {t : TaskId} {j : Job} (h : c.job t = j) : c.put t j = c := by
  have hjob : (fun u => if u = t then j else c.job u) = c.job := by
    funext u
    split
    · next hut => rw [hut, h]
    · rfl
  rw [Crew.put, hjob]

/-- A task that nothing stops can look at the signal as often as it likes. -/
theorem steps_look {t : TaskId} {looks : Nat} (hjob : c.job t = .working looks)
    (hstop : c.stop = none) (n : Nat) :
    Relation.ReflTransGen (Step w) c (c.put t (.working (looks + n))) := by
  induction n with
  | zero =>
      rw [Nat.add_zero, put_self hjob]
  | succ n ih =>
      refine ih.tail ?_
      have hlook : Step w (c.put t (.working (looks + n)))
          ((c.put t (.working (looks + n))).put t (.working (looks + n + 1))) :=
        .look (by simp) hstop
      rwa [put_put] at hlook

/-- A task can come to its end, and no other task is touched. -/
theorem exists_ended (w : Work) (c : Crew) {t : TaskId} {task : List String × Matcher}
    (htask : w.taskAt? t = some task) :
    ∃ c', Relation.ReflTransGen (Step w) c c' ∧ (∃ r, c'.job t = .ended r) ∧
      ∀ u, u ≠ t → c'.job u = c.job u := by
  have hworking : ∀ (b : Crew) looks, b.job t = .working looks →
      ∃ c', Relation.ReflTransGen (Step w) b c' ∧ (∃ r, c'.job t = .ended r) ∧
        ∀ u, u ≠ t → c'.job u = b.job u := by
    intro b looks hb
    by_cases hstop : b.stop = none
    · -- One that nothing stops goes on until it has looked often enough.
      have hlooks := steps_look (w := w) hb hstop (w.attempt Signal.quiet task).2.moment
      have hfinish := Step.finish (c := b.put t _) htask (if_pos rfl)
        fun _ => Nat.le_add_left (w.attempt Signal.quiet task).2.moment looks
      refine ⟨_, hlooks.tail hfinish, ?_, ?_⟩
      · rw [job_finish, if_pos rfl]
        exact ⟨_, rfl⟩
      · intro u hu
        rw [job_finish, if_neg hu, job_put, if_neg hu]
    · refine ⟨_, .single (.finish htask hb fun hnone => absurd hnone hstop), ?_, ?_⟩
      · rw [job_finish, if_pos rfl]
        exact ⟨_, rfl⟩
      · intro u hu
        rw [job_finish, if_neg hu]
  cases hjob : c.job t with
  | ended r => exact ⟨c, .refl, ⟨r, hjob⟩, fun _ _ => rfl⟩
  | working looks => exact hworking c looks hjob
  | waiting =>
      have hstart : Step w c (c.put t (.working 0)) := .start (by rw [htask]; rfl) hjob
      obtain ⟨c', hsteps, hended, hsame⟩ := hworking (c.put t (.working 0)) 0 (by simp)
      refine ⟨c', hsteps.head hstart, hended, fun u hu => ?_⟩
      rw [hsame u hu, job_put, if_neg hu]

/-- The places of all tasks, each of which can come to its end. -/
theorem mem_taskIds_of_taskAt? {t : TaskId} {task : List String × Matcher}
    (h : w.taskAt? t = some task) : t ∈ taskIds (w.plans.zipIdx.map c.searched) := by
  obtain ⟨p, hp, h⟩ := Option.bind_eq_some_iff.mp h
  obtain ⟨m, hm, -⟩ := Option.bind_eq_some_iff.mp h
  have hs : (w.plans.zipIdx.map c.searched)[t.rule]? = some (c.searched (p, t.rule)) := by
    simp [hp]
  have ht : ((c.searched (p, t.rule)).tasks t.part)[t.pattern]? =
      some (m, c.outcome ⟨t.rule, t.part, t.pattern⟩) := by
    cases hpart : t.part <;> simp_all [Searched.tasks, searched, tasks, Plan.matchers]
  rw [mem_taskIds, taskAt?_eq_some hs ht]
  rfl

/-- Whatever has happened so far, the tasks can come to their end. -/
theorem exists_complete (w : Work) (c : Crew) :
    ∃ c', Relation.ReflTransGen (Step w) c c' ∧ c'.Complete w := by
  have heach : ∀ (c : Crew) t, ∃ c', Relation.ReflTransGen (Step w) c c' ∧
      (∀ task, w.taskAt? t = some task → ∃ r, c'.job t = .ended r) ∧
      ∀ u, (∀ task, w.taskAt? u = some task → ∃ r, c.job u = .ended r) →
        ∀ task, w.taskAt? u = some task → ∃ r, c'.job u = .ended r := by
    intro c t
    cases htask : w.taskAt? t with
    | none => exact ⟨c, .refl, by simp, fun _ h => h⟩
    | some task =>
        obtain ⟨c', hsteps, hended, hsame⟩ := exists_ended w c htask
        refine ⟨c', hsteps, fun _ _ => hended, fun u hu task' htask' => ?_⟩
        by_cases hut : u = t
        · rw [hut]
          exact hended
        · rw [hsame u hut]
          exact hu task' htask'
  obtain ⟨c', hsteps, hended⟩ :=
    exists_all_of_each heach c (taskIds (w.plans.zipIdx.map c.searched))
  exact ⟨c', hsteps, fun t task htask _ => hended t (mem_taskIds_of_taskAt? htask) task htask⟩

end Crew

end Engine

end RuleScan
