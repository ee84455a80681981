import RuleScan.Proofs.Engine.Crew
import RuleScan.Proofs.Engine.Schedule

/-!
# Workers whose searches may fail

The tasks of an evaluation are done by workers side by side, and the search of a task gives matches
or fails.  A failure that says that the search could not be done is told of and passed over; any
other one, and in a strict evaluation every one, ends the evaluation: the first such failure is
kept, and the tasks see from then on that they are to stop.

## The model

  * `Answers` is what the searches give, task by task.  Two tasks may ask for the same and get
    different answers.
  * `Work.settle` is what becomes of a task: `runTask`, with a search that gives the answer.
  * `Shift` is what the workers share, a `Board` with the first failure, and `Shift.Step` says what
    can happen next.  Which task is started or ends next, and how many are at work at a time, is left
    open.  A search that goes on after the first failure may give ANYTHING, for it may have been cut
    short.

## What is proved

  * `Shift.Reachable.sound` — the invariant: as long as there is no failure, the tasks that have
    ended have put down what their searches gave; a failure is the answer to some task;
  * `Shift.Sound.eq_conclude` — so without a failure the result is that of doing the tasks one after
    the other with these answers;
  * `Shift.exists_complete` — and the tasks can always come to their end.
-/

namespace RuleScan

/-- A search that gives the same whatever it is asked for. -/
def Searcher.giving (r : Except Failure (List Match)) : Searcher := fun _ _ => ExceptT.mk (pure r)

namespace Engine

/-! ## Answers -/

/-- What the searches of tasks give. -/
abbrev Answers := TaskId → Except Failure (List Match)

/-- A failure that ends an evaluation. -/
def Fatal (e : Engine) (f : Failure) : Prop := e.strict = true ∨ f.has .searchUnavailable = false

instance (e : Engine) (f : Failure) : Decidable (e.Fatal f) :=
  inferInstanceAs (Decidable (_ ∨ _))

/-- What becomes of a task whose search gives `r`. -/
def Work.settle (w : Work) (r : Except Failure (List Match)) (signal : Signal)
    (task : List String × Matcher) : Except Failure Outcome :=
  (Work.attempt { w with engine := { w.engine with searcher := Searcher.giving r } } signal task).1

/-- What an answer is turned into if it does not end the evaluation. -/
def outcomeOf : Except Failure (List Match) → Outcome
  | .ok ms => .ok ms
  | .error f => .error f.message

section Settle

section Search

variable {e : Engine} {signal : Signal} {read : String → Option Text.Bytes} {directory : String}
  {paths : List String} {m : Matcher} {s s' : Run} (hpaths : paths ≠ [])

include hpaths

theorem runTask_of_ok {ms : List Match}
    (h : (e.searcher signal ⟨m, paths, read, directory⟩).run.run s = (.ok ms, s')) :
    (runTask e signal read directory paths m).run.run s = (.ok (.ok ms), s') := by
  rw [runTask, if_neg (by simpa using hpaths), RunM.run_tryCatch, RunM.run_bind, h]
  rfl

/-- A failure of a search is passed over if it is not fatal and the signal is not set. -/
theorem runTask_of_error {f : Failure}
    (h : (e.searcher signal ⟨m, paths, read, directory⟩).run.run s = (.error f, s')) :
    (runTask e signal read directory paths m).run.run s =
      (if signal s'.moment = none ∧ ¬ e.Fatal f then .ok (.error f.message) else .error f,
        { s' with moment := s'.moment + 1 }) := by
  rw [runTask, if_neg (by simpa using hpaths), RunM.run_tryCatch, RunM.run_bind, h]
  simp only [RunM.run_bind, RunM.run_look]
  cases hs : signal s'.moment with
  | some i => rfl
  | none =>
      by_cases hfatal : e.Fatal f
      · have hthrow : (e.strict || !f.has .searchUnavailable) = true := by
          simpa [Fatal] using hfatal
        simp only [hthrow, if_true, hfatal, not_true, and_false, if_false]
        rfl
      · have hgoes : (e.strict || !f.has .searchUnavailable) = false := by
          simpa [Fatal] using hfatal
        simp only [hgoes, Bool.false_eq_true, if_false, hfatal, not_false_iff, and_true, if_true]
        rfl

end Search

variable {w : Work} {signal : Signal} {paths : List String} {m : Matcher}

theorem settle_ok (hpaths : paths ≠ []) (ms : List Match) :
    w.settle (.ok ms) signal (paths, m) = .ok (.ok ms) :=
  congrArg Prod.fst (runTask_of_ok hpaths rfl)

theorem settle_error (hpaths : paths ≠ []) (f : Failure) :
    w.settle (.error f) signal (paths, m) =
      if signal 0 = none ∧ ¬ w.engine.Fatal f then .ok (.error f.message) else .error f := by
  have hsearch : (Searcher.giving (.error f) signal ⟨m, paths,
      (FileReader.make w.engine.root w.engine.maxFileSize).load w.disk, w.disk.directory⟩).run.run
      { programs := w.programs } = (.error f, { programs := w.programs }) := rfl
  exact congrArg Prod.fst (runTask_of_error
    (e := { w.engine with searcher := Searcher.giving (.error f) }) hpaths hsearch)

/-- A task that nothing stops ends well with its answer, or with a fatal failure. -/
theorem settle_quiet (hpaths : paths ≠ []) (r : Except Failure (List Match)) :
    (w.settle r Signal.quiet (paths, m) = .ok (outcomeOf r) ∧
      ∀ f, r = .error f → ¬ w.engine.Fatal f) ∨
    ∃ f, r = .error f ∧ w.engine.Fatal f ∧ w.settle r Signal.quiet (paths, m) = .error f := by
  cases r with
  | ok ms => exact .inl ⟨settle_ok hpaths ms, by simp⟩
  | error f =>
      rw [settle_error hpaths]
      by_cases hfatal : w.engine.Fatal f
      · exact .inr ⟨f, rfl, hfatal, if_neg fun h => h.2 hfatal⟩
      · refine .inl ⟨if_pos ⟨rfl, hfatal⟩, ?_⟩
        rintro f' ⟨⟩
        exact hfatal

end Settle

/-! ## The tasks with their answers -/

/-- The plan and the pattern of a task. -/
def Work.planned? (w : Work) (t : TaskId) : Option (Plan × Matcher) := do
  let p ← w.plans[t.rule]?
  let m ← (p.matchers t.part)[t.pattern]?
  return (p, m)

/-- What becomes of a task if no failure is fatal; one without files is not started. -/
def Plan.outcome (p : Plan) (answer : Answers) (t : TaskId) : Outcome :=
  if p.paths = [] then .ok [] else outcomeOf (answer t)

/-- The patterns of a plan with what becomes of their tasks. -/
def Plan.told (p : Plan) (answer : Answers) (i : Nat) (part : Part) : List (Matcher × Outcome) :=
  (p.matchers part).zipIdx.map fun (m, j) => (m, p.outcome answer ⟨i, part, j⟩)

/-- The rules with what becomes of their tasks. -/
def Work.told (w : Work) (answer : Answers) : List Searched :=
  w.plans.zipIdx.map fun (p, i) => ⟨p.rule, p.told answer i .any, p.told answer i .all⟩

theorem planned?_eq_some {w : Work} {t : TaskId} {p : Plan} {m : Matcher} :
    w.planned? t = some (p, m) ↔
      w.plans[t.rule]? = some p ∧ (p.matchers t.part)[t.pattern]? = some m := by
  simp only [Work.planned?, Option.bind_eq_bind, Option.bind_eq_some_iff, Option.pure_def,
    Option.some.injEq, Prod.mk.injEq]
  constructor
  · rintro ⟨p', hp, m', hm, rfl, rfl⟩
    exact ⟨hp, hm⟩
  · rintro ⟨hp, hm⟩
    exact ⟨p, hp, m, hm, rfl, rfl⟩

theorem tasks_told (p : Plan) (answer : Answers) (i : Nat) (part : Part) :
    Searched.tasks ⟨p.rule, p.told answer i .any, p.told answer i .all⟩ part =
      p.told answer i part := by
  cases part <;> rfl

theorem taskAt?_told (w : Work) (answer : Answers) (t : TaskId) :
    taskAt? (w.told answer) t =
      (w.planned? t).map fun (p, m) => ⟨p.rule.rule, m, p.outcome answer t⟩ := by
  simp only [taskAt?, Work.told, Work.planned?, List.getElem?_map, List.getElem?_zipIdx,
    Nat.zero_add]
  cases w.plans[t.rule]? with
  | none => rfl
  | some p =>
      simp only [Option.map_some, Option.bind_eq_bind, Option.bind_some]
      rw [tasks_told]
      simp only [Plan.told, List.getElem?_map, List.getElem?_zipIdx, Nat.zero_add]
      cases (p.matchers t.part)[t.pattern]? <;> rfl

/-! ## The shift -/

/-- What the workers share. -/
structure Shift where
  board : Board := {}
  /-- The first failure that was not passed over. -/
  failure : Option Failure := none

namespace Shift

/-- What the tasks see: the first failure stops them. -/
def signal (c : Shift) : Signal :=
  match c.failure with
  | none => Signal.quiet
  | some _ => Signal.stopped .canceled

/-- The shift when a task of a rule has ended. -/
def finish (c : Shift) (t : TaskId) (r : Rule) (m : Matcher) : Except Failure Outcome → Shift
  | .ok o => { c with board := c.board.finish t o.found (Task.diagnostic? ⟨r, m, o⟩).toList }
  | .error f => ⟨c.board.finish t [] [], c.failure.or (some f)⟩

/-- What can happen next. -/
inductive Step (w : Work) (answer : Answers) : Shift → Shift → Prop
  | start {c : Shift} {t : TaskId} {p : Plan} {m : Matcher} : w.planned? t = some (p, m) →
      p.paths ≠ [] → t ∉ c.board.running → t ∉ c.board.finished →
      Step w answer c { c with board := { c.board with running := t :: c.board.running } }
  | finish {c : Shift} {t : TaskId} {p : Plan} {m : Matcher} {r : Except Failure (List Match)} :
      w.planned? t = some (p, m) → t ∈ c.board.running → (c.failure = none → r = answer t) →
      Step w answer c (c.finish t p.rule.rule m (w.settle r c.signal (p.paths, m)))

/-- The shifts that one can come to. -/
def Reachable (w : Work) (answer : Answers) (c : Shift) : Prop :=
  Relation.ReflTransGen (Step w answer) {} c

/-- A task with files has ended; one without is not started. -/
def Done (w : Work) (c : Shift) (t : TaskId) : Prop :=
  ∀ p m, w.planned? t = some (p, m) → p.paths ≠ [] → t ∈ c.board.finished

/-- All tasks are done. -/
def Complete (w : Work) (c : Shift) : Prop := ∀ t, c.Done w t

/-- What can come out when the tasks are done. -/
inductive Gives (w : Work) (answer : Answers) (known : List String) (c : Shift) :
    Except Failure Evaluation → Prop
  | result {result : Evaluation} : c.failure = none →
      c.board.Gives w.engine.effectiveMarker known (w.told answer) result →
      Gives w answer known c (.ok result)
  | failure {f : Failure} : c.failure = some f → Gives w answer known c (.error (failed f))

/-! ## What holds of every shift -/

/-- A task that has ended well has put down what its search gave. -/
def Kept (w : Work) (answer : Answers) (c : Shift) (t : TaskId) : Prop :=
  ∃ p m, w.planned? t = some (p, m) ∧ (∀ f, answer t = .error f → ¬ w.engine.Fatal f) ∧
    c.board.found t = (p.outcome answer t).found

/-- The failure is the answer to a task with files. -/
def Caused (w : Work) (answer : Answers) (f : Failure) : Prop :=
  ∃ t p m, w.planned? t = some (p, m) ∧ p.paths ≠ [] ∧ answer t = .error f ∧ w.engine.Fatal f

/-- As long as there is no failure, everything that was put down is an answer. -/
structure Sound (w : Work) (answer : Answers) (c : Shift) : Prop where
  busy : ∀ t ∈ c.board.running, ∀ p m, w.planned? t = some (p, m) → p.paths ≠ []
  board : c.failure = none → c.board.Sound (w.told answer)
  kept : c.failure = none → ∀ t ∈ c.board.finished, c.Kept w answer t
  caused : ∀ f, c.failure = some f → Caused w answer f

variable {w : Work} {answer : Answers} {c c' : Shift}

theorem sound_empty (w : Work) (answer : Answers) : Sound w answer {} where
  busy := by simp
  board := fun _ => Board.sound_empty _
  kept := by simp
  caused := by simp

theorem Sound.start {t : TaskId} {p : Plan} {m : Matcher} (h : c.Sound w answer)
    (ht : w.planned? t = some (p, m)) (hpaths : p.paths ≠ []) (hrun : t ∉ c.board.running)
    (hfin : t ∉ c.board.finished) :
    Sound w answer { c with board := { c.board with running := t :: c.board.running } } where
  busy := by
    intro u hu p' m' hu'
    rcases List.mem_cons.mp hu with rfl | hu
    · rw [ht] at hu'
      cases hu'
      exact hpaths
    · exact h.busy u hu p' m' hu'
  board := fun hnone => (h.board hnone).step
    (.start (by rw [taskAt?_told, ht]; rfl) hrun hfin (Nat.lt_succ_self _))
  kept := h.kept
  caused := h.caused

/-- A task that has ended well. -/
theorem Sound.finish_ok {t : TaskId} {p : Plan} {m : Matcher} (h : c.Sound w answer)
    (ht : w.planned? t = some (p, m)) (hrun : t ∈ c.board.running) (hnone : c.failure = none)
    (hgoes : ∀ f, answer t = .error f → ¬ w.engine.Fatal f) :
    Sound w answer (c.finish t p.rule.rule m (.ok (outcomeOf (answer t)))) where
  busy := fun u hu => h.busy u (List.mem_of_mem_erase hu)
  board := by
    intro _
    have htask : taskAt? (w.told answer) t =
        some ⟨p.rule.rule, m, outcomeOf (answer t)⟩ := by
      simp only [taskAt?_told, ht, Option.map_some, Plan.outcome, if_neg (h.busy t hrun p m ht)]
    exact (h.board hnone).finish hrun htask (.refl _) rfl
  kept := by
    intro _ u hu
    by_cases hut : u = t
    · subst hut
      refine ⟨p, m, ht, hgoes, ?_⟩
      rw [Plan.outcome, if_neg (h.busy u hrun p m ht)]
      exact if_pos rfl
    · have hu : u ∈ c.board.finished :=
        (List.mem_append.mp hu).resolve_right fun hu => hut (List.mem_singleton.mp hu)
      obtain ⟨p', m', hu', hgoes', hfound⟩ := h.kept hnone u hu
      exact ⟨p', m', hu', hgoes', (if_neg hut).trans hfound⟩
  caused := h.caused

/-- A task that has failed, the first one or a later one. -/
theorem Sound.finish_error {t : TaskId} {r : Rule} {m : Matcher} {f : Failure}
    (h : c.Sound w answer) (hfirst : c.failure = none → Caused w answer f) :
    Sound w answer (c.finish t r m (.error f)) where
  busy := fun u hu => h.busy u (List.mem_of_mem_erase hu)
  board := fun hnone => by simp [Shift.finish] at hnone
  kept := fun hnone => by simp [Shift.finish] at hnone
  caused := by
    intro f' hf'
    cases hc : c.failure with
    | none =>
        simp only [Shift.finish, hc, Option.none_or, Option.some.injEq] at hf'
        exact hf' ▸ hfirst hc
    | some f₀ =>
        simp only [Shift.finish, hc, Option.some_or] at hf'
        exact h.caused f' (hc.trans hf')

/-- After the first failure nothing is said about what is put down. -/
theorem Sound.finish_late {t : TaskId} {r : Rule} {m : Matcher} {o : Except Failure Outcome}
    (h : c.Sound w answer) (hfailed : c.failure ≠ none) :
    Sound w answer (c.finish t r m o) := by
  cases o with
  | error f => exact h.finish_error fun hnone => absurd hnone hfailed
  | ok o =>
      exact ⟨fun u hu => h.busy u (List.mem_of_mem_erase hu), fun hnone => absurd hnone hfailed,
        fun hnone => absurd hnone hfailed, h.caused⟩

theorem Sound.step (h : c.Sound w answer) (hstep : Step w answer c c') : c'.Sound w answer := by
  cases hstep with
  | start ht hpaths hrun hfin => exact h.start ht hpaths hrun hfin
  | @finish t p m r ht hrun hr =>
      by_cases hnone : c.failure = none
      · have hquiet : c.signal = Signal.quiet := by rw [signal, hnone]
        have hpaths := h.busy t hrun p m ht
        rw [hr hnone, hquiet]
        rcases settle_quiet hpaths (answer t) with ⟨hsettle, hgoes⟩ | ⟨f, hf, hfatal, hsettle⟩
        · rw [hsettle]
          exact h.finish_ok ht hrun hnone hgoes
        · rw [hsettle]
          exact h.finish_error fun _ => ⟨t, p, m, ht, hpaths, hf, hfatal⟩
      · exact h.finish_late hnone

theorem Reachable.sound (h : Reachable w answer c) : c.Sound w answer := by
  induction h with
  | refl => exact sound_empty w answer
  | tail _ hstep ih => exact ih.step hstep

/-! ## Shifts without a failure -/

/-- When all tasks are done without a failure, no answer is fatal. -/
theorem Sound.not_caused (h : c.Sound w answer) (hcomplete : c.Complete w)
    (hnone : c.failure = none) (f : Failure) : ¬ Caused w answer f := by
  rintro ⟨t, p, m, ht, hpaths, hf, hfatal⟩
  obtain ⟨-, -, -, hgoes, -⟩ := h.kept hnone t (hcomplete t p m ht hpaths)
  exact hgoes f hf hfatal

theorem Sound.board_complete (hcomplete : c.Complete w) : c.board.Complete (w.told answer) := by
  intro t task htask hne
  rw [taskAt?_told] at htask
  obtain ⟨⟨p, m⟩, ht, rfl⟩ := Option.map_eq_some_iff.mp htask
  refine hcomplete t p m ht fun hpaths => hne ?_
  simp only [Plan.outcome, if_pos hpaths]

/-- Then everything is put down as it was given. -/
theorem Sound.found_eq (h : c.Sound w answer) (hcomplete : c.Complete w)
    (hnone : c.failure = none) {t : TaskId} {task : Task}
    (htask : taskAt? (w.told answer) t = some task) :
    c.board.found t = task.outcome.found := by
  rw [taskAt?_told] at htask
  obtain ⟨⟨p, m⟩, ht, rfl⟩ := Option.map_eq_some_iff.mp htask
  by_cases hfin : t ∈ c.board.finished
  · obtain ⟨p', m', ht', -, hfound⟩ := h.kept hnone t hfin
    rw [ht] at ht'
    cases ht'
    exact hfound
  · have hpaths : p.paths = [] := by
      by_contra hne
      exact hfin (hcomplete t p m ht hne)
    rw [(h.board hnone).untouched t hfin]
    simp only [Plan.outcome, if_pos hpaths]
    rfl

/-- A board on which everything is as it was given, whatever the order of the files. -/
theorem firstAt_ruleFindings {plan : List Searched} {b : Board}
    (hfound : ∀ t task, taskAt? plan t = some task → b.found t = task.outcome.found)
    (marker : String) {i : Nat} {s : Searched} (hs : plan[i]? = some s) {order : List String}
    (horder : Enumerates order (tallies (b.groups marker i s))) (k : Finding.Place) :
    Finding.firstAt k (b.ruleFindings marker i s order) =
      Finding.firstAt k (ruleFindings marker s) := by
  have hslots : ∀ part, b.slots i part s = (s.tasks part).map fun mo => (mo.1, mo.2.found) := by
    intro part
    conv => rhs; rw [← List.zipIdx_map_fst 0 (s.tasks part), List.map_map]
    refine List.map_congr_left fun p hp => ?_
    have htask := taskAt?_eq_some hs (List.mem_zipIdx_iff_getElem?.mp hp)
    simp only [Function.comp_apply, hfound _ _ htask]
  have hgroups : b.groups marker i s = allMatches marker s := by
    rw [Board.groups, hslots, allMatches, List.map_map]
    rfl
  rw [hgroups] at horder
  rw [Board.ruleFindings, ruleFindings, Finding.firstAt_append, Finding.firstAt_append, hgroups,
    firstAt_tallyFindings _ horder, firstAt_allFindings, hslots, anyFindings, List.flatMap_map]
  rfl

/-- Without a failure the result is that of doing the tasks one after the other. -/
theorem Sound.eq_conclude (h : c.Sound w answer) (hcomplete : c.Complete w)
    (hnone : c.failure = none) {marker : String} {known : List String} {result : Evaluation}
    (hgives : c.board.Gives marker known (w.told answer) result) :
    result = conclude marker known (w.told answer) := by
  obtain ⟨order, horder, hfindings⟩ := hgives.findings
  have hsame : result.findings = (conclude marker known (w.told answer)).findings := by
    rw [hfindings, conclude, flatMap_zipIdx (w.told answer)]
    refine Finding.distinct_congr fun k => Finding.firstAt_flatMap_congr fun p hp => ?_
    have hs := List.mem_zipIdx_iff_getElem?.mp hp
    exact firstAt_ruleFindings (fun t task => h.found_eq hcomplete hnone) marker hs
      (horder p.2 p.1 hs) k
  have hdiagnostics :
      result.diagnostics = (conclude marker known (w.told answer)).diagnostics :=
    Diagnostic.eq_sort
      (hgives.diagnostics.1.trans ((h.board hnone).diagnostics_perm (board_complete hcomplete)))
      hgives.diagnostics.2
  cases result
  simp only [conclude, Evaluation.mk.injEq] at hsame hdiagnostics ⊢
  exact ⟨hsame, hgives.files, hdiagnostics⟩

/-! ## Every shift can come to its end -/

theorem failure_of_steps (h : Relation.ReflTransGen (Step w answer) c c') {f : Failure}
    (hf : c.failure = some f) : c'.failure = some f := by
  induction h with
  | refl => exact hf
  | tail _ hstep ih =>
      cases hstep with
      | start _ _ _ _ => exact ih
      | finish _ _ _ =>
          simp only [Shift.finish]
          split
          · exact ih
          · simp [ih]

/-- A task whose search fails may be the first to come to its end. -/
theorem exists_failed {t : TaskId} {p : Plan} {m : Matcher} {f : Failure}
    (ht : w.planned? t = some (p, m)) (hpaths : p.paths ≠ []) (hf : answer t = .error f)
    (hfatal : w.engine.Fatal f) : ∃ c, Reachable w answer c ∧ c.failure = some f := by
  have hstart : Step w answer {} { board := { running := [t] } } :=
    .start ht hpaths List.not_mem_nil List.not_mem_nil
  have hfinish : Step w answer _ _ :=
    .finish (c := { board := { running := [t] } }) ht (List.mem_singleton_self t) fun _ => rfl
  rw [hf, settle_error hpaths, if_neg fun hgoes => hgoes.2 hfatal] at hfinish
  exact ⟨_, .head hstart (.single hfinish), rfl⟩

theorem mem_finished_finish (c : Shift) (t u : TaskId) (r : Rule) (m : Matcher)
    (o : Except Failure Outcome) :
    u ∈ (c.finish t r m o).board.finished ↔ u ∈ c.board.finished ∨ u = t := by
  cases o <;> simp [Shift.finish, Board.finish]

/-- A task can come to its end, and those that have ended stay so. -/
theorem exists_done (w : Work) (answer : Answers) (c : Shift) (t : TaskId) :
    ∃ c', Relation.ReflTransGen (Step w answer) c c' ∧ c'.Done w t ∧
      ∀ u, c.Done w u → c'.Done w u := by
  by_cases hdone : c.Done w t
  · exact ⟨c, .refl, hdone, fun _ h => h⟩
  · simp only [Done, not_forall] at hdone
    obtain ⟨p, m, ht, hpaths, hfin⟩ := hdone
    have hrunning : ∀ b : Shift, t ∈ b.board.running → ∃ c', Step w answer b c' ∧ c'.Done w t ∧
        ∀ u, b.Done w u → c'.Done w u := by
      intro b hrun
      refine ⟨_, .finish ht hrun fun _ => rfl, fun _ _ _ _ => ?_, fun u hu p' m' hp' hpaths' => ?_⟩
      · rw [mem_finished_finish]
        exact .inr rfl
      · rw [mem_finished_finish]
        exact .inl (hu p' m' hp' hpaths')
    by_cases hrun : t ∈ c.board.running
    · obtain ⟨c', hstep, hend, hkeep⟩ := hrunning c hrun
      exact ⟨c', .single hstep, hend, hkeep⟩
    · have hstart : Step w answer c _ := .start ht hpaths hrun hfin
      obtain ⟨c', hstep, hend, hkeep⟩ :=
        hrunning { c with board := { c.board with running := t :: c.board.running } }
          List.mem_cons_self
      exact ⟨c', .head hstart (.single hstep), hend, hkeep⟩

theorem planned?_isSome_iff {t : TaskId} :
    (w.planned? t).isSome = true ↔ t ∈ taskIds (w.told answer) := by
  rw [mem_taskIds, taskAt?_told, Option.isSome_map]

/-- Whatever has happened so far, the tasks can come to their end. -/
theorem exists_complete (w : Work) (answer : Answers) (c : Shift) :
    ∃ c', Relation.ReflTransGen (Step w answer) c c' ∧ c'.Complete w := by
  obtain ⟨c', hsteps, hdone⟩ :=
    Crew.exists_all_of_each (exists_done w answer) c (taskIds (w.told answer))
  refine ⟨c', hsteps, fun t p m ht => hdone t ?_ p m ht⟩
  rw [← planned?_isSome_iff, ht]
  rfl

/-- When the tasks are done, something comes out. -/
theorem exists_gives (w : Work) (answer : Answers) (known : List String) (c : Shift) :
    ∃ r, c.Gives w answer known r := by
  cases hc : c.failure with
  | some f => exact ⟨_, .failure hc⟩
  | none =>
      obtain ⟨result, hresult⟩ :=
        Board.exists_gives w.engine.effectiveMarker known (w.told answer) c.board
      exact ⟨_, .result hc hresult⟩

end Shift

end Engine

end RuleScan
