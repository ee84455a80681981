import Mathlib.Data.List.Forall2
import RuleScan.Proofs.Engine.AllOrNothing
import RuleScan.Proofs.Engine.Shift

/-!
# Evaluations that could not search for everything

A search that could not be done leaves a gap in an evaluation.  The gap is exactly its own matches,
and it is told of.

## What is proved

`accounts_of_ends`: however the tasks are scheduled, what comes out `Accounts` for the answers of
the searches.

  * An evaluation that is not strict ends well if every failure says that the search could not be
    done.  Its findings are those of an evaluation in which the failed searches found nothing, and
    its diagnostics are in one-to-one correspondence with the failed tasks.
  * A strict one ends well exactly if no search fails, and otherwise says why.
  * Any other failure ends every evaluation.

A schedule that comes to its end always exists, and `Engine.evaluate`, which does the tasks one
after the other, ends like one of them.

## Why

The first failure that is kept is the answer to some task, since a task sees that it is to stop only
after a failure was kept (`Shift.Sound.caused`).  Without one everything was put down, so nothing
depends on the schedule (`Shift.Sound.eq_conclude`).
-/

namespace RuleScan.Engine

/-! ## What the answers amount to -/

/-- A task with files whose search fails. -/
def Work.Fails (w : Work) (answer : Answers) (t : TaskId) (f : Failure) : Prop :=
  ∃ p m, w.planned? t = some (p, m) ∧ p.paths ≠ [] ∧ answer t = .error f

/-- The same answers, but with searches that find nothing in place of those that fail. -/
def forgiving (answer : Answers) : Answers := fun t =>
  match answer t with
  | .ok ms => .ok ms
  | .error _ => .ok []

/-- The diagnostic of a task whose search fails. -/
def Work.Tells (w : Work) (answer : Answers) (t : TaskId) (d : Diagnostic) : Prop :=
  ∃ p m f, w.planned? t = some (p, m) ∧ answer t = .error f ∧
    d = ⟨"search-unavailable", p.rule.rule.id, m.pattern.text, f.message⟩

/-- How an evaluation can end whose tasks are done by workers. -/
def Work.Ends (w : Work) (known : List String) (answer : Answers)
    (r : Except Failure Evaluation) : Prop :=
  ∃ c, Shift.Reachable w answer c ∧ c.Complete w ∧ c.Gives w answer known r

/-- What comes out accounts for the answers of the searches. -/
structure Work.Accounts (w : Work) (known : List String) (answer : Answers)
    (r : Except Failure Evaluation) : Prop where
  /-- Searches that could not be done are passed over and told of. -/
  lenient : w.engine.strict = false →
    (∀ t f, w.Fails answer t f → f.has .searchUnavailable = true) →
    ∃ result, r = .ok result ∧
      (∀ r₀, w.Ends known (forgiving answer) r₀ → ∃ bare, r₀ = .ok bare ∧
        result.findings = bare.findings ∧ bare.diagnostics = []) ∧
      (result.findings = Finding.distinct
          ((w.told answer).flatMap (ruleFindings w.engine.effectiveMarker)) ∧
        ∀ s ∈ w.told answer, (∃ mo ∈ s.allOf, ∃ message, mo.2 = .error message) →
          allFindings w.engine.effectiveMarker s = []) ∧
      (∃ ts : List TaskId, ts.Nodup ∧ (∀ t, t ∈ ts ↔ ∃ f, w.Fails answer t f) ∧
        List.Forall₂ (w.Tells answer) ts result.diagnostics) ∧
      result.diagnostics.Pairwise fun a b => Diagnostic.compare a b ≠ .gt
  /-- A strict evaluation does without nothing. -/
  strict : w.engine.strict = true →
    (∀ t f, w.Fails answer t f → f.has .searchUnavailable = true) →
    ((∃ result, r = .ok result) ↔ ∀ t f, ¬ w.Fails answer t f) ∧
    ∀ f, r = .error f → f.has .evaluation = true ∧ f.has .searchUnavailable = true
  /-- No other failure is passed over. -/
  broken : (∃ t f, w.Fails answer t f ∧ f.has .searchUnavailable = false) →
    ∃ f, r = .error f ∧ f.has .evaluation = true

/-! ## The findings -/

theorem found_forgiving (answer : Answers) (p : Plan) (t : TaskId) :
    (p.outcome (forgiving answer) t).found = (p.outcome answer t).found := by
  rw [Plan.outcome, Plan.outcome, forgiving]
  split
  · rfl
  · cases answer t <;> rfl

/-- The findings of a rule depend on what was found, not on why nothing was. -/
theorem ruleFindings_congr {s s' : Searched} (marker : String) (hrule : s.rule = s'.rule)
    (hfound : ∀ part, (s.tasks part).map (fun mo => (mo.1, mo.2.found)) =
      (s'.tasks part).map fun mo => (mo.1, mo.2.found)) :
    ruleFindings marker s = ruleFindings marker s' := by
  have hany : ∀ s : Searched, anyFindings marker s =
      ((s.tasks .any).map fun mo => (mo.1, mo.2.found)).flatMap fun p =>
        (unmarked marker p.2).map (Finding.ofMatch s.rule.rule p.1.pattern.confidence) := by
    intro s
    rw [List.flatMap_map]
    rfl
  have hall : ∀ s : Searched, allMatches marker s =
      ((s.tasks .all).map fun mo => (mo.1, mo.2.found)).map fun p => unmarked marker p.2 := by
    intro s
    rw [List.map_map]
    rfl
  rw [ruleFindings, ruleFindings, allFindings, allFindings, hany, hany s', hall, hall s',
    hfound .any, hfound .all, hrule]

theorem findings_forgiving (w : Work) (answer : Answers) (marker : String) :
    (w.told (forgiving answer)).flatMap (ruleFindings marker) =
      (w.told answer).flatMap (ruleFindings marker) := by
  rw [Work.told, Work.told, List.flatMap_map, List.flatMap_map]
  refine List.flatMap_congr fun p _ => ruleFindings_congr marker rfl fun part => ?_
  rw [tasks_told, tasks_told, Plan.told, Plan.told, List.map_map, List.map_map]
  refine List.map_congr_left fun q _ => ?_
  simp only [Function.comp_apply, found_forgiving]

/-- A pattern that was not searched for occurs in no file. -/
theorem allFindings_eq_nil {marker : String} {s : Searched}
    (h : ∃ mo ∈ s.allOf, ∃ message, mo.2 = .error message) : allFindings marker s = [] := by
  obtain ⟨⟨m, o⟩, hmo, message, rfl⟩ := h
  have hgroup : [] ∈ allMatches marker s := List.mem_map.mpr ⟨_, hmo, rfl⟩
  have hnone : ∀ file, occursAll (allMatches marker s) file = false := by
    intro file
    rw [Bool.eq_false_iff]
    intro hall
    have hempty := List.all_eq_true.mp hall [] hgroup
    cases hempty
  simp [allFindings, hnone]

/-! ## The diagnostics -/

theorem told?_eq_some {w : Work} {answer : Answers} {t : TaskId} {d : Diagnostic} :
    told? (w.told answer) t = some d ↔ (∃ f, w.Fails answer t f) ∧ w.Tells answer t d := by
  rw [told?, taskAt?_told]
  cases ht : w.planned? t with
  | none => simp [Work.Fails, ht]
  | some pm =>
      obtain ⟨p, m⟩ := pm
      by_cases hpaths : p.paths = []
      · simp [Work.Fails, ht, Task.diagnostic?, Plan.outcome, hpaths]
      · cases ha : answer t <;>
          simp [Work.Fails, Work.Tells, ht, Task.diagnostic?, Plan.outcome, hpaths, ha, outcomeOf,
            eq_comm]

/-- The tasks whose searches fail. -/
theorem isSome_told? {w : Work} {answer : Answers} {t : TaskId} :
    (told? (w.told answer) t).isSome = true ↔ ∃ f, w.Fails answer t f := by
  rw [Option.isSome_iff_exists]
  constructor
  · rintro ⟨d, hd⟩
    exact (told?_eq_some.mp hd).1
  · rintro ⟨f, p, m, ht, hpaths, hf⟩
    exact ⟨_, told?_eq_some.mpr ⟨⟨f, p, m, ht, hpaths, hf⟩, p, m, f, ht, hf, rfl⟩⟩

theorem forall₂_filterMap {α β : Type} (g : α → Option β) (l : List α) :
    List.Forall₂ (fun a b => g a = some b) (l.filter fun a => (g a).isSome) (l.filterMap g) := by
  induction l with
  | nil => exact .nil
  | cons a l ih =>
      cases hg : g a with
      | none => simpa [hg] using ih
      | some b => simpa [hg] using ih

/-- A list that is put in another order can take its companion with it. -/
theorem exists_forall₂_of_perm {α β : Type} {R : α → β → Prop} {l : List α} {m m' : List β}
    (h : List.Forall₂ R l m) (hperm : m.Perm m') :
    ∃ l', l'.Perm l ∧ List.Forall₂ R l' m' := by
  have hcomp : Relation.Comp (List.Forall₂ R) List.Perm l m' := ⟨m, h, hperm⟩
  rw [List.forall₂_comp_perm_eq_perm_comp_forall₂] at hcomp
  obtain ⟨l', hl', hforall⟩ := hcomp
  exact ⟨l', hl'.symm, hforall⟩

/-- One diagnostic for every task whose search fails, and none else. -/
theorem exists_told_diagnostics (w : Work) (answer : Answers) (marker : String)
    (known : List String) :
    ∃ ts : List TaskId, ts.Nodup ∧ (∀ t, t ∈ ts ↔ ∃ f, w.Fails answer t f) ∧
      List.Forall₂ (w.Tells answer) ts (conclude marker known (w.told answer)).diagnostics := by
  have hpairs := forall₂_filterMap (told? (w.told answer)) (taskIds (w.told answer))
  rw [filterMap_taskIds] at hpairs
  obtain ⟨ts, hts, hforall⟩ := exists_forall₂_of_perm hpairs (List.mergeSort_perm _ _).symm
  refine ⟨ts, hts.nodup_iff.mpr ((nodup_taskIds _).filter _), fun t => ?_,
    hforall.imp fun t d hd => (told?_eq_some.mp hd).2⟩
  rw [hts.mem_iff, List.mem_filter, isSome_told?, and_iff_right_iff_imp]
  rintro ⟨f, p, m, ht, -⟩
  rw [← Shift.planned?_isSome_iff, ht]
  rfl

/-! ## Whatever the schedule -/

theorem fails_of_caused {w : Work} {answer : Answers} {f : Failure}
    (h : Shift.Caused w answer f) : (∃ t, w.Fails answer t f) ∧ w.engine.Fatal f := by
  obtain ⟨t, p, m, ht, hpaths, hf, hfatal⟩ := h
  exact ⟨⟨t, p, m, ht, hpaths, hf⟩, hfatal⟩

/-- An evaluation ends with the result of doing the tasks one after the other, or with a failure
that was the answer to a task. -/
theorem Work.Ends.cases {w : Work} {known : List String} {answer : Answers}
    {r : Except Failure Evaluation} (h : w.Ends known answer r) :
    (r = .ok (conclude w.engine.effectiveMarker known (w.told answer)) ∧
      ∀ f, ¬ Shift.Caused w answer f) ∨
    ∃ f, r = .error (failed f) ∧ Shift.Caused w answer f := by
  obtain ⟨c, hreach, hcomplete, hgives⟩ := h
  have hsound := hreach.sound
  cases hgives with
  | result hnone hresult =>
      exact .inl ⟨congrArg _ (hsound.eq_conclude hcomplete hnone hresult),
        hsound.not_caused hcomplete hnone⟩
  | failure hf => exact .inr ⟨_, rfl, hsound.caused _ hf⟩

theorem has_failed_of_has {f : Failure} {cause : Cause} (h : f.has cause = true) :
    (failed f).has cause = true := by
  simp only [failed, Failure.under, Failure.has, List.contains_cons, Bool.or_eq_true]
  exact .inr h

/-- Searches that find nothing do not fail. -/
theorem Work.Ends.of_forgiving {w : Work} {known : List String} {answer : Answers}
    {r : Except Failure Evaluation} (h : w.Ends known (forgiving answer) r) :
    ∃ bare, r = .ok bare ∧ bare.diagnostics = [] ∧ bare.findings = Finding.distinct
      ((w.told answer).flatMap (ruleFindings w.engine.effectiveMarker)) := by
  have hanswer : ∀ t f, forgiving answer t ≠ .error f := by
    intro t f
    rw [forgiving]
    cases answer t <;> simp
  rcases h.cases with ⟨rfl, -⟩ | ⟨f, -, t, p, m, -, -, hf, -⟩
  · refine ⟨_, rfl, ?_, congrArg Finding.distinct (findings_forgiving w answer _)⟩
    obtain ⟨ts, -, hts, hforall⟩ := exists_told_diagnostics w (forgiving answer)
      w.engine.effectiveMarker known
    cases ts with
    | nil => exact List.forall₂_nil_left_iff.mp hforall
    | cons t ts =>
        obtain ⟨f, p, m, -, -, hf⟩ := (hts t).mp List.mem_cons_self
        exact absurd hf (hanswer t f)
  · exact absurd hf (hanswer t f)

theorem Work.Ends.accounts {w : Work} {known : List String} {answer : Answers}
    {r : Except Failure Evaluation} (h : w.Ends known answer r) : w.Accounts known answer r where
  lenient := by
    intro hstrict hall
    rcases h.cases with ⟨rfl, -⟩ | ⟨f, -, hcaused⟩
    · refine ⟨_, rfl, fun r₀ h₀ => ?_, ⟨rfl, fun s _ hs => allFindings_eq_nil hs⟩,
        exists_told_diagnostics w answer _ known, Diagnostic.pairwise_sort _⟩
      obtain ⟨bare, rfl, hdiagnostics, hfindings⟩ := h₀.of_forgiving
      exact ⟨bare, rfl, hfindings.symm, hdiagnostics⟩
    · obtain ⟨⟨t, hfails⟩, hfatal⟩ := fails_of_caused hcaused
      rcases hfatal with hstrict' | hother
      · rw [hstrict] at hstrict'
        cases hstrict'
      · rw [hall t f hfails] at hother
        cases hother
  strict := by
    intro hstrict hall
    rcases h.cases with ⟨rfl, hnone⟩ | ⟨f, rfl, hcaused⟩
    · refine ⟨iff_of_true ⟨_, rfl⟩ ?_, by simp⟩
      rintro t f ⟨p, m, ht, hpaths, hf⟩
      exact hnone f ⟨t, p, m, ht, hpaths, hf, .inl hstrict⟩
    · obtain ⟨⟨t, hfails⟩, -⟩ := fails_of_caused hcaused
      refine ⟨iff_of_false (by simp) fun hnone => hnone t f hfails, ?_⟩
      rintro f' ⟨⟩
      exact ⟨has_failed f, has_failed_of_has (hall t f hfails)⟩
  broken := by
    rintro ⟨t, f, ⟨p, m, ht, hpaths, hf⟩, hother⟩
    rcases h.cases with ⟨-, hnone⟩ | ⟨f', rfl, -⟩
    · exact absurd ⟨t, p, m, ht, hpaths, hf, .inr hother⟩ (hnone f)
    · exact ⟨_, rfl, has_failed f'⟩

/-! ## One task after the other -/

end RuleScan.Engine

namespace RuleScan.RunM

variable {α β : Type}

/-- From every state a step gives a value, and then something holds, or it fails in some way. -/
def Attempts (x : RunM α) (a : α) (good : Prop) (bad : Failure → Prop) : Prop :=
  ∀ s, ∃ s', (x.run.run s = (.ok a, s') ∧ good) ∨ ∃ f, x.run.run s = (.error f, s') ∧ bad f

variable {bad : Failure → Prop}

theorem attempts_pure (a : α) : Attempts (pure a) a True bad :=
  fun s => ⟨s, .inl ⟨rfl, trivial⟩⟩

theorem Attempts.bind {x : RunM α} {f : α → RunM β} {a : α} {b : β} {good good' : Prop}
    (hx : Attempts x a good bad) (hf : Attempts (f a) b good' bad) :
    Attempts (x >>= f) b (good ∧ good') bad := by
  intro s
  obtain ⟨s₁, ⟨hrun, hgood⟩ | ⟨e, hrun, hbad⟩⟩ := hx s
  · obtain ⟨s₂, ⟨hrun', hgood'⟩ | ⟨e, hrun', hbad⟩⟩ := hf s₁
    · refine ⟨s₂, .inl ⟨?_, hgood, hgood'⟩⟩
      rw [run_bind, hrun]
      exact hrun'
    · refine ⟨s₂, .inr ⟨e, ?_, hbad⟩⟩
      rw [run_bind, hrun]
      exact hrun'
  · refine ⟨s₁, .inr ⟨e, ?_, hbad⟩⟩
    rw [run_bind, hrun]

theorem Attempts.mono {x : RunM α} {a b : α} {good good' : Prop} {bad' : Failure → Prop}
    (h : Attempts x a good bad) (hab : a = b) (hgood : good → good')
    (hbad : ∀ f, bad f → bad' f) : Attempts x b good' bad' := by
  subst hab
  intro s
  obtain ⟨s', ⟨hrun, h⟩ | ⟨f, hrun, h⟩⟩ := h s
  · exact ⟨s', .inl ⟨hrun, hgood h⟩⟩
  · exact ⟨s', .inr ⟨f, hrun, hbad f h⟩⟩

end RuleScan.RunM

/-- A search gives its answer to a request whatever was asked before. -/
def RuleScan.Searcher.Gives (search : Searcher)
    (answer : SearchRequest → Except Failure (List Match)) : Prop :=
  ∀ q s, ∃ s', (search Signal.quiet q).run.run s = (answer q, s')

namespace RuleScan.Engine

open RunM (Attempts attempts_pure)

/-- What a task asks for. -/
def Work.request (w : Work) (p : Plan) (m : Matcher) : SearchRequest where
  matcher := m
  paths := p.paths
  read := (FileReader.make w.engine.root w.engine.maxFileSize).load w.disk
  workingDirectory := w.disk.directory

/-- The answers to what the tasks ask for. -/
def Work.answers (w : Work) (answer : SearchRequest → Except Failure (List Match)) : Answers :=
  fun t => match w.planned? t with
    | some (p, m) => answer (w.request p m)
    | none => .ok []

section Sequence

variable {w : Work} {answer : SearchRequest → Except Failure (List Match)}
  (h : w.engine.searcher.Gives answer)

/-- The search of a task has no fatal failure. -/
def Work.Passes (w : Work) (answer : SearchRequest → Except Failure (List Match)) (p : Plan)
    (m : Matcher) : Prop :=
  p.paths ≠ [] → ∀ f, answer (w.request p m) = .error f → ¬ w.engine.Fatal f

/-- A fatal failure of the search for one of some patterns. -/
def Work.Faults (w : Work) (answer : SearchRequest → Except Failure (List Match)) (p : Plan)
    (ms : List Matcher) (f : Failure) : Prop :=
  ∃ m ∈ ms, p.paths ≠ [] ∧ answer (w.request p m) = .error f ∧ w.engine.Fatal f

/-- A fatal failure of the search of a task of some plans. -/
def Work.Blames (w : Work) (answer : SearchRequest → Except Failure (List Match)) (ps : List Plan)
    (f : Failure) : Prop :=
  ∃ p ∈ ps, ∃ part, w.Faults answer p (p.matchers part) f

/-- What becomes of a task that ends well. -/
def Work.outcome (w : Work) (answer : SearchRequest → Except Failure (List Match)) (p : Plan)
    (m : Matcher) : Outcome :=
  if p.paths = [] then .ok [] else outcomeOf (answer (w.request p m))

include h

theorem attempts_runTask (p : Plan) (m : Matcher) :
    Attempts (runTask w.engine Signal.quiet
      ((FileReader.make w.engine.root w.engine.maxFileSize).load w.disk) w.disk.directory p.paths m)
      (w.outcome answer p m) (w.Passes answer p m)
      fun f => p.paths ≠ [] ∧ answer (w.request p m) = .error f ∧ w.engine.Fatal f := by
  intro s
  by_cases hpaths : p.paths = []
  · refine ⟨s, .inl ⟨?_, fun hne => absurd hpaths hne⟩⟩
    rw [runTask, if_pos (by simpa using hpaths), Work.outcome, if_pos hpaths]
    rfl
  · obtain ⟨s', hsearch⟩ := h (w.request p m) s
    rw [Work.outcome, if_neg hpaths]
    cases ha : answer (w.request p m) with
    | ok ms =>
        rw [ha] at hsearch
        exact ⟨s', .inl ⟨runTask_of_ok hpaths hsearch, fun _ f hf => by rw [ha] at hf; cases hf⟩⟩
    | error f =>
        rw [ha] at hsearch
        have hrun := runTask_of_error hpaths hsearch
        refine ⟨{ s' with moment := s'.moment + 1 }, ?_⟩
        by_cases hfatal : w.engine.Fatal f
        · rw [if_neg fun hgoes => hgoes.2 hfatal] at hrun
          exact .inr ⟨f, hrun, hpaths, rfl, hfatal⟩
        · rw [if_pos ⟨rfl, hfatal⟩] at hrun
          refine .inl ⟨hrun, fun _ f' hf' => ?_⟩
          rw [ha] at hf'
          cases hf'
          exact hfatal

theorem attempts_runTasks (p : Plan) (ms : List Matcher) :
    Attempts (runTasks w.engine Signal.quiet
      ((FileReader.make w.engine.root w.engine.maxFileSize).load w.disk) w.disk.directory p.paths
      ms) (ms.map fun m => (m, w.outcome answer p m)) (∀ m ∈ ms, w.Passes answer p m)
      (w.Faults answer p ms) := by
  induction ms with
  | nil => exact (attempts_pure _).mono rfl (by simp) fun _ hbad => hbad
  | cons m rest ih =>
      have htask := (attempts_runTask h p m).mono rfl id fun f hf =>
        (⟨m, List.mem_cons_self, hf⟩ : w.Faults answer p (m :: rest) f)
      have hrest := ih.mono rfl id fun f ⟨m', hm', hf⟩ =>
        (⟨m', List.mem_cons_of_mem m hm', hf⟩ : w.Faults answer p (m :: rest) f)
      exact Attempts.mono (htask.bind (hrest.bind (attempts_pure _))) rfl
        (fun hgood => List.forall_mem_cons.mpr ⟨hgood.1, hgood.2.1⟩) fun _ hbad => hbad

/-- The tasks of some plans end well one after the other, or one of them has a fatal failure. -/
theorem attempts_runPlans (ps : List Plan) :
    Attempts (runPlans w.engine Signal.quiet
      ((FileReader.make w.engine.root w.engine.maxFileSize).load w.disk) w.disk.directory ps)
      (ps.map fun p => ⟨p.rule, p.rule.anyOf.map fun m => (m, w.outcome answer p m),
        p.rule.allOf.map fun m => (m, w.outcome answer p m)⟩)
      (∀ p ∈ ps, ∀ part, ∀ m ∈ p.matchers part, w.Passes answer p m) (w.Blames answer ps) := by
  induction ps with
  | nil => exact (attempts_pure _).mono rfl (by simp) fun _ hbad => hbad
  | cons p rest ih =>
      have htasks := fun part =>
        (attempts_runTasks h p (p.matchers part)).mono rfl id fun f ⟨m, hm, hf⟩ =>
          (⟨p, List.mem_cons_self, part, m, hm, hf⟩ : w.Blames answer (p :: rest) f)
      have hrest := ih.mono rfl id fun f ⟨p', hp', hf⟩ =>
        (⟨p', List.mem_cons_of_mem p hp', hf⟩ : w.Blames answer (p :: rest) f)
      refine Attempts.mono ((htasks .any).bind ((htasks .all).bind
        (hrest.bind (attempts_pure _)))) rfl (fun hgood => ?_) fun _ hbad => hbad
      refine List.forall_mem_cons.mpr ⟨?_, hgood.2.2.1⟩
      rintro (_ | _)
      · exact hgood.1
      · exact hgood.2.1

end Sequence

theorem told_answers (w : Work) (answer : SearchRequest → Except Failure (List Match)) :
    w.told (w.answers answer) = w.plans.map fun p =>
      ⟨p.rule, p.rule.anyOf.map fun m => (m, w.outcome answer p m),
        p.rule.allOf.map fun m => (m, w.outcome answer p m)⟩ := by
  rw [map_zipIdx w.plans, Work.told]
  refine List.map_congr_left fun q hq => ?_
  have hplan := List.mem_zipIdx_iff_getElem?.mp hq
  have hpart : ∀ part, q.1.told (w.answers answer) q.2 part =
      (q.1.matchers part).map fun m => (m, w.outcome answer q.1 m) := by
    intro part
    rw [map_zipIdx (q.1.matchers part), Plan.told]
    refine List.map_congr_left fun x hx => ?_
    have hplanned : w.planned? ⟨q.2, part, x.2⟩ = some (q.1, x.1) :=
      planned?_eq_some.mpr ⟨hplan, List.mem_zipIdx_iff_getElem?.mp hx⟩
    simp only [Plan.outcome, Work.outcome, Work.answers, hplanned]
  simp only [hpart]
  rfl

/-- Doing the tasks one after the other ends like some schedule. -/
theorem ends_of_evaluate {e : Engine} {answer : SearchRequest → Except Failure (List Match)}
    (hsearcher : e.searcher.Gives answer) {d : Disk} {rules : List Rule}
    {files : Option (List String)} {exclude : List String} {globs : GlobSet}
    {cs : List Rule.Compiled} {names : List String} {s s₁ : Run}
    (hglobs : GlobSet.ofPatterns exclude = .ok globs) (hrules : compileRules rules = .ok cs)
    (hlisted : (e.listed Signal.quiet d files).Yields s names s₁) {w : Work}
    (hw : w = ⟨e, d, cs.map (planOf (universeOf globs names)), s₁.programs⟩) :
    ∃ r s', (e.evaluate Signal.quiet d rules files exclude).run.run s = (r, s') ∧
      w.Ends (universeOf globs names) (w.answers answer) r := by
  subst hw
  set w : Work := ⟨e, d, cs.map (planOf (universeOf globs names)), s₁.programs⟩ with hw
  obtain ⟨s₂, ⟨hrun, hpasses⟩ | ⟨f, hrun, p, hp, part, m, hm, hpaths, hf, hfatal⟩⟩ :=
    attempts_runPlans (w := w) hsearcher w.plans s₁
  · -- No failure is fatal, so any schedule will do.
    rw [← told_answers] at hrun
    obtain ⟨c, hsteps, hcomplete⟩ := Shift.exists_complete w (w.answers answer) {}
    have hnone : c.failure = none := by
      by_contra hsome
      obtain ⟨f, hf⟩ := Option.ne_none_iff_exists'.mp hsome
      obtain ⟨t, p, m, ht, hpaths, hanswer, hfatal⟩ :=
        (Shift.Reachable.sound hsteps).caused f hf
      obtain ⟨hplan, hmatcher⟩ := planned?_eq_some.mp ht
      rw [Work.answers, ht] at hanswer
      exact hpasses p (List.mem_of_getElem? hplan) t.part m (List.mem_of_getElem? hmatcher)
        hpaths f hanswer hfatal
    obtain ⟨result, hresult⟩ := Board.exists_gives w.engine.effectiveMarker
      (universeOf globs names) (w.told (w.answers answer)) c.board
    have hconclude := (Shift.Reachable.sound hsteps).eq_conclude hcomplete hnone hresult
    refine ⟨.ok result, { s₂ with moment := s₂.moment + 1 }, ?_, c, hsteps, hcomplete,
      .result hnone hresult⟩
    have htasks : RunM.Yields _ s₁ _ s₂ := hrun
    simp only [evaluate_eq, hglobs, hrules, hconclude]
    exact hlisted.bind (htasks.tryCatch.bind
      ((RunM.yields_look_quiet s₂).bind (RunM.Yields.pure _ _)))
  · -- The schedule that begins with the task that failed.
    obtain ⟨i, hplan⟩ := List.mem_iff_getElem?.mp hp
    obtain ⟨j, hmatcher⟩ := List.mem_iff_getElem?.mp hm
    have ht : w.planned? ⟨i, part, j⟩ = some (p, m) := planned?_eq_some.mpr ⟨hplan, hmatcher⟩
    have hanswer : w.answers answer ⟨i, part, j⟩ = .error f := by
      rw [Work.answers, ht]
      exact hf
    obtain ⟨c₀, hreach, hfailed⟩ := Shift.exists_failed ht hpaths hanswer hfatal
    obtain ⟨c, hsteps, hcomplete⟩ := Shift.exists_complete w (w.answers answer) c₀
    refine ⟨.error (failed f), { s₂ with moment := s₂.moment + 1 }, ?_, c, hreach.trans hsteps,
      hcomplete, .failure (Shift.failure_of_steps hsteps hfailed)⟩
    simp only [evaluate_eq, hglobs, hrules]
    rw [RunM.run_bind, show (e.listed Signal.quiet d files).run.run s = _ from hlisted]
    simp only [searchAll]
    rw [RunM.run_bind, RunM.run_tryCatch, show (runPlans _ _ _ _ _).run.run s₁ = _ from hrun]
    rfl

/-- **Degraded search.**  However the tasks are scheduled, what comes out accounts for the answers of
the searches; every schedule can be brought to an end; and an evaluation that does the tasks one
after the other ends like a schedule. -/
theorem accounts_of_ends (w : Work) (known : List String) (answer : Answers) :
    (∀ r, w.Ends known answer r → w.Accounts known answer r) ∧
    (∀ c, Shift.Reachable w answer c → ∃ c' r,
      Relation.ReflTransGen (Shift.Step w answer) c c' ∧ c'.Complete w ∧
        c'.Gives w answer known r) ∧
    ∀ (e : Engine) (given : SearchRequest → Except Failure (List Match)) d rules files exclude
      globs cs names s s₁, e.searcher.Gives given → GlobSet.ofPatterns exclude = .ok globs →
      compileRules rules = .ok cs → (e.listed Signal.quiet d files).Yields s names s₁ →
      ∀ v : Work, v = ⟨e, d, cs.map (planOf (universeOf globs names)), s₁.programs⟩ →
        ∃ r s', (e.evaluate Signal.quiet d rules files exclude).run.run s = (r, s') ∧
          v.Accounts (universeOf globs names) (v.answers given) r := by
  refine ⟨fun r h => h.accounts, ?_, ?_⟩
  · intro c _
    obtain ⟨c', hsteps, hcomplete⟩ := Shift.exists_complete w answer c
    obtain ⟨r, hgives⟩ := Shift.exists_gives w answer known c'
    exact ⟨c', r, hsteps, hcomplete, hgives⟩
  · intro e given d rules files exclude globs cs names s s₁ hsearcher hglobs hrules hlisted v hv
    obtain ⟨r, s', hrun, hends⟩ := ends_of_evaluate hsearcher hglobs hrules hlisted hv
    exact ⟨r, s', hrun, hends.accounts⟩

/-! ## A pattern that could not be searched for

One pattern may occur and two have to occur, of which one could not be searched for. -/

/-- The task of the first of the patterns that all have to occur fails. -/
def sampleAnswers : Answers
  | ⟨_, .any, _⟩ => .ok [⟨"f", [97], 1, 1⟩]
  | ⟨_, .all, 0⟩ => .error (.of .searchUnavailable "no program")
  | ⟨_, .all, _⟩ => .ok [⟨"f", [99], 2, 1⟩]

/-- One rule with one file. -/
def sampleOrders (strict : Bool) : Work where
  engine := { marker := "!", strict }
  disk := {}
  plans :=
    [{ rule :=
         { rule := { id := "r" }
           scope := {}
           anyOf := [⟨.literal "a", none, [97]⟩]
           allOf := [⟨.literal "b", none, [98]⟩, ⟨.literal "c", none, [99]⟩] }
       paths := ["f"] }]
  programs := {}

theorem fails_sample (strict : Bool) :
    (sampleOrders strict).Fails sampleAnswers ⟨0, .all, 0⟩
      (.of .searchUnavailable "no program") :=
  ⟨_, _, rfl, List.cons_ne_nil _ _, rfl⟩

/-- No other task fails. -/
theorem eq_of_fails_sample {strict : Bool} {t : TaskId} {f : Failure}
    (h : (sampleOrders strict).Fails sampleAnswers t f) :
    t = ⟨0, .all, 0⟩ ∧ f = .of .searchUnavailable "no program" := by
  obtain ⟨p, m, ht, -, hf⟩ := h
  obtain ⟨i, part, j⟩ := t
  obtain ⟨hplan, -⟩ := planned?_eq_some.mp ht
  have hi : i < 1 := (List.getElem?_eq_some_iff.mp hplan).1
  obtain rfl : i = 0 := by omega
  cases part with
  | any => cases hf
  | all =>
      cases j with
      | zero => exact ⟨rfl, (Except.error.inj hf).symm⟩
      | succ j => cases hf

theorem unavailable_of_fails_sample {strict : Bool} (t : TaskId) (f : Failure)
    (h : (sampleOrders strict).Fails sampleAnswers t f) : f.has .searchUnavailable = true := by
  obtain ⟨-, rfl⟩ := eq_of_fails_sample h
  rfl

theorem accounts_of_ends_sample :
    (∃ result, (sampleOrders false).Ends ["f"] sampleAnswers (.ok result) ∧
      (Finding.firstAt ("r", "f", 1, 1) result.findings).isSome = true ∧
      Finding.firstAt ("r", "f", 2, 1) result.findings = none ∧ result.diagnostics.length = 1) ∧
    ∃ f, (sampleOrders true).Ends ["f"] sampleAnswers (.error f) ∧
      f.has .searchUnavailable = true := by
  constructor
  · obtain ⟨haccounts, hend, -⟩ := accounts_of_ends (sampleOrders false) ["f"] sampleAnswers
    obtain ⟨c, r, hsteps, hcomplete, hgives⟩ := hend {} .refl
    obtain ⟨result, rfl, -, ⟨hfindings, -⟩, ⟨ts, hnodup, hts, hforall⟩, -⟩ :=
      (haccounts r ⟨c, hsteps, hcomplete, hgives⟩).lenient rfl unavailable_of_fails_sample
    refine ⟨result, ⟨c, hsteps, hcomplete, hgives⟩, ?_, ?_, ?_⟩
    · rw [hfindings, Finding.firstAt_distinct]
      decide +kernel
    · rw [hfindings, Finding.firstAt_distinct]
      decide +kernel
    · have hone : ts.Perm [⟨0, .all, 0⟩] := by
        refine (List.perm_ext_iff_of_nodup hnodup (List.nodup_singleton _)).mpr fun t => ?_
        rw [hts, List.mem_singleton]
        constructor
        · rintro ⟨f, hf⟩
          exact (eq_of_fails_sample hf).1
        · rintro rfl
          exact ⟨_, fails_sample false⟩
      rw [← hforall.length_eq, hone.length_eq]
      rfl
  · obtain ⟨haccounts, hend, -⟩ := accounts_of_ends (sampleOrders true) ["f"] sampleAnswers
    obtain ⟨c, r, hsteps, hcomplete, hgives⟩ := hend {} .refl
    obtain ⟨hok, herror⟩ :=
      (haccounts r ⟨c, hsteps, hcomplete, hgives⟩).strict rfl unavailable_of_fails_sample
    cases r with
    | error f => exact ⟨f, ⟨c, hsteps, hcomplete, hgives⟩, (herror f rfl).2⟩
    | ok result => exact absurd (fails_sample true) (hok.mp ⟨result, rfl⟩ _ _)

end RuleScan.Engine
