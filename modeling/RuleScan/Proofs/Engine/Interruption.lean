import RuleScan.Proofs.Engine.Native

/-!
# Interrupted runs

A run looks at its signal again and again, and once the signal is set it stays set
(`Signal.Lasting`).  A step is STEADFAST if no such signal can change what it gives: under the
signal it does exactly what it does when nothing interrupts it, or it fails — and then the signal is
set, so that whoever asks next finds out.

## What is proved

  * `Steadfast.bind`, `Steadfast.tryCatch`, `Steadfast.recover`, `Steadfast.exec` — the composition
    rules.  A failure may only be caught by somebody who looks at the signal before going on
    (`Heeds`);
  * `Searcher.Standard.steadfast`, `Lister.Standard.steadfast` — the searches and the listings are
    steadfast, although a program that is stopped in the middle may have printed half of its lines,
    and although a listing that fails is followed by another one;
  * `Engine.steadfast_listed`, `Engine.steadfast_runTask`, `Engine.steadfast_searchAll` — so are the
    parts of an evaluation.
-/

namespace RuleScan

/-- Once a signal is set it stays set. -/
def Signal.Lasting (signal : Signal) : Prop :=
  ∀ n i, signal n = some i → signal (n + 1) = some i

namespace RunM

variable {α β : Type}

/-- From a state, a step fails, and the signal is set when it has. -/
def Stops (signal : Signal) (x : RunM α) (s : Run) : Prop :=
  ∃ f s' i, x.run.run s = (.error f, s') ∧ signal s'.moment = some i

/-- Interruptions do not change what a step gives, though they may make it fail. -/
def Steadfast (x : Signal → RunM α) : Prop :=
  ∀ signal, signal.Lasting → ∀ s,
    (x signal).run.run s = (x Signal.quiet).run.run s ∨ Stops signal (x signal) s

/-- A step fails where the signal is set. -/
def Heeds (x : Signal → RunM α) : Prop :=
  ∀ signal, signal.Lasting → ∀ s i, signal s.moment = some i → Stops signal (x signal) s

/-! ## Heeding -/

theorem heeds_throw (f : Failure) : Heeds fun _ => (throw f : RunM α) :=
  fun _ _ s i hi => ⟨f, s, i, rfl, hi⟩

theorem Heeds.bind {x : Signal → RunM α} (hx : Heeds x) (f : α → Signal → RunM β) :
    Heeds fun signal => x signal >>= fun a => f a signal := by
  intro signal hlast s i hi
  obtain ⟨e, s', i', hrun, hi'⟩ := hx signal hlast s i hi
  refine ⟨e, s', i', ?_, hi'⟩
  rw [run_bind, hrun]

theorem run_look (signal : Signal) (s : Run) :
    (look signal).run.run s = (.ok (signal s.moment), { s with moment := s.moment + 1 }) := rfl

theorem heeds_look {k : Option Interruption → Signal → RunM α} (hk : ∀ i, Heeds (k (some i))) :
    Heeds fun signal => look signal >>= fun o => k o signal := by
  intro signal hlast s i hi
  obtain ⟨e, s', i', hrun, hi'⟩ :=
    hk i signal hlast { s with moment := s.moment + 1 } i (hlast _ _ hi)
  refine ⟨e, s', i', ?_, hi'⟩
  rw [run_bind, run_look, hi, ← hrun]

theorem heeds_check : Heeds check := by
  unfold check
  exact heeds_look fun i => heeds_throw i.failure

/-! ## Steadfastness -/

theorem steadfast_const (x : RunM α) : Steadfast fun _ => x := fun _ _ _ => .inl rfl

theorem Steadfast.bind {x : Signal → RunM α} {f : α → Signal → RunM β} (hx : Steadfast x)
    (hf : ∀ a, Steadfast (f a)) : Steadfast fun signal => x signal >>= fun a => f a signal := by
  intro signal hlast s
  rcases hx signal hlast s with hsame | ⟨e, s', i, hrun, hi⟩
  · simp only [run_bind, hsame]
    cases hquiet : (x Signal.quiet).run.run s with
    | mk r s' =>
        cases r with
        | error e => exact .inl rfl
        | ok a =>
            rcases hf a signal hlast s' with hthen | ⟨e, s'', i, hrun, hi⟩
            · exact .inl hthen
            · refine .inr ⟨e, s'', i, ?_, hi⟩
              rw [run_bind, hsame, hquiet]
              exact hrun
  · refine .inr ⟨e, s', i, ?_, hi⟩
    rw [run_bind, hrun]

/-- A failure may be handled by somebody who looks at the signal first. -/
theorem Steadfast.tryCatch {x : Signal → RunM α} {handle : Failure → Signal → RunM α}
    (hx : Steadfast x) (hsteady : ∀ f, Steadfast (handle f)) (hheeds : ∀ f, Heeds (handle f)) :
    Steadfast fun signal => MonadExcept.tryCatch (x signal) fun f => handle f signal := by
  intro signal hlast s
  rcases hx signal hlast s with hsame | ⟨e, s', i, hrun, hi⟩
  · simp only [run_tryCatch, hsame]
    cases hquiet : (x Signal.quiet).run.run s with
    | mk r s' =>
        cases r with
        | ok a => exact .inl rfl
        | error e =>
            rcases hsteady e signal hlast s' with hthen | ⟨e', s'', i, hrun, hi⟩
            · exact .inl hthen
            · refine .inr ⟨e', s'', i, ?_, hi⟩
              rw [run_tryCatch, hsame, hquiet]
              exact hrun
  · obtain ⟨e', s'', i', hrun', hi'⟩ := hheeds e signal hlast s' i hi
    refine .inr ⟨e', s'', i', ?_, hi'⟩
    rw [run_tryCatch, hrun]
    exact hrun'

/-- A failure may even be turned into a value, if the signal is looked at before going on with
that value. -/
theorem Steadfast.recover {x : Signal → RunM α} (hx : Steadfast x) {a : α}
    {k : α → Signal → RunM β} (hsteady : ∀ b, Steadfast (k b)) (hheeds : Heeds (k a)) :
    Steadfast fun signal =>
      (MonadExcept.tryCatch (x signal) fun _ => pure a) >>= fun b => k b signal := by
  intro signal hlast s
  have hgiven : ∀ σ b s', (x σ).run.run s = (.ok b, s') →
      ((MonadExcept.tryCatch (x σ) fun _ => pure a : RunM α) >>= fun b => k b σ).run.run s =
        (k b σ).run.run s' := by
    intro σ b s' h
    rw [run_bind, run_tryCatch, h]
  have hcaught : ∀ σ e s', (x σ).run.run s = (.error e, s') →
      ((MonadExcept.tryCatch (x σ) fun _ => pure a : RunM α) >>= fun b => k b σ).run.run s =
        (k a σ).run.run s' := by
    intro σ e s' h
    rw [run_bind, run_tryCatch, h]
    rfl
  rw [Stops]
  rcases hx signal hlast s with hsame | ⟨e, s', i, hrun, hi⟩
  · cases hquiet : (x Signal.quiet).run.run s with
    | mk r s' =>
        rw [hquiet] at hsame
        cases r with
        | ok b =>
            rw [hgiven _ b s' hsame, hgiven _ b s' hquiet]
            exact hsteady b signal hlast s'
        | error e =>
            rw [hcaught _ e s' hsame, hcaught _ e s' hquiet]
            exact hsteady a signal hlast s'
  · rw [hcaught _ e s' hrun]
    exact .inr (hheeds signal hlast s' i hi)

theorem steadfast_look {k : Option Interruption → Signal → RunM α}
    (hset : ∀ i, Heeds (k (some i))) (hunset : Steadfast (k none)) :
    Steadfast fun signal => look signal >>= fun o => k o signal := by
  intro signal hlast s
  cases hs : signal s.moment with
  | some i => exact .inr (heeds_look hset signal hlast s i hs)
  | none =>
      rw [Stops]
      simp only [run_bind, run_look, hs]
      exact hunset signal hlast { s with moment := s.moment + 1 }

theorem steadfast_check : Steadfast check := by
  unfold check
  exact steadfast_look (fun i => heeds_throw i.failure) (steadfast_const _)

/-! ## Programs -/

section Programs

variable {workingDirectory : String} {c : Command} {s : Run}

/-- The command that is run to its end, and how it ends. -/
def ended (response : Response) : Except CommandError Response :=
  if response.exit % 256 = 0 then .ok response
  else .error (.exited { response with exit := response.exit % 256 }
    (.of .commandExecution ("run: exit status " ++ toString (response.exit % 256))))

/-- The state after a call. -/
def called (s : Run) (p : Program) (arguments : List String) : Run :=
  { moment := s.moment + 1, programs := s.programs.record p.name arguments }

theorem run_get (s : Run) : (get : RunM Run).run.run s = (.ok s, s) := rfl

theorem exec_unnamed (hname : c.name = "") (signal : Signal) :
    (exec signal workingDirectory c).run.run s =
      (.ok (.error (.notStarted (.of .emptyCommand "empty command"))), s) := by
  rw [exec, if_pos hname]
  rfl

/-- Without a program, the signal is not looked at. -/
theorem exec_not_found (hname : c.name ≠ "")
    (hfind : s.programs.find? workingDirectory c.name = none) (signal : Signal) :
    (exec signal workingDirectory c).run.run s = (.ok (.error (.notStarted
      (.of .commandNotFound ("command not found: " ++ c.name)))), s) := by
  rw [exec, if_neg hname, run_bind, run_get]
  simp only [hfind]
  rfl

theorem exec_found {p : Program} (hname : c.name ≠ "")
    (hfind : s.programs.find? workingDirectory c.name = some p) (signal : Signal) :
    (exec signal workingDirectory c).run.run s = match signal s.moment with
      | none => (.ok (ended (p.respond c.arguments)), called s p c.arguments)
      | some i => match p.stopped? c.arguments with
        | none => (.ok (.error (.notStarted ((i.failure).under .commandExecution "run"))),
            { s with moment := s.moment + 1 })
        | some printed => (.ok (.error (.exited { printed with exit := -1 }
            (.of .commandExecution "run: signal: killed"))), called s p c.arguments) := by
  rw [exec, if_neg hname, run_bind, run_get]
  simp only [hfind]
  rw [run_bind, run_look]
  cases signal s.moment with
  | none =>
      simp only [ended]
      split <;> rfl
  | some i => cases p.stopped? c.arguments <;> rfl

/-- A program that is stopped is never taken for one that ended well. -/
theorem exec_interrupted {signal : Signal} (hlast : signal.Lasting) (workingDirectory : String)
    (c : Command) (s : Run) :
    (exec signal workingDirectory c).run.run s =
        (exec Signal.quiet workingDirectory c).run.run s ∨
      ∃ e s' i, (exec signal workingDirectory c).run.run s = (.ok (.error e), s') ∧
        signal s'.moment = some i := by
  by_cases hname : c.name = ""
  · rw [exec_unnamed hname, exec_unnamed hname]
    exact .inl rfl
  · cases hfind : s.programs.find? workingDirectory c.name with
    | none =>
        rw [exec_not_found hname hfind, exec_not_found hname hfind]
        exact .inl rfl
    | some p =>
        rw [exec_found hname hfind, exec_found hname hfind]
        cases hs : signal s.moment with
        | none => exact .inl rfl
        | some i =>
            right
            cases p.stopped? c.arguments with
            | none => exact ⟨_, _, i, rfl, hlast _ _ hs⟩
            | some printed => exact ⟨_, _, i, rfl, hlast _ _ hs⟩

end Programs

/-- A call may fail because it was stopped, so after a failed call the signal is looked at. -/
theorem Steadfast.exec {workingDirectory : String} {c : Command}
    {k : Except CommandError Response → Signal → RunM α} (hsteady : ∀ o, Steadfast (k o))
    (hheeds : ∀ e, Heeds (k (.error e))) :
    Steadfast fun signal => RunM.exec signal workingDirectory c >>= fun o => k o signal := by
  intro signal hlast s
  rw [Stops]
  simp only [run_bind]
  rcases exec_interrupted hlast workingDirectory c s with hsame | ⟨e, s', i, hrun, hi⟩
  · rw [hsame]
    rcases (RunM.exec Signal.quiet workingDirectory c).run.run s with ⟨e | o, s'⟩
    · exact .inl rfl
    · exact hsteady o signal hlast s'
  · rw [hrun]
    exact .inr (hheeds e signal hlast s' i hi)

end RunM

open RunM (Steadfast Heeds steadfast_const steadfast_check heeds_check heeds_throw)

/-! ## Searching -/

namespace Searcher

/-- The searches there are. -/
inductive Standard : Searcher → Prop
  | native : Standard native
  | external (c : Command) : Standard (external c)

theorem steadfast_nativeFrom (q : SearchRequest) (paths : List String) :
    Steadfast fun signal => nativeFrom signal q paths := by
  induction paths with
  | nil => exact steadfast_const _
  | cons file rest ih =>
      exact steadfast_check.bind fun _ => ih.bind fun _ => steadfast_const _

theorem steadfast_searchBatch (c : Command) (q : SearchRequest) (paths : List String) :
    Steadfast fun signal => searchBatch signal c q paths := by
  unfold searchBatch
  refine Steadfast.exec (fun outcome => ?_) fun e => heeds_check.bind _
  cases outcome with
  | ok response => exact steadfast_const _
  | error e => exact steadfast_check.bind fun _ => steadfast_const _

theorem steadfast_searchBatches (c : Command) (q : SearchRequest) (bs : List (List String)) :
    Steadfast fun signal => searchBatches signal c q bs := by
  induction bs with
  | nil => exact steadfast_const _
  | cons b rest ih =>
      exact (steadfast_searchBatch c q b).bind fun _ => ih.bind fun _ => steadfast_const _

theorem Standard.steadfast {search : Searcher} (h : search.Standard) (q : SearchRequest) :
    Steadfast fun signal => search signal q := by
  cases h with
  | native => exact steadfast_nativeFrom q q.paths
  | external c => exact steadfast_searchBatches c q _

end Searcher

/-! ## Listing -/

namespace Lister

/-- The listings there are. -/
inductive Standard : Lister → Prop
  | tracked : Standard tracked
  | walk : Standard walk
  | fixed (files : List String) : Standard (fixed files)
  | orElse {first second : Lister} : Standard first → Standard second →
      Standard (orElse first second)

theorem steadfast_collect (vs : List Disk.Visit) :
    Steadfast fun signal => collect signal vs := by
  induction vs with
  | nil => exact steadfast_const _
  | cons v rest ih =>
      exact steadfast_check.bind fun _ => ih.bind fun _ => steadfast_const _

theorem steadfast_printed (d : Disk) : Steadfast fun signal => printed signal d := by
  unfold printed
  exact Steadfast.exec (fun _ => steadfast_const _) fun _ => heeds_throw _

theorem steadfast_tracked (d : Disk) (root : String) :
    Steadfast fun signal => tracked signal d root :=
  (steadfast_printed d).bind fun _ => steadfast_const _

/-- The second way is not taken because the first was interrupted. -/
theorem steadfast_orElse {first second : Lister} {d : Disk} {root : String}
    (hfirst : Steadfast fun signal => first signal d root)
    (hsecond : Steadfast fun signal => second signal d root) :
    Steadfast fun signal => orElse first second signal d root := by
  unfold orElse
  refine Steadfast.recover hfirst (fun found => ?_) (heeds_check.bind _)
  by_cases hfound : (!found.isEmpty) = true
  · simp only [if_pos hfound]
    exact steadfast_const _
  · simp only [if_neg hfound]
    exact steadfast_check.bind fun _ => hsecond

theorem Standard.steadfast {list : Lister} (h : list.Standard) (d : Disk) (root : String) :
    Steadfast fun signal => list signal d root := by
  induction h with
  | tracked => exact steadfast_tracked d root
  | walk =>
      exact (steadfast_collect _).tryCatch (fun _ => steadfast_const _) fun _ => heeds_throw _
  | fixed files => exact steadfast_const _
  | orElse _ _ hfirst hsecond => exact steadfast_orElse hfirst hsecond

end Lister

/-! ## Evaluating -/

namespace Engine

theorem steadfast_failWith {α : Type} (f : Failure) :
    Steadfast fun signal => failWith (α := α) signal f := by
  unfold failWith
  exact RunM.steadfast_look (fun _ => heeds_throw _) (steadfast_const _)

theorem heeds_failWith {α : Type} (f : Failure) :
    Heeds fun signal => failWith (α := α) signal f := by
  unfold failWith
  exact RunM.heeds_look fun _ => heeds_throw _

section Evaluation

variable {e : Engine}

theorem steadfast_listed (hlister : e.lister.Standard) (d : Disk) (files : Option (List String)) :
    Steadfast fun signal => e.listed signal d files := by
  cases files with
  | some files => exact steadfast_const _
  | none =>
      exact (hlister.steadfast d e.root).tryCatch (fun f => steadfast_failWith _)
        fun f => heeds_failWith _

variable (hsearcher : e.searcher.Standard) (read : String → Option Text.Bytes)
  (directory : String)

include hsearcher

/-- A search that was interrupted is not told of as one that cannot be done. -/
theorem steadfast_runTask (paths : List String) (m : Matcher) :
    Steadfast fun signal => runTask e signal read directory paths m := by
  by_cases hpaths : paths.isEmpty = true
  · simp only [runTask, if_pos hpaths]
    exact steadfast_const _
  · simp only [runTask, if_neg hpaths]
    refine Steadfast.tryCatch ?_ (fun f => ?_) fun f => ?_
    · exact (hsearcher.steadfast _).bind fun _ => steadfast_const _
    · exact RunM.steadfast_look (fun _ => heeds_throw f) (steadfast_const _)
    · exact RunM.heeds_look fun _ => heeds_throw f

theorem steadfast_runTasks (paths : List String) (ms : List Matcher) :
    Steadfast fun signal => runTasks e signal read directory paths ms := by
  induction ms with
  | nil => exact steadfast_const _
  | cons m rest ih =>
      exact (steadfast_runTask hsearcher read directory paths m).bind fun _ =>
        ih.bind fun _ => steadfast_const _

theorem steadfast_runPlans (plans : List Plan) :
    Steadfast fun signal => runPlans e signal read directory plans := by
  induction plans with
  | nil => exact steadfast_const _
  | cons p rest ih =>
      exact (steadfast_runTasks hsearcher read directory p.paths p.rule.anyOf).bind fun _ =>
        (steadfast_runTasks hsearcher read directory p.paths p.rule.allOf).bind fun _ =>
          ih.bind fun _ => steadfast_const _

omit read directory in
theorem steadfast_searchAll (d : Disk) (known : List String) (cs : List Rule.Compiled) :
    Steadfast fun signal => e.searchAll signal d known cs := by
  have htasks := steadfast_runPlans hsearcher ((FileReader.make e.root e.maxFileSize).load d)
    d.directory (cs.map (planOf known))
  refine (htasks.tryCatch (fun f => steadfast_failWith f) fun f => heeds_failWith f).bind ?_
  intro searched
  exact RunM.steadfast_look (fun _ => heeds_throw _) (steadfast_const _)

omit read directory in
/-- An evaluation is steadfast. -/
theorem steadfast_evaluate (hlister : e.lister.Standard) (d : Disk) (rules : List Rule)
    (files : Option (List String)) (exclude : List String) :
    Steadfast fun signal => e.evaluate signal d rules files exclude := by
  simp only [evaluate_eq]
  cases GlobSet.ofPatterns exclude with
  | error err => exact steadfast_const _
  | ok globs =>
      cases compileRules rules with
      | error f => exact steadfast_const _
      | ok cs =>
          exact (steadfast_listed hlister d files).bind fun names =>
            steadfast_searchAll hsearcher d (universeOf globs names) cs

end Evaluation

end Engine

end RuleScan
