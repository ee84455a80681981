import RuleScan.Proofs.Engine.Interruption

/-!
# What evaluations fail with

A failure that SPARES THE INPUT finds no fault with a rule or a glob.  Every step of an evaluation
that comes after the rules and the globs were made ready fails with nothing else, interrupted or
not: a call of a program (`RunM.exists_exec`), the standard searches and listings
(`Searcher.Standard.fails`, `Lister.Standard.fails`), and so the whole
(`Engine.spares_evaluate`).
-/

namespace RuleScan

/-- A failure that finds no fault with a rule or a glob. -/
def Failure.SparesInput (f : Failure) : Prop :=
  f.has .invalidRule = false ∧ f.has .invalidGlob = false

namespace Failure

theorem SparesInput.during {f : Failure} (h : f.SparesInput) (activity : String) :
    (f.during activity).SparesInput := h

theorem SparesInput.under {f : Failure} (h : f.SparesInput) {cause : Cause}
    (hrule : cause ≠ .invalidRule) (hglob : cause ≠ .invalidGlob) (text : String) :
    (f.under cause text).SparesInput := by
  simpa [SparesInput, has, Failure.under, hrule.symm, hglob.symm] using h

theorem sparesInput_of {cause : Cause} (hrule : cause ≠ .invalidRule)
    (hglob : cause ≠ .invalidGlob) (message : String) : (of cause message).SparesInput := by
  simp [SparesInput, has, of, hrule.symm, hglob.symm]

end Failure

theorem Interruption.sparesInput (i : Interruption) : i.failure.SparesInput := by
  cases i <;> exact Failure.sparesInput_of (by decide) (by decide) _

namespace RunM

open Failure (SparesInput sparesInput_of)

theorem fails_check (signal : Signal) : (check signal).Fails SparesInput := by
  refine (fails_look signal).bind fun o => ?_
  cases o with
  | none => exact fails_pure _
  | some i => exact fails_throw i.sparesInput

/-- A call always comes to an end, and the failure behind it is about the call. -/
theorem exists_exec (signal : Signal) (workingDirectory : String) (c : Command) (s : Run) :
    ∃ o s', (exec signal workingDirectory c).Yields s o s' ∧
      ∀ e, o = .error e → e.failure.SparesInput := by
  by_cases hname : c.name = ""
  · refine ⟨_, _, exec_unnamed hname signal, ?_⟩
    rintro e ⟨⟩
    exact sparesInput_of (by decide) (by decide) _
  · cases hfind : s.programs.find? workingDirectory c.name with
    | none =>
        refine ⟨_, _, exec_not_found hname hfind signal, ?_⟩
        rintro e ⟨⟩
        exact sparesInput_of (by decide) (by decide) _
    | some p =>
        simp only [Yields, exec_found hname hfind]
        split
        · refine ⟨_, _, rfl, fun e he => ?_⟩
          rw [ended] at he
          split at he
          · cases he
          · cases he
            exact sparesInput_of (by decide) (by decide) _
        · next i _ =>
            split
            · refine ⟨_, _, rfl, ?_⟩
              rintro e ⟨⟩
              exact i.sparesInput.under (by decide) (by decide) _
            · refine ⟨_, _, rfl, ?_⟩
              rintro e ⟨⟩
              exact sparesInput_of (by decide) (by decide) _

theorem fails_exec (signal : Signal) (workingDirectory : String) (c : Command) :
    (exec signal workingDirectory c).Fails SparesInput := by
  intro s f s' h
  obtain ⟨o, s₁, hrun, -⟩ := exists_exec signal workingDirectory c s
  rw [hrun] at h
  cases h

theorem sparesInput_of_exec {signal : Signal} {workingDirectory : String} {c : Command}
    {s s' : Run} {e : CommandError}
    (h : (exec signal workingDirectory c).Yields s (.error e) s') : e.failure.SparesInput := by
  obtain ⟨o, s₁, hrun, hspares⟩ := exists_exec signal workingDirectory c s
  exact hspares e (hrun.unique h).1

end RunM

open Failure (SparesInput)

namespace Searcher

theorem fails_nativeFrom (signal : Signal) (q : SearchRequest) (paths : List String) :
    (nativeFrom signal q paths).Fails SparesInput := by
  induction paths with
  | nil => exact RunM.fails_pure _
  | cons file rest ih =>
      exact (RunM.fails_check signal).bind fun _ => ih.bind fun _ => RunM.fails_pure _

theorem sparesInput_unavailable {f : Failure} (h : f.SparesInput) :
    (unavailable f).SparesInput :=
  h.under (by decide) (by decide) _

theorem fails_searchBatch (signal : Signal) (c : Command) (q : SearchRequest)
    (paths : List String) : (searchBatch signal c q paths).Fails SparesInput := by
  refine (RunM.fails_exec signal _ _).bind_of fun s outcome s' houtcome => ?_
  cases outcome with
  | ok response => exact RunM.fails_pure _
  | error e =>
      have hspares := RunM.sparesInput_of_exec houtcome
      refine (RunM.fails_check signal).bind fun _ => ?_
      cases e with
      | notStarted f => exact RunM.fails_throw (sparesInput_unavailable hspares)
      | exited response f =>
          dsimp only
          split
          · exact RunM.fails_pure _
          · split
            · exact RunM.fails_throw (sparesInput_unavailable hspares)
            · exact RunM.fails_pure _

theorem fails_searchBatches (signal : Signal) (c : Command) (q : SearchRequest)
    (bs : List (List String)) : (searchBatches signal c q bs).Fails SparesInput := by
  induction bs with
  | nil => exact RunM.fails_pure _
  | cons b rest ih =>
      exact (fails_searchBatch signal c q b).bind fun _ => ih.bind fun _ => RunM.fails_pure _

theorem Standard.fails {search : Searcher} (h : search.Standard) (signal : Signal)
    (q : SearchRequest) : (search signal q).Fails SparesInput := by
  cases h with
  | native => exact fails_nativeFrom signal q q.paths
  | external c => exact fails_searchBatches signal c q _

end Searcher

namespace Lister

theorem fails_collect (signal : Signal) (vs : List Disk.Visit) :
    (collect signal vs).Fails SparesInput := by
  induction vs with
  | nil => exact RunM.fails_pure _
  | cons v rest ih =>
      refine (RunM.fails_check signal).bind fun _ => ih.bind fun _ => ?_
      split <;> exact RunM.fails_pure _

theorem fails_printed (signal : Signal) (d : Disk) : (printed signal d).Fails SparesInput := by
  refine (RunM.fails_exec signal _ _).bind_of fun s outcome s' houtcome => ?_
  cases outcome with
  | ok response => exact RunM.fails_pure _
  | error e => exact RunM.fails_throw ((RunM.sparesInput_of_exec houtcome).during _)

theorem Standard.fails {list : Lister} (h : list.Standard) (signal : Signal) (d : Disk)
    (root : String) : (list signal d root).Fails SparesInput := by
  induction h with
  | tracked => exact (fails_printed signal d).bind fun _ => RunM.fails_pure _
  | walk =>
      exact (fails_collect signal _).tryCatch fun f hf => RunM.fails_throw (hf.during _)
  | fixed files => exact RunM.fails_pure _
  | orElse _ _ hfirst hsecond =>
      refine (hfirst.tryCatch fun _ _ => RunM.fails_pure _).bind fun found => ?_
      split
      · exact RunM.fails_pure _
      · exact (RunM.fails_check signal).bind fun _ => hsecond

end Lister

namespace Engine

variable {e : Engine}

theorem sparesInput_failed {f : Failure} (h : f.SparesInput) : (failed f).SparesInput :=
  h.under (by decide) (by decide) _

theorem spares_failWith {α : Type} (signal : Signal) {f : Failure} (h : f.SparesInput) :
    (failWith (α := α) signal f).Fails SparesInput := by
  refine (RunM.fails_look signal).bind fun o => ?_
  cases o with
  | some i => exact RunM.fails_throw (sparesInput_failed i.sparesInput)
  | none => exact RunM.fails_throw (sparesInput_failed h)

theorem spares_listed (hlister : e.lister.Standard) (signal : Signal) (d : Disk)
    (files : Option (List String)) : (e.listed signal d files).Fails SparesInput := by
  cases files with
  | some files => exact RunM.fails_pure _
  | none =>
      exact (hlister.fails signal d e.root).tryCatch fun f hf =>
        spares_failWith signal (hf.during _)

section Tasks

variable (hsearcher : e.searcher.Standard) (signal : Signal)

include hsearcher

theorem spares_runTask (read : String → Option Text.Bytes) (directory : String)
    (paths : List String) (m : Matcher) :
    (runTask e signal read directory paths m).Fails SparesInput := by
  rw [runTask]
  split
  · exact RunM.fails_pure _
  · refine ((hsearcher.fails signal _).bind fun _ => RunM.fails_pure _).tryCatch fun f hf => ?_
    refine (RunM.fails_look signal).bind fun o => ?_
    cases o with
    | some i => exact RunM.fails_throw hf
    | none =>
        dsimp only
        split
        · exact RunM.fails_throw hf
        · exact RunM.fails_pure _

theorem spares_runTasks (read : String → Option Text.Bytes) (directory : String)
    (paths : List String) (ms : List Matcher) :
    (runTasks e signal read directory paths ms).Fails SparesInput := by
  induction ms with
  | nil => exact RunM.fails_pure _
  | cons m rest ih =>
      exact (spares_runTask hsearcher signal read directory paths m).bind fun _ =>
        ih.bind fun _ => RunM.fails_pure _

theorem spares_runPlans (read : String → Option Text.Bytes) (directory : String)
    (plans : List Plan) : (runPlans e signal read directory plans).Fails SparesInput := by
  induction plans with
  | nil => exact RunM.fails_pure _
  | cons p rest ih =>
      exact (spares_runTasks hsearcher signal read directory p.paths p.rule.anyOf).bind fun _ =>
        (spares_runTasks hsearcher signal read directory p.paths p.rule.allOf).bind fun _ =>
          ih.bind fun _ => RunM.fails_pure _

/-- With rules and globs that make sense, an evaluation does not fail because of them. -/
theorem spares_evaluate (hlister : e.lister.Standard) (d : Disk) {rules : List Rule}
    (hrules : ∀ r ∈ rules, ∃ c, r.compile = .ok c) (files : Option (List String))
    {exclude : List String} {globs : GlobSet} (hglobs : GlobSet.ofPatterns exclude = .ok globs) :
    (e.evaluate signal d rules files exclude).Fails SparesInput := by
  obtain ⟨cs, hcs, -, -⟩ := compileRules_eq_ok hrules
  simp only [evaluate_eq, hglobs, hcs]
  refine (spares_listed hlister signal d files).bind fun names => ?_
  refine ((spares_runPlans hsearcher signal _ _ _).tryCatch fun f hf =>
    spares_failWith signal hf).bind fun searched => ?_
  refine (RunM.fails_look signal).bind fun o => ?_
  cases o with
  | some i => exact RunM.fails_throw (sparesInput_failed i.sparesInput)
  | none => exact RunM.fails_pure _

end Tasks

end Engine

end RuleScan
