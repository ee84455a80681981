import RuleScan.Proofs.Engine.Crew
import RuleScan.Proofs.Engine.Places

/-!
# All or nothing

An evaluation that is interrupted gives its whole result or none.

## What is proved

`evaluate_all_or_nothing`, in three parts.

  * Task after task: under every signal that stays set once it is, `Engine.evaluate` gives what it
    gives when nothing interrupts it, or fails as an evaluation.
  * With workers: however the tasks are scheduled and wherever the interruption comes, an evaluation
    ends (`Ends`) with what `Engine.evaluate` gives when nothing interrupts it, or fails as an
    evaluation.  This asks that programs answer by their arguments, for else it would depend on the
    schedule which task gets which answer.
  * The workers can always come to their end.

A result is compared as a whole, so no file is missing from it, no matches of a pattern are cut
short, and no search that was stopped is told of as one that could not be done.

## Why

Whoever catches a failure on the way looks at the signal before going on
(`RuleScan.Proofs.Engine.Interruption`), so a listing or a search that was cut short never comes to
be used.
-/

namespace RuleScan.Engine

/-! ## Failures of evaluations -/

theorem has_failed (f : Failure) : (failed f).has .evaluation = true := by
  simp [failed, Failure.under, Failure.has]

/-- A failure that says it is one of an evaluation. -/
def IsOfEvaluation (f : Failure) : Prop := f.has .evaluation = true

theorem fails_failWith {α : Type} (signal : Signal) (f : Failure) :
    (failWith (α := α) signal f).Fails IsOfEvaluation := by
  refine (RunM.fails_look signal).bind fun o => ?_
  cases o <;> exact RunM.fails_throw (has_failed _)

theorem fails_listed (e : Engine) (signal : Signal) (d : Disk) (files : Option (List String)) :
    (e.listed signal d files).Fails IsOfEvaluation := by
  cases files with
  | some files => exact RunM.fails_pure _
  | none => exact (RunM.fails_true _).tryCatch fun f _ => fails_failWith signal _

theorem has_of_compileRules {rules : List Rule} {f : Failure} (h : compileRules rules = .error f) :
    f.has .evaluation = true := by
  induction rules with
  | nil => cases h
  | cons r rest ih =>
      rw [compileRules] at h
      split at h
      · cases h
        exact has_failed _
      · cases hrest : compileRules rest with
        | error f' =>
            rw [hrest] at h
            cases h
            exact ih hrest
        | ok cs =>
            rw [hrest] at h
            cases h

/-- Every failure of an evaluation says that it is one. -/
theorem fails_evaluate (e : Engine) (signal : Signal) (d : Disk) (rules : List Rule)
    (files : Option (List String)) (exclude : List String) :
    (e.evaluate signal d rules files exclude).Fails IsOfEvaluation := by
  rw [evaluate_eq]
  split
  · exact RunM.fails_throw (has_failed _)
  · split
    · next f hf => exact RunM.fails_throw (has_of_compileRules hf)
    · refine (fails_listed e signal d files).bind fun names => ?_
      refine ((RunM.fails_true _).tryCatch fun f _ => fails_failWith signal f).bind fun _ => ?_
      refine (RunM.fails_look signal).bind fun o => ?_
      cases o with
      | some i => exact RunM.fails_throw (has_failed _)
      | none => exact RunM.fails_pure _

/-! ## All or nothing -/

section Ends

variable (e : Engine) (d : Disk) (rules : List Rule) (files : Option (List String))
  (exclude : List String) (s : Run)

/-- How an evaluation can end whose tasks are done by workers and which may be interrupted. -/
inductive Ends : Except Failure Evaluation → Prop
  | globs {err : GlobSet.Error} : GlobSet.ofPatterns exclude = .error err →
      Ends (.error (failed (err.failure.during "exclude")))
  | rules {globs : GlobSet} {f : Failure} : GlobSet.ofPatterns exclude = .ok globs →
      compileRules rules = .error f → Ends (.error f)
  | unlisted {globs : GlobSet} {cs : List Rule.Compiled} {signal : Signal} {f : Failure}
      {s' : Run} : GlobSet.ofPatterns exclude = .ok globs → compileRules rules = .ok cs →
      signal.Lasting → (e.listed signal d files).run.run s = (.error f, s') → Ends (.error f)
  | searched {globs : GlobSet} {cs : List Rule.Compiled} {signal : Signal} {names : List String}
      {s' : Run} {w : Work} {c : Crew} : GlobSet.ofPatterns exclude = .ok globs →
      compileRules rules = .ok cs → signal.Lasting →
      (e.listed signal d files).Yields s names s' →
      w = ⟨e, d, cs.map (planOf (universeOf globs names)), s'.programs⟩ →
      Crew.Reachable w (signal s'.moment) c → c.Complete w →
      Ends (c.result w (universeOf globs names))

/-- The whole result of an uninterrupted evaluation, or none and a failure. -/
def AllOrNothing (r : Except Failure Evaluation) : Prop :=
  (∃ result s', r = .ok result ∧
    (e.evaluate Signal.quiet d rules files exclude).Yields s result s') ∨
  ∃ f, r = .error f ∧ f.has .evaluation = true

end Ends

section Evaluations

variable {e : Engine} {d : Disk} {rules : List Rule} {files : Option (List String)}
  {exclude : List String} {s : Run}

/-- What a crew gives is the whole result or a failure. -/
theorem allOrNothing_of_crew (hsearcher : e.searcher.Standard) (hlister : e.lister.Standard)
    (hps : s.programs.Steady) {globs : GlobSet} {cs : List Rule.Compiled} {signal : Signal}
    {names : List String} {s' : Run} {w : Work} {c : Crew}
    (hglobs : GlobSet.ofPatterns exclude = .ok globs) (hrules : compileRules rules = .ok cs)
    (hlast : signal.Lasting) (hlisted : (e.listed signal d files).Yields s names s')
    (hw : w = ⟨e, d, cs.map (planOf (universeOf globs names)), s'.programs⟩)
    (hreach : Crew.Reachable w (signal s'.moment) c) (hcomplete : c.Complete w) :
    AllOrNothing e d rules files exclude s (c.result w (universeOf globs names)) := by
  rw [Crew.result]
  split
  · exact .inr ⟨_, rfl, has_failed _⟩
  · exact .inr ⟨_, rfl, has_failed _⟩
  · next hfailure =>
      left
      -- The listing was not cut short, or it would have failed.
      have hquiet : (e.listed Signal.quiet d files).Yields s names s' := by
        rcases steadfast_listed hlister d files signal hlast s with hsame | ⟨f, s₁, i, hrun, -⟩
        · exact hsame.symm.trans hlisted
        · rw [RunM.Yields, hrun] at hlisted
          cases hlisted
      obtain ⟨r, hr⟩ := settled_listed hlister hps d files
      obtain ⟨s₁, hrun, hs₁⟩ := hr s rfl
      obtain rfl : s' = s₁ := congrArg Prod.snd (Eq.trans (Eq.symm hquiet) hrun)
      subst hw
      obtain ⟨s₂, htasks, -⟩ := (hreach.sound hsearcher).settles hsearcher (hps.congr hs₁)
        hcomplete hfailure s' rfl
      refine ⟨_, { s₂ with moment := s₂.moment + 1 }, rfl, ?_⟩
      simp only [evaluate_eq, hglobs, hrules]
      have htasks' : RunM.Yields _ s' _ s₂ := htasks
      exact hquiet.bind (htasks'.tryCatch.bind
        ((RunM.yields_look_quiet s₂).bind (RunM.Yields.pure _ _)))

/-- **All or nothing.**  Wherever an evaluation is interrupted and however its tasks are scheduled,
it gives its whole result, or none and a failure that says it is one of an evaluation. -/
theorem evaluate_all_or_nothing (hsearcher : e.searcher.Standard) (hlister : e.lister.Standard)
    (d : Disk) (rules : List Rule) (files : Option (List String)) (exclude : List String)
    (s : Run) :
    (∀ signal, signal.Lasting → ∀ r s',
      (e.evaluate signal d rules files exclude).run.run s = (r, s') →
        AllOrNothing e d rules files exclude s r) ∧
    (s.programs.Steady →
      ∀ r, Ends e d rules files exclude s r → AllOrNothing e d rules files exclude s r) ∧
    ∀ (w : Work) (c : Crew), ∃ c', Relation.ReflTransGen (Crew.Step w) c c' ∧ c'.Complete w := by
  refine ⟨?_, ?_, Crew.exists_complete⟩
  · intro signal hlast r s' hrun
    cases r with
    | error f => exact .inr ⟨f, rfl, fails_evaluate e signal d rules files exclude s f s' hrun⟩
    | ok result =>
        rcases steadfast_evaluate hsearcher hlister d rules files exclude signal hlast s with
          hsame | ⟨f, s₁, i, hstop, -⟩
        · exact .inl ⟨result, s', rfl, hsame.symm.trans hrun⟩
        · rw [hstop] at hrun
          cases hrun
  · intro hps r hends
    cases hends with
    | globs _ => exact .inr ⟨_, rfl, has_failed _⟩
    | rules _ hf => exact .inr ⟨_, rfl, has_of_compileRules hf⟩
    | @unlisted _ _ signal f s' _ _ _ hrun =>
        exact .inr ⟨f, rfl, fails_listed e signal d files s f s' hrun⟩
    | searched hglobs hrules hlast hlisted hw hreach hcomplete =>
        exact allOrNothing_of_crew hsearcher hlister hps hglobs hrules hlast hlisted hw hreach
          hcomplete

end Evaluations

/-! ## A program that is stopped in the middle

The program has printed a line when it is stopped.  That line does not make a result. -/

/-- An evaluation that is interrupted before it starts does not end well. -/
theorem not_yields_stopped {e : Engine} {i : Interruption} {d : Disk} {rules : List Rule}
    {files : Option (List String)} {exclude : List String} {result : Evaluation} {s s' : Run} :
    ¬ (e.evaluate (Signal.stopped i) d rules files exclude).Yields s result s' := by
  intro h
  obtain ⟨cs, -, known, s₁, h⟩ := searchAll_of_yields h
  obtain ⟨searched, s₂, -, h⟩ := h.of_bind
  obtain ⟨o, s₃, hlook, h⟩ := h.of_bind
  have hset : (RunM.look (Signal.stopped i)).Yields s₂ (some i)
      { s₂ with moment := s₂.moment + 1 } := rfl
  rw [(hlook.unique hset).1] at h
  cases h

/-- The search with a program. -/
def programEngine : Engine := { marker := "!", searcher := Searcher.external { name := "rg" } }

/-- A program that finds nothing, but prints a line before it could know. -/
def hastyRun : Run :=
  { programs :=
      { programs :=
          [{ name := "rg"
             answer? := fun _ => some { exit := 1 }
             stopped? := fun _ => some { stdout := [102, 0, 49, 58, 49, 58, 97, 10] } }] } }

theorem evaluate_all_or_nothing_sample :
    (∃ f s', (programEngine.evaluate (Signal.stopped .canceled) sampleDisk [sampleRule]
      (some ["f"]) []).run.run hastyRun = (.error f, s') ∧ f.has .evaluation = true) ∧
    ∃ r, Ends programEngine sampleDisk [sampleRule] (some ["f"]) [] hastyRun r ∧
      AllOrNothing programEngine sampleDisk [sampleRule] (some ["f"]) [] hastyRun r := by
  obtain ⟨hone, hcrew, hend⟩ := evaluate_all_or_nothing (e := programEngine)
    (.external { name := "rg" }) (.orElse .tracked .walk) sampleDisk [sampleRule] (some ["f"]) []
    hastyRun
  constructor
  · obtain ⟨r, s', hrun⟩ : ∃ r s', (programEngine.evaluate (Signal.stopped .canceled) sampleDisk
        [sampleRule] (some ["f"]) []).run.run hastyRun = (r, s') := ⟨_, _, rfl⟩
    rcases hone (Signal.stopped .canceled) (fun _ _ h => h) r s' hrun with
      ⟨result, -, rfl, -⟩ | ⟨f, rfl, hf⟩
    · exact absurd hrun not_yields_stopped
    · exact ⟨f, s', hrun, hf⟩
  · obtain ⟨c, hc⟩ := sampleRule_compiles sampleRule (List.mem_singleton_self _)
    have hcs : compileRules [sampleRule] = .ok [c] := by
      rw [compileRules, hc]
      rfl
    obtain ⟨crew, hsteps, hcomplete⟩ := hend
      ⟨programEngine, sampleDisk, [c].map (planOf (universeOf [] ["f"])), hastyRun.programs⟩
      (Crew.start none)
    have hlisted : (programEngine.listed Signal.quiet sampleDisk (some ["f"])).Yields hastyRun
        ["f"] hastyRun := rfl
    have hends := Ends.searched (show GlobSet.ofPatterns [] = .ok [] from rfl) hcs
      (fun _ _ h => by cases h) hlisted rfl hsteps hcomplete
    refine ⟨_, hends, hcrew ?_ _ hends⟩
    intro p hp arguments
    rw [List.mem_singleton.mp hp]
    rfl

end RuleScan.Engine
