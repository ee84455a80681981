import RuleScan.Proofs.Engine.Interruption

/-!
# Runs that do not show what was asked before

A program that answers by its arguments gives the same answer however often it was called, so what
a run gives depends neither on the record of calls nor on how often the signal was looked at.  That
is what lets several tasks be done side by side: each of them gives what it gives when it is done
first, or last (`Engine.settled_runTask`).

A step SETTLES on a result if it gives this result from every state whose programs are the same
apart from their records, and leaves such a state.
-/

namespace RuleScan

/-! ## Programs that answer by their arguments -/

namespace Programs

/-- The programs without the record of their calls. -/
def forget (ps : Programs) : Programs :=
  { ps with programs := ps.programs.map fun p => { p with calls := [] } }

/-- Every program answers by its arguments, whatever it was asked before. -/
def Steady (ps : Programs) : Prop :=
  ∀ p ∈ ps.programs, ∀ arguments, (p.answer? arguments).isSome = true

theorem forget_record (ps : Programs) (name : String) (arguments : List String) :
    (ps.record name arguments).forget = ps.forget := by
  simp only [forget, record, List.map_map, mk.injEq, true_and]
  refine List.map_congr_left fun p _ => ?_
  simp only [Function.comp_apply]
  split <;> rfl

theorem find?_forget (ps : Programs) (workingDirectory name : String) :
    ps.forget.find? workingDirectory name =
      (ps.find? workingDirectory name).map fun p => { p with calls := [] } := by
  rw [find?, find?, forget, List.find?_map]
  rfl

/-- Programs that differ only in their records answer alike. -/
theorem Steady.congr {ps qs : Programs} (h : ps.Steady) (hsame : qs.forget = ps.forget) :
    qs.Steady := by
  intro q hq arguments
  have hmem : ({ q with calls := [] } : Program) ∈ ps.forget.programs := by
    rw [← hsame]
    exact List.mem_map_of_mem hq
  obtain ⟨p, hp, hpq⟩ := List.mem_map.mp hmem
  have hanswer : p.answer? = q.answer? := (Program.mk.inj hpq).2.2.2.1
  rw [← hanswer]
  exact h p hp arguments

end Programs

namespace RunM

variable {α β : Type} {ps : Programs}

/-- With programs of which only the records may differ, a step always gives the same. -/
def Settles (ps : Programs) (x : RunM α) (r : Except Failure α) : Prop :=
  ∀ s, s.programs.forget = ps.forget → ∃ s', x.run.run s = (r, s') ∧
    s'.programs.forget = ps.forget

/-- What a step gives does not depend on the calls so far. -/
def Settled (ps : Programs) (x : RunM α) : Prop := ∃ r, Settles ps x r

theorem settles_pure (a : α) : Settles ps (pure a) (.ok a) := fun s hs => ⟨s, rfl, hs⟩

theorem settled_pure (a : α) : Settled ps (pure a) := ⟨_, settles_pure a⟩

theorem settled_throw (f : Failure) : Settled ps (throw f : RunM α) :=
  ⟨.error f, fun s hs => ⟨s, rfl, hs⟩⟩

theorem Settles.bind {x : RunM α} {f : α → RunM β} {a : α} {r : Except Failure β}
    (hx : Settles ps x (.ok a)) (hf : Settles ps (f a) r) : Settles ps (x >>= f) r := by
  intro s hs
  obtain ⟨s', hrun, hs'⟩ := hx s hs
  obtain ⟨s'', hrun', hs''⟩ := hf s' hs'
  refine ⟨s'', ?_, hs''⟩
  rw [run_bind, hrun]
  exact hrun'

theorem Settled.bind {x : RunM α} {f : α → RunM β} (hx : Settled ps x)
    (hf : ∀ a, Settled ps (f a)) : Settled ps (x >>= f) := by
  obtain ⟨r, hx⟩ := hx
  cases r with
  | ok a =>
      obtain ⟨r, hf⟩ := hf a
      exact ⟨r, hx.bind hf⟩
  | error e =>
      refine ⟨.error e, fun s hs => ?_⟩
      obtain ⟨s', hrun, hs'⟩ := hx s hs
      refine ⟨s', ?_, hs'⟩
      rw [run_bind, hrun]

theorem Settled.tryCatch {x : RunM α} {handle : Failure → RunM α} (hx : Settled ps x)
    (hhandle : ∀ f, Settled ps (handle f)) :
    Settled ps (MonadExcept.tryCatch x handle) := by
  obtain ⟨r, hx⟩ := hx
  cases r with
  | ok a =>
      refine ⟨.ok a, fun s hs => ?_⟩
      obtain ⟨s', hrun, hs'⟩ := hx s hs
      refine ⟨s', ?_, hs'⟩
      rw [run_tryCatch, hrun]
  | error e =>
      obtain ⟨r, hthen⟩ := hhandle e
      refine ⟨r, fun s hs => ?_⟩
      obtain ⟨s', hrun, hs'⟩ := hx s hs
      obtain ⟨s'', hrun', hs''⟩ := hthen s' hs'
      refine ⟨s'', ?_, hs''⟩
      rw [run_tryCatch, hrun]
      exact hrun'

theorem settled_look : Settled ps (look Signal.quiet) := ⟨.ok none, fun _ hs => ⟨_, rfl, hs⟩⟩

theorem settled_check : Settled ps (check Signal.quiet) := ⟨.ok (), fun _ hs => ⟨_, rfl, hs⟩⟩

/-- A program that answers by its arguments does not show how often it was called. -/
theorem settled_exec (hps : ps.Steady) (workingDirectory : String) (c : Command) :
    Settled ps (exec Signal.quiet workingDirectory c) := by
  by_cases hname : c.name = ""
  · exact ⟨_, fun s hs => ⟨s, exec_unnamed hname _, hs⟩⟩
  · cases hfind : ps.forget.find? workingDirectory c.name with
    | none =>
        refine ⟨_, fun s hs => ⟨s, exec_not_found hname ?_ _, hs⟩⟩
        rw [← hs, Programs.find?_forget] at hfind
        exact Option.map_eq_none_iff.mp hfind
    | some p =>
        refine ⟨.ok (ended ((p.answer? c.arguments).getD {})), fun s hs => ?_⟩
        rw [← hs, Programs.find?_forget] at hfind
        obtain ⟨q, hq, hqp⟩ := Option.map_eq_some_iff.mp hfind
        have hmem : q ∈ s.programs.programs := List.mem_of_find?_eq_some hq
        obtain ⟨response, hresponse⟩ :=
          Option.isSome_iff_exists.mp (hps.congr hs q hmem c.arguments)
        have hanswer : p.answer? c.arguments = some response := by
          rw [← hqp]
          exact hresponse
        refine ⟨called s q c.arguments, ?_, ?_⟩
        · rw [exec_found hname hq, hanswer, Program.respond, hresponse]
          rfl
        · exact (Programs.forget_record _ _ _).trans hs

end RunM

open RunM (Settles Settled settled_pure settled_throw settled_look settled_check settled_exec)

/-! ## Searching -/

section Searches

variable {ps : Programs}

theorem Searcher.settled_nativeFrom (q : SearchRequest) (paths : List String) :
    Settled ps (nativeFrom Signal.quiet q paths) := by
  induction paths with
  | nil => exact settled_pure _
  | cons file rest ih => exact settled_check.bind fun _ => ih.bind fun _ => settled_pure _

theorem Searcher.settled_searchBatch (hps : ps.Steady) (c : Command) (q : SearchRequest)
    (paths : List String) : Settled ps (searchBatch Signal.quiet c q paths) := by
  refine (settled_exec hps _ _).bind fun outcome => ?_
  cases outcome with
  | ok response => exact settled_pure _
  | error e =>
      refine settled_check.bind fun _ => ?_
      cases e with
      | notStarted f => exact settled_throw _
      | exited response f =>
          dsimp only
          split
          · exact settled_pure _
          · split
            · exact settled_throw _
            · exact settled_pure _

theorem Searcher.settled_searchBatches (hps : ps.Steady) (c : Command) (q : SearchRequest)
    (bs : List (List String)) : Settled ps (searchBatches Signal.quiet c q bs) := by
  induction bs with
  | nil => exact settled_pure _
  | cons b rest ih =>
      exact (settled_searchBatch hps c q b).bind fun _ => ih.bind fun _ => settled_pure _

theorem Searcher.Standard.settled {search : Searcher} (h : search.Standard) (hps : ps.Steady)
    (q : SearchRequest) : Settled ps (search Signal.quiet q) := by
  cases h with
  | native => exact settled_nativeFrom q q.paths
  | external c => exact settled_searchBatches hps c q _

/-! ## Listing -/

theorem Lister.settled_collect (vs : List Disk.Visit) :
    Settled ps (collect Signal.quiet vs) := by
  induction vs with
  | nil => exact settled_pure _
  | cons v rest ih =>
      refine settled_check.bind fun _ => ih.bind fun _ => ?_
      split <;> exact settled_pure _

theorem Lister.settled_printed (hps : ps.Steady) (d : Disk) :
    Settled ps (printed Signal.quiet d) := by
  refine (settled_exec hps _ _).bind fun outcome => ?_
  cases outcome with
  | ok response => exact settled_pure _
  | error e => exact settled_throw _

theorem Lister.Standard.settled {list : Lister} (h : list.Standard) (hps : ps.Steady) (d : Disk)
    (root : String) : Settled ps (list Signal.quiet d root) := by
  induction h with
  | tracked => exact (settled_printed hps d).bind fun _ => settled_pure _
  | walk => exact (settled_collect _).tryCatch fun _ => settled_throw _
  | fixed files => exact settled_pure _
  | orElse _ _ hfirst hsecond =>
      refine (hfirst.tryCatch fun _ => settled_pure _).bind fun found => ?_
      split
      · exact settled_pure _
      · exact settled_check.bind fun _ => hsecond

/-! ## Evaluating -/

namespace Engine

variable {e : Engine}

theorem settled_failWith {α : Type} (f : Failure) :
    Settled ps (failWith (α := α) Signal.quiet f) := by
  refine settled_look.bind fun o => ?_
  cases o <;> exact settled_throw _

theorem settled_listed (hlister : e.lister.Standard) (hps : ps.Steady) (d : Disk)
    (files : Option (List String)) : Settled ps (e.listed Signal.quiet d files) := by
  cases files with
  | some files => exact settled_pure _
  | none => exact (hlister.settled hps d e.root).tryCatch fun _ => settled_failWith _

theorem settled_runTask (hsearcher : e.searcher.Standard) (hps : ps.Steady)
    (read : String → Option Text.Bytes) (directory : String) (paths : List String)
    (m : Matcher) : Settled ps (runTask e Signal.quiet read directory paths m) := by
  rw [runTask]
  split
  · exact settled_pure _
  · refine ((hsearcher.settled hps _).bind fun _ => settled_pure _).tryCatch fun f => ?_
    refine settled_look.bind fun o => ?_
    cases o with
    | some i => exact settled_throw _
    | none =>
        dsimp only
        split
        · exact settled_throw _
        · exact settled_pure _

end Engine

end Searches

end RuleScan
