import RuleScan.Proofs.Engine.Returns

/-!
# Evaluations without a program

What `Engine.evaluate` computes, said without the monad.  Every step of a run that nothing
interrupts ends well as soon as its tasks do (`yields_evaluate`), and the tasks of the native
search always do: a task gives the matches of its matcher file by file (`returns_runTask`), so an
evaluation over given files returns `conclude` of a `Searched` that is a plain function of the
rules, the universe and the reader (`returns_evaluate`).  `mem_universeOf` says which names the
universe of an evaluation holds.
-/

namespace RuleScan

open RuleScan.Text (Bytes)
open RunM (Yields Returns)

/-! ## Rules made ready -/

namespace Rule

/-- What is known of a rule made ready: the rule it came from, its scope, and its matchers. -/
theorem compile_inv {r : Rule} {c : Compiled} (h : r.compile = .ok c) :
    c.rule = r ∧ Scope.compile r.scope = .ok c.scope ∧
      r.spec.anyPatterns.mapM Pattern.compile = .ok c.anyOf ∧
      r.spec.allPatterns.mapM Pattern.compile = .ok c.allOf := by
  rw [compile] at h
  split at h
  · split at h
    · next scope anyOf allOf hscope hany hall =>
        cases h
        exact ⟨rfl, hscope, hany, hall⟩
    · cases h
  · cases h

end Rule

/-! ## A step for every element -/

section MapM

variable {α β ε : Type} {f : α → Except ε β}

theorem mapM_cons_inv {a : α} {l : List α} {l' : List β} (h : (a :: l).mapM f = .ok l') :
    ∃ b bs, f a = .ok b ∧ l.mapM f = .ok bs ∧ l' = b :: bs := by
  rw [List.mapM_cons] at h
  cases ha : f a with
  | error e => rw [ha] at h; cases h
  | ok b =>
      rw [ha] at h
      cases hl : l.mapM f with
      | error e => rw [hl] at h; cases h
      | ok bs =>
          rw [hl] at h
          cases h
          exact ⟨b, bs, rfl, rfl, rfl⟩

theorem mem_of_mapM_ok {l : List α} {l' : List β} (h : l.mapM f = .ok l') {b : β} :
    b ∈ l' ↔ ∃ a ∈ l, f a = .ok b := by
  induction l generalizing l' with
  | nil =>
      cases h
      simp
  | cons a l ih =>
      obtain ⟨x, xs, ha, hl, rfl⟩ := mapM_cons_inv h
      simp [ha, ih hl, eq_comm]

theorem eq_nil_of_mapM_ok {l : List α} {l' : List β} (h : l.mapM f = .ok l') :
    l' = [] ↔ l = [] := by
  cases l with
  | nil =>
      cases h
      simp
  | cons a l =>
      obtain ⟨x, xs, -, -, rfl⟩ := mapM_cons_inv h
      simp

/-- A step that succeeds on all elements together succeeds on each. -/
theorem exists_of_mapM_ok {l : List α} {l' : List β} (h : l.mapM f = .ok l') {a : α}
    (ha : a ∈ l) : ∃ b ∈ l', f a = .ok b := by
  induction l generalizing l' with
  | nil => cases ha
  | cons x l ih =>
      obtain ⟨b, bs, hx, hl, rfl⟩ := mapM_cons_inv h
      rcases List.mem_cons.mp ha with rfl | ha
      · exact ⟨b, List.mem_cons_self, hx⟩
      · obtain ⟨b', hb', hfa⟩ := ih hl ha
        exact ⟨b', List.mem_cons_of_mem _ hb', hfa⟩

end MapM

/-! ## The universe -/

theorem mem_dropAdjacent {x : String} {l : List String} : x ∈ dropAdjacent l ↔ x ∈ l := by
  fun_induction dropAdjacent l with
  | case1 a rest ih =>
      rw [ih, List.mem_cons, List.mem_cons]
      simp
  | case2 a b rest hab ih => rw [List.mem_cons, ih, ← List.mem_cons]
  | case3 short _ => exact Iff.rfl

/-- The names that are considered are those of the given paths. -/
theorem mem_universeOf {globs : GlobSet} {files : List String} {name : String} :
    name ∈ universeOf globs files ↔ ∃ f ∈ files, universePath? globs f = some name := by
  rw [universeOf, mem_dropAdjacent, List.mem_mergeSort, List.mem_filterMap]

theorem universeOf_singleton (globs : GlobSet) (f : String) :
    universeOf globs [f] = (universePath? globs f).toList := by
  rw [universeOf]
  cases h : universePath? globs f <;> simp [h, dropAdjacent]

namespace Engine

/-- Rules are made ready one by one. -/
theorem compileRules_eq_ok {rules : List Rule} (h : ∀ r ∈ rules, ∃ c, r.compile = .ok c) :
    ∃ cs, compileRules rules = .ok cs ∧ cs.map (·.rule) = rules ∧
      ∀ c ∈ cs, c.rule.compile = .ok c := by
  induction rules with
  | nil => exact ⟨[], rfl, rfl, by simp⟩
  | cons r rest ih =>
      obtain ⟨c, hc⟩ := h r List.mem_cons_self
      obtain ⟨cs, hcs, hrules, hall⟩ := ih fun r' hr' => h r' (List.mem_cons_of_mem _ hr')
      have hr : c.rule = r := (Rule.compile_inv hc).1
      refine ⟨c :: cs, ?_, by simp [hr, hrules], ?_⟩
      · rw [compileRules, hc, hcs]
        rfl
      · intro c' hc'
        rcases List.mem_cons.mp hc' with rfl | hc'
        · rw [hr, hc]
        · exact hall c' hc'

/-- Rules that were made ready together were made ready one by one. -/
theorem compileRules_inv {rules : List Rule} {cs : List Rule.Compiled}
    (h : compileRules rules = .ok cs) :
    cs.map (·.rule) = rules ∧ ∀ c ∈ cs, c.rule.compile = .ok c := by
  have hrules : ∀ r ∈ rules, ∃ c, r.compile = .ok c := by
    induction rules generalizing cs with
    | nil => simp
    | cons r rest ih =>
        rw [compileRules] at h
        cases hr : r.compile with
        | error e =>
            rw [hr] at h
            cases h
        | ok c =>
            cases hrest : compileRules rest with
            | error f =>
                rw [hr, hrest] at h
                cases h
            | ok cs' => exact List.forall_mem_cons.mpr ⟨⟨c, hr⟩, ih hrest⟩
  obtain ⟨cs', hcs', hmap, hcompiled⟩ := compileRules_eq_ok hrules
  obtain rfl : cs = cs' := Except.ok.inj (h.symm.trans hcs')
  exact ⟨hmap, hcompiled⟩

/-! ## The shape of an evaluation -/

/-- The files an evaluation starts from: the given ones, or those that are listed. -/
def listed (e : Engine) (signal : Signal) (d : Disk) : Option (List String) → RunM (List String)
  | some files => pure files
  | none => tryCatch (e.lister signal d e.root) fun f => failWith signal (f.during "list files")

/-- The second half of an evaluation: every task is done, and then the result is drawn. -/
def searchAll (e : Engine) (signal : Signal) (d : Disk) (known : List String)
    (cs : List Rule.Compiled) : RunM Evaluation := do
  let searched ← tryCatch (runPlans e signal ((FileReader.make e.root e.maxFileSize).load d)
    d.directory (cs.map (planOf known))) (failWith signal)
  match ← RunM.look signal with
  | some i => throw (failed i.failure)
  | none => return conclude e.effectiveMarker known searched

/-- What can be refused is refused first; then the files are listed and searched. -/
theorem evaluate_eq (e : Engine) (signal : Signal) (d : Disk) (rules : List Rule)
    (files : Option (List String)) (exclude : List String) :
    e.evaluate signal d rules files exclude = match GlobSet.ofPatterns exclude with
      | .error err => throw (failed (err.failure.during "exclude"))
      | .ok globs => match compileRules rules with
        | .error f => throw f
        | .ok cs => e.listed signal d files >>= fun names =>
          e.searchAll signal d (universeOf globs names) cs := by
  rw [evaluate]
  cases GlobSet.ofPatterns exclude with
  | error err => rfl
  | ok globs =>
      cases compileRules rules with
      | error f => rfl
      | ok cs => cases files <;> rfl

/-- An evaluation that ends well had rules that make sense and searched some files. -/
theorem searchAll_of_yields {e : Engine} {signal : Signal} {d : Disk} {rules : List Rule}
    {files : Option (List String)} {exclude : List String} {result : Evaluation} {s s' : Run}
    (h : (e.evaluate signal d rules files exclude).Yields s result s') :
    ∃ cs, compileRules rules = .ok cs ∧ ∃ known s₁,
      (e.searchAll signal d known cs).Yields s₁ result s' := by
  rw [evaluate_eq] at h
  split at h
  · cases h
  · split at h
    · cases h
    · next cs hcs =>
        obtain ⟨names, s₁, -, h⟩ := h.of_bind
        exact ⟨cs, hcs, _, s₁, h⟩

/-- An evaluation over given files concludes from what its tasks have found. -/
theorem yields_evaluate {e : Engine} {d : Disk} {rules : List Rule} {files exclude : List String}
    {globs : GlobSet} {cs : List Rule.Compiled} {searched : List Searched} {s s' : Run}
    (hglobs : GlobSet.ofPatterns exclude = .ok globs) (hrules : compileRules rules = .ok cs)
    (htasks : (runPlans e Signal.quiet ((FileReader.make e.root e.maxFileSize).load d) d.directory
      (cs.map (planOf (universeOf globs files)))).Yields s searched s') :
    (e.evaluate Signal.quiet d rules (some files) exclude).Yields s
      (conclude e.effectiveMarker (universeOf globs files) searched)
      { s' with moment := s'.moment + 1 } := by
  simp only [evaluate, hglobs, hrules]
  refine (Yields.pure globs s).bind ((Yields.pure cs s).bind ((Yields.pure files s).bind ?_))
  exact htasks.tryCatch.bind ((RunM.yields_look_quiet s').bind (Yields.pure _ _))

/-! ## Tasks of the native search -/

/-- The matches of a matcher in a file; a file that may not be searched has none. -/
def matchesIn (read : String → Option Bytes) (m : Matcher) (file : String) : List Match :=
  match read file with
  | some content => searchContent file m content
  | none => []

theorem returns_nativeFrom (q : SearchRequest) (paths : List String) :
    (Searcher.nativeFrom Signal.quiet q paths).Returns
      (paths.flatMap (matchesIn q.read q.matcher)) := by
  induction paths with
  | nil => exact Returns.pure []
  | cons file rest ih => exact RunM.returns_check_quiet.bind (ih.bind (Returns.pure _))

theorem returns_native (q : SearchRequest) :
    (Searcher.native Signal.quiet q).Returns (q.paths.flatMap (matchesIn q.read q.matcher)) :=
  returns_nativeFrom q q.paths

/-- The outcome of a task of the native search. -/
def nativeOutcome (read : String → Option Bytes) (paths : List String) (m : Matcher) : Outcome :=
  .ok (paths.flatMap (matchesIn read m))

/-- A plan whose tasks were done by the native search. -/
def nativeSearched (read : String → Option Bytes) (p : Plan) : Searched where
  rule := p.rule
  anyOf := p.rule.anyOf.map fun m => (m, nativeOutcome read p.paths m)
  allOf := p.rule.allOf.map fun m => (m, nativeOutcome read p.paths m)

/-- The unmarked matches of a matcher in some files. -/
def nativeUnmarked (marker : String) (read : String → Option Bytes) (paths : List String)
    (m : Matcher) : List Match :=
  unmarked marker (paths.flatMap (matchesIn read m))

theorem anyFindings_native (marker : String) (read : String → Option Bytes) (p : Plan) :
    anyFindings marker (nativeSearched read p) = p.rule.anyOf.flatMap fun m =>
      (nativeUnmarked marker read p.paths m).map
        (Finding.ofMatch p.rule.rule m.pattern.confidence) := by
  rw [anyFindings, nativeSearched, List.flatMap_map]
  rfl

theorem allMatches_native (marker : String) (read : String → Option Bytes) (p : Plan) :
    allMatches marker (nativeSearched read p) =
      p.rule.allOf.map (nativeUnmarked marker read p.paths) := by
  rw [allMatches, nativeSearched, List.map_map]
  rfl

section Native

variable {e : Engine} (hnative : e.searcher = Searcher.native) (read : String → Option Bytes)
  (directory : String)

include hnative

theorem returns_runTask (paths : List String) (m : Matcher) :
    (runTask e Signal.quiet read directory paths m).Returns (nativeOutcome read paths m) := by
  rw [runTask, hnative]
  cases paths with
  | nil => exact Returns.pure _
  | cons file rest =>
      have hsearch := returns_native
        { matcher := m, paths := file :: rest, read, workingDirectory := directory }
      rw [if_neg (by simp)]
      refine Returns.tryCatch (hsearch.bind ?_)
      exact Returns.pure _

theorem returns_runTasks (paths : List String) (ms : List Matcher) :
    (runTasks e Signal.quiet read directory paths ms).Returns
      (ms.map fun m => (m, nativeOutcome read paths m)) := by
  induction ms with
  | nil => exact Returns.pure []
  | cons m rest ih =>
      exact (returns_runTask hnative read directory paths m).bind (ih.bind (Returns.pure _))

theorem returns_runPlans (plans : List Plan) :
    (runPlans e Signal.quiet read directory plans).Returns
      (plans.map (nativeSearched read)) := by
  induction plans with
  | nil => exact Returns.pure []
  | cons p rest ih =>
      refine (returns_runTasks hnative read directory p.paths p.rule.anyOf).bind ?_
      refine (returns_runTasks hnative read directory p.paths p.rule.allOf).bind ?_
      exact ih.bind (Returns.pure _)

omit hnative

/-- The result of an evaluation with the native search. -/
def nativeEvaluation (marker : String) (read : String → Option Bytes) (known : List String)
    (cs : List Rule.Compiled) : Evaluation :=
  conclude marker known (cs.map fun c => nativeSearched read (planOf known c))

include hnative

theorem returns_evaluate (d : Disk) {rules : List Rule} (files : List String)
    {exclude : List String} {globs : GlobSet} {cs : List Rule.Compiled}
    (hglobs : GlobSet.ofPatterns exclude = .ok globs) (hrules : compileRules rules = .ok cs) :
    (e.evaluate Signal.quiet d rules (some files) exclude).Returns
      (nativeEvaluation e.effectiveMarker ((FileReader.make e.root e.maxFileSize).load d)
        (universeOf globs files) cs) := by
  intro s
  obtain ⟨s', htasks⟩ := returns_runPlans hnative
    ((FileReader.make e.root e.maxFileSize).load d) d.directory
    (cs.map (planOf (universeOf globs files))) s
  rw [List.map_map] at htasks
  exact ⟨_, yields_evaluate hglobs hrules htasks⟩

end Native

end Engine

end RuleScan
