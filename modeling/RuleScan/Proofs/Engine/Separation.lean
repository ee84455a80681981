import RuleScan.Proofs.Engine.Places
import RuleScan.Proofs.Engine.Tally
import RuleScan.Proofs.Path.Clean

/-!
# A rule and a file on their own

All rules and files of an evaluation share the tallies, the sort and the dropping of repeated
places.  Still the findings of one rule in one file do not show that there were others.

## What is proved

  * `filter_nativeEvaluation` — the findings of a rule in a file are those of evaluating the rule
    alone on the file alone;
  * `findings_alone` — the same of evaluations as they are run, and what follows for two of them:
    whatever else differs, the findings of the rule in the file are the same.

## The name of a file

A path is considered under the name that `universePath?` gives it: without blanks at its ends, and
cleaned.  Findings bear THAT name, so it is that name which picks them out.  For a clean path
without blanks at its ends it is the path itself; `findings_under_trimmed_name` shows a clean path
with a blank in front, for which it is not.
-/

namespace RuleScan

/-! ## The name of a path -/

/-- The name under which a path is considered. -/
def nameOf (f : String) : String := Path.clean (Text.trim f)

/-- A path that is not blank is considered under its name, unless the name is excluded. -/
theorem universePath?_eq (globs : GlobSet) {f : String} (hblank : Text.trim f ≠ "") :
    universePath? globs f = if globs.accepts (nameOf f) then none else some (nameOf f) := by
  have hempty : (Text.trim f).isEmpty = false := by
    simpa [String.isEmpty_iff] using hblank
  simp only [universePath?, hempty, Path.withoutHere_clean, nameOf]
  rfl

theorem universePath?_blank (globs : GlobSet) {f : String} (hblank : Text.trim f = "") :
    universePath? globs f = none := by
  simp only [universePath?, hblank]
  rfl

/-- An excluded name is nowhere in the universe. -/
theorem not_mem_universeOf {globs : GlobSet} {name : String} (h : globs.accepts name = true)
    (files : List String) : name ∉ universeOf globs files := by
  intro hmem
  obtain ⟨f, -, hf⟩ := mem_universeOf.mp hmem
  by_cases hblank : Text.trim f = ""
  · rw [universePath?_blank globs hblank] at hf
    cases hf
  · rw [universePath?_eq globs hblank] at hf
    split at hf
    · cases hf
    · rename_i hnot
      exact hnot (Option.some.inj hf ▸ h)

namespace Engine

/-! ## One file of a rule -/

section File

variable (marker : String) (read : String → Option Text.Bytes)

theorem file_of_mem_matchesIn {read : String → Option Text.Bytes} {m : Matcher} {file : String}
    {x : Match} (h : x ∈ matchesIn read m file) : x.file = file := by
  obtain ⟨content, -, number, column, text, -, -, rfl⟩ := mem_matchesIn.mp h
  rfl

/-- Among the matches in some files, those of one file are the matches in it. -/
theorem firstAt_nativeUnmarked (r : Rule) (confidence : Confidence) (m : Matcher)
    {paths : List String} {k : Finding.Place} (hk : k.2.1 ∈ paths) :
    Finding.firstAt k ((nativeUnmarked marker read paths m).map (Finding.ofMatch r confidence)) =
      Finding.firstAt k
        ((nativeUnmarked marker read [k.2.1] m).map (Finding.ofMatch r confidence)) := by
  have hsplit : ∀ l, (nativeUnmarked marker read l m).map (Finding.ofMatch r confidence) =
      l.flatMap fun file =>
        (unmarked marker (matchesIn read m file)).map (Finding.ofMatch r confidence) := by
    intro l
    rw [nativeUnmarked, unmarked, List.filter_flatMap, List.map_flatMap]
    rfl
  have hown : ∀ l : List String, ∀ file ∈ l,
      ∀ x ∈ (unmarked marker (matchesIn read m file)).map (Finding.ofMatch r confidence),
        x.key.2.1 = file := by
    intro l file _ x hx
    obtain ⟨y, hy, rfl⟩ := List.mem_map.mp hx
    exact file_of_mem_matchesIn (List.mem_filter.mp hy).1
  rw [hsplit, hsplit, Finding.firstAt_flatMap_own (fun place => place.2.1) (hown paths),
    Finding.firstAt_flatMap_own (fun place => place.2.1) (hown [k.2.1]), if_pos hk,
    if_pos List.mem_cons_self]

theorem exists_nativeUnmarked_iff (m : Matcher) {paths : List String} {file : String}
    (hfile : file ∈ paths) :
    (∃ x ∈ nativeUnmarked marker read paths m, x.file = file) ↔
      ∃ x ∈ nativeUnmarked marker read [file] m, x.file = file := by
  simp only [mem_nativeUnmarked, List.mem_singleton]
  constructor
  · rintro ⟨_, ⟨file', -, content, hread, number, column, text, hhit, rfl⟩, rfl⟩
    exact ⟨_, ⟨file', rfl, content, hread, number, column, text, hhit, rfl⟩, rfl⟩
  · rintro ⟨x, ⟨file', rfl, hhit⟩, hx⟩
    exact ⟨x, ⟨file', hfile, hhit⟩, hx⟩

/-- A finding of a rule bears the id of the rule and the name of a file that was searched. -/
theorem place_of_mem_ruleFindings {marker : String} {read : String → Option Text.Bytes} {p : Plan}
    (hc : p.rule.rule.compile = .ok p.rule) {x : Finding}
    (hx : x ∈ ruleFindings marker (nativeSearched read p)) :
    x.key.1 = p.rule.rule.id ∧ x.key.2.1 ∈ p.paths := by
  obtain ⟨file, hfile, content, -, number, column, -, hplace⟩ :=
    (mem_places_ruleFindings hc).mp (List.mem_map_of_mem hx)
  rw [hplace]
  exact ⟨rfl, hfile⟩

/-- The first findings of a rule in a file do not depend on the other files. -/
theorem firstAt_ruleFindings_native {c : Rule.Compiled} (hc : c.rule.compile = .ok c)
    (paths : List String) (k : Finding.Place) :
    Finding.firstAt k (ruleFindings marker (nativeSearched read ⟨c, paths⟩)) =
      if k.2.1 ∈ paths then
        Finding.firstAt k (ruleFindings marker (nativeSearched read ⟨c, [k.2.1]⟩))
      else none := by
  by_cases hk : k.2.1 ∈ paths
  · have hany : Finding.firstAt k (anyFindings marker (nativeSearched read ⟨c, paths⟩)) =
        Finding.firstAt k (anyFindings marker (nativeSearched read ⟨c, [k.2.1]⟩)) := by
      rw [anyFindings_native, anyFindings_native]
      exact Finding.firstAt_flatMap_congr fun m _ =>
        firstAt_nativeUnmarked marker read c.rule _ m hk
    have hall : firstOfAll c.rule (allMatches marker (nativeSearched read ⟨c, paths⟩)) k =
        firstOfAll c.rule (allMatches marker (nativeSearched read ⟨c, [k.2.1]⟩)) k := by
      rw [allMatches_native, allMatches_native]
      exact firstOfAll_congr (fun m _ => exists_nativeUnmarked_iff marker read m hk)
        fun m _ => firstAt_nativeUnmarked marker read c.rule _ m hk
    rw [if_pos hk, ruleFindings, ruleFindings, Finding.firstAt_append, Finding.firstAt_append,
      firstAt_allFindings, firstAt_allFindings, hany]
    exact congrArg _ hall
  · rw [if_neg hk, Finding.firstAt_eq_none]
    intro x hx hkey
    exact hk (hkey ▸ (place_of_mem_ruleFindings (p := ⟨c, paths⟩) hc hx).2)

end File

/-! ## A rule and a file among others -/

/-- The findings of a rule under a name. -/
def findingsOf (id name : String) (result : Evaluation) : List Finding :=
  result.findings.filter fun x => x.rule = id ∧ x.file = name

/-- A place of a rule under a name. -/
def isPlaceOf (id name : String) (place : Finding.Place) : Bool :=
  place.1 = id ∧ place.2.1 = name

theorem findingsOf_eq (id name : String) (result : Evaluation) :
    findingsOf id name result = result.findings.filter fun x => isPlaceOf id name x.key := rfl

/-- The findings of a rule under a name are those of evaluating the rule alone under the name
alone. -/
theorem filter_nativeEvaluation (marker : String) (read : String → Option Text.Bytes)
    {cs : List Rule.Compiled} (hcompiled : ∀ c ∈ cs, c.rule.compile = .ok c)
    (hids : (cs.map fun c => c.rule.id).Nodup) {c : Rule.Compiled} (hc : c ∈ cs)
    {known : List String} {name : String} (hname : name ∈ known) :
    findingsOf c.rule.id name (nativeEvaluation marker read known cs) =
      (nativeEvaluation marker read [name] [c]).findings := by
  rw [findingsOf_eq, nativeEvaluation, nativeEvaluation, conclude, conclude,
    Finding.filter_distinct]
  refine Finding.distinct_congr fun k => ?_
  rw [Finding.firstAt_filter, List.flatMap_map, List.flatMap_map, List.flatMap_singleton]
  by_cases hk : isPlaceOf c.rule.id name k = true
  · obtain ⟨hid, hfile⟩ := of_decide_eq_true hk
    -- Only one rule has this id, and its findings in this file ask for no other file.
    have honly : ∀ b ∈ cs, ∀ x ∈ ruleFindings marker (nativeSearched read (planOf known b)),
        x.key = k → b = c := by
      intro b hb x hx hkey
      have hrule := (place_of_mem_ruleFindings (p := planOf known b) (hcompiled b hb) hx).1
      rw [hkey, hid] at hrule
      exact List.inj_on_of_nodup_map hids hb hc hrule.symm
    rw [if_pos hk, Finding.firstAt_flatMap_only hc honly, planOf, planOf,
      firstAt_ruleFindings_native marker read (hcompiled c hc),
      firstAt_ruleFindings_native marker read (hcompiled c hc) ([name].filter _)]
    simp [List.mem_filter, hfile, hname]
  · rw [if_neg hk, eq_comm, Finding.firstAt_eq_none]
    intro x hx hkey
    obtain ⟨hrule, hpath⟩ :=
      place_of_mem_ruleFindings (p := planOf [name] c) (hcompiled c hc) hx
    have hfile : x.key.2.1 = name := List.mem_singleton.mp (List.mem_filter.mp hpath).1
    rw [hkey] at hrule hfile
    exact hk (decide_eq_true ⟨hrule, hfile⟩)

/-- Findings are found in the files that are considered. -/
theorem file_of_mem_nativeEvaluation {marker : String} {read : String → Option Text.Bytes}
    {cs : List Rule.Compiled} (hcompiled : ∀ c ∈ cs, c.rule.compile = .ok c) {known : List String}
    {x : Finding} (hx : x ∈ (nativeEvaluation marker read known cs).findings) : x.file ∈ known := by
  have hfirst := Finding.mem_of_firstAt (Finding.mem_distinct.mp hx)
  rw [List.flatMap_map] at hfirst
  obtain ⟨c, hc, hx⟩ := List.mem_flatMap.mp hfirst
  have hpath := (place_of_mem_ruleFindings (p := planOf known c) (hcompiled c hc) hx).2
  exact (List.mem_filter.mp hpath).1

theorem findingsOf_eq_nil {marker : String} {read : String → Option Text.Bytes}
    {cs : List Rule.Compiled} (hcompiled : ∀ c ∈ cs, c.rule.compile = .ok c) {known : List String}
    {name : String} (hname : name ∉ known) (id : String) :
    findingsOf id name (nativeEvaluation marker read known cs) = [] := by
  refine List.filter_eq_nil_iff.mpr fun x hx hpick => ?_
  have hfile : x.rule = id ∧ x.file = name := by simpa using hpick
  exact hname (hfile.2 ▸ file_of_mem_nativeEvaluation hcompiled hx)

/-- Where no file is considered, nothing is found. -/
theorem findings_nativeEvaluation_nil (marker : String) (read : String → Option Text.Bytes)
    {c : Rule.Compiled} (hc : c.rule.compile = .ok c) :
    (nativeEvaluation marker read [] [c]).findings = [] := by
  have hcompiled : ∀ c' ∈ [c], c'.rule.compile = .ok c' := by
    intro c' hc'
    rw [List.mem_singleton.mp hc', hc]
  refine List.eq_nil_iff_forall_not_mem.mpr fun x hx => ?_
  cases file_of_mem_nativeEvaluation hcompiled hx

/-- The findings of a rule in a file, picked out of an evaluation of given paths, are those of
evaluating the rule alone on the path alone. -/
theorem findingsOf_universe (marker : String) (read : String → Option Text.Bytes)
    {cs : List Rule.Compiled} (hcompiled : ∀ c ∈ cs, c.rule.compile = .ok c)
    (hids : (cs.map fun c => c.rule.id).Nodup) {c : Rule.Compiled} (hc : c ∈ cs) (globs : GlobSet)
    {files : List String} {f : String} (hf : f ∈ files) (hblank : Text.trim f ≠ "") :
    findingsOf c.rule.id (nameOf f) (nativeEvaluation marker read (universeOf globs files) cs) =
      (nativeEvaluation marker read (universeOf globs [f]) [c]).findings := by
  have hpath := universePath?_eq globs hblank
  by_cases haccepts : globs.accepts (nameOf f) = true
  · -- An excluded file has no findings in either evaluation.
    rw [findingsOf_eq_nil hcompiled (not_mem_universeOf haccepts files), universeOf_singleton,
      hpath, if_pos haccepts]
    exact (findings_nativeEvaluation_nil marker read (hcompiled c hc)).symm
  · rw [if_neg haccepts] at hpath
    rw [universeOf_singleton, hpath]
    exact filter_nativeEvaluation marker read hcompiled hids hc (mem_universeOf.mpr ⟨f, hf, hpath⟩)

/-- What is read under other names does not matter. -/
theorem nativeEvaluation_congr (marker : String) {read read' : String → Option Text.Bytes}
    {known : List String} (h : ∀ name ∈ known, read name = read' name) (cs : List Rule.Compiled) :
    nativeEvaluation marker read known cs = nativeEvaluation marker read' known cs := by
  have hsearched : ∀ c, nativeSearched read (planOf known c) =
      nativeSearched read' (planOf known c) := by
    intro c
    have hmatches : ∀ m, (planOf known c).paths.flatMap (matchesIn read m) =
        (planOf known c).paths.flatMap (matchesIn read' m) := by
      intro m
      refine List.flatMap_congr fun file hfile => ?_
      rw [matchesIn, matchesIn, h file (List.mem_filter.mp hfile).1]
    simp only [nativeSearched, nativeOutcome, hmatches]
  simp only [nativeEvaluation, hsearched]

/-! ## Evaluations -/

/-- A profile with the rule, on files with the path, gives the rule its findings in the path. -/
theorem returns_findingsOf {e : Engine} (hnative : e.searcher = Searcher.native)
    {exclude : List String} {globs : GlobSet} (hglobs : GlobSet.ofPatterns exclude = .ok globs)
    {rules : List Rule} (hrules : ∀ r ∈ rules, ∃ c, r.compile = .ok c)
    (hids : (rules.map Rule.id).Nodup) {r : Rule} (hr : r ∈ rules) {c : Rule.Compiled}
    (hc : r.compile = .ok c) {files : List String} {f : String} (hf : f ∈ files) (d : Disk) :
    ∃ whole, (e.evaluate Signal.quiet d rules (some files) exclude).Returns whole ∧
      (Text.trim f ≠ "" → findingsOf r.id (nameOf f) whole =
        (nativeEvaluation e.effectiveMarker ((FileReader.make e.root e.maxFileSize).load d)
          (universeOf globs [f]) [c]).findings) := by
  obtain ⟨cs, hcs, hmap, hcompiled⟩ := compileRules_eq_ok hrules
  refine ⟨_, returns_evaluate hnative d files hglobs hcs, fun hblank => ?_⟩
  obtain ⟨c', hc', rfl⟩ : ∃ c' ∈ cs, c'.rule = r := by
    rw [← hmap] at hr
    exact List.mem_map.mp hr
  obtain rfl : c' = c := Except.ok.inj ((hcompiled c' hc').symm.trans hc)
  have hids' : (cs.map fun c => c.rule.id).Nodup := by
    rw [← hmap, List.map_map] at hids
    exact hids
  exact findingsOf_universe _ _ hcompiled hids' hc' globs hf hblank

/-- **A rule finds in a file what it finds there alone.**  Whatever other rules and files there
are, and whatever stands in the other files, the findings of the rule under the name of the path are
those of evaluating the rule alone on the path alone.  A blank path has no findings at all. -/
theorem findings_alone {e : Engine} (hnative : e.searcher = Searcher.native)
    {exclude : List String} {globs : GlobSet} (hglobs : GlobSet.ofPatterns exclude = .ok globs)
    {rules : List Rule} (hrules : ∀ r ∈ rules, ∃ c, r.compile = .ok c)
    (hids : (rules.map Rule.id).Nodup) {r : Rule} (hr : r ∈ rules) {files : List String}
    {f : String} (hf : f ∈ files) (d : Disk) :
    ∃ whole alone, (e.evaluate Signal.quiet d rules (some files) exclude).Returns whole ∧
      (e.evaluate Signal.quiet d [r] (some [f]) exclude).Returns alone ∧
      (Text.trim f = "" → alone.findings = []) ∧
      (Text.trim f = f → Path.clean f = f → findingsOf r.id f whole = alone.findings) ∧
      (Text.trim f ≠ "" → findingsOf r.id (nameOf f) whole = alone.findings ∧
        ∀ (d' : Disk) (rules' : List Rule) (files' : List String),
          (∀ r ∈ rules', ∃ c, r.compile = .ok c) → (rules'.map Rule.id).Nodup → r ∈ rules' →
          f ∈ files' → (FileReader.make e.root e.maxFileSize).load d' (nameOf f) =
            (FileReader.make e.root e.maxFileSize).load d (nameOf f) →
          ∃ whole', (e.evaluate Signal.quiet d' rules' (some files') exclude).Returns whole' ∧
            findingsOf r.id (nameOf f) whole' = findingsOf r.id (nameOf f) whole) := by
  obtain ⟨c, hc⟩ := hrules r hr
  obtain ⟨whole, hwhole, hfindings⟩ := returns_findingsOf hnative hglobs hrules hids hr hc hf d
  have hcs : compileRules [r] = .ok [c] := by
    rw [compileRules, hc]
    rfl
  have halone := returns_evaluate hnative d [f] hglobs hcs
  refine ⟨whole, _, hwhole, halone, ?_, ?_, ?_⟩
  · intro hblank
    rw [universeOf_singleton, universePath?_blank globs hblank]
    refine findings_nativeEvaluation_nil _ _ ?_
    rw [(Rule.compile_inv hc).1, hc]
  · intro htrim hclean
    have hname : nameOf f = f := by rw [nameOf, htrim, hclean]
    have hblank : Text.trim f ≠ "" := by
      intro hempty
      rw [← htrim, hempty] at hclean
      exact absurd hclean (by decide)
    rw [← hfindings hblank, hname]
  · intro hblank
    refine ⟨hfindings hblank, ?_⟩
    intro d' rules' files' hrules' hids' hr' hf' hsame
    obtain ⟨whole', hwhole', hfindings'⟩ :=
      returns_findingsOf hnative hglobs hrules' hids' hr' hc hf' d'
    refine ⟨whole', hwhole', ?_⟩
    rw [hfindings hblank, hfindings' hblank]
    refine congrArg Evaluation.findings (nativeEvaluation_congr _ ?_ [c])
    intro name hname
    obtain ⟨g, hg, hpath⟩ := mem_universeOf.mp hname
    rw [List.mem_singleton.mp hg, universePath?_eq globs hblank] at hpath
    split at hpath
    · cases hpath
    · rw [← Option.some.inj hpath, hsame]

/-! ## The sample once more -/

section Sample

variable {c : Rule.Compiled} (hc : sampleRule.compile = .ok c)

include hc

/-- What the rule calls for in a file is found. -/
theorem mem_places_of_reports {marker : String} {read : String → Option Text.Bytes}
    {content : Text.Bytes} (hread : read "f" = some content) {number column : Nat}
    (hreports : sampleRule.Reports marker content number column) :
    ("r", "f", (number : Int), (column : Int)) ∈
      (nativeEvaluation marker read ["f"] [c]).findings.map Finding.key := by
  have hrule : c.rule = sampleRule := (Rule.compile_inv hc).1
  have hcompiled : c.rule.compile = .ok c := by rw [hrule, hc]
  rw [nativeEvaluation, conclude, Finding.mem_key_distinct, List.flatMap_map,
    List.flatMap_singleton, mem_places_ruleFindings (p := planOf ["f"] c) hcompiled]
  have hpath : "f" ∈ (planOf ["f"] c).paths := by
    refine (mem_planOf_paths hcompiled).mpr ⟨List.mem_singleton_self _, ?_⟩
    rw [hrule]
    exact ⟨_, rfl, by decide⟩
  refine ⟨"f", hpath, _, hread, number, column, ?_, ?_⟩
  · show c.rule.Reports _ _ _ _
    rw [hrule]
    exact hreports
  · show _ = (c.rule.id, _)
    rw [hrule]
    rfl

/-- What the rule finds in the file of the sample. -/
theorem mem_places_sample :
    ("r", "f", 1, 1) ∈ (nativeEvaluation "!" ((FileReader.make "." defaultMaxSize).load sampleDisk)
      ["f"] [c]).findings.map Finding.key :=
  mem_places_of_reports hc read_sampleDisk sampleRule_reports

/-- Evaluating the rule of the sample on a path for its file. -/
theorem returns_sample_on (d : Disk) {f : String} (hf : universePath? [] f = some "f") :
    (({ marker := "!" } : Engine).evaluate Signal.quiet d [sampleRule] (some [f]) []).Returns
      (nativeEvaluation "!" ((FileReader.make "." defaultMaxSize).load d) ["f"] [c]) := by
  have hcs : compileRules [sampleRule] = .ok [c] := by
    rw [compileRules, hc]
    rfl
  have hglobs : GlobSet.ofPatterns [] = .ok [] := rfl
  have hreturns := returns_evaluate (e := { marker := "!" }) rfl d [f] hglobs hcs
  rw [universeOf_singleton, hf] at hreturns
  exact hreturns

theorem returns_sample {f : String} (hf : universePath? [] f = some "f") :
    (({ marker := "!" } : Engine).evaluate Signal.quiet sampleDisk [sampleRule] (some [f])
      []).Returns (nativeEvaluation "!" ((FileReader.make "." defaultMaxSize).load sampleDisk)
        ["f"] [c]) :=
  returns_sample_on hc sampleDisk hf

end Sample

/-- The rule of the sample under another id. -/
def otherRule : Rule := { sampleRule with id := "s" }

theorem findings_alone_sample :
    ∃ whole alone, (({ marker := "!" } : Engine).evaluate Signal.quiet sampleDisk
        [otherRule, sampleRule] (some ["g", "f"]) []).Returns whole ∧
      (({ marker := "!" } : Engine).evaluate Signal.quiet sampleDisk [sampleRule]
        (some ["f"]) []).Returns alone ∧
      findingsOf "r" "f" whole = alone.findings ∧
      ("r", "f", 1, 1) ∈ alone.findings.map Finding.key := by
  have hrules : ∀ r ∈ [otherRule, sampleRule], ∃ c, r.compile = .ok c := by
    intro r hr
    simp only [List.mem_cons, List.not_mem_nil, or_false] at hr
    rcases hr with rfl | rfl <;> exact ⟨_, rfl⟩
  obtain ⟨c, hc⟩ : ∃ c, sampleRule.compile = .ok c := ⟨_, rfl⟩
  obtain ⟨whole, alone, hwhole, halone, -, hsame, -⟩ := findings_alone (e := { marker := "!" }) rfl
    (show GlobSet.ofPatterns [] = .ok [] from rfl) hrules (by decide)
    (r := sampleRule) (List.mem_cons_of_mem _ List.mem_cons_self)
    (show "f" ∈ ["g", "f"] from List.mem_cons_of_mem _ List.mem_cons_self) sampleDisk
  refine ⟨whole, alone, hwhole, halone, hsame (by decide) (by decide +kernel), ?_⟩
  rw [halone.unique (returns_sample hc (by decide))]
  exact mem_places_sample hc

/-- A blank in front of a clean path is not part of its name: what is found for the path is told
of under another one. -/
theorem findings_under_trimmed_name :
    Path.clean " f" = " f" ∧ Path.isAbs " f" = false ∧
    ∃ result, (({ marker := "!" } : Engine).evaluate Signal.quiet sampleDisk [sampleRule]
        (some [" f"]) []).Returns result ∧
      findingsOf sampleRule.id " f" result ≠ result.findings := by
  refine ⟨by decide, by decide, ?_⟩
  obtain ⟨c, hc⟩ : ∃ c, sampleRule.compile = .ok c := ⟨_, rfl⟩
  have hcompiled : ∀ c' ∈ [c], c'.rule.compile = .ok c' := by
    intro c' hc'
    rw [List.mem_singleton.mp hc', (Rule.compile_inv hc).1, hc]
  refine ⟨_, returns_sample hc (by decide), ?_⟩
  rw [findingsOf_eq_nil hcompiled (by decide)]
  intro hnil
  have hfound := mem_places_sample hc
  rw [← hnil] at hfound
  cases hfound

end Engine

end RuleScan
