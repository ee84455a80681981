import RuleScan.Proofs.Engine.Places
import RuleScan.Proofs.Engine.Tally

/-!
# The findings of an evaluation in canonical form

## What is proved

`findings_canonical`: the findings of an evaluation are strictly increasing, so that no place comes
twice, and of several patterns that tell of one place the one that stands FIRST in the rule is the
one that is heard.

## Which one is heard

Patterns of which any may match come before those that all have to occur.  `Rule.Rates` says so
about one line, without findings, sorting or dropping: the confidence of a place is that of the
first pattern of the first list that starts there; only where none of them does, the second list is
asked, and that list speaks with one voice, whichever of its patterns starts there.

## Why

An evaluation keeps the first finding of every place (`Finding.mem_distinct`), and its candidates
stand in the order of the patterns.  A finding that comes first thus splits the list of patterns at
the pattern it comes from, and what stands before the split does not start at that place
(`firstAt_patterns`).
-/

namespace RuleScan

open RuleScan.Text (Bytes)

/-! ## First findings of a list of lists -/

/-- The first finding of a place comes from one list, and the lists before it have none. -/
theorem Finding.firstAt_flatMap_eq_some {α : Type} {k : Place} {l : List α}
    {f : α → List Finding} {x : Finding} (h : firstAt k (l.flatMap f) = some x) :
    ∃ before a after, l = before ++ a :: after ∧ firstAt k (f a) = some x ∧
      ∀ b ∈ before, firstAt k (f b) = none := by
  induction l with
  | nil => cases h
  | cons a l ih =>
      rw [List.flatMap_cons, firstAt_append] at h
      cases ha : firstAt k (f a) with
      | some y =>
          rw [ha, Option.some_or] at h
          exact ⟨[], a, l, rfl, ha.trans h, by simp⟩
      | none =>
          rw [ha, Option.none_or] at h
          obtain ⟨before, b, after, rfl, hb, hbefore⟩ := ih h
          exact ⟨a :: before, b, after, rfl, hb, List.forall_mem_cons.mpr ⟨ha, hbefore⟩⟩

/-- Going through what a step makes of the elements is going through the elements. -/
theorem flatMap_of_mapM_ok {α β γ ε : Type} {f : α → Except ε β} {l : List α} {l' : List β}
    (h : l.mapM f = .ok l') (g : β → List γ) :
    l'.flatMap g = l.flatMap fun a => (f a).toOption.elim [] g := by
  induction l generalizing l' with
  | nil =>
      cases h
      rfl
  | cons a l ih =>
      obtain ⟨b, bs, ha, hl, rfl⟩ := mapM_cons_inv h
      rw [List.flatMap_cons, List.flatMap_cons, ih hl, ha]
      rfl

/-! ## Which pattern is heard -/

/-- A pattern has its first match on a line at a column. -/
def Pattern.StartsAt (p : Pattern) (text : Bytes) (column : Nat) : Prop :=
  ∃ m, p.compile = .ok m ∧ m.find? text = some column

/-- Of some patterns, the first that starts at a column of a line. -/
def Pattern.IsFirstAt (ps : List Pattern) (text : Bytes) (column : Nat) (p : Pattern) : Prop :=
  ∃ before after, ps = before ++ p :: after ∧ p.StartsAt text column ∧
    ∀ q ∈ before, ¬ q.StartsAt text column

/-- The confidence of a rule in a place of a line. -/
inductive Rule.Rates (r : Rule) (text : Bytes) (column : Nat) : Confidence → Prop
  | any {p : Pattern} : Pattern.IsFirstAt r.spec.anyPatterns text column p →
      Rates r text column (if p.kind = .regex then .medium else .high)
  | all {p : Pattern} : (∀ q ∈ r.spec.anyPatterns, ¬ q.StartsAt text column) →
      Pattern.IsFirstAt r.spec.allPatterns text column p →
      Rates r text column (if ∃ q ∈ r.spec.allPatterns, q.kind = .regex then .low else .high)

/-- Filling in the default kind makes no pattern a regular expression. -/
theorem Pattern.confidence_of_compile {p : Pattern} {m : Matcher} (h : p.compile = .ok m) :
    m.pattern.confidence = if p.kind = .regex then .medium else .high := by
  have hpattern : m.pattern = p.withDefaults := by
    simp only [compile] at h
    split at h
    · cases h
    · split at h
      · cases h
        rfl
      · split at h
        · cases h
        · cases h
          rfl
      · cases h
  rw [hpattern, withDefaults, confidence]
  split
  · next hnone => simp [hnone]
  · rfl

theorem Engine.allConfidence_eq (r : Rule) :
    Engine.allConfidence r =
      if ∃ q ∈ r.spec.allPatterns, q.kind = .regex then .low else .high := by
  simp [Engine.allConfidence]

namespace Engine

section Candidates

variable {marker : String} {read : String → Option Bytes} {paths : List String} {r : Rule}

/-- A matcher that tells nothing of a place does not start there. -/
theorem not_find?_of_firstAt_eq_none {c : Confidence} {m : Matcher} {file : String}
    {content text : Bytes} {number column : Nat}
    (h : Finding.firstAt (r.id, file, (number : Int), (column : Int))
      ((nativeUnmarked marker read paths m).map (Finding.ofMatch r c)) = none)
    (hfile : file ∈ paths) (hread : read file = some content) (hline : IsLine content number text)
    (hmark : ¬ Text.bytesOf marker <:+: text) : m.find? text ≠ some column := by
  intro hfind
  have hx : (⟨file, text, number, column⟩ : Match) ∈ nativeUnmarked marker read paths m :=
    mem_nativeUnmarked.mpr
      ⟨file, hfile, content, hread, number, column, text, ⟨hline, hmark, hfind⟩, rfl⟩
  exact Finding.firstAt_eq_none.mp h _ (List.mem_map_of_mem hx) rfl

/-- Patterns that tell nothing of a place do not start there. -/
theorem not_startsAt_of_firstAt_eq_none {ps : List Pattern} {ms : List Matcher}
    (hms : ps.mapM Pattern.compile = .ok ms) (confidence : Matcher → Confidence) {file : String}
    {content text : Bytes} {number column : Nat}
    (h : Finding.firstAt (r.id, file, (number : Int), (column : Int)) (ms.flatMap fun m =>
      (nativeUnmarked marker read paths m).map (Finding.ofMatch r (confidence m))) = none)
    (hfile : file ∈ paths) (hread : read file = some content) (hline : IsLine content number text)
    (hmark : ¬ Text.bytesOf marker <:+: text) : ∀ q ∈ ps, ¬ q.StartsAt text column := by
  rintro q hq ⟨m, hm, hfind⟩
  have hmem : m ∈ ms := (mem_of_mapM_ok hms).mpr ⟨q, hq, hm⟩
  refine not_find?_of_firstAt_eq_none (r := r) (m := m) (c := confidence m) ?_ hfile
    hread hline hmark hfind
  rw [Finding.firstAt_eq_none] at h ⊢
  exact fun x hx => h x (List.mem_flatMap.mpr ⟨m, hmem, hx⟩)

/-- The first candidate of a place comes from the first pattern that starts there. -/
theorem firstAt_patterns {ps : List Pattern} {ms : List Matcher}
    (hms : ps.mapM Pattern.compile = .ok ms) (confidence : Matcher → Confidence)
    {k : Finding.Place} {x : Finding}
    (h : Finding.firstAt k (ms.flatMap fun m =>
      (nativeUnmarked marker read paths m).map (Finding.ofMatch r (confidence m))) = some x) :
    x.file ∈ paths ∧ ∃ content, read x.file = some content ∧ ∃ number column : Nat, ∃ text,
      IsLine content number text ∧ ¬ Text.bytesOf marker <:+: text ∧ ∃ p m,
        Pattern.IsFirstAt ps text column p ∧ p.compile = .ok m ∧
        x = Finding.ofMatch r (confidence m) ⟨x.file, text, number, column⟩ := by
  rw [flatMap_of_mapM_ok hms] at h
  obtain ⟨before, p, after, rfl, hp, hbefore⟩ := Finding.firstAt_flatMap_eq_some h
  cases hm : p.compile with
  | error e => simp [hm, Except.toOption] at hp
  | ok m =>
      rw [hm] at hp
      obtain ⟨y, hy, rfl⟩ := List.mem_map.mp (Finding.mem_of_firstAt hp)
      obtain ⟨file, hfile, content, hread, number, column, text, ⟨hline, hmark, hfind⟩, rfl⟩ :=
        mem_nativeUnmarked.mp hy
      refine ⟨hfile, content, hread, number, column, text, hline, hmark, p, m,
        ⟨before, after, rfl, ⟨m, hm, hfind⟩, ?_⟩, hm, rfl⟩
      rintro q hq ⟨mq, hmq, hfindq⟩
      have hnone := hbefore q hq
      rw [hmq, ← Finding.key_of_firstAt hp] at hnone
      exact not_find?_of_firstAt_eq_none (r := r) hnone hfile hread hline hmark hfindq

/-- The first finding of a place of a rule is rated as the rule says. -/
theorem rates_of_firstAt {p : Plan} (hc : p.rule.rule.compile = .ok p.rule) {k : Finding.Place}
    {x : Finding}
    (h : Finding.firstAt k (ruleFindings marker (nativeSearched read p)) = some x) :
    ∃ content, read x.file = some content ∧ ∃ number column : Nat, ∃ text,
      IsLine content number text ∧ ∃ confidence, p.rule.rule.Rates text column confidence ∧
        x = Finding.ofMatch p.rule.rule confidence ⟨x.file, text, number, column⟩ := by
  obtain ⟨-, -, hany, hall⟩ := Rule.compile_inv hc
  have hkey : x.key = k := Finding.key_of_firstAt h
  rw [ruleFindings, Finding.firstAt_append, anyFindings_native] at h
  rcases Option.or_eq_some_iff.mp h with h | ⟨hnone, h⟩
  · obtain ⟨-, content, hread, number, column, text, hline, -, q, m, hfirst, hm, hx⟩ :=
      firstAt_patterns hany (fun m => m.pattern.confidence) h
    rw [Pattern.confidence_of_compile hm] at hx
    exact ⟨content, hread, number, column, text, hline, _, .any hfirst, hx⟩
  · -- No pattern of the first list tells of the place, so the second one is asked.
    rw [firstAt_allFindings, firstOfAll, allMatches_native] at h
    split at h
    · rw [← List.flatMap_def, List.map_flatMap] at h
      obtain ⟨hfile, content, hread, number, column, text, hline, hmark, q, m, hfirst, -, hx⟩ :=
        firstAt_patterns hall (fun _ => allConfidence p.rule.rule) h
      have hplace : k = (p.rule.rule.id, x.file, (number : Int), (column : Int)) := by
        rw [← hkey, hx]
        rfl
      rw [hplace] at hnone
      have hnot := not_startsAt_of_firstAt_eq_none hany (fun m => m.pattern.confidence) hnone
        hfile hread hline hmark
      rw [allConfidence_eq] at hx
      exact ⟨content, hread, number, column, text, hline, _, .all hnot hfirst, hx⟩
    · cases h

end Candidates

/-! ## Evaluations that end well -/

section Evaluations

variable {e : Engine} {signal : Signal} {d : Disk} {rules : List Rule}
  {files : Option (List String)} {exclude : List String} {result : Evaluation} {s s' : Run}

/-- Whatever the search, a result is drawn by `conclude`. -/
theorem conclude_of_yields {known : List String} {cs : List Rule.Compiled}
    (h : (e.searchAll signal d known cs).Yields s result s') :
    ∃ searched, result = conclude e.effectiveMarker known searched := by
  obtain ⟨searched, s₁, -, h⟩ := h.of_bind
  obtain ⟨interrupted, s₂, -, h⟩ := h.of_bind
  cases interrupted with
  | some i => cases h
  | none => exact ⟨searched, (h.unique (RunM.Yields.pure _ _)).1⟩

/-- The second half of an evaluation with the native search. -/
theorem returns_searchAll (hnative : e.searcher = Searcher.native) (d : Disk)
    (known : List String) (cs : List Rule.Compiled) :
    (e.searchAll Signal.quiet d known cs).Returns (nativeEvaluation e.effectiveMarker
      ((FileReader.make e.root e.maxFileSize).load d) known cs) := by
  have htasks := returns_runPlans hnative ((FileReader.make e.root e.maxFileSize).load d)
    d.directory (cs.map (planOf known))
  rw [List.map_map] at htasks
  exact htasks.tryCatch.bind fun s => ⟨_, (RunM.yields_look_quiet s).bind (.pure _ _)⟩

/-- A finding of the native search is what its rule says about its place. -/
theorem rates_of_mem_findings {cs : List Rule.Compiled}
    (hcompiled : ∀ c ∈ cs, c.rule.compile = .ok c) {marker : String}
    {read : String → Option Bytes} {known : List String} {x : Finding}
    (hx : x ∈ (nativeEvaluation marker read known cs).findings) :
    ∃ c ∈ cs, ∃ content, read x.file = some content ∧ ∃ number column : Nat, ∃ text,
      IsLine content number text ∧ ∃ confidence, c.rule.Rates text column confidence ∧
        x = Finding.ofMatch c.rule confidence ⟨x.file, text, number, column⟩ := by
  have hfirst := Finding.mem_distinct.mp hx
  rw [List.flatMap_map] at hfirst
  obtain ⟨before, c, after, rfl, hc, -⟩ := Finding.firstAt_flatMap_eq_some hfirst
  have hmem : c ∈ before ++ c :: after := by simp
  exact ⟨c, hmem, rates_of_firstAt (p := planOf known c) (hcompiled c hmem) hc⟩

end Evaluations

/-- **The findings are in canonical form.**  However they were searched for, they are strictly
increasing and no two have the same place.  Of the native search, each is moreover what the one
rule of its name says about its place, with the confidence of the pattern that comes first. -/
theorem findings_canonical (e : Engine) (d : Disk) {rules : List Rule}
    (hids : (rules.map Rule.id).Nodup) (files : Option (List String)) (exclude : List String) :
    (∀ signal s result s', (e.evaluate signal d rules files exclude).Yields s result s' →
      result.findings.Pairwise (fun a b => Finding.compare a b = .lt) ∧
      (result.findings.map Finding.key).Nodup) ∧
    (e.searcher = Searcher.native →
      ∀ s result s', (e.evaluate Signal.quiet d rules files exclude).Yields s result s' →
        ∀ x ∈ result.findings, ∃ r ∈ rules, (∀ r' ∈ rules, r'.id = x.rule → r' = r) ∧
          ∃ content, ((FileReader.make e.root e.maxFileSize).read d x.file).1 = some content ∧
            ∃ number column : Nat, ∃ text, IsLine content number text ∧
              ∃ confidence, r.Rates text column confidence ∧
                x = Finding.ofMatch r confidence ⟨x.file, text, number, column⟩) := by
  constructor
  · intro signal s result s' h
    obtain ⟨cs, -, known, s₁, hsearch⟩ := searchAll_of_yields h
    obtain ⟨searched, rfl⟩ := conclude_of_yields hsearch
    refine ⟨Finding.pairwise_distinct _, List.pairwise_map.mpr ?_⟩
    exact (Finding.pairwise_distinct _).imp fun hlt => Finding.key_ne_of_compare_lt hlt
  · intro hnative s result s' h x hx
    obtain ⟨cs, hcs, known, s₁, hsearch⟩ := searchAll_of_yields h
    obtain ⟨hmap, hcompiled⟩ := compileRules_inv hcs
    obtain ⟨s₂, hreturns⟩ := returns_searchAll hnative d known cs s₁
    rw [(hsearch.unique hreturns).1] at hx
    obtain ⟨c, hmem, content, hread, number, column, text, hline, confidence, hrates, hx⟩ :=
      rates_of_mem_findings hcompiled hx
    have hr : c.rule ∈ rules := by
      rw [← hmap]
      exact List.mem_map_of_mem hmem
    refine ⟨c.rule, hr, ?_, content, hread, number, column, text, hline, confidence, hrates, hx⟩
    intro r' hr' hid
    rw [hx] at hid
    exact List.inj_on_of_nodup_map hids hr' hr hid

/-! ## Two patterns at one place

A regular expression and, after it, a literal, both for `a`: the one that comes first is heard. -/

/-- The literal says more about a place, but the regular expression says it first. -/
def overlappingRule : Rule :=
  { spec := { anyOf := some [.regex "a", .literal "a"] }
    id := "r"
    description := "d"
    severity := .low }

theorem overlapping_startsAt : (Pattern.regex "a").StartsAt [97] 1 := by
  have hfind : ((Pattern.regex "a").compile.toOption.bind (·.find? [97])) = some 1 := by
    decide +kernel
  cases hm : (Pattern.regex "a").compile with
  | error e =>
      rw [hm] at hfind
      cases hfind
  | ok m =>
      rw [hm] at hfind
      exact ⟨m, hm, hfind⟩

theorem overlappingRule_rates {confidence : Confidence}
    (h : overlappingRule.Rates [97] 1 confidence) : confidence = .medium := by
  cases h with
  | @any p hfirst =>
      obtain ⟨before, after, hsplit, -, hbefore⟩ := hfirst
      cases before with
      | nil =>
          cases hsplit
          rfl
      | cons q before =>
          obtain ⟨rfl, -⟩ := List.cons.inj hsplit
          exact absurd overlapping_startsAt (hbefore _ List.mem_cons_self)
  | all hnone _ => exact absurd overlapping_startsAt (hnone _ List.mem_cons_self)

/-- The rule finds something in the file of the sample. -/
theorem mem_places_overlapping {c : Rule.Compiled} (hc : overlappingRule.compile = .ok c) :
    ("r", "f", 1, 1) ∈ (nativeEvaluation "!" ((FileReader.make "." defaultMaxSize).load sampleDisk)
      ["f"] [c]).findings.map Finding.key := by
  have hrule : c.rule = overlappingRule := (Rule.compile_inv hc).1
  have hcompiled : c.rule.compile = .ok c := by rw [hrule, hc]
  rw [nativeEvaluation, conclude, Finding.mem_key_distinct, List.flatMap_map,
    List.flatMap_singleton, mem_places_ruleFindings (p := planOf ["f"] c) hcompiled]
  have hpath : "f" ∈ (planOf ["f"] c).paths := by
    refine (mem_planOf_paths hcompiled).mpr ⟨List.mem_singleton_self _, ?_⟩
    rw [hrule]
    exact ⟨_, rfl, by decide⟩
  refine ⟨"f", hpath, _, read_sampleDisk, 1, 1, ?_, ?_⟩
  · show c.rule.Reports _ _ _ _
    rw [hrule]
    exact Or.inl ⟨.literal "a", List.mem_cons_of_mem _ List.mem_cons_self, hits_first_line⟩
  · show _ = (c.rule.id, _)
    rw [hrule]
    rfl

theorem findings_canonical_sample :
    ∃ result, (({ marker := "!" } : Engine).evaluate Signal.quiet sampleDisk [overlappingRule]
        (some ["f"]) []).Returns result ∧
      ∃ x ∈ result.findings, x.key = ("r", "f", 1, 1) ∧ x.confidence = .medium := by
  obtain ⟨c, hc⟩ : ∃ c, overlappingRule.compile = .ok c := ⟨_, rfl⟩
  have hcs : compileRules [overlappingRule] = .ok [c] := by
    rw [compileRules, hc]
    rfl
  have hreturns := returns_evaluate (e := { marker := "!" }) rfl sampleDisk ["f"]
    (show GlobSet.ofPatterns [] = .ok [] from rfl) hcs
  rw [universeOf_singleton] at hreturns
  obtain ⟨x, hx, hkey⟩ := List.mem_map.mp (mem_places_overlapping hc)
  refine ⟨_, hreturns, x, hx, hkey, ?_⟩
  obtain ⟨s', hyields⟩ := hreturns {}
  obtain ⟨r, hr, -, content, hread, number, column, text, hline, confidence, hrated, hfound⟩ :=
    (findings_canonical { marker := "!" } sampleDisk (by decide) (some ["f"]) []).2 rfl _ _ _
      hyields x hx
  rw [hfound] at hkey
  obtain ⟨-, hfile, hnumber, hcolumn⟩ :
      r.id = "r" ∧ x.file = "f" ∧ (number : Int) = 1 ∧ (column : Int) = 1 := by
    simpa [Finding.key, Finding.ofMatch] using hkey
  obtain rfl : number = 1 := by omega
  obtain rfl : column = 1 := by omega
  rw [List.mem_singleton.mp hr] at hrated
  have htext : text = [97] := by
    have hcontent : content = [97, 13, 10, 98, 33] :=
      Option.some.inj (hread.symm.trans (hfile ▸ read_sampleDisk))
    have h := isLine_iff.mp hline
    rw [hcontent, show (contentLines [97, 13, 10, 98, 33]).map dropReturn = [[97], [98, 33]] by
      decide] at h
    simpa [eq_comm] using h
  rw [htext] at hrated
  rw [hfound]
  exact overlappingRule_rates hrated

end Engine

end RuleScan
