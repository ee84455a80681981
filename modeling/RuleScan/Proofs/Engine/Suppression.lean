import RuleScan.Proofs.Engine.Separation
import RuleScan.Proofs.Search.Marked

/-!
# Suppressing a line

The mark is put behind one line of one file, and the same rules are evaluated once more.

## What is proved

`findings_suppressed`: the second result is what is left of the first one (`Remains`).  Nothing new
is found, nothing is found on the line, the other files keep all their findings, and a rule none of
whose patterns have to occur loses what it found on the line and nothing else.

## Why nothing new is found

The mark can match a pattern itself, and it changes what the matchers see of the line.  But it is on
the line: whatever is found there is dropped (`nativeUnmarked_marked`).  So every list of matches
becomes a part of itself.  From there on more matches never mean fewer findings: a file in which
every pattern occurs has them in the first evaluation too (`occursAll_of_filter`), and a place that
is found by both kinds of patterns is told of by the same one (`firstAt_ruleFindings_marked`).

A rule that asks for several patterns may lose findings on OTHER lines of the file, if one of the
patterns occurs on the marked line only.
-/

namespace RuleScan.Engine

open RuleScan.Text (Bytes)

/-- Two readings of some files that differ in one line, which is marked in the second one. -/
structure Marks (marker f : String) (l : LineAt) (names : List String)
    (read read' : String → Option Bytes) : Prop where
  feed : 10 ∉ Text.bytesOf marker
  ret : 13 ∉ Text.bytesOf marker
  plain : read f = some l.content
  marked : read' f = some (l.contentWith (Text.bytesOf marker))
  others : ∀ name ∈ names, name ≠ f → read' name = read name

/-- Whether a line of a file is another one than the given one. -/
def elsewhere (f : String) (number : Nat) (file : String) (line : Int) : Bool :=
  ¬ (file = f ∧ line = number)

theorem elsewhere_of_ne {f file : String} (h : file ≠ f) (number : Nat) (line : Int) :
    elsewhere f number file line = true :=
  decide_eq_true fun hsame => h hsame.1

/-! ## Patterns that all have to occur -/

section Occurs

variable {groups : List (List Match)} {p : Match → Bool} {file : String}

theorem occursAll_iff : occursAll groups file = true ↔ ∀ ms ∈ groups, ∃ x ∈ ms, x.file = file := by
  simp only [occursAll, List.all_eq_true, List.any_eq_true, decide_eq_true_eq]

/-- What occurs among some of the matches occurs among all of them. -/
theorem occursAll_of_filter (h : occursAll (groups.map (List.filter p)) file = true) :
    occursAll groups file = true := by
  rw [occursAll_iff] at h ⊢
  intro ms hms
  obtain ⟨x, hx, hfile⟩ := h _ (List.mem_map_of_mem hms)
  exact ⟨x, (List.mem_filter.mp hx).1, hfile⟩

theorem occursAll_filter (hp : ∀ x : Match, x.file = file → p x = true) :
    occursAll (groups.map (List.filter p)) file = occursAll groups file := by
  rw [Bool.eq_iff_iff]
  refine ⟨occursAll_of_filter, fun h => occursAll_iff.mpr fun kept hkept => ?_⟩
  obtain ⟨ms, hms, rfl⟩ := List.mem_map.mp hkept
  obtain ⟨x, hx, hfile⟩ := occursAll_iff.mp h ms hms
  exact ⟨x, List.mem_filter.mpr ⟨hx, hp x hfile⟩, hfile⟩

/-- Where only some lines are kept, the first findings on them stay as long as every pattern still
occurs in the file. -/
theorem firstOfAll_filter (r : Rule) (groups : List (List Match)) (p : String → Int → Bool)
    (k : Finding.Place) :
    firstOfAll r (groups.map (List.filter fun x => p x.file x.line)) k =
      if p k.2.1 k.2.2.1 = true ∧
        occursAll (groups.map (List.filter fun x => p x.file x.line)) k.2.1 = true then
        firstOfAll r groups k
      else none := by
  have hflat : Finding.firstAt k ((groups.map (List.filter fun x => p x.file x.line)).flatten.map
      (Finding.ofMatch r (allConfidence r))) = if p k.2.1 k.2.2.1 then
        Finding.firstAt k (groups.flatten.map (Finding.ofMatch r (allConfidence r))) else none := by
    rw [← Finding.firstAt_filter fun place => p place.2.1 place.2.2.1, ← List.filter_flatten,
      List.filter_map]
    rfl
  rw [firstOfAll, firstOfAll, hflat, List.isEmpty_map]
  by_cases hocc : occursAll (groups.map (List.filter fun x => p x.file x.line)) k.2.1 = true
  · simp only [hocc, occursAll_of_filter hocc, and_true]
    split <;> split <;> rfl
  · rw [if_neg fun h => hocc h.2, if_neg fun h => hocc h.2]

end Occurs

/-! ## One rule -/

section Rule

variable {marker f : String} {l : LineAt} {known : List String}
  {read read' : String → Option Bytes} (h : Marks marker f l known read read')

include h

/-- The mark takes the matches on its line away, and no others. -/
theorem nativeUnmarked_marked (m : Matcher) {paths : List String} (hpaths : paths ⊆ known) :
    nativeUnmarked marker read' paths m = (nativeUnmarked marker read paths m).filter
      fun x => elsewhere f l.number x.file x.line := by
  simp only [nativeUnmarked, unmarked, List.filter_flatMap]
  refine List.flatMap_congr fun file hfile => ?_
  have hown : ∀ x ∈ unmarked marker (matchesIn read m file), x.file = file := fun x hx =>
    file_of_mem_matchesIn (List.mem_filter.mp hx).1
  by_cases hf : file = f
  · subst hf
    rw [matchesIn, matchesIn, h.plain, h.marked]
    rw [matchesIn, h.plain] at hown
    refine (l.unmarked_contentWith h.feed h.ret).trans (List.filter_congr fun x hx => ?_)
    simp [elsewhere, hown x hx]
  · rw [matchesIn, matchesIn, h.others file (hpaths hfile) hf]
    refine (List.filter_eq_self.mpr fun x hx => ?_).symm
    exact elsewhere_of_ne (by rwa [hown x hx]) _ _

variable (c : Rule.Compiled)

omit h in
theorem planOf_paths_subset : (planOf known c).paths ⊆ known := List.filter_subset_self known

theorem anyFindings_marked :
    anyFindings marker (nativeSearched read' (planOf known c)) =
      (anyFindings marker (nativeSearched read (planOf known c))).filter
        fun x => elsewhere f l.number x.key.2.1 x.key.2.2.1 := by
  rw [anyFindings_native, anyFindings_native, List.filter_flatMap]
  refine List.flatMap_congr fun m _ => ?_
  rw [nativeUnmarked_marked h m (planOf_paths_subset c), List.filter_map]
  rfl

theorem allMatches_marked :
    allMatches marker (nativeSearched read' (planOf known c)) =
      (allMatches marker (nativeSearched read (planOf known c))).map
        (List.filter fun x => elsewhere f l.number x.file x.line) := by
  rw [allMatches_native, allMatches_native, List.map_map]
  exact List.map_congr_left fun m _ =>
    nativeUnmarked_marked h m (planOf_paths_subset c)

/-- The first findings of a rule, kind by kind. -/
theorem firstAt_ruleFindings_marked (k : Finding.Place) :
    Finding.firstAt k (ruleFindings marker (nativeSearched read' (planOf known c))) =
      if elsewhere f l.number k.2.1 k.2.2.1 = true then
        (Finding.firstAt k (anyFindings marker (nativeSearched read (planOf known c)))).or
          (if occursAll (allMatches marker (nativeSearched read' (planOf known c))) k.2.1 = true then
            Finding.firstAt k (allFindings marker (nativeSearched read (planOf known c)))
          else none)
      else none := by
  rw [ruleFindings, Finding.firstAt_append, anyFindings_marked h,
    Finding.firstAt_filter fun place => elsewhere f l.number place.2.1 place.2.2.1,
    firstAt_allFindings, firstAt_allFindings, allMatches_marked h, firstOfAll_filter]
  by_cases hline : elsewhere f l.number k.2.1 k.2.2.1 = true
  · rw [if_pos hline, if_pos hline]
    simp only [hline, true_and]
    rfl
  · rw [if_neg hline, if_neg hline, if_neg fun h => hline h.1]
    rfl

/-- What is found is found in the first reading too, and not on the line. -/
theorem firstAt_of_marked {k : Finding.Place} {x : Finding}
    (hx : Finding.firstAt k (ruleFindings marker (nativeSearched read' (planOf known c))) =
      some x) :
    elsewhere f l.number k.2.1 k.2.2.1 = true ∧
      Finding.firstAt k (ruleFindings marker (nativeSearched read (planOf known c))) = some x := by
  rw [firstAt_ruleFindings_marked h] at hx
  split at hx
  · next hline =>
      refine ⟨hline, ?_⟩
      rw [ruleFindings, Finding.firstAt_append]
      cases hany : Finding.firstAt k (anyFindings marker (nativeSearched read (planOf known c))) with
      | some y => rwa [hany] at hx
      | none =>
          rw [hany, Option.none_or] at hx
          split at hx
          · exact hx
          · cases hx
  · cases hx

/-- Other files lose nothing. -/
theorem firstAt_marked_of_ne {k : Finding.Place} (hk : k.2.1 ≠ f) :
    Finding.firstAt k (ruleFindings marker (nativeSearched read' (planOf known c))) =
      Finding.firstAt k (ruleFindings marker (nativeSearched read (planOf known c))) := by
  have hocc : occursAll (allMatches marker (nativeSearched read' (planOf known c))) k.2.1 =
      occursAll (allMatches marker (nativeSearched read (planOf known c))) k.2.1 := by
    rw [allMatches_marked h]
    exact occursAll_filter fun x hx => elsewhere_of_ne (by rwa [hx]) _ _
  rw [firstAt_ruleFindings_marked h, if_pos (elsewhere_of_ne hk _ _), hocc, ruleFindings,
    Finding.firstAt_append, firstAt_allFindings, firstOfAll]
  split
  · rfl
  · next hnot => rw [if_neg fun hboth => hnot hboth.2]

/-- A rule none of whose patterns have to occur loses what it found on the line. -/
theorem firstAt_marked_of_allOf_nil (hc : c.allOf = []) (k : Finding.Place) :
    Finding.firstAt k (ruleFindings marker (nativeSearched read' (planOf known c))) =
      if elsewhere f l.number k.2.1 k.2.2.1 = true then
        Finding.firstAt k (ruleFindings marker (nativeSearched read (planOf known c)))
      else none := by
  have hall : allFindings marker (nativeSearched read (planOf known c)) = [] := by
    rw [allFindings, allMatches_native, planOf, hc]
    rfl
  rw [firstAt_ruleFindings_marked h, ruleFindings, hall, List.append_nil, Finding.firstAt_nil,
    ite_self, Option.or_none]

end Rule

/-! ## All rules -/

/-- Where the rules have different ids, every first finding is that of one rule. -/
theorem firstAt_rules_eq_some_iff {cs : List Rule.Compiled}
    (hids : (cs.map fun c => c.rule.id).Nodup) {findings : Rule.Compiled → List Finding}
    (hown : ∀ c ∈ cs, ∀ x ∈ findings c, x.key.1 = c.rule.id) {k : Finding.Place} {x : Finding} :
    Finding.firstAt k (cs.flatMap findings) = some x ↔
      ∃ c ∈ cs, Finding.firstAt k (findings c) = some x := by
  have honly : ∀ c ∈ cs, k.1 = c.rule.id → ∀ b ∈ cs, ∀ y ∈ findings b, y.key = k → b = c := by
    intro c hc hk b hb y hy hkey
    refine List.inj_on_of_nodup_map hids hb hc ?_
    show b.rule.id = c.rule.id
    rw [← hown b hb y hy, hkey, hk]
  constructor
  · intro hx
    obtain ⟨c, hc, hmem⟩ := List.mem_flatMap.mp (Finding.mem_of_firstAt hx)
    have hk : k.1 = c.rule.id := by rw [← Finding.key_of_firstAt hx, hown c hc x hmem]
    exact ⟨c, hc, by rwa [Finding.firstAt_flatMap_only hc (honly c hc hk)] at hx⟩
  · rintro ⟨c, hc, hx⟩
    have hk : k.1 = c.rule.id := by
      rw [← Finding.key_of_firstAt hx, hown c hc x (Finding.mem_of_firstAt hx)]
    rwa [Finding.firstAt_flatMap_only hc (honly c hc hk)]

/-- Results that keep the same first findings, of the places that are kept in each. -/
theorem filter_distinct_congr {p q : Finding.Place → Bool} {findings findings' : List Finding}
    (h : ∀ k, (if p k then Finding.firstAt k findings else none) =
      if q k then Finding.firstAt k findings' else none) :
    (Finding.distinct findings).filter (fun x => p x.key) =
      (Finding.distinct findings').filter fun x => q x.key := by
  rw [Finding.filter_distinct, Finding.filter_distinct]
  refine Finding.distinct_congr fun k => ?_
  rw [Finding.firstAt_filter, Finding.firstAt_filter, h k]

/-- What is left of a result when a line is suppressed. -/
structure Remains (rules : List Rule) (f : String) (number : Nat) (whole rest : Evaluation) :
    Prop where
  /-- Not only the place was there, but the finding itself. -/
  kept : ∀ x ∈ rest.findings, x ∈ whole.findings
  off : ∀ x ∈ rest.findings, ¬ (x.file = f ∧ x.line = (number : Int))
  others : rest.findings.filter (fun x => x.file ≠ f) = whole.findings.filter fun x => x.file ≠ f
  any : ∀ r ∈ rules, r.spec.allPatterns = [] → rest.findings.filter (fun x => x.rule = r.id) =
    whole.findings.filter fun x => x.rule = r.id ∧ ¬ (x.file = f ∧ x.line = (number : Int))

section All

variable {marker f : String} {l : LineAt} {known : List String}
  {read read' : String → Option Bytes} {cs : List Rule.Compiled}
  (h : Marks marker f l known read read') (hcompiled : ∀ c ∈ cs, c.rule.compile = .ok c)
  (hids : (cs.map fun c => c.rule.id).Nodup)

theorem findings_nativeEvaluation (marker : String) (read : String → Option Bytes)
    (known : List String) (cs : List Rule.Compiled) :
    (nativeEvaluation marker read known cs).findings = Finding.distinct
      (cs.flatMap fun c => ruleFindings marker (nativeSearched read (planOf known c))) := by
  rw [nativeEvaluation, conclude, List.flatMap_map]

include hcompiled hids

theorem mem_nativeEvaluation {x : Finding} :
    x ∈ (nativeEvaluation marker read known cs).findings ↔ ∃ c ∈ cs,
      Finding.firstAt x.key (ruleFindings marker (nativeSearched read (planOf known c))) =
        some x := by
  rw [findings_nativeEvaluation, Finding.mem_distinct]
  exact firstAt_rules_eq_some_iff hids fun c hc x hx =>
    (place_of_mem_ruleFindings (p := planOf known c) (hcompiled c hc) hx).1

include h

/-- Whatever a rule finds with the mark it finds without it, and off the line; a rule none of whose
patterns have to occur finds all of that. -/
theorem firstAt_flatMap_marked {r : Rule} (hr : r ∈ cs.map (·.rule))
    (hall : r.spec.allPatterns = []) {k : Finding.Place} (hk : k.1 = r.id) :
    Finding.firstAt k (cs.flatMap fun c =>
        ruleFindings marker (nativeSearched read' (planOf known c))) =
      if elsewhere f l.number k.2.1 k.2.2.1 = true then Finding.firstAt k (cs.flatMap fun c =>
        ruleFindings marker (nativeSearched read (planOf known c))) else none := by
  have hown : ∀ read : String → Option Bytes, ∀ c ∈ cs,
      ∀ x ∈ ruleFindings marker (nativeSearched read (planOf known c)), x.key.1 = c.rule.id :=
    fun read c hc x hx => (place_of_mem_ruleFindings (p := planOf known c) (hcompiled c hc) hx).1
  obtain ⟨c, hc, rfl⟩ := List.mem_map.mp hr
  have hnil : c.allOf = [] :=
    (eq_nil_of_mapM_ok (Rule.compile_inv (hcompiled c hc)).2.2.2).mpr hall
  refine Option.ext fun x => ?_
  rw [firstAt_rules_eq_some_iff hids (hown read')]
  constructor
  · rintro ⟨b, hb, hx⟩
    obtain ⟨hline, hx⟩ := firstAt_of_marked h b hx
    rw [if_pos hline, firstAt_rules_eq_some_iff hids (hown read)]
    exact ⟨b, hb, hx⟩
  · intro hx
    split at hx
    · next hline =>
        obtain ⟨b, hb, hx⟩ := (firstAt_rules_eq_some_iff hids (hown read)).mp hx
        have hid : b.rule.id = c.rule.id := by
          rw [← hown read b hb x (Finding.mem_of_firstAt hx), Finding.key_of_firstAt hx, hk]
        obtain rfl : b = c := List.inj_on_of_nodup_map hids hb hc hid
        exact ⟨b, hb, by rw [firstAt_marked_of_allOf_nil h b hnil, if_pos hline, hx]⟩
    · cases hx

/-- The second reading finds a part of what the first one finds. -/
theorem remains_nativeEvaluation : Remains (cs.map (·.rule)) f l.number
    (nativeEvaluation marker read known cs) (nativeEvaluation marker read' known cs) where
  kept x hx := by
    obtain ⟨c, hc, hfirst⟩ := (mem_nativeEvaluation hcompiled hids).mp hx
    exact (mem_nativeEvaluation hcompiled hids).mpr ⟨c, hc, (firstAt_of_marked h c hfirst).2⟩
  off x hx := by
    obtain ⟨c, -, hfirst⟩ := (mem_nativeEvaluation hcompiled hids).mp hx
    exact of_decide_eq_true (firstAt_of_marked h c hfirst).1
  others := by
    rw [findings_nativeEvaluation, findings_nativeEvaluation]
    refine filter_distinct_congr (p := fun k => k.2.1 ≠ f) (q := fun k => k.2.1 ≠ f) fun k => ?_
    split
    · next hk => exact Finding.firstAt_flatMap_congr fun c _ =>
        firstAt_marked_of_ne h c (of_decide_eq_true hk)
    · rfl
  any r hr hall := by
    rw [findings_nativeEvaluation, findings_nativeEvaluation]
    refine filter_distinct_congr (p := fun k => k.1 = r.id)
      (q := fun k => k.1 = r.id ∧ ¬ (k.2.1 = f ∧ k.2.2.1 = (l.number : Int))) fun k => ?_
    by_cases hk : k.1 = r.id
    · rw [firstAt_flatMap_marked h hcompiled hids hr hall hk]
      simp [hk, elsewhere]
    · simp [hk]

end All

/-! ## Evaluations -/

/-- An evaluation that returns a result could read the globs and the rules. -/
theorem exists_of_returns {e : Engine} {d : Disk} {rules : List Rule} {files exclude : List String}
    {result : Evaluation}
    (h : (e.evaluate Signal.quiet d rules (some files) exclude).Returns result) :
    ∃ globs cs, GlobSet.ofPatterns exclude = .ok globs ∧ compileRules rules = .ok cs := by
  obtain ⟨s', hrun⟩ := h {}
  rw [evaluate_eq] at hrun
  split at hrun
  · cases hrun
  · next globs hglobs =>
      split at hrun
      · cases hrun
      · next cs hcs => exact ⟨globs, cs, hglobs, hcs⟩

/-- The names that are considered are those of the given paths, cleaned. -/
theorem exists_nameOf_of_mem_universeOf {globs : GlobSet} {files : List String} {name : String}
    (h : name ∈ universeOf globs files) : ∃ g ∈ files, nameOf g = name := by
  obtain ⟨g, hg, hpath⟩ := mem_universeOf.mp h
  by_cases hblank : Text.trim g = ""
  · rw [universePath?_blank globs hblank] at hpath
    cases hpath
  · rw [universePath?_eq globs hblank] at hpath
    split at hpath
    · cases hpath
    · exact ⟨g, hg, Option.some.inj hpath⟩

/-- **Suppressing a line only takes findings away.**  The rules are evaluated twice on the same
paths, with the mark behind a line of a file the second time.  This can be any line of the file. -/
theorem findings_suppressed {e : Engine} (hnative : e.searcher = Searcher.native)
    (hmarker : e.marker ≠ "") (hfeed : '\n' ∉ e.marker.toList) (hreturn : '\r' ∉ e.marker.toList)
    {rules : List Rule} (hids : (rules.map Rule.id).Nodup) (files exclude : List String)
    {d d' : Disk} {f : String} {l : LineAt}
    (hplain : (FileReader.make e.root e.maxFileSize).load d f = some l.content)
    (hmarked : (FileReader.make e.root e.maxFileSize).load d' f =
      some (l.contentWith (Text.bytesOf e.marker)))
    (hothers : ∀ g ∈ files, nameOf g ≠ f → (FileReader.make e.root e.maxFileSize).load d' (nameOf g) =
      (FileReader.make e.root e.maxFileSize).load d (nameOf g)) :
    ((∃ globs, GlobSet.ofPatterns exclude = .ok globs) → (∀ r ∈ rules, ∃ c, r.compile = .ok c) →
      ∃ whole, (e.evaluate Signal.quiet d rules (some files) exclude).Returns whole) ∧
    (∀ whole, (e.evaluate Signal.quiet d rules (some files) exclude).Returns whole →
      ∃ rest, (e.evaluate Signal.quiet d' rules (some files) exclude).Returns rest ∧
        Remains rules f l.number whole rest) ∧
    ∀ content number text, IsLine content number text →
      ∃ l : LineAt, l.content = content ∧ l.number = number ∧ l.text = text := by
  refine ⟨?_, ?_, fun _ _ _ => LineAt.exists_of_isLine⟩
  · rintro ⟨globs, hglobs⟩ hrules
    obtain ⟨cs, hcs, -, -⟩ := compileRules_eq_ok hrules
    exact ⟨_, returns_evaluate hnative d files hglobs hcs⟩
  · intro whole hwhole
    obtain ⟨globs, cs, hglobs, hcs⟩ := exists_of_returns hwhole
    obtain ⟨hmap, hcompiled⟩ := compileRules_inv hcs
    have heff : e.effectiveMarker = e.marker := by simp [effectiveMarker, hmarker]
    have hmarks : Marks e.marker f l (universeOf globs files)
        ((FileReader.make e.root e.maxFileSize).load d)
        ((FileReader.make e.root e.maxFileSize).load d') := by
      refine ⟨fun hmem => hfeed ?_, fun hmem => hreturn ?_, hplain, hmarked, ?_⟩
      · exact Text.mem_bytesOf (by decide) hmem
      · exact Text.mem_bytesOf (by decide) hmem
      · intro name hname hne
        obtain ⟨g, hg, rfl⟩ := exists_nameOf_of_mem_universeOf hname
        exact hothers g hg hne
    have hids' : (cs.map fun c => c.rule.id).Nodup := by
      rw [← hmap, List.map_map] at hids
      exact hids
    refine ⟨_, returns_evaluate hnative d' files hglobs hcs, ?_⟩
    rw [hwhole.unique (returns_evaluate hnative d files hglobs hcs), heff, ← hmap]
    exact remains_nativeEvaluation hmarks hcompiled hids'

/-- The second line of the sample, without the mark. -/
def plainLine : LineAt where
  before := [97, 13, 10]
  text := [98]
  ending := []
  after := []
  starts := .inr rfl
  whole := by decide
  returns := .inl rfl
  ends := .inr ⟨rfl, by decide⟩

/-- The disk of the sample before the line was marked. -/
def plainDisk : Disk := { root := .directory [("f", .file plainLine.content)] }

theorem load_plainDisk :
    (FileReader.make "." defaultMaxSize).load plainDisk "f" = some plainLine.content := by
  simp only [FileReader.make, FileReader.load, join_single, Disk.stat, plainDisk, place_single]
  rfl

theorem plainLine_reports : sampleRule.Reports "!" plainLine.content 2 1 := by
  refine Or.inl ⟨.literal "b", List.mem_singleton_self _, ⟨.literal "b", none, Text.bytesOf "b"⟩,
    [98], rfl, ?_, ?_, ?_⟩
  · exact ⟨[98], ⟨[97, 13, 10], [], rfl, .inr rfl, by decide, .inr ⟨rfl, by decide⟩, by decide⟩,
      .inr ⟨rfl, by decide⟩⟩
  · rw [← Text.containsBytes_iff, Text.bytesOf_eq]
    decide
  · rw [Text.bytesOf_eq]
    decide

theorem findings_suppressed_sample :
    ∃ whole rest, (({ marker := "!" } : Engine).evaluate Signal.quiet plainDisk [sampleRule]
        (some ["f"]) []).Returns whole ∧
      (({ marker := "!" } : Engine).evaluate Signal.quiet sampleDisk [sampleRule]
        (some ["f"]) []).Returns rest ∧
      Remains [sampleRule] "f" 2 whole rest ∧
      ("r", "f", 2, 1) ∈ whole.findings.map Finding.key ∧
      ("r", "f", 1, 1) ∈ rest.findings.map Finding.key := by
  obtain ⟨c, hc⟩ : ∃ c, sampleRule.compile = .ok c := ⟨_, rfl⟩
  have hwhole := returns_sample_on hc plainDisk (f := "f") (by decide)
  have hmarked : (FileReader.make "." defaultMaxSize).load sampleDisk "f" =
      some (plainLine.contentWith (Text.bytesOf "!")) := by
    rw [Text.bytesOf_eq]
    exact read_sampleDisk
  obtain ⟨-, hrest, -⟩ := findings_suppressed (e := { marker := "!" }) rfl (by decide) (by decide)
    (by decide) (show ([sampleRule].map Rule.id).Nodup by decide) ["f"] [] load_plainDisk hmarked
    (fun g hg hne => by
      rw [List.mem_singleton.mp hg] at hne
      exact absurd (by decide +kernel) hne)
  obtain ⟨rest, hreturns, hremains⟩ := hrest _ hwhole
  refine ⟨_, rest, hwhole, hreturns, hremains,
    mem_places_of_reports hc load_plainDisk plainLine_reports, ?_⟩
  rw [hreturns.unique (returns_sample hc (by decide))]
  exact mem_places_sample hc

end RuleScan.Engine
