import RuleScan.Proofs.Glob.Readable
import RuleScan.Proofs.Profile.Sound
import RuleScan.Proofs.Settings.Precedence
import RuleScan.Proofs.Text.Space

/-!
# Exclusions of projects

The globs that a project excludes are read twice: each as it is written when the configuration is
checked, and once more, without the blanks around them, when they are made ready for a scan.  Behind
`**/` there is then a second glob.

## What is proved

  * `Glob.reads_trim`, `Glob.reads_behind_stars` — a glob that can be read can be read without the
    blanks around it, and without `**/` in front;
  * `GlobSet.exists_ofPattern` — so a written glob that can be read can be made ready;
  * `ProjectConfig.badExclusions_eq_nil_iff` — the exclusions that are accepted are those that can
    be read one by one;
  * `Cli.spares_exclusions` — the exclusions of settings that load are accepted, so a scan that a
    command line asks for does not fail because of one;
  * `exclusions_compile` — exclusions that are accepted can be made ready, also together with those
    of a specification, and no scan fails because of them.
-/

namespace RuleScan

/-! ## Globs without blanks -/

namespace Text

/-- A text is what is left of it without blanks, between blanks. -/
theorem exists_append_trim (s : String) :
    ∃ front back, s.toList = front ++ ((trim s).toList ++ back) ∧
      (∀ c ∈ front, isSpace c = true) ∧ ∀ c ∈ back, isSpace c = true := by
  refine ⟨s.toList.takeWhile isSpace, (s.toList.dropWhile isSpace).rtakeWhile isSpace, ?_, ?_, ?_⟩
  · have htrim : (trim s).toList = (s.toList.dropWhile isSpace).rdropWhile isSpace := by
      rw [trim, String.toList_ofList]
      rfl
    rw [htrim, List.rdropWhile_append_rtakeWhile, List.takeWhile_append_dropWhile]
  · exact fun c hc => List.mem_takeWhile_imp hc
  · exact fun c hc => List.mem_rtakeWhile_imp hc

end Text

namespace Glob

open RuleScan.Glob.Tree (Reads)

/-- The characters that mean something in a glob are not blank. -/
theorem not_isSpace_of_mem : ∀ c ∈ Tree.undecodable :: Tree.ending :: '\\' :: ']' :: Tree.stops 1,
    Text.isSpace c = false := by
  have hall : (Tree.undecodable :: Tree.ending :: '\\' :: ']' :: Tree.stops 1).all
      (fun c => Text.isSpace c == false) = true := by decide
  exact fun c hc => eq_of_beq (List.all_eq_true.mp hall c hc)

/-- Blanks are ordinary characters of a glob. -/
theorem reads_behind_blank {c : Char} {s : List Char} (h : Reads 0 .part (c :: s))
    (hblank : Text.isSpace c = true) : Reads 0 .part s := by
  have hne : ∀ d ∈ Tree.undecodable :: Tree.ending :: '\\' :: ']' :: Tree.stops 1, c ≠ d := by
    rintro d hd rfl
    rw [not_isSpace_of_mem c hd] at hblank
    cases hblank
  refine h.behind_plain (by decide) ?_ (hne _ (by simp)) fun hstop => ?_
  · exact Tree.isUnreadable_eq_false (hne _ (by simp)) (hne _ (by simp))
  · exact hne c (by simp_all [Tree.stops]) rfl

theorem reads_behind_blanks {front s : List Char} (h : Reads 0 .part (front ++ s))
    (hblank : ∀ c ∈ front, Text.isSpace c = true) : Reads 0 .part s := by
  induction front with
  | nil => exact h
  | cons c front ih =>
      obtain ⟨hc, hfront⟩ := List.forall_mem_cons.mp hblank
      exact ih (reads_behind_blank h hc) hfront

/-- A glob can be read without the blanks around it. -/
theorem reads_trim {text : String} (h : Reads 0 .part text.toList) :
    Reads 0 .part (Text.trim text).toList := by
  obtain ⟨front, back, htext, hfront, hback⟩ := Text.exists_append_trim text
  rw [htext] at h
  refine (reads_behind_blanks h hfront).of_append fun hbracket => ?_
  have hblank := hback _ hbracket
  exact absurd hblank (by decide)

/-- A glob can be read without `**/` in front. -/
theorem reads_behind_stars {s : List Char} (h : Reads 0 .part ('*' :: '*' :: '/' :: s)) :
    Reads 0 .part s := by
  rw [Tree.reads_begun_iff (by decide) .star, Tree.reads_begun_iff (by decide) .star] at h
  exact h.behind_plain (by decide) (by decide) (by decide) (by decide)

end Glob

namespace GlobSet

/-- A written glob that can be read as it is can be made ready. -/
theorem exists_ofPattern {pattern : String} (h : ∃ g, Glob.ofText pattern = .ok g) :
    ∃ set, ofPattern pattern = .ok set := by
  have htrim := Glob.reads_trim (Glob.exists_ofText_iff.mp h)
  obtain ⟨g, hg⟩ := Glob.exists_ofText_iff.mpr htrim
  fun_cases ofPattern pattern with
  | case1 => exact ⟨[], rfl⟩
  | case2 p hne compiled c rest hp =>
      have hrest : Glob.Tree.Reads 0 .part (String.ofList (c :: rest)).toList := by
        rw [String.toList_ofList]
        exact Glob.reads_behind_stars (hp ▸ htrim)
      obtain ⟨g', hg'⟩ := Glob.exists_ofText_iff.mpr hrest
      refine ⟨[g, g'], ?_⟩
      simp only [compiled, p, hg, hg']
      rfl
  | case3 p hne compiled hp =>
      refine ⟨[g], ?_⟩
      simp only [compiled, p, hg]
      rfl

end GlobSet

/-! ## Exclusions that are accepted -/

namespace ProjectConfig

/-- The exclusions that are accepted are those that can be read one by one. -/
theorem badExclusions_eq_nil_iff {i : Nat} {globs : List String} :
    badExclusions i globs = [] ↔ ∀ glob ∈ globs, ∃ g, Glob.ofText glob = .ok g := by
  induction globs generalizing i with
  | nil => exact ⟨fun _ => nofun, fun _ => rfl⟩
  | cons glob rest ih =>
      rw [badExclusions, List.forall_mem_cons]
      cases hglob : Glob.ofText glob with
      | ok g => exact ih.trans (and_iff_right ⟨g, rfl⟩).symm
      | error e => exact ⟨nofun, fun h => nomatch h.1⟩

end ProjectConfig

namespace GlobSet

/-- Globs are made ready one after the other. -/
theorem ofPatterns_append (globs globs' : List String) :
    ofPatterns (globs ++ globs') = do
      let set ← ofPatterns globs
      let set' ← ofPatterns globs'
      return set ++ set' := by
  rw [ofPatterns, ofPatterns, ofPatterns, List.mapM_append]
  cases globs.mapM ofPattern with
  | error e => rfl
  | ok sets =>
      cases globs'.mapM ofPattern with
      | error e => rfl
      | ok sets' => exact congrArg Except.ok List.flatten_append

/-- Globs that are made ready before and behind do not keep others from it. -/
theorem ofPatterns_between {before globs behind : List String} {set set' : GlobSet}
    (hbefore : ofPatterns before = .ok set) (hbehind : ofPatterns behind = .ok set') :
    ofPatterns (before ++ globs ++ behind) =
      (ofPatterns globs).map fun found => set ++ found ++ set' := by
  rw [ofPatterns_append, ofPatterns_append, hbefore, hbehind]
  cases ofPatterns globs with
  | error e => rfl
  | ok found => rfl

/-- Exclusions that are accepted can be made ready. -/
theorem exists_ofPatterns_of_badExclusions {i : Nat} {globs : List String}
    (h : ProjectConfig.badExclusions i globs = []) : ∃ set, ofPatterns globs = .ok set := by
  have hread := ProjectConfig.badExclusions_eq_nil_iff.mp h
  obtain ⟨sets, hsets⟩ := exists_mapM_ok fun glob hglob => exists_ofPattern (hread glob hglob)
  refine ⟨sets.flatten, ?_⟩
  rw [ofPatterns, hsets]
  rfl

end GlobSet

/-! ## Scans -/

namespace Spec

/-- What is loaded as a specification was read from some content, or is empty. -/
theorem exists_of_load {d : Disk} {path : String} {catalog : Option Catalog} {s : Spec}
    {records : List Log.Record} (h : load d path catalog = .ok (s, records)) :
    s = {} ∨ ∃ c content, s = (parse c content).1 := by
  rw [load] at h
  split at h
  · cases h
    exact .inl rfl
  · split at h
    · exact .inr ⟨_, _, congrArg Prod.fst (Except.ok.inj h).symm⟩
    · split at h
      · cases h
        exact .inl rfl
      · cases h

end Spec

namespace Scanner

variable {s : Scanner} {d : Disk} {p : Plan}

/-- A profile that someone asks for is a document that loads. -/
theorem exists_load_of_resolveProfile {c : Catalog} {ref : String} {q : Profile}
    (h : resolveProfile d c ref = .ok q) : ∃ text source, Profile.load text source = .ok q := by
  rw [resolveProfile] at h
  split at h
  · obtain ⟨content, -, hload⟩ := bind_eq_ok_iff.mp h
    exact ⟨_, _, hload⟩
  · split at h
    · exact Catalog.exists_load h
    · cases h

/-- What is planned: to evaluate the profile that is asked for, or the one that a specification
stands for. -/
theorem plan_cases (h : s.plan d = .ok p) :
    (∃ q, (∃ text source, Profile.load text source = .ok q) ∧ p.rules = q.rules ∧
      p.exclude = s.settings.exclude ++ s.exclude) ∨
    ∃ spec c, (spec = {} ∨ ∃ c content, spec = (Spec.parse c content).1) ∧
      p.rules = (spec.combine c d).rules ∧
      p.exclude = s.settings.exclude ++ s.exclude ++ spec.exclusions := by
  rw [plan] at h
  dsimp only at h
  split at h
  · obtain ⟨q, hq, h⟩ := bind_eq_ok_iff.mp h
    cases h
    exact .inl ⟨q, exists_load_of_resolveProfile hq, rfl, rfl⟩
  · obtain ⟨⟨spec, records⟩, hspec, h⟩ := bind_eq_ok_iff.mp h
    cases h
    exact .inr ⟨spec, _, Spec.exists_of_load hspec, rfl, rfl⟩

/-- Whatever is planned can be searched for. -/
theorem rulesSound_plan (h : s.plan d = .ok p) : RulesSound p.rules := by
  rcases plan_cases h with ⟨q, ⟨text, source, hload⟩, hrules, -⟩ | ⟨spec, c, hspec, hrules, -⟩
  · rw [hrules]
    exact Profile.rulesSound_of_load hload
  · rw [hrules]
    refine Spec.rulesSound_combine ?_ c d
    rcases hspec with rfl | ⟨c', content, rfl⟩
    · intro r hr
      exact absurd hr List.not_mem_nil
    · exact Spec.sound_customRules c' content

/-- Beside the exclusions of the project and of the run, a plan has some that can be made ready. -/
theorem exists_exclude_plan (h : s.plan d = .ok p) :
    ∃ own set, p.exclude = s.settings.exclude ++ s.exclude ++ own ∧
      GlobSet.ofPatterns own = .ok set := by
  rcases plan_cases h with ⟨q, -, -, hexclude⟩ | ⟨spec, c, hspec, -, hexclude⟩
  · exact ⟨[], [], hexclude.trans (List.append_nil _).symm, rfl⟩
  · rcases hspec with rfl | ⟨c', content, rfl⟩
    · exact ⟨[], [], hexclude, rfl⟩
    · obtain ⟨set, hset⟩ := Spec.exists_exclusions c' content
      exact ⟨_, set, hexclude, hset⟩

/-- A report fails with nothing else than the evaluation of what is planned. -/
theorem fails_report {P : Failure → Prop} (h : s.plan d = .ok p) (signal : Signal)
    (heval : (s.engine.evaluate (limited s.timeLimit signal) d p.rules
      (if s.files.isEmpty then none else some s.files) p.exclude).Fails P) (c : Circumstances) :
    (s.report c signal d).Fails P := by
  rw [report, h]
  dsimp only
  rw [pure_bind]
  exact heval.bind fun _ => RunM.fails_pure _

/-- A scanner searches and lists in the ways there are. -/
structure Ordinary (s : Scanner) : Prop where
  searcher : s.engine.searcher.Standard
  lister : s.engine.lister.Standard

/-- Of what is planned with exclusions that are accepted, only globs of the run can be refused. -/
theorem refused_of_plan (hplan : s.plan d = .ok p)
    (haccepted : ProjectConfig.badExclusions 0 s.settings.exclude = []) {e : GlobSet.Error}
    (h : GlobSet.ofPatterns p.exclude = .error e) : GlobSet.ofPatterns s.exclude = .error e := by
  obtain ⟨set, hset⟩ := GlobSet.exists_ofPatterns_of_badExclusions haccepted
  obtain ⟨own, set', hexclude, hown⟩ := exists_exclude_plan hplan
  rw [hexclude, GlobSet.ofPatterns_between hset hown] at h
  cases hrun : GlobSet.ofPatterns s.exclude with
  | error e' =>
      rw [hrun] at h
      cases h
      rfl
  | ok found =>
      rw [hrun] at h
      cases h

/-- If globs of the run are not refused either, then nothing is. -/
theorem spares_report (hs : s.Ordinary) (hplan : s.plan d = .ok p)
    (haccepted : ProjectConfig.badExclusions 0 s.settings.exclude = []) {set : GlobSet}
    (hset : GlobSet.ofPatterns s.exclude = .ok set) (c : Circumstances) (signal : Signal) :
    (s.report c signal d).Fails Failure.SparesInput := by
  have hrules : ∀ r ∈ p.rules, ∃ c, r.compile = .ok c := fun r hr =>
    ((rulesSound_plan hplan).sound r hr).compiles
  cases hglobs : GlobSet.ofPatterns p.exclude with
  | error e =>
      rw [refused_of_plan hplan haccepted hglobs] at hset
      cases hset
  | ok globs =>
      refine fails_report hplan signal ?_ c
      exact Engine.spares_evaluate hs.searcher _ hs.lister d hrules _ hglobs

end Scanner

/-! ## Scans of a command line -/

theorem Engine.ordinary_foldl_set {e : Engine} (options : List Engine.Setting)
    (h : e.searcher.Standard) : (options.foldl set e).searcher.Standard ∧
      (options.foldl set e).lister = e.lister := by
  induction options generalizing e with
  | nil => exact ⟨h, rfl⟩
  | cons o options ih =>
      cases o with
      | searcher c => exact ih (.external c)
      | _ => exact ih h

theorem Scanner.ordinary_of_make {environment : List String} {root : String} {settings : Settings}
    {s : Scanner} (h : make environment root settings = .ok s) :
    s.Ordinary ∧ s.settings = settings := by
  obtain ⟨options, -, h⟩ := bind_eq_ok_iff.mp h
  obtain ⟨limit, -, h⟩ := bind_eq_ok_iff.mp h
  cases h
  obtain ⟨hsearcher, hlister⟩ := Engine.ordinary_foldl_set (e := { root }) options .native
  refine ⟨⟨hsearcher, ?_⟩, rfl⟩
  show (options.foldl Engine.set { root }).lister.Standard
  rw [hlister]
  exact .orElse .tracked .walk

namespace Settings

/-- The exclusions of settings that load are accepted. -/
theorem badExclusions_of_load {d : Disk} {root path : String} {asked : Bool} {s : Settings}
    (h : load d root path asked = .ok s) : ProjectConfig.badExclusions 0 s.exclude = [] := by
  obtain ⟨user, -, h⟩ := bind_eq_ok_iff.mp h
  obtain ⟨project, hproject, h⟩ := bind_eq_ok_iff.mp h
  cases h
  obtain ⟨place, -, hproject⟩ := bind_eq_ok_iff.mp hproject
  cases place with
  | none =>
      cases hproject
      rfl
  | some place =>
      obtain ⟨config, hread, hproject⟩ := bind_eq_ok_iff.mp hproject
      cases hproject
      obtain ⟨content, -, hload⟩ := readFile_eq_ok_iff.mp hread
      obtain ⟨-, -, hproblems⟩ := ProjectConfig.load_eq_ok_iff.mp hload
      exact (List.append_eq_nil_iff.mp hproblems).2

end Settings

namespace Cli

/-- The scanner of a command line has the settings for its directory, with what the command line
asks for over them. -/
theorem scanner_of_scannerFor {w : World} {g : Given} {args : List String} {s : Scanner}
    (h : scannerFor w g args = .ok s) :
    s.Ordinary ∧ s.exclude = g.texts "exclude" ∧ ∃ root settings,
      Settings.load w.disk root (configPath w g).1 (configPath w g).2 = .ok settings ∧
        s.settings = settings.withWishes (wishesOf g) := by
  obtain ⟨root, -, h⟩ := bind_eq_ok_iff.mp h
  obtain ⟨settings, hload, h⟩ := bind_eq_ok_iff.mp h
  dsimp only at h
  split at h
  · cases h
  · obtain ⟨made, hmade, h⟩ := bind_eq_ok_iff.mp h
    cases h
    obtain ⟨hordinary, hsettings⟩ := Scanner.ordinary_of_make hmade
    exact ⟨⟨hordinary.searcher, hordinary.lister⟩, rfl, root, settings, hload, hsettings⟩

/-- A scan that a command line asks for does not fail because of an exclusion of the project.  The
only globs that it can refuse are those that the command line itself gives. -/
theorem spares_exclusions {w : World} {g : Given} {args : List String} {s : Scanner}
    (h : scannerFor w g args = .ok s) (d : Disk) (p : Scanner.Plan) (hplan : s.plan d = .ok p) :
    (∀ e, GlobSet.ofPatterns p.exclude = .error e →
      GlobSet.ofPatterns (g.texts "exclude") = .error e) ∧
    ∀ set, GlobSet.ofPatterns (g.texts "exclude") = .ok set →
      ∀ c signal, (s.report c signal d).Fails Failure.SparesInput := by
  obtain ⟨hordinary, hexclude, root, settings, hload, hsettings⟩ := scanner_of_scannerFor h
  have haccepted : ProjectConfig.badExclusions 0 s.settings.exclude = [] := by
    rw [hsettings]
    exact Settings.badExclusions_of_load (s := settings) hload
  rw [← hexclude]
  constructor
  · intro e he
    exact Scanner.refused_of_plan hplan haccepted he
  · intro set hset c signal
    exact Scanner.spares_report hordinary hplan haccepted hset c signal

end Cli

/-! ## Exclusions and scans -/

/-- **Exclusions that are accepted never stop a scan.**  If nothing is wrong with the exclusions of
a project, they can be made ready, alone and together with those of any specification.  Of what is
planned with them, only globs that the run itself gives can be refused; and if these are not, no
report fails because of a rule or a glob.  The exclusions of settings that load are accepted, so this
is so of every scan that a command line asks for. -/
theorem exclusions_compile {globs : List String}
    (h : ProjectConfig.badExclusions 0 globs = []) :
    (∃ set, GlobSet.ofPatterns globs = .ok set) ∧
    (∀ catalog content, ∃ set,
      GlobSet.ofPatterns (globs ++ (Spec.parse catalog content).1.exclusions) = .ok set) ∧
    (∀ s : Scanner, s.settings.exclude = globs → ∀ d p, s.plan d = .ok p →
      (∀ e, GlobSet.ofPatterns p.exclude = .error e → GlobSet.ofPatterns s.exclude = .error e) ∧
      ∀ set, GlobSet.ofPatterns s.exclude = .ok set → s.Ordinary →
        ∀ c signal, (s.report c signal d).Fails Failure.SparesInput) ∧
    ∀ (w : Cli.World) (g : Cli.Given) args s, Cli.scannerFor w g args = .ok s →
      ∀ d p, s.plan d = .ok p →
        (∀ e, GlobSet.ofPatterns p.exclude = .error e →
          GlobSet.ofPatterns (g.texts "exclude") = .error e) ∧
        ∀ set, GlobSet.ofPatterns (g.texts "exclude") = .ok set →
          ∀ c signal, (s.report c signal d).Fails Failure.SparesInput := by
  obtain ⟨set, hset⟩ := GlobSet.exists_ofPatterns_of_badExclusions h
  refine ⟨⟨set, hset⟩, ?spec, ?scans, fun w g args s => Cli.spares_exclusions⟩
  case spec =>
    intro catalog content
    obtain ⟨own, hown⟩ := Spec.exists_exclusions catalog content
    refine ⟨set ++ own, ?_⟩
    rw [GlobSet.ofPatterns_append, hset, hown]
    rfl
  case scans =>
    rintro s rfl d p hplan
    constructor
    · intro e he
      exact Scanner.refused_of_plan hplan h he
    · intro found hfound hs c signal
      exact Scanner.spares_report hs hplan h hfound c signal

/-- A scanner for a project with exclusions, in a run with one of its own. -/
def Scanner.excluding (globs : List String) : Scanner :=
  { engine := {}
    settings := { engine := {}, report := {}, specPath := "", exclude := globs }
    root := "/"
    timeLimit := 0
    exclude := ["*.min.js"] }

/-- A glob with blanks behind it, and a blank one. -/
def sampleExclusions : List String := ["**/\x7bdist,build\x7d/[!_]*.js ", " "]

theorem exclusions_compile_sample :
    ∃ set p, ProjectConfig.badExclusions 0 sampleExclusions = [] ∧
      GlobSet.ofPatterns sampleExclusions = .ok set ∧
      (Scanner.excluding sampleExclusions).plan {} = .ok p ∧
      ((Scanner.excluding sampleExclusions).report {} Signal.quiet {}).Fails
        Failure.SparesInput := by
  have haccepted : ProjectConfig.badExclusions 0 sampleExclusions = [] := by decide +kernel
  obtain ⟨⟨set, hset⟩, -, hscans, -⟩ := exclusions_compile haccepted
  obtain ⟨p, hplan⟩ : ∃ p, (Scanner.excluding sampleExclusions).plan {} = .ok p := ⟨_, rfl⟩
  obtain ⟨own, hown⟩ : ∃ own, GlobSet.ofPatterns ["*.min.js"] = .ok own :=
    GlobSet.exists_ofPatterns_of_badExclusions (i := 0) (by decide +kernel)
  obtain ⟨-, hspares⟩ := hscans (Scanner.excluding sampleExclusions) rfl {} p hplan
  have hordinary : (Scanner.excluding sampleExclusions).Ordinary :=
    ⟨.native, .orElse .tracked .walk⟩
  exact ⟨set, p, haccepted, hset, hplan, hspares own hown hordinary {} Signal.quiet⟩

end RuleScan
