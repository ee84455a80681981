import RuleScan.Proofs.Engine.Native
import RuleScan.Proofs.Finding.Distinct
import RuleScan.Proofs.Search.Lines
import RuleScan.Proofs.Text.Utf8

/-!
# The places an evaluation reports

## What is proved

For the native search, over any disk, files, exclusions and rules that make sense, the places of
the findings are EXACTLY those that the rules call for: a place `(id, file, line, column)` is
reported if and only if there is a rule with that id which covers the file, the file is in the
universe and can be read, and the rule reports that line and column of its content
(`mem_places_evaluate`).

## What it is measured against

`Rule.Reports` looks at one content and knows nothing of tasks, groups of matches, sorting or
dropping.  It has two clauses: some pattern of the first kind hits the line, or every pattern of
the second kind hits SOME line of the content and one of them hits this one.  A pattern hits a line
(`Pattern.Hits`) that does not hold the mark and on which its first match starts at the column.
The lines are those of `IsLine`, given by where they stand.

A suppressed line thus counts for nothing: neither as a finding, nor as the occurrence that the
second clause asks of every pattern.
-/

namespace RuleScan

open RuleScan.Text (Bytes)

/-! ## What a rule reports -/

/-- A matcher has its first match on an unmarked line at a column. -/
def Matcher.HitsOn (marker : String) (content : Bytes) (m : Matcher) (number column : Nat)
    (text : Bytes) : Prop :=
  IsLine content number text ∧ ¬ Text.bytesOf marker <:+: text ∧ m.find? text = some column

/-- A pattern has its first match on an unmarked line at a column. -/
def Pattern.Hits (marker : String) (content : Bytes) (p : Pattern) (number column : Nat) : Prop :=
  ∃ m text, p.compile = .ok m ∧ m.HitsOn marker content number column text

/-- A file is in the scope of a rule. -/
def Rule.Covers (r : Rule) (file : String) : Prop :=
  ∃ scope, Scope.compile r.scope = .ok scope ∧ scope.accepts file = true

/-- What a rule calls for in a content. -/
def Rule.Reports (marker : String) (content : Bytes) (r : Rule) (number column : Nat) : Prop :=
  (∃ p ∈ r.spec.anyPatterns, p.Hits marker content number column) ∨
    r.spec.allPatterns ≠ [] ∧
      (∀ p ∈ r.spec.allPatterns, ∃ n c, p.Hits marker content n c) ∧
      ∃ p ∈ r.spec.allPatterns, p.Hits marker content number column

/-- Patterns and the matchers made of them hit the same lines. -/
theorem exists_hits_iff {ps : List Pattern} {ms : List Matcher}
    (h : ps.mapM Pattern.compile = .ok ms) (marker : String) (content : Bytes)
    (number column : Nat) :
    (∃ p ∈ ps, p.Hits marker content number column) ↔
      ∃ m ∈ ms, ∃ text, m.HitsOn marker content number column text := by
  constructor
  · rintro ⟨p, hp, m, text, hm, hhit⟩
    exact ⟨m, (mem_of_mapM_ok h).mpr ⟨p, hp, hm⟩, text, hhit⟩
  · rintro ⟨m, hm, text, hhit⟩
    obtain ⟨p, hp, hpm⟩ := (mem_of_mapM_ok h).mp hm
    exact ⟨p, hp, m, text, hpm, hhit⟩

theorem forall_hits_iff {ps : List Pattern} {ms : List Matcher}
    (h : ps.mapM Pattern.compile = .ok ms) (marker : String) (content : Bytes) :
    (∀ p ∈ ps, ∃ n c, p.Hits marker content n c) ↔
      ∀ m ∈ ms, ∃ n c text, m.HitsOn marker content n c text := by
  constructor
  · intro hall m hm
    obtain ⟨p, hp, hpm⟩ := (mem_of_mapM_ok h).mp hm
    obtain ⟨n, c, m', text, hpm', hhit⟩ := hall p hp
    obtain rfl : m = m' := Except.ok.inj (hpm.symm.trans hpm')
    exact ⟨n, c, text, hhit⟩
  · intro hall p hp
    obtain ⟨m, hm, hpm⟩ := exists_of_mapM_ok h hp
    obtain ⟨n, c, text, hhit⟩ := hall m hm
    exact ⟨n, c, m, text, hpm, hhit⟩

namespace Engine

variable {marker : String} {read : String → Option Bytes}

/-! ## The matches of a task -/

theorem mem_matchesIn {m : Matcher} {file : String} {x : Match} :
    x ∈ matchesIn read m file ↔ ∃ content, read file = some content ∧
      ∃ number column : Nat, ∃ text, IsLine content number text ∧ m.find? text = some column ∧
        x = ⟨file, text, number, column⟩ := by
  rw [matchesIn]
  cases read file with
  | none => simp
  | some content => simp [mem_searchContent]

/-- The unmarked matches of a matcher are its hits. -/
theorem mem_nativeUnmarked {paths : List String} {m : Matcher} {x : Match} :
    x ∈ nativeUnmarked marker read paths m ↔
      ∃ file ∈ paths, ∃ content, read file = some content ∧ ∃ number column : Nat, ∃ text,
        m.HitsOn marker content number column text ∧ x = ⟨file, text, number, column⟩ := by
  simp only [nativeUnmarked, unmarked, List.mem_filter, List.mem_flatMap, mem_matchesIn,
    Bool.not_eq_true', Matcher.HitsOn]
  constructor
  · rintro ⟨⟨file, hfile, content, hread, number, column, text, hline, hfind, rfl⟩, hmark⟩
    refine ⟨file, hfile, content, hread, number, column, text, ⟨hline, ?_, hfind⟩, rfl⟩
    rw [← Text.containsBytes_iff, hmark]
    exact Bool.false_ne_true
  · rintro ⟨file, hfile, content, hread, number, column, text, ⟨hline, hmark, hfind⟩, rfl⟩
    refine ⟨⟨file, hfile, content, hread, number, column, text, hline, hfind, rfl⟩, ?_⟩
    rw [← Text.containsBytes_iff] at hmark
    exact Bool.eq_false_iff.mpr hmark

/-- A file has all that it needs when every matcher hits some line of it. -/
theorem occursAll_native {p : Plan} {file : String} {content : Bytes} (hfile : file ∈ p.paths)
    (hread : read file = some content) :
    occursAll (allMatches marker (nativeSearched read p)) file = true ↔
      ∀ m ∈ p.rule.allOf, ∃ number column text, m.HitsOn marker content number column text := by
  simp only [allMatches_native, occursAll, List.all_map, List.all_eq_true, Function.comp_apply,
    List.any_eq_true, decide_eq_true_eq, mem_nativeUnmarked]
  constructor
  · intro h m hm
    obtain ⟨x, ⟨file', -, content', hread', number, column, text, hhit, rfl⟩, hx⟩ := h m hm
    obtain rfl : file' = file := hx
    obtain rfl : content = content' := Option.some.inj (hread.symm.trans hread')
    exact ⟨number, column, text, hhit⟩
  · intro h m hm
    obtain ⟨number, column, text, hhit⟩ := h m hm
    exact ⟨_, ⟨file, hfile, content, hread, number, column, text, hhit, rfl⟩, rfl⟩

/-! ## The places of a rule -/

theorem mem_places_anyFindings {p : Plan} {place : Finding.Place} :
    place ∈ (anyFindings marker (nativeSearched read p)).map Finding.key ↔
      ∃ file ∈ p.paths, ∃ content, read file = some content ∧ ∃ number column : Nat,
        (∃ m ∈ p.rule.anyOf, ∃ text, m.HitsOn marker content number column text) ∧
          place = (p.rule.rule.id, file, (number : Int), (column : Int)) := by
  simp only [anyFindings_native, List.mem_map, List.mem_flatMap, mem_nativeUnmarked]
  constructor
  · rintro ⟨_, ⟨m, hm, _, ⟨file, hfile, content, hread, number, column, text, hhit, rfl⟩, rfl⟩,
      rfl⟩
    exact ⟨file, hfile, content, hread, number, column, ⟨m, hm, text, hhit⟩, rfl⟩
  · rintro ⟨file, hfile, content, hread, number, column, ⟨m, hm, text, hhit⟩, rfl⟩
    exact ⟨_, ⟨m, hm, _, ⟨file, hfile, content, hread, number, column, text, hhit, rfl⟩, rfl⟩,
      rfl⟩

theorem mem_places_allFindings {p : Plan} {place : Finding.Place} :
    place ∈ (allFindings marker (nativeSearched read p)).map Finding.key ↔
      ∃ file ∈ p.paths, ∃ content, read file = some content ∧ ∃ number column : Nat,
        (p.rule.allOf ≠ [] ∧
          (∀ m ∈ p.rule.allOf, ∃ n c text, m.HitsOn marker content n c text) ∧
          ∃ m ∈ p.rule.allOf, ∃ text, m.HitsOn marker content number column text) ∧
          place = (p.rule.rule.id, file, (number : Int), (column : Int)) := by
  have hgroups : ∀ x, x ∈ (allMatches marker (nativeSearched read p)).flatten ↔
      ∃ m ∈ p.rule.allOf, x ∈ nativeUnmarked marker read p.paths m := by
    intro x
    rw [allMatches_native, ← List.flatMap_def, List.mem_flatMap]
  rw [allFindings]
  split
  · next hempty =>
      have hall : p.rule.allOf = [] := by
        simpa [allMatches_native] using hempty
      simp [hall]
  · next hempty =>
      have hall : p.rule.allOf ≠ [] := by
        simpa [allMatches_native] using hempty
      simp only [List.mem_map, List.mem_filter, hgroups]
      constructor
      · rintro ⟨_, ⟨x, ⟨⟨m, hm, hx⟩, hocc⟩, rfl⟩, rfl⟩
        obtain ⟨file, hfile, content, hread, number, column, text, hhit, rfl⟩ :=
          mem_nativeUnmarked.mp hx
        rw [occursAll_native hfile hread] at hocc
        exact ⟨file, hfile, content, hread, number, column,
          ⟨hall, hocc, m, hm, text, hhit⟩, rfl⟩
      · rintro ⟨file, hfile, content, hread, number, column, ⟨-, hocc, m, hm, text, hhit⟩, rfl⟩
        have hx : (⟨file, text, number, column⟩ : Match) ∈
            nativeUnmarked marker read p.paths m :=
          mem_nativeUnmarked.mpr ⟨file, hfile, content, hread, number, column, text, hhit, rfl⟩
        exact ⟨_, ⟨_, ⟨⟨m, hm, hx⟩, (occursAll_native hfile hread).mpr hocc⟩, rfl⟩, rfl⟩

/-- The places of a rule made ready are those that the rule calls for in the files it is given. -/
theorem mem_places_ruleFindings {p : Plan} (hc : p.rule.rule.compile = .ok p.rule)
    {place : Finding.Place} :
    place ∈ (ruleFindings marker (nativeSearched read p)).map Finding.key ↔
      ∃ file ∈ p.paths, ∃ content, read file = some content ∧ ∃ number column : Nat,
        p.rule.rule.Reports marker content number column ∧
          place = (p.rule.rule.id, file, (number : Int), (column : Int)) := by
  obtain ⟨-, -, hany, hall⟩ := Rule.compile_inv hc
  rw [ruleFindings, List.map_append, List.mem_append, mem_places_anyFindings,
    mem_places_allFindings]
  simp only [Rule.Reports, exists_hits_iff hany, exists_hits_iff hall, forall_hits_iff hall,
    ne_eq, ← eq_nil_of_mapM_ok hall]
  constructor
  · rintro (⟨file, hfile, content, hread, number, column, h, rfl⟩ |
      ⟨file, hfile, content, hread, number, column, h, rfl⟩)
    · exact ⟨file, hfile, content, hread, number, column, Or.inl h, rfl⟩
    · exact ⟨file, hfile, content, hread, number, column, Or.inr h, rfl⟩
  · rintro ⟨file, hfile, content, hread, number, column, h | h, rfl⟩
    · exact Or.inl ⟨file, hfile, content, hread, number, column, h, rfl⟩
    · exact Or.inr ⟨file, hfile, content, hread, number, column, h, rfl⟩

/-! ## The places of an evaluation -/

theorem mem_planOf_paths {c : Rule.Compiled} (hc : c.rule.compile = .ok c) {known : List String}
    {file : String} : file ∈ (planOf known c).paths ↔ file ∈ known ∧ c.rule.Covers file := by
  obtain ⟨-, hscope, -, -⟩ := Rule.compile_inv hc
  simp [planOf, List.mem_filter, Rule.Covers, hscope]

/-- **The places of the findings are exactly those that the rules call for.** -/
theorem mem_places_evaluate {e : Engine} (hnative : e.searcher = Searcher.native)
    (hmarker : e.marker ≠ "") (d : Disk) {rules : List Rule}
    (hrules : ∀ r ∈ rules, ∃ c, r.compile = .ok c) (files : List String) {exclude : List String}
    {globs : GlobSet} (hglobs : GlobSet.ofPatterns exclude = .ok globs) :
    ∃ result, (e.evaluate Signal.quiet d rules (some files) exclude).Returns result ∧
      ∀ place, place ∈ result.findings.map Finding.key ↔
        ∃ r ∈ rules, ∃ file ∈ universeOf globs files, r.Covers file ∧
          ∃ content, ((FileReader.make e.root e.maxFileSize).read d file).1 = some content ∧
            ∃ number column : Nat, r.Reports e.marker content number column ∧
              place = (r.id, file, (number : Int), (column : Int)) := by
  obtain ⟨cs, hcs, hmap, hcompiled⟩ := compileRules_eq_ok hrules
  refine ⟨_, returns_evaluate hnative d files hglobs hcs, ?_⟩
  intro place
  have hmem : ∀ r, r ∈ rules ↔ ∃ c ∈ cs, c.rule = r := fun r => by rw [← hmap, List.mem_map]
  have heff : e.effectiveMarker = e.marker := by simp [effectiveMarker, hmarker]
  have hread : ∀ file, ((FileReader.make e.root e.maxFileSize).read d file).1 =
      (FileReader.make e.root e.maxFileSize).load d file := fun _ => rfl
  simp only [nativeEvaluation, conclude, Finding.mem_key_distinct, heff, hread]
  rw [List.map_flatMap, List.flatMap_map, List.mem_flatMap]
  constructor
  · rintro ⟨c, hc, hplace⟩
    obtain ⟨file, hfile, content, hcontent, number, column, hreports, rfl⟩ :=
      (mem_places_ruleFindings (p := planOf (universeOf globs files) c) (hcompiled c hc)).mp hplace
    obtain ⟨hknown, hcovers⟩ := (mem_planOf_paths (hcompiled c hc)).mp hfile
    exact ⟨c.rule, (hmem c.rule).mpr ⟨c, hc, rfl⟩, file, hknown, hcovers, content, hcontent,
      number, column, hreports, rfl⟩
  · rintro ⟨r, hr, file, hknown, hcovers, content, hcontent, number, column, hreports, rfl⟩
    obtain ⟨c, hc, rfl⟩ := (hmem r).mp hr
    have hfile := (mem_planOf_paths (hcompiled c hc)).mpr ⟨hknown, hcovers⟩
    refine ⟨c, hc, (mem_places_ruleFindings (p := planOf (universeOf globs files) c)
      (hcompiled c hc)).mpr ?_⟩
    exact ⟨file, hfile, content, hcontent, number, column, hreports, rfl⟩

/-! ## A content with a mark

The lines `a`, with a carriage return, and `b!`, where `!` is the mark.  The rule asks for `a`
twice: a repeated pattern is satisfied by one line.  The line with `b` is suppressed. -/

/-- One pattern that may occur, and one that has to occur, asked for twice. -/
def sampleRule : Rule :=
  { spec := { anyOf := some [.literal "b"], allOf := some [.literal "a", .literal "a"] }
    id := "r"
    description := "d"
    severity := .low }

/-- One file with two lines, the second without an end. -/
def sampleDisk : Disk := { root := .directory [("f", .file [97, 13, 10, 98, 33])] }

theorem sampleRule_compiles : ∀ r ∈ [sampleRule], ∃ c, r.compile = .ok c := by
  intro r hr
  rw [List.mem_singleton.mp hr]
  exact ⟨_, rfl⟩

/-- The one file at the top of a disk is where its name says. -/
theorem place_single (content : Bytes) :
    ({ root := .directory [("f", .file content)] } : Disk).place "f" = .ok ["f"] := by
  have hnames : ({ root := .directory [("f", .file content)] } : Disk).fullNames "f" = ["f"] := by
    show Disk.fullNames {} "f" = ["f"]
    decide
  rw [Disk.place, hnames, Disk.follow]
  rfl

theorem join_single : Path.join [".", "f"] = "f" := by decide

theorem read_sampleDisk :
    ((FileReader.make "." defaultMaxSize).read sampleDisk "f").1 = some [97, 13, 10, 98, 33] := by
  simp only [FileReader.read, FileReader.make, FileReader.load, List.find?_nil, join_single,
    Disk.stat, sampleDisk, place_single]
  rfl

theorem hits_first_line :
    Pattern.Hits "!" [97, 13, 10, 98, 33] (.literal "a") 1 1 := by
  refine ⟨⟨.literal "a", none, Text.bytesOf "a"⟩, [97], rfl, ?_, ?_, ?_⟩
  · exact ⟨[97, 13], ⟨[], [10, 98, 33], rfl, Or.inl rfl, by decide, Or.inl rfl, rfl⟩, Or.inl rfl⟩
  · rw [← Text.containsBytes_iff, Text.bytesOf_eq]
    decide
  · rw [Text.bytesOf_eq]
    decide

theorem sampleRule_reports : sampleRule.Reports "!" [97, 13, 10, 98, 33] 1 1 := by
  refine Or.inr ⟨List.cons_ne_nil _ _, ?_, .literal "a", List.mem_cons_self, hits_first_line⟩
  intro p hp
  obtain rfl : p = .literal "a" := by
    simpa [sampleRule, PatternSpec.allPatterns] using hp
  exact ⟨1, 1, hits_first_line⟩

theorem not_hits_second_line (p : Pattern) (column : Nat) :
    ¬ p.Hits "!" [97, 13, 10, 98, 33] 2 column := by
  rintro ⟨m, text, -, hline, hmark, -⟩
  have htext : text = [98, 33] := by
    have h := isLine_iff.mp hline
    rw [show (contentLines [97, 13, 10, 98, 33]).map dropReturn = [[97], [98, 33]] by decide] at h
    simpa [eq_comm] using h
  refine hmark (Text.containsBytes_iff.mp ?_)
  rw [htext, Text.bytesOf_eq]
  decide

theorem mem_places_evaluate_sample :
    ∃ result, (({ marker := "!" } : Engine).evaluate Signal.quiet sampleDisk [sampleRule]
        (some ["f"]) []).Returns result ∧
      ("r", "f", 1, 1) ∈ result.findings.map Finding.key ∧
      ("r", "f", 2, 1) ∉ result.findings.map Finding.key := by
  obtain ⟨result, hreturns, hplaces⟩ := mem_places_evaluate (e := { marker := "!" }) rfl
    (by decide) sampleDisk sampleRule_compiles ["f"]
    (show GlobSet.ofPatterns [] = .ok [] from rfl)
  refine ⟨result, hreturns, (hplaces _).mpr ?_, fun h => ?_⟩
  · have hknown : "f" ∈ universeOf [] ["f"] :=
      mem_universeOf.mpr ⟨"f", List.mem_singleton_self _, by decide⟩
    exact ⟨sampleRule, List.mem_singleton_self _, "f", hknown, ⟨_, rfl, by decide⟩,
      _, read_sampleDisk, 1, 1, sampleRule_reports, rfl⟩
  · obtain ⟨r, -, file, -, -, content, hread, number, column, hreports, hplace⟩ := (hplaces _).mp h
    simp only [Prod.mk.injEq] at hplace
    obtain ⟨-, rfl, hnumber, -⟩ := hplace
    obtain rfl : number = 2 := by omega
    obtain rfl := Option.some.inj (read_sampleDisk.symm.trans hread)
    rcases hreports with ⟨p, -, hhit⟩ | ⟨-, -, p, -, hhit⟩ <;>
      exact not_hits_second_line p column hhit

end Engine

end RuleScan
