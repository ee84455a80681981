import Mathlib.Data.List.Nodup
import RuleScan.Proofs.Engine.Spared
import RuleScan.Proofs.Profile.Loading
import RuleScan.Proofs.Profile.Repeats
import RuleScan.Spec.Read

/-!
# Profiles that can be evaluated

Whether a rule makes sense is checked when it is loaded, and once more when it is made ready for
searching.  What passes the first check passes the second.

## What is proved

  * `Rule.exists_compile`, `Rule.sound_withDefaults` — a rule without problems can be made ready,
    and once its defaults are filled in its severity is one of the four and its patterns are texts
    or regular expressions.  This needs that the severity was read by its name (`Severity.Written`),
    as all severities in documents are;
  * `Profile.rulesSound_of_load`, `Profile.sound_of_parseRule` — so the rules of a profile that
    loads can be searched for, and so can a rule that is loaded on its own;
  * `Spec.rulesSound_combine`, `Spec.exists_exclusions` — the same of the rules that a specification
    is combined into, where of two rules with one id the first is kept, and its globs can be read;
  * `Provided.evaluates` — an evaluation of such rules never fails because of a rule or a glob.
-/

namespace RuleScan

open RuleScan.Yaml (Node Reading)

/-! ## Rules without problems -/

/-- A step that succeeds on each element succeeds on all. -/
theorem exists_mapM_ok {α β ε : Type} {f : α → Except ε β} {l : List α}
    (h : ∀ a ∈ l, ∃ b, f a = .ok b) : ∃ bs, l.mapM f = .ok bs := by
  induction l with
  | nil => exact ⟨[], rfl⟩
  | cons a l ih =>
      obtain ⟨⟨b, hb⟩, hl⟩ := List.forall_mem_cons.mp h
      obtain ⟨bs, hbs⟩ := ih hl
      refine ⟨b :: bs, ?_⟩
      rw [List.mapM_cons, hb, hbs]
      rfl

namespace Rule

/-- The patterns of a rule, with those that are kept but not evaluated. -/
def patterns (r : Rule) : List Pattern :=
  (r.spec :: r.expect.toList).flatMap fun s => s.anyPatterns ++ s.allPatterns

/-- A rule that can be searched for. -/
structure Sound (r : Rule) : Prop where
  compiles : ∃ c, r.compile = .ok c
  named : Text.trim r.id ≠ ""
  severity : r.severity ∈ Severity.all
  kinds : ∀ p ∈ r.patterns, p.kind = .literal ∨ p.kind = .regex

theorem compile_of_patternProblems {part : String} {ps : List Pattern}
    (h : patternProblems part ps = []) : ∀ p ∈ ps, ∃ m, p.compile = .ok m := by
  intro p hp
  obtain ⟨i, hi⟩ := List.getElem?_of_mem hp
  have hnone := List.filterMap_eq_nil_iff.mp h (p, i) (List.mem_zipIdx_iff_getElem?.mpr hi)
  cases hm : p.compile with
  | ok m => exact ⟨m, rfl⟩
  | error e => simp [hm] at hnone

theorem compile_of_specProblems {part : String} {s : PatternSpec}
    (h : specProblems part s = []) :
    ∀ p ∈ s.anyPatterns ++ s.allPatterns, ∃ m, p.compile = .ok m := by
  obtain ⟨hany, hall⟩ := List.append_eq_nil_iff.mp h
  intro p hp
  rcases List.mem_append.mp hp with hp | hp
  · exact compile_of_patternProblems hany p hp
  · exact compile_of_patternProblems hall p hp

/-- What is known of a rule without problems. -/
structure Faultless (r : Rule) : Prop where
  named : Text.trim r.id ≠ ""
  severity : ∃ s, Severity.parse r.severity.name = .ok s
  patterns : ∀ p ∈ r.patterns, ∃ m, p.compile = .ok m
  scope : ∃ s, Scope.compile r.scope = .ok s

theorem faultless_of_problems {r : Rule} (h : r.problems = []) : r.Faultless := by
  simp only [problems, List.append_eq_nil_iff] at h
  obtain ⟨⟨⟨⟨⟨hid, -⟩, hseverity⟩, hspec⟩, hexpect⟩, hscope⟩ := h
  refine ⟨?_, ?_, ?_, ?_⟩
  · intro hblank
    simp [hblank] at hid
  · cases hs : Severity.parse r.severity.name with
    | ok s => exact ⟨s, rfl⟩
    | error e => simp [hs] at hseverity
  · intro p hp
    obtain ⟨s, hs, hp⟩ := List.mem_flatMap.mp hp
    rcases List.mem_cons.mp hs with rfl | hs
    · exact compile_of_specProblems hspec p hp
    · rw [Option.mem_toList.mp hs] at hexpect
      exact compile_of_specProblems hexpect p hp
  · cases hs : Scope.compile r.scope with
    | ok s => exact ⟨s, rfl⟩
    | error e => simp [hs] at hscope

/-- A rule without problems can be made ready: the three parts are checked as they are made. -/
theorem exists_compile {r : Rule} (h : r.problems = []) : ∃ c, r.compile = .ok c := by
  obtain ⟨-, -, hpatterns, scope, hscope⟩ := faultless_of_problems h
  have hspec : ∀ p ∈ r.spec.anyPatterns ++ r.spec.allPatterns, ∃ m, p.compile = .ok m :=
    fun p hp => hpatterns p (List.mem_flatMap.mpr ⟨r.spec, List.mem_cons_self, hp⟩)
  obtain ⟨anyOf, hany⟩ := exists_mapM_ok fun p hp => hspec p (List.mem_append_left _ hp)
  obtain ⟨allOf, hall⟩ := exists_mapM_ok fun p hp => hspec p (List.mem_append_right _ hp)
  refine ⟨⟨r, scope, anyOf, allOf⟩, ?_⟩
  rw [compile, h, hscope, hany, hall]

theorem problems_of_compile {r : Rule} {c : Compiled} (h : r.compile = .ok c) :
    r.problems = [] := by
  rw [compile] at h
  split at h
  · next hnone => exact hnone
  · cases h

/-- The rules without problems are those that can be made ready. -/
theorem exists_compile_iff {r : Rule} : (∃ c, r.compile = .ok c) ↔ r.problems = [] :=
  ⟨fun ⟨_, hc⟩ => problems_of_compile hc, exists_compile⟩

end Rule

/-! ## Defaults -/

theorem Pattern.withDefaults_withDefaults (p : Pattern) :
    p.withDefaults.withDefaults = p.withDefaults := by
  by_cases h : p.kind = .other "" <;> simp [withDefaults, h]

theorem Pattern.kind_of_compile {p : Pattern} {m : Matcher} (h : p.compile = .ok m) :
    p.withDefaults.kind = .literal ∨ p.withDefaults.kind = .regex := by
  simp only [compile] at h
  split at h
  · cases h
  · split at h
    · next hkind => exact .inl hkind
    · next hkind => exact .inr hkind
    · cases h

theorem PatternSpec.patterns_withDefaults (s : PatternSpec) :
    s.withDefaults.anyPatterns ++ s.withDefaults.allPatterns =
      (s.anyPatterns ++ s.allPatterns).map Pattern.withDefaults := by
  rw [List.map_append]
  congr 1
  · cases hs : s.anyOf <;> simp [anyPatterns, withDefaults, hs]
  · cases hs : s.allOf <;> simp [allPatterns, withDefaults, hs]

/-- The severity that a document names, if it names any. -/
def Severity.Written (s : Severity) : Prop := ∃ name, s = .ofName name

theorem Severity.mem_all_of_parse {s known : Severity} (hwritten : s.Written)
    (hne : s ≠ .other "") (h : parse s.name = .ok known) : s ∈ all := by
  obtain ⟨name, rfl⟩ := hwritten
  rw [name_ofName, parse] at h
  cases hname : ofName name with
  | other n =>
      have hn : n = name := by
        have := name_ofName name
        rwa [hname] at this
      split at h
      · next hempty =>
          rw [hname, hn, hempty] at hne
          exact absurd rfl hne
      · rw [hname] at h
        cases h
  | critical => simp [all]
  | high => simp [all]
  | medium => simp [all]
  | low => simp [all]

namespace Rule

theorem patterns_withDefaults (r : Rule) :
    r.withDefaults.patterns = r.patterns.map Pattern.withDefaults := by
  have hspecs : r.withDefaults.spec :: r.withDefaults.expect.toList =
      (r.spec :: r.expect.toList).map PatternSpec.withDefaults := by
    cases hr : r.expect <;> simp [withDefaults, hr]
  rw [patterns, patterns, hspecs, List.flatMap_map, List.map_flatMap]
  exact List.flatMap_congr fun s _ => PatternSpec.patterns_withDefaults s

/-- Filling in the defaults and finding no problems makes a rule sound, if its severity is one that
a document can name. -/
theorem sound_withDefaults {r : Rule} (hwritten : r.severity.Written)
    (h : r.withDefaults.problems = []) : r.withDefaults.Sound := by
  obtain ⟨hnamed, ⟨s, hs⟩, hpatterns, -⟩ := faultless_of_problems h
  refine ⟨exists_compile h, hnamed, ?_, ?_⟩
  · by_cases hnone : r.severity = .other ""
    · simp [withDefaults, hnone, Severity.all]
    · have hkeep : r.withDefaults.severity = r.severity := by simp [withDefaults, hnone]
      rw [hkeep] at hs ⊢
      exact Severity.mem_all_of_parse hwritten hnone hs
  · intro p hp
    obtain ⟨m, hm⟩ := hpatterns p hp
    have hkind := Pattern.kind_of_compile hm
    rw [patterns_withDefaults] at hp
    obtain ⟨q, -, rfl⟩ := List.mem_map.mp hp
    rwa [Pattern.withDefaults_withDefaults] at hkind

end Rule

/-! ## Reading -/

namespace Yaml.Reading

/-- Whatever is read has a property. -/
def Gives {α : Type} (P : α → Prop) (x : Reading α) : Prop := ∀ s a, x s = .ok a → P a

variable {α β : Type} {P : α → Prop} {Q : β → Prop}

theorem gives_pure {a : α} (ha : P a) : Gives P (pure a) := by
  intro s b h
  cases h
  exact ha

theorem Gives.bind {x : Reading α} {f : α → Reading β} (hx : Gives P x)
    (hf : ∀ a, P a → Gives Q (f a)) : Gives Q (x >>= f) := by
  intro s b h
  cases ha : x s with
  | error e =>
      have hbind : (x >>= f) s = .error e := by simp only [Bind.bind, ha]
      cases hbind.symm.trans h
  | ok a =>
      have hbind : (x >>= f) s = f a s := by simp only [Bind.bind, ha]
      exact hf a (hx s a ha) s b (hbind.symm.trans h)

theorem gives_true (x : Reading α) : Gives (fun _ => True) x := fun _ _ _ => trivial

theorem gives_bind {x : Reading α} {f : α → Reading β} (hf : ∀ a, Gives Q (f a)) :
    Gives Q (x >>= f) :=
  (gives_true x).bind fun a _ => hf a

theorem Gives.inField {x : Reading α} (hx : Gives P x) (record field : String) :
    Gives P (inField record field x) := by
  intro s a h
  rw [Reading.inField] at h
  split at h
  · cases h
  · exact hx s a h

/-- A field that is absent is its default. -/
theorem gives_field {fs : Fields} {record name key : String} {default : α}
    {read : Node → Reading α} (hdefault : P default) (hread : ∀ n, Gives P (read n)) :
    Gives P (field fs record name key default read) := by
  rw [field]
  split
  · exact gives_pure hdefault
  · next n _ =>
      refine gives_bind fun null => ?_
      split
      · exact gives_pure hdefault
      · exact (hread n).inField record name

/-- An element that is null is the default. -/
theorem gives_list {null : α} {read : Node → Reading α} (hnull : P null)
    (hread : ∀ n, Gives P (read n)) (n : Node) :
    Gives (fun l => ∀ a ∈ l, P a) (list null read n) := by
  have hgo : ∀ ns, Gives (fun l => ∀ a ∈ l, P a) (list.go null read ns) := by
    intro ns
    induction ns with
    | nil => exact gives_pure (by simp)
    | cons n rest ih =>
        have hrest : ∀ a, P a → Gives (fun l => ∀ a ∈ l, P a)
            (list.go null read rest >>= fun l => pure (a :: l)) := fun a ha =>
          ih.bind fun l hl => gives_pure (List.forall_mem_cons.mpr ⟨ha, hl⟩)
        refine gives_bind fun isNull => ?_
        dsimp only
        split
        · exact (gives_pure hnull).bind hrest
        · exact (hread n).bind hrest
  exact gives_bind fun ns => hgo ns

end Yaml.Reading

open Yaml.Reading (Gives gives_pure gives_bind gives_true gives_field gives_list)

/-- What is read from a document has the property that is read with. -/
theorem Yaml.of_readDocument {α : Type} {P : α → Prop} {read : Node → Reading α}
    (hread : ∀ n, Gives P (read n)) {source : String} {a : α}
    (h : readDocument source read = .ok a) : P a := by
  rw [readDocument] at h
  split at h
  · cases h
  · split at h
    · cases h
    · next n _ _ _ =>
        dsimp only at h
        split at h
        · next b hb =>
            cases h
            exact hread n _ _ hb
        · cases h

/-- Rules name their severities. -/
theorem Rule.gives_read (n : Node) : Gives (fun r : Rule => r.severity.Written) (Rule.read n) := by
  iterate 11 refine gives_bind fun _ => ?_
  exact gives_pure ⟨_, rfl⟩

theorem Profile.gives_read (n : Node) :
    Gives (fun p : Profile => ∀ r ∈ p.rules, r.severity.Written) (Profile.read n) := by
  iterate 6 refine gives_bind fun _ => ?_
  have hdefault : (default : Rule).severity.Written := ⟨"", by decide⟩
  refine Gives.bind (gives_field ?_ (gives_list hdefault Rule.gives_read)) fun rules h => ?_
  · simp
  · exact gives_pure h

/-! ## Loading -/

/-- Rules that can be searched for together. -/
structure RulesSound (rules : List Rule) : Prop where
  sound : ∀ r ∈ rules, r.Sound
  ids : (rules.map Rule.id).Nodup

namespace Profile

theorem ruleProblems_of_problems {p : Profile} (h : p.problems = []) {i : Nat} {r : Rule}
    (hr : p.rules[i]? = some r) :
    r.problems = [] ∧ (r.id = "" ∨ ∀ q ∈ p.rules.take i, q.id ≠ r.id) := by
  obtain ⟨-, -, hall, hfresh⟩ := Draft.problems_eq_nil_iff.mp h
  have hat {j : Nat} {q : Rule} (hq : p.rules[j]? = some q) :
      p.draft.rules[j]? = some (some q) := by
    simp [draft, hq]
  constructor
  · obtain ⟨q, hq, hproblems⟩ := hall (some r) (List.mem_of_getElem? (hat hr))
    cases hq
    exact hproblems
  · by_cases hid : r.id = ""
    · exact .inl hid
    · right
      intro q hq hsame
      obtain ⟨j, hj, hqj⟩ := List.mem_take_iff_getElem.mp hq
      have hused := hat (List.getElem?_eq_some_iff.mpr ⟨_, hqj⟩)
      exact hfresh i r.id hid ⟨r, hat hr, rfl⟩ j (by omega) ⟨q, hused, hsame⟩

/-- Rules that are completed and without problems can be searched for together. -/
theorem rulesSound_of_problems {p : Profile} (hwritten : ∀ r ∈ p.rules, r.severity.Written)
    (h : p.withDefaults.problems = []) : RulesSound p.withDefaults.rules := by
  have hsound : ∀ r ∈ p.withDefaults.rules, r.Sound := by
    intro r hr
    obtain ⟨i, hi⟩ := List.getElem?_of_mem hr
    have hproblems := (ruleProblems_of_problems h hi).1
    obtain ⟨q, hq, rfl⟩ := List.mem_map.mp hr
    exact Rule.sound_withDefaults (hwritten q hq) hproblems
  refine ⟨hsound, List.pairwise_map.mpr (List.pairwise_iff_getElem.mpr ?_)⟩
  intro i j hi hj hij hsame
  have hrj : p.withDefaults.rules[j]? = some p.withDefaults.rules[j] :=
    List.getElem?_eq_getElem hj
  rcases (ruleProblems_of_problems h hrj).2 with hempty | hnew
  · refine (hsound _ (List.getElem_mem hj)).named ?_
    rw [hempty]
    decide
  · refine hnew p.withDefaults.rules[i] ?_ hsame
    exact List.mem_take_iff_getElem.mpr ⟨i, by omega, rfl⟩

theorem written_of_read {text : String} {q : Profile}
    (h : Document.read text default read = .ok q) : ∀ r ∈ q.rules, r.severity.Written := by
  rw [Document.read_eq] at h
  rcases of_emptyAs_eq_ok h with hread | rfl
  · exact Yaml.of_readDocument gives_read hread
  · intro r hr
    cases hr

/-- A profile that loads can be searched for. -/
theorem rulesSound_of_load {text source : String} {p : Profile} (h : load text source = .ok p) :
    RulesSound p.rules := by
  obtain ⟨-, q, hread, rfl, hproblems⟩ := load_eq_ok_iff.mp h
  exact rulesSound_of_problems (written_of_read hread) hproblems

theorem written_of_readBack {v : Json} {q : Rule} (h : readBack v = .ok q) :
    q.severity.Written := by
  rcases of_emptyAs_eq_ok h with hread | rfl
  · exact Yaml.of_readDocument Rule.gives_read hread
  · exact ⟨"", by decide⟩

/-- A rule that is loaded on its own can be searched for. -/
theorem sound_of_parseRule {v : Json} {r : Rule} (h : parseRule v = .ok r) : r.Sound := by
  obtain ⟨-, q, hread, rfl, hproblems⟩ := parseRule_eq_ok_iff.mp h
  exact Rule.sound_withDefaults (written_of_readBack hread) hproblems

end Profile

/-- A profile of the catalog is a document that loads. -/
theorem Catalog.exists_load {c : Catalog} {d : Disk} {name : String} {p : Profile}
    (h : c.load d name = .ok p) : ∃ text source, Profile.load text source = .ok p := by
  rw [Catalog.load] at h
  split at h
  · cases h
  · dsimp only at h
    split at h
    · obtain ⟨content, -, h⟩ := bind_eq_ok_iff.mp h
      exact ⟨_, _, h⟩
    · exact ⟨_, _, h⟩
    · cases h

/-! ## Specifications -/

namespace Spec

/-- What is kept has ids of its own, and none that was seen before. -/
theorem keepFirst_ids (seen rest : List Sourced) :
    ((keepFirst seen rest).map (·.1.id)).Nodup ∧
      ∀ r ∈ keepFirst seen rest, r ∈ rest ∧ ∀ q ∈ seen, q.1.id ≠ r.1.id := by
  fun_induction keepFirst seen rest with
  | case1 seen => simp
  | case2 seen r rest hseen ih =>
      exact ⟨ih.1, fun q hq => ⟨List.mem_cons_of_mem _ (ih.2 q hq).1, (ih.2 q hq).2⟩⟩
  | case3 seen r rest hseen ih =>
      obtain ⟨hnodup, hkept⟩ := ih
      constructor
      · refine List.nodup_cons.mpr ⟨fun hmem => ?_, hnodup⟩
        obtain ⟨q, hq, hid⟩ := List.mem_map.mp hmem
        exact (hkept q hq).2 r List.mem_cons_self hid.symm
      · intro q hq
        rcases List.mem_cons.mp hq with rfl | hq
        · refine ⟨List.mem_cons_self, fun x hx hid => hseen ?_⟩
          exact List.any_eq_true.mpr ⟨x, hx, by simp [hid]⟩
        · obtain ⟨hrest, hnew⟩ := hkept q hq
          exact ⟨List.mem_cons_of_mem _ hrest, fun x hx => hnew x (List.mem_cons_of_mem _ hx)⟩

/-- The rules of a section are loaded on their own. -/
theorem exists_parseRule_of_mem_rulesOf {lines : List Markdown.Line} {r : Rule}
    (h : r ∈ rulesOf lines) : ∃ v, Profile.parseRule v = .ok r := by
  obtain ⟨result, hmem, hr⟩ := List.mem_filterMap.mp h
  rw [parsedRules] at hmem
  split at hmem
  · obtain ⟨v, -, rfl⟩ := List.mem_map.mp hmem
    cases hv : Profile.parseRule v with
    | error f =>
        rw [hv] at hr
        cases hr
    | ok r' =>
        rw [hv] at hr
        cases hr
        exact ⟨v, hv⟩
  · cases hmem

theorem sound_of_mem_rulesOf {lines : List Markdown.Line} {r : Rule} (h : r ∈ rulesOf lines) :
    r.Sound := by
  obtain ⟨v, hv⟩ := exists_parseRule_of_mem_rulesOf h
  exact Profile.sound_of_parseRule hv

theorem sound_of_mem_contributed {c : Catalog} {d : Disk} {name : String} {x : Sourced}
    (h : x ∈ contributed c d name) : x.1.Sound := by
  rw [contributed] at h
  split at h
  · next p hp =>
      obtain ⟨text, source, hload⟩ := Catalog.exists_load hp
      obtain ⟨q, hq, rfl⟩ := List.mem_map.mp h
      exact (Profile.rulesSound_of_load hload).sound q hq
  · cases h

/-- The profile that a specification stands for can be searched for, if its own rules can. -/
theorem rulesSound_combine {s : Spec} (hcustom : ∀ r ∈ s.customRules, r.Sound) (c : Catalog)
    (d : Disk) : RulesSound (s.combine c d).rules := by
  obtain ⟨hids, hkept⟩ := keepFirst_ids [] (allRules c d s)
  have hrules : (s.combine c d).rules = (keepFirst [] (allRules c d s)).map (·.1) := rfl
  rw [hrules]
  constructor
  · intro r hr
    obtain ⟨x, hx, rfl⟩ := List.mem_map.mp hr
    rcases List.mem_append.mp (hkept x hx).1 with hx | hx
    · obtain ⟨name, -, hx⟩ := List.mem_flatMap.mp hx
      exact sound_of_mem_contributed hx
    · obtain ⟨q, hq, rfl⟩ := List.mem_map.mp hx
      exact hcustom q hq
  · rw [List.map_map]
    exact hids

end Spec

/-- Globs that can be read one by one can be read together. -/
theorem GlobSet.exists_ofPatterns {patterns : List String}
    (h : ∀ p ∈ patterns, ((ofPatterns [p]).isOk) = true) :
    ∃ globs, ofPatterns patterns = .ok globs := by
  have heach : ∀ p ∈ patterns, ∃ globs, ofPattern p = .ok globs := by
    intro p hp
    have hok := h p hp
    rw [ofPatterns, List.mapM_cons] at hok
    cases hp' : ofPattern p with
    | ok globs => exact ⟨globs, rfl⟩
    | error e =>
        rw [hp'] at hok
        cases hok
  obtain ⟨sets, hsets⟩ := exists_mapM_ok heach
  refine ⟨sets.flatten, ?_⟩
  rw [ofPatterns, hsets]
  rfl

theorem Spec.sound_customRules (c : Catalog) (content : Text.Bytes) :
    ∀ r ∈ (parse c content).1.customRules, r.Sound :=
  fun _ hr => sound_of_mem_rulesOf hr

theorem Spec.exists_exclusions (c : Catalog) (content : Text.Bytes) :
    ∃ globs, GlobSet.ofPatterns (parse c content).1.exclusions = .ok globs :=
  GlobSet.exists_ofPatterns fun _ hp => (List.mem_filter.mp hp).2

/-! ## What can be evaluated -/

/-- The rules that are evaluated: those of a profile that loads, or those of a specification with
the profiles of a catalog. -/
inductive Provided : List Rule → Prop
  | loaded {text source : String} {p : Profile} : Profile.load text source = .ok p →
      Provided p.rules
  | combined (c : Catalog) (content : Text.Bytes) (d : Disk) :
      Provided ((Spec.parse c content).1.combine c d).rules

/-- **Whatever loads can be evaluated.**  The rules are sound, the exclusions of every
specification can be read, and so no evaluation of the ones with the others fails because of a rule
or a glob. -/
theorem Provided.evaluates {rules : List Rule} (h : Provided rules) (c : Catalog)
    (content : Text.Bytes) :
    RulesSound rules ∧
    (∃ globs, GlobSet.ofPatterns (Spec.parse c content).1.exclusions = .ok globs) ∧
    ∀ e : Engine, e.searcher.Standard → e.lister.Standard → ∀ signal d files s f s',
      (e.evaluate signal d rules files (Spec.parse c content).1.exclusions).run.run s =
        (.error f, s') → f.has .invalidRule = false ∧ f.has .invalidGlob = false := by
  have hsound : RulesSound rules := by
    cases h with
    | loaded hload => exact Profile.rulesSound_of_load hload
    | combined c content d =>
        exact Spec.rulesSound_combine (Spec.sound_customRules c content) c d
  obtain ⟨globs, hglobs⟩ := Spec.exists_exclusions c content
  refine ⟨hsound, ⟨globs, hglobs⟩, ?_⟩
  intro e hsearcher hlister signal d files s f s' hrun
  have hrules : ∀ r ∈ rules, ∃ c, r.compile = .ok c := fun r hr => (hsound.sound r hr).compiles
  exact Engine.spares_evaluate hsearcher signal hlister d hrules files hglobs s f s' hrun

theorem Provided.evaluates_sample :
    (Spec.parse ⟨"", []⟩ (Text.bytesOf "## Exclusions\n~~~\n*.md\n~~~\n")).1.exclusions = ["*.md"] ∧
      RulesSound [Profile.sampleRule.withDefaults] ∧
      ∃ globs, GlobSet.ofPatterns ["*.md"] = .ok globs := by
  have hexclusions : (Spec.parse ⟨"", []⟩
      (Text.bytesOf "## Exclusions\n~~~\n*.md\n~~~\n")).1.exclusions = ["*.md"] := by
    decide +kernel
  have hprovided : Provided [Profile.sampleRule.withDefaults] := .loaded Profile.load_sampleText
  obtain ⟨hsound, hglobs, -⟩ := Provided.evaluates hprovided ⟨"", []⟩
    (Text.bytesOf "## Exclusions\n~~~\n*.md\n~~~\n")
  rw [hexclusions] at hglobs
  exact ⟨hexclusions, hsound, hglobs⟩

end RuleScan
