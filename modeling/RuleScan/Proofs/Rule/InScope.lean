import RuleScan.Proofs.Disk.Names
import RuleScan.Proofs.Engine.Native
import RuleScan.Proofs.Settings.Exclusions

/-!
# What is in scope

A scope is written as two lists of patterns and a condition, and made ready as two sets of globs and
a predicate.

## What is proved

  * `GlobSet.ofPattern_cases`, `GlobSet.accepts_ofPatterns` — a pattern that is not blank stands for
    a glob for each of its READINGS, a set of globs accepts the files that some pattern names, and
    it is empty exactly if every pattern is blank;
  * `GlobSet.exists_ofPatterns_iff` — patterns can be made ready exactly if each one can;
  * `Scope.accepts_iff_inScope` — so a scope accepts a file for what is WRITTEN in it;
  * `Scope.accepts_means` — all of this together, with what follows for lists of patterns: neither
    order nor repetitions nor blank patterns matter, and excluding more brings no file into scope.

## Why blank patterns count for nothing

They are dropped before the set is looked at.  A list of blank patterns therefore includes every
file, as an empty list does, and not none.  Where a file has a name a blank pattern could not match
it anyway (`GlobSet.names_iff`).
-/

namespace RuleScan

namespace GlobSet

/-! ## Patterns -/

/-- A pattern that says nothing. -/
def Blank (pattern : String) : Prop := Text.trim pattern = ""

/-- What a pattern is read as: itself without the blanks around it, and what follows `**/` at its
front. -/
inductive Reading (pattern : String) : String → Prop
  | whole : Reading pattern (Text.trim pattern)
  | behind {rest : String} (h : Text.trim pattern = "**/" ++ rest) (hne : rest ≠ "") :
      Reading pattern rest

/-- Whether a glob matches the whole path of a file or its last element. -/
def Matches (g : Glob) (file : String) : Prop :=
  g.accepts file = true ∨ g.accepts (Path.base file) = true

/-- Whether a pattern names a file. -/
def Names (pattern file : String) : Prop :=
  ¬ Blank pattern ∧ ∃ text g, Reading pattern text ∧ Glob.ofText text = .ok g ∧ Matches g file

/-- Two lists with the same patterns, apart from blank ones. -/
def Alike (patterns others : List String) : Prop :=
  ∀ p, ¬ Blank p → (p ∈ patterns ↔ p ∈ others)

theorem reading_iff_of_stars {pattern : String} {c : Char} {rest : List Char}
    (h : (Text.trim pattern).toList = '*' :: '*' :: '/' :: c :: rest) (text : String) :
    Reading pattern text ↔ text = Text.trim pattern ∨ text = String.ofList (c :: rest) := by
  constructor
  · rintro (_ | ⟨htrim, -⟩)
    · exact .inl rfl
    · right
      rw [htrim, String.toList_append] at h
      have hchars : text.toList = c :: rest := by simpa using h
      rw [← hchars, String.ofList_toList]
  · rintro (rfl | rfl)
    · exact .whole
    · refine .behind (String.toList_inj.mp ?_) (by simp)
      simp [h]

theorem reading_iff_of_not_stars {pattern : String}
    (h : ∀ c rest, (Text.trim pattern).toList ≠ '*' :: '*' :: '/' :: c :: rest) (text : String) :
    Reading pattern text ↔ text = Text.trim pattern := by
  constructor
  · rintro (_ | ⟨htrim, hne⟩)
    · rfl
    · cases hchars : text.toList with
      | nil => exact absurd (String.toList_eq_nil_iff.mp hchars) hne
      | cons c rest =>
          refine absurd ?_ (h c rest)
          rw [htrim, String.toList_append, hchars]
          rfl
  · rintro rfl
    exact .whole

/-- What a pattern stands for: nothing, or a glob for each of its readings. -/
theorem ofPattern_cases {pattern : String} {set : GlobSet} (h : ofPattern pattern = .ok set) :
    (Blank pattern ∧ set = []) ∨
      (¬ Blank pattern ∧ set ≠ [] ∧
        ∀ g, g ∈ set ↔ ∃ text, Reading pattern text ∧ Glob.ofText text = .ok g) := by
  revert h
  fun_cases ofPattern pattern with
  | case1 p hempty =>
      intro h
      exact .inl ⟨String.isEmpty_iff.mp hempty, (Except.ok.inj h).symm⟩
  | case2 p hne compiled c rest hp =>
      intro h
      obtain ⟨g, hg, h⟩ := bind_eq_ok_iff.mp h
      obtain ⟨g', hg', h⟩ := bind_eq_ok_iff.mp h
      obtain rfl := Except.ok.inj h
      refine .inr ⟨fun hblank => hne (String.isEmpty_iff.mpr hblank), by simp, fun other => ?_⟩
      have hwhole : Glob.ofText (Text.trim pattern) = .ok g := mapError_eq_ok_iff.mp hg
      have hbehind : Glob.ofText (String.ofList (c :: rest)) = .ok g' := mapError_eq_ok_iff.mp hg'
      simp only [reading_iff_of_stars hp, or_and_right, exists_or, exists_eq_left, hwhole, hbehind]
      simp [eq_comm]
  | case3 p hne compiled hp =>
      intro h
      obtain ⟨g, hg, h⟩ := bind_eq_ok_iff.mp h
      obtain rfl := Except.ok.inj h
      refine .inr ⟨fun hblank => hne (String.isEmpty_iff.mpr hblank), by simp, fun other => ?_⟩
      have hg' : Glob.ofText (Text.trim pattern) = .ok g := mapError_eq_ok_iff.mp hg
      simp only [reading_iff_of_not_stars hp, exists_eq_left, hg']
      simp [eq_comm]

theorem ofPattern_of_blank {pattern : String} (h : Blank pattern) : ofPattern pattern = .ok [] := by
  rw [ofPattern, show Text.trim pattern = "" from h]
  rfl

/-- A blank pattern could match a file without a name only. -/
theorem names_iff {pattern file : String} (hfile : file ≠ "") :
    Names pattern file ↔
      ∃ text g, Reading pattern text ∧ Glob.ofText text = .ok g ∧ Matches g file := by
  refine and_iff_right_of_imp ?_
  rintro ⟨text, g, hreading, hg, hmatches⟩ (hblank : Text.trim pattern = "")
  have htext : text = "" := by
    cases hreading with
    | whole => exact hblank
    | behind h => simp [hblank] at h
  have hnothing : Glob.ofText "" = .ok ⟨.nothing⟩ := by rfl
  rw [htext, hnothing, Except.ok.injEq] at hg
  have haccepts : ∀ name, name ≠ "" → ¬ g.accepts name = true := by
    rintro name hname haccepts
    rw [← hg, Glob.accepts, Glob.Matcher.accepts, List.isEmpty_iff] at haccepts
    exact hname ((Text.textOf_bytesOf name).symm.trans (Text.textOf_eq_empty_iff.mpr haccepts))
  rcases hmatches with h | h
  · exact haccepts file hfile h
  · exact haccepts _ (Path.base_ne_empty file) h

/-! ## Lists of patterns -/

theorem ofPatterns_eq_ok_iff {patterns : List String} {set : GlobSet} :
    ofPatterns patterns = .ok set ↔
      ∃ sets, patterns.mapM ofPattern = .ok sets ∧ set = sets.flatten := by
  rw [ofPatterns, bind_eq_ok_iff]
  refine exists_congr fun sets => and_congr_right fun _ => ?_
  exact ⟨fun h => (Except.ok.inj h).symm, fun h => congrArg Except.ok h.symm⟩

/-- Patterns can be made ready if each one can. -/
theorem exists_ofPatterns_iff {patterns : List String} :
    (∃ set, ofPatterns patterns = .ok set) ↔ ∀ p ∈ patterns, ∃ set, ofPattern p = .ok set := by
  constructor
  · rintro ⟨set, h⟩ p hp
    obtain ⟨sets, hsets, -⟩ := ofPatterns_eq_ok_iff.mp h
    obtain ⟨own, -, hown⟩ := exists_of_mapM_ok hsets hp
    exact ⟨own, hown⟩
  · intro h
    obtain ⟨sets, hsets⟩ := exists_mapM_ok h
    exact ⟨sets.flatten, ofPatterns_eq_ok_iff.mpr ⟨sets, hsets, rfl⟩⟩

/-- A set of globs accepts what some pattern names. -/
theorem accepts_ofPatterns {patterns : List String} {set : GlobSet}
    (h : ofPatterns patterns = .ok set) (file : String) :
    set.accepts file = true ↔ ∃ p ∈ patterns, Names p file := by
  obtain ⟨sets, hsets, rfl⟩ := ofPatterns_eq_ok_iff.mp h
  simp only [accepts, List.any_eq_true, List.mem_flatten, Bool.or_eq_true]
  constructor
  · rintro ⟨g, ⟨own, hown, hg⟩, hmatches⟩
    obtain ⟨p, hp, hset⟩ := (mem_of_mapM_ok hsets).mp hown
    obtain ⟨-, rfl⟩ | ⟨hblank, -, hiff⟩ := ofPattern_cases hset
    · cases hg
    · obtain ⟨text, hreading, htext⟩ := (hiff g).mp hg
      exact ⟨p, hp, hblank, text, g, hreading, htext, hmatches⟩
  · rintro ⟨p, hp, hblank, text, g, hreading, htext, hmatches⟩
    obtain ⟨own, hown, hset⟩ := exists_of_mapM_ok hsets hp
    obtain ⟨hblank', -⟩ | ⟨-, -, hiff⟩ := ofPattern_cases hset
    · exact absurd hblank' hblank
    · exact ⟨g, ⟨own, hown, (hiff g).mpr ⟨text, hreading, htext⟩⟩, hmatches⟩

/-- A set of globs is empty if nothing is said. -/
theorem isEmpty_ofPatterns {patterns : List String} {set : GlobSet}
    (h : ofPatterns patterns = .ok set) : set.isEmpty = true ↔ ∀ p ∈ patterns, Blank p := by
  obtain ⟨sets, hsets, rfl⟩ := ofPatterns_eq_ok_iff.mp h
  rw [List.isEmpty_iff, List.flatten_eq_nil_iff]
  constructor
  · intro hnil p hp
    obtain ⟨own, hown, hset⟩ := exists_of_mapM_ok hsets hp
    obtain ⟨hblank, -⟩ | ⟨-, hne, -⟩ := ofPattern_cases hset
    · exact hblank
    · exact absurd (hnil own hown) hne
  · intro hblank own hown
    obtain ⟨p, hp, hset⟩ := (mem_of_mapM_ok hsets).mp hown
    obtain ⟨-, hnil⟩ | ⟨htext, -⟩ := ofPattern_cases hset
    · exact hnil
    · exact absurd (hblank p hp) htext

namespace Alike

variable {patterns others : List String}

theorem symm (h : Alike patterns others) : Alike others patterns := fun p hp => (h p hp).symm

theorem exists_names_iff (h : Alike patterns others) (file : String) :
    (∃ p ∈ patterns, Names p file) ↔ ∃ p ∈ others, Names p file :=
  exists_congr fun p => ⟨fun ⟨hp, hnames⟩ => ⟨(h p hnames.1).mp hp, hnames⟩,
    fun ⟨hp, hnames⟩ => ⟨(h p hnames.1).mpr hp, hnames⟩⟩

theorem forall_blank (h : Alike patterns others) (hblank : ∀ p ∈ patterns, Blank p) :
    ∀ p ∈ others, Blank p := by
  intro p hp
  by_contra htext
  exact htext (hblank p ((h p htext).mpr hp))

/-- Lists with the same patterns can be made ready together. -/
theorem exists_ofPatterns (h : Alike patterns others)
    (hset : ∃ set, ofPatterns patterns = .ok set) : ∃ set, ofPatterns others = .ok set := by
  rw [exists_ofPatterns_iff] at hset ⊢
  intro p hp
  by_cases hblank : Blank p
  · exact ⟨[], ofPattern_of_blank hblank⟩
  · exact hset p ((h p hblank).mpr hp)

end Alike

end GlobSet

/-! ## Scopes -/

namespace Scope

open RuleScan.GlobSet (Blank Names Alike)

/-- Whether a file is in a scope, by what is written in it. -/
structure InScope (s : Scope) (file : String) : Prop where
  includes : (∀ p ∈ s.includes.getD [], Blank p) ∨ ∃ p ∈ s.includes.getD [], Names p file
  excludes : ¬ ∃ p ∈ s.excludes.getD [], Names p file
  condition : s.condition = "" ∨
    ∃ p, Predicate.compile s.condition = .ok p ∧ p.eval file = .ok true

/-- What a scope is made of once it is ready. -/
structure IsCompiled (s : Scope) (c : Compiled) : Prop where
  includes : GlobSet.ofPatterns (s.includes.getD []) = .ok c.includes
  excludes : GlobSet.ofPatterns (s.excludes.getD []) = .ok c.excludes
  condition : s.condition = "" ∧ c.condition = none ∨
    s.condition ≠ "" ∧ ∃ p, Predicate.compile s.condition = .ok p ∧ c.condition = some p

theorem compile_eq_ok_iff {s : Scope} {c : Compiled} :
    compile (some s) = .ok c ↔ IsCompiled s c := by
  simp only [compile, bind_eq_ok_iff, mapError_eq_ok_iff]
  constructor
  · rintro ⟨includes, hincludes, excludes, hexcludes, hrest⟩
    split at hrest
    · next hempty =>
        obtain rfl := Except.ok.inj hrest
        exact ⟨hincludes, hexcludes, .inl ⟨hempty, rfl⟩⟩
    · next hne =>
        obtain ⟨p, hp, hrest⟩ := bind_eq_ok_iff.mp hrest
        obtain rfl := Except.ok.inj hrest
        exact ⟨hincludes, hexcludes, .inr ⟨hne, p, mapError_eq_ok_iff.mp hp, rfl⟩⟩
  · rintro ⟨hincludes, hexcludes, hcondition⟩
    refine ⟨_, hincludes, _, hexcludes, ?_⟩
    obtain ⟨includes, excludes, condition⟩ := c
    obtain ⟨hempty, rfl⟩ | ⟨hne, p, hp, rfl⟩ := hcondition
    · rw [if_pos hempty]
      rfl
    · rw [if_neg hne, hp]
      rfl

/-- **A scope accepts what it says.** -/
theorem IsCompiled.accepts_iff {s : Scope} {c : Compiled} (h : IsCompiled s c) (file : String) :
    c.accepts file = true ↔ InScope s file := by
  have hcondition : holds c.condition file = true ↔ s.condition = "" ∨
      ∃ p, Predicate.compile s.condition = .ok p ∧ p.eval file = .ok true := by
    obtain ⟨hempty, hnone⟩ | ⟨hne, p, hp, hsome⟩ := h.condition
    · simp [hempty, hnone, holds]
    · simp only [hne, hsome, hp, holds, false_or, Except.ok.injEq, exists_eq_left']
      cases p.eval file <;> simp
  rw [Compiled.accepts, Bool.and_eq_true, Bool.and_eq_true, Bool.or_eq_true, Bool.not_eq_true',
    ← Bool.not_eq_true, GlobSet.isEmpty_ofPatterns h.includes,
    GlobSet.accepts_ofPatterns h.includes, GlobSet.accepts_ofPatterns h.excludes, hcondition]
  exact ⟨fun ⟨⟨hin, hex⟩, hcond⟩ => ⟨hin, hex, hcond⟩,
    fun ⟨hin, hex, hcond⟩ => ⟨⟨hin, hex⟩, hcond⟩⟩

/-- A scope can be made ready if its parts can. -/
theorem exists_compile_iff {s : Scope} : (∃ c, compile (some s) = .ok c) ↔
    (∃ set, GlobSet.ofPatterns (s.includes.getD []) = .ok set) ∧
      (∃ set, GlobSet.ofPatterns (s.excludes.getD []) = .ok set) ∧
      (s.condition = "" ∨ ∃ p, Predicate.compile s.condition = .ok p) := by
  simp only [compile_eq_ok_iff]
  constructor
  · rintro ⟨c, hincludes, hexcludes, hcondition⟩
    refine ⟨⟨_, hincludes⟩, ⟨_, hexcludes⟩, ?_⟩
    obtain ⟨hempty, -⟩ | ⟨-, p, hp, -⟩ := hcondition
    · exact .inl hempty
    · exact .inr ⟨p, hp⟩
  · rintro ⟨⟨includes, hincludes⟩, ⟨excludes, hexcludes⟩, hcondition⟩
    by_cases hempty : s.condition = ""
    · exact ⟨⟨includes, excludes, none⟩, hincludes, hexcludes, .inl ⟨hempty, rfl⟩⟩
    · obtain ⟨p, hp⟩ := hcondition.resolve_left hempty
      exact ⟨⟨includes, excludes, some p⟩, hincludes, hexcludes, .inr ⟨hempty, p, hp, rfl⟩⟩

/-- Two scopes with the same condition and the same patterns, apart from blank ones. -/
structure Alike (s t : Scope) : Prop where
  includes : GlobSet.Alike (s.includes.getD []) (t.includes.getD [])
  excludes : GlobSet.Alike (s.excludes.getD []) (t.excludes.getD [])
  condition : s.condition = t.condition

theorem Alike.symm {s t : Scope} (h : Alike s t) : Alike t s :=
  ⟨h.includes.symm, h.excludes.symm, h.condition.symm⟩

theorem Alike.exists_compile {s t : Scope} (h : Alike s t) (hs : ∃ c, compile (some s) = .ok c) :
    ∃ c, compile (some t) = .ok c := by
  rw [exists_compile_iff] at hs ⊢
  obtain ⟨hincludes, hexcludes, hcondition⟩ := hs
  rw [h.condition] at hcondition
  exact ⟨h.includes.exists_ofPatterns hincludes, h.excludes.exists_ofPatterns hexcludes, hcondition⟩

theorem Alike.inScope {s t : Scope} (h : Alike s t) {file : String} (hs : InScope s file) :
    InScope t file where
  includes := hs.includes.imp h.includes.forall_blank (h.includes.exists_names_iff file).mp
  excludes := fun hnamed => hs.excludes ((h.excludes.exists_names_iff file).mpr hnamed)
  condition := h.condition ▸ hs.condition

/-- A scope that excludes at least what another one does, and is like it otherwise. -/
structure Narrows (t s : Scope) : Prop where
  includes : t.includes = s.includes
  excludes : ∀ p ∈ s.excludes.getD [], p ∈ t.excludes.getD []
  condition : t.condition = s.condition

theorem Narrows.inScope {s t : Scope} (h : Narrows t s) {file : String} (ht : InScope t file) :
    InScope s file where
  includes := h.includes ▸ ht.includes
  excludes := fun ⟨p, hp, hnamed⟩ => ht.excludes ⟨p, h.excludes p hp, hnamed⟩
  condition := h.condition ▸ ht.condition

/-- **A scope that can be made ready accepts what is written in it**, and what is accepted does not
depend on the order of patterns, on repetitions or on blank patterns.  Patterns behind each other
can be made ready if both lists can, and match what one of them matches.  Excluding more brings no
file into scope. -/
theorem accepts_means :
    (∀ s c, compile (some s) = .ok c → ∀ file, c.accepts file = true ↔ InScope s file) ∧
    compile none = compile (some {}) ∧
    (∀ p file, file ≠ "" → (Names p file ↔ ∃ text g,
      GlobSet.Reading p text ∧ Glob.ofText text = .ok g ∧ GlobSet.Matches g file)) ∧
    (∀ ps qs, (∃ set, GlobSet.ofPatterns (ps ++ qs) = .ok set) ↔
      (∃ set, GlobSet.ofPatterns ps = .ok set) ∧ ∃ set, GlobSet.ofPatterns qs = .ok set) ∧
    (∀ ps qs both left right, GlobSet.ofPatterns (ps ++ qs) = .ok both →
      GlobSet.ofPatterns ps = .ok left → GlobSet.ofPatterns qs = .ok right →
      ∀ file, both.accepts file = true ↔ left.accepts file = true ∨ right.accepts file = true) ∧
    (∀ ps qs, GlobSet.Alike ps qs →
      ((∃ set, GlobSet.ofPatterns ps = .ok set) ↔ ∃ set, GlobSet.ofPatterns qs = .ok set) ∧
      ∀ left right, GlobSet.ofPatterns ps = .ok left → GlobSet.ofPatterns qs = .ok right →
        ∀ file, left.accepts file = right.accepts file) ∧
    (∀ s t, Alike s t →
      ((∃ c, compile (some s) = .ok c) ↔ ∃ c, compile (some t) = .ok c) ∧
      ∀ c c', compile (some s) = .ok c → compile (some t) = .ok c' →
        ∀ file, c.accepts file = c'.accepts file) ∧
    ∀ s t c c', Narrows t s → compile (some s) = .ok c → compile (some t) = .ok c' →
      ∀ file, c'.accepts file = true → c.accepts file = true := by
  have hmeans : ∀ s c, compile (some s) = .ok c →
      ∀ file, c.accepts file = true ↔ InScope s file :=
    fun s c h file => (compile_eq_ok_iff.mp h).accepts_iff file
  refine ⟨hmeans, rfl, fun p file hfile => GlobSet.names_iff hfile, ?append, ?both, ?lists,
    ?scopes, ?narrow⟩
  case append =>
    intro ps qs
    simp only [GlobSet.exists_ofPatterns_iff, List.forall_mem_append]
  case both =>
    intro ps qs both left right hboth hleft hright file
    simp only [GlobSet.accepts_ofPatterns hboth, GlobSet.accepts_ofPatterns hleft,
      GlobSet.accepts_ofPatterns hright, List.mem_append, or_and_right, exists_or]
  case lists =>
    intro ps qs h
    refine ⟨⟨h.exists_ofPatterns, h.symm.exists_ofPatterns⟩, fun left right hleft hright file => ?_⟩
    rw [Bool.eq_iff_iff, GlobSet.accepts_ofPatterns hleft, GlobSet.accepts_ofPatterns hright]
    exact h.exists_names_iff file
  case scopes =>
    intro s t h
    refine ⟨⟨h.exists_compile, h.symm.exists_compile⟩, fun c c' hc hc' file => ?_⟩
    rw [Bool.eq_iff_iff, hmeans s c hc, hmeans t c' hc']
    exact ⟨h.inScope, h.symm.inScope⟩
  case narrow =>
    intro s t c c' h hc hc' file
    rw [hmeans s c hc, hmeans t c' hc']
    exact h.inScope

/-- A scope with a pattern that is read in two ways, and a blank one. -/
def sample : Scope := { includes := some ["**/*.ts", " "], excludes := some ["vendor/**"] }

theorem accepts_means_sample :
    ∃ c, compile (some sample) = .ok c ∧ InScope sample "a.ts" ∧
      ¬ InScope sample "vendor/a.ts" := by
  have h := accepts_means.1 sample _ rfl
  exact ⟨_, rfl, (h _).mp (by decide +kernel),
    fun hin => absurd ((h _).mpr hin) (by decide +kernel)⟩

end Scope

end RuleScan
