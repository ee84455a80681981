import Mathlib.Data.Finmap
import RuleScan.Command.Basic
import RuleScan.Proofs.Finding.Distinct
import RuleScan.Proofs.Text.Order

/-!
# What a program sees of the environment

A command is started from an environment, a list of entries `name=value`.  The program sees a few
variables of it, each with its last value.

## What is proved

  * `sets_concat` — what one more entry does to the variables: it sets one of them or none;
  * `lookup?_eq_some_iff`, `lookup_gathered` — so a variable is looked up in the list with its last
    value, and it has this value in the MAP that the entries make when they are taken one by one;
  * `shown_eq` — what the program sees can be read off that map, in whatever order one goes through
    it;
  * `visibleEnvironment_essential` — the program sees the essential variables, each with its last
    value, and nothing that depends on any other entry.

## Names

The name of an entry is what stands in front of the FIRST `=`, so a value may have more of them and
a name has none.  An entry without `=` has no name and sets nothing.
-/

namespace RuleScan.Command

/-! ## Entries and the variables they set -/

/-- An entry that gives a name a value. -/
def Assigns (entry name value : String) : Prop :=
  '=' ∉ name.toList ∧ entry = name ++ "=" ++ value

/-- A variable of an environment: what the last entry with its name gives. -/
def Sets (environment : List String) (name value : String) : Prop :=
  ∃ before entry behind, environment = before ++ entry :: behind ∧ Assigns entry name value ∧
    ∀ later ∈ behind, ∀ other, ¬ Assigns later name other

variable {environment : List String} {entry name name' value value' : String}

theorem toList_assigned (name value : String) :
    (name ++ "=" ++ value).toList = name.toList ++ '=' :: value.toList := by
  simp [String.toList_append]

theorem nameAndValue?_eq_some_iff :
    nameAndValue? entry = some (name, value) ↔ Assigns entry name value := by
  have hparts : nameAndValue? entry = some (name, value) ↔
      Text.cut? ['='] entry.toList = some (name.toList, value.toList) := by
    rw [nameAndValue?, Option.map_eq_some_iff]
    constructor
    · rintro ⟨⟨front, rest⟩, hcut, heq⟩
      obtain ⟨rfl, rfl⟩ := Prod.mk.inj heq
      simpa using hcut
    · intro hcut
      exact ⟨_, hcut, by simp⟩
  rw [hparts, Text.cut?_eq_some_iff, Assigns, ← String.toList_inj, toList_assigned]

theorem Assigns.unique (h : Assigns entry name value) (h' : Assigns entry name' value') :
    name = name' ∧ value = value' := by
  have heq := (nameAndValue?_eq_some_iff.mpr h).symm.trans (nameAndValue?_eq_some_iff.mpr h')
  exact Prod.mk.inj (Option.some.inj heq)

/-- One more entry sets its own variable and leaves the others as they are. -/
theorem sets_concat : Sets (environment ++ [entry]) name value ↔
    Assigns entry name value ∨
      (∀ other, ¬ Assigns entry name other) ∧ Sets environment name value := by
  constructor
  · rintro ⟨before, last, behind, heq, hlast, hbehind⟩
    -- The entry that sets the variable is the new one, or the new one is behind it.
    rcases List.eq_nil_or_concat' behind with rfl | ⟨behind, later, rfl⟩
    · obtain ⟨-, hlasts⟩ := List.append_inj' heq rfl
      obtain rfl := List.singleton_inj.mp hlasts
      exact .inl hlast
    · rw [← List.cons_append, ← List.append_assoc] at heq
      obtain ⟨rfl, hlasts⟩ := List.append_inj' heq rfl
      obtain rfl := List.singleton_inj.mp hlasts
      obtain ⟨hbehind, hentry⟩ := List.forall_mem_append.mp hbehind
      exact .inr ⟨List.forall_mem_singleton.mp hentry, before, last, behind, rfl, hlast, hbehind⟩
  · rintro (hentry | ⟨hentry, before, last, behind, rfl, hlast, hbehind⟩)
    · exact ⟨environment, entry, [], rfl, hentry, by simp⟩
    · exact ⟨before, last, behind ++ [entry], by simp, hlast,
        List.forall_mem_append.mpr ⟨hbehind, List.forall_mem_singleton.mpr hentry⟩⟩

theorem not_sets_nil : ¬ Sets [] name value := by
  rintro ⟨before, entry, behind, heq, -⟩
  simp at heq

/-! ## Looking up a variable

In the list the last entry comes first, and in the map it is the one that stays. -/

/-- The value that an entry gives a name. -/
def given? (entry name : String) : Option String :=
  match nameAndValue? entry with
  | some (n, value) => if n = name then some value else none
  | none => none

theorem given?_eq_some_iff : given? entry name = some value ↔ Assigns entry name value := by
  rw [← nameAndValue?_eq_some_iff, given?]
  cases nameAndValue? entry with
  | none => simp
  | some pair => simp [Prod.ext_iff]

theorem given?_eq_none_iff : given? entry name = none ↔ ∀ other, ¬ Assigns entry name other := by
  rw [Option.eq_none_iff_forall_ne_some]
  exact forall_congr' fun other => not_congr given?_eq_some_iff

/-- Asked before the others, an entry answers for the list that it is the last one of. -/
theorem or_given?_eq_some_iff {before : Option String}
    (h : before = some value ↔ Sets environment name value) :
    (given? entry name).or before = some value ↔ Sets (environment ++ [entry]) name value := by
  rw [Option.or_eq_some_iff, given?_eq_some_iff, given?_eq_none_iff, h, sets_concat]

/-- A variable is looked up with its last value. -/
theorem lookup?_eq_some_iff :
    lookup? environment name = some value ↔ Sets environment name value := by
  induction environment using List.reverseRecOn with
  | nil => exact iff_of_false nofun not_sets_nil
  | append_singleton environment entry ih =>
      have hlast : lookup? (environment ++ [entry]) name =
          (given? entry name).or (lookup? environment name) := by
        show (environment ++ [entry]).reverse.findSome? (given? · name) = _
        rw [List.reverse_append, List.reverse_singleton, List.singleton_append, List.findSome?_cons]
        cases given? entry name with
        | none => rfl
        | some _ => rfl
      rw [hlast]
      exact or_given?_eq_some_iff ih

/-- Variables with their values, which have no order. -/
abbrev Variables := Finmap fun _ : String => String

/-- Takes an entry into the map; an entry without a name is left out. -/
def keep (m : Variables) (entry : String) : Variables :=
  match nameAndValue? entry with
  | some (name, value) => m.insert name value
  | none => m

/-- The variables of an environment, from its entries one after the other. -/
def gathered (environment : List String) : Variables :=
  environment.foldl keep ∅

theorem lookup_keep (m : Variables) :
    (keep m entry).lookup name = (given? entry name).or (m.lookup name) := by
  rw [keep, given?]
  cases nameAndValue? entry with
  | none => rfl
  | some pair =>
      obtain ⟨n, value⟩ := pair
      dsimp only
      by_cases hn : n = name
      · subst hn
        rw [Finmap.lookup_insert, if_pos rfl, Option.some_or]
      · rw [Finmap.lookup_insert_of_ne _ (Ne.symm hn), if_neg hn, Option.none_or]

/-- In the map a variable has its last value. -/
theorem lookup_gathered :
    (gathered environment).lookup name = some value ↔ Sets environment name value := by
  induction environment using List.reverseRecOn with
  | nil => exact iff_of_false (by simp [gathered]) not_sets_nil
  | append_singleton environment entry ih =>
      have hlast : gathered (environment ++ [entry]) = keep (gathered environment) entry := by
        rw [gathered, List.foldl_concat]
        rfl
      rw [hlast, lookup_keep]
      exact or_given?_eq_some_iff ih

/-! ## What the program sees -/

theorem assigns_of_essential (h : name ∈ essentialNames) (value : String) :
    Assigns (name ++ "=" ++ value) name value := by
  have hnames : ∀ name ∈ essentialNames, '=' ∉ name.toList := by decide
  exact ⟨hnames name h, rfl⟩

/-- An entry that a program sees: an essential variable with its last value. -/
def Seen (environment : List String) (entry : String) : Prop :=
  ∃ name ∈ essentialNames, ∃ value, Assigns entry name value ∧ Sets environment name value

theorem mem_visibleEnvironment {c : Command} :
    entry ∈ c.visibleEnvironment ↔ Seen c.environment entry := by
  rw [visibleEnvironment, List.mem_mergeSort, List.mem_filterMap]
  refine exists_congr fun name => and_congr_right fun hname => ?_
  rw [Option.map_eq_some_iff]
  refine exists_congr fun value => ?_
  rw [lookup?_eq_some_iff, and_comm]
  exact and_congr_left fun _ =>
    ⟨fun h => h ▸ assigns_of_essential hname value, fun h => h.2.symm⟩

/-- The names are told by the entries, so no entry is there twice. -/
theorem pairwise_visibleEnvironment (c : Command) : c.visibleEnvironment.Pairwise (· < ·) := by
  refine Text.pairwise_sorted_lt id ?_
  rw [List.map_id, List.Nodup, List.pairwise_filterMap]
  have hnames : essentialNames.Nodup := by decide
  refine hnames.imp_of_mem fun {n n'} hn hn' hne entry h entry' h' heq => hne ?_
  obtain ⟨value, -, rfl⟩ := Option.map_eq_some_iff.mp h
  obtain ⟨value', -, rfl⟩ := Option.map_eq_some_iff.mp h'
  exact ((assigns_of_essential hn value).unique (heq ▸ assigns_of_essential hn' value')).1

/-- There is one list in strict order of what a program sees. -/
theorem eq_visibleEnvironment {c : Command} {l : List String} (hl : l.Pairwise (· < ·))
    (hm : ∀ entry, entry ∈ l ↔ Seen c.environment entry) : l = c.visibleEnvironment := by
  refine eq_of_pairwise (fun _ _ => String.lt_asymm) hl (pairwise_visibleEnvironment c)
    fun entry => ?_
  rw [hm, mem_visibleEnvironment]

/-- What is read off a list of variables with their values: the essential ones, in order. -/
def shown (pairs : List ((_ : String) × String)) : List String :=
  ((pairs.filter fun x => x.1 ∈ essentialNames).map fun x => x.1 ++ "=" ++ x.2).mergeSort (· ≤ ·)

section Shown

variable {pairs : List ((_ : String) × String)} (h : ↑pairs = (gathered environment).entries)

include h

theorem mem_pairs : ⟨name, value⟩ ∈ pairs ↔ Sets environment name value := by
  rw [← lookup_gathered, Finmap.lookup_eq_some_iff, ← h, Multiset.mem_coe]

theorem mem_shown : entry ∈ shown pairs ↔ Seen environment entry := by
  rw [shown, List.mem_mergeSort, List.mem_map]
  constructor
  · rintro ⟨⟨name, value⟩, hmem, rfl⟩
    obtain ⟨hpair, hname⟩ := List.mem_filter.mp hmem
    have hname : name ∈ essentialNames := of_decide_eq_true hname
    exact ⟨name, hname, value, assigns_of_essential hname value, (mem_pairs h).mp hpair⟩
  · rintro ⟨name, hname, value, ⟨-, rfl⟩, hsets⟩
    exact ⟨⟨name, value⟩, List.mem_filter.mpr ⟨(mem_pairs h).mpr hsets, decide_eq_true hname⟩, rfl⟩

theorem pairwise_shown : (shown pairs).Pairwise (· < ·) := by
  refine Text.pairwise_sorted_lt id ?_
  have hpairs : pairs.Nodup := Multiset.coe_nodup.mp (h ▸ (gathered environment).nodup_entries)
  rw [List.map_id]
  refine List.Nodup.map_on (fun x hx y hy heq => ?_) (hpairs.filter _)
  have hassigns : ∀ z ∈ pairs.filter (fun x => x.1 ∈ essentialNames),
      Assigns (z.1 ++ "=" ++ z.2) z.1 z.2 := fun z hz =>
    assigns_of_essential (of_decide_eq_true (List.mem_filter.mp hz).2) z.2
  obtain ⟨hname, hvalue⟩ := (hassigns x hx).unique (heq ▸ hassigns y hy)
  exact Sigma.ext hname (heq_of_eq hvalue)

end Shown

/-- What the program sees does not depend on how one goes through the map. -/
theorem shown_eq {c : Command} {pairs : List ((_ : String) × String)}
    (h : ↑pairs = (gathered c.environment).entries) : shown pairs = c.visibleEnvironment :=
  eq_visibleEnvironment (pairwise_shown h) fun _ => mem_shown h

/-! ## What the program cannot see -/

/-- The entries of an environment that have a name. -/
def entriesFor (environment : List String) (name : String) : List String :=
  environment.filter fun entry => (given? entry name).isSome

theorem sets_iff_getLast? : Sets environment name value ↔
    ∃ last, (entriesFor environment name).getLast? = some last ∧ Assigns last name value := by
  induction environment using List.reverseRecOn with
  | nil => exact iff_of_false not_sets_nil (by simp [entriesFor])
  | append_singleton environment entry ih =>
      rw [sets_concat, ← given?_eq_some_iff, ← given?_eq_none_iff, ih, entriesFor, entriesFor,
        List.filter_append]
      cases hgiven : given? entry name with
      | none => simp [hgiven]
      | some given => simp [hgiven, ← given?_eq_some_iff]

theorem seen_congr {other : List String}
    (h : ∀ name ∈ essentialNames, entriesFor environment name = entriesFor other name) :
    Seen environment entry ↔ Seen other entry := by
  refine exists_congr fun name => and_congr_right fun hname => ?_
  simp only [sets_iff_getLast?, h name hname]

/-- What a program sees is in strict order.  It is the essential variables, each with its last
value; it can be read off the map of the variables in any order; and where two environments have
the same entries for the essential variables, the program sees the same. -/
theorem visibleEnvironment_essential (c : Command) :
    c.visibleEnvironment.Pairwise (· < ·) ∧
      (∀ entry, entry ∈ c.visibleEnvironment ↔ ∃ name ∈ essentialNames, ∃ value,
        Assigns entry name value ∧ Sets c.environment name value) ∧
      (∀ name value, '=' ∉ name.toList → (name ++ "=" ++ value ∈ c.visibleEnvironment ↔
        name ∈ essentialNames ∧ Sets c.environment name value)) ∧
      (∀ pairs : List ((_ : String) × String), ↑pairs = (gathered c.environment).entries →
        shown pairs = c.visibleEnvironment) ∧
      ∀ other : Command, (∀ name ∈ essentialNames,
          entriesFor c.environment name = entriesFor other.environment name) →
        c.visibleEnvironment = other.visibleEnvironment := by
  refine ⟨pairwise_visibleEnvironment c, fun entry => mem_visibleEnvironment,
    fun name value hname => ?_, fun pairs hpairs => shown_eq hpairs, fun other hother => ?_⟩
  · rw [mem_visibleEnvironment]
    constructor
    · rintro ⟨n, hn, v, hassigns, hsets⟩
      obtain ⟨rfl, rfl⟩ := hassigns.unique ⟨hname, rfl⟩
      exact ⟨hn, hsets⟩
    · rintro ⟨hn, hsets⟩
      exact ⟨name, hn, value, ⟨hname, rfl⟩, hsets⟩
  · exact eq_visibleEnvironment (pairwise_visibleEnvironment c) fun entry =>
      mem_visibleEnvironment.trans (seen_congr hother)

/-- A command from an environment with an essential variable twice and a secret. -/
def sampleCommand : Command :=
  { name := "git", environment := ["PATH=/old", "KEY=x", "broken", "PATH=/a=b", "HOME=/root"] }

/-- A command from another environment. -/
def otherCommand : Command :=
  { name := "rg", environment := ["HOME=/root", "=", "PATH=/old", "PATH=/a=b", "KEY=y", "PATHS=/"] }

/-- The variables of the first command, in one of the orders of the map. -/
def samplePairs : List ((_ : String) × String) :=
  [⟨"KEY", "x"⟩, ⟨"PATH", "/a=b"⟩, ⟨"HOME", "/root"⟩]

theorem visibleEnvironment_essential_sample :
    "PATH=/a=b" ∈ sampleCommand.visibleEnvironment ∧
      shown samplePairs = sampleCommand.visibleEnvironment ∧
      sampleCommand.visibleEnvironment = otherCommand.visibleEnvironment := by
  have hsets : Sets sampleCommand.environment "PATH" "/a=b" := lookup?_eq_some_iff.mp (by decide)
  have hpairs : ↑samplePairs = (gathered sampleCommand.environment).entries := by decide
  have hentries : ∀ name ∈ essentialNames, entriesFor sampleCommand.environment name =
      entriesFor otherCommand.environment name := by decide
  obtain ⟨-, -, hmem, hshown, hsame⟩ := visibleEnvironment_essential sampleCommand
  exact ⟨(hmem "PATH" "/a=b" (by decide)).mpr ⟨by decide, hsets⟩, hshown _ hpairs,
    hsame otherCommand hentries⟩

end RuleScan.Command
