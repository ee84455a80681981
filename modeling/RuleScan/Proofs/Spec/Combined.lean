import RuleScan.Proofs.Profile.Sound

/-!
# The rules of a combined profile

A specification stands for one profile: the rules of the profiles that it enables, and behind them
its own.  An id may come twice, in one profile, in two, or in a profile and the specification.

## What is proved

`combine_first_wins`: of all these rules in order, the combined profile has those whose id NO
EARLIER RULE has, and tells which of the enabled profiles it has them from.

## How the argument goes

`keepFirst` goes through the rules with what it has kept so far.  A rule that was passed over has
left no trace there, but the one that it was passed over for has the same id and was kept.  So for
the question whether an id was there before, what was kept says the same as what was read
(`keepFirst_eq`).
-/

namespace RuleScan.Spec

/-- Whether no rule of a list has the id of a rule. -/
def lacks (rules : List Rule) (r : Rule) : Bool := rules.all (·.id ≠ r.id)

@[simp] theorem lacks_nil (r : Rule) : lacks [] r = true := rfl

@[simp] theorem lacks_cons (q : Rule) (rules : List Rule) (r : Rule) :
    lacks (q :: rules) r = (decide (q.id ≠ r.id) && lacks rules r) := rfl

theorem lacks_iff {rules : List Rule} {r : Rule} :
    lacks rules r = true ↔ ∀ q ∈ rules, q.id ≠ r.id := by
  simp [lacks]

/-- The rules whose id no earlier rule of the list has, in order. -/
def firstOfEachId (rules : List Rule) : List Rule :=
  (rules.zipIdx.filter fun (r, i) => lacks (rules.take i) r).map Prod.fst

/-- All rules of a specification in order: those of the enabled profiles that can be loaded, then
its own. -/
def concatenated (s : Spec) (c : Catalog) (d : Disk) : List Rule :=
  (s.profiles.flatMap fun name =>
    match c.load d name with
    | .ok p => p.rules
    | .error _ => []) ++ s.customRules

/-- A list of rules without their profiles. -/
theorem map_fst_map_mk (rules : List Rule) (name : String) :
    (rules.map (·, name)).map Prod.fst = rules := by
  rw [List.map_map]
  exact List.map_id rules

theorem map_fst_allRules (c : Catalog) (d : Disk) (s : Spec) :
    (allRules c d s).map Prod.fst = s.concatenated c d := by
  rw [allRules, List.map_append, List.map_flatMap, map_fst_map_mk, concatenated]
  congr 2
  funext name
  rw [contributed]
  cases c.load d name with
  | ok p => exact map_fst_map_mk p.rules name
  | error f => rfl

/-- A rule at the front of a list, and the rules behind it, each chosen by its place. -/
theorem chosen_cons (p : Rule → Nat → Bool) (r : Rule) (rest : List Rule) :
    ((r :: rest).zipIdx.filter fun (x, i) => p x i).map Prod.fst =
      (if p r 0 then [r] else []) ++
        (rest.zipIdx.filter fun (x, i) => p x (i + 1)).map Prod.fst := by
  rw [List.zipIdx_cons', List.filter_cons, List.filter_map]
  cases h : p r 0 <;> simp [h, Function.comp_def]

/-- What is kept are the rules whose id neither a kept one nor an earlier one has. -/
theorem keepFirst_eq (seen rest : List Sourced) :
    (keepFirst seen rest).map Prod.fst =
      ((rest.map Prod.fst).zipIdx.filter fun (r, i) => lacks (seen.map Prod.fst) r &&
        lacks ((rest.map Prod.fst).take i) r).map Prod.fst := by
  fun_induction keepFirst seen rest with
  | case1 seen => rfl
  | case2 seen r rest hseen ih =>
      -- The one that was kept has the id, so that it stands for both.
      obtain ⟨q, hq, hid⟩ := List.any_eq_true.mp hseen
      have hold : ∀ x : Rule, lacks (seen.map Prod.fst) x = true → r.1.id ≠ x.id := by
        intro x hx hsame
        have hne := lacks_iff.mp hx q.1 (List.mem_map_of_mem hq)
        exact hne ((of_decide_eq_true hid).trans hsame)
      have hfront : lacks (seen.map Prod.fst) r.1 = false :=
        Bool.eq_false_iff.mpr fun h => hold r.1 h rfl
      rw [ih, List.map_cons, chosen_cons fun x i => lacks (seen.map Prod.fst) x &&
        lacks ((r.1 :: rest.map Prod.fst).take i) x]
      simp only [hfront, Bool.false_and, Bool.false_eq_true, if_false, List.nil_append]
      congr 1
      refine List.filter_congr fun y _ => ?_
      rw [List.take_succ_cons, lacks_cons]
      cases h : lacks (seen.map Prod.fst) y.1 with
      | false => rfl
      | true => simp [hold y.1 h]
  | case3 seen r rest hseen ih =>
      have hnew : lacks (seen.map Prod.fst) r.1 = true := by
        refine lacks_iff.mpr fun q hq hid => hseen ?_
        obtain ⟨x, hx, rfl⟩ := List.mem_map.mp hq
        exact List.any_eq_true.mpr ⟨x, hx, decide_eq_true hid⟩
      rw [List.map_cons, List.map_cons, ih, chosen_cons fun x i => lacks (seen.map Prod.fst) x &&
        lacks ((r.1 :: rest.map Prod.fst).take i) x]
      simp only [hnew, List.take_zero, lacks_nil, Bool.and_self, if_true, List.singleton_append]
      congr 2
      refine List.filter_congr fun y _ => ?_
      rw [List.take_succ_cons, List.map_cons, lacks_cons, lacks_cons]
      ac_rfl

/-- Every id that is read was kept before or is kept now. -/
theorem exists_kept (seen rest : List Sourced) {r : Sourced} (h : r ∈ rest) :
    (∃ q ∈ seen, q.1.id = r.1.id) ∨ ∃ q ∈ keepFirst seen rest, q.1.id = r.1.id := by
  fun_induction keepFirst seen rest with
  | case1 seen => cases h
  | case2 seen first rest hseen ih =>
      rcases List.mem_cons.mp h with rfl | hrest
      · obtain ⟨q, hq, hid⟩ := List.any_eq_true.mp hseen
        exact .inl ⟨q, hq, of_decide_eq_true hid⟩
      · exact ih hrest
  | case3 seen first rest hseen ih =>
      rcases List.mem_cons.mp h with rfl | hrest
      · exact .inr ⟨r, List.mem_cons_self, rfl⟩
      · rcases ih hrest with ⟨q, hq, hid⟩ | ⟨q, hq, hid⟩
        · rcases List.mem_cons.mp hq with rfl | hq
          · exact .inr ⟨q, List.mem_cons_self, hid⟩
          · exact .inl ⟨q, hq, hid⟩
        · exact .inr ⟨q, List.mem_cons_of_mem _ hq, hid⟩

/-! ## The combined profile -/

theorem rules_combine (s : Spec) (c : Catalog) (d : Disk) :
    (s.combine c d).rules = (keepFirst [] (allRules c d s)).map Prod.fst := rfl

/-- **Of rules with one id the first one wins.**  The rules of the combined profile are those of the
enabled profiles that can be loaded, in the order in which these are listed, and then those of the
specification, without every rule whose id an earlier one of them has.  So no id comes twice, none
is lost, and the names that the profile lists are those of the profiles that were loaded. -/
theorem combine_first_wins (s : Spec) (c : Catalog) (d : Disk) :
    (s.combine c d).rules = firstOfEachId (s.concatenated c d) ∧
      ((s.combine c d).rules.map Rule.id).Nodup ∧
      (∀ r ∈ s.concatenated c d, ∃ q ∈ (s.combine c d).rules, q.id = r.id) ∧
      ∃ listed, (s.combine c d).metadata.lookup "profiles" = some listed ∧
        listed.elements = (s.profiles.filter fun name => (c.load d name).isOk).map .string := by
  refine ⟨?first, ?distinct, ?present, ?names⟩
  case first =>
    rw [rules_combine, keepFirst_eq, map_fst_allRules]
    simp only [List.map_nil, lacks_nil, Bool.true_and]
    rfl
  case distinct =>
    rw [rules_combine, List.map_map]
    exact (keepFirst_ids [] (allRules c d s)).1
  case present =>
    intro r hr
    rw [← map_fst_allRules] at hr
    obtain ⟨x, hx, rfl⟩ := List.mem_map.mp hr
    rcases exists_kept [] _ hx with ⟨q, hq, -⟩ | ⟨q, hq, hid⟩
    · cases hq
    · exact ⟨q.1, by rw [rules_combine]; exact List.mem_map_of_mem hq, hid⟩
  case names =>
    refine ⟨_, rfl, ?_⟩
    split
    · next hnone => rw [← loadedNames, List.isEmpty_iff.mp hnone]; rfl
    · rfl

/-- A catalog with one profile, whose one rule has the id `a`. -/
def sampleCatalog : Catalog := { root := "/r", documents := [("p", Profile.sampleText)] }

/-- The profile twice, with one that does not exist between, and two rules more. -/
def sampleSpec : Spec :=
  { profiles := ["p", "q", "p"], customRules := [{ id := "a" }, { id := "b" }] }

theorem load_sampleCatalog :
    sampleCatalog.load {} "p" = .ok Profile.sampleProfile.withDefaults ∧
      (sampleCatalog.load {} "q").isOk = false := by
  have hstat : Disk.stat {} (sampleCatalog.overridePath "p") = .error .notExist := by
    have hnames : Disk.fullNames {} (sampleCatalog.overridePath "p") =
        ["r", ".guardrails", "profiles", "p.yaml"] := by decide
    have hplace : Disk.place {} (sampleCatalog.overridePath "p") = .error .notExist := by
      rw [Disk.place, hnames, Disk.follow]
      rfl
    rw [Disk.stat, hplace]
    rfl
  have hbuiltin : Profile.load Profile.sampleText "builtin:p" =
      .ok Profile.sampleProfile.withDefaults :=
    have hload := Profile.load_by_value Profile.read_sampleText Profile.readByValue_sampleText
    (hload "builtin:p" _).mpr ((hload "" _).mp Profile.load_sampleText)
  refine ⟨?_, rfl⟩
  have hfind : sampleCatalog.documents.find? (·.1 = "p") = some ("p", Profile.sampleText) := rfl
  rw [Catalog.load, hfind]
  simp only [hstat]
  exact hbuiltin

/-- The rule of the profile counts once, and before the one of the specification with its id. -/
theorem combine_first_wins_sample :
    (sampleSpec.combine sampleCatalog {}).rules =
        [Profile.sampleRule.withDefaults, { id := "b" }] ∧
      ∃ listed, (sampleSpec.combine sampleCatalog {}).metadata.lookup "profiles" = some listed ∧
        listed.elements = [.string "p", .string "p"] := by
  obtain ⟨hload, hfails⟩ := load_sampleCatalog
  obtain ⟨hrules, -, -, listed, hlisted, hnames⟩ := combine_first_wins sampleSpec sampleCatalog {}
  have hmissing : ∃ f, sampleCatalog.load {} "q" = .error f := by
    cases h : sampleCatalog.load {} "q" with
    | ok p => rw [h] at hfails; cases hfails
    | error f => exact ⟨f, rfl⟩
  obtain ⟨f, hf⟩ := hmissing
  have hall : sampleSpec.concatenated sampleCatalog {} =
      [Profile.sampleRule.withDefaults, Profile.sampleRule.withDefaults, { id := "a" },
        { id := "b" }] := by
    simp only [concatenated, sampleSpec, List.flatMap_cons, List.flatMap_nil, hload, hf]
    rfl
  rw [hall] at hrules
  refine ⟨hrules.trans (by decide), listed, hlisted, hnames.trans ?_⟩
  simp only [sampleSpec, List.filter_cons, hload, hf]
  rfl

end RuleScan.Spec
