import Mathlib.Data.List.Basic
import RuleScan.Profile.Basic

/-!
# Ids that are used again

A draft tells of every rule whose id an earlier rule has, and names the first such rule.

## What is proved

  * `duplicate_mem_problems_iff` — of which rules that is told, and which one is named;
  * `problems_eq_nil_iff` — when nothing is told of a draft at all;
  * `problems_eq_pass` — the rules can be gone through ONCE, with a table of the ids seen so far that
    has for each the place where it was seen first.

## Which places count

A gap has no id, and the empty id is never told of, although the table has it: rules without an id
are told of as such.  So the table is right about all other ids (`Remembers`), and that is what one
step of the pass keeps (`Remembers.visit`).
-/

namespace RuleScan.Profile.Draft

/-! ## Uses of an id -/

/-- The rule at a place has an id. -/
def UsesAt (rules : List (Option Rule)) (i : Nat) (id : String) : Prop :=
  ∃ r, rules[i]? = some (some r) ∧ r.id = id

/-- The first place with an id. -/
structure FirstUse (rules : List (Option Rule)) (i : Nat) (id : String) : Prop where
  uses : UsesAt rules i id
  first : ∀ j < i, ¬ UsesAt rules j id

section Uses

variable {rules : List (Option Rule)} {i j first : Nat} {id : String}

theorem usesAt_take : UsesAt (rules.take i) j id ↔ j < i ∧ UsesAt rules j id := by
  rw [UsesAt, UsesAt, List.getElem?_take]
  split
  · next hj => simp [hj]
  · next hj => simp [hj]

theorem firstUse?_eq (id : String) (rules : List (Option Rule)) :
    firstUse? id rules = rules.findIdx? fun x => x.any fun r => r.id = id := by
  rw [firstUse?]
  congr 1
  funext x
  cases x <;> rfl

theorem firstUse?_eq_some_iff : firstUse? id rules = some first ↔ FirstUse rules first id := by
  have huses : ∀ j, UsesAt rules j id ↔
      ∃ h : j < rules.length, rules[j].any (fun r => r.id = id) = true := by
    intro j
    constructor
    · rintro ⟨r, hr, hid⟩
      obtain ⟨hj, hr⟩ := List.getElem?_eq_some_iff.mp hr
      exact ⟨hj, by simp [hr, hid]⟩
    · rintro ⟨hj, hany⟩
      obtain ⟨r, hr, hid⟩ := (Option.any_eq_true _ _).mp hany
      exact ⟨r, List.getElem?_eq_some_iff.mpr ⟨hj, hr⟩, of_decide_eq_true hid⟩
  rw [firstUse?_eq, List.findIdx?_eq_some_iff_getElem]
  constructor
  · rintro ⟨hfirst, hmatch, hbefore⟩
    refine ⟨(huses first).mpr ⟨hfirst, hmatch⟩, fun j hj hused => ?_⟩
    exact hbefore j hj ((huses j).mp hused).2
  · rintro ⟨hused, hbefore⟩
    obtain ⟨hfirst, hmatch⟩ := (huses first).mp hused
    refine ⟨hfirst, hmatch, fun j hj hmatch => ?_⟩
    exact hbefore j hj ((huses j).mpr ⟨Nat.lt_trans hj hfirst, hmatch⟩)

theorem firstUse?_take_eq_some_iff :
    firstUse? id (rules.take i) = some first ↔ first < i ∧ FirstUse rules first id := by
  rw [firstUse?_eq_some_iff]
  constructor
  · rintro ⟨hused, hbefore⟩
    obtain ⟨hfirst, hused⟩ := usesAt_take.mp hused
    exact ⟨hfirst, hused, fun j hj h => hbefore j hj (usesAt_take.mpr ⟨Nat.lt_trans hj hfirst, h⟩)⟩
  · rintro ⟨hfirst, hused, hbefore⟩
    exact ⟨usesAt_take.mpr ⟨hfirst, hused⟩, fun j hj h => hbefore j hj (usesAt_take.mp h).2⟩

/-- What is used before a place is used first before it. -/
theorem exists_firstUse (hj : j < i) (h : UsesAt rules j id) :
    ∃ first < i, FirstUse rules first id := by
  induction j using Nat.strongRecOn with
  | ind j ih =>
      by_cases hearlier : ∃ k < j, UsesAt rules k id
      · obtain ⟨k, hk, hused⟩ := hearlier
        exact ih k hk (Nat.lt_trans hk hj) hused
      · exact ⟨j, hj, h, fun k hk hused => hearlier ⟨k, hk, hused⟩⟩

theorem firstUse?_take_eq_none_iff :
    firstUse? id (rules.take i) = none ↔ ∀ j < i, ¬ UsesAt rules j id := by
  rw [Option.eq_none_iff_forall_ne_some]
  simp only [ne_eq, firstUse?_take_eq_some_iff]
  constructor
  · intro hnone j hj hused
    obtain ⟨first, hfirst⟩ := exists_firstUse hj hused
    exact hnone first hfirst
  · rintro hnone first ⟨hfirst, hused, -⟩
    exact hnone first hfirst hused

end Uses

/-! ## What is told of a rule -/

section Problems

variable {d : Draft}

theorem mem_problems_iff {p : Problem} : p ∈ d.problems ↔
    p = .nameRequired ∧ Text.trim d.name = "" ∨ p = .noRules ∧ d.rules = [] ∨
      ∃ i x, d.rules[i]? = some x ∧ p ∈ ruleProblems (d.rules.take i) i x := by
  simp only [problems, List.mem_append, List.mem_flatMap, Prod.exists,
    List.mem_zipIdx_iff_getElem?, or_assoc]
  refine or_congr ?_ (or_congr ?_ ?_)
  · split <;> simp_all
  · split <;> simp_all
  · exact ⟨fun ⟨x, i, h⟩ => ⟨i, x, h⟩, fun ⟨i, x, h⟩ => ⟨x, i, h⟩⟩

theorem duplicate_mem_ruleProblems_iff {before : List (Option Rule)} {k i : Nat}
    {x : Option Rule} {id : String} {first : Nat} :
    .duplicate i id first ∈ ruleProblems before k x ↔
      i = k ∧ id ≠ "" ∧ (∃ r, x = some r ∧ r.id = id) ∧ firstUse? id before = some first := by
  cases x with
  | none => simp [ruleProblems]
  | some r =>
      have hown : .duplicate i id first ∉ r.problems.map (Problem.rule k) := by simp
      rw [ruleProblems, List.mem_append, or_iff_right hown]
      constructor
      · intro hmem
        split at hmem
        · next place hplace =>
            split at hmem
            · cases hmem
            · next hid =>
                cases List.mem_singleton.mp hmem
                exact ⟨rfl, hid, ⟨r, rfl, rfl⟩, hplace⟩
        · cases hmem
      · rintro ⟨rfl, hid, ⟨q, hq, rfl⟩, hfirst⟩
        cases hq
        simp [hfirst, hid]

/-- **Of which rules it is told that their id is used again, and which one is named.** -/
theorem duplicate_mem_problems_iff {i first : Nat} {id : String} :
    .duplicate i id first ∈ d.problems ↔
      id ≠ "" ∧ UsesAt d.rules i id ∧ first < i ∧ FirstUse d.rules first id := by
  rw [mem_problems_iff]
  simp only [reduceCtorEq, false_and, false_or, duplicate_mem_ruleProblems_iff]
  constructor
  · rintro ⟨k, x, hx, rfl, hid, ⟨r, rfl, hr⟩, hfirst⟩
    exact ⟨hid, ⟨r, hx, hr⟩, firstUse?_take_eq_some_iff.mp hfirst⟩
  · rintro ⟨hid, ⟨r, hr, hrid⟩, hfirst⟩
    exact ⟨i, some r, hr, rfl, hid, ⟨r, rfl, hrid⟩, firstUse?_take_eq_some_iff.mpr hfirst⟩

/-- Whatever is wrong with a rule itself is told. -/
theorem rule_mem_problems_iff {i : Nat} {q : Rule.Problem} :
    .rule i q ∈ d.problems ↔ ∃ r, d.rules[i]? = some (some r) ∧ q ∈ r.problems := by
  have hat (before : List (Option Rule)) (k : Nat) (x : Option Rule) :
      .rule i q ∈ ruleProblems before k x ↔ i = k ∧ ∃ r, x = some r ∧ q ∈ r.problems := by
    cases x with
    | none => simp [ruleProblems]
    | some r =>
        rw [ruleProblems, List.mem_append, or_iff_left (by split <;> [split; skip] <;> simp)]
        simp [eq_comm, and_comm]
  rw [mem_problems_iff]
  simp only [reduceCtorEq, false_and, false_or, hat]
  constructor
  · rintro ⟨k, x, hx, rfl, r, rfl, hq⟩
    exact ⟨r, hx, hq⟩
  · rintro ⟨r, hr, hq⟩
    exact ⟨i, some r, hr, rfl, r, rfl, hq⟩

theorem ruleProblems_some_eq_nil_iff {before : List (Option Rule)} {i : Nat} {r : Rule} :
    ruleProblems before i (some r) = [] ↔
      r.problems = [] ∧ (r.id ≠ "" → firstUse? r.id before = none) := by
  rw [ruleProblems, List.append_eq_nil_iff, List.map_eq_nil_iff]
  refine and_congr_right fun _ => ?_
  split
  · next first hfirst => simp [hfirst]
  · next hnone => simp [hnone]

/-- **When nothing is told of a draft.** -/
theorem problems_eq_nil_iff : d.problems = [] ↔
    Text.trim d.name ≠ "" ∧ d.rules ≠ [] ∧
      (∀ x ∈ d.rules, ∃ r, x = some r ∧ r.problems = []) ∧
      ∀ i id, id ≠ "" → UsesAt d.rules i id → ∀ j < i, ¬ UsesAt d.rules j id := by
  rw [problems, List.append_eq_nil_iff, List.append_eq_nil_iff, and_assoc]
  refine and_congr ?_ (and_congr ?_ ?_)
  · by_cases hname : Text.trim d.name = "" <;> simp [hname]
  · cases d.rules <;> simp
  · rw [List.flatMap_eq_nil_iff]
    constructor
    · intro hnone
      have hat : ∀ i x, d.rules[i]? = some x → ruleProblems (d.rules.take i) i x = [] :=
        fun i x hx => hnone (x, i) (List.mem_zipIdx_iff_getElem?.mpr hx)
      refine ⟨fun x hx => ?_, ?_⟩
      · obtain ⟨i, hi⟩ := List.getElem?_of_mem hx
        cases x with
        | none => cases hat i none hi
        | some r => exact ⟨r, rfl, (ruleProblems_some_eq_nil_iff.mp (hat i (some r) hi)).1⟩
      · rintro i id hid ⟨r, hr, rfl⟩
        exact firstUse?_take_eq_none_iff.mp
          ((ruleProblems_some_eq_nil_iff.mp (hat i (some r) hr)).2 hid)
    · rintro ⟨hrules, hids⟩ ⟨x, i⟩ hmem
      have hx := List.mem_zipIdx_iff_getElem?.mp hmem
      obtain ⟨r, rfl, hproblems⟩ := hrules x (List.mem_of_getElem? hx)
      exact ruleProblems_some_eq_nil_iff.mpr ⟨hproblems, fun hid =>
        firstUse?_take_eq_none_iff.mpr (hids i r.id hid ⟨r, hx, rfl⟩)⟩

end Problems

/-! ## One pass -/

/-- Ids with the places where they were seen. -/
abbrev Seen : Type := List (String × Nat)

/-- What one rule adds to what was seen, and what is told of it.  The place of an id that was seen
before is kept, but for the empty id. -/
def visit (seen : Seen) (i : Nat) : Option Rule → Seen × List Problem
  | none => (seen, [.missingRule i])
  | some r =>
    let own := r.problems.map (Problem.rule i)
    match seen.lookup r.id with
    | some first =>
      if r.id = "" then ((r.id, i) :: seen, own) else (seen, own ++ [.duplicate i r.id first])
    | none => ((r.id, i) :: seen, own)

/-- What is told of some rules, the first of which is at a place. -/
def pass (seen : Seen) (i : Nat) : List (Option Rule) → List Problem
  | [] => []
  | x :: rest => (visit seen i x).2 ++ pass (visit seen i x).1 (i + 1) rest

/-- The table has the first use of each id among some rules. -/
def Remembers (seen : Seen) (before : List (Option Rule)) : Prop :=
  ∀ id, id ≠ "" → seen.lookup id = firstUse? id before

section Pass

variable {seen : Seen} {before : List (Option Rule)} {id : String}

theorem firstUse?_concat_none : firstUse? id (before ++ [none]) = firstUse? id before := by
  simp [firstUse?, List.findIdx?_append]

theorem firstUse?_concat_some (r : Rule) : firstUse? id (before ++ [some r]) =
    (firstUse? id before).or (if r.id = id then some before.length else none) := by
  by_cases h : r.id = id <;> simp [firstUse?, List.findIdx?_append, h]

/-- One step of the pass: what is told of the rule is what is told with the rules before it, and the
table is right about it and them. -/
theorem Remembers.visit (h : Remembers seen before) (x : Option Rule) :
    (visit seen before.length x).2 = ruleProblems before before.length x ∧
      Remembers (visit seen before.length x).1 (before ++ [x]) := by
  cases x with
  | none => exact ⟨rfl, fun id hid => (h id hid).trans firstUse?_concat_none.symm⟩
  | some r =>
      have hput (hnew : r.id ≠ "" → seen.lookup r.id = none) :
          Remembers ((r.id, before.length) :: seen) (before ++ [some r]) := by
        intro id hid
        rw [firstUse?_concat_some, ← h id hid, List.lookup_cons]
        by_cases hr : r.id = id
        · subst hr
          simp [hnew hid]
        · have hne : (id == r.id) = false := beq_eq_false_iff_ne.mpr (Ne.symm hr)
          simp [hr, hne]
      by_cases hid : r.id = ""
      · have hvisit : Draft.visit seen before.length (some r) =
            ((r.id, before.length) :: seen, r.problems.map (Problem.rule before.length)) := by
          rw [Draft.visit]
          split <;> simp [hid]
        rw [hvisit]
        refine ⟨?_, hput fun hne => absurd hid hne⟩
        rw [ruleProblems]
        split <;> simp [hid]
      · cases hseen : seen.lookup r.id with
        | none =>
            have hused := (h r.id hid).symm.trans hseen
            simp only [Draft.visit, ruleProblems, hseen, hused, List.append_nil, true_and]
            exact hput fun _ => hseen
        | some first =>
            have hused := (h r.id hid).symm.trans hseen
            simp only [Draft.visit, ruleProblems, hseen, hused, if_neg hid, true_and]
            intro other hother
            rw [firstUse?_concat_some, h other hother]
            by_cases hr : r.id = other
            · rw [← hr, hused, Option.some_or]
            · rw [if_neg hr, Option.or_none]

/-- The whole pass. -/
theorem Remembers.pass (h : Remembers seen before) (rest : List (Option Rule)) :
    pass seen before.length rest = (rest.zipIdx before.length).flatMap fun (x, i) =>
      ruleProblems ((before ++ rest).take i) i x := by
  induction rest generalizing seen before with
  | nil => rfl
  | cons x rest ih =>
      obtain ⟨htold, hnext⟩ := h.visit x
      have hrest := ih hnext
      rw [List.length_append, List.length_singleton, List.append_assoc,
        List.singleton_append] at hrest
      have hbefore : (before ++ x :: rest).take before.length = before := List.take_left
      rw [Draft.pass, List.zipIdx_cons, List.flatMap_cons, htold, hrest]
      dsimp only
      rw [hbefore]

/-- **The rules of a draft can be gone through once.** -/
theorem problems_eq_pass (d : Draft) : d.problems =
    (if Text.trim d.name = "" then [.nameRequired] else []) ++
      (if d.rules.isEmpty then [.noRules] else []) ++ pass [] 0 d.rules := by
  have hnone : Remembers [] [] := fun _ _ => rfl
  rw [problems]
  exact congrArg _ (hnone.pass d.rules).symm

end Pass

end RuleScan.Profile.Draft
