import RuleScan.Proofs.Profile.Repeats
import RuleScan.Proofs.Profile.Sound
import RuleScan.Proofs.Text.Space

/-!
# What is checked of a draft

## What is proved

`Draft.check_exact`, for every draft, whatever gaps it has:

  * nothing is told of it exactly if it is a profile whose rules can all be made ready for searching
    (`Draft.Valid`) — although a draft is checked rule by rule and field by field, and a rule is made
    ready later, by another function;
  * it is told of a rule that its id is used again exactly if the id is not empty and an EARLIER rule
    has it, and what is told names the first rule that has it;
  * all that is told is found in ONE pass over the rules, with a table of the ids seen so far.

## What a caller sees

What is told is text.  So the second part is about texts: of all that is told of a draft, only what
is told of an id that is used again starts with the place of the rule and `.id: duplicate id`
(`tellsRepeat_iff`).  The other texts that name the place go on with a field of the rule, and of its
id they only tell that it is required (`Rule.not_tellsRepeat`).
-/

namespace RuleScan

/-! ## What is told of the parts of a rule -/

namespace Rule

theorem part_of_mem_patternProblems {part : String} {ps : List Pattern} {p : Problem}
    (h : p ∈ patternProblems part ps) : part.toList <+: p.part.toList := by
  obtain ⟨⟨pattern, i⟩, -, hp⟩ := List.mem_filterMap.mp h
  dsimp only at hp
  split at hp
  · cases hp
  · cases hp
    simp only [String.toList_append, List.append_assoc]
    exact List.prefix_append _ _

theorem part_of_mem_specProblems {part : String} {s : PatternSpec} {p : Problem}
    (h : p ∈ specProblems part s) : part.toList <+: p.part.toList := by
  have hpart (list : String) : part.toList <+: (part ++ list).toList := by
    rw [String.toList_append]
    exact List.prefix_append _ _
  rcases List.mem_append.mp h with h | h
  · exact (hpart _).trans (part_of_mem_patternProblems h)
  · exact (hpart _).trans (part_of_mem_patternProblems h)

/-- The parts of a rule that problems are told of. -/
theorem part_of_mem_problems {r : Rule} {p : Problem} (h : p ∈ r.problems) :
    p = ⟨"id", .required⟩ ∨
      ∃ part ∈ ["description", "severity", "match", "expect", "scope"],
        part.toList <+: p.part.toList := by
  simp only [problems, List.mem_append] at h
  obtain ((((hid | hdescription) | hseverity) | hmatch) | hexpect) | hscope := h
  · split at hid
    · exact .inl (List.mem_singleton.mp hid)
    · cases hid
  · right
    split at hdescription
    · cases List.mem_singleton.mp hdescription
      exact ⟨"description", by simp, List.prefix_refl _⟩
    · cases hdescription
  · right
    split at hseverity
    · cases hseverity
    · cases List.mem_singleton.mp hseverity
      exact ⟨"severity", by simp, List.prefix_refl _⟩
  · exact .inr ⟨"match", by simp, part_of_mem_specProblems hmatch⟩
  · right
    split at hexpect
    · exact ⟨"expect", by simp, part_of_mem_specProblems hexpect⟩
    · cases hexpect
  · right
    split at hscope
    · cases hscope
    · cases List.mem_singleton.mp hscope
      exact ⟨"scope", by simp, List.prefix_refl _⟩

/-- What is told of an id that is used again, after the place of the rule. -/
def repeatText : String := "id: duplicate id "

/-- No problem of the rule itself is told like that. -/
theorem not_tellsRepeat {r : Rule} {p : Problem} (h : p ∈ r.problems) :
    ¬ repeatText.toList <+: p.message.toList := by
  rcases part_of_mem_problems h with rfl | ⟨part, hpart, hfront⟩
  · decide
  · intro htold
    have hmessage : part.toList <+: p.message.toList := by
      rw [Problem.message, String.toList_append, String.toList_append, List.append_assoc]
      exact hfront.trans (List.prefix_append _ _)
    have hapart : ∀ part ∈ ["description", "severity", "match", "expect", "scope"],
        ¬ (repeatText.toList <+: part.toList ∨ part.toList <+: repeatText.toList) := by decide
    exact hapart part hpart (List.prefix_or_prefix_of_prefix htold hmessage)

end Rule

/-! ## What is told of an id that is used again -/

namespace Profile.Draft

/-- The text tells of the rule at a place that its id is used again. -/
def Problem.TellsRepeat (i : Nat) (p : Problem) : Prop :=
  ("rules[" ++ toString i ++ "].id: duplicate id ").toList <+: p.message.toList

namespace Problem

/-- What is told of the rule at a place: the place is in brackets. -/
theorem toList_place (i : Nat) {text : String} {back : List Char}
    (h : text.toList = ']' :: back) :
    ("rules[" ++ toString i ++ text).toList =
      "rules[".toList ++ ((toString i).toList ++ ']' :: back) := by
  rw [String.toList_append, String.toList_append, h, List.append_assoc]

theorem toList_repeat : "].id: duplicate id ".toList = ']' :: '.' :: Rule.repeatText.toList := by
  decide

theorem tellsRepeat_iff_of_place {i k : Nat} {p : Problem} {back : List Char}
    (h : p.message.toList = "rules[".toList ++ ((toString k).toList ++ ']' :: back)) :
    p.TellsRepeat i ↔ i = k ∧ '.' :: Rule.repeatText.toList <+: back := by
  rw [TellsRepeat, toList_place i toList_repeat, h, List.prefix_append_right_inj]
  constructor
  · rintro ⟨rest, hrest⟩
    rw [List.append_assoc, List.cons_append] at hrest
    obtain ⟨rfl, rfl⟩ := index_cancel hrest
    exact ⟨rfl, List.prefix_append _ _⟩
  · rintro ⟨rfl, rest, rfl⟩
    exact ⟨rest, by rw [List.append_assoc, List.cons_append]⟩

theorem tellsRepeat_duplicate_iff {i k first : Nat} {id : String} :
    (duplicate k id first).TellsRepeat i ↔ i = k := by
  have hmessage : (duplicate k id first).message =
      "rules[" ++ toString k ++ ("].id: duplicate id " ++
        (Text.quoted id ++ " (first used by rules[" ++ toString first ++ "])")) := by
    simp only [message, String.append_assoc]
  have htext (back : String) : ("].id: duplicate id " ++ back).toList =
      ']' :: '.' :: (Rule.repeatText.toList ++ back.toList) := by
    rw [String.toList_append, toList_repeat, List.cons_append, List.cons_append]
  rw [tellsRepeat_iff_of_place
    ((congrArg String.toList hmessage).trans (toList_place k (htext _)))]
  exact and_iff_left (List.prefix_append ('.' :: Rule.repeatText.toList) _)

end Problem

/-- Of all that is told of a draft, only an id that is used again is told like that. -/
theorem tellsRepeat_iff {d : Draft} {p : Problem} (hp : p ∈ d.problems) {i : Nat} :
    p.TellsRepeat i ↔ ∃ id first, p = .duplicate i id first := by
  constructor
  · intro htold
    cases p with
    | nameRequired =>
        obtain ⟨back, hback⟩ := htold
        simp [Problem.message] at hback
    | noRules =>
        obtain ⟨back, hback⟩ := htold
        simp [Problem.message] at hback
    | missingRule k =>
        have htext : "]: must be an object".toList = ']' :: ": must be an object".toList := by decide
        have hafter := ((Problem.tellsRepeat_iff_of_place (p := .missingRule k)
          (Problem.toList_place k htext)).mp htold).2
        exact absurd hafter (by decide)
    | rule k q =>
        have hplace : (Problem.rule k q).message =
            "rules[" ++ toString k ++ ("]." ++ q.message) := by
          rw [Problem.message, String.append_assoc]
        have htext : ("]." ++ q.message).toList = ']' :: '.' :: q.message.toList := by simp
        have hafter := ((Problem.tellsRepeat_iff_of_place
          ((congrArg String.toList hplace).trans (Problem.toList_place k htext))).mp htold).2
        obtain ⟨r, -, hq⟩ := rule_mem_problems_iff.mp hp
        exact absurd (List.cons_prefix_cons.mp hafter).2 (Rule.not_tellsRepeat hq)
    | duplicate k id first =>
        obtain rfl := Problem.tellsRepeat_duplicate_iff.mp htold
        exact ⟨id, first, rfl⟩
  · rintro ⟨id, first, rfl⟩
    exact Problem.tellsRepeat_duplicate_iff.mpr rfl

/-! ## The check -/

/-- A draft that is a profile whose rules can all be made ready for searching. -/
structure Valid (d : Draft) : Prop where
  named : Text.trim d.name ≠ ""
  nonempty : d.rules ≠ []
  complete : none ∉ d.rules
  compiles : ∀ r, some r ∈ d.rules → ∃ c, r.compile = .ok c
  distinct : ∀ i j id, id ≠ "" → UsesAt d.rules i id → UsesAt d.rules j id → i = j

variable {d : Draft}

/-- No id is used before another use of it, exactly if no id is used at two places. -/
theorem usesAt_distinct_iff {rules : List (Option Rule)} :
    (∀ i id, id ≠ "" → UsesAt rules i id → ∀ j < i, ¬ UsesAt rules j id) ↔
      ∀ i j id, id ≠ "" → UsesAt rules i id → UsesAt rules j id → i = j := by
  constructor
  · intro hfresh i j id hid hi hj
    rcases Nat.lt_trichotomy i j with hlt | heq | hgt
    · exact absurd hi (hfresh j id hid hj i hlt)
    · exact heq
    · exact absurd hj (hfresh i id hid hi j hgt)
  · intro hdistinct i id hid hi j hlt hj
    exact Nat.ne_of_gt hlt (hdistinct i j id hid hi hj)

theorem problems_eq_nil_iff_valid : d.problems = [] ↔ d.Valid := by
  rw [problems_eq_nil_iff, usesAt_distinct_iff]
  constructor
  · rintro ⟨hname, hrules, hall, hdistinct⟩
    refine ⟨hname, hrules, fun hgap => ?_, fun r hr => ?_, hdistinct⟩
    · obtain ⟨r, hr, -⟩ := hall none hgap
      cases hr
    · obtain ⟨q, hq, hproblems⟩ := hall (some r) hr
      cases hq
      exact Rule.exists_compile_iff.mpr hproblems
  · intro h
    refine ⟨h.named, h.nonempty, fun x hx => ?_, h.distinct⟩
    cases x with
    | none => exact absurd hx h.complete
    | some r => exact ⟨r, rfl, Rule.exists_compile_iff.mp (h.compiles r hx)⟩

/-- **The check of a draft is exact.**  Nothing is told of a draft exactly if it is valid; and it is
told of a rule that its id is used again exactly if it is used before, with the first use.  One pass
over the rules finds all of it. -/
theorem check_exact (d : Draft) :
    (d.problems = [] ↔ d.Valid) ∧
    (∀ i, (∃ p ∈ d.problems, p.TellsRepeat i) ↔
      ∃ id, id ≠ "" ∧ UsesAt d.rules i id ∧ ∃ j < i, UsesAt d.rules j id) ∧
    (∀ i, ∀ p ∈ d.problems, p.TellsRepeat i → ∃ id first,
      id ≠ "" ∧ UsesAt d.rules i id ∧ first < i ∧ FirstUse d.rules first id ∧
      p.message = "rules[" ++ toString i ++ "].id: duplicate id " ++ Text.quoted id ++
        " (first used by rules[" ++ toString first ++ "])") ∧
    d.problems = (if Text.trim d.name = "" then [.nameRequired] else []) ++
      (if d.rules.isEmpty then [.noRules] else []) ++ pass [] 0 d.rules := by
  refine ⟨problems_eq_nil_iff_valid, fun i => ⟨?_, ?_⟩, ?_, problems_eq_pass d⟩
  · rintro ⟨p, hp, htold⟩
    obtain ⟨id, first, rfl⟩ := (tellsRepeat_iff hp).mp htold
    obtain ⟨hid, hused, hfirst, hbefore⟩ := duplicate_mem_problems_iff.mp hp
    exact ⟨id, hid, hused, first, hfirst, hbefore.uses⟩
  · rintro ⟨id, hid, hused, j, hj, hbefore⟩
    obtain ⟨first, hfirst, huse⟩ := exists_firstUse hj hbefore
    exact ⟨.duplicate i id first, duplicate_mem_problems_iff.mpr ⟨hid, hused, hfirst, huse⟩,
      Problem.tellsRepeat_duplicate_iff.mpr rfl⟩
  · intro i p hp htold
    obtain ⟨id, first, rfl⟩ := (tellsRepeat_iff hp).mp htold
    obtain ⟨hid, hused, hfirst, huse⟩ := duplicate_mem_problems_iff.mp hp
    exact ⟨id, first, hid, hused, hfirst, huse, rfl⟩

/-- A draft with a gap, and with the rule before the gap once more. -/
def sampleDraft : Draft :=
  { name := "p", rules := [some sampleRule.withDefaults, none, some sampleRule.withDefaults] }

theorem usesAt_sampleDraft_iff {i : Nat} {id : String} :
    UsesAt sampleDraft.rules i id ↔ (i = 0 ∨ i = 2) ∧ id = "a" := by
  match i with
  | 0 => simp [UsesAt, sampleDraft, sampleRule, Rule.withDefaults, eq_comm]
  | 1 => simp [UsesAt, sampleDraft]
  | 2 => simp [UsesAt, sampleDraft, sampleRule, Rule.withDefaults, eq_comm]
  | i + 3 => simp [UsesAt, sampleDraft]

theorem check_exact_sample : sampleProfile.withDefaults.draft.Valid ∧ ¬ sampleDraft.Valid ∧
    (∃ p ∈ sampleDraft.problems, p.TellsRepeat 2) ∧
    ¬ (∃ p ∈ sampleDraft.problems, p.TellsRepeat 0) ∧
    ∀ p ∈ sampleDraft.problems, p.TellsRepeat 2 →
      p.message = "rules[2].id: duplicate id \"a\" (first used by rules[0])" := by
  obtain ⟨hvalid, hrepeat, hfirst, -⟩ := check_exact sampleDraft
  refine ⟨(check_exact _).1.mp ?_, ?_, (hrepeat 2).mpr ?_, ?_, ?_⟩
  · exact List.isEmpty_iff.mp (by decide +kernel)
  · intro h
    have hgap := List.isEmpty_iff.mpr (hvalid.mpr h)
    revert hgap
    decide +kernel
  · exact ⟨"a", by decide, usesAt_sampleDraft_iff.mpr ⟨.inr rfl, rfl⟩, 0, by decide,
      usesAt_sampleDraft_iff.mpr ⟨.inl rfl, rfl⟩⟩
  · intro htold
    obtain ⟨id, -, -, j, hj, -⟩ := (hrepeat 0).mp htold
    exact absurd hj (Nat.not_lt_zero j)
  · intro p hp htold
    obtain ⟨id, first, -, hused, hlt, huse, hmessage⟩ := hfirst 2 p hp htold
    obtain ⟨-, rfl⟩ := usesAt_sampleDraft_iff.mp hused
    obtain rfl | rfl := (usesAt_sampleDraft_iff.mp huse.uses).1
    · rw [hmessage]
      decide +kernel
    · exact absurd hlt (Nat.lt_irrefl 2)

end Profile.Draft

end RuleScan
