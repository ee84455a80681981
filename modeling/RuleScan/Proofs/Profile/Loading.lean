import Mathlib.Data.List.Permutation
import RuleScan.Proofs.Profile.Reading
import RuleScan.Proofs.Profile.Shape

/-!
# How profiles and rules are loaded

A profile loads if its document fits the schema, can be read, and has no problems once its defaults
are filled in (`Profile.load_eq_ok_iff`).  A rule that comes as a plain value is first checked
against its part of the schema, and then written down with its fields in order and read back
(`Profile.parseRule_eq_ok_iff`).

What the text of a document says is not looked into.  Where it matters, two facts about the
document in question are assumed: that a value which was written down is there again
(`Yaml.read (Yaml.write w) = .ok w`), and that the document is read into a record by its value alone
(`Yaml.ReadByValue`).  Then both ways of loading are told in terms of values
(`Profile.load_by_value`, `Profile.parseRule_by_value`).  A document that has a tag where a mapping
is expected is one that is not read by its value.
-/

namespace RuleScan

open RuleScan.Yaml (Node Reading)

/-! ## The steps of loading -/

theorem bind_eq_ok_iff {α β ε : Type} {x : Except ε α} {f : α → Except ε β} {b : β} :
    (x >>= f) = .ok b ↔ ∃ a, x = .ok a ∧ f a = .ok b := by
  cases x <;> simp [bind, Except.bind]

theorem mapError_ok {α ε ε' : Type} (f : ε → ε') (a : α) :
    (Except.ok a : Except ε α).mapError f = .ok a := rfl

theorem mapError_eq_ok_iff {α ε ε' : Type} {x : Except ε α} {f : ε → ε'} {a : α} :
    x.mapError f = .ok a ↔ x = .ok a := by
  cases x with
  | error e => exact ⟨nofun, nofun⟩
  | ok b =>
      exact ⟨fun h => congrArg Except.ok (Except.ok.inj h),
        fun h => congrArg Except.ok (Except.ok.inj h)⟩

theorem eq_ok_of_toOption {α ε : Type} {x : Except ε α} {a : α} (h : x.toOption = some a) :
    x = .ok a := by
  cases x with
  | error e => cases h
  | ok b =>
      cases h
      rfl

/-- A document that is empty stands for the default. -/
def emptyAs {α : Type} (default : α) (refusal : Yaml.ReadError → Failure) :
    Except Yaml.ReadError α → Except Failure α
  | .ok a => .ok a
  | .error .empty => .ok default
  | .error e => .error (refusal e)

theorem emptyAs_eq_ok_iff {α : Type} {default a : α} {refusal : Yaml.ReadError → Failure}
    {x : Except Yaml.ReadError α} (h : x ≠ .error .empty) :
    emptyAs default refusal x = .ok a ↔ x = .ok a := by
  rcases x with (_ | _ | _) | b
  · exact absurd rfl h
  · simp [emptyAs]
  · simp [emptyAs]
  · simp [emptyAs]

theorem of_emptyAs_eq_ok {α : Type} {default a : α} {refusal : Yaml.ReadError → Failure}
    {x : Except Yaml.ReadError α} (h : emptyAs default refusal x = .ok a) :
    x = .ok a ∨ a = default := by
  rcases x with (_ | _ | _) | b
  · cases h
    exact .inr rfl
  · cases h
  · cases h
  · cases h
    exact .inl rfl

theorem Document.read_eq {α : Type} (text : String) (default : α) (read : Node → Reading α) :
    Document.read text default read =
      emptyAs default (Document.unreadable text) (Yaml.readDocument text read) := by
  unfold Document.read emptyAs
  rfl

namespace Profile

/-- The last step of loading: what has problems is refused. -/
def accept {α π : Type} (a : α) (refusal : List π → Failure) : List π → Except Failure α
  | [] => .ok a
  | problems => .error (refusal problems)

theorem accept_eq_ok_iff {α π : Type} {a b : α} {refusal : List π → Failure} {problems : List π} :
    accept a refusal problems = .ok b ↔ b = a ∧ problems = [] := by
  cases problems <;> simp [accept, eq_comm]

theorem load_eq (text source : String) : load text source =
    (Document.check validator text).mapError (convert source) >>= fun _ =>
      (Document.read text default read).mapError (convert source) >>= fun q =>
        accept q.withDefaults (fun ps => invalidFailure source (ps.map Draft.Problem.message))
          q.withDefaults.problems := by
  unfold load
  -- What is compared is the order of the steps; the steps themselves are not looked into.
  generalize (Document.check validator text).mapError (convert source) = checked
  generalize (Document.read text default read).mapError (convert source) = x
  generalize problems = problems
  cases checked with
  | error e => rfl
  | ok u =>
      cases x with
      | error e => rfl
      | ok q =>
          dsimp only [bind, Except.bind]
          cases problems q.withDefaults <;> rfl

/-- A profile that loads fits the schema, was read, completed and found without problems. -/
theorem load_eq_ok_iff {text source : String} {p : Profile} : load text source = .ok p ↔
    Document.check validator text = .ok () ∧
      ∃ q, Document.read text default read = .ok q ∧ p = q.withDefaults ∧ p.problems = [] := by
  rw [load_eq, bind_eq_ok_iff]
  simp only [mapError_eq_ok_iff, bind_eq_ok_iff, accept_eq_ok_iff]
  constructor
  · rintro ⟨_, hcheck, q, hread, rfl, hproblems⟩
    exact ⟨hcheck, q, hread, rfl, hproblems⟩
  · rintro ⟨hcheck, q, hread, rfl, hproblems⟩
    exact ⟨(), hcheck, q, hread, rfl, hproblems⟩

/-- A rule that stands on its own, written down and read back. -/
def readBack (v : Json) : Except Failure Rule :=
  emptyAs default (fun e => convert "" ((Failure.ofRead e).under .parse "parse"))
    (Yaml.readDocument (Yaml.write (Yaml.sorted v)) Rule.read)

theorem parseRule_eq (v : Json) : parseRule v = ((ruleValidator.validate v).mapError fun e =>
    convert "" ((Failure.ofDocument e).under .schema "schema")) >>= fun _ =>
      readBack v >>= fun q =>
        accept q.withDefaults
          (fun ps => invalidFailure q.withDefaults.id (ps.map Rule.Problem.message))
          q.withDefaults.problems := by
  unfold parseRule readBack
  generalize ruleValidator.validate v = checked
  generalize Yaml.readDocument (Yaml.write (Yaml.sorted v)) Rule.read = x
  generalize Rule.problems = problems
  cases checked with
  | error e => rfl
  | ok u =>
      rcases x with (_ | _ | _) | q
      · dsimp only [bind, Except.bind, mapError_ok, pure, Except.pure, emptyAs]
        cases problems (Rule.withDefaults default) <;> rfl
      · rfl
      · rfl
      · dsimp only [bind, Except.bind, mapError_ok, pure, Except.pure, emptyAs]
        cases problems q.withDefaults <;> rfl

/-- A rule that is loaded on its own fits its part of the schema, was read back, completed and
found without problems. -/
theorem parseRule_eq_ok_iff {v : Json} {r : Rule} : parseRule v = .ok r ↔
    ruleValidator.validate v = .ok () ∧ ∃ q, readBack v = .ok q ∧ r = q.withDefaults ∧
      r.problems = [] := by
  rw [parseRule_eq, bind_eq_ok_iff]
  simp only [mapError_eq_ok_iff, bind_eq_ok_iff, accept_eq_ok_iff]
  constructor
  · rintro ⟨_, hvalid, q, hread, rfl, hproblems⟩
    exact ⟨hvalid, q, hread, rfl, hproblems⟩
  · rintro ⟨hvalid, q, hread, rfl, hproblems⟩
    exact ⟨(), hvalid, q, hread, rfl, hproblems⟩

end Profile

/-! ## Documents that are read by their values -/

namespace Yaml

theorem read_eq_ok {source : String} {v : Json}
    (h : (Yaml.read source).toOption.any (·.alike v) = true) : Yaml.read source = .ok v := by
  cases hread : Yaml.read source with
  | error e =>
      rw [hread] at h
      cases h
  | ok w =>
      rw [hread] at h
      rw [Json.eq_of_alike h]

/-- The document is read as its value is. -/
def ReadByValue {α : Type} (source : String) (read : Node → Reading α)
    (decode : Json → Option α) : Prop :=
  ∀ v, Yaml.read source = .ok v → ∀ a, readDocument source read = .ok a ↔ decode v = some a

theorem readByValue_of_eq {α : Type} {source : String} {read : Node → Reading α}
    {decode : Json → Option α} {v : Json} {a : α} (hvalue : Yaml.read source = .ok v)
    (hread : readDocument source read = .ok a) (hdecode : decode v = some a) :
    ReadByValue source read decode := by
  intro w hw b
  rw [hvalue] at hw
  cases hw
  rw [hread, hdecode]
  simp

/-- A document that has a value is not empty. -/
theorem readDocument_ne_empty {α : Type} {source : String} {v : Json}
    (h : Yaml.read source = .ok v) (read : Node → Reading α) :
    readDocument source read ≠ .error .empty := by
  have hfault : ∀ f, ReadError.ofFault f ≠ .empty := by
    intro f
    rw [ReadError.ofFault]
    split <;> nofun
  unfold Yaml.read at h
  unfold readDocument
  cases hload : load source with
  | error f =>
      rw [hload] at h
      cases h
  | ok loaded =>
      cases hdocuments : loaded.documents with
      | nil => simp [hload, hdocuments] at h
      | cons document rest =>
          simp only [hdocuments]
          split
          · nofun
          · simpa using hfault _

end Yaml

theorem Document.read_eq_ok_iff {α : Type} {text : String} {v : Json} (h : Yaml.read text = .ok v)
    {default : α} {read : Node → Reading α} {a : α} :
    Document.read text default read = .ok a ↔ Yaml.readDocument text read = .ok a := by
  rw [Document.read_eq]
  exact emptyAs_eq_ok_iff (Yaml.readDocument_ne_empty h read)

theorem Document.check_eq_ok_iff {text : String} {v : Json} (h : Yaml.read text = .ok v)
    {validator : Schema.Validator} :
    Document.check validator text = .ok () ↔ validator.validate v = .ok () := by
  have hvalue : Document.value text = .ok v := by rw [Document.value, h]
  rw [Document.check, hvalue]
  exact mapError_eq_ok_iff

theorem Document.read_of_value {text : String} {fields : List (String × Json)}
    (h : Document.value text = .ok (.object fields)) : Yaml.read text = .ok (.object fields) := by
  unfold Document.value at h
  split at h
  · next v hv =>
      cases h
      exact hv
  · cases h
  · cases h

namespace Profile

/-- A rule that is loaded on its own is what its value is read as, completed. -/
theorem parseRule_by_value {v : Json}
    (hback : Yaml.read (Yaml.write (Yaml.sorted v)) = .ok (Yaml.sorted v))
    (hrule : Yaml.ReadByValue (Yaml.write (Yaml.sorted v)) Rule.read Rule.ofValue?) (r : Rule) :
    parseRule v = .ok r ↔ ruleValidator.validate v = .ok () ∧
      ∃ q, Rule.ofValue? v = some q ∧ r = q.withDefaults ∧ r.problems = [] := by
  have hread : ∀ q, readBack v = .ok q ↔ Rule.ofValue? v = some q := fun q => by
    rw [readBack, emptyAs_eq_ok_iff (Yaml.readDocument_ne_empty hback Rule.read), hrule _ hback,
      Rule.unordered_ofValue? v]
  simp only [parseRule_eq_ok_iff, hread]

/-- A profile that loads is what the value of its document is read as, completed. -/
theorem load_by_value {text : String} {w : Json} (hvalue : Yaml.read text = .ok w)
    (hprofile : Yaml.ReadByValue text Profile.read Profile.ofValue?) (source : String)
    (p : Profile) : load text source = .ok p ↔ validator.validate w = .ok () ∧
      ∃ q, Profile.ofValue? w = some q ∧ p = q.withDefaults ∧ p.problems = [] := by
  have hread : ∀ q, Document.read text default read = .ok q ↔ Profile.ofValue? w = some q :=
    fun q => by rw [Document.read_eq_ok_iff hvalue, hprofile w hvalue]
  simp only [load_eq_ok_iff, Document.check_eq_ok_iff hvalue, hread]

/-! ## A sample -/

/-- A rule as a plain value. -/
def sampleValue : Json :=
  .object [("description", .string "d"), ("id", .string "a"),
    ("match", .object [("anyOf", .array [.object [("value", .string "x")]])])]

/-- The rule written down. -/
def samplePage : String := "description: d\nid: a\nmatch:\n  anyOf:\n    - value: x\n"

/-- A profile with the rule. -/
def sampleText : String :=
  "name: p\nrules:\n  - description: d\n    id: a\n    match:\n      anyOf:\n        - value: x\n"

/-- The rule as it is read. -/
def sampleRule : Rule :=
  { spec := { anyOf := some [⟨.literal, "x", ""⟩] }, id := "a", description := "d" }

theorem sorted_sampleValue : Yaml.sorted sampleValue = sampleValue := by
  simp only [sampleValue, Yaml.sorted, Yaml.sortedFields, Yaml.sortedAll, List.mergeSort_singleton]
  rw [List.mergeSort_of_pairwise (by decide)]

/-- The profile as a plain value. -/
def sampleProfileValue : Json := .object [("name", .string "p"), ("rules", .array [sampleValue])]

/-- The profile as it is read. -/
def sampleProfile : Profile := { name := "p", rules := [sampleRule] }

/-- What can be found out about the sample by evaluation: how the rule is written down, what the two
texts are read as, by way of a plain value and otherwise, and that nothing is wrong with the
profile. -/
theorem evaluated_sample :
    Yaml.write sampleValue = samplePage ∧
    ((Yaml.read samplePage).toOption.any (·.alike sampleValue) = true ∧
      (Yaml.read sampleText).toOption.any (·.alike sampleProfileValue) = true) ∧
    ((Yaml.readDocument samplePage Rule.read).toOption = some sampleRule ∧
      Rule.ofValue? sampleValue = some sampleRule) ∧
    (Yaml.readDocument sampleText Profile.read).toOption.map (fun p =>
      (p.metadata.isEmpty, p.name, p.description, p.version, p.rules)) =
        some (true, "p", "", "", [sampleRule]) ∧
    Schema.admitted 10 [] sampleProfileValue = true ∧
    sampleProfile.withDefaults.problems.isEmpty = true := by
  have hpage : samplePage.toList = _ := String.toList_ofList
  have htext : sampleText.toList = _ := String.toList_ofList
  rewrite [Yaml.read, Yaml.read, Yaml.readDocument, Yaml.readDocument, Yaml.load, Yaml.load,
    Yaml.parse, Yaml.parse, Yaml.tokenize_of_toList hpage, Yaml.tokenize_of_toList htext]
  decide +kernel

theorem write_sampleValue : Yaml.write sampleValue = samplePage := evaluated_sample.1

theorem read_samplePage : Yaml.read samplePage = .ok sampleValue :=
  Yaml.read_eq_ok evaluated_sample.2.1.1

theorem read_sampleText : Yaml.read sampleText =
    .ok (.object [("name", .string "p"), ("rules", .array [sampleValue])]) :=
  Yaml.read_eq_ok evaluated_sample.2.1.2

theorem readByValue_samplePage : Yaml.ReadByValue samplePage Rule.read Rule.ofValue? := by
  obtain ⟨-, -, ⟨hread, hvalue⟩, -⟩ := evaluated_sample
  exact Yaml.readByValue_of_eq read_samplePage (eq_ok_of_toOption hread) hvalue

theorem readDocument_sampleText :
    Yaml.readDocument sampleText Profile.read = .ok sampleProfile := by
  obtain ⟨-, -, -, hparts, -⟩ := evaluated_sample
  obtain ⟨p, hp, hparts⟩ := Option.map_eq_some_iff.mp hparts
  obtain ⟨metadata, name, description, version, rules⟩ := p
  simp only [Prod.mk.injEq, List.isEmpty_iff] at hparts
  obtain ⟨rfl, rfl, rfl, rfl, rfl⟩ := hparts
  exact eq_ok_of_toOption hp

theorem readByValue_sampleText : Yaml.ReadByValue sampleText Profile.read Profile.ofValue? :=
  Yaml.readByValue_of_eq read_sampleText readDocument_sampleText rfl

theorem load_sampleText : load sampleText "" = .ok sampleProfile.withDefaults := by
  obtain ⟨-, -, -, -, hadmitted, hproblems⟩ := evaluated_sample
  exact (load_by_value read_sampleText readByValue_sampleText "" _).mpr
    ⟨(validator_iff _).mpr hadmitted, sampleProfile, rfl, rfl, List.isEmpty_iff.mp hproblems⟩

end Profile

end RuleScan

/-!
## A rule on its own, and the same rule in a profile

The two ways of loading agree.  The two schemas do (`Profile.validate_iff_ruleValidator`); a profile
with a name and one rule is read as that rule (`Profile.ofValue?_single`), unless the rule is null,
which no schema takes for a rule; and with a name that is not blank the only problems are those of
the rule (`Profile.problems_single`).
-/

namespace RuleScan.Profile

theorem problems_single {p : Profile} {r : Rule} (hname : Text.trim p.name ≠ "")
    (hrules : p.rules = [r]) : p.problems = [] ↔ r.problems = [] := by
  simp [problems, Draft.problems, draft, hname, hrules, Draft.ruleProblems, Draft.firstUse?]

/-- A profile with a name and one rule is read as that rule. -/
theorem ofValue?_single {fields : List (String × Json)} {name : String} {v : Json}
    (hfields : fields.Perm [("name", .string name), ("rules", .array [v])]) (hname : name ≠ "") :
    Profile.ofValue? (.object fields) =
      (v.orDefault default Rule.ofValue?).map fun q => { name, rules := [q] } := by
  rcases List.perm_pair.mp hfields with rfl | rfl <;>
    cases hv : v.orDefault default Rule.ofValue? <;>
      simp [ofValue?, Json.fieldOr?, Json.orDefault_of_ne_null, Json.asText?, Json.asList?, hname,
        hv]

/-- Null is not taken for a rule, so it never stands for the default. -/
theorem ne_null_of_validate {v : Json} (h : ruleValidator.validate v = .ok ()) : v ≠ .null := by
  rintro rfl
  have hnull : Schema.admitted 7 ["$defs", "Rule"] .null = false :=
    Schema.evaluated_profileLibrary.2.2.2.1
  rw [ruleValidator_iff, hnull] at h
  cases h

/-- **Rules on their own and rules of profiles are loaded alike.**  A document with a name and one
rule loads exactly if the rule does, and then as a profile of that rule alone; the value of the rule
is written down and read back on one of the two ways only. -/
theorem loads_alone {v : Json} {name text source : String} {fields : List (String × Json)}
    (hname : Text.trim name ≠ "")
    (htext : Document.value text = .ok (.object fields))
    (hfields : fields.Perm [("name", .string name), ("rules", .array [v])])
    (hback : Yaml.read (Yaml.write (Yaml.sorted v)) = .ok (Yaml.sorted v))
    (hrule : Yaml.ReadByValue (Yaml.write (Yaml.sorted v)) Rule.read Rule.ofValue?)
    (hprofile : Yaml.ReadByValue text Profile.read Profile.ofValue?) :
    (∀ r, parseRule v = .ok r → ∃ p, load text source = .ok p ∧ p.rules = [r]) ∧
      ∀ p, load text source = .ok p → ∃ r, parseRule v = .ok r ∧ p.rules = [r] := by
  have hnonempty : name ≠ "" := by
    rintro rfl
    exact hname (by decide)
  have hvalid := validate_iff_ruleValidator hfields hnonempty
  have hvalue := ofValue?_single hfields hnonempty
  have hproblems : ∀ q : Rule, (withDefaults { name, rules := [q] }).problems = [] ↔
      q.withDefaults.problems = [] := fun q => problems_single hname rfl
  have hload := load_by_value (Document.read_of_value htext) hprofile source
  have hparse := parseRule_by_value hback hrule
  constructor
  · intro r hr
    obtain ⟨hfits, q, hq, rfl, hnone⟩ := (hparse r).mp hr
    refine ⟨withDefaults { name, rules := [q] }, ?_, rfl⟩
    refine (hload _).mpr ⟨hvalid.mpr hfits, _, ?_, rfl, (hproblems q).mpr hnone⟩
    rw [hvalue, Json.orDefault_of_ne_null (ne_null_of_validate hfits), hq]
    rfl
  · intro p hp
    obtain ⟨hfits, q, hq, rfl, hnone⟩ := (hload p).mp hp
    have hfits := hvalid.mp hfits
    rw [hvalue, Json.orDefault_of_ne_null (ne_null_of_validate hfits)] at hq
    obtain ⟨r, hr, rfl⟩ := Option.map_eq_some_iff.mp hq
    refine ⟨r.withDefaults, ?_, rfl⟩
    exact (hparse _).mpr ⟨hfits, r, hr, rfl, (hproblems r).mp hnone⟩

theorem loads_alone_sample : load sampleText "" = .ok sampleProfile.withDefaults ∧
    parseRule sampleValue = .ok sampleRule.withDefaults := by
  have hvalue : Document.value sampleText =
      .ok (.object [("name", .string "p"), ("rules", .array [sampleValue])]) := by
    rw [Document.value, read_sampleText]
  have hwrite : Yaml.write (Yaml.sorted sampleValue) = samplePage := by
    rw [sorted_sampleValue, write_sampleValue]
  have hback : Yaml.read (Yaml.write (Yaml.sorted sampleValue)) =
      .ok (Yaml.sorted sampleValue) := by
    rw [hwrite, sorted_sampleValue, read_samplePage]
  have hrule : Yaml.ReadByValue (Yaml.write (Yaml.sorted sampleValue)) Rule.read
      Rule.ofValue? := by
    rw [hwrite]
    exact readByValue_samplePage
  obtain ⟨r, hr, hrules⟩ := (loads_alone (by decide) hvalue (List.Perm.refl _) hback hrule
    readByValue_sampleText).2 _ load_sampleText
  cases hrules
  exact ⟨load_sampleText, hr⟩

end RuleScan.Profile
