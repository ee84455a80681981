import RuleScan.Profile.Document
import RuleScan.Proofs.Schema.Published
import RuleScan.Proofs.Text.Utf8

/-!
# The schema of profiles, and of the rules in them

The two validators share one document: the one for profiles starts at its top, the one for single
rules at the definition of rules in it.  All schemas in it are plain and unfold, so both validators
find what their schemas admit (`Profile.validator_iff`, `Profile.ruleValidator_iff`).  The schemas
on the way from the one to the other have outlines (`Schema.evaluated_profileLibrary`), and so a
profile with a name and one rule is accepted exactly if the rule is
(`Profile.validate_iff_ruleValidator`).
-/

namespace RuleScan.Schema

/-! ## The published document -/

/-- The one resource of the document. -/
def profileResource : Resource :=
  { pointer := []
    address := "file:///github.com/macropower/guardrail/pkg/profile"
    draft := .of2020 }

/-- The schema of profiles, with its definitions in order. -/
def orderedSchema : Json := listed published profileRecords profileHome profileRecord

theorem profileSchema_eq : profileSchema = orderedSchema := by
  refine document_eq ?_ ?_ published profileHome
  · decide +kernel
  · simp only [profileRecords, List.pairwise_cons]
    decide +kernel

theorem resources_orderedSchema :
    (Sheet.make? Validator.home orderedSchema).map Sheet.resources = some [profileResource] := by
  decide +kernel

/-- The library of both validators. -/
def profileLibrary : Library := libraryOf orderedSchema [profileResource]

theorem validator_of {pointer : String} {way : List String}
    (h : profileLibrary.sheet.resolve? pointer = some ⟨Validator.home, way⟩) :
    Validator.of profileSchema pointer = ⟨profileLibrary, profileLibrary.schemaAt way⟩ := by
  rw [profileSchema_eq]
  exact Validator.of_eq resources_orderedSchema h

/-! ## What its schemas admit -/

/-- What can be found out about the document by evaluation: it is one resource, the two validators
start at its top and at the definition of rules, the schemas there unfold (the one of rules is three
steps inside the one of profiles), a rule is not null, and the schemas between the two have
outlines. -/
theorem evaluated_profileLibrary :
    profileLibrary.isWhole = true ∧
    (profileLibrary.sheet.resolve? "" = some ⟨Validator.home, []⟩ ∧
      profileLibrary.sheet.resolve? "/$defs/Rule" = some ⟨Validator.home, ["$defs", "Rule"]⟩) ∧
    (profileLibrary.unfolds 10 (profileLibrary.schemaAt []) = true ∧
      profileLibrary.unfolds 7 (profileLibrary.schemaAt ["$defs", "Rule"]) = true) ∧
    profileLibrary.admits 7 (profileLibrary.schemaAt ["$defs", "Rule"]) .null = false ∧
    profileLibrary.outline? (profileLibrary.schemaAt []) = some {
      type := some "object"
      required := ["rules"]
      isOpen := false
      named := ["metadata", "name", "description", "version", "rules", "refactor_name"].map
        fun name => (name, ["properties", name])
      alternatives := [["anyOf", "0"], ["anyOf", "1"]] } ∧
    profileLibrary.outline? (profileLibrary.schemaAt ["anyOf", "0"]) =
      some { required := ["name"] } ∧
    profileLibrary.outline? (profileLibrary.schemaAt ["properties", "name"]) =
      some { type := some "string", minLength := some 1 } ∧
    profileLibrary.outline? (profileLibrary.schemaAt ["properties", "rules"]) = some {
      type := some "array"
      minItems := some 1
      items := some ["properties", "rules", "items"] } ∧
    profileLibrary.outline? (profileLibrary.schemaAt ["properties", "rules", "items"]) =
      some { reference := some ["$defs", "Rule"] } := by
  decide +kernel

/-- What the schemas of the document admit. -/
def admitted (k : Nat) (way : List String) (v : Json) : Bool :=
  profileLibrary.admits k (profileLibrary.schemaAt way) v

theorem admitted_succ {way : List String} {o : Outline}
    (h : profileLibrary.outline? (profileLibrary.schemaAt way) = some o) (k : Nat) (v : Json) :
    admitted (k + 1) way v = o.fits (admitted k) v :=
  Library.fits_outline h _ v

theorem admitted_name {s : String} (hs : s ≠ "") (k : Nat) :
    admitted (k + 1) ["properties", "name"] (.string s) = true := by
  have hlength : Text.decode (Text.bytesOf s) ≠ [] := by
    intro hnil
    have htext := Text.textOf_bytesOf s
    rw [Text.textOf, hnil] at htext
    exact hs htext.symm
  have hpos : 1 ≤ (Text.decode (Text.bytesOf s)).length := List.length_pos_iff.mpr hlength
  obtain ⟨-, -, -, -, -, -, houtline, -⟩ := evaluated_profileLibrary
  rw [admitted_succ houtline]
  simp [Outline.fits, Outline.partsFit, typeName?, runes?]
  omega

theorem admitted_rules (k : Nat) (v : Json) :
    admitted (k + 1) ["properties", "rules"] (.array [v]) =
      admitted k ["properties", "rules", "items"] v := by
  obtain ⟨-, -, -, -, -, -, -, houtline, -⟩ := evaluated_profileLibrary
  rw [admitted_succ houtline]
  simp [Outline.fits, Outline.partsFit, typeName?]

theorem admitted_items (k : Nat) (v : Json) :
    admitted (k + 2) ["properties", "rules", "items"] v = admitted (k + 1) ["$defs", "Rule"] v := by
  obtain ⟨-, -, -, -, -, -, -, -, houtline⟩ := evaluated_profileLibrary
  rw [admitted_succ houtline]
  cases htype : typeName? v with
  | none =>
      have hfault : (profileLibrary.start (profileLibrary.schemaAt ["$defs", "Rule"])
          v).firstFault? = some (.unknownKind (strangeName v)) := by
        simp [Context.firstFault?, Library.start, htype]
      simp [Outline.fits, htype, admitted, Library.admits, Context.fits, hfault]
  | some got =>
      have hparts : Outline.partsFit { reference := some ["$defs", "Rule"] } (admitted (k + 1))
          v = true := by
        cases v <;> simp [Outline.partsFit, Outline.fieldFits, Context.absent, runes?]
      simp [Outline.fits, htype, hparts]

/-- The first alternative asks for a name and for nothing else. -/
theorem admitted_alternative {fields : List (String × Json)} (h : ∃ v, ("name", v) ∈ fields)
    (k : Nat) : admitted (k + 1) ["anyOf", "0"] (.object fields) = true := by
  obtain ⟨-, -, -, -, -, houtline, -⟩ := evaluated_profileLibrary
  rw [admitted_succ houtline]
  simp [Outline.fits, Outline.partsFit, Outline.fieldFits, Context.absent, typeName?, h]

theorem admitted_profile {fields : List (String × Json)} {name rules : Json}
    (hfields : fields.Perm [("name", name), ("rules", rules)]) (k : Nat) :
    admitted (k + 2) [] (.object fields) =
      (admitted (k + 1) ["properties", "name"] name &&
        admitted (k + 1) ["properties", "rules"] rules) := by
  have hname : ∃ v, ("name", v) ∈ fields := ⟨name, hfields.mem_iff.mpr (by simp)⟩
  have hrules : ∃ v, ("rules", v) ∈ fields := ⟨rules, hfields.mem_iff.mpr (by simp)⟩
  obtain ⟨-, -, -, -, houtline, -⟩ := evaluated_profileLibrary
  rw [admitted_succ houtline]
  simp [Outline.fits, Outline.partsFit, Context.absent, typeName?, hrules, hfields.all_eq,
    admitted_alternative hname, Outline.fieldFits]

end RuleScan.Schema

namespace RuleScan.Profile

open RuleScan.Schema

theorem validator_iff (v : Json) : validator.validate v = .ok () ↔ admitted 10 [] v = true := by
  obtain ⟨hwhole, hresolve, hunfolds, -⟩ := evaluated_profileLibrary
  have hvalidator : validator = ⟨profileLibrary, profileLibrary.schemaAt []⟩ :=
    validator_of hresolve.1
  rw [hvalidator]
  exact Validator.validate_iff hwhole hunfolds.1 (by omega)

theorem ruleValidator_iff (v : Json) :
    ruleValidator.validate v = .ok () ↔ admitted 7 ["$defs", "Rule"] v = true := by
  obtain ⟨hwhole, hresolve, hunfolds, -⟩ := evaluated_profileLibrary
  have hvalidator : ruleValidator = ⟨profileLibrary, profileLibrary.schemaAt ["$defs", "Rule"]⟩ :=
    validator_of hresolve.2
  rw [hvalidator]
  exact Validator.validate_iff hwhole hunfolds.2 (by omega)

/-- **A profile with a name and one rule fits its schema exactly if the rule fits the schema of
rules.** -/
theorem validate_iff_ruleValidator {fields : List (String × Json)} {name : String} {v : Json}
    (hfields : fields.Perm [("name", .string name), ("rules", .array [v])]) (hname : name ≠ "") :
    validator.validate (.object fields) = .ok () ↔ ruleValidator.validate v = .ok () := by
  have hadmitted : admitted 10 [] (.object fields) = admitted 7 ["$defs", "Rule"] v := by
    rw [admitted_profile hfields, admitted_name hname, admitted_rules, admitted_items,
      Bool.true_and]
  rw [validator_iff, ruleValidator_iff, hadmitted]

end RuleScan.Profile
