import Mathlib.Data.List.Sort
import RuleScan.Profile.Document
import RuleScan.Proofs.Text.Order

/-!
# What values are read as

A record is read from a document; what it is read as can be told from the value of the document
alone, field by field (`Rule.ofValue?`, `Profile.ofValue?`).  The order of the fields does not count
(`Json.Unordered`): sorting keeps the order of fields with the same name, and of those the first
one counts.
-/

namespace RuleScan

/-! ## Records -/

namespace Json

variable {α β : Type}

/-- Null is the default. -/
def orDefault (default : α) (decode : Json → Option α) : Json → Option α
  | .null => some default
  | v => decode v

theorem orDefault_of_ne_null {default : α} {decode : Json → Option α} {v : Json}
    (h : v ≠ .null) : v.orDefault default decode = decode v := by
  cases v with
  | null => exact absurd rfl h
  | _ => rfl

/-- A text; numbers and booleans are taken as they are written in general text. -/
def asText? : Json → Option String
  | .string s => some s
  | .binary b => some (Text.textOf b)
  | .null => some ""
  | .bool b => some (if b then "true" else "false")
  | .int k => some (toString k)
  | .float x => some (Yaml.floatText x)
  | _ => none

/-- A list. -/
def asList? (null : α) (decode : Json → Option α) : Json → Option (List α)
  | .array elements => elements.mapM (orDefault null decode)
  | _ => none

/-- A field of a record, which only objects are read as. -/
def fieldOr? (key : String) (default : α) (decode : Json → Option α) : Json → Option α
  | .object fields =>
    match fields.find? (·.1 = key) with
    | none => some default
    | some (_, v) => orDefault default decode v
  | _ => none

/-- A field that is there and not null. -/
def present? (key : String) (decode : Json → Option α) : Json → Option (Option α) :=
  fieldOr? key none fun v => (decode v).map some

/-- A list of texts. -/
def asTexts? : Json → Option (List String) := asList? "" asText?

end Json

/-- What a value is read as in the place of a pattern. -/
def Pattern.ofValue? (v : Json) : Option Pattern := do
  let kind ← v.fieldOr? "kind" "" Json.asText?
  let value ← v.fieldOr? "value" "" Json.asText?
  let flags ← v.fieldOr? "flags" "" Json.asText?
  return ⟨.ofName kind, value, flags⟩

/-- What a value is read as in the place of the patterns of a rule, in either dialect. -/
def PatternSpec.ofValue? (v : Json) : Option PatternSpec := do
  let patterns := Json.asList? Pattern.none Pattern.ofValue?
  let anyOf ← v.present? "anyOf" patterns
  let allOf ← v.present? "allOf" patterns
  let identifiers ← v.present? "identifiers" Json.asTexts?
  let expressions ← v.present? "expressions" Json.asTexts?
  let sqlTables ← v.present? "sql_tables" Json.asTexts?
  let apiRoutes ← v.present? "api_routes" Json.asTexts?
  let document : PatternDocument :=
    { anyOf, allOf, identifiers, expressions, sqlTables, apiRoutes }
  return PatternSource.normalize (some document.source)

/-- What a value is read as in the place of a scope. -/
def Scope.ofValue? (v : Json) : Option Scope := do
  let includes ← v.present? "include" Json.asTexts?
  let excludes ← v.present? "exclude" Json.asTexts?
  let condition ← v.fieldOr? "when" "" Json.asText?
  return { includes, excludes, condition }

/-- What a value is read as in the place of a rule. -/
def Rule.ofValue? (v : Json) : Option Rule := do
  let spec ← v.fieldOr? "match" {} PatternSpec.ofValue?
  let expect ← v.present? "expect" PatternSpec.ofValue?
  let scope ← v.present? "scope" Scope.ofValue?
  let id ← v.fieldOr? "id" "" Json.asText?
  let description ← v.fieldOr? "description" "" Json.asText?
  let severity ← v.fieldOr? "severity" "" Json.asText?
  let category ← v.fieldOr? "category" "" Json.asText?
  let guidance ← v.fieldOr? "guidance" "" Json.asText?
  let cwe ← v.fieldOr? "cwe" "" Json.asText?
  let references ← v.present? "references" Json.asTexts?
  return ⟨spec, expect, scope, id, description, .ofName severity, category, guidance, cwe,
    references⟩

/-- The metadata of a profile, with keys that are texts. -/
def Profile.metadataOf? : Json → Option (List (String × Json))
  | .object fields => some fields
  | _ => none

/-- What a value is read as in the place of a profile. -/
def Profile.ofValue? (v : Json) : Option Profile := do
  let metadata ← v.fieldOr? "metadata" [] metadataOf?
  let name ← v.fieldOr? "name" "" Json.asText?
  let older ← v.fieldOr? "refactor_name" "" Json.asText?
  let description ← v.fieldOr? "description" "" Json.asText?
  let version ← v.fieldOr? "version" "" Json.asText?
  let rules ← v.fieldOr? "rules" [] (Json.asList? default Rule.ofValue?)
  return { metadata, name := if name = "" then older else name, description, version, rules }

/-! ## The order of fields does not count -/

namespace Yaml

theorem sortedAll_eq (vs : List Json) : sortedAll vs = vs.map sorted := by
  induction vs with
  | nil => rfl
  | cons v rest ih => exact congrArg (sorted v :: ·) ih

theorem sortedFields_eq (fields : List (String × Json)) :
    sortedFields fields = fields.map fun f => (f.1, sorted f.2) := by
  induction fields with
  | nil => rfl
  | cons f rest ih => exact congrArg ((f.1, sorted f.2) :: ·) ih

theorem sorted_array (elements : List Json) :
    sorted (.array elements) = .array (elements.map sorted) :=
  congrArg Json.array (sortedAll_eq elements)

theorem sorted_object (fields : List (String × Json)) :
    sorted (.object fields) =
      .object ((fields.map fun f => (f.1, sorted f.2)).mergeSort fun a b => a.1 ≤ b.1) :=
  congrArg (fun fs : List (String × Json) => Json.object (fs.mergeSort fun a b => a.1 ≤ b.1))
    (sortedFields_eq fields)

end Yaml

/-- Sorting by keys keeps the order of what has the same key. -/
theorem filter_mergeSort_key {β : Type} (l : List (String × β)) (key : String) :
    (l.mergeSort fun a b => a.1 ≤ b.1).filter (·.1 = key) = l.filter (·.1 = key) := by
  have hkeys : (l.filter (·.1 = key)).Pairwise fun a b => a.1 ≤ b.1 := by
    refine List.pairwise_of_forall_mem_list fun a ha b hb => ?_
    have hkeys : a.1 = b.1 := (of_decide_eq_true (List.mem_filter.mp ha).2).trans
      (of_decide_eq_true (List.mem_filter.mp hb).2).symm
    exact hkeys ▸ String.le_refl a.1
  -- What has the key is a sorted part of the list, and such a part is kept as it stands.
  have hsub := (Text.sublist_sorted hkeys List.filter_sublist).filter (·.1 = key)
  simp only [List.filter_filter, Bool.and_self] at hsub
  exact (hsub.eq_of_length (((List.mergeSort_perm l _).filter _).length_eq.symm)).symm

namespace Json

variable {α β : Type}

/-- The order of fields does not count for what values are read as. -/
def Unordered (decode : Json → Option α) : Prop := ∀ v, decode (Yaml.sorted v) = decode v

theorem unordered_pure (x : Option α) : Unordered fun _ => x := fun _ => rfl

theorem Unordered.bind {x : Json → Option α} {f : α → Json → Option β} (hx : Unordered x)
    (hf : ∀ a, Unordered (f a)) : Unordered fun v => x v >>= fun a => f a v := by
  intro v
  have hsame : (fun a => f a (Yaml.sorted v)) = fun a => f a v := funext fun a => hf a v
  dsimp only
  rw [hx v, hsame]

theorem unordered_asText? : Unordered asText? := by
  intro v
  cases v <;> rfl

theorem Unordered.orDefault {decode : Json → Option α} (h : Unordered decode) (default : α) :
    Unordered (orDefault default decode) := by
  intro v
  cases v with
  | array elements => exact h (.array elements)
  | object fields => exact h (.object fields)
  | _ => rfl

theorem Unordered.asList? {decode : Json → Option α} (h : Unordered decode) (null : α) :
    Unordered (asList? null decode) := by
  intro v
  cases v with
  | array elements =>
      have hsame : Json.orDefault null decode ∘ Yaml.sorted = Json.orDefault null decode :=
        funext (h.orDefault null)
      rw [Yaml.sorted_array, Json.asList?, Json.asList?, List.mapM_map, hsame]
  | _ => rfl

theorem find?_sorted (fields : List (String × Json)) (key : String) :
    ((fields.map fun f => (f.1, Yaml.sorted f.2)).mergeSort fun a b => a.1 ≤ b.1).find?
        (·.1 = key) =
      (fields.find? (·.1 = key)).map fun f => (f.1, Yaml.sorted f.2) := by
  rw [← List.head?_filter, filter_mergeSort_key, List.head?_filter, List.find?_map]
  rfl

/-- What is read from a field is read from the first one of its name. -/
theorem fieldOr?_object (key : String) (default : α) (decode : Json → Option α)
    (fields : List (String × Json)) :
    fieldOr? key default decode (.object fields) =
      (fields.find? (·.1 = key)).elim (some default) fun f => Json.orDefault default decode f.2 := by
  rw [fieldOr?]
  cases fields.find? (·.1 = key) with
  | none => rfl
  | some f => rfl

theorem Unordered.fieldOr? {decode : Json → Option α} (h : Unordered decode) (key : String)
    (default : α) : Unordered (fieldOr? key default decode) := by
  intro v
  cases v with
  | object fields =>
      -- The field that counts is the first of its name, before and after sorting.
      rw [Yaml.sorted_object, fieldOr?_object, fieldOr?_object, find?_sorted]
      cases fields.find? (·.1 = key) with
      | none => rfl
      | some f => exact h.orDefault default f.2
  | _ => rfl

theorem Unordered.present? {decode : Json → Option α} (h : Unordered decode) (key : String) :
    Unordered (present? key decode) :=
  Unordered.fieldOr? (fun v => congrArg (Option.map some) (h v)) key none

theorem unordered_asTexts? : Unordered asTexts? := unordered_asText?.asList? ""

end Json

open Json (Unordered unordered_pure unordered_asText? unordered_asTexts?)

theorem Pattern.unordered_ofValue? : Unordered Pattern.ofValue? := by
  iterate 3 refine (unordered_asText?.fieldOr? _ _).bind fun _ => ?_
  exact unordered_pure _

theorem PatternSpec.unordered_ofValue? : Unordered PatternSpec.ofValue? := by
  have hpatterns := Pattern.unordered_ofValue?.asList? Pattern.none
  iterate 2 refine (hpatterns.present? _).bind fun _ => ?_
  iterate 4 refine (unordered_asTexts?.present? _).bind fun _ => ?_
  exact unordered_pure _

theorem Scope.unordered_ofValue? : Unordered Scope.ofValue? := by
  iterate 2 refine (unordered_asTexts?.present? _).bind fun _ => ?_
  refine (unordered_asText?.fieldOr? _ _).bind fun _ => ?_
  exact unordered_pure _

theorem Rule.unordered_ofValue? : Unordered Rule.ofValue? := by
  refine (PatternSpec.unordered_ofValue?.fieldOr? _ _).bind fun _ => ?_
  refine (PatternSpec.unordered_ofValue?.present? _).bind fun _ => ?_
  refine (Scope.unordered_ofValue?.present? _).bind fun _ => ?_
  iterate 6 refine (unordered_asText?.fieldOr? _ _).bind fun _ => ?_
  refine (unordered_asTexts?.present? _).bind fun _ => ?_
  exact unordered_pure _

/-! ## Comparison -/

namespace Json

mutual

/-- Whether two values are alike, field by field; only values without numbers that have a fraction
are. -/
def alike : Json → Json → Bool
  | .null, .null => true
  | .bool a, .bool b => a == b
  | .int a, .int b => a == b
  | .string a, .string b => a == b
  | .array a, .array b => alikeAll a b
  | .object a, .object b => alikeFields a b
  | _, _ => false

/-- Whether two lists hold values that are alike. -/
def alikeAll : List Json → List Json → Bool
  | [], [] => true
  | a :: as, b :: bs => alike a b && alikeAll as bs
  | _, _ => false

/-- Whether two objects have the same names and values that are alike, in the same order. -/
def alikeFields : List (String × Json) → List (String × Json) → Bool
  | [], [] => true
  | (name, a) :: as, (name', b) :: bs => name == name' && alike a b && alikeFields as bs
  | _, _ => false

end

mutual

theorem eq_of_alike {a b : Json} (h : alike a b = true) : a = b := by
  cases a <;> cases b <;> simp only [alike, beq_iff_eq, Bool.false_eq_true] at h ⊢
  case bool.bool => rw [h]
  case int.int => rw [h]
  case string.string => rw [h]
  case array.array => rw [eq_of_alikeAll h]
  case object.object => rw [eq_of_alikeFields h]

theorem eq_of_alikeAll {as bs : List Json} (h : alikeAll as bs = true) : as = bs := by
  cases as <;> cases bs <;> simp only [alikeAll, Bool.and_eq_true, Bool.false_eq_true] at h ⊢
  case cons.cons => rw [eq_of_alike h.1, eq_of_alikeAll h.2]

theorem eq_of_alikeFields {as bs : List (String × Json)} (h : alikeFields as bs = true) :
    as = bs := by
  cases as <;> cases bs <;>
    simp only [alikeFields, Bool.and_eq_true, beq_iff_eq, Bool.false_eq_true] at h ⊢
  case cons.cons =>
    obtain ⟨⟨hname, hvalue⟩, hrest⟩ := h
    rw [eq_of_alikeFields hrest, Prod.ext hname (eq_of_alike hvalue)]

end

end Json

end RuleScan
