import RuleScan.Proofs.Schema.Plain

/-!
# Outlines of schemas

What a plain schema says, with the other schemas of its document given by the ways to them.  An
outline is data that can be compared, so what is written at some place of a document can be found
out by evaluation; what the schema admits is then read off the outline (`Library.fits_outline`).
Choices and patterns are left out: a schema with one of these has no outline.
-/

namespace RuleScan.Schema

/-- What a schema says. -/
structure Outline where
  type : Option String := none
  minLength : Option Int := none
  minItems : Option Int := none
  required : List String := []
  isOpen : Bool := true
  named : List (String × List String) := []
  items : Option (List String) := none
  reference : Option (List String) := none
  alternatives : List (List String) := []
  deriving DecidableEq

namespace Outline

/-- Whether a field fits, given what the other schemas of the document admit. -/
def fieldFits (o : Outline) (admits : List String → Json → Bool) (f : String × Json) : Bool :=
  match o.named.find? (·.1 = f.1) with
  | some (_, way) => admits way f.2
  | none => o.isOpen

/-- Whether the parts of a value fit. -/
def partsFit (o : Outline) (admits : List String → Json → Bool) : Json → Bool
  | .object fields =>
    (Context.absent fields o.required).isEmpty && fields.all (o.fieldFits admits)
  | .array elements =>
    o.minItems.all (· ≤ (elements.length : Int)) &&
      o.items.all fun way => elements.all (admits way)
  | v => (runes? v).all fun runes => o.minLength.all (· ≤ (runes.length : Int))

/-- Whether a value fits. -/
def fits (o : Outline) (admits : List String → Json → Bool) (v : Json) : Bool :=
  (typeName? v).any (fun got => o.type.all (· = got)) && o.reference.all (admits · v) &&
    o.partsFit admits v && (o.alternatives.isEmpty || o.alternatives.any (admits · v))

end Outline

namespace Library

variable (lib : Library)

/-- The schema that a way into the document leads to. -/
def schemaAt (way : List String) : Node :=
  (lib.node? ⟨lib.sheet.address, way⟩).getD default

/-- The outline of a schema. -/
def outline? (n : Node) : Option Outline :=
  if n.isPlain && n.place.address = lib.sheet.address && (n.get? "enum").isNone &&
      (n.get? "pattern").isNone &&
      ((n.get? "type").isNone || (n.text? "type").any (· ≠ "integer")) then
    some {
      type := n.text? "type"
      minLength := (lib.start n .null).whole? "minLength"
      minItems := (lib.start n .null).whole? "minItems"
      required := n.texts "required"
      isOpen := n.isOpen
      named := (n.named lib "properties").map fun f => (f.1, f.2.place.pointer)
      items := (n.child? lib "items").map (·.place.pointer)
      reference := (n.referred? lib).map (·.place.pointer)
      alternatives := (n.children lib "anyOf").map (·.place.pointer) }
  else none

end Library

/-! ## Schemas are known by their places -/

section Places

variable {lib : Library}

theorem Library.place_of_node? {p : Place} {n : Node} (h : lib.node? p = some n) :
    n.place = p := by
  rw [node?] at h
  obtain ⟨s, -, h⟩ := Option.bind_eq_some_iff.mp h
  obtain ⟨v, -, h⟩ := Option.bind_eq_some_iff.mp h
  cases h
  rfl

/-- A schema of the document is the one at its place. -/
theorem Library.schemaAt_place {p : Place} {n : Node} (h : lib.node? p = some n)
    (hp : p.address = lib.sheet.address) : lib.schemaAt n.place.pointer = n := by
  rw [place_of_node? h, schemaAt, ← hp, h]
  rfl

variable {n m : Node} {keyword : String} (haddress : n.place.address = lib.sheet.address)

include haddress

theorem schemaAt_of_child? (h : n.child? lib keyword = some m) :
    lib.schemaAt m.place.pointer = m := by
  obtain ⟨v, -, hm⟩ := Option.bind_eq_some_iff.mp h
  exact Library.schemaAt_place hm haddress

theorem schemaAt_of_mem_children (h : m ∈ n.children lib keyword) :
    lib.schemaAt m.place.pointer = m := by
  rw [Node.children] at h
  split at h
  · obtain ⟨i, -, hm⟩ := List.mem_filterMap.mp h
    exact Library.schemaAt_place hm haddress
  · cases h

theorem schemaAt_of_mem_named {name : String} (h : (name, m) ∈ n.named lib keyword) :
    lib.schemaAt m.place.pointer = m := by
  rw [Node.named] at h
  split at h
  · obtain ⟨f, -, hf⟩ := List.mem_filterMap.mp h
    obtain ⟨m', hm, hf⟩ := Option.map_eq_some_iff.mp hf
    cases hf
    exact Library.schemaAt_place hm haddress
  · cases h

omit haddress in
theorem schemaAt_of_referred? (h : n.referred? lib = some m) :
    lib.schemaAt m.place.pointer = m := by
  obtain ⟨r, -, h⟩ := Option.bind_eq_some_iff.mp h
  obtain ⟨f, -, hm⟩ := Option.bind_eq_some_iff.mp h
  exact Library.schemaAt_place hm rfl

end Places

/-! ## Fitting -/

namespace Context

variable {c : Context}

theorem isNone_firstFault? (hplain : c.node.Plain) (henum : c.node.get? "enum" = none)
    (htype : c.node.get? "type" = none ∨ ∃ t ≠ "integer", c.node.get? "type" = some (.string t)) :
    c.firstFault?.isNone =
      (typeName? c.value).any fun got => (c.node.text? "type").all (· = got) := by
  have hconst : c.node.get? "const" = none := hplain.get?_eq_none (by decide)
  have hage : ¬c.node.draft.age < 2019 := by simp [hplain.draft, Draft.age]
  simp only [firstFault?, hconst, henum, if_neg hage]
  cases typeName? c.value with
  | none => rfl
  | some got =>
      rcases htype with htype | ⟨t, ht, htype⟩
      · simp [Node.text?, htype]
      · by_cases h : got = t
        · simp [Node.text?, htype, h]
        · simp [Node.text?, htype, h, ht.symm, Ne.symm h]

theorem sizeFits_of_plain (hplain : c.node.Plain) (word : String)
    (hword : "max" ++ word ∉ plainKeywords) (n : Nat) :
    c.sizeFits word n = (c.whole? ("min" ++ word)).all fun k => k ≤ (n : Int) := by
  have hmax : c.whole? ("max" ++ word) = none := by simp [whole?, hplain.get?_eq_none hword]
  simp [sizeFits, hmax]

end Context

namespace Library

variable {lib : Library} {n : Node} {o : Outline}

/-- What is known of a schema with an outline. -/
theorem outline?_inv (h : lib.outline? n = some o) : n.Plain ∧
    n.place.address = lib.sheet.address ∧ n.get? "enum" = none ∧ n.get? "pattern" = none ∧
    (n.get? "type" = none ∨ ∃ t ≠ "integer", n.get? "type" = some (.string t)) := by
  rw [outline?] at h
  split at h
  · next hn =>
      simp only [Bool.and_eq_true, Bool.or_eq_true, decide_eq_true_eq, Option.isNone_iff_eq_none]
        at hn
      obtain ⟨⟨⟨⟨hplain, haddress⟩, henum⟩, hpattern⟩, htype⟩ := hn
      refine ⟨Node.plain_of_isPlain hplain, haddress, henum, hpattern, htype.imp_right ?_⟩
      intro h
      rw [Node.text?] at h
      split at h
      · next t ht => exact ⟨t, by simpa using h, ht⟩
      · cases h
  · cases h

theorem outline?_eq (h : lib.outline? n = some o) : o = {
    type := n.text? "type"
    minLength := (lib.start n .null).whole? "minLength"
    minItems := (lib.start n .null).whole? "minItems"
    required := n.texts "required"
    isOpen := n.isOpen
    named := (n.named lib "properties").map fun f => (f.1, f.2.place.pointer)
    items := (n.child? lib "items").map (·.place.pointer)
    reference := (n.referred? lib).map (·.place.pointer)
    alternatives := (n.children lib "anyOf").map (·.place.pointer) } := by
  rw [outline?] at h
  split at h
  · exact (Option.some_inj.mp h).symm
  · cases h

variable (h : lib.outline? n = some o) (admits : Node → Json → Bool)

include h

theorem referred_fits (v : Json) : (n.referred? lib).all (fun m => admits m v) =
    o.reference.all fun way => admits (lib.schemaAt way) v := by
  rw [outline?_eq h]
  cases hm : n.referred? lib with
  | none => rfl
  | some m => simp [schemaAt_of_referred? hm]

theorem alternative_fits (v : Json) :
    ((n.children lib "anyOf").isEmpty || (n.children lib "anyOf").any fun m => admits m v) =
      (o.alternatives.isEmpty || o.alternatives.any fun way => admits (lib.schemaAt way) v) := by
  obtain ⟨-, haddress, -⟩ := outline?_inv h
  have hschemas : o.alternatives.map lib.schemaAt = n.children lib "anyOf" := by
    rw [outline?_eq h, List.map_map]
    exact (List.map_congr_left fun m hm => schemaAt_of_mem_children haddress hm).trans
      (List.map_id' _)
  rw [← hschemas, List.isEmpty_map, List.any_map]
  rfl

theorem field_fits (v : Json) (f : String × Json) : (lib.start n v).fieldFits admits f =
    o.fieldFits (fun way => admits (lib.schemaAt way)) f := by
  obtain ⟨-, haddress, -⟩ := outline?_inv h
  have hfind : o.named.find? (·.1 = f.1) = ((n.named lib "properties").find? (·.1 = f.1)).map
      fun f => (f.1, f.2.place.pointer) := by
    rw [outline?_eq h, List.find?_map]
    rfl
  rw [Context.fieldFits, Outline.fieldFits, hfind]
  dsimp only [start]
  cases hm : (n.named lib "properties").find? (·.1 = f.1) with
  | none => rw [Option.map_none, outline?_eq h]
  | some entry =>
      obtain ⟨name, m⟩ := entry
      simp [schemaAt_of_mem_named haddress (List.mem_of_find?_eq_some hm)]

theorem item_fits (elements : List Json) :
    (n.child? lib "items").all (fun m => elements.all (admits m)) =
      o.items.all fun way => elements.all (admits (lib.schemaAt way)) := by
  obtain ⟨-, haddress, -⟩ := outline?_inv h
  rw [outline?_eq h]
  cases hm : n.child? lib "items" with
  | none => rfl
  | some m => simp [schemaAt_of_child? haddress hm]

theorem text_fits (v : Json) (runes : List Text.Rune) :
    ((lib.start n v).sizeFits "Length" runes.length &&
      (n.text? "pattern").all fun pattern => patternMatches pattern runes) =
        o.minLength.all (· ≤ (runes.length : Int)) := by
  obtain ⟨hplain, -, -, hpattern, -⟩ := outline?_inv h
  have hnone : n.text? "pattern" = none := by simp [Node.text?, hpattern]
  rw [Context.sizeFits_of_plain hplain "Length" (by decide), hnone, outline?_eq h, Option.all_none,
    Bool.and_true]
  rfl

theorem parts_fit (v : Json) : (lib.start n v).partsFit admits =
    o.partsFit (fun way => admits (lib.schemaAt way)) v := by
  obtain ⟨hplain, -⟩ := outline?_inv h
  cases v with
  | object fields =>
      have hsize : (lib.start n (.object fields)).sizeFits "Properties" fields.length = true := by
        have hmin : n.get? "minProperties" = none := hplain.get?_eq_none (by decide)
        rw [Context.sizeFits_of_plain hplain "Properties" (by decide)]
        simp [Context.whole?, start, hmin]
      have hfields : (lib.start n (.object fields)).fieldFits admits =
          o.fieldFits fun way => admits (lib.schemaAt way) :=
        funext (field_fits h admits (.object fields))
      have hrequired : o.required = n.texts "required" := by rw [outline?_eq h]
      rw [Outline.partsFit, ← hfields, hrequired, ← Bool.true_and (List.isEmpty _), ← hsize]
      rfl
  | array elements =>
      have hsize : (lib.start n (.array elements)).sizeFits "Items" elements.length =
          o.minItems.all (· ≤ (elements.length : Int)) := by
        rw [Context.sizeFits_of_plain hplain "Items" (by decide), outline?_eq h]
        rfl
      rw [Outline.partsFit, ← hsize, ← item_fits h admits]
      rfl
  | string s => exact text_fits h (.string s) _
  | bytes b => exact text_fits h (.bytes b) _
  | _ => rfl

/-- **What a schema of a document admits can be read off its outline.** -/
theorem fits_outline (v : Json) :
    (lib.start n v).fits admits = o.fits (fun way => admits (lib.schemaAt way)) v := by
  obtain ⟨hplain, -, henum, -, htype⟩ := outline?_inv h
  have hfault : (lib.start n v).firstFault?.isNone =
      (typeName? v).any fun got => o.type.all (· = got) := by
    rw [outline?_eq h]
    exact Context.isNone_firstFault? (c := lib.start n v) hplain henum htype
  rw [Outline.fits, ← hfault, ← referred_fits h admits, ← parts_fit h admits,
    ← alternative_fits h admits]
  rfl

end Library

end RuleScan.Schema
