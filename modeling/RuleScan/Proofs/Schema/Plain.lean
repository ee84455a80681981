import Mathlib.Data.List.Basic
import RuleScan.Schema.Validate

/-!
# Plain schemas

Most keywords of the schema language are never written.  A schema is plain if it keeps to the ones
that describe records: types, required and named fields, elements, sizes, choices and patterns,
references, and `anyOf`.  What a plain schema admits can be said without a word on how the check got
there (`Library.admits`).  If the plain schemas that can be reached from a schema do not come back
to it, this is what the check finds, on any way and with any fuel that suffices (`check_isOk`), and
so it is what a validator finds (`Validator.validate_iff`).
-/

namespace RuleScan.Schema

/-! ## References -/

namespace Library

/-- The definitions in the document. -/
def definitions (lib : Library) : List (String × Json) :=
  ((lib.sheet.value.field? "$defs").map Json.fields).getD []

/-- The definition that a reference names. -/
def definition? (lib : Library) (reference : String) : Option Node :=
  (lib.definitions.find? fun f => reference = "#/$defs/" ++ f.1).bind fun f =>
    lib.node? ⟨lib.sheet.address, ["$defs", f.1]⟩

/-- Whether the document is one resource, which has an address of its own, and the names of its
definitions can be written as they are. -/
def isWhole (lib : Library) : Bool :=
  (match lib.sheet.resources with
    | [r] =>
      r.pointer.isEmpty && r.address ≠ lib.sheet.address &&
        (Address.join? r.address "#").map (·.1) = some r.address
    | _ => false) &&
  lib.definitions.all fun f =>
    Address.decoded? ("/$defs/" ++ f.1) = some ("/$defs/" ++ f.1) &&
      steps? ("/$defs/" ++ f.1) = some ["$defs", f.1]

end Library

/-- A fragment does not change the address that it is joined to. -/
theorem join?_fragment {base a : String} (h : (Address.join? base "#").map (·.1) = some a)
    (way : String) :
    Address.join? base ("#" ++ way) = (Address.decoded? way).map fun fragment => (a, fragment) := by
  have hcut : Address.cutFragment ("#" ++ way) = ("", way) := by simp [Address.cutFragment]
  have hcut₀ : Address.cutFragment "#" = ("", "") := by decide
  have hdecoded : Address.decoded? "" = some "" := by decide +kernel
  rw [Address.join?, hcut]
  rw [Address.join?, hcut₀] at h
  dsimp only at h ⊢
  rw [hdecoded] at h
  cases Address.decoded? way with
  | none => rfl
  | some fragment =>
      dsimp only [Option.bind_eq_bind, Option.bind_some] at h ⊢
      split at h
      · rw [Option.map_some, Option.some_inj] at h
        simp only [Option.map_some, ← h]
      · cases h

theorem Sheet.home_of_single {s : Sheet} {r : Resource} (h : s.resources = [r])
    (hr : r.pointer = []) (pointer : List String) : s.home pointer = r := by
  simp [home, h, hr]

namespace Library

variable {lib : Library}

theorem isWhole_inv (h : lib.isWhole = true) :
    (∃ r, lib.sheet.resources = [r] ∧ r.pointer = [] ∧ r.address ≠ lib.sheet.address ∧
      (Address.join? r.address "#").map (·.1) = some r.address) ∧
    ∀ f ∈ lib.definitions, Address.decoded? ("/$defs/" ++ f.1) = some ("/$defs/" ++ f.1) ∧
      steps? ("/$defs/" ++ f.1) = some ["$defs", f.1] := by
  rw [isWhole, Bool.and_eq_true] at h
  obtain ⟨hsingle, hnames⟩ := h
  refine ⟨?_, fun f hf => by simpa using List.all_eq_true.mp hnames f hf⟩
  split at hsingle
  · next r hresources =>
      simp only [Bool.and_eq_true, decide_eq_true_eq, List.isEmpty_iff] at hsingle
      exact ⟨r, hresources, hsingle.1.1, hsingle.1.2, hsingle.2⟩
  · cases hsingle

/-- In a document that is one resource, the name of a definition leads to it from everywhere. -/
theorem reference?_of_definition? (hwhole : lib.isWhole = true) {p : Place}
    (hp : p.address = lib.sheet.address) {reference : String} {n : Node}
    (h : lib.definition? reference = some n) :
    (lib.reference? p reference).bind lib.node? = some n := by
  obtain ⟨⟨r, hresources, hpointer, hother, hjoin⟩, hnames⟩ := isWhole_inv hwhole
  obtain ⟨f, hf, hn⟩ := Option.bind_eq_some_iff.mp h
  obtain ⟨hdecoded, hsteps⟩ := hnames f (List.mem_of_find?_eq_some hf)
  have hreference : reference = "#" ++ ("/$defs/" ++ f.1) := by
    have := List.find?_some hf
    simpa [← String.append_assoc] using this
  have hsheet : lib.sheet? p.address = some lib.sheet := by simp [sheet?, hp]
  have hjoined : Address.join? r.address reference = some (r.address, "/$defs/" ++ f.1) := by
    rw [hreference, join?_fragment hjoin, hdecoded, Option.map_some]
  have hfound : lib.sheet.byAddress? r.address = some r := by simp [Sheet.byAddress?, hresources]
  have hplace : lib.sheet.inResource? ("/$defs/" ++ f.1) r =
      some ⟨lib.sheet.address, ["$defs", f.1]⟩ := by
    simp [Sheet.inResource?, hsteps, hpointer]
  have hplace : lib.reference? p reference = some ⟨lib.sheet.address, ["$defs", f.1]⟩ := by
    simp [reference?, hsheet, Sheet.home_of_single hresources hpointer, hjoined, hother, hfound,
      hplace]
  rw [hplace]
  exact hn

end Library

/-! ## Nodes -/

/-- The keywords of plain schemas, with those that say nothing about values. -/
def plainKeywords : List String :=
  ["title", "description", "type", "items", "$ref", "minLength", "properties",
    "additionalProperties", "required", "enum", "default", "deprecated", "pattern", "minItems",
    "anyOf", "$schema", "$id", "$defs"]

namespace Node

/-- The keywords that are written in a schema. -/
def keywords (n : Node) : List String := n.value.fields.map (·.1)

/-- Whether a schema keeps to the plain keywords. -/
def isPlain (n : Node) : Bool :=
  n.draft = .of2020 && n.keywords.all plainKeywords.contains &&
    (match n.value with
      | .object _ => true
      | _ => false) &&
    match n.get? "additionalProperties" with
    | none | some (.bool _) => true
    | _ => false

/-- The definition that a schema refers to. -/
def referred? (lib : Library) (n : Node) : Option Node := (n.text? "$ref").bind lib.definition?

/-- The schemas that a plain schema has for the same value. -/
def beside (lib : Library) (n : Node) : List Node :=
  (n.referred? lib).toList ++ n.children lib "anyOf"

/-- The schemas that a plain schema has for parts of the value. -/
def inside (lib : Library) (n : Node) : List Node :=
  (n.named lib "properties").map (·.2) ++ (n.child? lib "items").toList

/-- Whether a schema stands in the document and refers to definitions in it only. -/
def isLocal (lib : Library) (n : Node) : Bool :=
  n.place.address = lib.sheet.address && (n.text? "$ref").all fun r => (lib.definition? r).isSome

/-- Whether fields that have no schema may be there. -/
def isOpen (n : Node) : Bool :=
  match n.get? "additionalProperties" with
  | some (.bool false) => false
  | _ => true

/-- What is known of a plain schema. -/
structure Plain (n : Node) : Prop where
  draft : n.draft = .of2020
  keywords : ∀ keyword ∈ n.keywords, keyword ∈ plainKeywords
  object : ∃ fields, n.value = .object fields
  additional : ∀ v, n.get? "additionalProperties" = some v → ∃ b, v = .bool b

variable {n : Node}

theorem get?_of_not_mem {keyword : String} (h : keyword ∉ n.keywords) : n.get? keyword = none := by
  have hfield : n.value.field? keyword = none := by
    cases hv : n.value with
    | object fields =>
        rw [Json.field?, Option.map_eq_none_iff, List.find?_eq_none]
        intro f hf hname
        refine h ?_
        rw [keywords, hv]
        exact List.mem_map.mpr ⟨f, hf, of_decide_eq_true hname⟩
    | _ => rfl
  rw [get?, hfield]
  exact ite_self _

theorem plain_of_isPlain (h : n.isPlain = true) : n.Plain := by
  simp only [isPlain, Bool.and_eq_true, decide_eq_true_eq, List.all_eq_true,
    List.contains_iff_mem] at h
  obtain ⟨⟨⟨hdraft, hkeywords⟩, hobject⟩, hadditional⟩ := h
  refine ⟨hdraft, hkeywords, ?_, ?_⟩
  · split at hobject
    · next fields hvalue => exact ⟨fields, hvalue⟩
    · cases hobject
  · intro v hv
    rw [hv] at hadditional
    cases v with
    | bool b => exact ⟨b, rfl⟩
    | _ => cases hadditional

theorem target?_eq_referred? {lib : Library} (hwhole : lib.isWhole = true)
    (h : n.isLocal lib = true) : n.target? lib "$ref" = n.referred? lib := by
  simp only [isLocal, Bool.and_eq_true, decide_eq_true_eq] at h
  obtain ⟨haddress, hrefers⟩ := h
  rw [target?, referred?]
  cases hr : n.text? "$ref" with
  | none => rfl
  | some r =>
      rw [hr, Option.all_some] at hrefers
      obtain ⟨m, hm⟩ := Option.isSome_iff_exists.mp hrefers
      rw [Option.bind_some, Option.bind_some, hm]
      exact Library.reference?_of_definition? hwhole haddress hm

namespace Plain

/-- No other keyword is there. -/
theorem get?_eq_none (h : n.Plain) {keyword : String} (hk : keyword ∉ plainKeywords) :
    n.get? keyword = none :=
  get?_of_not_mem fun hmem => hk (h.keywords keyword hmem)

theorem isReference (h : n.Plain) : n.isReference = false := by
  simp [Node.isReference, h.draft, Draft.age]

theorem child?_eq_none (h : n.Plain) (lib : Library) {keyword : String}
    (hk : keyword ∉ plainKeywords) : n.child? lib keyword = none := by
  simp [child?, h.get?_eq_none hk]

theorem children_eq_nil (h : n.Plain) (lib : Library) {keyword : String}
    (hk : keyword ∉ plainKeywords) : n.children lib keyword = [] := by
  simp [children, h.get?_eq_none hk]

theorem named_eq_nil (h : n.Plain) (lib : Library) {keyword : String}
    (hk : keyword ∉ plainKeywords) : n.named lib keyword = [] := by
  simp [named, h.get?_eq_none hk]

theorem target?_eq_none (h : n.Plain) (lib : Library) {keyword : String}
    (hk : keyword ∉ plainKeywords) : n.target? lib keyword = none := by
  simp [target?, text?, h.get?_eq_none hk]

end Plain

end Node

/-! ## What a plain schema admits -/

namespace Context

/-- Whether a size keeps to its limits. -/
def sizeFits (c : Context) (word : String) (n : Nat) : Bool :=
  (c.whole? ("min" ++ word)).all (fun k => k ≤ (n : Int)) &&
    (c.whole? ("max" ++ word)).all (fun k => (n : Int) ≤ k)

/-- Whether a field fits the schema of its name, or else may be there without one. -/
def fieldFits (c : Context) (admits : Node → Json → Bool) (f : String × Json) : Bool :=
  match (c.node.named c.library "properties").find? (·.1 = f.1) with
  | some (_, n) => admits n f.2
  | none => c.node.isOpen

/-- Whether the parts of the value fit. -/
def partsFit (c : Context) (admits : Node → Json → Bool) : Bool :=
  match c.value with
  | .object fields =>
    c.sizeFits "Properties" fields.length &&
      (absent fields (c.node.texts "required")).isEmpty && fields.all (c.fieldFits admits)
  | .array elements =>
    c.sizeFits "Items" elements.length &&
      (c.node.child? c.library "items").all fun n => elements.all (admits n)
  | v =>
    (runes? v).all fun runes => c.sizeFits "Length" runes.length &&
      (c.node.text? "pattern").all fun pattern => patternMatches pattern runes

/-- Whether the value fits a plain schema, given what other schemas admit. -/
def fits (c : Context) (admits : Node → Json → Bool) : Bool :=
  c.firstFault?.isNone &&
    (c.node.referred? c.library).all (fun n => admits n c.value) &&
    c.partsFit admits &&
    ((c.node.children c.library "anyOf").isEmpty ||
      (c.node.children c.library "anyOf").any fun n => admits n c.value)

end Context

/-- A check before the first step. -/
def Library.start (lib : Library) (n : Node) (v : Json) : Context := ⟨lib, n, [], [], v⟩

/-- What a plain schema admits, if the schemas that it needs are followed `k` deep. -/
def Library.admits (lib : Library) : Nat → Node → Json → Bool
  | 0, _, _ => true
  | k + 1, n, v => (lib.start n v).fits (lib.admits k)

/-! ## Progress -/

/-- Whether there is no problem so far, where everything has been seen. -/
structure Progress.Says (p : Progress) (b : Bool) : Prop where
  found : p.found.isEmpty = b
  unseen : p.unseen = {}

namespace Progress.Says

variable {p : Progress} {a b : Bool}

theorem add (h : p.Says a) (v : Violation) : (p.add v).Says false :=
  ⟨by simp [Progress.add], h.unseen⟩

/-- A problem is added if something is not the case. -/
theorem addUnless (h : p.Says a) (v : Violation) : (if b then p else p.add v).Says (a && b) := by
  cases b with
  | true => simpa using h
  | false => simpa using h.add v

theorem isEmpty_unseen (h : p.Says a) : p.unseen.isEmpty = true := by
  rw [h.unseen]
  rfl

theorem merge (h : p.Says a) (u : Unseen) : { p with unseen := p.unseen.merge u } = p := by
  obtain ⟨found, unseen⟩ := p
  have : unseen = {} := h.unseen
  subst this
  rfl

theorem dropFields (h : p.Says a) (q : String → Bool) :
    { p with unseen := { p.unseen with fields := p.unseen.fields.filter q } } = p := by
  obtain ⟨found, unseen⟩ := p
  have : unseen = {} := h.unseen
  subst this
  rfl

end Progress.Says

namespace Context

open Progress (Says)

variable {c : Context} {judge : Judge} {admits : Node → Json → Bool} {p : Progress} {a : Bool}

/-! ## Steps -/

theorem also_eq (hp : p.Says a) (n : Node) (keyword : String) :
    c.also judge p n keyword = (judge (c.beside n keyword) false).map fun _ => p := by
  have hmerge : (fun u => { p with unseen := p.unseen.merge u }) = fun _ => p :=
    funext hp.merge
  rw [also, hp.isEmpty_unseen, hmerge]
  rfl

theorem says_addReferred (hp : p.Says a) {n : Node} {keyword : String} {b : Bool}
    (hn : (judge (c.beside n keyword) false).isOk = b) :
    (c.addReferred judge p n keyword).Says (a && b) := by
  subst hn
  rw [addReferred, also_eq hp]
  cases judge (c.beside n keyword) false with
  | ok u => simpa [Except.map, Except.isOk, Except.toBool] using hp
  | error vs => simpa [Except.map, Except.isOk, Except.toBool] using hp.add _

theorem says_addWithin (hp : p.Says a) {n : Node} {token : String} {v : Json} {b : Bool}
    (hn : (judge (c.within n token v) false).isOk = b) :
    (c.addWithin judge p n token v).Says (a && b) := by
  subst hn
  rw [addWithin, hp.isEmpty_unseen, Bool.not_true]
  cases judge (c.within n token v) false with
  | ok u => simpa [Except.isOk, Except.toBool] using hp
  | error vs => simpa [Except.isOk, Except.toBool] using hp.add _

/-- A limit, if there is one, is a step of its own. -/
theorem says_limit (hp : p.Says a) (limit : Option Int) (fails : Int → Bool)
    (problem : Int → Violation) :
    (match limit with
      | some k => if fails k then p.add (problem k) else p
      | none => p).Says (a && limit.all fun k => !fails k) := by
  cases limit with
  | none => simpa using hp
  | some k =>
      cases hk : fails k with
      | true => simpa [hk] using hp.add _
      | false => simpa [hk] using hp

theorem says_sizes (c : Context) (hp : p.Says a) (word : String) (n : Nat) :
    (c.sizes word n p).Says (a && c.sizeFits word n) := by
  have hmin := says_limit hp (c.whole? ("min" ++ word)) (fun k => (n : Int) < k)
    fun k => c.fault (.size ("min" ++ word) n k)
  have hmax := says_limit hmin (c.whole? ("max" ++ word)) (fun k => k < (n : Int))
    fun k => c.fault (.size ("max" ++ word) n k)
  simp only [← decide_not, Int.not_lt, Bool.and_assoc] at hmax
  exact hmax

theorem says_required (c : Context) (hp : p.Says a) (fields : List (String × Json)) :
    (c.required fields p).Says (a && (absent fields (c.node.texts "required")).isEmpty) := by
  rw [required]
  cases absent fields (c.node.texts "required") with
  | nil => simpa using hp
  | cons name names => simpa using hp.add _

/-- What is known after some fields: the problems found, and the names that may not be there. -/
def FieldsSay (acc : Progress × List String) (b : Bool) : Prop :=
  ∃ a, acc.1.Says a ∧ (a && acc.2.isEmpty) = b

section Parts

variable (hplain : c.node.Plain)
  (hinside : ∀ n ∈ c.node.inside c.library, ∀ token v,
    (judge (c.within n token v) false).isOk = admits n v)

include hplain hinside

theorem fieldsSay_field {acc : Progress × List String} {b : Bool} (hacc : FieldsSay acc b)
    (f : String × Json) :
    FieldsSay (c.field judge (c.node.named c.library "properties") [] acc f)
      (b && c.fieldFits admits f) := by
  obtain ⟨p, refused⟩ := acc
  obtain ⟨name, v⟩ := f
  obtain ⟨a, hp, rfl⟩ := hacc
  have hfitting : ((c.node.named c.library "properties").filter (·.1 = name)).take 1 =
      ((c.node.named c.library "properties").find? (·.1 = name)).toList := by
    rw [List.take_one, List.head?_filter]
  simp only [field, fieldFits, List.filter_nil, List.append_nil, hfitting]
  cases hfind : (c.node.named c.library "properties").find? (·.1 = name) with
  | some entry =>
      obtain ⟨key, n⟩ := entry
      have hn : n ∈ c.node.inside c.library :=
        List.mem_append_left _ (List.mem_map.mpr ⟨_, List.mem_of_find?_eq_some hfind, rfl⟩)
      have hp' := says_addWithin hp (hinside n hn name v)
      refine ⟨a && admits n v, ?_, by simp [Bool.and_right_comm]⟩
      simpa [hp'.dropFields] using hp'
  | none =>
      simp only [Option.toList_none, List.foldl_nil, List.isEmpty_nil, Bool.not_true, Node.isOpen]
      cases hadditional : c.node.get? "additionalProperties" with
      | none => exact ⟨a, hp, by simp⟩
      | some w =>
          obtain ⟨allowed, rfl⟩ := hplain.additional w hadditional
          refine ⟨a, ?_, ?_⟩
          · simpa [hp.dropFields] using hp
          · cases allowed <;> simp

theorem fieldsSay_foldl {acc : Progress × List String} {b : Bool} (hacc : FieldsSay acc b)
    (fields : List (String × Json)) :
    FieldsSay (fields.foldl (c.field judge (c.node.named c.library "properties") []) acc)
      (b && fields.all (c.fieldFits admits)) := by
  induction fields generalizing acc b with
  | nil => simpa using hacc
  | cons f rest ih =>
      rw [List.foldl_cons, List.all_cons, ← Bool.and_assoc]
      exact ih (fieldsSay_field hplain hinside hacc f)

theorem says_object (hp : p.Says a) (fields : List (String × Json)) :
    (c.object judge fields p).Says (a && (c.sizeFits "Properties" fields.length &&
      (absent fields (c.node.texts "required")).isEmpty && fields.all (c.fieldFits admits))) := by
  have hdependent : ∀ keyword ∉ plainKeywords, ∀ p, c.dependent judge keyword fields p = p := by
    intro keyword hk p
    simp [dependent, hplain.get?_eq_none hk]
  have hnames : ∀ p, c.fieldNames judge fields p = p := by
    intro p
    have : c.node.child? c.library "propertyNames" = none :=
      hplain.child?_eq_none _ (by decide)
    simp [fieldNames, this]
  have hpatterned : c.node.named c.library "patternProperties" = [] :=
    hplain.named_eq_nil _ (by decide)
  have hrequired := says_required c (says_sizes c hp "Properties" fields.length) fields
  have hstart : FieldsSay (c.required fields (c.sizes "Properties" fields.length p), []) _ :=
    ⟨_, hrequired, Bool.and_true _⟩
  obtain ⟨b, hb, hall⟩ := fieldsSay_foldl hplain hinside hstart fields
  simp only [object, hdependent "dependencies" (by decide),
    hdependent "dependentSchemas" (by decide), hdependent "dependentRequired" (by decide), hnames,
    hpatterned]
  rw [← Bool.and_assoc, ← Bool.and_assoc, ← hall]
  exact hb.addUnless _

omit hplain in
/-- Elements are counted as they are checked, but the count is for the messages only. -/
theorem says_each (hp : p.Says a) {n : Node} (hn : n ∈ c.node.inside c.library)
    (elements : List Json) (first : Nat) :
    ((elements.zipIdx first).foldl (fun p (v, i) => c.addWithin judge p n (toString i) v) p).Says
      (a && elements.all (admits n)) := by
  induction elements generalizing p a first with
  | nil => simpa using hp
  | cons v rest ih =>
      rw [List.zipIdx_cons, List.foldl_cons, List.all_cons, ← Bool.and_assoc]
      exact ih (says_addWithin hp (hinside n hn (toString first) v)) (first + 1)

theorem says_list (hp : p.Says a) (elements : List Json) :
    (c.list judge elements p).Says (a && (c.sizeFits "Items" elements.length &&
      (c.node.child? c.library "items").all fun n => elements.all (admits n))) := by
  have hunique : c.node.isOn "uniqueItems" = false := by
    have : c.node.get? "uniqueItems" = none := hplain.get?_eq_none (by decide)
    simp [Node.isOn, this]
  have hcontains : ∀ p, c.containing judge elements p = p := by
    intro p
    have : c.node.child? c.library "contains" = none := hplain.child?_eq_none _ (by decide)
    simp [containing, this]
  have hnewer : ¬c.node.draft.age < 2020 := by simp [hplain.draft, Draft.age]
  have hfront : c.node.children c.library "prefixItems" = [] :=
    hplain.children_eq_nil _ (by decide)
  have hsizes := says_sizes c hp "Items" elements.length
  rw [list, hcontains, if_neg hnewer, hunique, newerElements, hfront]
  simp only [front, List.zip_nil_right, List.zipIdx_nil, List.foldl_nil, List.length_nil,
    List.drop_zero, Bool.not_false, if_true]
  rw [← Bool.and_assoc]
  cases hitems : c.node.child? c.library "items" with
  | none => simpa using hsizes
  | some n =>
      have hn : n ∈ c.node.inside c.library := by
        simp [Node.inside, hitems]
      exact says_each hinside hsizes hn elements 0

omit hplain hinside in
theorem says_text (hp : p.Says a) (runes : List Text.Rune) :
    (c.text runes p).Says (a && (c.sizeFits "Length" runes.length &&
      (c.node.text? "pattern").all fun pattern => patternMatches pattern runes)) := by
  have hsizes := says_sizes c hp "Length" runes.length
  rw [text, ← Bool.and_assoc]
  cases c.node.text? "pattern" with
  | none => simpa using hsizes
  | some pattern => exact hsizes.addUnless _

omit hinside in
theorem number_of_plain (n : Exact) (p : Progress) : c.number n p = p := by
  have hnone : ∀ keyword ∉ plainKeywords, c.node.get? keyword = none :=
    fun keyword hk => hplain.get?_eq_none hk
  simp [number, Node.isOn, hnone "minimum" (by decide), hnone "maximum" (by decide),
    hnone "exclusiveMinimum" (by decide), hnone "exclusiveMaximum" (by decide),
    hnone "multipleOf" (by decide)]

theorem says_byType (hp : p.Says a) : (c.byType judge p).Says (a && c.partsFit admits) := by
  have hnumber := fun n => number_of_plain hplain n p
  rw [byType, partsFit]
  cases c.value with
  | object fields => exact says_object hplain hinside hp fields
  | array elements => exact says_list hplain hinside hp elements
  | string s => exact says_text hp _
  | bytes b => exact says_text hp _
  | int n => simpa [runes?, Exact.ofJson?, hnumber] using hp
  | float x => 
    cases h : Exact.ofJson? (.float x) <;> simpa [runes?, h, hnumber] using hp
  | null => simpa [runes?, Exact.ofJson?] using hp
  | bool b => simpa [runes?, Exact.ofJson?] using hp
  | binary b => simpa [runes?, Exact.ofJson?] using hp
  | moment m => simpa [runes?, Exact.ofJson?] using hp

end Parts

/-- Of several schemas the progress is kept as it was: what they find is not added to it. -/
theorem foldl_anyOf (hp : p.Says a) {schemas : List Node}
    (hn : ∀ n ∈ schemas, (judge (c.beside n "") false).isOk = admits n c.value)
    (matched : Bool) (causes : List Violation) : ∃ causes',
      schemas.foldl (fun (p, matched, causes) n =>
        if matched && p.unseen.isEmpty then (p, matched, causes)
        else match c.also judge p n "" with
          | .ok p => (p, true, causes)
          | .error vs => (p, matched, causes ++ [gather c.location vs])) (p, matched, causes) =
      (p, matched || schemas.any fun n => admits n c.value, causes') := by
  induction schemas generalizing matched causes with
  | nil => exact ⟨causes, by simp⟩
  | cons n rest ih =>
      obtain ⟨hfirst, hrest⟩ := List.forall_mem_cons.mp hn
      rw [List.foldl_cons, List.any_cons, ← hfirst]
      dsimp only
      rw [hp.isEmpty_unseen, Bool.and_true, also_eq hp]
      cases matched with
      | true => simpa using ih hrest true causes
      | false =>
          cases judge (c.beside n "") false with
          | ok u => simpa [Except.map, Except.isOk, Except.toBool] using ih hrest true causes
          | error vs =>
              simpa [Except.map, Except.isOk, Except.toBool] using
                ih hrest false (causes ++ [gather c.location vs])

theorem says_anyOf (hp : p.Says a)
    (hbeside : ∀ n ∈ c.node.children c.library "anyOf",
      (judge (c.beside n "") false).isOk = admits n c.value) :
    (c.anyOf judge p).Says (a && ((c.node.children c.library "anyOf").isEmpty ||
      (c.node.children c.library "anyOf").any fun n => admits n c.value)) := by
  obtain ⟨causes, h⟩ := foldl_anyOf hp hbeside false []
  have hresult := congrArg (fun (r : Progress × Bool × List Violation) =>
    if (c.node.children c.library "anyOf").isEmpty || r.2.1 then r.1
    else r.1.add (c.faultOf .notAny r.2.2)) h
  exact (show c.anyOf judge p = _ from hresult) ▸ hp.addUnless _

theorem keywordsOf_of_plain (hplain : c.node.Plain) (judge : Judge) (p : Progress) :
    c.keywordsOf judge p = c.anyOf judge (c.byType judge p) := by
  have hchild : ∀ keyword ∉ plainKeywords, c.node.child? c.library keyword = none :=
    fun keyword hk => hplain.child?_eq_none _ hk
  have hlist : ∀ keyword ∉ plainKeywords, c.node.children c.library keyword = [] :=
    fun keyword hk => hplain.children_eq_nil _ hk
  have htarget : ∀ keyword ∉ plainKeywords, c.node.target? c.library keyword = none :=
    fun keyword hk => hplain.target?_eq_none _ hk
  simp [keywordsOf, laterReferences, recursive?, dynamic?, negated, allOf, oneOf, conditional,
    leftOver, htarget "$recursiveRef" (by decide), htarget "$dynamicRef" (by decide),
    hchild "not" (by decide), hlist "allOf" (by decide), hlist "oneOf" (by decide),
    hchild "if" (by decide), hchild "unevaluatedProperties" (by decide),
    hchild "unevaluatedItems" (by decide)]

theorem unseen_of_plain (hplain : c.node.Plain) : c.unseen false = {} := by
  have hfields : c.node.get? "unevaluatedProperties" = none := hplain.get?_eq_none (by decide)
  have helements : c.node.get? "unevaluatedItems" = none := hplain.get?_eq_none (by decide)
  simp only [unseen, hfields, helements]
  cases c.value <;> simp

/-- What was found decides in the end. -/
theorem isOk_close (p : Progress) :
    Except.isOk (if p.found.isEmpty then .ok p.unseen else .error p.found : Verdict) =
      p.found.isEmpty := by
  cases p.found.isEmpty <;> rfl

theorem ne_nil_of_close {p : Progress} {vs : List Violation}
    (h : (if p.found.isEmpty then .ok p.unseen else .error p.found : Verdict) = .error vs) :
    vs ≠ [] := by
  split at h
  · cases h
  · next hfound =>
      cases h
      simpa using hfound

/-- The verdict of a plain schema. -/
theorem isOk_verdict (hplain : c.node.Plain) (hcycle : c.cycle? = none)
    (hreferred : c.node.target? c.library "$ref" = c.node.referred? c.library)
    (hbeside : ∀ n ∈ c.node.beside c.library, ∀ keyword,
      (judge (c.beside n keyword) false).isOk = admits n c.value)
    (hinside : ∀ n ∈ c.node.inside c.library, ∀ token v,
      (judge (c.within n token v) false).isOk = admits n v) :
    (c.verdict judge false).isOk = c.fits admits := by
  obtain ⟨fields, hvalue⟩ := hplain.object
  have hstart : Says { unseen := c.unseen false } true := ⟨rfl, unseen_of_plain hplain⟩
  rw [verdict, hvalue, fits]
  dsimp only
  rw [hcycle, hplain.isReference, hreferred]
  cases c.firstFault? with
  | some f => rfl
  | none =>
      simp only [keywordsOf_of_plain hplain, Bool.false_eq_true, if_false, Option.isNone_none,
        Bool.true_and]
      refine (isOk_close _).trans (says_anyOf (says_byType hplain hinside ?_) fun n hn =>
        hbeside n (List.mem_append_right _ hn) "").found
      cases hn : c.node.referred? c.library with
      | none => exact hstart
      | some n =>
          have hmem : n ∈ c.node.beside c.library := by simp [Node.beside, hn]
          exact says_addReferred hstart (hbeside n hmem "$ref")

/-! ## The way to a schema -/

/-- A schema that was not reached from another one for the same value. -/
structure Entered (c : Context) : Prop where
  trail : ∃ here before, c.trail = here :: before ∧ here.place = c.node.place ∧
    ∀ s ∈ before.head?, s.depth ≠ here.depth

theorem entered_within (c : Context) (n : Node) (token : String) (v : Json) :
    (c.within n token v).Entered := by
  refine ⟨_, _, rfl, rfl, fun s hs => ?_⟩
  have hdepth : c.depth = s.depth := by simp [depth, Option.mem_def.mp hs]
  rw [hdepth]
  exact Nat.ne_of_lt (Nat.lt_succ_self _)

theorem Entered.takeWhile {here : Step} {before : List Step}
    (h : ∀ s ∈ before.head?, s.depth ≠ here.depth) :
    before.takeWhile (·.depth = here.depth) = [] := by
  cases before with
  | nil => rfl
  | cons s rest =>
      have : s.depth ≠ here.depth := h s rfl
      simp [this]

theorem Entered.cycle? (h : c.Entered) : c.cycle? = none := by
  obtain ⟨here, before, htrail, -, hbefore⟩ := h.trail
  simp [Context.cycle?, htrail, Entered.takeWhile hbefore]

/-- One more schema for the same value makes no cycle, if it is another one. -/
theorem Entered.cycle?_beside (h : c.Entered) {n : Node} (hn : n.place ≠ c.node.place)
    (keyword : String) : (c.beside n keyword).cycle? = none := by
  obtain ⟨here, before, htrail, hplace, hbefore⟩ := h.trail
  have hdepth : c.depth = here.depth := by simp [depth, htrail]
  have hne : here.place ≠ n.place := by rw [hplace]; exact hn.symm
  simp [Context.cycle?, beside, htrail, hdepth, Entered.takeWhile hbefore, hne]

end Context

/-- Whether the schemas that can be reached are plain and at most `k` deep, where the ones for the
same value lead no further: so a schema does not come back to itself. -/
def Library.unfolds (lib : Library) : Nat → Node → Bool
  | 0, _ => false
  | k + 1, n =>
    n.isPlain && n.isLocal lib &&
      (n.beside lib).all (fun m =>
        (m.beside lib).isEmpty && m.place ≠ n.place && lib.unfolds k m) &&
      (n.inside lib).all (lib.unfolds k)

/-- **What a check finds depends on the schema and the value only.**  On any way to the schema that
makes no cycle, and with any fuel that suffices, the check of a value agrees with what the schema
admits. -/
theorem check_isOk {k fuel : Nat} {c : Context} (hwhole : c.library.isWhole = true)
    (hunfolds : c.library.unfolds k c.node = true) (hfuel : k ≤ fuel) (hcycle : c.cycle? = none)
    (hway : c.node.beside c.library = [] ∨ c.Entered) :
    (check fuel c false).isOk = c.library.admits k c.node c.value := by
  induction k generalizing fuel c with
  | zero => cases hunfolds
  | succ k ih =>
      obtain ⟨fuel, rfl⟩ := Nat.exists_eq_add_of_le' (Nat.le_trans (Nat.succ_pos k) hfuel)
      simp only [Library.unfolds, Bool.and_eq_true, List.all_eq_true, List.isEmpty_iff,
        decide_eq_true_eq] at hunfolds
      obtain ⟨⟨⟨hplain, hlocal⟩, hbeside⟩, hinside⟩ := hunfolds
      have hfuel : k ≤ fuel := Nat.le_of_succ_le_succ hfuel
      refine Context.isOk_verdict (Node.plain_of_isPlain hplain) hcycle
        (Node.target?_eq_referred? hwhole hlocal) ?_ ?_
      -- A schema for the same value leads to no third one, so the trail cannot close behind it; a
      -- part of the value is one level deeper, where the trail starts afresh.
      · intro n hn keyword
        obtain ⟨⟨hnone, hplace⟩, hn'⟩ := hbeside n hn
        have hentered : c.Entered := hway.resolve_left (List.ne_nil_of_mem hn)
        exact ih hwhole hn' hfuel (hentered.cycle?_beside hplace keyword) (.inl hnone)
      · intro n hn token v
        have hentered := Context.entered_within c n token v
        exact ih hwhole (hinside n hn) hfuel hentered.cycle? (.inr hentered)

/-! ## Validators -/

theorem Context.verdict_ne_nil {c : Context} {judge : Judge} {needed : Bool}
    {vs : List Violation} (h : c.verdict judge needed = .error vs) : vs ≠ [] := by
  rw [verdict] at h
  split at h
  · cases h
  · cases h
    simp
  · split at h
    · cases h
      simp
    · split at h
      · cases h
        simp
      · exact ne_nil_of_close h

/-- A problem is told by an error that is not empty, so that no problems and no error are one. -/
theorem Library.problems_eq_nil {lib : Library} {n : Node} {v : Json} :
    lib.problems n v = [] ↔
      (check (lib.fuel v) ⟨lib, n, [⟨n.place, "", 0⟩], [], v⟩ false).isOk = true := by
  rw [problems]
  cases hcheck : check (lib.fuel v) ⟨lib, n, [⟨n.place, "", 0⟩], [], v⟩ false with
  | ok u => exact ⟨fun _ => rfl, fun _ => rfl⟩
  | error vs =>
      refine ⟨fun hvs => ?_, nofun⟩
      cases hfuel : lib.fuel v with
      | zero =>
          rw [hfuel] at hcheck
          cases hcheck
      | succ fuel =>
          rw [hfuel] at hcheck
          exact absurd hvs (Context.verdict_ne_nil hcheck)

namespace Validator

variable {val : Validator} {v : Json}

theorem validate_eq_ok : val.validate v = .ok () ↔ val.library.problems val.node v = [] := by
  rw [validate, violation?]
  cases val.library.problems val.node v with
  | nil => exact ⟨fun _ => rfl, fun _ => rfl⟩
  | cons problem rest => exact ⟨nofun, nofun⟩

/-- A validator whose schema unfolds tells whether the schema admits a value. -/
theorem validate_iff {k : Nat} (hwhole : val.library.isWhole = true)
    (hunfolds : val.library.unfolds k val.node = true) (hk : k ≤ 1000) :
    val.validate v = .ok () ↔ val.library.admits k val.node v = true := by
  let c : Context := ⟨val.library, val.node, [⟨val.node.place, "", 0⟩], [], v⟩
  have hentered : c.Entered := ⟨_, _, rfl, rfl, by simp⟩
  have hfuel : k ≤ val.library.fuel v := by
    rw [Library.fuel]
    exact Nat.le_trans hk (Nat.le_trans (Nat.le_add_left _ _)
      (Nat.le_mul_of_pos_left _ (Nat.succ_pos _)))
  have hcheck : (check (val.library.fuel v) c false).isOk = val.library.admits k val.node v :=
    check_isOk hwhole hunfolds hfuel hentered.cycle? (.inr hentered)
  rw [← hcheck]
  exact validate_eq_ok.trans Library.problems_eq_nil

end Validator

end RuleScan.Schema
