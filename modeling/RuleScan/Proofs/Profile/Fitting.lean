import RuleScan.Proofs.Profile.Sound

/-!
# What the schema says of a profile that is written down

A profile without problems almost fits its schema.  What the schema asks of names, texts, lists and
kinds has been checked when the profile was found without problems; only the way a weakness is
named (`CWE-` and a number) is asked for by the schema ALONE.  So a profile that is written down
fits exactly if all its weaknesses are named like that (`Profile.validate_toJson_iff`), and a
profile that is read by its value has none that are not (`Profile.weaknessNamed_of_validate`).

The schemas on the way are known by their outlines (`Schema.evaluated_schemas`), which are found
out once, by evaluation; what a record has to be like is read off its outline
(`Schema.admitted_record`).  Three schemas have no outline, since they list their values or have a
pattern; what they admit does not depend on others (`Schema.admitted_leaf`).
-/

namespace RuleScan.Schema

/-! ## Outlines -/

/-- The way to the definition of a record. -/
def definitionWay (name : String) : List String := ["$defs", name]

/-- The way to a property of a record. -/
def propertyWay (way : List String) (property : String) : List String :=
  way ++ ["properties", property]

/-- A text. -/
def textOutline : Outline := { type := some "string" }

/-- A text that is not empty. -/
def nonemptyOutline : Outline := { type := some "string", minLength := some 1 }

/-- A list, whose elements have a schema of their own. -/
def listOutline (way : List String) : Outline :=
  { type := some "array", items := some (way ++ ["items"]) }

/-- What is defined elsewhere. -/
def referenceOutline (way : List String) : Outline := { reference := some way }

/-- A record with its properties. -/
def recordOutline (way properties required : List String) (isOpen : Bool)
    (alternatives : List (List String)) : Outline :=
  { type := some "object"
    required
    isOpen
    named := properties.map fun p => (p, propertyWay way p)
    alternatives }

/-- The way to the definition of rules. -/
def ruleWay : List String := definitionWay "Rule"

/-- The way to the definition of the patterns of a rule. -/
def specWay : List String := definitionWay "PatternSpec"

/-- The way to the definition of patterns. -/
def patternWay : List String := definitionWay "Pattern"

/-- The way to the definition of scopes. -/
def scopeWay : List String := definitionWay "Scope"

/-- A profile. -/
def profileOutline : Outline :=
  recordOutline [] ["metadata", "name", "description", "version", "rules", "refactor_name"]
    ["rules"] false [["anyOf", "0"], ["anyOf", "1"]]

/-- A rule. -/
def ruleOutline : Outline :=
  recordOutline ruleWay ["match", "expect", "scope", "id", "description", "severity", "category",
    "guidance", "cwe", "references"] ["match", "id", "description"] false []

/-- The patterns of a rule, in both dialects. -/
def specOutline : Outline :=
  recordOutline specWay ["anyOf", "allOf", "identifiers", "expressions", "sql_tables",
    "api_routes"] [] true []

/-- A pattern. -/
def patternOutline : Outline :=
  recordOutline patternWay ["kind", "value", "flags"] ["value"] false []

/-- A scope. -/
def scopeOutline : Outline :=
  recordOutline scopeWay ["include", "exclude", "when"] [] false []

/-- The outlines of the schemas that the parts of a profile have, but for those on the way to its
rules. -/
def outlines : List (List String × Outline) :=
  let texts (way : List String) : List (List String × Outline) :=
    [(way, listOutline way), (way ++ ["items"], textOutline)]
  let patterns (way : List String) : List (List String × Outline) :=
    [(way, listOutline way), (way ++ ["items"], referenceOutline patternWay)]
  [([], profileOutline),
    (propertyWay [] "metadata", { type := some "object" }),
    (propertyWay [] "description", textOutline),
    (propertyWay [] "version", textOutline),
    (ruleWay, ruleOutline),
    (propertyWay ruleWay "match", referenceOutline specWay),
    (propertyWay ruleWay "expect", referenceOutline specWay),
    (propertyWay ruleWay "scope", referenceOutline scopeWay),
    (propertyWay ruleWay "id", nonemptyOutline),
    (propertyWay ruleWay "description", textOutline),
    (propertyWay ruleWay "category", textOutline),
    (propertyWay ruleWay "guidance", textOutline),
    (specWay, specOutline),
    (patternWay, patternOutline),
    (propertyWay patternWay "value", nonemptyOutline),
    (propertyWay patternWay "flags", textOutline),
    (scopeWay, scopeOutline),
    (propertyWay scopeWay "when", textOutline)] ++
  texts (propertyWay ruleWay "references") ++ texts (propertyWay scopeWay "include") ++
    texts (propertyWay scopeWay "exclude") ++ patterns (propertyWay specWay "anyOf") ++
    patterns (propertyWay specWay "allOf")

/-- How a weakness is named. -/
def weaknessPattern : String := "^CWE-[0-9]+$"

/-- What can be found out about the schemas by evaluation: these outlines, and what those are like
that list their values, or have a pattern. -/
theorem evaluated_schemas :
    (outlines.all fun x =>
      profileLibrary.outline? (profileLibrary.schemaAt x.1) = some x.2) = true ∧
    ([propertyWay ruleWay "severity", propertyWay ruleWay "cwe", propertyWay patternWay "kind"].all
      fun way => ((profileLibrary.schemaAt way).referred? profileLibrary).isNone &&
        ((profileLibrary.schemaAt way).children profileLibrary "anyOf").isEmpty) = true ∧
    (Severity.all.all fun s =>
      admitted 1 (propertyWay ruleWay "severity") (.string s.name)) = true ∧
    (["literal", "regex"].all fun s =>
      admitted 1 (propertyWay patternWay "kind") (.string s)) = true ∧
    ((profileLibrary.schemaAt (propertyWay ruleWay "cwe")).isPlain = true ∧
      ((profileLibrary.schemaAt (propertyWay ruleWay "cwe")).get? "enum").isNone = true ∧
      (profileLibrary.schemaAt (propertyWay ruleWay "cwe")).text? "type" = some "string" ∧
      ((profileLibrary.schemaAt (propertyWay ruleWay "cwe")).get? "minLength").isNone = true ∧
      (profileLibrary.schemaAt (propertyWay ruleWay "cwe")).text? "pattern" =
        some weaknessPattern) := by
  decide +kernel

variable {way : List String} {o : Outline}

/-- What a schema with an outline admits. -/
theorem admitted_of_mem (h : (way, o) ∈ outlines) (k : Nat) (v : Json) :
    admitted (k + 1) way v = o.fits (admitted k) v :=
  admitted_succ (of_decide_eq_true (List.all_eq_true.mp evaluated_schemas.1 _ h)) k v

theorem admitted_text (h : (way, textOutline) ∈ outlines) (k : Nat) (s : String) :
    admitted (k + 1) way (.string s) = true := by
  rw [admitted_of_mem h]
  simp [Outline.fits, Outline.partsFit, textOutline, typeName?, runes?]

theorem length_decode_pos {s : String} (hs : s ≠ "") :
    1 ≤ (Text.decode (Text.bytesOf s)).length := by
  refine List.length_pos_iff.mpr fun hnil => hs ?_
  rw [← Text.textOf_bytesOf s, Text.textOf, hnil]
  rfl

theorem admitted_nonempty (h : (way, nonemptyOutline) ∈ outlines) (k : Nat) {s : String}
    (hs : s ≠ "") : admitted (k + 1) way (.string s) = true := by
  have hlength := length_decode_pos hs
  rw [admitted_of_mem h]
  simp [Outline.fits, Outline.partsFit, nonemptyOutline, typeName?, runes?]
  omega

theorem admitted_list (h : (way, listOutline way) ∈ outlines) (k : Nat) (vs : List Json) :
    admitted (k + 1) way (.array vs) = vs.all (admitted k (way ++ ["items"])) := by
  rw [admitted_of_mem h]
  simp [Outline.fits, Outline.partsFit, listOutline, typeName?]

/-- An object fits a reference if it fits what is referred to. -/
theorem admitted_reference {target : List String} (h : (way, referenceOutline target) ∈ outlines)
    (k : Nat) (fields : List (String × Json)) :
    admitted (k + 1) way (.object fields) = admitted k target (.object fields) := by
  rw [admitted_of_mem h]
  simp [Outline.fits, Outline.partsFit, Outline.fieldFits, referenceOutline, typeName?,
    Context.absent]

theorem mem_ofFields {parts : List (String × Option Json)} {f : String × Json} :
    f ∈ (Json.ofFields parts).fields ↔ (f.1, some f.2) ∈ parts := by
  simp only [Json.ofFields, Json.fields, List.mem_filterMap, Option.map_eq_some_iff]
  constructor
  · rintro ⟨⟨n, v⟩, hmem, w, rfl, rfl⟩
    exact hmem
  · intro hmem
    exact ⟨_, hmem, f.2, rfl, rfl⟩

/-- What an object has to be like. -/
theorem fits_object (htype : o.type = some "object") (hreference : o.reference = none)
    (admits : List String → Json → Bool) (fields : List (String × Json)) :
    o.fits admits (.object fields) =
      ((Context.absent fields o.required).isEmpty && fields.all (o.fieldFits admits) &&
        (o.alternatives.isEmpty || o.alternatives.any (admits · (.object fields)))) := by
  simp [Outline.fits, Outline.partsFit, typeName?, htype, hreference]

section Records

variable {properties required : List String} {isOpen : Bool} {alternatives : List (List String)}

/-- A property of a record is looked up by its name. -/
theorem fieldFits_record {f : String × Json} (hf : f.1 ∈ properties)
    (admits : List String → Json → Bool) :
    (recordOutline way properties required isOpen alternatives).fieldFits admits f =
      admits (propertyWay way f.1) f.2 := by
  have hfind : (recordOutline way properties required isOpen alternatives).named.find?
      (·.1 = f.1) = some (f.1, propertyWay way f.1) := by
    rw [recordOutline, List.find?_map]
    cases hp : properties.find?
        ((fun x => decide (x.1 = f.1)) ∘ fun p => (p, propertyWay way p)) with
    | none => exact absurd (List.find?_eq_none.mp hp f.1 hf) (by simp)
    | some p =>
        have hname : p = f.1 := by simpa using List.find?_some hp
        rw [hname]
        rfl
  rw [Outline.fieldFits, hfind]

/-- A record fits if each of its parts fits the schema of its name. -/
theorem admitted_record
    (h : (way, recordOutline way properties required isOpen alternatives) ∈ outlines)
    {parts : List (String × Option Json)} (hrequired : ∀ r ∈ required, ∃ v, (r, some v) ∈ parts)
    (hparts : ∀ f ∈ parts, f.1 ∈ properties) {k : Nat}
    (halternatives : (alternatives.isEmpty ||
      alternatives.any (admitted k · (Json.ofFields parts))) = true) :
    admitted (k + 1) way (Json.ofFields parts) = true ↔
      ∀ f ∈ parts, ∀ v, f.2 = some v → admitted k (propertyWay way f.1) v = true := by
  have habsent : (Context.absent (Json.ofFields parts).fields required).isEmpty = true := by
    rw [List.isEmpty_iff, Context.absent, List.filter_eq_nil_iff]
    intro r hr
    obtain ⟨v, hv⟩ := hrequired r hr
    have hany : (Json.ofFields parts).fields.any (·.1 = r) = true :=
      List.any_eq_true.mpr ⟨(r, v), mem_ofFields.mpr hv, by simp⟩
    rw [hany]
    exact Bool.false_ne_true
  have hfits : (recordOutline way properties required isOpen alternatives).fits (admitted k)
      (Json.ofFields parts) = (Json.ofFields parts).fields.all
        ((recordOutline way properties required isOpen alternatives).fieldFits (admitted k)) := by
    refine (fits_object rfl rfl (admitted k) (Json.ofFields parts).fields).trans ?_
    show ((Context.absent (Json.ofFields parts).fields required).isEmpty && _ &&
      (alternatives.isEmpty || alternatives.any (admitted k · (Json.ofFields parts)))) = _
    rw [habsent, halternatives, Bool.true_and, Bool.and_true]
  rw [admitted_of_mem h, hfits, List.all_eq_true]
  constructor
  · intro hall f hf v hv
    have hmem : (f.1, v) ∈ (Json.ofFields parts).fields := mem_ofFields.mpr (hv ▸ hf)
    have hfit := hall _ hmem
    rwa [fieldFits_record (hparts f hf)] at hfit
  · intro hall f hf
    have hmem := mem_ofFields.mp hf
    rw [fieldFits_record (hparts _ hmem)]
    exact hall _ hmem f.2 rfl

/-- In an object that fits, every field fits the schema of its name. -/
theorem admitted_field
    (h : (way, recordOutline way properties required isOpen alternatives) ∈ outlines) {k : Nat}
    {fields : List (String × Json)} (hfits : admitted (k + 1) way (.object fields) = true)
    {f : String × Json} (hf : f ∈ fields) (hname : f.1 ∈ properties) :
    admitted k (propertyWay way f.1) f.2 = true := by
  rw [admitted_of_mem h, fits_object rfl rfl, Bool.and_eq_true, Bool.and_eq_true] at hfits
  have hfit := List.all_eq_true.mp hfits.1.2 f hf
  rwa [fieldFits_record hname] at hfit

/-- What is read of a field of an object that fits is what stands for nothing, or is read of a value
that fits the schema of its name. -/
theorem exists_admitted_of_fieldOr?
    (h : (way, recordOutline way properties required isOpen alternatives) ∈ outlines) {k : Nat}
    {fields : List (String × Json)} (hfits : admitted (k + 1) way (.object fields) = true)
    {key : String} (hkey : key ∈ properties) {α : Type} {default a : α} {decode : Json → Option α}
    (hread : (Json.object fields).fieldOr? key default decode = some a) :
    a = default ∨ ∃ v, admitted k (propertyWay way key) v = true ∧
      Json.orDefault default decode v = some a := by
  rw [Json.fieldOr?_object] at hread
  cases hfind : fields.find? (·.1 = key) with
  | none =>
      rw [hfind] at hread
      exact .inl (Option.some.inj hread).symm
  | some f =>
      obtain rfl : f.1 = key := by simpa using List.find?_some hfind
      rw [hfind] at hread
      exact .inr ⟨f.2, admitted_field h hfits (List.mem_of_find?_eq_some hfind) hkey, hread⟩

end Records

/-! ## Choices and patterns -/

/-- What a text has to be like in a place without references does not depend on other schemas. -/
theorem admitted_leaf (hreferred : (profileLibrary.schemaAt way).referred? profileLibrary = none)
    (hany : (profileLibrary.schemaAt way).children profileLibrary "anyOf" = []) (k : Nat)
    (s : String) : admitted (k + 1) way (.string s) = admitted 1 way (.string s) := by
  simp only [admitted, Library.admits, Context.fits, Library.start, hreferred, hany]
  rfl

theorem leaf_of_mem {way : List String} (h : way ∈ [propertyWay ruleWay "severity",
    propertyWay ruleWay "cwe", propertyWay patternWay "kind"]) (k : Nat) (s : String) :
    admitted (k + 1) way (.string s) = admitted 1 way (.string s) := by
  have hway := List.all_eq_true.mp evaluated_schemas.2.1 way h
  rw [Bool.and_eq_true, Option.isNone_iff_eq_none, List.isEmpty_iff] at hway
  exact admitted_leaf hway.1 hway.2 k s

theorem admitted_severity {s : Severity} (hs : s ∈ Severity.all) (k : Nat) :
    admitted (k + 1) (propertyWay ruleWay "severity") (.string s.name) = true := by
  rw [leaf_of_mem (by decide)]
  exact List.all_eq_true.mp evaluated_schemas.2.2.1 s hs

theorem admitted_kind {kind : Pattern.Kind} (hkind : kind = .literal ∨ kind = .regex) (k : Nat) :
    admitted (k + 1) (propertyWay patternWay "kind") (.string kind.name) = true := by
  rw [leaf_of_mem (by decide)]
  refine List.all_eq_true.mp evaluated_schemas.2.2.2.1 _ ?_
  rcases hkind with rfl | rfl <;> decide

/-- A text names a weakness. -/
def NamesWeakness (s : String) : Prop :=
  patternMatches weaknessPattern (Text.decode (Text.bytesOf s)) = true

/-- What the schema of weaknesses admits is a text that names one. -/
theorem admitted_cwe (k : Nat) (v : Json) : admitted (k + 1) (propertyWay ruleWay "cwe") v =
    ((typeName? v).any (· = "string") && (runes? v).all (patternMatches weaknessPattern)) := by
  obtain ⟨-, hleaf, -, -, hplain, henum, htype, hmin, hpattern⟩ := evaluated_schemas
  have hway := List.all_eq_true.mp hleaf (propertyWay ruleWay "cwe") (by decide)
  rw [Bool.and_eq_true, Option.isNone_iff_eq_none, List.isEmpty_iff] at hway
  have hplain := Node.plain_of_isPlain hplain
  have hgiven : ∃ t ≠ "integer", (profileLibrary.schemaAt (propertyWay ruleWay "cwe")).get? "type" =
      some (.string t) := by
    rw [Node.text?] at htype
    split at htype
    · next t ht => exact ⟨t, by rw [Option.some.inj htype]; decide, ht⟩
    · cases htype
  generalize hn : profileLibrary.schemaAt (propertyWay ruleWay "cwe") = n at *
  have hfault : (profileLibrary.start n v).firstFault?.isNone =
      (typeName? v).any (· = "string") := by
    rw [Context.isNone_firstFault? (c := profileLibrary.start n v) hplain
      (Option.isNone_iff_eq_none.mp henum) (.inr hgiven)]
    show ((typeName? v).any fun got => (n.text? "type").all (· = got)) = _
    rw [htype]
    simp [eq_comm]
  have htext : ∀ runes : List Text.Rune, ((profileLibrary.start n v).sizeFits "Length" runes.length &&
      (n.text? "pattern").all fun pattern => patternMatches pattern runes) =
        patternMatches weaknessPattern runes := by
    intro runes
    have hnone : (profileLibrary.start n v).whole? "minLength" = none := by
      simp [Context.whole?, Library.start, Option.isNone_iff_eq_none.mp hmin]
    rw [Context.sizeFits_of_plain (c := profileLibrary.start n v) hplain "Length" (by decide),
      hpattern]
    simp [hnone]
  have hfits : admitted (k + 1) (propertyWay ruleWay "cwe") v =
      ((typeName? v).any (· = "string") &&
        (profileLibrary.start n v).partsFit (profileLibrary.admits k)) := by
    rw [admitted, hn, Library.admits, Context.fits, hfault]
    show (_ && (n.referred? profileLibrary).all _ && _ &&
      ((n.children profileLibrary "anyOf").isEmpty || _)) = _
    rw [hway.1, hway.2]
    simp
  rw [hfits]
  cases v with
  | string s => exact congrArg (true && ·) (htext _)
  | bytes b => exact congrArg (true && ·) (htext _)
  | _ => rfl

/-! ## Records -/

/-- A text that is left out where it is empty fits if it fits where it is not. -/
theorem admitted_textField_of {way : List String} {k : Nat} {s : String}
    (h : s ≠ "" → admitted k way (.string s) = true) :
    ∀ v, textField? s = some v → admitted k way v = true := by
  intro v hv
  rw [textField?] at hv
  split at hv
  · cases hv
  · next hs =>
      cases hv
      exact h hs

theorem admitted_textField {way : List String} (h : (way, textOutline) ∈ outlines) (k : Nat)
    (s : String) : ∀ v, textField? s = some v → admitted (k + 1) way v = true :=
  admitted_textField_of fun _ => admitted_text h k s

theorem admitted_listField {way : List String} (h : (way, listOutline way) ∈ outlines) (k : Nat)
    {vs : List Json} (hvs : ∀ v ∈ vs, admitted k (way ++ ["items"]) v = true) :
    ∀ v, listField? vs = some v → admitted (k + 1) way v = true := by
  intro v hv
  rw [listField?] at hv
  split at hv
  · cases hv
  · cases hv
    rw [admitted_list h, List.all_eq_true]
    exact hvs

theorem admitted_texts {way : List String} (h : (way, listOutline way) ∈ outlines)
    (hitems : (way ++ ["items"], textOutline) ∈ outlines) (k : Nat) (l : List String) :
    ∀ v, listField? (l.map .string) = some v → admitted (k + 2) way v = true := by
  refine admitted_listField h (k + 1) fun v hv => ?_
  obtain ⟨s, -, rfl⟩ := List.mem_map.mp hv
  exact admitted_text hitems k s

theorem admitted_scope (s : Scope) (k : Nat) :
    admitted (k + 3) scopeWay s.toJson = true := by
  have hrecord : (scopeWay, scopeOutline) ∈ outlines := by decide
  rw [Scope.toJson, admitted_record hrecord (by simp) (by simp) rfl]
  simp only [List.forall_mem_cons]
  refine ⟨?_, ?_, ?_, by simp⟩
  · exact admitted_texts (by decide) (by decide) k _
  · exact admitted_texts (by decide) (by decide) k _
  · exact admitted_textField (by decide) (k + 1) _

theorem admitted_pattern {p : Pattern} (hvalue : p.value ≠ "")
    (hkind : p.kind = .literal ∨ p.kind = .regex) (k : Nat) :
    admitted (k + 2) patternWay p.toJson = true := by
  have hrecord : (patternWay, patternOutline) ∈ outlines := by decide
  rw [Pattern.toJson, admitted_record hrecord (by simp) (by simp) rfl]
  simp only [List.forall_mem_cons]
  refine ⟨?_, ?_, ?_, by simp⟩
  · exact admitted_textField_of fun _ => admitted_kind hkind k
  · intro v hv
    cases hv
    exact admitted_nonempty (by decide) k hvalue
  · exact admitted_textField (by decide) k _

/-- Patterns that can be searched for fit, whichever list they stand in. -/
theorem admitted_patterns {way : List String} (h : (way, listOutline way) ∈ outlines)
    (hitems : (way ++ ["items"], referenceOutline patternWay) ∈ outlines) {ps : List Pattern}
    (hps : ∀ p ∈ ps, p.value ≠ "" ∧ (p.kind = .literal ∨ p.kind = .regex)) (k : Nat) :
    ∀ v, listField? (ps.map Pattern.toJson) = some v → admitted (k + 4) way v = true := by
  refine admitted_listField h (k + 3) fun v hv => ?_
  obtain ⟨p, hp, rfl⟩ := List.mem_map.mp hv
  obtain ⟨hvalue, hkind⟩ := hps p hp
  rw [Pattern.toJson, Json.ofFields, admitted_reference hitems]
  exact admitted_pattern hvalue hkind k

theorem admitted_patternSpec {s : PatternSpec}
    (h : ∀ p ∈ s.anyPatterns ++ s.allPatterns,
      p.value ≠ "" ∧ (p.kind = .literal ∨ p.kind = .regex)) (k : Nat) :
    admitted (k + 5) specWay s.toJson = true := by
  have hrecord : (specWay, specOutline) ∈ outlines := by decide
  rw [PatternSpec.toJson, admitted_record hrecord (by simp) (by simp) rfl]
  simp only [List.forall_mem_cons]
  refine ⟨?_, ?_, by simp⟩
  · exact admitted_patterns (by decide) (by decide)
      (fun p hp => h p (List.mem_append_left _ hp)) k
  · exact admitted_patterns (by decide) (by decide)
      (fun p hp => h p (List.mem_append_right _ hp)) k

end RuleScan.Schema

namespace RuleScan

open RuleScan.Schema

theorem Pattern.value_ne_of_compile {p : Pattern} {m : Matcher} (h : p.compile = .ok m) :
    p.value ≠ "" := by
  intro hempty
  have hdefault : p.withDefaults.value = "" := by
    rw [withDefaults]
    split <;> exact hempty
  simp [compile, hdefault] at h

namespace Rule

/-- A rule names its weakness in the way that the schema asks for, if it names one. -/
def WeaknessNamed (r : Rule) : Prop := r.cwe = "" ∨ NamesWeakness r.cwe

theorem Sound.patterns_fit {r : Rule} (h : r.Sound) :
    ∀ p ∈ r.patterns, p.value ≠ "" ∧ (p.kind = .literal ∨ p.kind = .regex) := by
  intro p hp
  obtain ⟨c, hc⟩ := h.compiles
  obtain ⟨m, hm⟩ := (faultless_of_problems (problems_of_compile hc)).patterns p hp
  exact ⟨Pattern.value_ne_of_compile hm, h.kinds p hp⟩

/-- **Of a rule that can be searched for, the schema asks only how its weakness is named.** -/
theorem Sound.admitted_iff {r : Rule} (h : r.Sound) (k : Nat) :
    admitted (k + 7) ruleWay r.toJson = true ↔ r.WeaknessNamed := by
  have hrecord : (ruleWay, ruleOutline) ∈ outlines := by decide
  have hspec : ∀ s ∈ r.spec :: r.expect.toList,
      admitted (k + 5) specWay s.toJson = true := fun s hs =>
    admitted_patternSpec (fun p hp => h.patterns_fit p (List.mem_flatMap.mpr ⟨s, hs, hp⟩)) k
  have hmatch : (propertyWay ruleWay "match", referenceOutline specWay) ∈ outlines := by decide
  have hexpect : (propertyWay ruleWay "expect", referenceOutline specWay) ∈ outlines := by decide
  have hscope : (propertyWay ruleWay "scope", referenceOutline scopeWay) ∈ outlines := by decide
  have hid : r.id ≠ "" := by
    intro hempty
    refine h.named ?_
    rw [hempty]
    decide
  rw [Rule.toJson, admitted_record hrecord (by simp) (by simp) rfl]
  simp only [List.forall_mem_cons]
  constructor
  · rintro ⟨-, -, -, -, -, -, -, -, hcwe, -⟩
    by_cases hempty : r.cwe = ""
    · exact .inl hempty
    · have hfits := hcwe (.string r.cwe) (by rw [textField?, if_neg hempty])
      rw [admitted_cwe] at hfits
      exact .inr hfits
  · intro hnamed
    refine ⟨?_, ?_, ?_, ?_, ?_, ?_, ?_, ?_, ?_, ?_, by simp⟩
    · intro v hv
      cases hv
      rw [PatternSpec.toJson, Json.ofFields, admitted_reference hmatch]
      exact hspec r.spec List.mem_cons_self
    · intro v hv
      obtain ⟨s, hs, rfl⟩ := Option.map_eq_some_iff.mp hv
      rw [PatternSpec.toJson, Json.ofFields, admitted_reference hexpect]
      exact hspec s (List.mem_cons_of_mem _ (Option.mem_toList.mpr hs))
    · intro v hv
      obtain ⟨s, -, rfl⟩ := Option.map_eq_some_iff.mp hv
      rw [Scope.toJson, Json.ofFields, admitted_reference hscope]
      exact admitted_scope s (k + 2)
    · intro v hv
      cases hv
      exact admitted_nonempty (by decide) (k + 5) hid
    · intro v hv
      cases hv
      exact admitted_text (by decide) (k + 5) r.description
    · exact admitted_textField_of fun _ => admitted_severity h.severity (k + 5)
    · exact admitted_textField (by decide) (k + 5) _
    · exact admitted_textField (by decide) (k + 5) _
    · refine admitted_textField_of fun hnonempty => ?_
      rw [admitted_cwe]
      exact hnamed.resolve_left hnonempty
    · exact admitted_texts (by decide) (by decide) (k + 4) _

/-- A value that fits the schema of rules is read as a rule that names its weakness in its way. -/
theorem weaknessNamed_of_admitted {v : Json} {k : Nat} (hfits : admitted (k + 2) ruleWay v = true)
    {r : Rule} (hr : Rule.ofValue? v = some r) : r.WeaknessNamed := by
  have hrecord : (ruleWay, ruleOutline) ∈ outlines := by decide
  have hcwe : v.fieldOr? "cwe" "" Json.asText? = some r.cwe := by
    simp only [Rule.ofValue?, Option.bind_eq_bind, Option.bind_eq_some_iff, Option.pure_def,
      Option.some_inj] at hr
    obtain ⟨spec, -, expect, -, scope, -, id, -, description, -, severity, -, category, -,
      guidance, -, cwe, hcwe, references, -, rfl⟩ := hr
    exact hcwe
  cases v with
  | object fields =>
      rcases exists_admitted_of_fieldOr? hrecord hfits (by simp) hcwe with
        hempty | ⟨w, hfield, hread⟩
      · exact .inl hempty
      · rw [admitted_cwe] at hfield
        -- The schema admits texts alone, so nothing else can have been read.
        cases w with
        | string s =>
            obtain rfl : s = r.cwe := Option.some.inj hread
            exact .inr hfield
        | bytes b => cases hread
        | _ => cases hfield
  | _ => cases hcwe

end Rule

namespace Profile

theorem admitted_list_of_rules (k : Nat) {vs : List Json} (hne : vs ≠ []) :
    admitted (k + 1) (propertyWay [] "rules") (.array vs) =
      vs.all (admitted k ["properties", "rules", "items"]) := by
  obtain ⟨-, -, -, -, -, -, -, houtline, -⟩ := evaluated_profileLibrary
  have hlength : 1 ≤ vs.length := List.length_pos_iff.mpr hne
  rw [propertyWay, List.nil_append, admitted_succ houtline]
  simp [Outline.fits, Outline.partsFit, typeName?]
  omega

theorem toJson_eq (p : Profile) : p.toJson = .ofFields [("metadata", metadataField? p.metadata),
    ("name", some (.string p.name)), ("description", textField? p.description),
    ("version", textField? p.version), ("rules", some (.array (p.rules.map Rule.toJson)))] := by
  rw [toJson, Draft.toJson, draft, List.map_map]
  rfl

theorem name_ne_of_problems {p : Profile} (h : p.problems = []) : p.name ≠ "" := by
  obtain ⟨hname, -⟩ := Draft.problems_eq_nil_iff.mp h
  intro hempty
  rw [show p.draft.name = "" from hempty] at hname
  exact hname (by decide)

theorem rules_ne_of_problems {p : Profile} (h : p.problems = []) : p.rules ≠ [] := by
  obtain ⟨-, hrules, -⟩ := Draft.problems_eq_nil_iff.mp h
  simpa [draft] using hrules

/-- **A profile without problems fits the schema exactly if its weaknesses are named in the way the
schema asks for.** -/
theorem validate_toJson_iff {p : Profile} (hrules : RulesSound p.rules)
    (hproblems : p.problems = []) :
    validator.validate p.toJson = .ok () ↔ ∀ r ∈ p.rules, r.WeaknessNamed := by
  have hrecord : ([], profileOutline) ∈ outlines := by decide
  have hmetadata : (propertyWay [] "metadata", { type := some "object" }) ∈ outlines := by decide
  have hlist : admitted 9 (propertyWay [] "rules") (.array (p.rules.map Rule.toJson)) = true ↔
      ∀ r ∈ p.rules, r.WeaknessNamed := by
    rw [admitted_list_of_rules 8 (by simpa using rules_ne_of_problems hproblems), List.all_map,
      List.all_eq_true]
    refine forall₂_congr fun r hr => ?_
    rw [Function.comp_apply, admitted_items 6]
    exact (hrules.sound r hr).admitted_iff 0
  rw [validator_iff, toJson_eq, admitted_record hrecord (by simp) (by simp)]
  · simp only [List.forall_mem_cons]
    constructor
    · rintro ⟨-, -, -, -, hfits, -⟩
      exact hlist.mp (hfits _ rfl)
    · intro hnamed
      refine ⟨?_, ?_, ?_, ?_, ?_, by simp⟩
      · intro v hv
        rw [metadataField?] at hv
        split at hv
        · cases hv
        · cases hv
          rw [Yaml.sorted_object, admitted_of_mem hmetadata, fits_object rfl rfl]
          simp [Context.absent, Outline.fieldFits]
      · intro v hv
        cases hv
        exact admitted_name (name_ne_of_problems hproblems) 8
      · exact admitted_textField (by decide) 8 _
      · exact admitted_textField (by decide) 8 _
      · intro v hv
        cases hv
        exact hlist.mpr hnamed
  · have hname : ∃ v, ("name", v) ∈ (Json.ofFields [("metadata", metadataField? p.metadata),
        ("name", some (.string p.name)), ("description", textField? p.description),
        ("version", textField? p.version),
        ("rules", some (.array (p.rules.map Rule.toJson)))]).fields :=
      ⟨.string p.name, mem_ofFields.mpr (by simp)⟩
    rw [List.isEmpty_cons, Bool.false_or, List.any_cons]
    exact Bool.or_eq_true_iff.mpr (.inl (admitted_alternative hname 8))

theorem exists_of_mem_mapM {α β : Type} {f : α → Option β} {l : List α} {bs : List β}
    (h : l.mapM f = some bs) {b : β} (hb : b ∈ bs) : ∃ a ∈ l, f a = some b := by
  induction l generalizing bs with
  | nil =>
      cases h
      cases hb
  | cons a l ih =>
      rw [List.mapM_cons] at h
      obtain ⟨c, hc, h⟩ := Option.bind_eq_some_iff.mp h
      obtain ⟨cs, hcs, h⟩ := Option.bind_eq_some_iff.mp h
      cases h
      rcases List.mem_cons.mp hb with rfl | hb
      · exact ⟨a, List.mem_cons_self, hc⟩
      · obtain ⟨a', ha', hfa⟩ := ih hcs hb
        exact ⟨a', List.mem_cons_of_mem _ ha', hfa⟩

/-- A value that fits the schema is read as a profile whose weaknesses are named in its way. -/
theorem weaknessNamed_of_validate {w : Json} (hfits : validator.validate w = .ok ()) {q : Profile}
    (hq : Profile.ofValue? w = some q) : ∀ r ∈ q.rules, r.WeaknessNamed := by
  have hrecord : ([], profileOutline) ∈ outlines := by decide
  rw [validator_iff] at hfits
  have hrules : w.fieldOr? "rules" [] (Json.asList? default Rule.ofValue?) = some q.rules := by
    simp only [Profile.ofValue?, Option.bind_eq_bind, Option.bind_eq_some_iff, Option.pure_def,
      Option.some_inj] at hq
    obtain ⟨metadata, -, name, -, older, -, description, -, version, -, rules, hrules, rfl⟩ := hq
    exact hrules
  intro r hr
  cases w with
  | object fields =>
      rcases exists_admitted_of_fieldOr? hrecord hfits (by simp) hrules with
        hnil | ⟨w, hfield, hread⟩
      · rw [hnil] at hr
        cases hr
      · cases w with
        | null =>
            obtain hnil : [] = q.rules := Option.some.inj hread
            rw [← hnil] at hr
            cases hr
        | array elements =>
            obtain ⟨e, he, hread⟩ := exists_of_mem_mapM hread hr
            have hne : elements ≠ [] := List.ne_nil_of_mem he
            rw [admitted_list_of_rules 8 hne, List.all_eq_true] at hfield
            have hrule := hfield e he
            rw [admitted_items 6] at hrule
            have hnull : e ≠ .null := by
              rintro rfl
              have hnone : admitted 7 ["$defs", "Rule"] .null = false :=
                evaluated_profileLibrary.2.2.2.1
              rw [hnone] at hrule
              cases hrule
            rw [Json.orDefault_of_ne_null hnull] at hread
            exact Rule.weaknessNamed_of_admitted (k := 5) hrule hread
        | _ => cases hread
  | _ => cases hrules

end Profile

end RuleScan
