import RuleScan.Proofs.Profile.ByValue
import RuleScan.Proofs.Profile.Fitting

/-!
# Profiles that are written down and loaded again

A profile that was loaded can be written down as a document.  Loading the document gives the same
profile, but for what does not count: lists that are there and empty are absent then, and the
metadata are in order (`Profile.tidied`).  Patterns come back in the newer dialect, whichever they
were written in, since that is how they are kept.

## What is proved

  * `Profile.normal_of_load` — reading leaves no list of patterns that is there and empty, in
    either dialect;
  * `Rule.ofValue?_toJson`, `Profile.ofValue?_toJson` — so a value that is written down is read as
    what it was made of;
  * `Profile.withDefaults_tidied`, `Profile.problems_tidied` — there are no defaults left to fill in,
    and there are no problems;
  * `Profile.load_toYaml_eq_ok_iff` — so the document loads if it fits the schema, which is a matter
    of its weaknesses alone (`Profile.validate_toJson_iff`);
  * `Profile.weaknessNamed_of_load`, `Profile.load_toYaml` — and they are named as the schema asks
    if the profile was read by its value.

How a value is spelled is not looked into: it is assumed of the document that it spells out the value
that was written (`Yaml.SpellsOut`).

The condition on weaknesses is needed.  The schema is checked of a plain value, in which an alias
has the meaning given before it; a record is read field by field, and an alias has the meaning given
last.  `Profile.redefinedText` is a document where the two differ.
-/

namespace RuleScan

open RuleScan.Yaml (Node Reading)
open RuleScan.Yaml.Reading (Gives gives_pure gives_bind gives_field gives_list)

/-! ## Empty lists -/

/-- A list that is absent if it is empty. -/
def tidyList {α : Type} (l : Option (List α)) : Option (List α) := PatternSource.present (l.getD [])

/-- A scope without empty lists. -/
def Scope.tidied (s : Scope) : Scope :=
  { s with includes := tidyList s.includes, excludes := tidyList s.excludes }

/-- A rule without empty lists. -/
def Rule.tidied (r : Rule) : Rule :=
  { r with scope := r.scope.map Scope.tidied, references := tidyList r.references }

/-- A profile with its metadata in order, and without empty lists. -/
def Profile.tidied (p : Profile) : Profile :=
  { p with
    metadata := (Yaml.sorted (.object p.metadata)).fields
    rules := p.rules.map Rule.tidied }

/-- Patterns as they are once a document has been normalized: no list is there and empty. -/
def PatternSpec.Normal (s : PatternSpec) : Prop := s.anyOf ≠ some [] ∧ s.allOf ≠ some []

namespace PatternSource

variable {α : Type}

theorem present_ne (l : List α) : present l ≠ some [] := by
  rw [present]
  split
  · nofun
  · next hl =>
      intro h
      obtain rfl : l = [] := Option.some.inj h
      exact hl rfl

theorem present_getD {l : Option (List α)} (h : l ≠ some []) : present (l.getD []) = l := by
  cases l with
  | none => rfl
  | some l =>
      cases l with
      | nil => exact absurd rfl h
      | cons a rest => rfl

theorem map_ne_some_nil {β : Type} {l : Option (List α)} (h : l ≠ some []) (f : α → β) :
    l.map (List.map f) ≠ some [] := by
  cases l with
  | none => nofun
  | some l =>
      intro hmap
      have hnil : l.map f = [] := Option.some.inj hmap
      rw [List.map_eq_nil_iff.mp hnil] at h
      exact h rfl

end PatternSource

theorem PatternSpec.Normal.withDefaults {s : PatternSpec} (h : s.Normal) : s.withDefaults.Normal :=
  ⟨PatternSource.map_ne_some_nil h.1 _, PatternSource.map_ne_some_nil h.2 _⟩

theorem PatternSource.normal_normalize (d : Option PatternSource) : (normalize d).Normal := by
  cases d with
  | none => exact ⟨nofun, nofun⟩
  | some d =>
      cases d with
      | canonical anyOf allOf =>
          exact PatternSpec.Normal.withDefaults ⟨present_ne anyOf, present_ne allOf⟩
      | legacy identifiers expressions sqlTables apiRoutes => exact ⟨present_ne _, nofun⟩

/-! ## Records that are read back -/

namespace Json

variable {α : Type} {parts : List (String × Option Json)}

theorem find?_ofFields_of_notMem {key : String} (h : key ∉ parts.map Prod.fst) :
    (ofFields parts).fields.find? (·.1 = key) = none := by
  rw [List.find?_eq_none]
  intro f hf hname
  have hkey : f.1 = key := by simpa using hname
  exact h (List.mem_map.mpr ⟨_, Schema.mem_ofFields.mp hf, hkey⟩)

theorem find?_ofFields (hnodup : (parts.map Prod.fst).Nodup) {key : String} {o : Option Json}
    (h : (key, o) ∈ parts) :
    (ofFields parts).fields.find? (·.1 = key) = o.map (key, ·) := by
  induction parts with
  | nil => cases h
  | cons part rest ih =>
      obtain ⟨name, v⟩ := part
      obtain ⟨hnew, hrest⟩ := List.nodup_cons.mp hnodup
      have hcons : (ofFields ((name, v) :: rest)).fields =
          (v.map (name, ·)).toList ++ (ofFields rest).fields := by
        cases v <;> rfl
      rw [hcons, List.find?_append]
      rcases List.mem_cons.mp h with hhead | htail
      · cases hhead
        rw [find?_ofFields_of_notMem hnew, Option.or_none]
        cases o <;> simp
      · have hne : name ≠ key := by
          rintro rfl
          exact hnew (List.mem_map.mpr ⟨_, htail, rfl⟩)
        rw [ih hrest htail]
        cases v <;> simp [hne]

/-- What is read of a field is read of the part of its name. -/
theorem fieldOr?_ofFields (hnodup : (parts.map Prod.fst).Nodup) {key : String} {o : Option Json}
    (h : (key, o) ∈ parts) (default : α) (decode : Json → Option α) :
    (ofFields parts).fieldOr? key default decode =
      o.elim (some default) (orDefault default decode) := by
  have hfind := find?_ofFields hnodup h
  rw [show ofFields parts = .object (ofFields parts).fields from rfl, fieldOr?_object, hfind]
  cases o <;> rfl

theorem fieldOr?_ofFields_of_notMem {key : String} (h : key ∉ parts.map Prod.fst) (default : α)
    (decode : Json → Option α) : (ofFields parts).fieldOr? key default decode = some default := by
  have hfind := find?_ofFields_of_notMem h
  rw [show ofFields parts = .object (ofFields parts).fields from rfl, fieldOr?_object, hfind]
  rfl

/-- A list is read element by element. -/
theorem asList?_map {β : Type} {l : List β} {toJson : β → Json} {null : α}
    {decode : Json → Option α} {f : β → α}
    (hread : ∀ b ∈ l, orDefault null decode (toJson b) = some (f b)) :
    asList? null decode (.array (l.map toJson)) = some (l.map f) := by
  rw [asList?, List.mapM_map]
  induction l with
  | nil => rfl
  | cons b rest ih =>
      obtain ⟨hb, hrest⟩ := List.forall_mem_cons.mp hread
      rw [List.mapM_cons, Function.comp_apply, hb, ih hrest]
      rfl

section Parts

variable (hnodup : (parts.map Prod.fst).Nodup)

include hnodup

theorem fieldOr?_text {key s : String} (h : (key, some (.string s)) ∈ parts) :
    (ofFields parts).fieldOr? key "" asText? = some s :=
  fieldOr?_ofFields hnodup h "" asText?

theorem fieldOr?_textField {key s : String} (h : (key, textField? s) ∈ parts) :
    (ofFields parts).fieldOr? key "" asText? = some s := by
  rw [fieldOr?_ofFields hnodup h, textField?]
  split
  · next hs => rw [hs]; rfl
  · rfl

/-- A list whose elements are read back is read back, but if it is empty. -/
theorem present?_listField {key : String} {l : List α} {toJson : α → Json} {null : α}
    {decode : Json → Option α} (h : (key, listField? (l.map toJson)) ∈ parts)
    (hread : ∀ a ∈ l, orDefault null decode (toJson a) = some a) :
    (ofFields parts).present? key (asList? null decode) = some (PatternSource.present l) := by
  have hlist : asList? null decode (.array (l.map toJson)) = some l := by
    rw [asList?_map hread, List.map_id']
  rw [present?, fieldOr?_ofFields hnodup h, listField?, PatternSource.present]
  cases l with
  | nil => rfl
  | cons a rest =>
      show ((asList? null decode (.array ((a :: rest).map toJson))).map some) = _
      rw [hlist]
      rfl

/-- A part that is read back, if it is there. -/
theorem present?_ofFields {β : Type} {key : String} {o : Option β} (toJson : β → Json)
    {decode : Json → Option α} (f : β → α) (h : (key, o.map toJson) ∈ parts)
    (hread : ∀ b ∈ o, toJson b ≠ .null ∧ decode (toJson b) = some (f b)) :
    (ofFields parts).present? key decode = some (o.map f) := by
  rw [present?, fieldOr?_ofFields hnodup h]
  cases o with
  | none => rfl
  | some b =>
      obtain ⟨hne, hb⟩ := hread b rfl
      rw [Option.map_some, Option.elim_some, orDefault_of_ne_null hne, hb]
      rfl

theorem present?_texts {key : String} {l : Option (List String)}
    (h : (key, listField? ((l.getD []).map .string)) ∈ parts) :
    (ofFields parts).present? key asTexts? = some (tidyList l) :=
  present?_listField hnodup h fun _ _ => rfl

end Parts

end Json

namespace Pattern

theorem ofName_name {kind : Kind} (h : kind = .literal ∨ kind = .regex) :
    Kind.ofName kind.name = kind := by
  rcases h with rfl | rfl <;> decide

theorem ofValue?_toJson {p : Pattern} (h : p.kind = .literal ∨ p.kind = .regex) :
    Pattern.ofValue? p.toJson = some p := by
  have hnodup : ["kind", "value", "flags"].Nodup := by decide
  have hkind : p.toJson.fieldOr? "kind" "" Json.asText? = some p.kind.name :=
    Json.fieldOr?_textField (by exact hnodup) (by simp)
  have hvalue : p.toJson.fieldOr? "value" "" Json.asText? = some p.value :=
    Json.fieldOr?_text (by exact hnodup) (by simp)
  have hflags : p.toJson.fieldOr? "flags" "" Json.asText? = some p.flags :=
    Json.fieldOr?_textField (by exact hnodup) (by simp)
  rw [Pattern.ofValue?, hkind, hvalue, hflags]
  show some (⟨.ofName p.kind.name, p.value, p.flags⟩ : Pattern) = some p
  rw [ofName_name h]

theorem withDefaults_of_name {p : Pattern} (h : p.kind.name ≠ "") : p.withDefaults = p := by
  rw [withDefaults, if_neg]
  intro hempty
  rw [hempty] at h
  exact h rfl

end Pattern

namespace PatternSpec

/-- All patterns have one of the two kinds. -/
def Kinded (s : PatternSpec) : Prop :=
  ∀ p ∈ s.anyPatterns ++ s.allPatterns, p.kind = .literal ∨ p.kind = .regex

/-- All patterns have a kind. -/
def Named (s : PatternSpec) : Prop :=
  ∀ p ∈ s.anyPatterns ++ s.allPatterns, p.kind.name ≠ ""

theorem Kinded.named {s : PatternSpec} (h : s.Kinded) : s.Named := by
  intro p hp
  rcases h p hp with hkind | hkind <;> rw [hkind] <;> decide

theorem withDefaults_of_named {s : PatternSpec} (h : s.Named) : s.withDefaults = s := by
  have hmap : ∀ l : Option (List Pattern), (∀ p ∈ l.getD [], p.kind.name ≠ "") →
      l.map (List.map Pattern.withDefaults) = l := by
    intro l hl
    cases l with
    | none => rfl
    | some l =>
        have hsame : l.map Pattern.withDefaults = l.map id :=
          List.map_congr_left fun p hp => Pattern.withDefaults_of_name (hl p hp)
        rw [Option.map_some, hsame, List.map_id]
  rw [withDefaults, hmap s.anyOf fun p hp => h p (List.mem_append_left _ hp),
    hmap s.allOf fun p hp => h p (List.mem_append_right _ hp)]

/-- A document in the canonical dialect means the patterns in it. -/
theorem normalize_source {s : PatternSpec} (hnormal : s.Normal) (hkinded : s.Kinded) :
    PatternSource.normalize (some (PatternDocument.source
      { anyOf := s.anyOf, allOf := s.allOf })) = s := by
  have hcanonical : PatternDocument.source { anyOf := s.anyOf, allOf := s.allOf } =
      .canonical s.anyPatterns s.allPatterns := by
    cases hany : s.anyOf <;> cases hall : s.allOf <;>
      simp [PatternDocument.source, anyPatterns, allPatterns, hany, hall]
  rw [hcanonical, PatternSource.normalize, anyPatterns, allPatterns,
    PatternSource.present_getD hnormal.1, PatternSource.present_getD hnormal.2]
  exact withDefaults_of_named hkinded.named

/-- Patterns are read back as they are. -/
theorem ofValue?_toJson {s : PatternSpec} (hnormal : s.Normal) (hkinded : s.Kinded) :
    PatternSpec.ofValue? s.toJson = some s := by
  have hnodup : ["anyOf", "allOf"].Nodup := by decide
  have hread : ∀ p ∈ s.anyPatterns ++ s.allPatterns,
      Json.orDefault Pattern.none Pattern.ofValue? p.toJson = some p :=
    fun p hp => Pattern.ofValue?_toJson (hkinded p hp)
  have hany : s.toJson.present? "anyOf" (Json.asList? Pattern.none Pattern.ofValue?) =
      some (PatternSource.present s.anyPatterns) :=
    Json.present?_listField (by exact hnodup) (by simp) fun p hp => hread p (List.mem_append_left _ hp)
  have hall : s.toJson.present? "allOf" (Json.asList? Pattern.none Pattern.ofValue?) =
      some (PatternSource.present s.allPatterns) :=
    Json.present?_listField (by exact hnodup) (by simp) fun p hp => hread p (List.mem_append_right _ hp)
  -- The keys of the older dialect are not written.
  have hnone : ∀ key ∉ ["anyOf", "allOf"], s.toJson.present? key Json.asTexts? = some none :=
    fun key hkey => Json.fieldOr?_ofFields_of_notMem hkey none _
  rw [PatternSpec.ofValue?, hany, hall, hnone "identifiers" (by decide),
    hnone "expressions" (by decide), hnone "sql_tables" (by decide),
    hnone "api_routes" (by decide), anyPatterns, allPatterns,
    PatternSource.present_getD hnormal.1, PatternSource.present_getD hnormal.2]
  show some (PatternSource.normalize (some (PatternDocument.source
    { anyOf := s.anyOf, allOf := s.allOf }))) = some s
  rw [normalize_source hnormal hkinded]

end PatternSpec

theorem Scope.ofValue?_toJson (s : Scope) : Scope.ofValue? s.toJson = some s.tidied := by
  have hnodup : ["include", "exclude", "when"].Nodup := by decide
  have hincludes : s.toJson.present? "include" Json.asTexts? = some (tidyList s.includes) :=
    Json.present?_texts (by exact hnodup) (by simp)
  have hexcludes : s.toJson.present? "exclude" Json.asTexts? = some (tidyList s.excludes) :=
    Json.present?_texts (by exact hnodup) (by simp)
  have hwhen : s.toJson.fieldOr? "when" "" Json.asText? = some s.condition :=
    Json.fieldOr?_textField (by exact hnodup) (by simp)
  rw [Scope.ofValue?, hincludes, hexcludes, hwhen]
  rfl

/-! ## Rules that are read back -/

theorem Severity.ofName_name : ∀ s ∈ all, ofName s.name = s := by decide

namespace Rule

/-- The patterns of a rule are as they are once a document has been normalized. -/
def Normal (r : Rule) : Prop := ∀ s ∈ r.spec :: r.expect.toList, s.Normal

/-- All patterns of a rule that can be searched for have one of the two kinds. -/
theorem Sound.kinded {r : Rule} (h : r.Sound) : ∀ s ∈ r.spec :: r.expect.toList, s.Kinded :=
  fun s hs p hp => h.kinds p (List.mem_flatMap.mpr ⟨s, hs, hp⟩)

/-- A rule is read back as it is, but for empty lists. -/
theorem ofValue?_toJson {r : Rule} (hsound : r.Sound) (hnormal : r.Normal) :
    Rule.ofValue? r.toJson = some r.tidied := by
  have hnodup : ["match", "expect", "scope", "id", "description", "severity", "category",
      "guidance", "cwe", "references"].Nodup := by decide
  have hread : ∀ s ∈ r.spec :: r.expect.toList, PatternSpec.ofValue? s.toJson = some s :=
    fun s hs => PatternSpec.ofValue?_toJson (hnormal s hs) (hsound.kinded s hs)
  have hspec : r.toJson.fieldOr? "match" {} PatternSpec.ofValue? = some r.spec :=
    (Json.fieldOr?_ofFields (o := some r.spec.toJson) (by exact hnodup) (by simp) _ _).trans
      (hread r.spec List.mem_cons_self)
  have hexpect : r.toJson.present? "expect" PatternSpec.ofValue? = some (r.expect.map fun s => s) :=
    Json.present?_ofFields (by exact hnodup) PatternSpec.toJson (fun s => s) (by simp) fun s hs =>
      ⟨nofun, hread s (List.mem_cons_of_mem _ (Option.mem_toList.mpr hs))⟩
  have hscope : r.toJson.present? "scope" Scope.ofValue? = some (r.scope.map Scope.tidied) :=
    Json.present?_ofFields (by exact hnodup) Scope.toJson Scope.tidied (by simp) fun s _ =>
      ⟨nofun, s.ofValue?_toJson⟩
  have hid : r.toJson.fieldOr? "id" "" Json.asText? = some r.id :=
    Json.fieldOr?_text (by exact hnodup) (by simp)
  have hdescription : r.toJson.fieldOr? "description" "" Json.asText? = some r.description :=
    Json.fieldOr?_text (by exact hnodup) (by simp)
  have hseverity : r.toJson.fieldOr? "severity" "" Json.asText? = some r.severity.name :=
    Json.fieldOr?_textField (by exact hnodup) (by simp)
  have hcategory : r.toJson.fieldOr? "category" "" Json.asText? = some r.category :=
    Json.fieldOr?_textField (by exact hnodup) (by simp)
  have hguidance : r.toJson.fieldOr? "guidance" "" Json.asText? = some r.guidance :=
    Json.fieldOr?_textField (by exact hnodup) (by simp)
  have hcwe : r.toJson.fieldOr? "cwe" "" Json.asText? = some r.cwe :=
    Json.fieldOr?_textField (by exact hnodup) (by simp)
  have hreferences : r.toJson.present? "references" Json.asTexts? = some (tidyList r.references) :=
    Json.present?_texts (by exact hnodup) (by simp)
  rw [Option.map_id'] at hexpect
  rw [Rule.ofValue?, hspec, hexpect, hscope, hid, hdescription, hseverity, hcategory, hguidance,
    hcwe, hreferences]
  show some (⟨r.spec, r.expect, r.scope.map Scope.tidied, r.id, r.description,
    .ofName r.severity.name, r.category, r.guidance, r.cwe, tidyList r.references⟩ : Rule) = _
  rw [Severity.ofName_name r.severity hsound.severity, tidied]

theorem withDefaults_tidied {r : Rule} (h : r.Sound) : r.tidied.withDefaults = r.tidied := by
  have hseverity : r.severity ≠ .other "" := by
    intro hnone
    have hmem := h.severity
    rw [hnone] at hmem
    revert hmem
    decide
  have hspec : r.spec.withDefaults = r.spec :=
    PatternSpec.withDefaults_of_named (h.kinded _ List.mem_cons_self).named
  have hexpect : r.expect.map PatternSpec.withDefaults = r.expect := by
    cases hs : r.expect with
    | none => rfl
    | some s =>
        have hkinded := h.kinded s (List.mem_cons_of_mem _ (Option.mem_toList.mpr hs))
        rw [Option.map_some, PatternSpec.withDefaults_of_named hkinded.named]
  rw [withDefaults, tidied]
  simp only [hspec, hexpect, if_neg hseverity]

theorem getD_tidyList {α : Type} (l : Option (List α)) : (tidyList l).getD [] = l.getD [] := by
  rw [tidyList, PatternSource.present]
  split
  · next hnil => exact (List.isEmpty_iff.mp hnil).symm
  · rfl

theorem problems_tidied (r : Rule) : r.tidied.problems = r.problems := by
  have hscope : Scope.compile (r.scope.map Scope.tidied) = Scope.compile r.scope := by
    cases r.scope with
    | none => rfl
    | some s =>
        rw [Option.map_some, Scope.compile, Scope.compile, Scope.tidied]
        simp only [getD_tidyList]
  rw [problems, problems, tidied]
  simp only [hscope]

end Rule

/-! ## Rules that are read -/

theorem PatternSpec.gives_read (n : Node) : Gives PatternSpec.Normal (PatternSpec.read n) :=
  gives_bind fun _ => gives_pure (PatternSource.normal_normalize _)

theorem gives_readSome {α : Type} {P : α → Prop} {read : Node → Reading α}
    (hread : ∀ n, Gives P (read n)) (n : Node) :
    Gives (fun o : Option α => ∀ a ∈ o, P a) (readSome read n) := by
  refine (hread n).bind fun a ha => gives_pure ?_
  rintro b ⟨⟩
  exact ha

theorem Rule.gives_normal (n : Node) : Gives Rule.Normal (Rule.read n) := by
  have hdefault : ({} : PatternSpec).Normal := ⟨nofun, nofun⟩
  refine gives_bind fun _ => ?_
  refine (gives_field hdefault PatternSpec.gives_read).bind fun spec hspec => ?_
  refine Gives.bind (gives_field (by simp) (gives_readSome PatternSpec.gives_read))
    fun expect hexpect => ?_
  iterate 8 refine gives_bind fun _ => ?_
  refine gives_pure (List.forall_mem_cons.mpr ⟨hspec, fun s hs => ?_⟩)
  exact hexpect s (Option.mem_toList.mp hs)

theorem Rule.Normal.withDefaults {r : Rule} (h : r.Normal) : r.withDefaults.Normal := by
  obtain ⟨hspec, hexpect⟩ := List.forall_mem_cons.mp h
  refine List.forall_mem_cons.mpr ⟨hspec.withDefaults, fun s hs => ?_⟩
  obtain ⟨t, ht, rfl⟩ := Option.map_eq_some_iff.mp (Option.mem_toList.mp hs)
  exact (hexpect t (Option.mem_toList.mpr ht)).withDefaults

namespace Profile

theorem gives_normal (n : Node) :
    Gives (fun p : Profile => ∀ r ∈ p.rules, r.Normal) (Profile.read n) := by
  iterate 6 refine gives_bind fun _ => ?_
  have hdefault : (default : Rule).Normal := by
    intro s hs
    rw [List.mem_singleton.mp hs]
    exact ⟨nofun, nofun⟩
  refine Gives.bind (gives_field ?_ (gives_list hdefault Rule.gives_normal)) fun rules h => ?_
  · simp
  · exact gives_pure h

theorem normal_of_load {text source : String} {p : Profile} (h : load text source = .ok p) :
    ∀ r ∈ p.rules, r.Normal := by
  obtain ⟨-, q, hread, rfl, -⟩ := load_eq_ok_iff.mp h
  intro r hr
  obtain ⟨r', hr', rfl⟩ := List.mem_map.mp hr
  rw [Document.read_eq] at hread
  rcases of_emptyAs_eq_ok hread with hread | rfl
  · exact (Yaml.of_readDocument gives_normal hread r' hr').withDefaults
  · cases hr'

/-! ## Profiles that are read back -/

theorem fieldOr?_metadataField {parts : List (String × Option Json)}
    (hnodup : (parts.map Prod.fst).Nodup) {key : String} {metadata : List (String × Json)}
    (h : (key, metadataField? metadata) ∈ parts) :
    (Json.ofFields parts).fieldOr? key [] metadataOf? =
      some (Yaml.sorted (.object metadata)).fields := by
  rw [Json.fieldOr?_ofFields hnodup h, metadataField?]
  split
  · next hempty =>
      rw [List.isEmpty_iff.mp hempty, Yaml.sorted_object, List.map_nil, List.mergeSort_nil]
      rfl
  · rfl

/-- A profile is read back as it is, but for empty lists and the order of the metadata. -/
theorem ofValue?_toJson {p : Profile} (hsound : ∀ r ∈ p.rules, r.Sound)
    (hnormal : ∀ r ∈ p.rules, r.Normal) : Profile.ofValue? p.toJson = some p.tidied := by
  have hnodup : ["metadata", "name", "description", "version", "rules"].Nodup := by decide
  have hmetadata : p.toJson.fieldOr? "metadata" [] metadataOf? = some p.tidied.metadata := by
    rw [toJson_eq]
    exact fieldOr?_metadataField (by exact hnodup) (by simp)
  have hname : p.toJson.fieldOr? "name" "" Json.asText? = some p.name := by
    rw [toJson_eq]
    exact Json.fieldOr?_text (by exact hnodup) (by simp)
  have holder : p.toJson.fieldOr? "refactor_name" "" Json.asText? = some "" := by
    rw [toJson_eq]
    exact Json.fieldOr?_ofFields_of_notMem (by simp) "" _
  have hdescription : p.toJson.fieldOr? "description" "" Json.asText? = some p.description := by
    rw [toJson_eq]
    exact Json.fieldOr?_textField (by exact hnodup) (by simp)
  have hversion : p.toJson.fieldOr? "version" "" Json.asText? = some p.version := by
    rw [toJson_eq]
    exact Json.fieldOr?_textField (by exact hnodup) (by simp)
  have hrules : p.toJson.fieldOr? "rules" [] (Json.asList? default Rule.ofValue?) =
      some p.tidied.rules := by
    rw [toJson_eq, Json.fieldOr?_ofFields (o := some (.array (p.rules.map Rule.toJson)))
      (by exact hnodup) (by simp)]
    exact Json.asList?_map fun r hr => Rule.ofValue?_toJson (hsound r hr) (hnormal r hr)
  -- The older key is not written, so it does not matter whether there is a name.
  have hsame : (if p.name = "" then "" else p.name) = p.name := by
    split
    · next hempty => exact hempty.symm
    · rfl
  rw [Profile.ofValue?, hmetadata, hname, holder, hdescription, hversion, hrules]
  show some (⟨p.tidied.metadata, if p.name = "" then "" else p.name, p.description, p.version,
    p.tidied.rules⟩ : Profile) = some p.tidied
  rw [hsame]
  rfl

theorem withDefaults_tidied {p : Profile} (h : ∀ r ∈ p.rules, r.Sound) :
    p.tidied.withDefaults = p.tidied := by
  have hrules : (p.rules.map Rule.tidied).map Rule.withDefaults = p.rules.map Rule.tidied := by
    rw [List.map_map]
    exact List.map_congr_left fun r hr => Rule.withDefaults_tidied (h r hr)
  rw [withDefaults, tidied]
  simp only [hrules]

namespace Draft

variable {f : Rule → Rule} (hid : ∀ r, (f r).id = r.id)

include hid

theorem firstUse?_map (id : String) (rules : List (Option Rule)) :
    firstUse? id (rules.map (Option.map f)) = firstUse? id rules := by
  rw [firstUse?, firstUse?, List.findIdx?_map]
  congr 1
  funext r
  cases r with
  | none => rfl
  | some r => simp [hid]

theorem ruleProblems_map (hproblems : ∀ r, (f r).problems = r.problems)
    (before : List (Option Rule)) (i : Nat) (r : Option Rule) :
    ruleProblems (before.map (Option.map f)) i (r.map f) = ruleProblems before i r := by
  cases r with
  | none => rfl
  | some r =>
      simp only [ruleProblems, Option.map_some, hproblems, hid, firstUse?_map hid]

/-- What is wrong with a draft stays the same if its rules keep their ids and problems. -/
theorem problems_map (hproblems : ∀ r, (f r).problems = r.problems) {a b : Draft}
    (hname : a.name = b.name) (hrules : a.rules = b.rules.map (Option.map f)) :
    a.problems = b.problems := by
  rw [problems, problems, hname, hrules, List.isEmpty_map, List.zipIdx_map, List.flatMap_map]
  congr 1
  refine List.flatMap_congr fun x _ => ?_
  obtain ⟨r, i⟩ := x
  show ruleProblems ((b.rules.map (Option.map f)).take i) i (r.map f) = _
  rw [← List.map_take]
  exact ruleProblems_map hid hproblems _ _ _

end Draft

theorem problems_tidied (p : Profile) : p.tidied.problems = p.problems := by
  refine Draft.problems_map (f := Rule.tidied) (fun _ => rfl) Rule.problems_tidied rfl ?_
  show (p.rules.map Rule.tidied).map some = (p.rules.map some).map (Option.map Rule.tidied)
  rw [List.map_map, List.map_map]
  rfl

/-! ## Profiles that are written down and loaded again -/

/-- What fits the schema of profiles is an object. -/
theorem exists_object_of_validate {w : Json} (h : validator.validate w = .ok ()) :
    ∃ fields, w = .object fields := by
  have hrecord : ([], Schema.profileOutline) ∈ Schema.outlines := by decide
  rw [validator_iff, Schema.admitted_of_mem hrecord] at h
  cases w with
  | object fields => exact ⟨fields, rfl⟩
  | _ => cases h

theorem exists_value_of_check {text : String} (h : Document.check validator text = .ok ()) :
    ∃ w, Yaml.read text = .ok w ∧ validator.validate w = .ok () := by
  obtain ⟨w, hvalue, hfits⟩ := bind_eq_ok_iff.mp h
  obtain ⟨fields, rfl⟩ := exists_object_of_validate (mapError_eq_ok_iff.mp hfits)
  exact ⟨_, Document.read_of_value hvalue, mapError_eq_ok_iff.mp hfits⟩

/-- In a profile that is read by its value, all weaknesses are named in the way of the schema. -/
theorem weaknessNamed_of_load {text source : String} {p : Profile} (h : load text source = .ok p)
    (hprofile : Yaml.ReadByValue text Profile.read Profile.ofValue?) :
    ∀ r ∈ p.rules, r.WeaknessNamed := by
  obtain ⟨w, hvalue, -⟩ := exists_value_of_check (load_eq_ok_iff.mp h).1
  obtain ⟨hfits, q, hq, rfl, -⟩ := (load_by_value hvalue hprofile source p).mp h
  intro r hr
  obtain ⟨r', hr', rfl⟩ := List.mem_map.mp hr
  exact weaknessNamed_of_validate hfits hq r' hr'

/-- A profile that is written down loads as it is, if it loads at all. -/
theorem load_toYaml_eq_ok_iff {text source : String} {p : Profile} (h : load text source = .ok p)
    (hwritten : Yaml.SpellsOut p.toYaml p.toJson) (source' : String) (p' : Profile) :
    load p.toYaml source' = .ok p' ↔ (∀ r ∈ p.rules, r.WeaknessNamed) ∧ p' = p.tidied := by
  have hsound := rulesSound_of_load h
  obtain ⟨-, -, -, -, hproblems⟩ := load_eq_ok_iff.mp h
  have hdefaults := withDefaults_tidied hsound.sound
  rw [load_by_value hwritten.read (hwritten.readByValue Profile.readsAs_read),
    validate_toJson_iff hsound hproblems, ofValue?_toJson hsound.sound (normal_of_load h)]
  refine and_congr_right fun _ => ?_
  constructor
  · rintro ⟨q, hq, rfl, -⟩
    obtain rfl : p.tidied = q := Option.some.inj hq
    exact hdefaults
  · rintro rfl
    exact ⟨p.tidied, rfl, hdefaults.symm, by rw [problems_tidied, hproblems]⟩

/-! ## Samples -/

/-- Whether two profiles are alike; only profiles without numbers that have a fraction are. -/
def alike (a b : Profile) : Bool :=
  (Json.object a.metadata).alike (.object b.metadata) && a.same b

theorem eq_of_profile_alike {a b : Profile} (h : a.alike b = true) : a = b := by
  obtain ⟨metadata, name, description, version, rules⟩ := a
  rw [alike, Bool.and_eq_true] at h
  obtain ⟨hmetadata, hsame⟩ := h
  simp only [same, Bool.and_eq_true, decide_eq_true_eq] at hsame
  obtain ⟨⟨⟨rfl, rfl⟩, rfl⟩, rfl⟩ := hsame
  obtain rfl := Json.object.inj (Json.eq_of_alike hmetadata)
  rfl

theorem readDocument_eq_ok {text : String} {p : Profile}
    (h : (Yaml.readDocument text Profile.read).toOption.any (·.alike p) = true) :
    Yaml.readDocument text Profile.read = .ok p := by
  obtain ⟨q, hq, halike⟩ := (Option.any_eq_true _ _).mp h
  obtain rfl := eq_of_profile_alike halike
  exact eq_ok_of_toOption hq

/-- A profile in the older dialect, with the older key for its name and an empty list. -/
def olderText : String :=
  "\x7brefactor_name: p, rules: [\x7bid: a, description: d, match: \x7bidentifiers: [x]\x7d, " ++
    "cwe: CWE-7, references: []\x7d]\x7d"

/-- The profile as a plain value. -/
def olderValue : Json :=
  .object [("refactor_name", .string "p"),
    ("rules", .array [.object [("id", .string "a"), ("description", .string "d"),
      ("match", .object [("identifiers", .array [.string "x"])]), ("cwe", .string "CWE-7"),
      ("references", .array [])]])]

/-- The profile as it is read. -/
def olderProfile : Profile :=
  { name := "p"
    rules := [{ spec := { anyOf := some [.literal "x"] }, id := "a", description := "d",
                cwe := "CWE-7", references := some [] }] }

/-- The value that is written down. -/
def newerValue : Json :=
  .object [("name", .string "p"),
    ("rules", .array [.object [("match", .object [("anyOf",
      .array [.object [("kind", .string "literal"), ("value", .string "x")]])]),
      ("id", .string "a"), ("description", .string "d"), ("severity", .string "medium"),
      ("cwe", .string "CWE-7")]])]

/-- The document that is written down. -/
def newerPage : String :=
  "name: p\nrules:\n  - match:\n      anyOf:\n        - kind: literal\n          value: x\n" ++
    "    id: a\n    description: d\n    severity: medium\n    cwe: CWE-7\n"

/-- What can be found out about the profile by evaluation. -/
theorem evaluated_older :
    Yaml.spellsOut? olderText olderValue = true ∧ Schema.admitted 10 [] olderValue = true ∧
      olderProfile.withDefaults.problems.isEmpty = true ∧
      Yaml.write newerValue = newerPage ∧ Yaml.spellsOut? newerPage newerValue = true := by
  have htext : olderText.toList = _ :=
    String.toList_append.trans (congrArg₂ _ String.toList_ofList String.toList_ofList)
  have hpage : newerPage.toList = _ :=
    String.toList_append.trans (congrArg₂ _ String.toList_ofList String.toList_ofList)
  rewrite [Yaml.spellsOut?, Yaml.spellsOut?, Yaml.load, Yaml.load, Yaml.parse, Yaml.parse,
    Yaml.tokenize_of_toList htext, Yaml.tokenize_of_toList hpage]
  decide +kernel

theorem spellsOut_olderText : Yaml.SpellsOut olderText olderValue := .of_check evaluated_older.1

theorem readByValue_olderText : Yaml.ReadByValue olderText Profile.read Profile.ofValue? :=
  spellsOut_olderText.readByValue Profile.readsAs_read

theorem load_olderText : load olderText "" = .ok olderProfile.withDefaults := by
  obtain ⟨-, hadmitted, hproblems, -⟩ := evaluated_older
  exact (load_by_value spellsOut_olderText.read readByValue_olderText "" _).mpr
    ⟨(validator_iff _).mpr hadmitted, olderProfile, rfl, rfl, List.isEmpty_iff.mp hproblems⟩

/-- A document whose last line gives the anchor `x` a new meaning. -/
def redefinedText : String :=
  "name: &x CWE-1\nrules:\n  - id: a\n    description: d\n    match: \x7b\x7d\n    cwe: *x\n" ++
    "version: &x bad\n"

/-- The document as a plain value: the alias has the meaning that was given before. -/
def redefinedValue : Json :=
  .object [("name", .string "CWE-1"),
    ("rules", .array [.object [("id", .string "a"), ("description", .string "d"),
      ("match", .object []), ("cwe", .string "CWE-1")]]),
    ("version", .string "bad")]

/-- The document as it is read: the alias has the meaning that is given last. -/
def redefinedProfile : Profile :=
  { name := "CWE-1"
    version := "bad"
    rules := [{ id := "a", description := "d", cwe := "bad" }] }

/-- The value that is written down. -/
def refusedValue : Json :=
  .object [("name", .string "CWE-1"), ("version", .string "bad"),
    ("rules", .array [.object [("match", .object []), ("id", .string "a"),
      ("description", .string "d"), ("severity", .string "medium"), ("cwe", .string "bad")]])]

/-- The document that is written down. -/
def refusedPage : String :=
  "name: CWE-1\nversion: bad\nrules:\n  - match: \x7b\x7d\n    id: a\n    description: d\n" ++
    "    severity: medium\n    cwe: bad\n"

/-- What can be found out about the document by evaluation. -/
theorem evaluated_redefined :
    ((Yaml.read redefinedText).toOption.any (·.alike redefinedValue) = true ∧
      (Yaml.readDocument redefinedText Profile.read).toOption.any (·.alike redefinedProfile) =
        true ∧
      Schema.admitted 10 [] redefinedValue = true ∧
      redefinedProfile.withDefaults.problems.isEmpty = true) ∧
    (Yaml.write refusedValue = refusedPage ∧ Yaml.spellsOut? refusedPage refusedValue = true) ∧
    Schema.patternMatches Schema.weaknessPattern (Text.decode (Text.bytesOf "bad")) = false := by
  have htext : redefinedText.toList = _ :=
    String.toList_append.trans (congrArg₂ _ String.toList_ofList String.toList_ofList)
  have hpage : refusedPage.toList = _ :=
    String.toList_append.trans (congrArg₂ _ String.toList_ofList String.toList_ofList)
  rewrite [Yaml.read, Yaml.readDocument, Yaml.spellsOut?, Yaml.load, Yaml.load, Yaml.parse,
    Yaml.parse, Yaml.tokenize_of_toList htext, Yaml.tokenize_of_toList hpage]
  decide +kernel

theorem load_redefinedText : load redefinedText "" = .ok redefinedProfile.withDefaults := by
  obtain ⟨⟨hvalue, hread, hadmitted, hproblems⟩, -⟩ := evaluated_redefined
  have hvalue := Yaml.read_eq_ok hvalue
  refine load_eq_ok_iff.mpr ⟨?_, redefinedProfile, ?_, rfl, List.isEmpty_iff.mp hproblems⟩
  · exact (Document.check_eq_ok_iff hvalue).mpr ((validator_iff _).mpr hadmitted)
  · exact (Document.read_eq_ok_iff hvalue).mpr (readDocument_eq_ok hread)

/-! ## Both ways -/

/-- **A profile that is written down comes back as it is, unless it is refused, and it is refused
exactly if a rule names its weakness in a way the schema does not know.**  Only a document that is
not read by its value can have such a rule. -/
theorem load_toYaml {text source : String} {p : Profile} (h : load text source = .ok p)
    (hwritten : Yaml.SpellsOut p.toYaml p.toJson) (source' : String) :
    (∀ p', load p.toYaml source' = .ok p' → p' = p.tidied) ∧
      ((∃ p', load p.toYaml source' = .ok p') ↔ ∀ r ∈ p.rules, r.WeaknessNamed) ∧
      (Yaml.ReadByValue text Profile.read Profile.ofValue? →
        load p.toYaml source' = .ok p.tidied) := by
  have hiff := load_toYaml_eq_ok_iff h hwritten source'
  refine ⟨fun p' hp' => ((hiff p').mp hp').2, ?_, fun hprofile => ?_⟩
  · constructor
    · rintro ⟨p', hp'⟩
      exact ((hiff p').mp hp').1
    · intro hnamed
      exact ⟨p.tidied, (hiff _).mpr ⟨hnamed, rfl⟩⟩
  · exact (hiff _).mpr ⟨weaknessNamed_of_load h hprofile, rfl⟩

theorem load_toYaml_older :
    load olderText "" = .ok olderProfile.withDefaults ∧
      Yaml.SpellsOut olderProfile.withDefaults.toYaml olderProfile.withDefaults.toJson ∧
      Yaml.ReadByValue olderText Profile.read Profile.ofValue? ∧
      load olderProfile.withDefaults.toYaml "" = .ok olderProfile.withDefaults.tidied := by
  obtain ⟨-, -, -, hpage, hspells⟩ := evaluated_older
  have hwritten : Yaml.SpellsOut olderProfile.withDefaults.toYaml
      olderProfile.withDefaults.toJson := by
    rw [show olderProfile.withDefaults.toYaml = newerPage from hpage]
    exact .of_check hspells
  have hloads := (load_toYaml load_olderText hwritten "").2.2 readByValue_olderText
  exact ⟨load_olderText, hwritten, readByValue_olderText, hloads⟩

/-- The profile of a document that gives an anchor a new meaning loads, and what is written down of
it is refused: the schema sees a weakness that is not the one that is read. -/
theorem load_toYaml_redefined :
    load redefinedText "" = .ok redefinedProfile.withDefaults ∧
      Yaml.SpellsOut redefinedProfile.withDefaults.toYaml redefinedProfile.withDefaults.toJson ∧
      ∀ source p, load redefinedProfile.withDefaults.toYaml source ≠ .ok p := by
  obtain ⟨-, ⟨hpage, hspells⟩, hpattern⟩ := evaluated_redefined
  have hwritten : Yaml.SpellsOut redefinedProfile.withDefaults.toYaml
      redefinedProfile.withDefaults.toJson := by
    rw [show redefinedProfile.withDefaults.toYaml = refusedPage from hpage]
    exact .of_check hspells
  refine ⟨load_redefinedText, hwritten, fun source p hload => ?_⟩
  have hnamed := ((load_toYaml_eq_ok_iff load_redefinedText hwritten source p).mp hload).1
  rcases hnamed _ List.mem_cons_self with hempty | hnames
  · exact absurd hempty (by decide)
  · exact Bool.false_ne_true (hpattern.symm.trans hnames)

end Profile

end RuleScan
