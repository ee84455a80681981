import RuleScan.Proofs.Profile.Loading
import RuleScan.Proofs.Yaml.Spelled

/-!
# Documents that are read by their values

A document that spells out its value is read into a record by that value alone: whatever stands
where, a field of the record is what the field of the value is read as (`Rule.readsAs_read`,
`Profile.readsAs_read`, `Yaml.SpellsOut.readByValue`).  So what is assumed of a document
where it matters how it is read (`Yaml.ReadByValue`) holds of all that are written without anchors,
tags and maps that are merged in.

The steps of reading and the decoders of values are compared one by one, up to what a refusal says:
`Reads` compares a step with what a decoder gives, `ReadsAs` does so for all nodes.
-/

namespace RuleScan

open RuleScan.Yaml (Node Reading Source Spells SpellsField)

namespace Yaml.Reading

variable {α β : Type} {s : Source} {n : Node} {v : Json}

/-- A step gives what a decoder gives; what a refusal says does not count. -/
def Reads (s : Source) (x : Reading α) (o : Option α) : Prop := (x s).toOption = o

/-- Nodes are read as what they spell out is. -/
def ReadsAs (s : Source) (read : Node → Reading α) (decode : Json → Option α) : Prop :=
  ∀ n v, Spells s n v → Reads s (read n) (decode v)

/-! ## Steps -/

theorem reads_pure (s : Source) (a : α) : Reads s (pure a) (some a) := rfl

theorem reads_bind_ok {x : Reading α} {f : α → Reading β} {a : α} {o : Option β} (hx : x s = .ok a)
    (hf : Reads s (f a) o) : Reads s (x >>= f) o := by
  rw [Reads] at hf ⊢
  simp only [Bind.bind, hx]
  exact hf

theorem reads_bind_error {x : Reading α} (hx : ∃ e, x s = .error e) (f : α → Reading β) :
    Reads s (x >>= f) none := by
  obtain ⟨e, he⟩ := hx
  rw [Reads]
  simp only [Bind.bind, he]
  rfl

theorem Reads.bind {x : Reading α} {f : α → Reading β} {o : Option α} {g : α → Option β}
    (hx : Reads s x o) (hf : ∀ a, o = some a → Reads s (f a) (g a)) :
    Reads s (x >>= f) (o >>= g) := by
  rw [Reads] at hx ⊢
  simp only [Bind.bind]
  cases h : x s with
  | error e =>
      rw [h] at hx
      rw [← hx]
      rfl
  | ok a =>
      rw [h] at hx
      rw [← hx]
      exact hf a hx.symm

theorem Reads.inField {x : Reading α} {o : Option α} (h : Reads s x o) (record name : String) :
    Reads s (Reading.inField record name x) o := by
  rw [Reads] at h ⊢
  rw [← h, Reading.inField]
  split
  · next hx => rw [hx]; rfl
  · rfl

/-! ## Texts and lists -/

theorem readsAs_text (s : Source) (typeName : String) :
    ReadsAs s (Reading.text typeName) Json.asText? := by
  intro n v h
  rw [Reading.text, h.resolve, Reads]
  simp only [Bind.bind, pure, h.value]
  cases v <;> rfl

theorem readsAs_readSome {read : Node → Reading α} {decode : Json → Option α}
    (hread : ReadsAs s read decode) :
    ReadsAs s (readSome read) fun v => (decode v).map some := by
  intro n v h
  have hmap : (decode v).map some = decode v >>= fun a => some (some a) := by
    cases decode v <;> rfl
  show Reads s (readSome read n) ((decode v).map some)
  rw [hmap]
  exact (hread n v h).bind fun a _ => reads_pure s (some a)

/-- Null stands for the default, whatever comes next. -/
theorem reads_default {read : Node → Reading α} {decode : Json → Option α}
    (hread : ReadsAs s read decode) (h : Spells s n v) (default : α) {f : α → Reading β}
    {g : α → Option β} (hf : ∀ a, Reads s (f a) (g a)) :
    Reads s (do if ← isNull n then f default else read n >>= f)
      (v.orDefault default decode >>= g) := by
  have hstep : (do if ← isNull n then f default else read n >>= f : Reading β) s =
      (if Yaml.nullValue v then f default else read n >>= f) s := by
    simp only [Bind.bind, h.isNull]
  rw [Reads, hstep]
  cases v with
  | null => exact hf default
  | _ => exact (hread n _ h).bind fun a _ => hf a

theorem reads_go {read : Node → Reading α} {decode : Json → Option α}
    (hread : ReadsAs s read decode) (null : α) {ns : List Node} {vs : List Json}
    (h : List.Forall₂ (Spells s) ns vs) :
    Reads s (list.go null read ns) (vs.mapM (Json.orDefault null decode)) := by
  induction h with
  | nil => exact reads_pure s []
  | @cons n v ns vs hn _ ih =>
      rw [list.go, List.mapM_cons]
      exact reads_default hread hn null fun a => ih.bind fun l _ => reads_pure s (a :: l)

theorem readsAs_list {read : Node → Reading α} {decode : Json → Option α}
    (hread : ReadsAs s read decode) (null : α) :
    ReadsAs s (Reading.list null read) (Json.asList? null decode) := by
  intro n v h
  rw [Reading.list]
  by_cases hv : ∃ vs, v = .array vs
  · obtain ⟨vs, rfl⟩ := hv
    obtain ⟨ns, hns, hall⟩ := h.elements_array
    exact reads_bind_ok hns (reads_go hread null hall)
  · have herror := h.elements_error fun vs hvs => hv ⟨vs, hvs⟩
    have hnone : Json.asList? null decode v = none := by
      cases v with
      | array vs => exact absurd ⟨vs, rfl⟩ hv
      | _ => rfl
    rw [hnone]
    exact reads_bind_error herror _

/-! ## Fields -/

/-- The fields that were found are those that are spelled out, in whatever order. -/
def Finds (s : Source) (fs : Fields) (fields : List (String × Json)) : Prop :=
  ∀ key, (fs.find? (·.1 = key) = none ∧ fields.find? (·.1 = key) = none) ∨
    ∃ n v, fs.find? (·.1 = key) = some (key, n) ∧ fields.find? (·.1 = key) = some (key, v) ∧
      Spells s n v

theorem finds_nil (s : Source) : Finds s [] [] := fun _ => .inl ⟨rfl, rfl⟩

/-- A field with a new name may be found first and stand last. -/
theorem Finds.add {fs : Fields} {fields : List (String × Json)} (h : Finds s fs fields)
    {name : String} (hnew : name ∉ fields.map Prod.fst) (hn : Spells s n v) :
    Finds s ((name, n) :: fs) (fields ++ [(name, v)]) := by
  intro key
  by_cases hkey : name = key
  · subst hkey
    have hnone : fields.find? (·.1 = name) = none := by
      rw [List.find?_eq_none]
      intro f hf hname
      exact hnew (List.mem_map.mpr ⟨f, hf, of_decide_eq_true hname⟩)
    exact .inr ⟨n, v, by simp, by simp [hnone], hn⟩
  · rw [List.find?_cons_of_neg (by simpa using hkey), List.find?_append]
    have hlast : [(name, v)].find? (fun f => decide (f.1 = key)) = none := by simp [hkey]
    rw [hlast, Option.or_none]
    exact h key

/-- What was found has a name that is spelled out. -/
theorem Finds.notMem {fs : Fields} {fields : List (String × Json)} (h : Finds s fs fields)
    {name : String} (hnew : name ∉ fields.map Prod.fst) : name ∉ fs.map Prod.fst := by
  intro hmem
  obtain ⟨f, hf, hname⟩ := List.mem_map.mp hmem
  rcases h name with ⟨hnone, -⟩ | ⟨n, v, -, hsome, -⟩
  · exact absurd (List.find?_eq_none.mp hnone f hf) (by simpa using hname)
  · exact hnew (List.mem_map.mpr ⟨_, List.mem_of_find?_eq_some hsome, rfl⟩)

theorem checkNew_ok {seen : List String} {name : String} (h : name ∉ seen) (n : Node) :
    checkNew seen name n = pure () := by
  rw [checkNew, if_neg]
  simpa using h

/-- All fields are found, by induction on the entries that are left. -/
theorem exists_fieldsOf {es : List (Node × Node)} {fields : List (String × Json)}
    (h : List.Forall₂ (SpellsField s) es fields) {fuel : Nat} (hfuel : es.length ≤ fuel)
    {found : Fields} {done : List (String × Json)} (hfound : Finds s found done)
    (hnodup : ((done ++ fields).map Prod.fst).Nodup) :
    ∃ fs, fieldsOf fuel es found s = .ok fs ∧ Finds s fs (done ++ fields) := by
  induction h generalizing fuel found done with
  | nil =>
      refine ⟨found, ?_, by rwa [List.append_nil]⟩
      cases fuel <;> rfl
  | @cons e f es fields he _ ih =>
      obtain ⟨k, n⟩ := e
      obtain ⟨name, v⟩ := f
      obtain ⟨hk, hn⟩ : Spells s k (.string name) ∧ Spells s n v := he
      cases fuel with
      | zero => cases hfuel
      | succ fuel =>
          have hnew := Yaml.notMem_of_nodup hnodup
          rw [List.append_cons] at hnodup ⊢
          obtain ⟨fs, hfs, hfinds⟩ := ih (Nat.le_of_succ_le_succ hfuel) (hfound.add hnew hn)
            hnodup
          refine ⟨fs, ?_, hfinds⟩
          have hmerge : isMergeKey k s = .ok false :=
            congrArg Except.ok (Yaml.isMerge_of_spelled hk)
          have hcheck := checkNew_ok (hfound.notMem hnew) k
          rw [fieldsOf]
          simp only [Bind.bind, hmerge]
          rw [if_neg Bool.false_ne_true]
          simp only [hk.value, hcheck]
          exact hfs

theorem exists_fields {fields : List (String × Json)} (h : Spells s n (.object fields)) :
    ∃ fs, Reading.fields n s = .ok fs ∧ Finds s fs fields := by
  obtain ⟨es, hes, hall, hlength, hnodup⟩ := h.entries_object
  obtain ⟨fs, hfs, hfinds⟩ := exists_fieldsOf hall (Nat.le_of_lt hlength) (finds_nil s) hnodup
  refine ⟨fs, ?_, hfinds⟩
  rw [Reading.fields]
  simp only [Bind.bind, hes]
  exact hfs

theorem fields_error (h : Spells s n v) (hv : ∀ fields, v ≠ .object fields) :
    ∃ e, Reading.fields n s = .error e := by
  obtain ⟨e, he⟩ := h.entries_error hv
  refine ⟨e, ?_⟩
  rw [Reading.fields]
  simp only [Bind.bind, he]

/-- A field is read as what the field of the value is read as. -/
theorem reads_field {fs : Fields} {fields : List (String × Json)} (hfs : Finds s fs fields)
    {read : Node → Reading α} {decode : Json → Option α} (hread : ReadsAs s read decode)
    (record name key : String) (default : α) :
    Reads s (Reading.field fs record name key default read)
      (Json.fieldOr? key default decode (.object fields)) := by
  rw [Reading.field, Json.fieldOr?]
  rcases hfs key with ⟨hnone, hnone'⟩ | ⟨n, v, hsome, hsome', hn⟩
  · rw [hnone, hnone']
    exact reads_pure s default
  · rw [hsome, hsome']
    have hnull : inField record name (isNull n) s = .ok (Yaml.nullValue v) := by
      rw [inField, hn.isNull]
    refine reads_bind_ok hnull ?_
    cases v with
    | null => exact reads_pure s default
    | _ => exact (hread n _ hn).inField record name

/-- A record is read from the fields that are spelled out, and only objects are. -/
theorem readsAs_record {body : Fields → Reading α} {decode : Json → Option α}
    (hbody : ∀ fs fields, Finds s fs fields → Reads s (body fs) (decode (.object fields)))
    (hother : ∀ v, (∀ fields, v ≠ .object fields) → decode v = none) :
    ReadsAs s (fun n => do body (← Reading.fields n)) decode := by
  intro n v h
  by_cases hv : ∃ fields, v = .object fields
  · obtain ⟨fields, rfl⟩ := hv
    obtain ⟨fs, hfs, hfinds⟩ := exists_fields h
    exact reads_bind_ok hfs (hbody fs fields hfinds)
  · have hnot : ∀ fields, v ≠ .object fields := fun fields hfields => hv ⟨fields, hfields⟩
    rw [hother v hnot]
    exact reads_bind_error (fields_error h hnot) _

end Yaml.Reading

open Yaml.Reading

variable {s : Source}

/-! ## Rules -/

theorem fieldOr?_eq_none {α : Type} {v : Json} (hv : ∀ fields, v ≠ .object fields) (key : String)
    (default : α) (decode : Json → Option α) : v.fieldOr? key default decode = none := by
  cases v with
  | object fields => exact absurd rfl (hv fields)
  | _ => rfl

theorem readsAs_texts (s : Source) : ReadsAs s readTexts Json.asTexts? :=
  readsAs_list (readsAs_text s "string") ""

theorem Pattern.readsAs_read (s : Source) : ReadsAs s Pattern.read Pattern.ofValue? := by
  refine readsAs_record (fun fs fields hfs => ?_) fun v hv => ?_
  · refine (reads_field hfs (readsAs_text s _) _ _ _ _).bind fun kind _ => ?_
    refine (reads_field hfs (readsAs_text s _) _ _ _ _).bind fun value _ => ?_
    refine (reads_field hfs (readsAs_text s _) _ _ _ _).bind fun flags _ => ?_
    exact reads_pure s _
  · rw [Pattern.ofValue?, fieldOr?_eq_none hv]
    rfl

/-- What a value is read as in the place of a pattern document. -/
def PatternDocument.ofValue? (v : Json) : Option PatternDocument := do
  let patterns := Json.asList? Pattern.none Pattern.ofValue?
  let anyOf ← v.present? "anyOf" patterns
  let allOf ← v.present? "allOf" patterns
  let identifiers ← v.present? "identifiers" Json.asTexts?
  let expressions ← v.present? "expressions" Json.asTexts?
  let sqlTables ← v.present? "sql_tables" Json.asTexts?
  let apiRoutes ← v.present? "api_routes" Json.asTexts?
  return { anyOf, allOf, identifiers, expressions, sqlTables, apiRoutes }

theorem PatternDocument.readsAs_read (s : Source) :
    ReadsAs s PatternDocument.read PatternDocument.ofValue? := by
  have hpatterns := readsAs_readSome (readsAs_list (Pattern.readsAs_read s) Pattern.none)
  have htexts := readsAs_readSome (readsAs_texts s)
  refine readsAs_record (fun fs fields hfs => ?_) fun v hv => ?_
  · refine (reads_field hfs hpatterns _ _ _ _).bind fun anyOf _ => ?_
    refine (reads_field hfs hpatterns _ _ _ _).bind fun allOf _ => ?_
    refine (reads_field hfs htexts _ _ _ _).bind fun identifiers _ => ?_
    refine (reads_field hfs htexts _ _ _ _).bind fun expressions _ => ?_
    refine (reads_field hfs htexts _ _ _ _).bind fun sqlTables _ => ?_
    refine (reads_field hfs htexts _ _ _ _).bind fun apiRoutes _ => ?_
    exact reads_pure s _
  · rw [PatternDocument.ofValue?, Json.present?, fieldOr?_eq_none hv]
    rfl

theorem PatternSpec.ofValue?_eq (v : Json) : PatternSpec.ofValue? v =
    PatternDocument.ofValue? v >>= fun d => some (PatternSource.normalize (some d.source)) := by
  rw [PatternSpec.ofValue?, PatternDocument.ofValue?]
  simp only [bind_assoc]
  rfl

theorem PatternSpec.readsAs_read (s : Source) : ReadsAs s PatternSpec.read PatternSpec.ofValue? := by
  intro n v h
  rw [PatternSpec.ofValue?_eq]
  exact (PatternDocument.readsAs_read s n v h).bind fun d _ => reads_pure s _

theorem Scope.readsAs_read (s : Source) : ReadsAs s Scope.read Scope.ofValue? := by
  have htexts := readsAs_readSome (readsAs_texts s)
  refine readsAs_record (fun fs fields hfs => ?_) fun v hv => ?_
  · refine (reads_field hfs htexts _ _ _ _).bind fun includes _ => ?_
    refine (reads_field hfs htexts _ _ _ _).bind fun excludes _ => ?_
    refine (reads_field hfs (readsAs_text s _) _ _ _ _).bind fun condition _ => ?_
    exact reads_pure s _
  · rw [Scope.ofValue?, Json.present?, fieldOr?_eq_none hv]
    rfl

theorem Rule.readsAs_read (s : Source) : ReadsAs s Rule.read Rule.ofValue? := by
  have hspec := PatternSpec.readsAs_read s
  refine readsAs_record (fun fs fields hfs => ?_) fun v hv => ?_
  · refine (reads_field hfs hspec _ _ _ _).bind fun spec _ => ?_
    refine (reads_field hfs (readsAs_readSome hspec) _ _ _ _).bind fun expect _ => ?_
    refine (reads_field hfs (readsAs_readSome (Scope.readsAs_read s)) _ _ _ _).bind
      fun scope _ => ?_
    iterate 6 refine (reads_field hfs (readsAs_text s _) _ _ _ _).bind fun _ _ => ?_
    refine (reads_field hfs (readsAs_readSome (readsAs_texts s)) _ _ _ _).bind
      fun references _ => ?_
    exact reads_pure s _
  · rw [Rule.ofValue?, fieldOr?_eq_none hv]
    rfl

/-! ## Profiles -/

namespace Profile

/-- All entries of the metadata are read, by induction on those that are left. -/
theorem metadataEntries_of_spelled {es : List (Node × Node)} {fields : List (String × Json)}
    (h : List.Forall₂ (SpellsField s) es fields) {fuel : Nat} (hfuel : es.length ≤ fuel)
    {seen : List String} {done : List (String × Json)} (hseen : ∀ name ∈ seen,
      name ∈ done.map Prod.fst) (hnodup : ((done ++ fields).map Prod.fst).Nodup) :
    metadataEntries fuel es seen done s = .ok (done ++ fields) := by
  induction h generalizing fuel seen done with
  | nil =>
      rw [List.append_nil]
      cases fuel <;> rfl
  | @cons e f es fields he _ ih =>
      obtain ⟨k, n⟩ := e
      obtain ⟨name, v⟩ := f
      obtain ⟨hk, hn⟩ : Spells s k (.string name) ∧ Spells s n v := he
      cases fuel with
      | zero => cases hfuel
      | succ fuel =>
          have hnew := Yaml.notMem_of_nodup hnodup
          rw [List.append_cons] at hnodup ⊢
          have hnames : ∀ other ∈ name :: seen, other ∈ (done ++ [(name, v)]).map Prod.fst := by
            intro other hother
            rw [List.map_append, List.mem_append]
            rcases List.mem_cons.mp hother with rfl | hother
            · exact .inr List.mem_cons_self
            · exact .inl (hseen other hother)
          have hrest := ih (Nat.le_of_succ_le_succ hfuel) hnames hnodup
          have hmerge : isMergeKey k s = .ok false :=
            congrArg Except.ok (Yaml.isMerge_of_spelled hk)
          have hkey : metadataKey k s = .ok name := by
            rw [metadataKey]
            simp only [Bind.bind, hk.value]
            rfl
          have hcheck := checkNew_ok (fun hmem => hnew (hseen name hmem)) k
          rw [metadataEntries]
          simp only [Bind.bind, hmerge]
          rw [if_neg Bool.false_ne_true]
          simp only [hkey, hcheck, hn.value]
          rw [← hrest, ← Yaml.setField_of_notMem hnew]
          rfl

theorem readsAs_readMetadata (s : Source) : ReadsAs s readMetadata metadataOf? := by
  intro n v h
  by_cases hv : ∃ fields, v = .object fields
  · obtain ⟨fields, rfl⟩ := hv
    obtain ⟨es, hes, hall, hlength, hnodup⟩ := h.entries_object
    have hread : metadataEntries (Yaml.depthOf s.tokens) es [] [] s = .ok fields :=
      metadataEntries_of_spelled hall (Nat.le_of_lt hlength) (by simp) hnodup
    rw [Reads, readMetadata]
    simp only [Bind.bind, hes, hread]
    rfl
  · obtain ⟨e, he⟩ := h.entries_error fun fields hfields => hv ⟨fields, hfields⟩
    rw [Reads, readMetadata]
    simp only [Bind.bind, he]
    cases v with
    | object fields => exact absurd ⟨fields, rfl⟩ hv
    | _ => rfl

theorem readsAs_read (s : Source) : ReadsAs s Profile.read Profile.ofValue? := by
  refine readsAs_record (fun fs fields hfs => ?_) fun v hv => ?_
  · refine (reads_field hfs (readsAs_readMetadata s) _ _ _ _).bind fun metadata _ => ?_
    iterate 4 refine (reads_field hfs (readsAs_text s _) _ _ _ _).bind fun _ _ => ?_
    refine (reads_field hfs (readsAs_list (Rule.readsAs_read s) default) _ _ _ _).bind
      fun rules _ => ?_
    exact reads_pure s _
  · rw [Profile.ofValue?, fieldOr?_eq_none hv]
    rfl

end Profile

/-! ## Documents -/

/-- A document that spells out its value is read by it. -/
theorem Yaml.SpellsOut.readByValue {α : Type} {text : String} {v : Json}
    (h : Yaml.SpellsOut text v) {read : Node → Reading α} {decode : Json → Option α}
    (hread : ∀ s, ReadsAs s read decode) : Yaml.ReadByValue text read decode := by
  intro w hw a
  obtain rfl : v = w := Except.ok.inj (h.read.symm.trans hw)
  obtain ⟨s, n, hspells, hsame⟩ := h.readDocument read
  have hdecode : (Yaml.readDocument text read).toOption = decode v := by
    rw [hsame]
    exact hread s n v hspells
  constructor
  · intro ha
    rw [← hdecode, ha]
    rfl
  · intro ha
    rw [ha] at hdecode
    exact eq_ok_of_toOption hdecode

namespace Yaml

/-- Whether a document spells out a value; only values without numbers that have a fraction are
found. -/
def spellsOut? (text : String) (v : Json) : Bool :=
  (load text).toOption.any fun loaded => loaded.documents.head?.any fun (n, w) =>
    w.alike v && (spelled? loaded.tokens (depthOf loaded.tokens) n).any (·.alike v)

theorem SpellsOut.of_check {text : String} {v : Json} (h : spellsOut? text v = true) :
    SpellsOut text v := by
  obtain ⟨loaded, hload, h⟩ := (Option.any_eq_true _ _).mp h
  obtain ⟨⟨n, w⟩, hhead, h⟩ := (Option.any_eq_true _ _).mp h
  obtain ⟨hvalue, hspelled⟩ := Bool.and_eq_true_iff.mp h
  obtain ⟨u, hu, hspelled⟩ := (Option.any_eq_true _ _).mp hspelled
  obtain rfl := Json.eq_of_alike hvalue
  obtain rfl := Json.eq_of_alike hspelled
  exact ⟨loaded, n, eq_ok_of_toOption hload, hhead, hu⟩

end Yaml

end RuleScan
