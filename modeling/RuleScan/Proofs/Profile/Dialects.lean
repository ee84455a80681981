import RuleScan.Engine.Evaluate
import RuleScan.Proofs.Profile.Roundtrip

/-!
# The two dialects of patterns

The patterns of a rule are written in one of two dialects and kept in one form.

## What is proved

  * `PatternDocument.named_spec` — whatever the document, every pattern that is kept has a kind;
  * `PatternDocument.spec_congr` — the older keys do not count next to the newer ones;
  * `PatternDocument.spec_of_older` — and alone they mean their entries in order, some as fixed
    texts and some as expressions;
  * `PatternSource.normalize_source_normalize` — what is kept means itself;
  * `Rule.ofValue?_replaced` — so a rule is read the same from patterns in the older dialect and
    from the patterns that are kept, written down;
  * `PatternDocument.spec_canonical` — all of this together, for rules that are evaluated.

## What it takes to be read the same

A field of a rule counts through what is read of it and through nothing else, wherever it stands
among the others (`Json.fieldOr?_replaced`).  The dialects can be exchanged for this reason.
-/

namespace RuleScan

open RuleScan.Yaml (Node Reading)

/-- The patterns that a document means. -/
def PatternDocument.spec (d : PatternDocument) : PatternSpec :=
  PatternSource.normalize (some d.source)

/-- Patterns as a document in the newer dialect. -/
def PatternSpec.document (s : PatternSpec) : PatternDocument :=
  { anyOf := s.anyOf, allOf := s.allOf }

/-! ## Kinds -/

theorem Pattern.name_withDefaults (p : Pattern) : p.withDefaults.kind.name ≠ "" := by
  rw [withDefaults]
  split
  · show Kind.literal.name ≠ ""
    decide
  · next hkind =>
      intro hname
      cases hk : p.kind with
      | other name =>
          rw [hk] at hkind hname
          exact hkind (congrArg Kind.other hname)
      | _ =>
          rw [hk] at hname
          revert hname
          decide

theorem PatternSpec.named_withDefaults (s : PatternSpec) : s.withDefaults.Named := by
  have hlist : ∀ l : Option (List Pattern),
      ∀ p ∈ (l.map (·.map Pattern.withDefaults)).getD [], p.kind.name ≠ "" := by
    intro l p hp
    cases l with
    | none => cases hp
    | some l =>
        obtain ⟨q, -, rfl⟩ := List.mem_map.mp hp
        exact q.name_withDefaults
  intro p hp
  rcases List.mem_append.mp hp with hp | hp
  · exact hlist s.anyOf p hp
  · exact hlist s.allOf p hp

/-! ## The older dialect -/

namespace PatternSource

theorem getD_present {α : Type} (l : List α) : (present l).getD [] = l :=
  Rule.getD_tidyList (some l)

theorem kinded_legacy (identifiers expressions tables routes : List String) :
    (normalize (some (.legacy identifiers expressions tables routes))).Kinded := by
  intro p hp
  simp only [normalize, PatternSpec.anyPatterns, PatternSpec.allPatterns, getD_present,
    Option.getD_none, List.append_nil, List.mem_append, List.mem_map] at hp
  obtain ((⟨v, -, rfl⟩ | ⟨v, -, rfl⟩) | ⟨v, -, rfl⟩) | ⟨v, -, rfl⟩ := hp
  · exact .inl rfl
  · exact .inr rfl
  · exact .inl rfl
  · exact .inr rfl

theorem named_normalize (src : Option PatternSource) : (normalize src).Named := by
  rcases src with _ | ⟨anyOf, allOf⟩ | ⟨identifiers, expressions, tables, routes⟩
  · intro p hp
    cases hp
  · exact PatternSpec.named_withDefaults _
  · exact (kinded_legacy identifiers expressions tables routes).named

/-- What is kept means itself. -/
theorem normalize_source_normalize (src : Option PatternSource) :
    normalize (some (normalize src).source) = normalize src := by
  have hnormal := normal_normalize src
  rw [PatternSpec.source, normalize, PatternSpec.anyPatterns, PatternSpec.allPatterns,
    present_getD hnormal.1, present_getD hnormal.2]
  exact PatternSpec.withDefaults_of_named (named_normalize src)

end PatternSource

/-! ## Documents in either dialect -/

/-- A document in the newer dialect. -/
def PatternDocument.Newer (d : PatternDocument) : Prop := d.anyOf.isSome ∨ d.allOf.isSome

namespace PatternDocument

theorem source_of_newer {d : PatternDocument} (h : d.Newer) :
    d.source = .canonical (d.anyOf.getD []) (d.allOf.getD []) := by
  rw [source, if_pos]
  simpa [Newer] using h

/-- The older keys do not count next to the newer ones. -/
theorem spec_congr {d d' : PatternDocument} (h : d.Newer) (hany : d'.anyOf = d.anyOf)
    (hall : d'.allOf = d.allOf) : d'.spec = d.spec := by
  have h' : d'.Newer := by rwa [Newer, hany, hall]
  rw [spec, spec, source_of_newer h, source_of_newer h', hany, hall]

/-- The older keys alone mean their entries in order. -/
theorem spec_of_older {d : PatternDocument} (h : ¬ d.Newer) :
    d.spec.anyPatterns = (d.identifiers.getD []).map (⟨.literal, ·, ""⟩) ++
        (d.expressions.getD []).map (⟨.regex, ·, ""⟩) ++
        (d.sqlTables.getD []).map (⟨.literal, ·, ""⟩) ++
        (d.apiRoutes.getD []).map (⟨.regex, ·, ""⟩) ∧
      d.spec.allPatterns = [] := by
  rw [Newer, not_or] at h
  rw [spec, source, if_neg (by simpa using h)]
  split
  · next hnone =>
      simp only [Bool.and_eq_true, Option.isNone_iff_eq_none] at hnone
      obtain ⟨⟨⟨hidentifiers, hexpressions⟩, htables⟩, hroutes⟩ := hnone
      rw [hidentifiers, hexpressions, htables, hroutes]
      exact ⟨rfl, rfl⟩
  · exact ⟨PatternSource.getD_present _, rfl⟩

/-- And they have the two kinds. -/
theorem kinded_of_older {d : PatternDocument} (h : ¬ d.Newer) : d.spec.Kinded := by
  rw [Newer, not_or] at h
  rw [spec, source, if_neg (by simpa using h)]
  split
  · intro p hp
    cases hp
  · exact PatternSource.kinded_legacy _ _ _ _

end PatternDocument

/-- Patterns in the newer dialect mean themselves. -/
theorem PatternSpec.spec_document (s : PatternSpec) :
    s.document.spec = PatternSource.normalize (some s.source) := by
  cases hany : s.anyOf <;> cases hall : s.allOf <;>
    simp [PatternDocument.spec, PatternDocument.source, document, source, anyPatterns, allPatterns,
      hany, hall]

/-! ## Rules in either dialect -/

/-- A field counts through what is read of it, wherever it stands. -/
theorem Json.fieldOr?_replaced {α : Type} {before behind : List (String × Json)}
    {key name : String} {v v' : Json} {default : α} {decode : Json → Option α}
    (h : name = key → orDefault default decode v = orDefault default decode v') :
    (object (before ++ (key, v) :: behind)).fieldOr? name default decode =
      (object (before ++ (key, v') :: behind)).fieldOr? name default decode := by
  rw [fieldOr?_object, fieldOr?_object, List.find?_append, List.find?_append]
  cases before.find? (·.1 = name) with
  | some f => rfl
  | none =>
      by_cases hkey : key = name
      · simp [hkey, h hkey.symm]
      · simp [hkey]

/-- A rule is read the same if what is expected or looked for is. -/
theorem Rule.ofValue?_replaced {before behind : List (String × Json)} {key : String} {v v' : Json}
    (hkey : key = "match" ∨ key = "expect") (hv : v ≠ .null) (hv' : v' ≠ .null)
    (h : PatternSpec.ofValue? v = PatternSpec.ofValue? v') :
    Rule.ofValue? (.object (before ++ (key, v) :: behind)) =
      Rule.ofValue? (.object (before ++ (key, v') :: behind)) := by
  have hmatch :
      (Json.object (before ++ (key, v) :: behind)).fieldOr? "match" {} PatternSpec.ofValue? =
      (Json.object (before ++ (key, v') :: behind)).fieldOr? "match" {} PatternSpec.ofValue? :=
    Json.fieldOr?_replaced fun _ => by
      rw [Json.orDefault_of_ne_null hv, Json.orDefault_of_ne_null hv', h]
  have hexpect :
      (Json.object (before ++ (key, v) :: behind)).present? "expect" PatternSpec.ofValue? =
      (Json.object (before ++ (key, v') :: behind)).present? "expect" PatternSpec.ofValue? :=
    Json.fieldOr?_replaced fun _ => by
      simp only [Json.orDefault_of_ne_null hv, Json.orDefault_of_ne_null hv', h]
  have hother : ∀ {α : Type} (name : String) (default : α) (decode : Json → Option α),
      name ∉ ["match", "expect"] →
      (Json.object (before ++ (key, v) :: behind)).fieldOr? name default decode =
        (Json.object (before ++ (key, v') :: behind)).fieldOr? name default decode := by
    intro α name default decode hname
    refine Json.fieldOr?_replaced fun heq => absurd ?_ hname
    rw [heq]
    simpa using hkey
  have hpresent : ∀ {α : Type} (name : String) (decode : Json → Option α),
      name ∉ ["match", "expect"] →
      (Json.object (before ++ (key, v) :: behind)).present? name decode =
        (Json.object (before ++ (key, v') :: behind)).present? name decode :=
    fun name decode hname => hother name none _ hname
  rw [Rule.ofValue?, Rule.ofValue?, hmatch, hexpect, hpresent "scope" _ (by decide),
    hother "id" _ _ (by decide), hother "description" _ _ (by decide),
    hother "severity" _ _ (by decide), hother "category" _ _ (by decide),
    hother "guidance" _ _ (by decide), hother "cwe" _ _ (by decide),
    hpresent "references" _ (by decide)]

theorem PatternDocument.ne_null_of_ofValue? {v : Json} {d : PatternDocument}
    (h : PatternDocument.ofValue? v = some d) : v ≠ .null := by
  rintro rfl
  cases h

/-- **What a document in the older dialect is kept as, written down, is read as the same.** -/
theorem PatternDocument.ofValue?_toJson_spec {v : Json} {d : PatternDocument}
    (hd : PatternDocument.ofValue? v = some d) (h : ¬ d.Newer) :
    PatternSpec.ofValue? v = PatternSpec.ofValue? d.spec.toJson := by
  have hnormal : d.spec.Normal := PatternSource.normal_normalize _
  rw [PatternSpec.ofValue?_toJson hnormal (kinded_of_older h), PatternSpec.ofValue?_eq, hd]
  rfl

/-- Documents whose values mean the same are read the same. -/
theorem Yaml.SpellsOut.readDocument_congr {α : Type} {text text' : String} {v v' : Json}
    (h : Yaml.SpellsOut text v) (h' : Yaml.SpellsOut text' v') {read : Node → Reading α}
    {decode : Json → Option α} (hread : ∀ s, Reading.ReadsAs s read decode)
    (hsame : decode v = decode v') (a : α) :
    Yaml.readDocument text read = .ok a ↔ Yaml.readDocument text' read = .ok a := by
  rw [h.readByValue hread v h.read a, h'.readByValue hread v' h'.read a, hsame]

/-- **The patterns of a document have one form, whichever dialect it is in.**  Every pattern has a
kind; the older keys do not count next to the newer ones; alone they mean their entries in order;
and what is kept means itself.  So an evaluation is the same if the patterns of a rule are given as
they are kept, and a rule is read the same if they are written down so. -/
theorem PatternDocument.spec_canonical :
    (∀ n, PatternSpec.read n = do return (← PatternDocument.read n).spec) ∧
    (∀ d : PatternDocument, ∀ p ∈ d.spec.anyPatterns ++ d.spec.allPatterns, p.kind.name ≠ "") ∧
    (∀ d d' : PatternDocument, d.Newer → d'.anyOf = d.anyOf → d'.allOf = d.allOf →
      d'.spec = d.spec) ∧
    (∀ d : PatternDocument, ¬ d.Newer →
      d.spec.anyPatterns = (d.identifiers.getD []).map (⟨.literal, ·, ""⟩) ++
        (d.expressions.getD []).map (⟨.regex, ·, ""⟩) ++
        (d.sqlTables.getD []).map (⟨.literal, ·, ""⟩) ++
        (d.apiRoutes.getD []).map (⟨.regex, ·, ""⟩) ∧
      d.spec.allPatterns = []) ∧
    (∀ src, PatternSource.normalize (some (PatternSource.normalize src).source) =
      PatternSource.normalize src) ∧
    (∀ (d : PatternDocument) (r : Rule) (e : Engine) signal disk rules rules' files exclude,
      e.evaluate signal disk (rules ++ { r with spec := d.spec } :: rules') files exclude =
        e.evaluate signal disk (rules ++ { r with spec := d.spec.document.spec } :: rules') files
          exclude) ∧
    ∀ (before behind : List (String × Json)) key v d, key = "match" ∨ key = "expect" →
      PatternDocument.ofValue? v = some d → ¬ d.Newer → ∀ text text',
      Yaml.SpellsOut text (.object (before ++ (key, v) :: behind)) →
      Yaml.SpellsOut text' (.object (before ++ (key, d.spec.toJson) :: behind)) →
      (∀ r, Yaml.readDocument text Rule.read = .ok r ↔ Yaml.readDocument text' Rule.read = .ok r) ∧
      ∀ r r', Yaml.readDocument text Rule.read = .ok r → Yaml.readDocument text' Rule.read = .ok r' →
        ∀ (e : Engine) signal disk rules rules' files exclude,
          e.evaluate signal disk (rules ++ r :: rules') files exclude =
            e.evaluate signal disk (rules ++ r' :: rules') files exclude := by
  refine ⟨fun _ => rfl, fun d => PatternSource.named_normalize _, fun d d' h => spec_congr h,
    fun d => spec_of_older, PatternSource.normalize_source_normalize, ?evaluated, ?read⟩
  case evaluated =>
    intro d r e signal disk rules rules' files exclude
    have hspec : d.spec.document.spec = d.spec := by
      rw [PatternSpec.spec_document]
      exact PatternSource.normalize_source_normalize _
    rw [hspec]
  case read =>
    intro before behind key v d hkey hd h text text' htext htext'
    have hsame : ∀ r, Yaml.readDocument text Rule.read = .ok r ↔
        Yaml.readDocument text' Rule.read = .ok r :=
      htext.readDocument_congr htext' Rule.readsAs_read
        (Rule.ofValue?_replaced hkey (ne_null_of_ofValue? hd) nofun (ofValue?_toJson_spec hd h))
    refine ⟨hsame, fun r r' hr hr' e signal disk rules rules' files exclude => ?_⟩
    obtain rfl : r = r' := Except.ok.inj (((hsame r).mp hr).symm.trans hr')
    rfl

namespace Rule

/-- The patterns of the sample in the older dialect. -/
def olderMatch : Json :=
  .object [("api_routes", .array [.string "y"]), ("identifiers", .array [.string "x"])]

/-- The patterns of the sample as they are kept. -/
def keptMatch : PatternSpec := { anyOf := some [⟨.literal, "x", ""⟩, ⟨.regex, "y", ""⟩] }

/-- A rule in the older dialect, with its keys in another order. -/
def olderText : String := "\x7bid: a, match: \x7bapi_routes: [y], identifiers: [x]\x7d\x7d"

/-- The same rule in the newer dialect. -/
def newerText : String :=
  "\x7bid: a, match: \x7banyOf: [\x7bkind: literal, value: x\x7d, \x7bkind: regex, value: y\x7d]\x7d\x7d"

/-- What can be found out about the two documents by evaluation. -/
theorem evaluated_dialects :
    Yaml.spellsOut? olderText (.object [("id", .string "a"), ("match", olderMatch)]) = true ∧
      Yaml.spellsOut? newerText (.object [("id", .string "a"), ("match", keptMatch.toJson)]) =
        true := by
  have holder : olderText.toList = _ := String.toList_ofList
  have hnewer : newerText.toList = _ := String.toList_ofList
  rewrite [Yaml.spellsOut?, Yaml.spellsOut?, Yaml.load, Yaml.load, Yaml.parse, Yaml.parse,
    Yaml.tokenize_of_toList holder, Yaml.tokenize_of_toList hnewer]
  decide +kernel

theorem spec_canonical_sample :
    Yaml.readDocument olderText Rule.read = .ok { id := "a", spec := keptMatch } ∧
      Yaml.readDocument newerText Rule.read = .ok { id := "a", spec := keptMatch } := by
  obtain ⟨holder, hnewer⟩ := evaluated_dialects
  have htext := Yaml.SpellsOut.of_check holder
  have holder : Yaml.readDocument olderText Rule.read = .ok { id := "a", spec := keptMatch } :=
    (htext.readByValue Rule.readsAs_read _ htext.read _).mpr rfl
  obtain ⟨-, -, -, -, -, -, hread⟩ := PatternDocument.spec_canonical
  obtain ⟨hsame, -⟩ := hread [("id", .string "a")] [] "match" olderMatch
    { identifiers := some ["x"], apiRoutes := some ["y"] } (.inl rfl) rfl (by
      simp [PatternDocument.Newer]) olderText newerText htext (Yaml.SpellsOut.of_check hnewer)
  exact ⟨holder, (hsame _).mp holder⟩

end Rule

end RuleScan
