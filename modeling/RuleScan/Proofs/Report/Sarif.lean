import RuleScan.Proofs.Finding.Distinct
import RuleScan.Proofs.Report.Verdict
import RuleScan.Proofs.Text.Order
import RuleScan.Report.Sarif

/-!
# What a SARIF log refers to

A log has results and rules, and a result names its rule by an id.  Here the log is read as others
read it, from the DOCUMENT that is written (`Sarif.document`), field by field.

## What is proved

`document_complete`, of the document of every report that is built, which is what is written:

  * its results are the findings of the report, one by one, with their rules and places;
  * the ids of its rules are strictly increasing, and they are the ids that the results name, so
    that every result names exactly one rule;
  * without thresholds the report fails exactly if some result is an error.

## Why

The rules are collected in one pass with those found so far (`Collected`): behind every stretch of
the findings they are the first finding of each rule there.  Sorting changes only their order.
-/

namespace RuleScan.Sarif

/-! ## The document of a report -/

/-- The document that is written for a report. -/
def document (b : Build) (r : Report) : Json := (Log.ofReport b r).toJson

theorem render_eq (b : Build) (r : Report) : render b r = (document b r).pretty ++ "\n" := rfl

/-- The value behind some names of fields, one inside the other. -/
def at? : List String → Json → Option Json
  | [], v => some v
  | name :: path, v => (v.field? name).bind (at? path)

/-- The text behind some names of fields. -/
def textAt? (path : List String) (v : Json) : Option String := (at? path v).bind Json.text?

/-- The number behind some names of fields; one that is left out is zero. -/
def numberAt (path : List String) (v : Json) : Int :=
  match at? path v with
  | some (.int n) => n
  | _ => 0

/-- The elements of the list behind some names of fields. -/
def elementsAt (path : List String) (v : Json) : List Json := ((at? path v).elim [] Json.elements)

/-- The results that a document lists. -/
def resultsIn (v : Json) : List Json := (elementsAt ["runs"] v).flatMap (elementsAt ["results"])

/-- The rules that a document lists. -/
def rulesIn (v : Json) : List Json :=
  (elementsAt ["runs"] v).flatMap (elementsAt ["tool", "driver", "rules"])

/-- The id of a rule. -/
def idIn? (rule : Json) : Option String := textAt? ["id"] rule

/-- The id of the rule that a result names. -/
def ruleIn? (result : Json) : Option String := textAt? ["ruleId"] result

/-- How serious a result is. -/
def levelIn? (result : Json) : Option String := textAt? ["level"] result

/-- The places that a result tells of, each with the id of the rule. -/
def placesIn (result : Json) : List (Option String × Option String × Int × Int) :=
  (elementsAt ["locations"] result).map fun location =>
    (ruleIn? result, textAt? ["physicalLocation", "artifactLocation", "uri"] location,
      numberAt ["physicalLocation", "region", "startLine"] location,
      numberAt ["physicalLocation", "region", "startColumn"] location)

section Document

variable (b : Build) (r : Report)

theorem resultsIn_document :
    resultsIn (document b r) = r.allFindings.map fun f => (Result.ofFinding f).toJson := by
  have hresults : resultsIn (document b r) = (Log.ofReport b r).results.map Result.toJson ++ [] :=
    rfl
  rw [hresults, List.append_nil, Log.ofReport, List.map_map]
  rfl

theorem rulesIn_document :
    rulesIn (document b r) = (rulesOf r.allFindings).map RuleEntry.toJson := by
  rw [rulesIn, document, Log.toJson]
  by_cases hversion : b.version = "" <;>
    simp [elementsAt, at?, Json.field?, Json.elements, Json.ofFields, textField?, Log.ofReport,
      hversion]

end Document

theorem idIn?_toJson (e : RuleEntry) : idIn? e.toJson = some e.id := by
  rw [RuleEntry.toJson]
  by_cases hcwe : e.cwe = "" <;>
    simp [idIn?, textAt?, at?, Json.field?, Json.ofFields, hcwe, Json.text?]

theorem ruleIn?_toJson (r : Result) : ruleIn? r.toJson = some r.rule := rfl

theorem levelIn?_toJson (r : Result) : levelIn? r.toJson = some r.level.name := rfl

theorem numberAt_region (r : Result) :
    numberAt ["startLine"] r.region = r.line ∧ numberAt ["startColumn"] r.region = r.column := by
  by_cases hsnippet : r.snippet.isEmpty = true <;> by_cases hcolumn : r.column = 0 <;>
    simp [numberAt, at?, Json.field?, Json.ofFields, Result.region, hsnippet, hcolumn]

theorem placesIn_toJson (r : Result) :
    placesIn r.toJson = [(some r.rule, some r.file, r.line, r.column)] := by
  obtain ⟨hline, hcolumn⟩ := numberAt_region r
  have hplaces : placesIn r.toJson = [(some r.rule, some r.file, numberAt ["startLine"] r.region,
      numberAt ["startColumn"] r.region)] := rfl
  rw [hplaces, hline, hcolumn]

/-! ## The rules of some findings -/

/-- The first finding of a rule. -/
def firstOf (findings : List Finding) (rule : String) : Option Finding :=
  findings.find? (·.rule = rule)

theorem rule_of_firstOf {findings : List Finding} {rule : String} {f : Finding}
    (h : firstOf findings rule = some f) : f.rule = rule := by
  simpa using List.find?_some h

/-- What is collected behind some findings: the first finding of each rule. -/
structure Collected (findings seen : List Finding) : Prop where
  nodup : (seen.map Finding.rule).Nodup
  mem_iff : ∀ f, f ∈ seen ↔ firstOf findings f.rule = some f

section Collected

variable {findings seen : List Finding}

theorem Collected.any_iff (h : Collected findings seen) (rule : String) :
    seen.any (·.rule = rule) = true ↔ (firstOf findings rule).isSome = true := by
  simp only [List.any_eq_true, decide_eq_true_eq]
  constructor
  · rintro ⟨f, hf, rfl⟩
    rw [(h.mem_iff f).mp hf]
    rfl
  · intro hsome
    obtain ⟨f, hf⟩ := Option.isSome_iff_exists.mp hsome
    have hrule := rule_of_firstOf hf
    exact ⟨f, (h.mem_iff f).mpr (hrule ▸ hf), hrule⟩

/-- One more finding is collected exactly if it is the first of its rule. -/
theorem Collected.step (h : Collected findings seen) (f : Finding) :
    Collected (findings ++ [f])
      (if seen.any (·.rule = f.rule) then seen else f :: seen) := by
  have hlast : ∀ rule, firstOf (findings ++ [f]) rule =
      (firstOf findings rule).or (if f.rule = rule then some f else none) := by
    intro rule
    rw [firstOf, List.find?_append, List.find?_singleton]
    simp [firstOf]
  by_cases hseen : seen.any (·.rule = f.rule) = true
  · rw [if_pos hseen]
    refine ⟨h.nodup, fun g => ?_⟩
    rw [h.mem_iff, hlast]
    by_cases hrule : f.rule = g.rule
    · obtain ⟨first, hfirst⟩ := Option.isSome_iff_exists.mp ((h.any_iff f.rule).mp hseen)
      rw [← hrule, hfirst, Option.some_or]
    · rw [if_neg hrule, Option.or_none]
  · rw [if_neg hseen]
    have hnone : firstOf findings f.rule = none := by
      simpa [h.any_iff] using hseen
    refine ⟨?_, fun g => ?_⟩
    · rw [List.map_cons, List.nodup_cons]
      refine ⟨fun hmem => hseen ?_, h.nodup⟩
      obtain ⟨g, hg, hrule⟩ := List.mem_map.mp hmem
      exact List.any_eq_true.mpr ⟨g, hg, decide_eq_true hrule⟩
    · rw [List.mem_cons, h.mem_iff, hlast]
      by_cases hrule : f.rule = g.rule
      · rw [← hrule, hnone, if_pos rfl, Option.none_or]
        simp [eq_comm]
      · rw [if_neg hrule, Option.or_none]
        exact or_iff_right fun hg => hrule (hg ▸ rfl)

theorem Collected.run (h : Collected findings seen) (rest : List Finding) :
    Collected (findings ++ rest) (rest.foldl (fun (seen : List Finding) f =>
      if seen.any (·.rule = f.rule) then seen else f :: seen) seen) := by
  induction rest generalizing findings seen with
  | nil => rwa [List.append_nil]
  | cons f rest ih => simpa using ih (h.step f)

end Collected

section Rules

variable (findings : List Finding)

theorem collected_firstOfRules : Collected findings (firstOfRules findings).reverse := by
  have hstart : Collected [] [] := ⟨List.nodup_nil, fun f => by simp [firstOf]⟩
  simpa [firstOfRules] using hstart.run findings

theorem nodup_firstOfRules : ((firstOfRules findings).map Finding.rule).Nodup := by
  have hnodup := (collected_firstOfRules findings).nodup
  rwa [List.map_reverse, List.nodup_reverse] at hnodup

/-- A rule is listed as its first finding tells of it. -/
theorem mem_rulesOf_iff {e : RuleEntry} : e ∈ rulesOf findings ↔
    ∃ f, firstOf findings f.rule = some f ∧ RuleEntry.ofFinding f = e := by
  simp only [rulesOf, List.mem_mergeSort, List.mem_map,
    ← (collected_firstOfRules findings).mem_iff, List.mem_reverse]

theorem pairwise_rulesOf : (rulesOf findings).Pairwise fun e e' => e.id < e'.id := by
  refine Text.pairwise_sorted_lt RuleEntry.id ?_
  rw [List.map_map]
  exact nodup_firstOfRules findings

/-- The ids of the rules are those of the findings. -/
theorem mem_ids_rulesOf {id : String} :
    id ∈ (rulesOf findings).map RuleEntry.id ↔ id ∈ findings.map Finding.rule := by
  simp only [List.mem_map, mem_rulesOf_iff]
  constructor
  · rintro ⟨e, ⟨f, hf, rfl⟩, rfl⟩
    exact ⟨f, List.mem_of_find?_eq_some hf, rfl⟩
  · rintro ⟨f, hf, rfl⟩
    have hsome : (firstOf findings f.rule).isSome = true :=
      List.find?_isSome.mpr ⟨f, hf, decide_eq_true rfl⟩
    obtain ⟨first, hfirst⟩ := Option.isSome_iff_exists.mp hsome
    have hrule := rule_of_firstOf hfirst
    exact ⟨_, ⟨first, hrule ▸ hfirst, rfl⟩, hrule⟩

/-- The rule of a finding is listed once. -/
theorem count_rulesOf {findings : List Finding} {f : Finding} (hf : f ∈ findings) :
    ((rulesOf findings).map RuleEntry.id).count f.rule = 1 := by
  have hincreasing := List.pairwise_map.mpr (pairwise_rulesOf findings)
  refine List.count_eq_one_of_mem (hincreasing.imp fun hlt heq => ?_)
    ((mem_ids_rulesOf _).mpr (List.mem_map_of_mem hf))
  exact String.lt_irrefl _ (heq ▸ hlt)

end Rules

/-! ## Levels -/

theorem level_eq_error_iff {s : Severity} :
    Level.ofSeverity s = .error ↔ s = .critical ∨ s = .high := by
  cases s <;> simp [Level.ofSeverity]

theorem name_eq_error_iff {l : Level} : l.name = "error" ↔ l = .error := by
  cases l <;> decide

/-- The results of these severities are errors. -/
theorem levelIn?_eq_error_iff {f : Finding} : levelIn? (Result.ofFinding f).toJson = some "error" ↔
    f.severity = .critical ∨ f.severity = .high := by
  rw [levelIn?_toJson, Option.some_inj, name_eq_error_iff]
  exact level_eq_error_iff

/-- Without thresholds a report fails exactly if one of its results is an error. -/
theorem verdict_none_eq_fail_iff {findings : List Finding} :
    Report.verdict .none findings = .fail ↔
      ∃ f ∈ findings, levelIn? (Result.ofFinding f).toJson = some "error" := by
  rw [Report.verdict_eq_fail_iff, Report.exceeds_none_iff, Report.exceeds_none_iff, ← exists_or]
  simp only [← and_or_left, ← levelIn?_eq_error_iff]

/-- **A SARIF log is complete and agrees with the verdict.**  What is written is its document. -/
theorem document_complete (b : Build) (findings : List Finding) (profile : String)
    (microseconds : Int) (o : Report.Options) :
    let report := Report.build findings profile microseconds o
    let written := document b report
    render b report = written.pretty ++ "\n" ∧
      (resultsIn written).map placesIn =
        report.allFindings.map (fun f => [(some f.rule, some f.file, f.line, f.column)]) ∧
      (∃ ids : List String, (rulesIn written).map idIn? = ids.map some ∧
        ids.Pairwise (· < ·) ∧
        ∀ id, id ∈ ids ↔ ∃ result ∈ resultsIn written, ruleIn? result = some id) ∧
      (∀ result ∈ resultsIn written, ∃ id, ruleIn? result = some id ∧
        (rulesIn written).countP (fun rule => idIn? rule = some id) = 1) ∧
      (o.thresholds = none →
        (report.status = .fail ↔
          ∃ result ∈ resultsIn written, levelIn? result = some "error")) := by
  intro report written
  have hresults : ∀ result, result ∈ resultsIn written ↔
      ∃ f ∈ report.allFindings, (Result.ofFinding f).toJson = result := fun result => by
    rw [resultsIn_document, List.mem_map]
  have hids : (rulesIn written).map idIn? =
      ((rulesOf report.allFindings).map RuleEntry.id).map some := by
    rw [rulesIn_document, List.map_map, List.map_map]
    exact List.map_congr_left fun e _ => idIn?_toJson e
  have hincreasing := List.pairwise_map.mpr (pairwise_rulesOf report.allFindings)
  refine ⟨render_eq b report, ?places, ⟨_, hids, hincreasing, fun id => ?listed⟩, fun result hresult => ?named,
    fun hnone => ?fails⟩
  case places =>
    rw [resultsIn_document, List.map_map]
    exact List.map_congr_left fun f _ => placesIn_toJson (Result.ofFinding f)
  case listed =>
    rw [mem_ids_rulesOf, List.mem_map]
    constructor
    · rintro ⟨f, hf, rfl⟩
      exact ⟨_, (hresults _).mpr ⟨f, hf, rfl⟩, ruleIn?_toJson _⟩
    · rintro ⟨result, hresult, hid⟩
      obtain ⟨f, hf, rfl⟩ := (hresults result).mp hresult
      exact ⟨f, hf, Option.some.inj hid⟩
  case named =>
    obtain ⟨f, hf, rfl⟩ := (hresults result).mp hresult
    refine ⟨f.rule, ruleIn?_toJson _, ?_⟩
    have hcount : (rulesIn written).countP (fun rule => idIn? rule = some f.rule) =
        ((rulesOf report.allFindings).map RuleEntry.id).count f.rule := by
      have hsome := congrArg (List.count (some f.rule)) hids
      rw [List.count_map_of_injective _ _ (Option.some_injective String)] at hsome
      rw [← hsome, List.count, List.countP_map]
      exact List.countP_congr fun rule _ => by simp
    rw [hcount, count_rulesOf hf]
  case fails =>
    have hstatus : report.status = Report.verdict (o.thresholds.getD .none) findings := rfl
    rw [hstatus, hnone, Option.getD_none, verdict_none_eq_fail_iff]
    constructor
    · rintro ⟨f, hf, hlevel⟩
      exact ⟨_, (hresults _).mpr ⟨f, (Finding.perm_sort findings).mem_iff.mpr hf, rfl⟩, hlevel⟩
    · rintro ⟨result, hresult, hlevel⟩
      obtain ⟨f, hf, rfl⟩ := (hresults result).mp hresult
      exact ⟨f, (Finding.perm_sort findings).mem_iff.mp hf, hlevel⟩

/-- Three findings of two rules, one of them without a column: the rule `r` is listed once, and the
finding of high severity is an error. -/
theorem document_complete_sample :
    let findings : List Finding :=
      [{ rule := "q", file := "f", severity := .high, line := 1 },
        { rule := "r", file := "f", severity := .low, line := 2, column := 1 },
        { rule := "r", file := "g", severity := .low, line := 3, column := 2 }]
    let written := document {} (Report.build findings "p" 0)
    (resultsIn written).map placesIn = [[(some "q", some "f", 1, 0)],
        [(some "r", some "f", 2, 1)], [(some "r", some "g", 3, 2)]] ∧
      (∃ ids : List String, (rulesIn written).map idIn? = ids.map some ∧ ids.Pairwise (· < ·) ∧
        ∀ id, id ∈ ids ↔ ∃ result ∈ resultsIn written, ruleIn? result = some id) ∧
      ∃ result ∈ resultsIn written, levelIn? result = some "error" := by
  intro findings written
  have hsorted : Finding.sort findings = findings := List.mergeSort_of_pairwise (by decide)
  obtain ⟨-, hplaces, hids, -, hfails⟩ := document_complete {} findings "p" 0 {}
  refine ⟨hplaces.trans ?_, hids, (hfails rfl).mp (by decide)⟩
  rw [Report.build, Report.allFindings, hsorted]
  rfl

end RuleScan.Sarif
