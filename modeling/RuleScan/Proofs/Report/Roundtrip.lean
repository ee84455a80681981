import RuleScan.Proofs.Json.Fill
import RuleScan.Report.Document

/-!
# Reports that are read back

A report is written as a JSON document and read from it, by this program or by others.

## What is proved

`Report.read_document_build`: a report that was built from findings is read back from its document
as it was.  What it asks for is what the parts have anyway: the words for severities and confidences
are CANONICAL, that is, a known word is never kept as an unknown one; the snippets are texts; and
the numbers fit a word.  A severity outside the four is kept, and so are counts of it.

## Why

Parts that hold nothing are left out, and reading starts from a record whose parts hold nothing.
The counts are written in the order of the names and read into it, so a list of severities with
pairwise different names comes back as it was.
-/

namespace RuleScan

open RuleScan.Text
open RuleScan.Json (Legible)
open RuleScan.Json.Fill (Gives inOrder_part object_ofFields)

/-! ## Words -/

/-- A severity that is what its name stands for. -/
def Severity.Canonical (s : Severity) : Prop := ofName s.name = s

/-- A confidence that is what its name stands for. -/
def Confidence.Canonical (c : Confidence) : Prop := ofName c.name = c

/-- A verdict that is what its name stands for. -/
def Status.Canonical (s : Status) : Prop := ofName s.name = s

/-! ## Findings -/

/-- A finding that is read back from its document. -/
structure Finding.Readable (f : Finding) : Prop where
  severity : f.severity.Canonical
  confidence : f.confidence.Canonical
  snippet : ∃ s, f.snippet = bytesOf s
  line : Word.fits f.line = true
  column : Word.fits f.column = true

namespace Finding

/-- The parts of a finding as they are read. -/
def parts (f : Finding) : List (Option Json) :=
  [some (.string f.rule), some (.string f.message), some (.string f.file),
    some (.string f.severity.name), some (.string f.category), some (.string f.confidence.name),
    if f.snippet.isEmpty then none else some (.string (textOf f.snippet)), textField? f.cweId,
    listField? (f.references.map .string), some (.int f.line),
    if f.column = 0 then none else some (.int f.column)]

end Finding

theorem gives_textField (s : String) : Gives Json.Fill.text (textField? s) "" s := by
  rw [textField?]
  split
  · next h => exact h
  · rfl

theorem texts_textField? (s : String) : (textField? s).map Json.texts = textField? s := by
  rw [textField?]
  split <;> rfl

theorem texts_listField? (vs : List Json) :
    (listField? vs).map Json.texts = listField? (vs.map Json.texts) := by
  rw [listField?, listField?, List.isEmpty_map]
  split
  · rfl
  · rw [Option.map_some, Json.texts, Json.textsAll_eq]

theorem gives_listField {α γ : Type} {empty : α} {element : Json.Fill α} {write : γ → Json}
    {done : γ → α} {list : List γ} (h : ∀ c ∈ list, element (write c) empty = some (done c)) :
    Gives (Json.Fill.list empty element) (listField? (list.map write)) {}
      { list := if list = [] then none else some (list.map done) } := by
  have hgives := Json.Fill.gives_list h
  cases list with
  | nil => rfl
  | cons c rest => exact hgives

namespace FindingForm

/-- The finding as it is while it is read. -/
def ofFinding (f : Finding) : FindingForm where
  finding := { f with references := [] }
  references := { list := if f.references = [] then none else some f.references }

theorem done_ofFinding (f : Finding) : (ofFinding f).done = f := by
  simp only [done, ofFinding]
  split
  · next hnone => rw [Option.getD_none, ← hnone]
  · rfl

theorem texts_toJson (f : Finding) : (Finding.toJson f).texts = .ofFields (List.zip
    ["rule", "message", "file", "severity", "category", "confidence", "snippet", "cweId",
      "references", "line", "column"] f.parts) := by
  have htexts : Json.texts ∘ Json.string = Json.string := rfl
  simp only [Finding.toJson, Json.texts_ofFields, List.map_cons, List.map_nil, texts_textField?,
    texts_listField?, List.map_map, htexts, apply_ite (Option.map Json.texts)]
  rfl

theorem fill_toJson {f : Finding} (h : f.Readable) :
    fill (Finding.toJson f).texts {} = some (ofFinding f) := by
  have hsnippet : Gives (Json.Fill.word bytesOf)
      (if f.snippet.isEmpty then none else some (.string (textOf f.snippet))) [] f.snippet := by
    obtain ⟨s, hs⟩ := h.snippet
    rw [hs, textOf_bytesOf]
    split
    · next hempty => exact List.isEmpty_iff.mp hempty
    · rfl
  have hreferences : Gives (Json.Fill.list "" Json.Fill.text)
      (listField? (f.references.map .string)) {} (ofFinding f).references := by
    simpa [ofFinding] using gives_listField (fun s (_ : s ∈ f.references) =>
      (rfl : Json.Fill.text (.string s) "" = some s))
  have hcolumn : Gives Json.Fill.int (if f.column = 0 then none else some (.int f.column)) 0
      f.column := by
    split
    · next hzero => exact hzero
    · exact Json.Fill.gives_int h.column 0
  rw [fill, texts_toJson, object_ofFields]
  · refine Eq.trans (inOrder_part (fun _ => rfl) (Json.Fill.gives_text _ _) _ _) ?_
    refine Eq.trans (inOrder_part (fun _ => rfl) (Json.Fill.gives_text _ _) _ _) ?_
    refine Eq.trans (inOrder_part (fun _ => rfl) (Json.Fill.gives_text _ _) _ _) ?_
    refine Eq.trans (inOrder_part (fun _ => rfl) (Json.Fill.gives_word h.severity _) _ _) ?_
    refine Eq.trans (inOrder_part (fun _ => rfl) (Json.Fill.gives_text _ _) _ _) ?_
    refine Eq.trans (inOrder_part (fun _ => rfl) (Json.Fill.gives_word h.confidence _) _ _) ?_
    refine Eq.trans (inOrder_part (fun _ => rfl) hsnippet _ _) ?_
    refine Eq.trans (inOrder_part (fun _ => rfl) (gives_textField _) _ _) ?_
    refine Eq.trans (inOrder_part (b := (ofFinding f).references) (fun _ => rfl) ?_ _ _) ?_
    · exact hreferences
    refine Eq.trans (inOrder_part (fun _ => rfl) (Json.Fill.gives_int h.line _) _ _) ?_
    refine Eq.trans (inOrder_part (b := f.column) (fun _ => rfl) ?_ _ _) ?_
    · exact hcolumn
    rfl
  · rfl
  · decide

end FindingForm

/-! ## The other parts -/

theorem Diagnostic.fill_toJson (d : Diagnostic) :
    fill d.toJson.texts { kind := "" } = some d := by
  have hgiven : d.toJson.texts = .ofFields (List.zip ["kind", "rule", "pattern", "message"]
      [some (.string d.kind), some (.string d.rule), some (.string d.pattern),
        some (.string d.message)]) := rfl
  rw [fill, hgiven, object_ofFields]
  · refine Eq.trans (inOrder_part (fun _ => rfl) (Json.Fill.gives_text _ _) _ _) ?_
    refine Eq.trans (inOrder_part (fun _ => rfl) (Json.Fill.gives_text _ _) _ _) ?_
    refine Eq.trans (inOrder_part (fun _ => rfl) (Json.Fill.gives_text _ _) _ _) ?_
    refine Eq.trans (inOrder_part (fun _ => rfl) (Json.Fill.gives_text _ _) _ _) ?_
    rfl
  · rfl
  · decide

theorem Provenance.fill_toJson (p : Provenance) : fill p.toJson.texts {} = some p := by
  have hgiven : p.toJson.texts = .ofFields (List.zip ["command", "profile", "traceId"]
      [some (.string p.command), textField? p.profile, some (.string p.trace)]) := by
    simp only [toJson, Json.texts_ofFields, List.map_cons, List.map_nil, texts_textField?]
    rfl
  rw [fill, hgiven, object_ofFields]
  · refine Eq.trans (inOrder_part (fun _ => rfl) (Json.Fill.gives_text _ _) _ _) ?_
    refine Eq.trans (inOrder_part (fun _ => rfl) (gives_textField _) _ _) ?_
    refine Eq.trans (inOrder_part (fun _ => rfl) (Json.Fill.gives_text _ _) _ _) ?_
    rfl
  · rfl
  · decide

/-- Counts that are read back from their document. -/
structure Summary.Readable (s : Summary) : Prop where
  severities : ∀ counts, s.bySeverity = some counts →
    (∀ c ∈ counts, c.1.Canonical ∧ Word.fits c.2 = true) ∧
      counts.Pairwise fun a b => a.1.name < b.1.name
  files : Word.fits s.files = true
  total : Word.fits s.total = true
  milliseconds : Word.fits s.milliseconds = true

theorem Summary.fill_toJson {s : Summary} (h : s.Readable) : fill s.toJson.texts {} = some s := by
  have hgiven : s.toJson.texts = .ofFields (List.zip
      ["findingsBySeverity", "filesScanned", "findingsTotal", "executionMs", "deterministic"]
      [some (s.bySeverity.elim .null fun counts =>
          .object (counts.map fun c => (c.1.name, .int c.2))),
        some (.int s.files), some (.int s.total), some (.int s.milliseconds),
        some (.bool s.deterministic)]) := by
    rw [toJson, Json.texts, Json.textsFields_eq]
    cases s.bySeverity with
    | none => rfl
    | some counts =>
        simp only [List.map_cons, Json.texts, Json.textsFields_eq, List.map_map]
        rfl
  rw [fill, hgiven, object_ofFields]
  · refine Eq.trans (inOrder_part (b := s.bySeverity) (fun _ => rfl) ?_ _ _) ?_
    · cases hcounts : s.bySeverity with
      | none => rfl
      | some counts =>
          obtain ⟨hcanonical, hsorted⟩ := h.severities counts hcounts
          exact Json.Fill.gives_counts (fun c hc => (hcanonical c hc).1)
            (fun c hc => (hcanonical c hc).2) hsorted
    refine Eq.trans (inOrder_part (fun _ => rfl) (Json.Fill.gives_int h.files _) _ _) ?_
    refine Eq.trans (inOrder_part (fun _ => rfl) (Json.Fill.gives_int h.total _) _ _) ?_
    refine Eq.trans (inOrder_part (fun _ => rfl) (Json.Fill.gives_int h.milliseconds _) _ _) ?_
    refine Eq.trans (inOrder_part (fun _ => rfl) (Json.Fill.gives_bool _ _) _ _) ?_
    rfl
  · rfl
  · decide

/-! ## Reports -/

/-- A report that is read back from its document. -/
structure Report.Readable (r : Report) : Prop where
  status : r.status.Canonical
  findings : ∀ f ∈ r.allFindings, f.Readable
  summary : r.summary.Readable

namespace ReportForm

/-- The report as it is while it is read. -/
def ofReport (r : Report) : ReportForm where
  report := { r with findings := none, diagnostics := [] }
  findings := { list := r.findings.map (·.map FindingForm.ofFinding) }
  diagnostics := { list := if r.diagnostics = [] then none else some r.diagnostics }

theorem done_ofReport (r : Report) : (ofReport r).done = r := by
  have hdiagnostics : (if r.diagnostics = [] then none else some r.diagnostics).getD [] =
      r.diagnostics := by
    split
    · next hnone => rw [Option.getD_none, hnone]
    · rfl
  have hfindings : (r.findings.map (·.map FindingForm.ofFinding)).map (·.map FindingForm.done) =
      r.findings := by
    cases r.findings with
    | none => rfl
    | some fs =>
        have hdone : FindingForm.done ∘ FindingForm.ofFinding = id :=
          funext FindingForm.done_ofFinding
        rw [Option.map_some, Option.map_some, List.map_map, hdone, List.map_id]
  simp only [done, ofReport, hdiagnostics, hfindings]

theorem fill_toJson {r : Report} (h : r.Readable) :
    fill r.toJson.texts {} = some (ofReport r) := by
  have hgiven : r.toJson.texts = .ofFields (List.zip
      ["status", "findings", "summary", "meta", "diagnostics"]
      [some (.string r.status.name),
        some (r.findings.elim .null fun fs => .array (fs.map fun f => f.toJson.texts)),
        some r.summary.toJson.texts, some r.provenance.toJson.texts,
        listField? (r.diagnostics.map fun d => d.toJson.texts)]) := by
    simp only [Report.toJson, Json.texts_ofFields, List.map_cons, List.map_nil, texts_listField?,
      List.map_map, Option.map_some]
    cases r.findings with
    | none => rfl
    | some fs =>
        simp only [Json.texts, Json.textsAll_eq, List.map_map]
        rfl
  rw [fill, hgiven, object_ofFields]
  · refine Eq.trans (inOrder_part (fun _ => rfl) (Json.Fill.gives_word h.status _) _ _) ?_
    refine Eq.trans (inOrder_part (b := (ofReport r).findings) (fun _ => rfl) ?_ _ _) ?_
    · cases hfindings : r.findings with
      | none =>
          rw [ofReport, hfindings]
          rfl
      | some fs =>
          rw [ofReport, hfindings]
          refine Json.Fill.gives_list fun f hf => FindingForm.fill_toJson (h.findings f ?_)
          rw [Report.allFindings, hfindings]
          exact hf
    refine Eq.trans (inOrder_part (b := r.summary) (fun _ => rfl) ?_ _ _) ?_
    · exact Summary.fill_toJson h.summary
    refine Eq.trans (inOrder_part (b := r.provenance) (fun _ => rfl) ?_ _ _) ?_
    · exact r.provenance.fill_toJson
    refine Eq.trans (inOrder_part (b := (ofReport r).diagnostics) (fun _ => rfl) ?_ _ _) ?_
    · simpa [ofReport] using gives_listField fun d (_ : d ∈ r.diagnostics) => d.fill_toJson
    rfl
  · rfl
  · decide

end ReportForm

/-! ## Documents -/

theorem legible_textField (s : String) : ∀ v ∈ textField? s, Legible v := by
  intro v hv
  rw [textField?] at hv
  split at hv
  · cases hv
  · cases hv
    exact .string s

theorem legible_listField {vs : List Json} (h : ∀ v ∈ vs, Legible v) :
    ∀ v ∈ listField? vs, Legible v := by
  intro v hv
  rw [listField?] at hv
  split at hv
  · cases hv
  · cases hv
    exact .array h

theorem Finding.legible_toJson {f : Finding} (h : f.Readable) : Legible f.toJson := by
  have hsnippet : ∀ v ∈ if f.snippet.isEmpty then none else some (Json.bytes f.snippet),
      Legible v := by
    obtain ⟨s, hs⟩ := h.snippet
    rw [hs]
    split
    · exact nofun
    · simpa using Legible.bytes s
  have hreferences : ∀ v ∈ f.references.map Json.string, Legible v := by
    intro v hv
    obtain ⟨s, -, rfl⟩ := List.mem_map.mp hv
    exact .string s
  have hcolumn : ∀ v ∈ if f.column = 0 then none else some (Json.int f.column), Legible v := by
    split
    · exact nofun
    · simpa using Legible.int f.column
  refine Json.legible_ofFields ?_
  simp only [List.forall_mem_cons, Option.mem_some_iff, forall_eq']
  exact ⟨.string _, .string _, .string _, .string _, .string _, .string _, hsnippet,
    legible_textField _, legible_listField hreferences, .int _, hcolumn, nofun⟩

theorem Diagnostic.legible_toJson (d : Diagnostic) : Legible d.toJson := by
  refine .object ?_
  simp only [List.forall_mem_cons]
  exact ⟨.string _, .string _, .string _, .string _, nofun⟩

theorem Provenance.legible_toJson (p : Provenance) : Legible p.toJson := by
  refine Json.legible_ofFields ?_
  simp only [List.forall_mem_cons, Option.mem_some_iff, forall_eq']
  exact ⟨.string _, legible_textField _, .string _, nofun⟩

theorem Summary.legible_toJson (s : Summary) : Legible s.toJson := by
  refine .object ?_
  simp only [List.forall_mem_cons]
  refine ⟨?_, .int _, .int _, .int _, .bool _, nofun⟩
  split
  · refine .object fun f hf => ?_
    obtain ⟨c, -, rfl⟩ := List.mem_map.mp hf
    exact .int c.2
  · exact .null

namespace Report

theorem legible_toJson {r : Report} (h : r.Readable) : Legible r.toJson := by
  have hdiagnostics : ∀ v ∈ r.diagnostics.map Diagnostic.toJson, Legible v := by
    intro v hv
    obtain ⟨d, -, rfl⟩ := List.mem_map.mp hv
    exact d.legible_toJson
  refine Json.legible_ofFields ?_
  simp only [List.forall_mem_cons, Option.mem_some_iff, forall_eq']
  refine ⟨.string _, ?_, r.summary.legible_toJson, r.provenance.legible_toJson,
    legible_listField hdiagnostics, nofun⟩
  split
  · next fs hfs =>
      refine .array fun v hv => ?_
      obtain ⟨f, hf, rfl⟩ := List.mem_map.mp hv
      refine Finding.legible_toJson (h.findings f ?_)
      rw [allFindings, hfs]
      exact hf
  · exact .null

/-- A report is read from its document. -/
theorem read_document {r : Report} (h : r.Readable) : read r.document = .ok r := by
  have hfront : Json.front r.document = .ok (r.toJson.texts, ['\n']) :=
    Json.front_append (legible_toJson h) (some 0) (Json.closed_cons (by decide))
  rw [read, hfront]
  dsimp only
  rw [ReportForm.fill_toJson h]
  exact congrArg Except.ok (ReportForm.done_ofReport r)

/-! ## Reports that were built -/

/-- Erasing repetitions leaves a part of a list without repetitions. -/
theorem eraseDups_spec {α : Type} [DecidableEq α] (l : List α) :
    l.eraseDups.Nodup ∧ l.eraseDups.Sublist l := by
  induction hn : l.length using Nat.strongRecOn generalizing l with
  | ind n ih =>
      cases l with
      | nil => exact ⟨List.nodup_nil, List.Sublist.refl _⟩
      | cons a rest =>
          subst hn
          rw [List.eraseDups_cons]
          obtain ⟨hnodup, hsub⟩ := ih _ (Nat.lt_succ_of_le (List.length_filter_le _ rest))
            (rest.filter fun b => !b == a) rfl
          refine ⟨List.nodup_cons.mpr ⟨fun hmem => ?_, hnodup⟩,
            List.Sublist.cons_cons a (hsub.trans List.filter_sublist)⟩
          simpa using (List.mem_filter.mp (List.mem_eraseDups.mp hmem)).2

section Build

variable {findings : List Finding} {profile : String} {microseconds : Int} {o : Options}

theorem canonical_verdict (t : Thresholds) (findings : List Finding) :
    (verdict t findings).Canonical := by
  rw [verdict]
  split
  · rfl
  · split <;> rfl

theorem canonical_of_mem_severitiesOf (h : ∀ f ∈ findings, f.severity.Canonical) :
    ∀ s ∈ severitiesOf findings, s.Canonical := by
  intro s hs
  rw [severitiesOf, List.mem_mergeSort, List.mem_eraseDups] at hs
  rcases List.mem_append.mp hs with hs | hs
  · have hall : ∀ s ∈ Severity.all, s.Canonical := by
      intro s hs
      simp only [Severity.all, List.mem_cons, List.not_mem_nil, or_false] at hs
      rcases hs with rfl | rfl | rfl | rfl <;> rfl
    exact hall s hs
  · obtain ⟨f, hf, rfl⟩ := List.mem_map.mp hs
    exact h f hf

/-- The severities that are counted have names of their own, in order. -/
theorem pairwise_severitiesOf (h : ∀ f ∈ findings, f.severity.Canonical) :
    (severitiesOf findings).Pairwise fun a b => a.name < b.name := by
  refine Text.pairwise_sorted_lt Severity.name (List.Nodup.map_on ?_ (eraseDups_spec _).1)
  intro a ha b hb hname
  have hcanonical : ∀ s ∈ (Severity.all ++ findings.map Finding.severity).eraseDups, s.Canonical :=
    fun s hs => canonical_of_mem_severitiesOf h s (List.mem_mergeSort.mpr hs)
  rw [← hcanonical a ha, hname, hcanonical b hb]

theorem fits_of_le {n : Nat} {m : Int} (h : (n : Int) ≤ m) (hm : Word.fits m = true) :
    Word.fits n = true := by
  simp only [Word.fits, Bool.and_eq_true, decide_eq_true_eq] at hm ⊢
  omega

theorem fits_millisecondsOf (h : Word.fits microseconds = true) :
    Word.fits (millisecondsOf microseconds) = true := by
  have hpos : (0 : Int) < 1000 := by decide
  simp only [Word.fits, Bool.and_eq_true, decide_eq_true_eq] at h ⊢
  constructor
  · exact Int.le_trans (by decide) (Int.tdiv_le_tdiv hpos h.1)
  · exact Int.lt_of_le_of_lt (Int.tdiv_le_tdiv hpos (Int.le_sub_one_of_lt h.2)) (by decide)

theorem readable_build (hfindings : ∀ f ∈ findings, f.Readable)
    (hlength : Word.fits findings.length = true) (hmicroseconds : Word.fits microseconds = true) :
    (build findings profile microseconds o).Readable := by
  have hcanonical : ∀ f ∈ findings, f.severity.Canonical := fun f hf => (hfindings f hf).severity
  refine ⟨canonical_verdict _ _, fun f hf => hfindings f (List.mem_mergeSort.mp hf), ?_⟩
  refine ⟨?_, ?_, hlength, fits_millisecondsOf hmicroseconds⟩
  · intro counts hcounts
    obtain rfl : countsOf findings = counts := Option.some.inj hcounts
    refine ⟨?_, List.pairwise_map.mpr (pairwise_severitiesOf hcanonical)⟩
    intro c hc
    obtain ⟨s, hs, rfl⟩ := List.mem_map.mp hc
    refine ⟨canonical_of_mem_severitiesOf hcanonical s hs, fits_of_le ?_ hlength⟩
    exact Int.ofNat_le.mpr List.countP_le_length
  · refine fits_of_le (Int.ofNat_le.mpr ?_) hlength
    have hle := (eraseDups_spec (findings.map Finding.file)).2.length_le
    rwa [List.length_map] at hle

end Build

/-- **A report is read back as it was built.**  Whatever the findings, thresholds, names, times and
diagnostics are, reading the bytes of the document of a report succeeds and gives the report. -/
theorem read_build {findings : List Finding} (hfindings : ∀ f ∈ findings, f.Readable)
    (hlength : Word.fits findings.length = true) (profile : String) {microseconds : Int}
    (hmicroseconds : Word.fits microseconds = true) (o : Options) :
    read (textOf (bytesOf (build findings profile microseconds o).document)) =
      .ok (build findings profile microseconds o) := by
  rw [textOf_bytesOf]
  exact read_document (readable_build hfindings hlength hmicroseconds)

/-- A finding with a severity of its own, no column, no references and characters that are
escaped. -/
def oddFinding : Finding :=
  { rule := "r", message := "\"<&>\\\n\x01\u2028", file := "f", severity := .other "blocker"
    category := "guardrail", confidence := .medium, snippet := bytesOf "\u2029é", line := 1 }

theorem read_build_sample :
    read (textOf (bytesOf (build [oddFinding] "p" 1500 { trace := "t" }).document)) =
      .ok (build [oddFinding] "p" 1500 { trace := "t" }) := by
  refine read_build ?_ (by decide) "p" (by decide) _
  intro f hf
  rw [List.mem_singleton.mp hf]
  exact ⟨rfl, rfl, ⟨_, rfl⟩, by decide, by decide⟩

end Report

end RuleScan
