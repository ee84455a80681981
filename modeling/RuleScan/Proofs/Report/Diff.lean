import RuleScan.Cli.Program
import RuleScan.Proofs.Diff.Entries
import RuleScan.Proofs.Finding.Distinct
import RuleScan.Proofs.Report.Roundtrip
import RuleScan.Proofs.Text.Space

/-!
# Which changes a difference between reports shows

A difference is made of entries, one a finding, and of a finding an entry tells the rule, the
place, the severity and the message (`Finding.told`).  So the question is whether the difference is
empty just if both reports tell the same.

## What is proved

`diff?_build`, for any two reports that are built:

  * the same things told, and of each place one thing only, make no difference;
  * no difference means the same things told, in the same order, if the entries can be read back
    (`Finding.Separable`) and there is a character for each of them;
  * the program ends with code zero just if there is no difference.

## Why not more

Findings are put in order by place, so two findings of ONE place stay in the order in which they
came, and the other order is a difference.  An evaluation never gives two findings of one place, but
a report can be built with them.

An entry is read back by its blanks and brackets.  What is left of a blank in the name of a rule may
as well be the rule, and what is right of it the start of the file: then different findings have one
entry, and no difference is seen.  `diff?_build_unlike` has an example of both.
-/

namespace RuleScan

open RuleScan.Text (bytesOf textOf_bytesOf)

/-- Lists that agree in one respect agree in another that depends on it. -/
theorem map_eq_map_of {α β γ : Type} {f : α → β} {g : α → γ} {l l' : List α}
    (h : ∀ a ∈ l, ∀ b ∈ l', f a = f b → g a = g b) (heq : l.map f = l'.map f) :
    l.map g = l'.map g := by
  induction l generalizing l' with
  | nil => rw [List.map_eq_nil_iff.mp heq.symm]
  | cons a l ih =>
      cases l' with
      | nil => cases heq
      | cons b l' =>
          obtain ⟨hhead, htail⟩ := List.cons.inj heq
          rw [List.map_cons, List.map_cons, h a List.mem_cons_self b List.mem_cons_self hhead,
            ih (fun a ha b hb => h a (List.mem_cons_of_mem _ ha) b (List.mem_cons_of_mem _ hb))
              htail]

namespace Finding

/-! ## What an entry tells -/

/-- What an entry tells of a finding. -/
def told (f : Finding) : String × String × Int × Int × String × String :=
  (f.rule, f.file, f.line, f.column, f.severity.name, f.message)

/-- The file with the place in it, as an entry has it. -/
def whereabouts (f : Finding) : List Char :=
  f.file.toList ++ ':' :: ((toString f.line).toList ++ ':' :: (toString f.column).toList)

/-- An entry without its end. -/
def inLine (f : Finding) : List Char :=
  f.rule.toList ++ ' ' :: (f.whereabouts ++ ' ' :: '[' ::
    (f.severity.name.toList ++ ']' :: ' ' :: f.message.toList))

/-- An entry is one line, and its parts can be told apart. -/
structure Separable (f : Finding) : Prop where
  rule : ' ' ∉ f.rule.toList
  file : ¬ [' ', '['] <:+: f.file.toList
  severity : ']' ∉ f.severity.name.toList
  lines : '\n' ∉ f.rule.toList ++ f.file.toList ++ f.severity.name.toList ++ f.message.toList

instance (f : Finding) : Decidable f.Separable :=
  decidable_of_iff (' ' ∉ f.rule.toList ∧ ¬ [' ', '['] <:+: f.file.toList ∧
      ']' ∉ f.severity.name.toList ∧
      '\n' ∉ f.rule.toList ++ f.file.toList ++ f.severity.name.toList ++ f.message.toList)
    ⟨fun ⟨hrule, hfile, hseverity, hlines⟩ => ⟨hrule, hfile, hseverity, hlines⟩,
      fun h => ⟨h.rule, h.file, h.severity, h.lines⟩⟩

theorem toList_entry (f : Finding) : f.entry.toList = f.inLine ++ ['\n'] := by
  simp only [entry, inLine, whereabouts, String.toList_append]
  simp

theorem entry_eq_of_told {f g : Finding} (h : f.told = g.told) : f.entry = g.entry := by
  simp only [told, Prod.mk.injEq] at h
  obtain ⟨hrule, hfile, hline, hcolumn, hseverity, hmessage⟩ := h
  simp only [entry, hrule, hfile, hline, hcolumn, hseverity, hmessage]

theorem notMem_toString {c : Char} (hdigit : c.isDigit = false) (hsign : c ≠ '-') (n : Int) :
    c ∉ (toString n).toList := by
  rw [Json.toList_toString]
  split
  · exact notMem_toDigits hdigit _
  · exact List.not_mem_cons_of_ne_of_not_mem hsign (notMem_toDigits hdigit _)

theorem toString_injective {m n : Int} (h : (toString m).toList = (toString n).toList) : m = n := by
  have hread (k : Int) : Json.readNumber ((toString k).toList ++ []) = .ok (.int k, []) :=
    Json.readNumber_toString k (by simp [Json.Closed])
  have heq := hread m
  rw [h, hread n] at heq
  cases heq
  rfl

theorem notMem_inLine {f : Finding} (h : f.Separable) : '\n' ∉ f.inLine := by
  have hlines := h.lines
  have hnumber := notMem_toString (c := '\n') (by decide) (by decide)
  simp only [List.mem_append, not_or] at hlines
  simp only [inLine, whereabouts, List.mem_append, List.mem_cons, hlines, hnumber, not_or]
  decide

/-- The bracket behind the place is the first one behind a blank. -/
theorem not_infix_whereabouts {f : Finding} (h : f.Separable) :
    ¬ [' ', '['] <:+: f.whereabouts := by
  intro hinfix
  refine h.file (infix_of_infix_append hinfix ?_)
  have hnumber := notMem_toString (c := '[') (by decide) (by decide)
  simp only [List.mem_append, List.mem_cons, hnumber, not_or]
  decide

theorem told_eq_of_inLine {f g : Finding} (hf : f.Separable) (hg : g.Separable)
    (h : f.inLine = g.inLine) : f.told = g.told := by
  have hcolon := notMem_toString (c := ':') (by decide) (by decide)
  obtain ⟨hrule, h⟩ := append_cons_cancel hf.rule hg.rule h
  obtain ⟨hplace, h⟩ := append_pair_cancel (by decide) (not_infix_whereabouts hf)
    (not_infix_whereabouts hg) h
  obtain ⟨hseverity, h⟩ := append_cons_cancel hf.severity hg.severity h
  have hmessage := (List.cons.inj h).2
  rw [whereabouts, whereabouts, ← List.cons_append, ← List.append_assoc, ← List.cons_append,
    ← List.append_assoc] at hplace
  obtain ⟨hplace, hcolumn⟩ := append_cons_cancel_last (hcolon _) (hcolon _) hplace
  obtain ⟨hfile, hline⟩ := append_cons_cancel_last (hcolon _) (hcolon _) hplace
  simp only [told, Prod.mk.injEq]
  exact ⟨String.toList_inj.mp hrule, String.toList_inj.mp hfile, toString_injective hline,
    toString_injective hcolumn, String.toList_inj.mp hseverity, String.toList_inj.mp hmessage⟩

/-- Entries that can be read back are the same text just if they tell the same. -/
theorem join_entries_eq_iff {l l' : List Finding} (h : ∀ f ∈ l, f.Separable)
    (h' : ∀ f ∈ l', f.Separable) :
    String.join (l.map entry) = String.join (l'.map entry) ↔ l.map told = l'.map told := by
  have hjoin : ∀ l : List Finding,
      (String.join (l.map entry)).toList = (l.map inLine).flatMap (· ++ ['\n']) := by
    intro l
    rw [String.toList_join, List.flatMap_map, List.flatMap_map]
    exact List.flatMap_congr fun f _ => toList_entry f
  constructor
  · intro heq
    have hlines := congrArg String.toList heq
    rw [hjoin, hjoin] at hlines
    have hsame := flatMap_ended_cancel
      (List.forall_mem_map.mpr fun f hf => notMem_inLine (h f hf))
      (List.forall_mem_map.mpr fun f hf => notMem_inLine (h' f hf)) hlines
    exact map_eq_map_of (fun f hf g hg => told_eq_of_inLine (h f hf) (h' g hg)) hsame
  · intro heq
    rw [map_eq_map_of (fun f _ g _ => entry_eq_of_told) heq]

/-! ## The order of what is told -/

/-- Where a place has one finding only, as far as is told, the order of findings leaves no choice. -/
theorem map_told_sort_of_perm {l l' : List Finding}
    (hone : ∀ f ∈ l, ∀ g ∈ l, f.key = g.key → f.told = g.told)
    (hperm : (l.map told).Perm (l'.map told)) : (sort l).map told = (sort l').map told := by
  have hsort : ∀ m : List Finding, ((sort m).map told).Perm (m.map told) := fun m =>
    (List.mergeSort_perm m notAfter).map told
  have hsorted : ∀ m : List Finding, ((sort m).map told).Pairwise
      fun t u => ∀ f g : Finding, f.told = t → g.told = u → notAfter f g = true := by
    intro m
    refine List.pairwise_map.mpr ((pairwise_sort m).imp fun {f g} h f' g' hf hg => ?_)
    simp only [told, Prod.mk.injEq] at hf hg
    obtain ⟨hrule, hfile, hline, hcolumn, -⟩ := hf
    obtain ⟨hrule', hfile', hline', hcolumn', -⟩ := hg
    have hsame : compare f' g' = compare f g := by
      rw [compare, hrule, hfile, hline, hcolumn, hrule', hfile', hline', hcolumn', compare]
    rwa [notAfter, hsame]
  refine (((hsort l).trans hperm).trans (hsort l').symm).eq_of_pairwise ?_ (hsorted l) (hsorted l')
  intro t u ht hu htu hut
  obtain ⟨f, hf, rfl⟩ := List.mem_map.mp ((hsort l).mem_iff.mp ht)
  obtain ⟨g, hg, rfl⟩ := List.mem_map.mp (hperm.mem_iff.mpr ((hsort l').mem_iff.mp hu))
  exact hone f hf g hg (key_eq_of_notAfter (htu f g rfl rfl) (hut g f rfl rfl))

end Finding

/-! ## Differences that are empty -/

/-- A difference is shown where there are edits. -/
def Diff.Differ.Tells (d : Diff.Differ) : Prop :=
  ∀ oldLabel newLabel text edits, edits ≠ [] → d.unified? oldLabel newLabel text edits ≠ some ""

theorem Diff.isSome_current_foldl (old : List String) (edits : List (Edit String)) {m : Making}
    (h : m.current.isSome = true) : (edits.foldl (Making.add old) m).current.isSome = true := by
  induction edits generalizing m with
  | nil => exact h
  | cons e rest ih => exact ih rfl

theorem Diff.hunks_ne_nil (old : List String) {edits : List (Edit String)} (h : edits ≠ []) :
    hunks old edits ≠ [] := by
  obtain ⟨e, rest, rfl⟩ := List.exists_cons_of_ne_nil h
  have hcurrent : (Making.add old {} e).current.isSome = true := rfl
  obtain ⟨hunk, hhunk⟩ := Option.isSome_iff_exists.mp (isSome_current_foldl old rest hcurrent)
  rw [hunks, List.foldl_cons, hhunk]
  exact List.append_ne_nil_of_right_ne_nil _ (List.cons_ne_nil _ _)

theorem Diff.Differ.standard_tells : Diff.Differ.standard.Tells := by
  intro oldLabel newLabel text edits hedits
  have hlines : edits.map (·.inLines (textLines text)) ≠ [] := mt List.map_eq_nil_iff.mp hedits
  have hhunks := hunks_ne_nil (textLines text) hlines
  simp only [standard, Diff.unified?]
  split
  · rw [if_neg (by simpa using hhunks)]
    intro heq
    have hempty := congrArg String.toList (Option.some.inj heq)
    simp at hempty
  · exact (Option.some_ne_none "").symm

namespace Report

section

variable {d : Diff.Differ} (hd : d.Lawful) (htells : d.Tells) {old new : Report}
  (hcount : (old.entries ++ new.entries).toFinset.card ≤ Diff.symbolCount)

include hd htells hcount

/-- There is no difference just if the entries are the same text. -/
theorem diff?_eq_empty_iff (oldLabel newLabel : String) :
    diff? d oldLabel old newLabel new = some "" ↔
      String.join old.entries = String.join new.entries := by
  rw [diff?]
  split
  next h => exact ⟨fun _ => h, fun _ => rfl⟩
  next h =>
    obtain ⟨edits, hedits, horder, happly⟩ := hd.exists_edits hcount
    have hsome : edits ≠ [] := by
      rintro rfl
      exact h (congrArg String.join happly)
    rw [hedits]
    refine iff_of_false (htells _ _ _ _ ?_) h
    exact mt List.map_eq_nil_iff.mp hsome

end

theorem entries_build (findings : List Finding) (profile : String) (microseconds : Int)
    (o : Options) : (build findings profile microseconds o).entries =
      (Finding.sort findings).map Finding.entry := by
  have hsort : Finding.sort (Finding.sort findings) = Finding.sort findings :=
    List.mergeSort_of_pairwise (Finding.pairwise_sort findings)
  rw [entries, allFindings, build, Option.getD_some, hsort]

end Report

/-- The program ends with code zero just if there is no difference. -/
theorem Cli.code_runDiff {w : World} {old new : String} {a b : Report}
    (ha : readReport w.disk old = .ok a) (hb : readReport w.disk new = .ok b) :
    (runDiff w old new).ending.code = 0 ↔ Report.diff? .standard old a new b = some "" := by
  cases hdiff : Report.diff? .standard old a new b with
  | none =>
      have hrun : runDiff w old new = w.ends (.ok ("", .status breakdownCode)) := by
        simp only [runDiff, ha, hb, bind, Except.bind, hdiff]
        rfl
      simp [hrun, World.ends, Ending.code, breakdownCode]
  | some text =>
      have hrun : runDiff w old new =
          w.ends (.ok (text, .ofCode (if text = "" then 0 else 1))) := by
        simp only [runDiff, ha, hb, bind, Except.bind, hdiff]
        rfl
      rw [hrun]
      by_cases htext : text = "" <;> simp [World.ends, Ending.code, Ending.ofCode, htext]

namespace Report

open Finding (told perm_sort)

/-- Where entries can be told apart, there is no difference just if the same is told in the same
order. -/
theorem diff?_build_eq_empty_iff {d : Diff.Differ} (hd : d.Lawful) (htells : d.Tells)
    {findings findings' : List Finding} (hseparable : ∀ f ∈ findings ++ findings', f.Separable)
    (hcount : ((findings ++ findings').map Finding.entry).toFinset.card ≤ Diff.symbolCount)
    (profile profile' : String) (microseconds microseconds' : Int) (o o' : Options)
    (oldLabel newLabel : String) :
    diff? d oldLabel (build findings profile microseconds o) newLabel
        (build findings' profile' microseconds' o') = some "" ↔
      (Finding.sort findings).map told = (Finding.sort findings').map told := by
  have hentries : ((build findings profile microseconds o).entries ++
      (build findings' profile' microseconds' o').entries).toFinset.card ≤ Diff.symbolCount := by
    rw [entries_build, entries_build, ← List.map_append, List.toFinset_eq_of_perm _ _
      (((perm_sort findings).append (perm_sort findings')).map Finding.entry)]
    exact hcount
  rw [diff?_eq_empty_iff hd htells hentries, entries_build, entries_build]
  exact Finding.join_entries_eq_iff
    (fun f hf => hseparable f (List.mem_append_left _ ((perm_sort _).mem_iff.mp hf)))
    (fun f hf => hseparable f (List.mem_append_right _ ((perm_sort _).mem_iff.mp hf)))

/-- **What no difference between two reports means.**  The first part asks that one thing only is
told of each place, the second that entries can be read back and told apart. -/
theorem diff?_build (d : Diff.Differ) (hd : d.Lawful) (htells : d.Tells)
    (findings findings' : List Finding) (profile profile' : String)
    (microseconds microseconds' : Int) (o o' : Options) :
    let old := build findings profile microseconds o
    let new := build findings' profile' microseconds' o'
    ((∀ f ∈ findings, ∀ g ∈ findings, f.key = g.key → f.told = g.told) →
      (findings.map told).Perm (findings'.map told) →
      ∀ oldLabel newLabel, diff? d oldLabel old newLabel new = some "") ∧
    ((∀ f ∈ findings ++ findings', f.Separable) →
      ((findings ++ findings').map Finding.entry).toFinset.card ≤ 0x100000 →
      ∀ oldLabel newLabel,
        (diff? d oldLabel old newLabel new = some "" ↔
          old.allFindings.map told = new.allFindings.map told) ∧
        (diff? d oldLabel old newLabel new = some "" →
          (findings.map told).Perm (findings'.map told))) ∧
    ∀ (w : Cli.World) (oldPath newPath : String), Cli.readReport w.disk oldPath = .ok old →
      Cli.readReport w.disk newPath = .ok new →
      ((Cli.runDiff w oldPath newPath).ending.code = 0 ↔
        diff? .standard oldPath old newPath new = some "") := by
  intro old new
  refine ⟨fun hone hperm oldLabel newLabel => ?_, fun hseparable hcount oldLabel newLabel => ?_,
    fun w oldPath newPath => Cli.code_runDiff⟩
  · have hsame := map_eq_map_of (fun f _ g _ => Finding.entry_eq_of_told)
      (Finding.map_told_sort_of_perm hone hperm)
    rw [diff?, entries_build, entries_build, if_pos (congrArg String.join hsame)]
  · have hempty : diff? d oldLabel old newLabel new = some "" ↔
        (Finding.sort findings).map told = (Finding.sort findings').map told :=
      diff?_build_eq_empty_iff hd htells hseparable hcount _ _ _ _ _ _ _ _
    refine ⟨hempty, fun h => ?_⟩
    exact (((perm_sort findings).map told).symm.trans (.of_eq (hempty.mp h))).trans
      ((perm_sort findings').map told)

/-- A report is read from a file with its document. -/
theorem readReport_of_stat {d : Disk} {path : String} {r : Report}
    (hstat : d.stat path = .ok (.file (bytesOf r.document))) (hr : r.Readable) :
    Cli.readReport d path = .ok r := by
  rw [Cli.readReport, hstat]
  simp only [textOf_bytesOf, read_document hr]
  rfl

/-! ## Two findings, and two of one place -/

/-- A finding. -/
def lowFinding : Finding :=
  { rule := "r", message := "m", file := "f", severity := .low, category := "c"
    confidence := .high, line := 1, column := 1 }

/-- The same in another file. -/
def otherFinding : Finding := { lowFinding with file := "g" }

/-- A disk with two reports. -/
def reportsDisk (old new : Report) : Disk :=
  { root := .directory [("a", .file (bytesOf old.document)), ("b", .file (bytesOf new.document))] }

theorem stat_reportsDisk (old new : Report) :
    (reportsDisk old new).stat "a" = .ok (.file (bytesOf old.document)) ∧
      (reportsDisk old new).stat "b" = .ok (.file (bytesOf new.document)) := by
  have hplace : (reportsDisk old new).place "a" = .ok ["a"] ∧
      (reportsDisk old new).place "b" = .ok ["b"] := by
    have hnames : Disk.fullNames {} "a" = ["a"] ∧ Disk.fullNames {} "b" = ["b"] := by decide
    constructor
    · rw [Disk.place, show (reportsDisk old new).fullNames "a" = ["a"] from hnames.1, Disk.follow]
      rfl
    · rw [Disk.place, show (reportsDisk old new).fullNames "b" = ["b"] from hnames.2, Disk.follow]
      rfl
  constructor
  · rw [Disk.stat, hplace.1]
    rfl
  · rw [Disk.stat, hplace.2]
    rfl

theorem readable_lowFinding {findings : List Finding}
    (h : findings.Perm [lowFinding, otherFinding]) : (build findings "p" 0).Readable := by
  refine readable_build (fun f hf => ?_) (by rw [h.length_eq]; decide) (by decide)
  have hmem := h.mem_iff.mp hf
  have hsnippet : [] = bytesOf "" := by rw [Text.bytesOf_eq]; rfl
  simp only [List.mem_cons, List.not_mem_nil, or_false] at hmem
  rcases hmem with rfl | rfl <;> exact ⟨rfl, rfl, ⟨"", hsnippet⟩, by decide, by decide⟩

theorem diff?_build_sample :
    let old := build [lowFinding, otherFinding] "p" 0
    let new := build [otherFinding, lowFinding] "p" 0
    diff? .standard "a" old "b" new = some "" ∧
      ([lowFinding, otherFinding].map told).Perm ([otherFinding, lowFinding].map told) ∧
      (Cli.runDiff { disk := reportsDisk old new } "a" "b").ending.code = 0 := by
  intro old new
  obtain ⟨hsame, hchanged, hcode⟩ := diff?_build .standard Diff.Differ.standard_lawful
    Diff.Differ.standard_tells [lowFinding, otherFinding] [otherFinding, lowFinding] "p" "p" 0 0
    {} {}
  have hswap : [lowFinding, otherFinding].Perm [otherFinding, lowFinding] := .swap _ _ _
  have hempty := hsame (by decide) (hswap.map told) "a" "b"
  have hstat := stat_reportsDisk old new
  have hread := readReport_of_stat hstat.1 (readable_lowFinding (.refl _))
  have hread' := readReport_of_stat hstat.2 (readable_lowFinding hswap.symm)
  refine ⟨hempty, (hchanged (by decide) (by decide) "a" "b").2 hempty, ?_⟩
  exact (hcode { disk := reportsDisk old new } "a" "b" hread hread').mpr hempty

/-- The same findings, two of one place in another order, make a difference; and two findings whose
entries read the same make none. -/
theorem diff?_build_unlike :
    let first := { lowFinding with message := "n" }
    let blank := { lowFinding with rule := "a b", file := "c" }
    let moved := { lowFinding with rule := "a", file := "b c" }
    ([lowFinding, first].map told).Perm ([first, lowFinding].map told) ∧
      diff? .standard "old" (build [lowFinding, first] "p" 0) "new"
        (build [first, lowFinding] "p" 0) ≠ some "" ∧
      ¬ ([blank].map told).Perm ([moved].map told) ∧
      diff? .standard "old" (build [blank] "p" 0) "new" (build [moved] "p" 0) = some "" := by
  intro first blank moved
  have hsort : ∀ l : List Finding, l.Pairwise (fun f g => Finding.notAfter f g = true) →
      Finding.sort l = l := fun l => List.mergeSort_of_pairwise
  refine ⟨.swap _ _ _, ?_, by decide, ?_⟩
  · rw [Ne, diff?_build_eq_empty_iff Diff.Differ.standard_lawful Diff.Differ.standard_tells ?_ ?_,
      hsort _ (by decide), hsort _ (by decide)]
    · decide
    · decide
    · decide
  · rw [diff?, entries_build, entries_build, if_pos]
    rw [hsort [blank] (by decide), hsort [moved] (by decide)]
    decide

end Report

end RuleScan
