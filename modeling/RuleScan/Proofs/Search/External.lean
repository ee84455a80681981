import RuleScan.Proofs.Engine.Places
import RuleScan.Proofs.Search.Record

/-!
# Searching with a program

The search with an external program gives its files to the program batch by batch and reads what
is printed.  Here it is compared with the search that is done without a program.

## What is proved

`external_eq_native`: if the program prints the records of the matches, then both searches end
well and give the SAME list of matches.

## What is asked of the program

Only what it prints when it is given paths of files that may be searched: the records of these
files in their order, and the code 1 if there are none (`Response.Tells`).  What it would print for
other files does not matter, for it is never asked about them.  A path may hold no line feed and no
zero byte, because these end a record and a path.
-/

namespace RuleScan

open RuleScan.Text (Bytes bytesOf)

/-- A response tells of records: it prints them, and its code says whether there are any. -/
structure Response.Tells (response : Response) (records : List Bytes) : Prop where
  stdout : response.stdout = Searcher.printed records
  exit : response.exit = if records.isEmpty then 1 else 0

/-! ## Programs keep their answers -/

/-- Recording a call changes no name, so that the same program is found. -/
theorem Programs.find?_record {ps : Programs} {workingDirectory name called : String}
    {arguments : List String} {p : Program} (h : ps.find? workingDirectory name = some p) :
    ∃ p', (ps.record called arguments).find? workingDirectory name = some p' ∧
      p'.answer? = p.answer? := by
  rw [Programs.find?] at h
  refine ⟨if p.name = called then { p with calls := p.calls ++ [arguments] } else p, ?_, ?_⟩
  · rw [Programs.find?, Programs.record, List.find?_map]
    have hname : ∀ plain : String, ((fun p : Program => decide (p.name = plain)) ∘
        fun p => if p.name = called then { p with calls := p.calls ++ [arguments] } else p) =
          fun p => decide (p.name = plain) := by
      intro plain
      funext p
      simp only [Function.comp_apply]
      split <;> rfl
    rw [hname, h]
    rfl
  · split <;> rfl

namespace RunM

/-- A program that is found and answers is run to its end. -/
theorem yields_exec {workingDirectory : String} {c : Command} {s : Run} {p : Program}
    {response : Response} (hname : c.name ≠ "")
    (hfind : s.programs.find? workingDirectory c.name = some p)
    (hanswer : p.answer? c.arguments = some response) :
    (exec Signal.quiet workingDirectory c).Yields s
      (if response.exit % 256 = 0 then .ok response
      else .error (.exited { response with exit := response.exit % 256 }
        (.of .commandExecution ("run: exit status " ++ toString (response.exit % 256)))))
      { moment := s.moment + 1, programs := s.programs.record p.name c.arguments } := by
  have hrespond : p.respond c.arguments = response := by
    rw [Program.respond, hanswer]
    rfl
  have hget : Yields (get : RunM Run) s s s := rfl
  have hrecord : Yields
      (modify fun r => { r with programs := r.programs.record p.name c.arguments })
      { s with moment := s.moment + 1 } PUnit.unit
      { moment := s.moment + 1, programs := s.programs.record p.name c.arguments } := rfl
  rw [exec, if_neg hname]
  refine hget.bind ?_
  simp only [hfind]
  refine (yields_look_quiet s).bind ?_
  simp only [hrespond]
  refine hrecord.bind ?_
  split <;> exact Yields.pure _ _

end RunM

namespace Searcher

/-! ## Batches -/

/-- No path is lost, repeated or moved. -/
theorem flatten_batches (n : Nat) (paths : List String) : (batches n paths).flatten = paths := by
  fun_induction batches n paths with
  | case1 => rfl
  | case2 first rest ih => rw [List.flatten_cons, ih, List.cons_append, List.take_append_drop]

theorem length_of_mem_batches {n : Nat} {paths b : List String} (h : b ∈ batches n paths) :
    b.length ≤ n + 1 := by
  fun_induction batches n paths with
  | case1 => cases h
  | case2 first rest ih =>
      rcases List.mem_cons.mp h with rfl | h
      · exact Nat.succ_le_succ (List.length_take_le n rest)
      · exact ih h

/-! ## One batch after the other -/

/-- The records of a file, if it may be searched. -/
def pathRecords (q : SearchRequest) (file : String) : List Bytes :=
  match q.read file with
  | some content => fileRecords q.matcher file content
  | none => []

/-- A program answers for some paths as a request asks for. -/
def AnswersFor (p : Program) (c : Command) (q : SearchRequest) (paths : List String) : Prop :=
  ∃ response, p.answer? (c.arguments ++ searchArguments q.matcher.pattern paths) = some response ∧
    response.Tells (paths.flatMap (pathRecords q))

/-- What is read from the records of paths are the matches in their files. -/
theorem outputMatches_pathRecords {q : SearchRequest} {paths : List String}
    (hpaths : ∀ path ∈ paths, 10 ∉ bytesOf path ∧ 0 ∉ bytesOf path)
    (hlength : ∀ path content, q.read path = some content → content.length + 1 < Word.half) :
    outputMatches (printed (paths.flatMap (pathRecords q))) =
      paths.flatMap (Engine.matchesIn q.read q.matcher) := by
  rw [outputMatches_printed, List.filterMap_flatMap]
  · refine List.flatMap_congr fun path hpath => ?_
    rw [pathRecords, Engine.matchesIn]
    cases hread : q.read path with
    | none => rfl
    | some content =>
        exact filterMap_fileRecords q.matcher (hpaths path hpath).2 (hlength path content hread)
  · intro r hr
    obtain ⟨path, hpath, hr⟩ := List.mem_flatMap.mp hr
    rw [pathRecords] at hr
    split at hr
    · obtain ⟨⟨raw, i⟩, hp, hr⟩ := List.mem_filterMap.mp hr
      obtain ⟨column, -, rfl⟩ := Option.map_eq_some_iff.mp hr
      have hraw : raw ∈ contentLines _ :=
        List.mem_of_getElem? (List.mem_zipIdx_iff_getElem?.mp hp)
      exact not_mem_record (hpaths path hpath).1 _ _ (not_mem_of_mem_contentLines hraw)
    · cases hr

/-- Files that may not be searched have no matches. -/
theorem flatMap_matchesIn_filter (read : String → Option Bytes) (m : Matcher)
    (paths : List String) :
    (paths.filter fun path => (read path).isSome).flatMap (Engine.matchesIn read m) =
      paths.flatMap (Engine.matchesIn read m) := by
  induction paths with
  | nil => rfl
  | cons path paths ih =>
      rw [List.flatMap_cons, ← ih]
      cases hread : read path with
      | none => simp [hread, Engine.matchesIn]
      | some content => simp [hread]

/-- A batch for which the program answers gives what is read from its records. -/
theorem yields_searchBatch {c : Command} {q : SearchRequest} {s : Run} {p : Program}
    {paths : List String} (hname : c.name ≠ "")
    (hfind : s.programs.find? q.workingDirectory c.name = some p)
    (hanswers : AnswersFor p c q paths) :
    ∃ s', (searchBatch Signal.quiet c q paths).Yields s
        (outputMatches (printed (paths.flatMap (pathRecords q)))) s' ∧
      ∃ p', s'.programs.find? q.workingDirectory c.name = some p' ∧ p'.answer? = p.answer? := by
  obtain ⟨response, hanswer, htells⟩ := hanswers
  have hexec := RunM.yields_exec (c := c.append (searchArguments q.matcher.pattern paths)) hname
    hfind hanswer
  rw [htells.exit] at hexec
  have hsearch : ∃ moment, (searchBatch Signal.quiet c q paths).Yields s
      (outputMatches (printed (paths.flatMap (pathRecords q))))
      ⟨moment, s.programs.record p.name
        (c.append (searchArguments q.matcher.pattern paths)).arguments⟩ := by
    by_cases hempty : (paths.flatMap (pathRecords q)).isEmpty = true
    · -- Nothing is printed: the code 1 is not a failure.
      rw [if_pos hempty, if_neg (by decide)] at hexec
      refine ⟨s.moment + 2, hexec.bind ((RunM.yields_check_quiet _).bind ?_)⟩
      rw [List.isEmpty_iff.mp hempty]
      exact RunM.Yields.pure _ _
    · rw [if_neg hempty, if_pos (by decide)] at hexec
      refine ⟨s.moment + 1, hexec.bind ?_⟩
      rw [← htells.stdout]
      exact RunM.Yields.pure _ _
  obtain ⟨moment, hsearch⟩ := hsearch
  exact ⟨_, hsearch, Programs.find?_record hfind⟩

/-- Batches for which the program answers give the matches in their files. -/
theorem yields_searchBatches {c : Command} {q : SearchRequest} (hname : c.name ≠ "")
    (hlength : ∀ path content, q.read path = some content → content.length + 1 < Word.half)
    (bs : List (List String)) {s : Run} {p : Program}
    (hfind : s.programs.find? q.workingDirectory c.name = some p)
    (hpaths : ∀ b ∈ bs, ∀ path ∈ b, 10 ∉ bytesOf path ∧ 0 ∉ bytesOf path)
    (hanswers : ∀ b ∈ bs, AnswersFor p c q b) :
    ∃ s', (searchBatches Signal.quiet c q bs).Yields s
      (bs.flatten.flatMap (Engine.matchesIn q.read q.matcher)) s' := by
  induction bs generalizing s p with
  | nil => exact ⟨s, RunM.Yields.pure [] s⟩
  | cons b bs ih =>
      obtain ⟨hb, hbs⟩ := List.forall_mem_cons.mp hpaths
      obtain ⟨hanswer, hanswers⟩ := List.forall_mem_cons.mp hanswers
      obtain ⟨s₁, hyields, p', hfind', hsame⟩ := yields_searchBatch hname hfind hanswer
      have hanswers' : ∀ b ∈ bs, AnswersFor p' c q b := by
        intro b hb
        rw [AnswersFor, hsame]
        exact hanswers b hb
      obtain ⟨s', hrest⟩ := ih hfind' hbs hanswers'
      rw [outputMatches_pathRecords hb hlength] at hyields
      refine ⟨s', hyields.bind (hrest.bind ?_)⟩
      rw [List.flatten_cons, List.flatMap_append]
      exact RunM.Yields.pure _ _

/-! ## The two searches -/

/-- What may be searched is short enough that its bytes, and one more, can be counted. -/
theorem length_readable {maxSize : Int} {node : Disk.Node} {content : Bytes}
    (h : readable? maxSize node = some content) : content.length + 1 < Word.half := by
  cases node with
  | file whole =>
      rw [readable?] at h
      split at h
      · cases h
      · rename_i hshort
        simp only [Bool.or_eq_true, decide_eq_true_eq, not_or, Int.not_lt] at hshort
        obtain rfl := Option.some.inj h
        rw [readLength]
        split
        · rename_i hnext
          simp only [Word.fits, Bool.and_eq_true, decide_eq_true_eq] at hnext
          have hwhole : ((whole.take (maxSize + 1).toNat).length : Int) ≤ maxSize := by
            refine Int.le_trans ?_ hshort.1
            exact Int.ofNat_le.mpr (List.length_take_le' _ _)
          omega
        · rw [List.take_zero]
          decide
  | directory entries => cases h
  | link target => cases h
  | pipe => cases h

theorem length_load {reader : FileReader} {d : Disk} {path : String} {content : Bytes}
    (h : reader.load d path = some content) : content.length + 1 < Word.half := by
  rw [FileReader.load] at h
  split at h
  · exact length_readable h
  · cases h

/-- If the program prints the records of the matches, both searches find the same: no path is lost,
repeated or moved on the way into batches, and every record is read as the match it tells of. -/
theorem external_eq_native {c : Command} {q : SearchRequest} {reader : FileReader} {d : Disk}
    {s : Run} {p : Program} (hread : q.read = reader.load d)
    (hpaths : ∀ path ∈ q.paths, '\n' ∉ path.toList ∧ '\x00' ∉ path.toList)
    (hname : c.name ≠ "") (hfind : s.programs.find? q.workingDirectory c.name = some p)
    (hanswers : ∀ paths, (∀ path ∈ paths, path ∈ q.paths ∧ (q.read path).isSome = true) →
      AnswersFor p c q paths) :
    (∃ found s', (external c Signal.quiet q).Yields s found s' ∧
      (native Signal.quiet q).Returns found) ∧
    (batches (batchSize - 1) (q.paths.filter fun path => (q.read path).isSome)).flatten =
      q.paths.filter (fun path => (q.read path).isSome) ∧
    (∀ b ∈ batches (batchSize - 1) (q.paths.filter fun path => (q.read path).isSome),
      b.length ≤ batchSize) ∧
    ∀ paths : List String, (∀ path ∈ paths, path ∈ q.paths) →
      outputMatches (printed (paths.flatMap (pathRecords q))) =
        paths.flatMap (Engine.matchesIn q.read q.matcher) := by
  have hbytes : ∀ path ∈ q.paths, 10 ∉ bytesOf path ∧ 0 ∉ bytesOf path := fun path hpath =>
    ⟨fun h => (hpaths path hpath).1 (Text.mem_bytesOf (by decide) h),
      fun h => (hpaths path hpath).2 (Text.mem_bytesOf (by decide) h)⟩
  have hlength : ∀ path content, q.read path = some content → content.length + 1 < Word.half := by
    intro path content h
    rw [hread] at h
    exact length_load h
  have hmem : ∀ b ∈ batches (batchSize - 1) (q.paths.filter fun path => (q.read path).isSome),
      ∀ path ∈ b, path ∈ q.paths ∧ (q.read path).isSome = true := by
    intro b hb path hpath
    have hflat := List.mem_flatten.mpr ⟨b, hb, hpath⟩
    rw [flatten_batches] at hflat
    exact List.mem_filter.mp hflat
  refine ⟨?_, flatten_batches _ _, fun b hb => length_of_mem_batches hb, ?_⟩
  · obtain ⟨s', hexternal⟩ := yields_searchBatches hname hlength _ hfind
      (fun b hb path hpath => hbytes path (hmem b hb path hpath).1)
      (fun b hb => hanswers b (hmem b hb))
    refine ⟨_, s', hexternal, ?_⟩
    rw [flatten_batches, flatMap_matchesIn_filter]
    exact Engine.returns_native q
  · intro paths hsub
    exact outputMatches_pathRecords (fun path hpath => hbytes path (hsub path hpath)) hlength

/-- A program that prints the records of its paths; these come after so many other arguments. -/
def recordProgram (name : String) (q : SearchRequest) (skip : Nat) : Program where
  name
  answer? arguments :=
    let records := (arguments.drop skip).flatMap (pathRecords q)
    some { stdout := printed records, exit := if records.isEmpty then 1 else 0 }

/-- Looking for `a` in a file of the sample and in one that is not there. -/
def sampleRequest : SearchRequest where
  matcher := ⟨.literal "a", none, [97]⟩
  paths := ["f", "g"]
  read := (FileReader.make "." defaultMaxSize).load Engine.sampleDisk

theorem external_eq_native_sample :
    ∃ s', (external { name := "rg" } Signal.quiet sampleRequest).Yields
        { programs := { programs := [recordProgram "rg" sampleRequest 12] } }
        [⟨"f", [97], 1, 1⟩] s' ∧
      (native Signal.quiet sampleRequest).Returns [⟨"f", [97], 1, 1⟩] := by
  obtain ⟨⟨found, s', hexternal, hnative⟩, -⟩ := external_eq_native (c := { name := "rg" })
    (q := sampleRequest) (d := Engine.sampleDisk) (p := recordProgram "rg" sampleRequest 12)
    (s := { programs := { programs := [recordProgram "rg" sampleRequest 12] } }) rfl
    (by decide) (by decide) (by rfl) (fun paths _ => ⟨_, rfl, rfl, rfl⟩)
  have hf : sampleRequest.read "f" = some [97, 13, 10, 98, 33] := Engine.read_sampleDisk
  have hg : sampleRequest.read "g" = none := by
    have hjoin : Path.join [".", "g"] = "g" := by decide
    have hnames : Engine.sampleDisk.fullNames "g" = ["g"] := by decide
    have hplace : Engine.sampleDisk.place "g" = .error .notExist := by
      rw [Disk.place, hnames, Disk.follow]
      rfl
    simp only [sampleRequest, FileReader.load, FileReader.make, hjoin, Disk.stat, hplace]
    rfl
  have hfound : found = [⟨"f", [97], 1, 1⟩] := by
    have hboth : found = Engine.matchesIn sampleRequest.read sampleRequest.matcher "f" ++
        (Engine.matchesIn sampleRequest.read sampleRequest.matcher "g" ++ []) :=
      hnative.unique (Engine.returns_native sampleRequest)
    simp only [hboth, Engine.matchesIn, hf, hg]
    decide
  rw [← hfound]
  exact ⟨s', hexternal, hnative⟩

end Searcher

end RuleScan
