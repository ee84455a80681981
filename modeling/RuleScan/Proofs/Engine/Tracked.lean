import RuleScan.Proofs.Engine.Universe
import RuleScan.Proofs.Search.External

/-!
# The files that the version control knows

The version control prints the paths of the files that it knows, each followed by a zero byte, so
that a path may have any other byte in it.  These paths become the universe.

## What is proved

  * `printedPaths_trackedOutput` — cutting the output at its zero bytes gives back the paths;
  * `mem_byteUniverse_of_clean` — a clean path without white space at its ends keeps its bytes;
  * `universeOf_tracked` — the universe of an output has the names of the paths in it, without the
    excluded ones, and a path without white space at its ends is its own name.

All of this is about BYTES, since a path need not be a text: two paths with different bytes are two
paths, even if no text tells them apart.  For paths that are texts it is what `universeOf` does.

## White space

A path with white space at an end is considered under ANOTHER name, and so the file it leads to is
not: `universeOf_blank_front` is such a path.
-/

namespace RuleScan

open RuleScan.Text (Bytes textOf bytesOf)

/-! ## The output and its paths -/

namespace Lister

/-- The output of the version control for some paths. -/
def trackedOutput (paths : List Bytes) : Bytes := paths.flatMap (· ++ [0])

theorem splitBytes_trackedOutput {paths : List Bytes} (hzero : ∀ p ∈ paths, 0 ∉ p) :
    Text.splitBytes 0 (trackedOutput paths) = paths ++ [[]] := by
  induction paths with
  | nil => rfl
  | cons p rest ih =>
      have hrest := ih fun q hq => hzero q (List.mem_cons_of_mem _ hq)
      rw [trackedOutput, List.flatMap_cons, List.append_assoc, List.singleton_append,
        Text.splitBytes_append (hzero p List.mem_cons_self), List.cons_append]
      exact congrArg (p :: ·) hrest

/-- What is read from an output are the paths that it was printed for. -/
theorem printedPaths_trackedOutput {paths : List Bytes} (hempty : ∀ p ∈ paths, p ≠ [])
    (hzero : ∀ p ∈ paths, 0 ∉ p) : printedPaths (trackedOutput paths) = paths := by
  rw [printedPaths, splitBytes_trackedOutput hzero, List.filter_append, List.filter_eq_self.mpr]
  · simp
  · intro p hp
    simpa using hempty p hp

/-- Where the version control answers with an output, it has printed the paths in it. -/
theorem yields_printed {d : Disk} {s : Run} {p : Program} {response : Response}
    (hfind : s.programs.find? d.directory "git" = some p)
    (hanswer : p.answer? ["ls-files", "-z"] = some response) (hexit : response.exit % 256 = 0) :
    ∃ s', (printed Signal.quiet d).Yields s (printedPaths response.stdout) s' := by
  have hexec := RunM.yields_exec (c := { name := "git", arguments := ["ls-files", "-z"] })
    (by decide) hfind hanswer
  rw [if_pos hexit] at hexec
  exact ⟨_, hexec.bind (RunM.Yields.pure _ _)⟩

/-- The files are listed by the texts of the printed paths. -/
theorem yields_tracked {d : Disk} (root : String) {s s' : Run} {paths : List Bytes}
    (h : (printed Signal.quiet d).Yields s paths s') :
    (tracked Signal.quiet d root).Yields s (paths.map textOf) s' :=
  h.bind (RunM.Yields.pure _ _)

end Lister

/-! ## Paths that are their own names -/

/-- A clean path without white space at its ends is in the universe, byte for byte, unless it is
excluded. -/
theorem mem_byteUniverse_of_clean {exclude : Bytes → Bool} {paths : List Bytes} {path : Bytes}
    (hpath : path ∈ paths) (hclean : cleanBytes path = path) (htrim : Text.trimBytes path = path)
    (hkept : exclude path = false) : path ∈ byteUniverse exclude paths := by
  refine mem_byteUniverse_iff.mpr ⟨path, hpath, ?_, ?_, hkept⟩
  · rw [htrim, ← hclean]
    exact cleanBytes_ne_nil path
  · rw [htrim, hclean]

/-- And if all paths are like this, nothing else is in it. -/
theorem mem_byteUniverse_iff_of_clean {exclude : Bytes → Bool} {paths : List Bytes}
    (hclean : ∀ path ∈ paths, cleanBytes path = path)
    (htrim : ∀ path ∈ paths, Text.trimBytes path = path) (name : Bytes) :
    name ∈ byteUniverse exclude paths ↔ name ∈ paths ∧ exclude name = false := by
  constructor
  · intro hname
    obtain ⟨path, hpath, -, hsame, hkept⟩ := mem_byteUniverse_iff.mp hname
    rw [htrim path hpath, hclean path hpath] at hsame
    rw [hsame] at hkept ⊢
    exact ⟨hpath, hkept⟩
  · rintro ⟨hpath, hkept⟩
    exact mem_byteUniverse_of_clean hpath (hclean name hpath) (htrim name hpath) hkept

namespace Engine

/-- **The universe of what the version control prints.**  For any paths that are not empty, hold no
zero byte and are clean, the output is cut into these paths, and the universe of them, whatever the
exclusions, is strictly increasing and has the names of the paths in it that are not blank, as far
as they are not excluded.  So a path without white space at its ends is in the universe itself
unless it is excluded, and if this is so of all paths, then the universe consists of the paths which
are not excluded, byte for byte as they were printed.  Where the paths are texts, this is the
universe of the files that are listed. -/
theorem universeOf_tracked {d : Disk} (root : String) {s : Run} {p : Program} {response : Response}
    {paths : List Bytes} (hfind : s.programs.find? d.directory "git" = some p)
    (hanswer : p.answer? ["ls-files", "-z"] = some response) (hexit : response.exit % 256 = 0)
    (hstdout : response.stdout = Lister.trackedOutput paths) (hempty : ∀ path ∈ paths, path ≠ [])
    (hzero : ∀ path ∈ paths, 0 ∉ path) (hclean : ∀ path ∈ paths, cleanBytes path = path) :
    ∃ s', (Lister.printed Signal.quiet d).Yields s paths s' ∧
      (∀ exclude : Bytes → Bool,
        (byteUniverse exclude paths).Pairwise (· < ·) ∧
        (∀ name, name ∈ byteUniverse exclude paths ↔ ∃ path ∈ paths, Text.trimBytes path ≠ [] ∧
          name = cleanBytes (Text.trimBytes path) ∧ exclude name = false) ∧
        (∀ path ∈ paths, Text.trimBytes path = path → exclude path = false →
          path ∈ byteUniverse exclude paths) ∧
        ((∀ path ∈ paths, Text.trimBytes path = path) → ∀ name,
          name ∈ byteUniverse exclude paths ↔ name ∈ paths ∧ exclude name = false)) ∧
      (Lister.tracked Signal.quiet d root).Yields s (paths.map textOf) s' ∧
      ((∀ path ∈ paths, Text.IsText path) → ∀ globs : GlobSet,
        (universeOf globs (paths.map textOf)).map bytesOf =
          byteUniverse (fun name => globs.accepts (textOf name)) paths) := by
  obtain ⟨s', hyields⟩ := Lister.yields_printed hfind hanswer hexit
  rw [hstdout, Lister.printedPaths_trackedOutput hempty hzero] at hyields
  refine ⟨s', hyields, fun exclude => ⟨pairwise_byteUniverse exclude paths,
    fun name => mem_byteUniverse_iff, fun path hpath htrim hkept => ?_, fun htrim name => ?_⟩,
    Lister.yields_tracked root hyields, fun htext globs => ?_⟩
  · exact mem_byteUniverse_of_clean hpath (hclean path hpath) htrim hkept
  · exact mem_byteUniverse_iff_of_clean hclean htrim name
  · have hbytes : (paths.map textOf).map bytesOf = paths := by
      rw [List.map_map]
      refine (List.map_congr_left fun path hpath => ?_).trans (List.map_id _)
      obtain ⟨text, rfl⟩ := htext path hpath
      rw [Function.comp_apply, Text.textOf_bytesOf, id]
    rw [map_bytesOf_universeOf, hbytes]

/-- The paths of three files; two of them are no texts. -/
def samplePaths : List Bytes := [[0xff], [0xfe], [0x62, 0x20, 0x63]]

/-- A version control that knows these files. -/
def sampleTracker : Program :=
  { name := "git", answer? := fun _ => some { stdout := Lister.trackedOutput samplePaths } }

theorem universeOf_tracked_sample :
    ∃ s', (Lister.printed Signal.quiet sampleDisk).Yields
        { programs := { programs := [sampleTracker] } } samplePaths s' ∧
      ∀ name, name ∈ byteUniverse (fun name => name == [0xfe]) samplePaths ↔
        name = [0xff] ∨ name = [0x62, 0x20, 0x63] := by
  have hclean : ∀ path ∈ samplePaths, cleanBytes path = path := by decide
  have htrim : ∀ path ∈ samplePaths, Text.trimBytes path = path := by decide +kernel
  obtain ⟨s', hyields, huniverse, -⟩ := universeOf_tracked (d := sampleDisk) "."
    (s := { programs := { programs := [sampleTracker] } }) (p := sampleTracker) rfl rfl (by decide)
    rfl (by decide) (by decide) hclean
  refine ⟨s', hyields, fun name => ?_⟩
  rw [(huniverse _).2.2.2 htrim]
  simp only [samplePaths, List.mem_cons, List.not_mem_nil, or_false, beq_eq_false_iff_ne]
  constructor
  · rintro ⟨rfl | rfl | rfl, hkept⟩
    · exact .inl rfl
    · exact absurd rfl hkept
    · exact .inr rfl
  · rintro (rfl | rfl)
    · exact ⟨.inl rfl, by decide⟩
    · exact ⟨.inr (.inr rfl), by decide⟩

/-- A clean path with a blank in front.  The universe has another path in its place. -/
theorem universeOf_blank_front :
    cleanBytes [0x20, 0x66] = [0x20, 0x66] ∧
      Lister.printedPaths (Lister.trackedOutput [[0x20, 0x66]]) = [[0x20, 0x66]] ∧
      byteUniverse (fun _ => false) [[0x20, 0x66]] = [[0x66]] := by
  have htrim : Text.trimBytes [0x20, 0x66] = [0x66] := by decide +kernel
  have hname : bytePath? (fun _ => false) [0x20, 0x66] = some [0x66] :=
    bytePath?_eq_some_iff.mpr ⟨by simp [htrim], by rw [htrim]; decide, rfl⟩
  refine ⟨by decide, Lister.printedPaths_trackedOutput (by decide) (by decide), ?_⟩
  rw [byteUniverse_singleton, hname]
  rfl

end Engine

end RuleScan
