import RuleScan.Proofs.Engine.Places

/-!
# What a reader gives for a file

A file is read if it has at most as many bytes as the limit says and no zero byte near its start,
and then it is read as a whole.

## What is proved

`read_regular`: whatever number stands for the limit, and whatever other files were read before,
the first read of a regular file gives its content, or nothing if it is too large or binary.

The GREATEST word is the exception.  One more than the limit is asked for, so that a file which
grows while it is read is noticed, and there is no word for one more than the greatest
(`readLength_greatest`): nothing is asked for, and every file is read as an empty one.
-/

namespace RuleScan

open RuleScan.Text (Bytes)

/-! ## How much is asked for -/

theorem readLength_of_lt {limit : Int} (hpos : 0 < limit) (hlt : limit + 1 < Word.half) :
    readLength limit = limit.toNat + 1 := by
  have hfits : Word.fits (limit + 1) = true := by
    simp only [Word.fits, Bool.and_eq_true, decide_eq_true_eq]
    exact ⟨by omega, hlt⟩
  rw [readLength, if_pos hfits]
  omega

/-- There is no word for one more than the greatest. -/
theorem readLength_greatest : readLength (Word.half - 1) = 0 := by decide

/-- A file that is not too large is read to its end. -/
theorem take_readLength {limit : Int} (hpos : 0 < limit) (hlt : limit + 1 < Word.half)
    {content : Bytes} (hlength : (content.length : Int) ≤ limit) :
    content.take (readLength limit) = content := by
  rw [readLength_of_lt hpos hlt]
  exact List.take_of_length_le (by omega)

theorem isBinary_iff {content : Bytes} :
    isBinary content = true ↔ 0 ∈ content.take binaryPrefixLength := by
  rw [isBinary, List.contains_iff_mem]

/-! ## Regular files -/

theorem readable?_file {limit : Int} (hpos : 0 < limit) (hlt : limit + 1 < Word.half)
    (content : Bytes) : readable? limit (.file content) =
      if (content.length : Int) ≤ limit ∧ 0 ∉ content.take binaryPrefixLength then some content
      else none := by
  rw [readable?]
  by_cases hlength : (content.length : Int) ≤ limit
  · simp only [take_readLength hpos hlt hlength, Bool.or_eq_true, decide_eq_true_eq, isBinary_iff,
      Int.not_lt.mpr hlength, false_or, hlength, true_and, ite_not]
  · rw [if_pos (by simp [Int.not_le.mp hlength]), if_neg fun h => hlength h.1]

theorem readable?_greatest (content : Bytes) : readable? (Word.half - 1) (.file content) =
    if (content.length : Int) ≤ Word.half - 1 then some [] else none := by
  rw [readable?, readLength_greatest, List.take_zero]
  by_cases hlength : (content.length : Int) ≤ Word.half - 1
  · rw [if_neg (by simpa [isBinary] using hlength), if_pos hlength]
  · rw [if_pos (by simp [Int.not_le.mp hlength]), if_neg hlength]

namespace FileReader

/-! ## Many reads of one reader -/

/-- A reader after it has read some files, each from the disk as it was then. -/
def after (r : FileReader) : List (Disk × String) → FileReader
  | [] => r
  | (d, file) :: rest => (r.read d file).2.after rest

/-- A read changes nothing but what is remembered, and remembers no other file. -/
theorem read_snd (r : FileReader) (d : Disk) (file : String) :
    (r.read d file).2.root = r.root ∧ (r.read d file).2.maxSize = r.maxSize ∧
      ∀ other, other ≠ file →
        (r.read d file).2.seen.find? (·.1 = other) = r.seen.find? (·.1 = other) := by
  rw [read]
  split
  · exact ⟨rfl, rfl, fun _ _ => rfl⟩
  · exact ⟨rfl, rfl, fun other h => by simp [Ne.symm h]⟩

theorem after_eq (r : FileReader) (before : List (Disk × String)) :
    (r.after before).root = r.root ∧ (r.after before).maxSize = r.maxSize ∧
      ∀ other, (∀ p ∈ before, p.2 ≠ other) →
        (r.after before).seen.find? (·.1 = other) = r.seen.find? (·.1 = other) := by
  induction before generalizing r with
  | nil => exact ⟨rfl, rfl, fun _ _ => rfl⟩
  | cons p before ih =>
      obtain ⟨hroot, hsize, hseen⟩ := r.read_snd p.1 p.2
      obtain ⟨hroot', hsize', hseen'⟩ := ih (r.read p.1 p.2).2
      refine ⟨hroot'.trans hroot, hsize'.trans hsize, fun other h => ?_⟩
      obtain ⟨hp, hbefore⟩ := List.forall_mem_cons.mp h
      exact (hseen' other hbefore).trans (hseen other hp.symm)

/-- The first read of a file is a load, whatever else was read before. -/
theorem read_after {r : FileReader} (hfresh : r.seen = []) {before : List (Disk × String)}
    {file : String} (hbefore : ∀ p ∈ before, p.2 ≠ file) (d : Disk) :
    ((r.after before).read d file).1 = r.load d file := by
  obtain ⟨hroot, hsize, hseen⟩ := r.after_eq before
  rw [read, hseen file hbefore, hfresh]
  simp only [List.find?_nil, load, hroot, hsize]

/-! ## The limit means what it says -/

theorem limit_pos (maxSize : Int) : 0 < limit maxSize := by
  rw [limit]
  split
  · decide
  · omega

/-- The first read of a regular file gives its content if it has no more bytes than the limit and
no zero byte among the first 8000, and nothing otherwise; under the greatest limit there is, what it
gives has no bytes. -/
theorem read_regular (maxSize : Int64) {root file : String} {before : List (Disk × String)}
    (hbefore : ∀ p ∈ before, p.2 ≠ file) {d : Disk} {content : Bytes}
    (hfile : d.stat (Path.join [root, file]) = .ok (.file content)) :
    (maxSize ≠ Int64.maxValue →
      (((make root maxSize.toInt).after before).read d file).1 =
        if (content.length : Int) ≤ (if 0 < maxSize.toInt then maxSize.toInt else 1048576) ∧
          0 ∉ content.take 8000 then some content else none) ∧
    (maxSize = Int64.maxValue →
      (((make root maxSize.toInt).after before).read d file).1 =
        if (content.length : Int) ≤ maxSize.toInt then some [] else none) := by
  have hlimit : limit maxSize.toInt = if 0 < maxSize.toInt then maxSize.toInt else 1048576 := by
    rw [limit, defaultMaxSize]
    split <;> split <;> omega
  have hload : (((make root maxSize.toInt).after before).read d file).1 =
      readable? (limit maxSize.toInt) (.file content) := by
    rw [read_after rfl hbefore]
    simp only [load, make, hfile]
  rw [hload]
  constructor
  · intro hne
    have hlt : maxSize.toInt + 1 < Word.half := by
      have hle : maxSize.toInt < 2 ^ 63 := Int64.toInt_lt maxSize
      have hmax : maxSize.toInt ≠ 9223372036854775807 := fun h => hne (Int64.toInt_inj.mp h)
      simp only [Word.half]
      omega
    rw [← hlimit]
    refine readable?_file (limit_pos _) ?_ content
    rw [hlimit]
    split
    · exact hlt
    · decide
  · rintro rfl
    exact readable?_greatest content

theorem stat_sampleDisk :
    Engine.sampleDisk.stat (Path.join [".", "f"]) = .ok (.file [97, 13, 10, 98, 33]) := by
  rw [Engine.join_single, Disk.stat, Engine.sampleDisk, Engine.place_single]
  rfl

/-- A file as large as the limit is read after another one was asked for, a larger one is not. -/
theorem read_regular_sample :
    (((make "." 5).after [(Engine.sampleDisk, "g")]).read Engine.sampleDisk "f").1 =
        some [97, 13, 10, 98, 33] ∧
      (((make "." 4).after [(Engine.sampleDisk, "g")]).read Engine.sampleDisk "f").1 = none := by
  have hbefore : ∀ p ∈ [(Engine.sampleDisk, "g")], p.2 ≠ "f" := by simp
  constructor
  · have h := (read_regular 5 hbefore stat_sampleDisk).1 (by decide)
    rwa [if_pos (by decide)] at h
  · have h := (read_regular 4 hbefore stat_sampleDisk).1 (by decide)
    rwa [if_neg (by decide)] at h

/-- Under the greatest limit a file of five bytes is read as an empty one. -/
theorem read_under_greatest_limit :
    ((make "." Int64.maxValue.toInt).read Engine.sampleDisk "f").1 = some [] ∧
      Engine.sampleDisk.stat (Path.join [".", "f"]) = .ok (.file [97, 13, 10, 98, 33]) := by
  refine ⟨?_, stat_sampleDisk⟩
  simp only [read, make, List.find?_nil, load, stat_sampleDisk]
  decide

end FileReader

end RuleScan
