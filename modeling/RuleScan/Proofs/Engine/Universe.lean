import Mathlib.Data.List.Sort
import Mathlib.Data.String.Basic
import RuleScan.Proofs.Engine.Separation
import RuleScan.Proofs.Text.Order

/-!
# What is in a universe

A universe is made of listed paths: each is trimmed and cleaned, the excluded ones are left out, the
others are sorted, and of equal ones in a row one is kept.

## What is proved

`universe_canonical`: the list is STRICTLY INCREASING, byte by byte; every name in it is clean, not
empty and not excluded; it depends only on the set of the paths that are not blank; and the universe
of two lists has the names of both.

## Texts and bytes

`universeOf` lists texts.  A path may be any bytes, though, and so may its name, so all of this is
proved of bytes, too.  `byteUniverse` takes the same steps, with a text of one character for each
byte (`Text.rawText`) where paths are cleaned and sorted.  For the bytes of texts it gives the bytes
of what `universeOf` gives, which is how the order of the texts becomes one of bytes.

## How the argument goes

A strictly increasing list is known by its members.  So it is enough to know what the members are
(`mem_iff`), and the rest is about one path.  That two ways to write a path leave one name is no
matter of the list: the names are compared AFTER cleaning, and cleaning a name does nothing more.
-/

namespace RuleScan

open RuleScan.Text (Bytes bytesOf textOf rawText rawBytes)

/-! ## The order of a universe -/

theorem pairwise_dropAdjacent {l : List String} (h : l.Pairwise (· ≤ ·)) :
    (dropAdjacent l).Pairwise (· < ·) := by
  fun_induction dropAdjacent l with
  | case1 a rest ih => exact ih h.of_cons
  | case2 a b rest hab ih =>
      obtain ⟨hfirst, hrest⟩ := List.pairwise_cons.mp h
      have hb : a < b := lt_of_le_of_ne (hfirst b List.mem_cons_self) hab
      refine List.pairwise_cons.mpr ⟨fun x hx => ?_, ih hrest⟩
      -- everything after `b` is at or above it
      rcases List.mem_cons.mp (mem_dropAdjacent.mp hx) with rfl | hx
      · exact hb
      · exact lt_of_lt_of_le hb ((List.pairwise_cons.mp hrest).1 x hx)
  | case3 short hshort =>
      obtain _ | ⟨a, _ | ⟨b, rest⟩⟩ := short
      · exact .nil
      · exact List.pairwise_singleton _ a
      · exact absurd rfl (hshort a b rest)

/-- A universe is in order, and no name is in it twice. -/
theorem pairwise_universeOf (globs : GlobSet) (files : List String) :
    (universeOf globs files).Pairwise (· < ·) :=
  pairwise_dropAdjacent (List.pairwise_mergeSort' _ _)

/-! ## The names of the paths -/

/-- The names that are considered are those of the paths which are neither blank nor excluded. -/
theorem mem_universeOf_iff {globs : GlobSet} {files : List String} {name : String} :
    name ∈ universeOf globs files ↔
      ∃ f ∈ files, Text.trim f ≠ "" ∧ name = nameOf f ∧ globs.accepts name = false := by
  rw [mem_universeOf]
  refine exists_congr fun f => and_congr_right fun _ => ?_
  by_cases hblank : Text.trim f = ""
  · simp [universePath?_blank globs hblank, hblank]
  · rw [universePath?_eq globs hblank]
    constructor
    · intro h
      split at h
      · cases h
      · next haccepts =>
          obtain rfl := Option.some.inj h
          exact ⟨hblank, rfl, Bool.eq_false_iff.mpr haccepts⟩
    · rintro ⟨-, hname, haccepts⟩
      rw [hname] at haccepts ⊢
      rw [if_neg (Bool.eq_false_iff.mp haccepts)]

/-! ## Cleaning bytes -/

/-- The bytes of a character, each as a character. -/
def byteChars (c : Char) : List Char := (String.utf8EncodeChar c).map fun b => Char.ofNat b.toNat

theorem rawText_bytesOf (s : String) : rawText (bytesOf s) = Path.spell byteChars s := by
  rw [rawText, Text.bytesOf_eq, List.map_flatMap, Path.spell]
  rfl

/-- Slashes and dots are one byte, and no other character has a slash among its bytes. -/
theorem spelling_byteChars : Path.Spelling byteChars where
  slash := by decide
  dot := by decide
  slash_notMem c hc hmem := by
    obtain ⟨b, hb, hslash⟩ := List.mem_map.mp hmem
    have hcode : b.toNat = 0x2f := by
      rw [← Text.toNat_rawChar b, hslash]
      rfl
    have hchar : c.toNat = 0x2f := by
      rw [← Text.toNat_eq_of_mem_encode (by omega) hb, hcode]
    exact hc (Char.toNat_inj.mp hchar)
  injective s t h := by
    rw [← rawText_bytesOf, ← rawText_bytesOf] at h
    exact Text.bytesOf_injective (Text.rawText_injective h)

/-- The shortest equivalent path, of a path that may be any bytes. -/
def cleanBytes (path : Bytes) : Bytes := rawBytes (Path.clean (rawText path))

theorem rawText_cleanBytes (path : Bytes) :
    rawText (cleanBytes path) = Path.clean (rawText path) := by
  refine Text.rawText_rawBytes fun c hc => ?_
  rcases Path.mem_clean hc with hc | rfl | rfl
  · exact Text.toNat_lt_of_mem_rawText hc
  · decide
  · decide

theorem cleanBytes_cleanBytes (path : Bytes) : cleanBytes (cleanBytes path) = cleanBytes path := by
  rw [cleanBytes, rawText_cleanBytes, Path.clean_clean, ← rawText_cleanBytes,
    Text.rawBytes_rawText]

theorem cleanBytes_ne_nil (path : Bytes) : cleanBytes path ≠ [] := by
  intro hnil
  have hclean := rawText_cleanBytes path
  rw [hnil] at hclean
  exact Path.clean_ne_empty _ hclean.symm

/-- The bytes of a text are cleaned to the bytes of the clean text. -/
theorem cleanBytes_bytesOf (path : String) :
    cleanBytes (bytesOf path) = bytesOf (Path.clean path) := by
  rw [cleanBytes, rawText_bytesOf, spelling_byteChars.clean_spell, ← rawText_bytesOf,
    Text.rawBytes_rawText]

theorem bytesOf_eq_nil_iff {s : String} : bytesOf s = [] ↔ s = "" := by
  rw [← Text.textOf_eq_empty_iff, Text.textOf_bytesOf]

/-! ## The universe of any bytes -/

/-- The clean path of a listed one that may be any bytes, if it names something that is not
excluded. -/
def bytePath? (exclude : Bytes → Bool) (file : Bytes) : Option Bytes :=
  let f := Text.trimBytes file
  if f.isEmpty then none
  else
    let f := rawBytes (Path.withoutHere (Path.clean (rawText f)))
    if exclude f then none else some f

/-- The universe of listed files whose paths may be any bytes. -/
def byteUniverse (exclude : Bytes → Bool) (files : List Bytes) : List Bytes :=
  (dropAdjacent (((files.filterMap (bytePath? exclude)).map rawText).mergeSort (· ≤ ·))).map
    rawBytes

theorem byteUniverse_singleton (exclude : Bytes → Bool) (f : Bytes) :
    byteUniverse exclude [f] = (bytePath? exclude f).toList := by
  rw [byteUniverse]
  cases h : bytePath? exclude f <;> simp [h, dropAdjacent, Text.rawBytes_rawText]

theorem bytePath?_eq_some_iff {exclude : Bytes → Bool} {file name : Bytes} :
    bytePath? exclude file = some name ↔ Text.trimBytes file ≠ [] ∧
      name = cleanBytes (Text.trimBytes file) ∧ exclude name = false := by
  by_cases hblank : Text.trimBytes file = []
  · simp [bytePath?, hblank]
  · simp only [bytePath?, List.isEmpty_iff, hblank, if_false, Path.withoutHere_clean, cleanBytes]
    grind

theorem map_rawText_byteUniverse (exclude : Bytes → Bool) (files : List Bytes) :
    (byteUniverse exclude files).map rawText =
      dropAdjacent (((files.filterMap (bytePath? exclude)).map rawText).mergeSort (· ≤ ·)) := by
  rw [byteUniverse, List.map_map]
  refine (List.map_congr_left fun s hs => ?_).trans (List.map_id _)
  rw [mem_dropAdjacent, List.mem_mergeSort, List.mem_map] at hs
  obtain ⟨name, -, rfl⟩ := hs
  rw [Function.comp_apply, Text.rawBytes_rawText, id]

theorem pairwise_byteUniverse (exclude : Bytes → Bool) (files : List Bytes) :
    (byteUniverse exclude files).Pairwise (· < ·) := by
  have hsorted := pairwise_dropAdjacent (List.pairwise_mergeSort' (· ≤ ·)
    ((files.filterMap (bytePath? exclude)).map rawText))
  rw [← map_rawText_byteUniverse, List.pairwise_map] at hsorted
  exact hsorted.imp Text.rawText_lt.mp

theorem mem_byteUniverse_iff {exclude : Bytes → Bool} {files : List Bytes} {name : Bytes} :
    name ∈ byteUniverse exclude files ↔ ∃ f ∈ files, Text.trimBytes f ≠ [] ∧
      name = cleanBytes (Text.trimBytes f) ∧ exclude name = false := by
  rw [← List.mem_map_of_injective Text.rawText_injective, map_rawText_byteUniverse,
    mem_dropAdjacent, List.mem_mergeSort, List.mem_map_of_injective Text.rawText_injective,
    List.mem_filterMap]
  simp only [bytePath?_eq_some_iff]

/-! ## Canonical universes -/

/-- A way to make a list of names of listed paths, given how paths are trimmed and cleaned and which
names are excluded: no name is written in two ways, and neither the order of the paths nor how often
they are listed shows. -/
structure CanonicalUniverse {α : Type} [LT α] (empty : α) (trim clean : α → α)
    (excluded : α → Bool) (namesOf : List α → List α) : Prop where
  increasing : ∀ files, (namesOf files).Pairwise (· < ·)
  entry : ∀ files, ∀ name ∈ namesOf files,
    name ≠ empty ∧ clean name = name ∧ excluded name = false
  mem_iff : ∀ files name, name ∈ namesOf files ↔
    ∃ f ∈ files, trim f ≠ empty ∧ name = clean (trim f) ∧ excluded name = false
  congr : ∀ files files', (∀ f, trim f ≠ empty → (f ∈ files ↔ f ∈ files')) →
    namesOf files = namesOf files'
  append : ∀ files files' name, name ∈ namesOf (files ++ files') ↔
    name ∈ namesOf files ∨ name ∈ namesOf files'

section Canonical

variable {α : Type} [LT α] [Std.Asymm (α := α) (· < ·)] {empty : α} {trim clean : α → α}
  {excluded : α → Bool} {namesOf : List α → List α}

/-- Once the order and the members are known, what is left is about one path. -/
theorem CanonicalUniverse.of_mem_iff (increasing : ∀ files, (namesOf files).Pairwise (· < ·))
    (mem_iff : ∀ files name, name ∈ namesOf files ↔
      ∃ f ∈ files, trim f ≠ empty ∧ name = clean (trim f) ∧ excluded name = false)
    (clean_ne : ∀ path, clean path ≠ empty)
    (clean_clean : ∀ path, clean (clean path) = clean path) :
    CanonicalUniverse empty trim clean excluded namesOf where
  increasing := increasing
  mem_iff := mem_iff
  entry files name hname := by
    obtain ⟨f, -, -, rfl, hexcluded⟩ := (mem_iff files name).mp hname
    exact ⟨clean_ne _, clean_clean _, hexcluded⟩
  congr files files' h := by
    refine eq_of_pairwise Std.Asymm.asymm (increasing files) (increasing files') fun name => ?_
    rw [mem_iff, mem_iff]
    refine exists_congr fun f => ?_
    constructor
    · rintro ⟨hf, hblank, hname⟩
      exact ⟨(h f hblank).mp hf, hblank, hname⟩
    · rintro ⟨hf, hblank, hname⟩
      exact ⟨(h f hblank).mpr hf, hblank, hname⟩
  append files files' name := by
    simp only [mem_iff, List.mem_append, or_and_right, exists_or]

end Canonical

theorem canonical_universeOf (globs : GlobSet) :
    CanonicalUniverse "" Text.trim Path.clean globs.accepts (universeOf globs) :=
  .of_mem_iff (pairwise_universeOf globs) (fun _ _ => mem_universeOf_iff) Path.clean_ne_empty
    Path.clean_clean

theorem canonical_byteUniverse (exclude : Bytes → Bool) :
    CanonicalUniverse [] Text.trimBytes cleanBytes exclude (byteUniverse exclude) :=
  .of_mem_iff (pairwise_byteUniverse exclude) (fun _ _ => mem_byteUniverse_iff) cleanBytes_ne_nil
    cleanBytes_cleanBytes

/-- The bytes of texts have the bytes of the names of the texts. -/
theorem map_bytesOf_universeOf (globs : GlobSet) (files : List String) :
    (universeOf globs files).map bytesOf =
      byteUniverse (fun name => globs.accepts (textOf name)) (files.map bytesOf) := by
  refine eq_of_pairwise Std.Asymm.asymm ?_ (pairwise_byteUniverse _ _) fun name => ?_
  · exact List.pairwise_map.mpr ((pairwise_universeOf globs files).imp Text.bytesOf_lt)
  · simp only [List.mem_map, mem_universeOf_iff, mem_byteUniverse_iff, nameOf,
      exists_exists_and_eq_and, Text.trimBytes_bytesOf, cleanBytes_bytesOf, ne_eq,
      bytesOf_eq_nil_iff]
    constructor
    · rintro ⟨_, ⟨f, hf, hblank, hname, hexcluded⟩, rfl⟩
      exact ⟨f, hf, hblank, congrArg bytesOf hname, by rwa [Text.textOf_bytesOf]⟩
    · rintro ⟨f, hf, hblank, rfl, hexcluded⟩
      rw [Text.textOf_bytesOf] at hexcluded
      exact ⟨_, ⟨f, hf, hblank, rfl, hexcluded⟩, rfl⟩

/-- **Universes are canonical**: strictly increasing byte by byte, made of clean names that are
neither empty nor excluded, the same for every list of the same paths that are not blank, and of two
lists the universe has the names of both. -/
theorem universe_canonical :
    (∀ globs : GlobSet,
      CanonicalUniverse "" Text.trim Path.clean globs.accepts (universeOf globs)) ∧
    (∀ exclude : Bytes → Bool,
      CanonicalUniverse [] Text.trimBytes cleanBytes exclude (byteUniverse exclude)) ∧
    ∀ (globs : GlobSet) (files : List String),
      (universeOf globs files).map bytesOf =
          byteUniverse (fun name => globs.accepts (textOf name)) (files.map bytesOf) ∧
        ((universeOf globs files).map bytesOf).Pairwise (· < ·) := by
  refine ⟨canonical_universeOf, canonical_byteUniverse, fun globs files => ?_⟩
  rw [map_bytesOf_universeOf]
  exact ⟨rfl, pairwise_byteUniverse _ _⟩

/-- Four ways to write a path, and its one name. -/
example : ["./a", "b/../a", "a//", " a\n"].map nameOf = ["a", "a", "a", "a"] := by decide

end RuleScan
