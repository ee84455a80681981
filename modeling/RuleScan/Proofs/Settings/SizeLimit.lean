import RuleScan.Proofs.Engine.Reading
import RuleScan.Settings.Basic

/-!
# The size limit that settings ask for

Settings give the greatest size of a file in words.  The number that the words mean becomes a limit
of the engine, and the limit of the engine is what a file is measured by when it is searched.

## What is proved

`size_in_effect`: settings that are accepted always set up an engine, and if the words mean one byte
or more, that engine searches the files with at most so many bytes and no larger ones.

## Sizes that no word with a sign can hold

The number is a word without a sign, the limit one WITH a sign, and settings are accepted whatever
the number is.  A number in the upper half turns negative on the way; a limit that is not positive
means that none was asked for, and so the default counts.  The greatest number of the lower half
arrives, but one more than it is no word, so that every file is read as an empty one
(`readLength_greatest`).  `default_limit_of_large_size` is a size of the upper half.
-/

namespace RuleScan

open RuleScan.Text (Bytes)

/-! ## Numbers and limits -/

/-- A size is a word without a sign. -/
theorem Size.parse_lt {text : String} {n : Nat} (h : Size.parse text = .ok n) : n < Word.size := by
  simp only [parse] at h
  split at h
  · cases h
  · split at h
    · cases h
    · split at h
      · cases h
      · split at h
        · cases h
        · cases h
          exact UInt64.toNat_lt _

theorem Size.parse_empty : (Size.parse "").toOption = none := by decide +kernel

theorem limit_of_lt {n : Nat} (hpos : 1 ≤ n) (hlt : n < Word.half) :
    FileReader.limit (Int.bmod n Word.size) = n := by
  have hword : Int.bmod n Word.size = n := by
    simp only [Word.half] at hlt
    exact Int.bmod_eq_of_le (by simp only [Word.size]; omega) (by simp only [Word.size]; omega)
  rw [hword, FileReader.limit, if_neg (by omega)]

/-- A number of the upper half becomes negative, which asks for nothing. -/
theorem limit_of_half_le {n : Nat} (hle : Word.half ≤ n) (hlt : n < Word.size) :
    FileReader.limit (Int.bmod n Word.size) = defaultMaxSize := by
  have hword : Int.bmod n Word.size ≤ 0 := by
    simp only [Word.half, Word.size] at hle hlt ⊢
    rw [Int.bmod_def]
    omega
  rw [FileReader.limit, if_pos hword]

/-! ## Settings that are accepted -/

theorem orElse_eq_none_iff {α : Type} {o : Option α} {f : Unit → Option α} :
    o.orElse f = none ↔ o = none ∧ f () = none := by
  cases o with
  | none => exact (and_iff_right rfl).symm
  | some a => exact ⟨nofun, nofun⟩

/-- Whether a line is a command does not depend on the environment. -/
theorem Command.exists_parse {environment : List String} {line : String} {c : Command}
    (h : parse environment line = .ok c) (environment' : List String) :
    ∃ c', parse environment' line = .ok c' := by
  simp only [parse] at h ⊢
  split at h
  · cases h
  · cases h
  · exact ⟨_, rfl⟩

namespace EngineSettings

/-- What is checked of settings: among other things the size and the search program. -/
theorem of_problem?_eq_none {s : EngineSettings} (h : s.problem? = none) :
    (∃ size, s.fileSize = .ok size) ∧
      ∀ line, s.searchLine? = some line → ∃ c, Command.parse [] line = .ok c := by
  simp only [problem?] at h
  split at h
  · cases h
  · simp only [orElse_eq_none_iff] at h
    obtain ⟨hsize, -, hsearch⟩ := h
    constructor
    · cases hfile : s.fileSize with
      | error f => simp [hfile] at hsize
      | ok size => exact ⟨size, rfl⟩
    · intro line hline
      simp only [hline] at hsearch
      cases hparse : Command.parse [] line with
      | error f =>
          rw [hparse] at hsearch
          cases hsearch
      | ok c => exact ⟨c, rfl⟩

/-- The options beside the size, given those for the search program. -/
def otherOptions (s : EngineSettings) (search : List Engine.Setting) : List Engine.Setting :=
  (s.concurrency.map Engine.Setting.concurrency).toList ++
    (s.suppressionMarker.map Engine.Setting.marker).toList ++
    ((s.search.bind SearchSettings.strict).map Engine.Setting.strict).toList ++ search

theorem ne_maxFileSize_of_mem {s : EngineSettings} {search : List Engine.Setting} (n : Int)
    (hsearch : .maxFileSize n ∉ search) : .maxFileSize n ∉ s.otherOptions search := by
  intro hmem
  simp only [otherOptions, List.mem_append, Option.mem_toList, Option.map_eq_some_iff] at hmem
  rcases hmem with ((⟨_, -, h⟩ | ⟨_, -, h⟩) | ⟨_, -, h⟩) | h
  · cases h
  · cases h
  · cases h
  · exact hsearch h

/-- Settings that are accepted set up an engine; the size comes first, and only once. -/
theorem exists_options {s : EngineSettings} (h : s.problem? = none) (environment : List String) :
    ∃ size others, s.fileSize = .ok size ∧
      s.options environment = .ok (.maxFileSize size :: others) ∧
        ∀ n, Engine.Setting.maxFileSize n ∉ others := by
  obtain ⟨⟨size, hsize⟩, hsearch⟩ := of_problem?_eq_none h
  cases hline : s.searchLine? with
  | none =>
      refine ⟨size, s.otherOptions [], hsize, by simp only [options, hsize, hline]; rfl, ?_⟩
      exact fun n => ne_maxFileSize_of_mem n List.not_mem_nil
  | some line =>
      obtain ⟨c, hc⟩ := hsearch line hline
      obtain ⟨c', hc'⟩ := Command.exists_parse hc environment
      have hne : line ≠ "" := by
        rintro rfl
        simp [searchLine?] at hline
      have hsearcher : Searcher.ofLine environment line = .ok c' := by
        rw [Searcher.ofLine, if_neg hne, hc']
        rfl
      refine ⟨size, s.otherOptions [.searcher c'], hsize,
        by simp only [options, hsize, hline, hsearcher]; rfl, ?_⟩
      exact fun n => ne_maxFileSize_of_mem n (by simp)

/-- The size of settings is that which their words mean, as a word with a sign. -/
theorem fileSize_of_parse {s : EngineSettings} {text : String} (htext : s.maxFileSize = some text)
    {n : Nat} (hsize : Size.parse text = .ok n) : s.fileSize = .ok (Int.bmod n Word.size) := by
  have hne : text ≠ "" := by
    rintro rfl
    have hempty := Size.parse_empty
    rw [hsize] at hempty
    cases hempty
  rw [fileSize, htext]
  split
  · next h => cases h
  · next h => exact absurd (Option.some.inj h) hne
  · next h =>
      obtain rfl := Option.some.inj h
      rw [hsize]

end EngineSettings

/-! ## Engines that are set up -/

namespace Engine

/-- An option that is not about the size leaves it as it is. -/
theorem maxFileSize_set {e : Engine} {o : Setting} (h : ∀ n, o ≠ .maxFileSize n) :
    (e.set o).maxFileSize = e.maxFileSize := by
  cases o with
  | maxFileSize n => exact absurd rfl (h n)
  | concurrency _ => rfl
  | marker _ => rfl
  | strict _ => rfl
  | searcher _ => rfl

theorem maxFileSize_foldl_set {options : List Setting} (e : Engine)
    (h : ∀ n, Setting.maxFileSize n ∉ options) :
    (options.foldl set e).maxFileSize = e.maxFileSize := by
  induction options generalizing e with
  | nil => rfl
  | cons o options ih =>
      have ho : ∀ n, o ≠ .maxFileSize n := fun n hn => h n (hn ▸ List.mem_cons_self)
      rw [List.foldl_cons, ih _ fun n hn => h n (List.mem_cons_of_mem _ hn), maxFileSize_set ho]

/-- Options do not move an engine to another directory. -/
theorem root_foldl_set (options : List Setting) (e : Engine) :
    (options.foldl set e).root = e.root := by
  induction options generalizing e with
  | nil => rfl
  | cons o options ih =>
      rw [List.foldl_cons, ih]
      cases o <;> rfl

/-- What an evaluation searches in a file: its content, if the file may be searched. -/
def searchable? (e : Engine) (d : Disk) (file : String) : Option Bytes :=
  (FileReader.make e.root e.maxFileSize).load d file

/-- The engine searches the files that have at most `n` bytes and no zero byte near the start, as
they are, and no other ones. -/
def SearchesUpTo (e : Engine) (n : Nat) : Prop :=
  ∀ d file content, d.stat (Path.join [e.root, file]) = .ok (.file content) →
    e.searchable? d file =
      if content.length ≤ n ∧ 0 ∉ content.take 8000 then some content else none

theorem searchesUpTo_of_limit {e : Engine} {n : Nat} (hpos : 1 ≤ n) (hlt : n + 1 < Word.half)
    (h : FileReader.limit e.maxFileSize = n) : e.SearchesUpTo n := by
  intro d file content hfile
  have hload : e.searchable? d file = readable? n (.file content) := by
    simp only [searchable?, FileReader.load, FileReader.make, hfile, h]
  rw [hload, readable?_file (by omega) (by omega)]
  simp only [Int.ofNat_le]
  rfl

/-- Only regular files are searched. -/
theorem exists_stat_of_searchable? {e : Engine} {d : Disk} {file : String} {content : Bytes}
    (h : e.searchable? d file = some content) :
    ∃ whole, d.stat (Path.join [e.root, file]) = .ok (.file whole) := by
  simp only [searchable?, FileReader.load, FileReader.make] at h
  split at h
  · next n hn =>
      cases n with
      | file whole => exact ⟨whole, hn⟩
      | _ => cases h
  · cases h

/-- What is searched up to some size is searched up to a larger one. -/
theorem SearchesUpTo.mono {e e' : Engine} (hroot : e'.root = e.root) {n n' : Nat}
    (h : e.SearchesUpTo n) (h' : e'.SearchesUpTo n') (hle : n ≤ n') {d : Disk} {file : String}
    {content : Bytes} (hsearched : e.searchable? d file = some content) :
    e'.searchable? d file = some content := by
  obtain ⟨whole, hfile⟩ := exists_stat_of_searchable? hsearched
  rw [h d file whole hfile] at hsearched
  split at hsearched
  · next hfits =>
      rw [h' d file whole (hroot ▸ hfile), if_pos ⟨by omega, hfits.2⟩, hsearched]
  · cases hsearched

end Engine

/-! ## The limit in effect -/

namespace EngineSettings

/-- The settings are accepted, and their words for the size mean `n` bytes. -/
structure AsksFor (s : EngineSettings) (n : Nat) : Prop where
  accepted : s.problem? = none
  means : ∃ text, s.maxFileSize = some text ∧ Size.parse text = .ok n

section Limits

variable {s : EngineSettings} {n : Nat} {environment : List String} {options : List Engine.Setting}

theorem AsksFor.lt_size (hs : s.AsksFor n) : n < Word.size := by
  obtain ⟨text, -, hparse⟩ := hs.means
  exact Size.parse_lt hparse

/-- The limit that an engine is given is the word with a sign for the size. -/
theorem AsksFor.maxFileSize_eq (hs : s.AsksFor n) (hoptions : s.options environment = .ok options)
    (e : Engine) : (options.foldl Engine.set e).maxFileSize = Int.bmod n Word.size := by
  obtain ⟨text, htext, hparse⟩ := hs.means
  obtain ⟨size, others, hsize, hothers, hnot⟩ := exists_options hs.accepted environment
  obtain rfl : options = .maxFileSize size :: others :=
    Except.ok.inj (hoptions.symm.trans hothers)
  have hword : Int.bmod n Word.size = size :=
    Except.ok.inj ((fileSize_of_parse htext hparse).symm.trans hsize)
  exact (Engine.maxFileSize_foldl_set _ hnot).trans hword.symm

theorem AsksFor.searchesUpTo (hs : s.AsksFor n) (hpos : 1 ≤ n) (hlt : n + 1 < Word.half)
    (hoptions : s.options environment = .ok options) (e : Engine) :
    FileReader.limit (options.foldl Engine.set e).maxFileSize = n ∧
      (options.foldl Engine.set e).SearchesUpTo n := by
  have hlimit := limit_of_lt hpos (Nat.lt_of_succ_lt hlt)
  rw [← hs.maxFileSize_eq hoptions e] at hlimit
  exact ⟨hlimit, Engine.searchesUpTo_of_limit hpos hlt hlimit⟩

/-- A size of the upper half is no limit, so that the default counts. -/
theorem AsksFor.searchesUpTo_default (hs : s.AsksFor n) (hle : Word.half ≤ n)
    (hoptions : s.options environment = .ok options) (e : Engine) :
    FileReader.limit (options.foldl Engine.set e).maxFileSize = 1048576 ∧
      (options.foldl Engine.set e).SearchesUpTo 1048576 := by
  have hlimit := limit_of_half_le hle hs.lt_size
  rw [← hs.maxFileSize_eq hoptions e] at hlimit
  exact ⟨hlimit, Engine.searchesUpTo_of_limit (by decide) (by decide) hlimit⟩

end Limits

/-- **The size that settings ask for takes effect.**  Settings that are accepted and ask for `n`
bytes, one or more, set up an engine.  If there is a word with a sign for `n` and for one more, then
`n` is the limit of that engine: it searches every readable text file of at most `n` bytes and no
larger one, and an engine set up for a larger size of this kind searches whatever it searches.  If
there is no word with a sign for `n`, the default is the limit; if there is none for one more, every
file of at most `n` bytes is searched as an empty one. -/
theorem size_in_effect {s : EngineSettings} {n : Nat} (hs : s.AsksFor n) (hpos : 1 ≤ n)
    (environment : List String) (e : Engine) :
    ∃ options, s.options environment = .ok options ∧
      (n + 1 < Word.half →
        FileReader.limit (options.foldl Engine.set e).maxFileSize = n ∧
        (options.foldl Engine.set e).SearchesUpTo n ∧
        ∀ (s' : EngineSettings) n', s'.AsksFor n' → n ≤ n' → n' + 1 < Word.half →
          ∀ environment' options', s'.options environment' = .ok options' →
            ∀ d file content, (options.foldl Engine.set e).searchable? d file = some content →
              (options'.foldl Engine.set e).searchable? d file = some content) ∧
      (n + 1 = Word.half → ∀ d file content,
        d.stat (Path.join [e.root, file]) = .ok (.file content) →
          (options.foldl Engine.set e).searchable? d file =
            if content.length ≤ n then some [] else none) ∧
      (Word.half ≤ n →
        FileReader.limit (options.foldl Engine.set e).maxFileSize = 1048576 ∧
        (options.foldl Engine.set e).SearchesUpTo 1048576) := by
  obtain ⟨size, others, -, hoptions, -⟩ := exists_options hs.accepted environment
  refine ⟨_, hoptions, ?small, ?greatest, fun hle => hs.searchesUpTo_default hle hoptions e⟩
  case small =>
    intro hlt
    obtain ⟨hlimit, hsearches⟩ := hs.searchesUpTo hpos hlt hoptions e
    refine ⟨hlimit, hsearches, ?_⟩
    intro s' n' hs' hle hlt' environment' options' hoptions' d file content hsearched
    obtain ⟨-, hsearches'⟩ := hs'.searchesUpTo (Nat.le_trans hpos hle) hlt' hoptions' e
    refine hsearches.mono ?_ hsearches' hle hsearched
    rw [Engine.root_foldl_set, Engine.root_foldl_set]
  case greatest =>
    intro hgreatest d file content hfile
    have hlimit := limit_of_lt hpos (by omega)
    rw [← hs.maxFileSize_eq hoptions e] at hlimit
    have hword : (n : Int) = Word.half - 1 := by omega
    rw [Engine.searchable?, Engine.root_foldl_set]
    simp only [FileReader.load, FileReader.make, hfile, hlimit, hword]
    rw [readable?_greatest, ← hword]
    simp only [Int.ofNat_le]

/-- Settings with no more than a size in words. -/
def sized (text : String) : EngineSettings := { maxFileSize := some text }

theorem asksFor_sized {text : String} {n : Nat} (hparse : (Size.parse text).toOption = some n) :
    (sized text).AsksFor n := by
  have hsize : Size.parse text = .ok n := by
    cases h : Size.parse text with
    | error f => rw [h] at hparse; cases hparse
    | ok m => rw [h] at hparse; cases hparse; rfl
  refine ⟨?_, text, rfl, hsize⟩
  have hfile := fileSize_of_parse (s := sized text) rfl hsize
  simp only [problem?, hfile]
  rfl

theorem size_in_effect_sample :
    ∃ options, (sized "5 B").options [] = .ok options ∧
      (options.foldl Engine.set {}).searchable? Engine.sampleDisk "f" =
        some [97, 13, 10, 98, 33] ∧
      ∀ options', (sized "1.5 kB").options [] = .ok options' →
        (options'.foldl Engine.set {}).searchable? Engine.sampleDisk "f" =
          some [97, 13, 10, 98, 33] := by
  have hfive : (sized "5 B").AsksFor 5 := asksFor_sized (by decide +kernel)
  have hmore : (sized "1.5 kB").AsksFor 1500 := asksFor_sized (by decide +kernel)
  obtain ⟨options, hoptions, hsmall, -⟩ := size_in_effect hfive (by decide) [] {}
  obtain ⟨-, hsearches, hmono⟩ := hsmall (by decide)
  have hroot : (options.foldl Engine.set {}).root = "." := Engine.root_foldl_set options {}
  have hfile := FileReader.stat_sampleDisk
  rw [← hroot] at hfile
  have hsearched := hsearches Engine.sampleDisk "f" _ hfile
  rw [if_pos (by decide)] at hsearched
  exact ⟨options, hoptions, hsearched, fun options' hoptions' =>
    hmono _ _ hmore (by decide) (by decide) [] options' hoptions' _ _ _ hsearched⟩

/-- A disk with one file of 1 MiB and one byte. -/
def largeDisk : Disk := { root := .directory [("f", .file (List.replicate 1048577 120))] }

/-- The words `8 EiB` mean half of all words.  They are accepted, and yet a file of 1 MiB and one
byte is not searched, which is searched up to 2 MiB. -/
theorem default_limit_of_large_size :
    (sized "2 MiB").AsksFor 2097152 ∧ (sized "8 EiB").AsksFor 9223372036854775808 ∧
      ∃ small large, (sized "2 MiB").options [] = .ok small ∧
        (sized "8 EiB").options [] = .ok large ∧
        (small.foldl Engine.set {}).searchable? largeDisk "f" =
          some (List.replicate 1048577 120) ∧
        (large.foldl Engine.set {}).searchable? largeDisk "f" = none := by
  have hsmall : (sized "2 MiB").AsksFor 2097152 := asksFor_sized (by decide +kernel)
  have hlarge : (sized "8 EiB").AsksFor 9223372036854775808 := asksFor_sized (by decide +kernel)
  obtain ⟨_, _, -, hsmalls, -⟩ := exists_options hsmall.accepted []
  obtain ⟨_, _, -, hlarges, -⟩ := exists_options hlarge.accepted []
  have hfile : largeDisk.stat (Path.join [".", "f"]) =
      .ok (.file (List.replicate 1048577 120)) := by
    rw [Engine.join_single, Disk.stat, largeDisk, Engine.place_single]
    rfl
  refine ⟨hsmall, hlarge, _, _, hsmalls, hlarges, ?_, ?_⟩
  · rw [(hsmall.searchesUpTo (by decide) (by decide) hsmalls {}).2 largeDisk "f" _
      (by rwa [Engine.root_foldl_set])]
    refine if_pos ⟨by rw [List.length_replicate]; decide, fun hzero => ?_⟩
    have hnul := List.eq_of_mem_replicate (List.mem_of_mem_take hzero)
    exact absurd hnul (by decide)
  · rw [(hlarge.searchesUpTo_default (by decide) hlarges {}).2 largeDisk "f" _
      (by rwa [Engine.root_foldl_set])]
    refine if_neg fun hfits => ?_
    have hlength := hfits.1
    rw [List.length_replicate] at hlength
    exact absurd hlength (by decide)

end EngineSettings

end RuleScan
