import RuleScan.Proofs.Disk.Ways
import RuleScan.Proofs.Engine.Returns
import RuleScan.Proofs.Watch.Pending

/-!
# What is watched and what is listed

A walk lists the files below a root, and a watcher tells which files below a root have changed.
Both leave out the directories that are never searched, each in its own way: a walk does not enter
them, and a watcher looks for their names in the paths that it hears of.

## What is proved

  * `Lister.returns_walk` — a walk lists the regular files in visible directories, no others;
  * `Watcher.watches_make` — a new watcher watches the visible directories, no others;
  * `Watcher.walk_watched` — so the directory of every listed file is watched, and what happens to
    the file is ignored exactly if its path begins with `..` or its own name is that of a directory
    which is never searched.

## Names

A walk asks for the name of a DIRECTORY only, while a watcher takes every name on the way as one,
that of the file too; and it takes every path that begins with two dots to lead out of the root.
`Watcher.ignores_listed` has both kinds of files.
-/

namespace RuleScan

open RuleScan.Disk (Node)
open RuleScan.Path (IsName)

/-- A directory is watched if it is in no directory that is never searched, nor is one itself. -/
structure Visible (t : Node) (names : List String) : Prop where
  isDir : t.IsDir names
  quiet : ∀ name ∈ names, isNoise name = false

theorem Visible.isName {t : Node} {names : List String} (ht : t.Tidy) (h : Visible t names) :
    ∀ n ∈ names, IsName n := by
  obtain ⟨es, hes⟩ := h.isDir
  exact fun n hn => ((ht.get? hes).1 n hn).toIsName

/-! ## Listing -/

namespace Lister

theorem returns_collect (vs : List Disk.Visit) :
    (collect Signal.quiet vs).Returns
      ((vs.filter (·.node.isRegular)).map fun v => Path.below v.path) := by
  induction vs with
  | nil => exact RunM.Returns.pure _
  | cons v rest ih =>
      refine RunM.returns_check_quiet.bind (ih.bind ?_)
      rw [List.filter_cons]
      split
      · exact RunM.Returns.pure _
      · exact RunM.Returns.pure _

/-- A walk lists the regular files that names lead to through visible directories. -/
theorem returns_walk {d : Disk} {root : String} {es : Disk.Entries}
    (hroot : d.lstat root = .ok (.directory es)) (htidy : (Node.directory es).Tidy) :
    ∃ files, (walk Signal.quiet d root).Returns files ∧ ∀ f, f ∈ files ↔
      ∃ names name content, f = Path.below (names ++ [name]) ∧
        (Node.directory es).get? (names ++ [name]) = some (.file content) ∧
        Visible (.directory es) names := by
  refine ⟨_, (returns_collect (visits d root)).tryCatch, fun f => ?_⟩
  simp only [List.mem_map, List.mem_filter, visits, hroot, List.mem_cons, Disk.mem_visits htidy]
  constructor
  · rintro ⟨v, ⟨rfl | ⟨names, hpath, hne, hget, hentered⟩, hregular⟩, rfl⟩
    · cases hregular
    · obtain ⟨names, name, rfl⟩ := (List.eq_nil_or_concat' names).resolve_left hne
      cases hnode : v.node with
      | file content =>
          rw [hnode] at hget
          refine ⟨names, name, content, by rw [hpath]; rfl, hget, Node.isDir_of_get? hget, ?_⟩
          simpa using hentered.above
      | _ => simp [hnode, Node.isRegular] at hregular
  · rintro ⟨names, name, content, rfl, hget, -, hquiet⟩
    refine ⟨⟨names ++ [name], .file content⟩, ⟨.inr ⟨_, rfl, by simp, hget, ?_, nofun⟩, rfl⟩, rfl⟩
    simpa using hquiet

end Lister

namespace Watcher

/-- A watcher watches some directories below the place of its root; they are given by the names that
lead to them from there, none of which is that of a directory that is never searched. -/
structure Watches (base : List String) (w : Watcher) (P : List String → Prop) : Prop where
  base_isName : ∀ n ∈ base, IsName n
  root_eq : w.root = Disk.pathOf base
  isName : ∀ names, P names → ∀ n ∈ names, IsName n
  quiet : ∀ names, P names → ∀ n ∈ names, isNoise n = false
  mem : ∀ x, x ∈ w.directories ↔ ∃ names, x = Disk.pathOf (base ++ names) ∧ P names

variable {base : List String}

/-! ## Paths below the root -/

section Watches

variable {w : Watcher} {P Q : List String → Prop}

theorem Watches.congr (h : Watches base w P) (hPQ : ∀ names, P names ↔ Q names) :
    Watches base w Q := by
  obtain rfl : P = Q := funext fun names => propext (hPQ names)
  exact h

theorem Watches.ignores (h : Watches base w P) {names : List String}
    (hnames : ∀ n ∈ names, IsName n) (hne : names ≠ []) :
    w.ignores (Disk.pathOf (base ++ names)) =
      ("..".toList.isPrefixOf (Path.below names).toList || names.any isNoise) := by
  rw [Watcher.ignores, h.root_eq, Path.relative?_pathOf h.base_isName hnames]
  simp only [Path.segments_below hnames hne]

/-- The directories are shown by their paths from the root. -/
theorem Watches.mem_shown (h : Watches base w P) (x : String) :
    x ∈ w.shown ↔ ∃ names, x = Path.below names ∧ P names := by
  have hrelative : ∀ names, P names →
      Path.relative? (Disk.pathOf base) (Disk.pathOf (base ++ names)) = some (Path.below names) :=
    fun names hP => Path.relative?_pathOf h.base_isName (h.isName names hP)
  rw [shown, List.mem_mergeSort, List.mem_filterMap, h.root_eq]
  constructor
  · rintro ⟨path, hpath, hx⟩
    obtain ⟨names, rfl, hP⟩ := (h.mem path).mp hpath
    rw [hrelative names hP, Option.some.injEq] at hx
    exact ⟨names, hx.symm, hP⟩
  · rintro ⟨names, rfl, hP⟩
    exact ⟨_, (h.mem _).mpr ⟨names, rfl, hP⟩, hrelative names hP⟩

end Watches

/-! ## Watching a tree -/

/-- A walk that does not enter what is never searched comes across the visible directories. -/
theorem visible_iff_mem_visits {n : Node} (hn : n.Tidy) {names : List String} (hne : names ≠ []) :
    Visible n names ↔ ∃ v ∈ Disk.visits (fun name => !isNoise name) [] n,
      v.node.isDirectory = true ∧ v.path = names := by
  simp only [Disk.mem_visits hn, List.nil_append]
  constructor
  · rintro ⟨⟨es, hes⟩, hquiet⟩
    have hentered : Disk.Entered (fun name => !isNoise name) names (.directory es) :=
      ⟨fun x hx => by simp [hquiet x (List.dropLast_subset names hx)],
        fun _ x hx => by simp [hquiet x hx]⟩
    exact ⟨⟨names, .directory es⟩, ⟨names, rfl, hne, hes, hentered⟩, rfl, rfl⟩
  · rintro ⟨v, ⟨names, hpath, -, hget, hentered⟩, hdir, rfl⟩
    rw [← hpath] at hget hentered
    obtain ⟨es, hnode⟩ := Node.eq_directory hdir
    exact ⟨⟨es, by rw [hget, hnode]⟩, fun x hx => by simpa using hentered.self hdir x hx⟩

/-- Of the tree at a path, the visible directories are watched. -/
theorem mem_directoriesAt {d : Disk} (hbase : ∀ n ∈ base, IsName n) (names : List String)
    (hnames : ∀ n ∈ names, IsName n) (hquiet : ∀ n ∈ names, isNoise n = false) {n : Node}
    (hlstat : d.lstat (Disk.pathOf (base ++ names)) = .ok n) (hn : n.Tidy) :
    ∃ found, directoriesAt (Disk.pathOf base) d (Disk.pathOf (base ++ names)) = .ok found ∧
      ∀ x, x ∈ found ↔ ∃ more, x = Disk.pathOf (base ++ (names ++ more)) ∧ Visible n more := by
  have hall : ∀ n ∈ base ++ names, IsName n := List.forall_mem_append.mpr ⟨hbase, hnames⟩
  have hself : (decide (Disk.pathOf (base ++ names) ≠ Disk.pathOf base) &&
      isNoise (Path.base (Disk.pathOf (base ++ names)))) = false := by
    rcases List.eq_nil_or_concat' names with rfl | ⟨names, name, rfl⟩
    · simp
    · have hname : name ∈ names ++ [name] := by simp
      rw [← List.append_assoc, Path.base_pathOf _ (hnames name hname), hquiet name hname,
        Bool.and_false]
  rw [directoriesAt, hlstat]
  simp only [hself, Bool.or_false]
  cases hdir : n.isDirectory with
  | false =>
      refine ⟨[], rfl, fun x => ⟨nofun, ?_⟩⟩
      rintro ⟨more, -, hmore, -⟩
      obtain ⟨es, rfl⟩ := Node.isDir_nil.mp (Node.IsDir.of_append (p := []) hmore)
      cases hdir
  | true =>
      obtain ⟨es, rfl⟩ := Node.eq_directory hdir
      have hjoin : ∀ more, Visible (.directory es) more →
          Path.join (Disk.pathOf (base ++ names) :: more) =
            Disk.pathOf (base ++ (names ++ more)) := by
        intro more hmore
        rw [Path.join_names hall (hmore.isName hn), List.append_assoc]
      refine ⟨_, rfl, fun x => ?_⟩
      simp only [List.mem_cons, List.mem_filterMap, Option.ite_none_right_eq_some,
        Option.some.injEq]
      constructor
      · rintro (rfl | ⟨v, hv, hvdir, rfl⟩)
        · exact ⟨[], by simp, Node.isDir_nil.mpr ⟨es, rfl⟩, nofun⟩
        · obtain ⟨more, hpath, hne, -, -⟩ := (Disk.mem_visits hn [] v).mp hv
          rw [List.nil_append] at hpath
          have hvisible := (visible_iff_mem_visits hn (hpath ▸ hne)).mpr ⟨v, hv, hvdir, rfl⟩
          exact ⟨v.path, hjoin _ hvisible, hvisible⟩
      · rintro ⟨more, rfl, hvisible⟩
        by_cases hne : more = []
        · exact .inl (by simp [hne])
        · obtain ⟨v, hv, hvdir, rfl⟩ := (visible_iff_mem_visits hn hne).mp hvisible
          exact .inr ⟨v, hv, hvdir, hjoin _ hvisible⟩

/-- A new watcher watches the visible directories. -/
theorem watches_make {d : Disk} (root : String) (hdirectory : Path.isAbs d.directory = true)
    {n : Node} (hlstat : d.lstat (Path.absolute d.directory root) = .ok n) (hn : n.Tidy) :
    ∃ w base, make d root = .ok w ∧ w.root = Path.absolute d.directory root ∧
      Watches base w (Visible n) := by
  obtain ⟨base, hbase, habsolute⟩ := Path.exists_absolute hdirectory root
  rw [habsolute] at hlstat
  obtain ⟨found, hfound, hmem⟩ := mem_directoriesAt hbase [] nofun nofun
    (by rwa [List.append_nil]) hn
  rw [List.append_nil] at hfound
  refine ⟨{ root := Disk.pathOf base, directories := addNew [] found }, base, ?_,
    habsolute.symm, hbase, rfl, fun _ h => h.isName hn, fun _ h => h.quiet, fun x => ?_⟩
  · simp only [make, follow, habsolute, hfound]
    rfl
  · rw [mem_addNew, hmem]
    simp

/-- **What a walk lists is watched, but for names that look like something else.**  Let a root and
the absolute path of it lead to the same directory.  Then it can be watched and walked through, and
for every file that is listed: its directory is watched, and what happens to it is ignored exactly
if its path begins with two dots or its name is that of a directory which is never searched. -/
theorem walk_watched {d : Disk} {root : String} {es : Disk.Entries}
    (hdirectory : Path.isAbs d.directory = true)
    (hroot : d.lstat root = .ok (.directory es)) (htidy : (Node.directory es).Tidy)
    (habsolute : d.lstat (Path.absolute d.directory root) = d.lstat root) :
    ∃ w files, make d root = .ok w ∧ (Lister.walk Signal.quiet d root).Returns files ∧
      ∀ f ∈ files, Path.dir f ∈ w.shown ∧
        w.ignores (Path.join [w.root, f]) =
          ("..".toList.isPrefixOf f.toList || isNoise (Path.base f)) := by
  obtain ⟨w, base, hmake, -, hwatches⟩ :=
    watches_make root hdirectory (habsolute.trans hroot) htidy
  obtain ⟨files, hwalk, hfiles⟩ := Lister.returns_walk hroot htidy
  refine ⟨w, files, hmake, hwalk, fun f hf => ?_⟩
  obtain ⟨names, name, content, rfl, hget, hvisible⟩ := (hfiles f).mp hf
  have hnames : ∀ n ∈ names ++ [name], IsName n := fun n hn => ((htidy.get? hget).1 n hn).toIsName
  obtain ⟨habove, hname⟩ := List.forall_mem_append.mp hnames
  rw [List.forall_mem_singleton] at hname
  constructor
  · rw [Path.dir_below habove hname, hwatches.mem_shown]
    exact ⟨names, rfl, hvisible⟩
  · have hany : (names ++ [name]).any isNoise = isNoise name := by
      have hquiet : names.any isNoise = false := by simpa using hvisible.quiet
      simp [hquiet]
    rw [hwatches.root_eq, Path.join_below hwatches.base_isName hnames,
      hwatches.ignores hnames (by simp), hany, Path.base_below names hname]

/-- Two files in the directory `a`, and two with names of their own kind. -/
def sampleTree : Node :=
  .directory [("..cfg", .file []), ("a", .directory [("b", .directory []), ("f", .file [])]),
    ("vendor", .file [])]

theorem tidy_sampleTree : sampleTree.Tidy := by
  have ha : (Node.directory [("b", .directory []), ("f", .file [])]).Tidy :=
    .directory (by decide) (by decide) (by simp [Node.tidy_empty, Node.Tidy.file])
  exact .directory (by decide) (by decide) (by simp [ha, Node.Tidy.file])

/-- A disk that has a tree at `/r`. -/
def diskWith (t : Node) : Disk := { root := .directory [("r", t)] }

theorem find_diskWith (es : Disk.Entries) :
    (diskWith (.directory es)).lstat "/r" = .ok (.directory es) ∧
      (diskWith (.directory es)).stat "/r" = .ok (.directory es) := by
  have hpath : Disk.pathOf ["r"] = "/r" := by decide
  have hname : ∀ n ∈ ["r"], IsName n := by
    intro n hn
    rw [List.mem_singleton.mp hn]
    exact (show Disk.LegalName "r" by decide).toIsName
  have hfollow : ∀ ending,
      Disk.follow (diskWith (.directory es)).root ending Disk.maxLinks [] ["r"] = .ok ["r"] := by
    intro ending
    have hget : (diskWith (.directory es)).root.get? ([] ++ ["r"]) = some (.directory es) := rfl
    rw [Disk.follow_directory (by decide) (by decide) hget, Disk.follow]
    rfl
  rw [← hpath]
  exact ⟨Disk.lstat_pathOf _ hname (by simp) (hfollow .entry) rfl,
    Disk.stat_pathOf _ hname (by simp) (hfollow .target) rfl⟩

theorem walk_watched_sample :
    ∃ w files, make (diskWith sampleTree) "/r" = .ok w ∧
      (Lister.walk Signal.quiet (diskWith sampleTree) "/r").Returns files ∧
      "a/f" ∈ files ∧ "a" ∈ w.shown ∧ w.ignores (Path.join [w.root, "a/f"]) = false := by
  have hroot := (find_diskWith sampleTree.entries).1
  obtain ⟨w, files, hmake, hwalk, hfiles⟩ := walk_watched (d := diskWith sampleTree)
    (by decide) hroot tidy_sampleTree rfl
  obtain ⟨files', hwalk', hmem⟩ := Lister.returns_walk hroot tidy_sampleTree
  have hf : "a/f" ∈ files := by
    rw [hwalk.unique hwalk', hmem]
    exact ⟨["a"], "f", [], by decide, rfl, ⟨_, rfl⟩, by decide⟩
  obtain ⟨hshown, hignores⟩ := hfiles _ hf
  exact ⟨w, files, hmake, hwalk, hf, hshown, hignores.trans (by decide)⟩

/-- A file that is listed although its name is that of a directory which is never searched, and
another one whose name begins like the way out of the root.  What happens to them is not told. -/
theorem ignores_listed :
    ∃ w files, make (diskWith sampleTree) "/r" = .ok w ∧
      (Lister.walk Signal.quiet (diskWith sampleTree) "/r").Returns files ∧
      ("vendor" ∈ files ∧ w.ignores (Path.join [w.root, "vendor"]) = true) ∧
      ("..cfg" ∈ files ∧ w.ignores (Path.join [w.root, "..cfg"]) = true) := by
  have hroot := (find_diskWith sampleTree.entries).1
  obtain ⟨w, base, hmake, hwroot, -⟩ := watches_make (d := diskWith sampleTree) "/r"
    (by decide) hroot tidy_sampleTree
  have habsolute : w.root = "/r" := hwroot.trans (by decide)
  obtain ⟨files, hwalk, hmem⟩ := Lister.returns_walk hroot tidy_sampleTree
  refine ⟨w, files, hmake, hwalk, ⟨(hmem _).mpr ?_, ?_⟩, (hmem _).mpr ?_, ?_⟩
  · exact ⟨[], "vendor", [], by decide, rfl, ⟨_, rfl⟩, nofun⟩
  · rw [Watcher.ignores, habsolute]
    decide
  · exact ⟨[], "..cfg", [], by decide, rfl, ⟨_, rfl⟩, nofun⟩
  · rw [Watcher.ignores, habsolute]
    decide

end Watcher

end RuleScan
