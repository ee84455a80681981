import RuleScan.Proofs.Disk.Kept
import RuleScan.Proofs.Path.Clean

/-!
# The entry that a path ends with

A path that ends with a name stands for an entry of a directory: a file, a link that leads to one,
or a place where nothing is yet.

## What is proved

  * `exists_isEntry` — a path to something that is no directory ends with such a name;
  * `IsEntry.lstat_eq_ok_iff`, `IsEntry.newPlace_eq`, `IsEntry.stat_eq_ok` — what is found there,
    what is made there, and what is found behind it;
  * `Way.kept_beside` — whatever becomes of an entry that leads to a file, the ways to directories
    stay;
  * `Way.moved` — an entry that was moved within its directory leads to the same file, and a link
    that starts at the root does so wherever it is moved;
  * `IsEntry.rename_eq_ok` — what moving an entry to an unused name does.

A link can be moved like a file.  But unless it starts at the root, what it says is read from its
directory.
-/

namespace RuleScan.Disk

open RuleScan.Text (Bytes)
open Node (Kept)

/-- A path that ends with a name, the place of the directory which that name is looked up in, and
how many links are left there. -/
structure IsEntry (d : Disk) (path : String) (front : List String) (name : String) (left : Nat)
    (above : List String) : Prop where
  fullNames_eq : d.fullNames path = front ++ [name]
  isEmpty_eq : path.isEmpty = false
  asks_eq : Path.asksDirectory path = false
  ne_dots : name ≠ ".."
  short : ¬ Text.byteLength name > maxNameLength
  way : Way d.root maxLinks [] front left above
  isDir : d.root.IsDir above

theorem fullNames_congr {d d' : Disk} (h : d'.directory = d.directory) (path : String) :
    d'.fullNames path = d.fullNames path := by
  rw [fullNames, fullNames, h]

theorem fullNames_start (d : Disk) {start name : String} (hstart : Path.IsFront start)
    (hname : '/' ∉ name.toList) (hne : name ≠ "") (hdot : name ≠ ".") :
    d.fullNames (start ++ name) = d.fullNames start ++ [name] := by
  rw [fullNames, fullNames, Path.isAbs_start hname, Path.names_start hstart hname hne hdot]
  split
  · rfl
  · rw [List.append_assoc]

namespace IsEntry

variable {d : Disk} {path name : String} {front above : List String} {left : Nat}

theorem follow_eq (h : IsEntry d path front name left above) (ending : Ending) :
    follow d.root ending maxLinks [] (d.fullNames path) =
      follow d.root ending left above [name] := by
  rw [h.fullNames_eq, h.way.follow_append h.isDir (List.cons_ne_nil _ _)]

theorem entryPlace_eq (h : IsEntry d path front name left above) :
    d.entryPlace path = .ok (above ++ [name]) := by
  obtain ⟨es, hes⟩ := h.isDir
  simp [entryPlace, h.fullNames_eq, h.way.follow_eq, bind, Except.bind, hes, h.short,
    Node.isDirectory, pure, Except.pure]

/-- The entry itself, whatever it is. -/
theorem lstat_eq_ok_iff (h : IsEntry d path front name left above) {n : Node} :
    d.lstat path = .ok n ↔ d.root.get? (above ++ [name]) = some n := by
  have hfollow := h.follow_eq .entry
  rw [follow, if_neg h.ne_dots, if_neg h.short] at hfollow
  simp only [lstat, h.isEmpty_eq, h.asks_eq, hfollow]
  cases hget : d.root.get? (above ++ [name]) with
  | none => simp [bind, Except.bind]
  | some m => cases m <;> simp [bind, Except.bind, pure, Except.pure, hget, follow]

/-- A file of this path is made at the entry, unless something is there. -/
theorem newPlace_eq (h : IsEntry d path front name left above)
    (hfree : d.root.get? (above ++ [name]) = none ∨ d.root.IsDir (above ++ [name])) :
    d.newPlace path = .ok (above ++ [name]) := by
  rw [newPlace, h.isEmpty_eq, if_neg Bool.false_ne_true, h.follow_eq, follow, if_neg h.ne_dots,
    if_neg h.short]
  rcases hfree with hnone | ⟨es, hes⟩
  · simp [hnone]
  · simp [hes, follow]

theorem place_eq (h : IsEntry d path front name left above) {left' : Nat} {q : List String}
    (hway : Way d.root left above [name] left' q) : d.place path = .ok q := by
  rw [place, h.isEmpty_eq, if_neg Bool.false_ne_true, h.follow_eq, hway.follow_eq]

/-- What the entry leads to is at the path. -/
theorem stat_eq_ok (h : IsEntry d path front name left above) {left' : Nat} {q : List String}
    {n : Node} (hway : Way d.root left above [name] left' q) (hget : d.root.get? q = some n) :
    d.stat path = .ok n :=
  stat_eq_ok_iff.mpr ⟨q, h.place_eq hway, hget, by simp [h.asks_eq]⟩

/-- A link to a name that is not beside it leads nowhere. -/
theorem stat_ne_ok_of_dangling {target other : String}
    (h : IsEntry d path front name (left + 1) above)
    (hlink : d.root.get? (above ++ [name]) = some (.link target))
    (hbeside : Path.isAbs target = false) (htarget : names target = [other])
    (hdots : other ≠ "..") (hshort : ¬ Text.byteLength other > maxNameLength)
    (hnone : d.root.get? (above ++ [other]) = none) (n : Node) : d.stat path ≠ .ok n := by
  intro hstat
  obtain ⟨q, hplace, -⟩ := stat_eq_ok_iff.mp hstat
  have hnowhere : follow d.root .target left above [other] = .error .notExist := by
    rw [follow, if_neg hdots, if_neg hshort, hnone]
    rfl
  rw [place, h.isEmpty_eq, if_neg Bool.false_ne_true, h.follow_eq,
    follow_link h.ne_dots h.short hlink (fun _ => by decide), hbeside, htarget,
    if_neg Bool.false_ne_true, List.append_nil, hnowhere] at hplace
  cases hplace

/-- The entry is no directory if it does not lead to one. -/
theorem not_isDir (h : IsEntry d path front name left above) {left' : Nat} {q : List String}
    (hway : Way d.root left above [name] left' q) (hq : ¬ d.root.IsDir q) :
    ¬ d.root.IsDir (above ++ [name]) := by
  rintro ⟨es, hes⟩
  rw [hway.unique (.down h.ne_dots h.short hes (.here left _))] at hq
  exact hq ⟨es, hes⟩

/-- The entry stays an entry while the way to its directory stays. -/
theorem kept (h : IsEntry d path front name left above) {d' : Disk}
    (hdirectory : d'.directory = d.directory) (hway : Way d'.root maxLinks [] front left above)
    (hdir : d'.root.IsDir above) : IsEntry d' path front name left above where
  fullNames_eq := (fullNames_congr hdirectory path).trans h.fullNames_eq
  isEmpty_eq := h.isEmpty_eq
  asks_eq := h.asks_eq
  ne_dots := h.ne_dots
  short := h.short
  way := hway
  isDir := hdir

end IsEntry

/-- The entry that names from the root end with. -/
theorem isEntry_pathOf {d : Disk} {front above : List String} (name : String) {left : Nat}
    (hnames : ∀ n ∈ front ++ [name], LegalName n) (hway : Way d.root maxLinks [] front left above)
    (hdir : d.root.IsDir above) : IsEntry d (pathOf (front ++ [name])) front name left above := by
  have hall : ∀ n ∈ front ++ [name], Path.IsName n := fun n hn => (hnames n hn).toIsName
  have hlast : LegalName name := hnames name (by simp)
  have hne : front ++ [name] ≠ [] := List.append_ne_nil_of_right_ne_nil front (by simp)
  exact ⟨fullNames_pathOf d hall, Path.pathOf_ne_empty _, asksDirectory_pathOf hall hne,
    hlast.ne_dots, Nat.not_lt.mpr hlast.length_le, hway, hdir⟩

/-- The entry at a place that a path names. -/
theorem isEntry_of_entryPlace {d : Disk} {path name : String} {front p : List String}
    (h : d.entryPlace path = .ok p) (hnames : d.fullNames path = front ++ [name])
    (hempty : path.isEmpty = false) (hasks : Path.asksDirectory path = false)
    (hdots : name ≠ "..") :
    ∃ left above, IsEntry d path front name left above ∧ p = above ++ [name] := by
  simp only [entryPlace, hnames, List.getLast?_concat, List.dropLast_concat, bind, Except.bind] at h
  cases habove : follow d.root .target maxLinks [] front with
  | error f => simp [habove] at h
  | ok above =>
      obtain ⟨left, hway⟩ := way_of_follow habove
      by_cases hdir : d.root.IsDir above
      · obtain ⟨es, hes⟩ := hdir
        by_cases hshort : Text.byteLength name > maxNameLength
        · simp [habove, hes, Node.isDirectory, hshort, throw, throwThe, MonadExceptOf.throw] at h
        · refine ⟨left, above, ⟨hnames, hempty, hasks, hdots, hshort, hway, es, hes⟩, ?_⟩
          simpa [habove, hes, Node.isDirectory, hshort, pure, Except.pure, eq_comm] using h
      · have hnone : (d.root.get? above).any Node.isDirectory = false := by
          rw [Bool.eq_false_iff]
          intro hany
          obtain ⟨n, hn, hn'⟩ := (Option.any_eq_true _ _).mp hany
          obtain ⟨es, rfl⟩ := Node.eq_directory hn'
          exact hdir ⟨es, hn⟩
        simp [habove, hnone, throw, throwThe, MonadExceptOf.throw] at h

/-- A path to something that is no directory ends with a name, and the entry leads there. -/
theorem exists_isEntry {d : Disk} (hroot : d.root.IsDir []) {path : String} {n : Node}
    (h : d.stat path = .ok n) (hn : n.isDirectory = false) :
    ∃ start name left above left' q, path = start ++ name ∧ Path.IsFront start ∧ Path.IsName name ∧
      IsEntry d path (d.fullNames start) name left above ∧
      Way d.root left above [name] left' q ∧ d.root.get? q = some n := by
  obtain ⟨q, hplace, hget, hasks⟩ := stat_eq_ok_iff.mp h
  have hleaf := Node.not_isDir_of_get? hget hn
  have hasks : Path.asksDirectory path = false := by
    rw [Bool.eq_false_iff]
    intro hpath
    rw [hasks hpath] at hn
    cases hn
  rw [place] at hplace
  split at hplace
  · cases hplace
  · next hempty =>
      obtain ⟨start, name, rfl, hstart, hslash, hne, hdot⟩ := Path.exists_last hasks
      have hnames := fullNames_start d hstart hslash hne hdot
      obtain ⟨left', hway⟩ := way_of_follow hplace
      rw [hnames] at hway
      obtain ⟨left, above, hfront, habove, hlast⟩ := hway.split hroot (List.cons_ne_nil name [])
      have hdots : name ≠ ".." := by
        rintro rfl
        cases hlast with
        | up h =>
            cases h
            exact hleaf habove.dropLast
        | _ => contradiction
      have hshort : ¬ Text.byteLength name > maxNameLength := by
        cases hlast <;> first | assumption | contradiction
      exact ⟨start, name, left, above, left', q, rfl, hstart, ⟨hne, hdot, hdots, hslash⟩,
        ⟨hnames, by simpa using hempty, hasks, hdots, hshort, hfront, habove⟩, hlast, hget⟩

/-! ## What becomes of an entry -/

/-- A link that is followed from the root, wherever it is. -/
def Node.StartsAtRoot (root : Node) (place : List String) : Prop :=
  ∃ target, root.get? place = some (.link target) ∧ Path.isAbs target = true

variable {root root' : Node} {left left' : Nat} {above q : List String} {name : String}

/-- **The ways to directories stay**, whatever becomes of an entry that leads to a file. -/
theorem Way.kept_beside (hentry : Way root left above [name] left' q) (habove : root.IsDir above)
    (hq : ¬ root.IsDir q) (hkept : Kept (· = above ++ [name]) root root') {links more : Nat}
    {place todo p : List String} (h : Way root links place todo more p) (hp : root.IsDir p) :
    Way root' links place todo more p := by
  cases hentry with
  | up hend =>
      cases hend
      exact absurd habove.dropLast hq
  | down _ _ hget hend =>
      cases hend
      exact absurd ⟨_, hget⟩ hq
  | leaf _ _ hget hdir hlink =>
      refine h.kept hkept ?_ ?_ ?_
      · rintro _ rfl
        exact hq
      · rintro rfl
        exact hq hp
      · intro place' name' target hlost hget' fewer _ rest more' _
        rw [hlost, hget] at hget'
        exact hlink target (Option.some.inj hget')
  | @link _ _ _ _ _ _ target _ _ hget hend =>
      rw [List.append_nil] at hend
      have hleaf := Node.not_isDir_of_get? hget rfl
      refine h.kept hkept ?_ ?_ ?_
      · rintro _ rfl
        exact hleaf
      · rintro rfl
        exact hleaf hp
      · intro place' name' target' hlost hget' fewer _ rest more'
        obtain ⟨rfl, -⟩ := List.append_inj' hlost rfl
        rw [hlost, hget] at hget'
        obtain rfl := Node.link.inj (Option.some.inj hget')
        exact hend.ends_at_leaf hq (habove.start target) hp

/-- An entry that was moved within its directory leads to the same file, and so does one that was
moved anywhere, if it is a link from the root. -/
theorem Way.moved (hentry : Way root left above [name] left' q) (habove : root.IsDir above)
    {content : Bytes} (hq : root.get? q = some (.file content))
    (hkept : Kept (· = above ++ [name]) root root') {place : List String} {other : String}
    (hdots : other ≠ "..") (hshort : ¬ Text.byteLength other > maxNameLength)
    (hstart : place = above ∨ root.StartsAtRoot (above ++ [name]))
    (hmoved : root'.get? (place ++ [other]) = root.get? (above ++ [name])) :
    ∃ left' q, Way root' left place [other] left' q ∧ root'.get? q = some (.file content) := by
  have hleaf := Node.not_isDir_of_get? hq rfl
  cases hentry with
  | up hend =>
      cases hend
      exact absurd habove.dropLast hleaf
  | down _ _ hget hend =>
      cases hend
      exact absurd ⟨_, hget⟩ hleaf
  | leaf _ _ hget hdir hlink =>
      rw [hq] at hmoved
      exact ⟨left, _, .file hdots hshort hmoved, hmoved⟩
  | @link links _ _ _ _ _ target _ _ hget hend =>
      rw [hget] at hmoved
      rw [List.append_nil] at hend
      -- the shortest way behind the link does not go through the entry again
      obtain ⟨least, left'', hleast, hway, hnone⟩ :=
        hend.exists_least hleaf (habove.start target)
      have hqne : q ≠ above ++ [name] := by
        rintro rfl
        rw [hget] at hq
        cases Option.some.inj hq
      have hstays : Way root' least (if Path.isAbs target then [] else above) (names target) left''
          q := by
        refine hway.kept hkept ?_ hqne ?_
        · rintro _ rfl
          exact Node.not_isDir_of_get? hget rfl
        · intro place' name' target' hlost hget' fewer hfewer rest more'
          obtain ⟨rfl, -⟩ := List.append_inj' hlost rfl
          rw [hlost, hget] at hget'
          obtain rfl := Node.link.inj (Option.some.inj hget')
          exact hnone fewer hfewer rest more'
      have hsame : (if Path.isAbs target then [] else above) =
          if Path.isAbs target then [] else place := by
        rcases hstart with rfl | ⟨target', hget', habs⟩
        · rfl
        · rw [hget] at hget'
          obtain rfl := Node.link.inj (Option.some.inj hget')
          rw [if_pos habs, if_pos habs]
      have hadd := hstays.add (links - least)
      rw [Nat.add_sub_cancel' hleast, hsame, ← List.append_nil (names target)] at hadd
      exact ⟨_, q, .link hdots hshort hmoved hadd, hkept.get? hq rfl hqne⟩

/-! ## Moving an entry -/

/-- What giving another path does. -/
theorem rename_eq_ok {d d' : Disk} {source target : String} (h : d.rename source target = .ok d') :
    ∃ a b n, d.entryPlace source = .ok a ∧ d.entryPlace target = .ok b ∧ d.root.get? a = some n ∧
      d' = { d with root := (d.root.erase a).put b n } := by
  simp only [rename] at h
  split at h
  · cases h
  · cases h
  · next a b ha hb =>
      split at h
      · cases h
      · next n hn hnone =>
          split at h
          · cases h
          · exact ⟨a, b, n, ha, hb, hn, (Except.ok.inj h).symm⟩
      · next n m hn hm =>
          split at h
          · cases h
          · split at h
            · cases h
            · exact ⟨a, b, n, ha, hb, hn, (Except.ok.inj h).symm⟩

/-- An entry of one disk at another place of a later one, and nothing else of it lost. -/
structure Moved (d d' : Disk) (a b : List String) (n : Node) : Prop where
  directory : d'.directory = d.directory
  kept : Kept (· = a) d.root d'.root
  there : d'.root.get? b = some n

theorem Moved.grown {d d' d'' : Disk} {a b : List String} {n : Node} (h : Moved d d' a b n)
    (hn : n.isDirectory = false) (hgrown : Grown d' d'') : Moved d d'' a b n where
  directory := hgrown.directory.trans h.directory
  kept := h.kept.trans (hgrown.kept.weaken _)
  there := hgrown.kept.get? h.there hn not_false

/-- What is written in place of the entry changes nothing of that. -/
theorem Moved.written {d d' d'' : Disk} {path name : String} {front above b : List String}
    {left : Nat} {n : Node} {content : Bytes} (h : Moved d d' (above ++ [name]) b n)
    (hn : n.isDirectory = false) (hentry : IsEntry d' path front name left above)
    (hfree : d'.root.get? (above ++ [name]) = none ∨ d'.root.IsDir (above ++ [name]))
    (hb : b ≠ above ++ [name]) (hwrite : d'.write path content = .ok d'') :
    Moved d d'' (above ++ [name]) b n := by
  obtain ⟨p, hp, hleaf, -, rfl⟩ := write_eq_ok hwrite
  obtain rfl := Except.ok.inj ((hentry.newPlace_eq hfree).symm.trans hp)
  have hdir : d'.root.IsDir (above ++ [name]).dropLast := by
    rw [List.dropLast_concat]
    exact hentry.isDir
  have hput := Node.kept_put hdir hleaf (.file content)
  exact ⟨h.directory, h.kept.trans hput, hput.get? h.there hn hb⟩

/-- Moving an entry that is no directory to a name that is not used. -/
theorem IsEntry.moved_of_rename {d d' : Disk} {path target name : String}
    {front above b : List String} {left : Nat} (h : IsEntry d path front name left above)
    (hleaf : ¬ d.root.IsDir (above ++ [name])) (htarget : d.entryPlace target = .ok b)
    (hb : d.root.IsDir b.dropLast)
    (hfree : d.root.get? b = none) (hrename : d.rename path target = .ok d') :
    ∃ n, n.isDirectory = false ∧ d.root.get? (above ++ [name]) = some n ∧
      d'.root.get? (above ++ [name]) = none ∧ Moved d d' (above ++ [name]) b n := by
  obtain ⟨a, b', n, ha, hb', hn, rfl⟩ := rename_eq_ok hrename
  obtain rfl := Except.ok.inj (h.entryPlace_eq.symm.trans ha)
  obtain rfl := Except.ok.inj (htarget.symm.trans hb')
  have hdir : n.isDirectory = false := by
    rw [Bool.eq_false_iff]
    intro hdir
    obtain ⟨es, rfl⟩ := Node.eq_directory hdir
    exact hleaf ⟨es, hn⟩
  have hlast : d.root.IsDir (above ++ [name]).dropLast := by
    rw [List.dropLast_concat]
    exact h.isDir
  obtain ⟨hkept, hthere, hgone⟩ := Node.kept_moved hlast hn hdir hb hfree
  exact ⟨n, hdir, hn, hgone, rfl, hkept, hthere⟩

end RuleScan.Disk
