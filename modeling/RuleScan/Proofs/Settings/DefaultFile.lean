import RuleScan.Proofs.Disk.Entry
import RuleScan.Settings.Files

/-!
# Writing a default file

By force, a file that is there is moved to a BACKUP before the default is written.  Each step can
fail, and writing can fail in the middle.

## What is proved

  * `run_writePlan` — writing a file makes directories, then writes at most the one file;
  * `moved_of_run` — after a run by force the entry is where it was, or it is the backup;
  * `kept_of_run` — and it leads to the same file from there, if it can be followed as before;
  * `writeDefaultAmid_spares` — what is kept, what is refused and what is written, for every disk,
    with force or without, whatever fails (`Spares`);
  * `writeDefault_strays` — the paths that `Spares.behind` leaves out have to be left out.

## How the argument goes

The states to be afraid of are those behind the move.  The entry has gone from its old place then,
and whatever is written goes there: either nothing is at that place, or a directory that was made
since, and a directory is not written over.  So the backup and all else stays (`Moved.written`).

## Links

A path can lead to a file through a link at its end.  Then the link is what is moved, and the file
behind it stays where it is (`Spares.link`).  From the backup the link leads to the same file if it
can be followed there as before (`LeadsAlike`), and that is so in the same directory.  But the
directory of the backup is read off the path, where a `..` takes back the name before it, and on a
disk a `..` behind another link leads elsewhere: then the older file can be lost to both paths
(`writeDefault_strays`).
-/

namespace RuleScan

open RuleScan.Text (Bytes)

namespace Disk

/-! ## Steps with accidents -/

variable (a : Accidents) (d : Disk)

/-- A step that fails leaves something behind; any other is as without accidents. -/
theorem Accidents.perform_cases (step : Step) :
    (∃ left f, step.Leaves d left ∧ a.perform d step = (left, some f)) ∨
      a.perform d step = step.run d := by
  rw [perform]
  cases h : a.strike d step with
  | none => exact .inr rfl
  | some struck => exact .inl ⟨struck.1, struck.2, a.leaves d step struck.1 struck.2 h, rfl⟩

/-- A move is made as a whole or not at all. -/
theorem Accidents.perform_rename (source target : String) :
    (∃ f, a.perform d (.rename source target) = (d, some f)) ∨
      ∃ moved, d.rename source target = .ok moved ∧
        a.perform d (.rename source target) = (moved, .none) := by
  rcases a.perform_cases d (.rename source target) with ⟨left, f, hleaves, hperform⟩ | hperform
  · cases hleaves
    exact .inl ⟨f, hperform⟩
  · rw [hperform, Step.run]
    cases hrename : d.rename source target with
    | error f => exact .inl ⟨f, rfl⟩
    | ok moved => exact .inr ⟨moved, rfl, rfl⟩

/-- However many directories are made, nothing is lost. -/
theorem Accidents.grown_perform (path : String) :
    Grown d (a.perform d (.makeDirectories path)).1 := by
  rcases a.perform_cases d (.makeDirectories path) with ⟨left, f, hleaves, hperform⟩ | hperform
  · rw [hperform]
    cases hleaves with
    | unchanged => exact .refl d
    | directories n => exact grown_makeEach d ((ancestors path).take n)
  · rw [hperform]
    exact grown_makePath d path

/-- What is written is the content, or by accident the front of it. -/
theorem Accidents.perform_write (path : String) (content : Bytes) :
    (∃ f, a.perform d (.write path content) = (d, some f)) ∨
      ∃ part written failed, d.write path part = .ok written ∧ (failed = .none → part = content) ∧
        a.perform d (.write path content) = (written, failed) := by
  rcases a.perform_cases d (.write path content) with ⟨left, f, hleaves, hperform⟩ | hperform
  · cases hleaves with
    | unchanged => exact .inl ⟨f, hperform⟩
    | part n hwrite => exact .inr ⟨_, left, some f, hwrite, nofun, hperform⟩
  · rw [hperform, Step.run]
    cases hwrite : d.write path content with
    | error f => exact .inl ⟨f, rfl⟩
    | ok written => exact .inr ⟨content, written, .none, hwrite, fun _ => rfl, rfl⟩

end Disk

namespace ConfigFile

open Disk

/-- Writing a file with the directories above it: these come first, and then at most the file. -/
theorem run_writePlan {a : Accidents} {d d' : Disk} {path : String} {content : Bytes}
    {activities : List String} {failed : Option Failure}
    (h : Plan.run a d (writePlan path content activities) = (d', failed)) :
    ∃ grown, Grown d grown ∧ ((d' = grown ∧ failed ≠ none) ∨
      ∃ part, grown.write path part = .ok d' ∧ (failed = none → part = content)) := by
  have hgrown := a.grown_perform d (Path.dir path)
  rw [writePlan, Plan.run] at h
  generalize hmake : a.perform d (.makeDirectories (Path.dir path)) = made at h hgrown
  obtain ⟨grown, _ | f⟩ := made
  · simp only [Plan.run] at h
    refine ⟨grown, hgrown, ?_⟩
    rcases a.perform_write grown path content with
      ⟨f, hwrite⟩ | ⟨part, written, f, hok, hpart, hwrite⟩
    · simp only [hwrite, Prod.mk.injEq] at h
      obtain ⟨rfl, rfl⟩ := h
      exact .inl ⟨rfl, nofun⟩
    · rw [hwrite] at h
      cases f with
      | none =>
          obtain ⟨rfl, rfl⟩ := Prod.mk.inj h
          exact .inr ⟨part, hok, hpart⟩
      | some f =>
          obtain ⟨rfl, rfl⟩ := Prod.mk.inj h
          exact .inr ⟨part, hok, nofun⟩
  · obtain ⟨rfl, rfl⟩ := Prod.mk.inj h
    exact ⟨grown, hgrown, .inl ⟨rfl, nofun⟩⟩

/-! ## The name of a backup -/

variable {start name stamp : String}

/-- The name of the backup of a file with a name. -/
def backupName (name stamp : String) : String := name ++ "." ++ stamp ++ ".old"

theorem isName_backupName (hname : Path.IsName name) (hstamp : '/' ∉ stamp.toList) :
    Path.IsName (backupName name stamp) := by
  have hlength : 2 < (backupName name stamp).toList.length := by
    simp [backupName]
    omega
  have hslash : '/' ∉ (backupName name stamp).toList := by
    simpa [backupName] using ⟨hname.slash_notMem, hstamp⟩
  refine ⟨?_, ?_, ?_, hslash⟩ <;> intro h <;> simp [h] at hlength

/-- The backup is kept in the directory above, as this is read off the path. -/
theorem fullNames_backupPath (d : Disk) (hname : Path.IsName name) (hstart : Path.IsFront start)
    (hstamp : '/' ∉ stamp.toList) :
    d.fullNames (backupPath (start ++ name) stamp) =
        d.fullNames (Path.dir (start ++ name)) ++ [backupName name stamp] ∧
      (backupPath (start ++ name) stamp).isEmpty = false ∧
      Path.asksDirectory (backupPath (start ++ name) stamp) = false := by
  have hbase := Path.base_append hname hstart
  have hclean : Path.clean (Path.dir (start ++ name)) = Path.dir (start ++ name) :=
    Path.clean_clean _
  obtain ⟨hnames, habs, hasks, hne⟩ := Path.names_join hclean (isName_backupName hname hstamp)
  rw [backupPath, hbase]
  refine ⟨?_, String.isEmpty_eq_false_iff.mpr hne, hasks⟩
  rw [backupName] at hnames habs
  rw [fullNames, fullNames, habs, hnames]
  split
  · rfl
  · rw [List.append_assoc]
    rfl

/-- A link at the end of a path can be followed from the directory that is read off the path as it
can from its own: the one is reached with as many links to go as the other, and it is the same
directory unless the link starts at the root. -/
def LeadsAlike (d : Disk) (path : String) : Prop :=
  ∀ {front above place : List String} {name : String} {left links : Nat},
    IsEntry d path front name left above →
    Way d.root maxLinks [] (d.fullNames (Path.dir path)) links place →
      (∃ more, left ≤ more ∧ Way d.root maxLinks [] (d.fullNames (Path.dir path)) more place) ∧
        (place = above ∨ d.root.StartsAtRoot (above ++ [name]))

/-- It can if no `..` is left out when the path is cleaned. -/
theorem leadsAlike_of_names {d : Disk} {path : String}
    (h : Disk.names (Path.clean path) = Disk.names path) : LeadsAlike d path := by
  intro front above place name left links hentry hway
  obtain ⟨start, last, rfl, hstart, hslash, hne, hdot⟩ := Path.exists_last hentry.asks_eq
  have hnames := hentry.fullNames_eq
  rw [fullNames_start d hstart hslash hne hdot] at hnames
  obtain ⟨rfl, hlast⟩ := List.append_inj' hnames rfl
  obtain rfl := List.singleton_injective hlast
  obtain ⟨hdir, habs⟩ := Path.names_dir ⟨hne, hdot, hentry.ne_dots, hslash⟩ hstart h
  have hfront : d.fullNames (Path.dir (start ++ last)) = d.fullNames start := by
    rw [fullNames, fullNames, hdir, habs]
  rw [hfront] at hway ⊢
  exact ⟨⟨left, Nat.le_refl left, hway.unique hentry.way ▸ hentry.way⟩,
    .inl (hway.unique hentry.way)⟩

/-! ## Where the older file is -/

section Moving

variable {a : Accidents} {d d' : Disk} {path : String} {content old : Bytes}
  {failed : Option Failure} {front above q : List String} {left left' : Nat}
  {moving writing : List String}

/-- **The entry is where it was, or moved to the backup**, whatever step fails. -/
theorem moved_of_run (hname : Path.IsName name) (hstart : Path.IsFront start)
    (hstamp : '/' ∉ stamp.toList) (hroot : d.root.IsDir [])
    (hunused : ∀ n, d.lstat (backupPath (start ++ name) stamp) ≠ .ok n)
    (hentry : IsEntry d (start ++ name) front name left above)
    (hway : Way d.root left above [name] left' q) (hleaf : ¬ d.root.IsDir q)
    (hrun : Plan.run a d ((.rename (start ++ name) (backupPath (start ++ name) stamp), moving) ::
      writePlan (start ++ name) content writing) = (d', failed)) :
    (d' = d ∧ failed ≠ none) ∨ ∃ n left₁ above₁, d.root.get? (above ++ [name]) = some n ∧
      IsEntry d (backupPath (start ++ name) stamp) (d.fullNames (Path.dir (start ++ name)))
        (backupName name stamp) left₁ above₁ ∧
      Moved d d' (above ++ [name]) (above₁ ++ [backupName name stamp]) n ∧
      (failed = none → d'.stat (start ++ name) = .ok (.file content)) := by
  rw [Plan.run] at hrun
  rcases a.perform_rename d (start ++ name) (backupPath (start ++ name) stamp) with
    ⟨f, hperform⟩ | ⟨moved, hrename, hperform⟩
  · rw [hperform] at hrun
    obtain ⟨rfl, rfl⟩ := Prod.mk.inj hrun
    exact .inl ⟨rfl, nofun⟩
  · rw [hperform] at hrun
    obtain ⟨_, b, _, -, hb, -⟩ := rename_eq_ok hrename
    obtain ⟨hnames, hempty, hasks⟩ := fullNames_backupPath d hname hstart hstamp
    obtain ⟨left₁, above₁, hbackup, rfl⟩ :=
      isEntry_of_entryPlace hb hnames hempty hasks (isName_backupName hname hstamp).ne_dots
    have hfree : d.root.get? (above₁ ++ [backupName name stamp]) = none := by
      refine Option.eq_none_iff_forall_ne_some.mpr fun n hn => hunused n ?_
      exact hbackup.lstat_eq_ok_iff.mpr hn
    obtain ⟨n, hn, hget, hgone, hmoved⟩ := hentry.moved_of_rename (hentry.not_isDir hway hleaf) hb
      (by rw [List.dropLast_concat]; exact hbackup.isDir) hfree hrename
    obtain ⟨grown, hgrown, hwrite⟩ := run_writePlan hrun
    have hlater := hmoved.grown hn hgrown
    rcases hwrite with ⟨rfl, hfailed⟩ | ⟨part, hwrite, hpart⟩
    · exact .inr ⟨n, left₁, above₁, hget, hbackup, hlater, fun h => absurd h hfailed⟩
    · have habove : grown.root.IsDir above := hlater.kept.isDir (by simp) hentry.isDir
      have hstays := hentry.kept hlater.directory
        (hway.kept_beside hentry.isDir hleaf hlater.kept hentry.way hentry.isDir) habove
      have hne : above₁ ++ [backupName name stamp] ≠ above ++ [name] := by
        intro hb
        have hthere := hmoved.there
        rw [hb, hgone] at hthere
        cases hthere
      refine .inr ⟨n, left₁, above₁, hget, hbackup,
        hlater.written hn hstays (hgrown.fresh _ hgone) hne hwrite, fun hfailed => ?_⟩
      rw [hpart hfailed] at hwrite
      exact stat_write (hlater.kept.isDir (by simp) hroot) hwrite

/-- **A file that is replaced by force is at the path or at the backup**, and so is the link to it.
The file behind a link is not touched, and the link leads to it from the backup too if it can be
followed there as before. -/
theorem kept_of_run (hstamp : '/' ∉ stamp.toList) (hroot : d.root.IsDir [])
    (hunused : ∀ n, d.lstat (backupPath path stamp) ≠ .ok n) (hstat : d.stat path = .ok (.file old))
    (hrun : Plan.run a d ((.rename path (backupPath path stamp), moving) ::
      writePlan path content writing) = (d', failed)) :
    (∀ n, d.lstat path = .ok n →
        d'.lstat path = .ok n ∨ d'.lstat (backupPath path stamp) = .ok n) ∧
      (LeadsAlike d path →
        d'.stat path = .ok (.file old) ∨ d'.stat (backupPath path stamp) = .ok (.file old)) ∧
      (∀ target place, d.lstat path = .ok (.link target) → d.place path = .ok place →
        d'.root.get? place = some (.file old)) ∧
      (failed = none → d'.stat path = .ok (.file content)) := by
  obtain ⟨start, name, left, above, left', q, rfl, hstart, hname, hentry, hway, hq⟩ :=
    exists_isEntry hroot hstat rfl
  have hleaf := Node.not_isDir_of_get? hq rfl
  have hself := hentry.not_isDir hway hleaf
  rcases moved_of_run hname hstart hstamp hroot hunused hentry hway hleaf hrun with
    ⟨rfl, hfailed⟩ | ⟨n, left₁, above₁, hget, hbackup, hmoved, hwritten⟩
  · refine ⟨fun n hn => .inl hn, fun _ => .inl hstat, fun _ place _ hplace => ?_,
      fun h => absurd h hfailed⟩
    obtain rfl := Except.ok.inj ((hentry.place_eq hway).symm.trans hplace)
    exact hq
  · have hdir : ∀ p, d.root.IsDir p → p ≠ above ++ [name] := by
      rintro p hp rfl
      exact hself hp
    refine ⟨fun m hm => .inr ?_, fun halike => .inr ?_, fun target place hlink hplace => ?_,
      hwritten⟩
    · rw [hentry.lstat_eq_ok_iff, hget] at hm
      obtain rfl := Option.some.inj hm
      have hstays := hbackup.kept hmoved.directory
        (hway.kept_beside hentry.isDir hleaf hmoved.kept hbackup.way hbackup.isDir)
        (hmoved.kept.isDir (hdir _ hbackup.isDir) hbackup.isDir)
      exact hstays.lstat_eq_ok_iff.mpr hmoved.there
    · obtain ⟨⟨more, hmore, hfront⟩, hlink⟩ := halike hentry hbackup.way
      have hthere : IsEntry d (backupPath (start ++ name) stamp) _ _ more above₁ :=
        { hbackup with way := hfront }
      have hstays := hthere.kept hmoved.directory
        (hway.kept_beside hentry.isDir hleaf hmoved.kept hthere.way hthere.isDir)
        (hmoved.kept.isDir (hdir _ hthere.isDir) hthere.isDir)
      obtain ⟨left'', q', hway', hq'⟩ := hway.moved hentry.isDir hq hmoved.kept hbackup.ne_dots
        hbackup.short hlink (hmoved.there.trans hget.symm)
      have hadd := hway'.add (more - left)
      rw [Nat.add_sub_cancel' hmore] at hadd
      exact hstays.stat_eq_ok hadd hq'
    · obtain rfl := Except.ok.inj ((hentry.place_eq hway).symm.trans hplace)
      rw [hentry.lstat_eq_ok_iff] at hlink
      refine hmoved.kept.get? hq rfl ?_
      rintro rfl
      rw [hlink] at hq
      cases Option.some.inj hq

end Moving

/-! ## Writing a default file -/

/-- What writing a default file does to a file that is there, whatever happens on the way.  A path
that leads to a file ends with the file itself (`file`) or with a link (`link`). -/
structure Spares (d : Disk) (path backup : String) (content : Bytes) (force : Bool) (d' : Disk)
    (failed : Option Failure) : Prop where
  /-- A file at the path is still there with its whole content, or it is the backup. -/
  file : ∀ old, d.lstat path = .ok (.file old) →
    d'.lstat path = .ok (.file old) ∨ d'.lstat backup = .ok (.file old)
  /-- A link is kept like a file, and the file behind it is not touched. -/
  link : ∀ old target place, d.stat path = .ok (.file old) → d.lstat path = .ok (.link target) →
    d.place path = .ok place → d'.root.get? place = some (.file old) ∧
      (d'.lstat path = .ok (.link target) ∨ d'.lstat backup = .ok (.link target))
  /-- And the file behind it is found at the path or at the backup as well, if the link can be
  followed from there as before. -/
  behind : ∀ old, d.stat path = .ok (.file old) → LeadsAlike d path →
    d'.stat path = .ok (.file old) ∨ d'.stat backup = .ok (.file old)
  /-- Without force nothing happens to a file. -/
  unforced : force = false → ∀ old, d.stat path = .ok (.file old) → d' = d ∧ failed = none
  /-- What is there and is no file is refused. -/
  refused : ∀ n, d.stat path = .ok n → n.isRegular = false → d' = d ∧ failed ≠ none
  /-- What succeeds by force, or where no file was, leaves the content at the path. -/
  written : failed = none → (force = true ∨ ∀ n, d.stat path ≠ .ok n) →
    d'.stat path = .ok (.file content)

namespace Spares

variable {d d' : Disk} {path backup : String} {content : Bytes} {force : Bool}
  {failed : Option Failure}

/-- Where nothing is, there is nothing to spare. -/
theorem of_missing (hmissing : ∀ n, d.stat path ≠ .ok n)
    (hwritten : failed = none → d'.stat path = .ok (.file content)) :
    Spares d path backup content force d' failed where
  file _ hlstat := absurd (stat_of_lstat hlstat nofun) (hmissing _)
  behind _ hstat _ := absurd hstat (hmissing _)
  link _ _ _ hstat _ _ := absurd hstat (hmissing _)
  unforced _ _ hstat := absurd hstat (hmissing _)
  refused _ hstat _ := absurd hstat (hmissing _)
  written h _ := hwritten h

/-- Where nothing happens, everything is spared. -/
theorem of_unchanged {n : Node} (hstat : d.stat path = .ok n)
    (hfile : n.isRegular = true → force = false ∧ failed = none)
    (hother : n.isRegular = false → failed ≠ none) :
    Spares d path backup content force d failed where
  file _ hlstat := .inl hlstat
  behind _ hstat _ := .inl hstat
  link _ _ _ hstat hlink hplace := by
    obtain ⟨_, hplace', hget⟩ := exists_place_of_stat hstat
    obtain rfl := Except.ok.inj (hplace.symm.trans hplace')
    exact ⟨hget, .inl hlink⟩
  unforced _ _ hold := by
    obtain rfl := Except.ok.inj (hstat.symm.trans hold)
    exact ⟨rfl, (hfile rfl).2⟩
  refused m hm hregular := by
    obtain rfl := Except.ok.inj (hstat.symm.trans hm)
    exact ⟨rfl, hother hregular⟩
  written hfailed hor := by
    rcases hor with hforce | hmissing
    · cases hregular : n.isRegular with
      | true =>
          rw [(hfile hregular).1] at hforce
          cases hforce
      | false => exact absurd hfailed (hother hregular)
    · exact absurd hstat (hmissing n)

/-- Where a file is replaced by force, everything depends on what became of its entry. -/
theorem of_forced {old : Bytes} (hstat : d.stat path = .ok (.file old))
    (hentry : ∀ n, d.lstat path = .ok n → d'.lstat path = .ok n ∨ d'.lstat backup = .ok n)
    (hbehind : LeadsAlike d path →
      d'.stat path = .ok (.file old) ∨ d'.stat backup = .ok (.file old))
    (hlink : ∀ target place, d.lstat path = .ok (.link target) → d.place path = .ok place →
      d'.root.get? place = some (.file old))
    (hwritten : failed = none → d'.stat path = .ok (.file content)) :
    Spares d path backup content true d' failed where
  file _ hfile := hentry _ hfile
  behind old' hold halike := by
    obtain rfl := Node.file.inj (Except.ok.inj (hstat.symm.trans hold))
    exact hbehind halike
  link old' target place hold htarget hplace := by
    obtain rfl := Node.file.inj (Except.ok.inj (hstat.symm.trans hold))
    exact ⟨hlink target place htarget hplace, hentry _ htarget⟩
  unforced h := nomatch h
  refused n hn hregular := by
    obtain rfl := Except.ok.inj (hstat.symm.trans hn)
    cases hregular
  written h _ := hwritten h

end Spares

/-- **Writing a default file never destroys the file that is there**: with force or without, and
whichever step fails, before its end or in the middle. -/
theorem writeDefaultAmid_spares (a : Accidents) (d : Disk) (path : String) (content : Bytes)
    (force : Bool) (kind stamp : String) (hroot : d.root.IsDir []) (hstamp : '/' ∉ stamp.toList)
    (hunused : ∀ n, d.lstat (backupPath path stamp) ≠ .ok n) {d' : Disk} {failed : Option Failure}
    (hrun : writeDefaultAmid a d path content force kind stamp = (d', failed)) :
    Spares d path (backupPath path stamp) content force d' failed := by
  rw [writeDefaultAmid, writeDefaultPlan, regularThere] at hrun
  cases hstat : d.stat path with
  | error f =>
      simp only [hstat] at hrun
      obtain ⟨grown, hgrown, ⟨-, hfailed⟩ | ⟨part, hwrite, hpart⟩⟩ := run_writePlan hrun
      · exact .of_missing (by simp [hstat]) fun h => absurd h hfailed
      · refine .of_missing (by simp [hstat]) fun h => ?_
        rw [hpart h] at hwrite
        exact stat_write (hgrown.kept.isDir not_false hroot) hwrite
  | ok n =>
      simp only [hstat] at hrun
      cases n with
      | file old =>
          cases force with
          | false =>
              obtain ⟨rfl, rfl⟩ := Prod.mk.inj hrun
              exact .of_unchanged hstat (fun _ => ⟨rfl, rfl⟩) nofun
          | true =>
              obtain ⟨hentry, hbehind, hlink, hwritten⟩ :=
                kept_of_run hstamp hroot hunused hstat hrun
              exact .of_forced hstat hentry hbehind hlink hwritten
      | directory es =>
          obtain ⟨rfl, rfl⟩ := Prod.mk.inj hrun
          exact .of_unchanged hstat nofun nofun
      | link target =>
          obtain ⟨rfl, rfl⟩ := Prod.mk.inj hrun
          exact .of_unchanged hstat nofun nofun
      | pipe =>
          obtain ⟨rfl, rfl⟩ := Prod.mk.inj hrun
          exact .of_unchanged hstat nofun nofun

/-- A disk with one file. -/
def sampleDisk : Disk :=
  { root := .directory [("etc", .directory [("conf", .file [111, 108, 100])])] }

/-- Of every file that is written, only the first byte gets there. -/
def cutShort : Accidents where
  strike d
    | .write path content =>
      match d.write path (content.take 1) with
      | .ok left => some (left, .plain "no space left on device")
      | .error _ => none
    | _ => none
  leaves d step left f h := by
    cases step with
    | write path content =>
        dsimp only at h
        split at h
        · next hwrite =>
            obtain ⟨rfl, -⟩ := Prod.mk.inj (Option.some.inj h)
            exact .part 1 hwrite
        · cases h
    | _ => cases h

theorem isEntry_sampleDisk (name : String) (h : ∀ n ∈ ["etc", name], LegalName n) :
    IsEntry sampleDisk (pathOf ["etc", name]) ["etc"] name maxLinks ["etc"] :=
  isEntry_pathOf name h (.down (by decide) (by decide) rfl (.here maxLinks ["etc"])) ⟨_, rfl⟩

/-- The older file is the backup when the new one is cut short. -/
theorem writeDefaultAmid_spares_sample :
    ∃ d' failed, writeDefaultAmid cutShort sampleDisk "/etc/conf" [110, 101, 119] true "test" "1" =
        (d', failed) ∧ sampleDisk.lstat "/etc/conf" = .ok (.file [111, 108, 100]) ∧
      (d'.lstat "/etc/conf" = .ok (.file [111, 108, 100]) ∨
        d'.lstat "/etc/conf.1.old" = .ok (.file [111, 108, 100])) ∧
      (d'.stat "/etc/conf" = .ok (.file [111, 108, 100]) ∨
        d'.stat "/etc/conf.1.old" = .ok (.file [111, 108, 100])) := by
  have hbackup : backupPath "/etc/conf" "1" = "/etc/conf.1.old" := by decide
  have hconf : IsEntry sampleDisk "/etc/conf" ["etc"] "conf" maxLinks ["etc"] :=
    isEntry_sampleDisk "conf" (by decide)
  have hold : IsEntry sampleDisk "/etc/conf.1.old" ["etc"] "conf.1.old" maxLinks ["etc"] :=
    isEntry_sampleDisk "conf.1.old" (by decide)
  have hfile : sampleDisk.lstat "/etc/conf" = .ok (.file [111, 108, 100]) :=
    hconf.lstat_eq_ok_iff.mpr rfl
  have hunused : ∀ n, sampleDisk.lstat (backupPath "/etc/conf" "1") ≠ .ok n := by
    intro n hn
    rw [hbackup, hold.lstat_eq_ok_iff] at hn
    cases hn
  have halike : LeadsAlike sampleDisk "/etc/conf" := leadsAlike_of_names (by decide)
  have hspares := writeDefaultAmid_spares cutShort sampleDisk "/etc/conf" [110, 101, 119] true
    "test" "1" ⟨_, rfl⟩ (by decide) hunused rfl
  rw [hbackup] at hspares
  exact ⟨_, _, rfl, hfile, hspares.file _ hfile,
    hspares.behind _ (stat_of_lstat hfile nofun) halike⟩

/-! ### Behind another link

Cleaning the path `/l/../f` gives `/f`, but a disk where `l` is a link looks for `f` elsewhere. -/

/-- By force and without accidents the three steps come one after the other. -/
theorem writeDefault_of_steps {d moved made written : Disk} {path kind stamp : String}
    {content old : Bytes} (hstat : d.stat path = .ok (.file old))
    (hrename : d.rename path (backupPath path stamp) = .ok moved)
    (hmake : moved.makePath (Path.dir path) = (made, none))
    (hwrite : made.write path content = .ok written) :
    writeDefault d path content true kind stamp = (written, none) := by
  have hplan : writeDefaultPlan d path content true kind stamp =
      .ok ((.rename path (backupPath path stamp),
        ["rename existing " ++ kind ++ " file to backup"]) ::
        writePlan path content ["write " ++ kind ++ " file"]) := by
    rw [writeDefaultPlan, regularThere, hstat]
    rfl
  simp only [writeDefault, writeDefaultAmid, hplan, carryOut, writePlan, Plan.run,
    Accidents.perform, Accidents.none, Step.run, hrename, hmake, hwrite, orUnchanged]

/-- A disk with a link to a file in a directory of its own.  Another link leads beside that file. -/
def crossedDisk : Disk :=
  { root := .directory [("l", .link "x/y"),
      ("x", .directory [("f", .link "g"), ("g", .file [111, 108, 100]), ("y", .directory [])])] }

/-- The same disk when the link to the file has been moved away, and something is written there. -/
def strayedDisk (written : Entries) : Disk :=
  { root := .directory [("f.1.old", .link "g"), ("l", .link "x/y"),
      ("x", .directory (written ++ [("g", .file [111, 108, 100]), ("y", .directory [])]))] }

/-- The path goes behind the other link and from there back up. -/
theorem isEntry_crossed {d : Disk} (hdirectory : d.directory = "/")
    (hl : d.root.get? ["l"] = some (.link "x/y")) {es : Entries}
    (hx : d.root.get? ["x"] = some (.directory es))
    (hy : d.root.get? ["x", "y"] = some (.directory [])) :
    IsEntry d "/l/../f" ["l", ".."] "f" 39 ["x"] where
  fullNames_eq := by
    rw [fullNames, hdirectory]
    decide
  isEmpty_eq := rfl
  asks_eq := by decide
  ne_dots := by decide
  short := by decide
  way := by
    refine .link (by decide) (by decide) hl ?_
    have hnames : names "x/y" ++ [".."] = ["x", "y", ".."] := by decide
    rw [hnames]
    exact .down (by decide) (by decide) hx (.down (by decide) (by decide) hy (.up (.here 39 ["x"])))
  isDir := ⟨es, hx⟩

/-- The backup is an entry of the root, whatever the disk. -/
theorem isEntry_backup {d : Disk} (hroot : d.root.IsDir []) :
    IsEntry d "/f.1.old" [] "f.1.old" maxLinks [] :=
  isEntry_pathOf "f.1.old" (by decide) (.here maxLinks []) hroot

theorem stat_crossedDisk : crossedDisk.stat "/l/../f" = .ok (.file [111, 108, 100]) := by
  have hpath : IsEntry crossedDisk "/l/../f" ["l", ".."] "f" 39 ["x"] :=
    isEntry_crossed rfl rfl rfl rfl
  have hg : Way crossedDisk.root 38 ["x"] ["g"] 38 ["x", "g"] :=
    .file (by decide) (by decide) rfl
  exact hpath.stat_eq_ok (.link (by decide) (by decide) rfl hg) rfl

/-- All three steps succeed. -/
theorem writeDefault_crossedDisk :
    writeDefault crossedDisk "/l/../f" [110, 101, 119] true "test" "1" =
      (strayedDisk [("f", .file [110, 101, 119])], none) := by
  have hbackup : backupPath "/l/../f" "1" = "/f.1.old" := by decide
  have hdir : Path.dir "/l/../f" = pathOf [] := by decide
  have hpath : IsEntry crossedDisk "/l/../f" ["l", ".."] "f" 39 ["x"] :=
    isEntry_crossed rfl rfl rfl rfl
  have hfree : IsEntry crossedDisk "/f.1.old" [] "f.1.old" maxLinks [] := isEntry_backup ⟨_, rfl⟩
  have hrename : crossedDisk.rename "/l/../f" "/f.1.old" = .ok (strayedDisk []) := by
    rw [rename, hpath.entryPlace_eq, hfree.entryPlace_eq]
    rfl
  have hroot : (strayedDisk []).stat (pathOf []) = .ok (strayedDisk []).root :=
    stat_eq_ok_iff.mpr ⟨[], place_root _, rfl, fun _ => rfl⟩
  have hmake : (strayedDisk []).makePath (Path.dir "/l/../f") = (strayedDisk [], none) := by
    rw [makePath, hdir, hroot]
    rfl
  have hleft : IsEntry (strayedDisk []) "/l/../f" ["l", ".."] "f" 39 ["x"] :=
    isEntry_crossed rfl rfl rfl rfl
  have hwrite : (strayedDisk []).write "/l/../f" [110, 101, 119] =
      .ok (strayedDisk [("f", .file [110, 101, 119])]) := by
    rw [write, hleft.newPlace_eq (.inl rfl)]
    rfl
  exact writeDefault_of_steps stat_crossedDisk (hbackup ▸ hrename) hmake hwrite

/-- **Where a `..` stands behind a link, the older file can be lost to both paths**: the link to it
is moved to another directory, and from there it leads nowhere. -/
theorem writeDefault_strays :
    crossedDisk.stat "/l/../f" = .ok (.file [111, 108, 100]) ∧
      (∀ n, crossedDisk.lstat (backupPath "/l/../f" "1") ≠ .ok n) ∧
      ∃ d', writeDefault crossedDisk "/l/../f" [110, 101, 119] true "test" "1" = (d', none) ∧
        d'.stat "/l/../f" ≠ .ok (.file [111, 108, 100]) ∧
        d'.stat (backupPath "/l/../f" "1") ≠ .ok (.file [111, 108, 100]) := by
  have hbackup : backupPath "/l/../f" "1" = "/f.1.old" := by decide
  rw [hbackup]
  refine ⟨stat_crossedDisk, ?unused, _, writeDefault_crossedDisk, ?path, ?backup⟩
  case unused =>
    intro n hn
    rw [(isEntry_backup ⟨_, rfl⟩).lstat_eq_ok_iff] at hn
    cases hn
  case path =>
    intro hold
    have hnew : IsEntry (strayedDisk [("f", .file [110, 101, 119])]) "/l/../f" ["l", ".."] "f" 39
        ["x"] := isEntry_crossed rfl rfl rfl rfl
    rw [hnew.stat_eq_ok (.file (by decide) (by decide) rfl) rfl] at hold
    cases hold
  case backup =>
    -- the link is beside nothing that has the name of the file now
    have hlink : IsEntry (strayedDisk [("f", .file [110, 101, 119])]) "/f.1.old" [] "f.1.old"
        maxLinks [] := isEntry_backup ⟨_, rfl⟩
    have hg : names "g" = ["g"] := by decide
    exact hlink.stat_ne_ok_of_dangling rfl (by decide) hg (by decide) (by decide) rfl _

end ConfigFile

end RuleScan
