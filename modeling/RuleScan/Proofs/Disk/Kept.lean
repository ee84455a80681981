import Mathlib.Data.Nat.Find
import RuleScan.Proofs.Disk.Ways

/-!
# What stays when a disk changes

One tree KEEPS another one but for some lost places (`Node.Kept`): what was at any other place is
there, and a directory is one still.

## What is proved

  * `Node.kept_put`, `Node.kept_erase`, `Node.kept_moved` — a change at a place that is no directory
    loses what is there, and nothing else;
  * `Way.kept` — a way stays if it goes through nothing that is lost;
  * `Way.ends_at_leaf`, `Way.exists_least` — a link that leads to a file is on no way to a
    directory, and not on the shortest way to that file;
  * `grown_makePath` — making directories loses nothing, even if it fails half way;
  * `stat_write` — what was written is there, also behind links that led nowhere.

## What a way goes through

A way to a directory goes through directories and links.  So it does not matter to it what becomes
of a file.  A link is another matter: it may be lost only if it is not on the way, and the two lemmas
about links say when that is so.
-/

namespace RuleScan.Disk

namespace Node

/-! ## Places that stay -/

/-- Two nodes that a way goes through alike: the same, or two directories. -/
def Like (m m' : Node) : Prop := m = m' ∨ (m.isDirectory = true ∧ m'.isDirectory = true)

/-- Whether all that is in a tree, but for some lost places, is in another one too.  Directories may
have other entries there. -/
def Kept (lost : List String → Prop) (t t' : Node) : Prop :=
  ∀ p m, t.get? p = some m → ¬ lost p → ∃ m', t'.get? p = some m' ∧ m.Like m'

variable {lost : List String → Prop} {t t' t'' n new : Node} {p q : List String}

theorem not_isDir_of_get? {m : Node} (hm : t.get? p = some m) (hdir : m.isDirectory = false) :
    ¬ t.IsDir p := by
  rintro ⟨es, hes⟩
  rw [hm] at hes
  obtain rfl := Option.some.inj hes
  cases hdir

theorem Like.refl (m : Node) : m.Like m := .inl rfl

theorem Like.eq {m m' : Node} (h : m.Like m') (hdir : m.isDirectory = false) : m' = m := by
  rcases h with rfl | ⟨hm, -⟩
  · rfl
  · rw [hdir] at hm
    cases hm

theorem Like.trans {m m' m'' : Node} (h : m.Like m') (h' : m'.Like m'') : m.Like m'' := by
  rcases h with rfl | ⟨hm, hm'⟩
  · exact h'
  · rcases h' with rfl | ⟨-, hm''⟩
    · exact .inr ⟨hm, hm'⟩
    · exact .inr ⟨hm, hm''⟩

theorem Kept.refl (lost : List String → Prop) (t : Node) : Kept lost t t :=
  fun _ m hm _ => ⟨m, hm, .refl m⟩

theorem Kept.trans (h : Kept lost t t') (h' : Kept lost t' t'') : Kept lost t t'' := by
  intro p m hm hp
  obtain ⟨m', hm', hlike⟩ := h p m hm hp
  obtain ⟨m'', hm'', hlike'⟩ := h' p m' hm' hp
  exact ⟨m'', hm'', hlike.trans hlike'⟩

/-- Where nothing is lost, some places may be called lost. -/
theorem Kept.weaken (h : Kept (fun _ => False) t t') (lost : List String → Prop) : Kept lost t t' :=
  fun p m hm _ => h p m hm not_false

theorem Kept.get? (h : Kept lost t t') {m : Node} (hm : t.get? p = some m)
    (hdir : m.isDirectory = false) (hp : ¬ lost p) : t'.get? p = some m := by
  obtain ⟨m', hm', hlike⟩ := h p m hm hp
  rw [hm', hlike.eq hdir]

theorem Kept.isDir (h : Kept lost t t') (hp : ¬ lost p) (hdir : t.IsDir p) : t'.IsDir p := by
  obtain ⟨es, hes⟩ := hdir
  obtain ⟨m', hm', hlike⟩ := h p _ hes hp
  rcases hlike with rfl | ⟨-, hm⟩
  · exact ⟨es, hm'⟩
  · obtain ⟨es', rfl⟩ := eq_directory hm
    exact ⟨es', hm'⟩

/-! ## Putting and taking away -/

theorem get?_eq_none_below (h : ¬ t.IsDir p) (hne : p ≠ q) (hpq : p <+: q) :
    t.get? q = none := by
  obtain ⟨r, rfl⟩ := hpq
  have hr : r ≠ [] := by
    rintro rfl
    simp at hne
  rw [get?_append]
  cases hp : t.get? p with
  | none => rfl
  | some m =>
      cases hm : m.get? r with
      | none => exact hm
      | some m' =>
          obtain ⟨es, rfl⟩ := exists_directory_of_get? hr hm
          exact absurd ⟨es, hp⟩ h

/-- What is neither above nor below a place does not change when something is put there. -/
theorem get?_put_apart (hpq : ¬ p <+: q) (hqp : ¬ q <+: p) (n new : Node) :
    (n.put p new).get? q = n.get? q := by
  induction p generalizing n q with
  | nil => exact absurd List.nil_prefix hpq
  | cons name p ih =>
      cases q with
      | nil => exact absurd List.nil_prefix hqp
      | cons x q =>
          rw [put, get?_cons, get?_cons, entry?_insertEntry]
          by_cases hx : x = name
          · subst hx
            rw [List.prefix_cons_inj] at hpq hqp
            rw [if_pos rfl, Option.bind_some, ih hpq hqp]
            cases n.entry? x with
            | some m => rfl
            | none =>
                have hq : q ≠ [] := fun hq => hqp (hq ▸ List.nil_prefix)
                obtain ⟨y, q, rfl⟩ := List.exists_cons_of_ne_nil hq
                rfl
          · rw [if_neg hx, entry?_entries]

theorem get?_erase_apart (hpq : ¬ p <+: q) (hqp : ¬ q <+: p) (n : Node) :
    (n.erase p).get? q = n.get? q := by
  induction p generalizing n q with
  | nil => exact absurd List.nil_prefix hpq
  | cons name p ih =>
      cases q with
      | nil => exact absurd List.nil_prefix hqp
      | cons x q =>
          rw [get?_cons, get?_cons, entry?_erase]
          by_cases hx : x = name
          · subst hx
            rw [List.prefix_cons_inj] at hpq hqp
            have hp : p ≠ [] := fun hp => hpq (hp ▸ List.nil_prefix)
            rw [if_pos rfl, if_neg hp]
            cases n.entry? x with
            | none => rfl
            | some m => exact ih hpq hqp m
          · rw [if_neg hx]

theorem get?_erase (hp : p ≠ []) (n : Node) : (n.erase p).get? p = none := by
  induction p generalizing n with
  | nil => exact absurd rfl hp
  | cons name p ih =>
      rw [get?_cons, entry?_erase, if_pos rfl]
      by_cases hnil : p = []
      · rw [if_pos hnil]
        rfl
      · rw [if_neg hnil]
        cases n.entry? name with
        | none => rfl
        | some m => exact ih hnil m

theorem isDir_above (hp : n.IsDir p.dropLast) (hqp : q <+: p) (hne : q ≠ p) : n.IsDir q := by
  obtain ⟨r, rfl⟩ := hqp
  have hr : r ≠ [] := by
    rintro rfl
    simp at hne
  rw [List.dropLast_append_of_ne_nil hr] at hp
  exact hp.of_append

/-- A change at a place that is no directory loses nothing else. -/
theorem kept_of_apart (hfree : ¬ t.IsDir p) (habove : ∀ q, q <+: p → q ≠ p → t'.IsDir q)
    (hdir : ∀ q, q <+: p → q ≠ p → t.IsDir q)
    (hapart : ∀ q, ¬ p <+: q → ¬ q <+: p → t'.get? q = t.get? q) : Kept (· = p) t t' := by
  intro q m hm hq
  by_cases hpq : p <+: q
  · rw [get?_eq_none_below hfree (Ne.symm hq) hpq] at hm
    cases hm
  · by_cases hqp : q <+: p
    · obtain ⟨es, hes⟩ := hdir q hqp hq
      obtain ⟨es', hes'⟩ := habove q hqp hq
      rw [hm] at hes
      obtain rfl := Option.some.inj hes
      exact ⟨_, hes', .inr ⟨rfl, rfl⟩⟩
    · exact ⟨m, (hapart q hpq hqp).trans hm, .refl m⟩

theorem kept_put (hp : t.IsDir p.dropLast) (hfree : ¬ t.IsDir p) (new : Node) :
    Kept (· = p) t (t.put p new) :=
  kept_of_apart hfree
    (fun q hqp hne => (isDir_put (fun _ => hp) new q).mpr
      (.inr ⟨fun hpq => hne (hqp.eq_of_length_le hpq.length_le), isDir_above hp hqp hne⟩))
    (fun _ hqp hne => isDir_above hp hqp hne) fun _ hpq hqp => get?_put_apart hpq hqp t new

theorem kept_erase (hp : t.IsDir p.dropLast) (hfree : ¬ t.IsDir p) :
    Kept (· = p) t (t.erase p) := by
  have hne : p ≠ [] := by
    rintro rfl
    exact hfree hp
  exact kept_of_apart hfree
    (fun q hqp hq => (isDir_erase hne q).mpr
      ⟨isDir_above hp hqp hq, fun hpq => hq (hqp.eq_of_length_le hpq.length_le)⟩)
    (fun _ hqp hq => isDir_above hp hqp hq) fun _ hpq hqp => get?_erase_apart hpq hqp t

/-- Where nothing was there is nothing to lose. -/
theorem Kept.of_missing (h : Kept (· = p) t t') (hp : t.get? p = none) :
    Kept (fun _ => False) t t' := by
  intro q m hm _
  refine h q m hm ?_
  rintro rfl
  rw [hp] at hm
  cases hm

/-- What is moved is lost at the one place and stands at the other one. -/
theorem kept_moved {m : Node} (hp : t.IsDir p.dropLast) (hm : t.get? p = some m)
    (hdir : m.isDirectory = false) (hq : t.IsDir q.dropLast) (hfree : t.get? q = none) :
    Kept (· = p) t ((t.erase p).put q m) ∧ ((t.erase p).put q m).get? q = some m ∧
      ((t.erase p).put q m).get? p = none := by
  have hleaf := not_isDir_of_get? hm hdir
  have hpne : p ≠ [] := by
    rintro rfl
    exact hleaf hp
  have hpq : ¬ p <+: q := by
    intro hpq
    refine hleaf (isDir_above hq hpq ?_)
    rintro rfl
    rw [hm] at hfree
    cases hfree
  have hqp : ¬ q <+: p := by
    intro hqp
    by_cases heq : q = p
    · exact hpq (heq ▸ List.prefix_rfl)
    · obtain ⟨es, hes⟩ := isDir_above hp hqp heq
      rw [hfree] at hes
      cases hes
  have herased : (t.erase p).get? q = none := (get?_erase_apart hpq hqp t).trans hfree
  have hdirectory : (t.erase p).IsDir q.dropLast :=
    (isDir_erase hpne _).mpr ⟨hq, fun h => hpq (h.trans (List.dropLast_prefix q))⟩
  have hput : Kept (· = q) (t.erase p) ((t.erase p).put q m) :=
    kept_put hdirectory (fun ⟨es, hes⟩ => by simp [herased] at hes) m
  refine ⟨(kept_erase hp hleaf).trans ((hput.of_missing herased).weaken _), get?_put _ q m, ?_⟩
  rw [get?_put_apart hqp hpq, get?_erase hpne]

end Node

open Node (Kept)

/-! ## Ways that stay -/

/-- **A way stays if what it goes through does**, and if it goes through no link that is lost. -/
theorem Way.kept {lost : List String → Prop} {root root' : Node} {links left : Nat}
    {place todo q : List String} (h : Way root links place todo left q)
    (hkept : Kept lost root root') (hleaf : ∀ p, lost p → ¬ root.IsDir p) (hq : ¬ lost q)
    (hlinks : ∀ place name target, lost (place ++ [name]) →
      root.get? (place ++ [name]) = some (.link target) → ∀ fewer < links, ∀ rest left,
        ¬ Way root fewer (if Path.isAbs target then [] else place) (names target ++ rest) left q) :
    Way root' links place todo left q := by
  induction h with
  | here links place => exact .here links place
  | up _ ih => exact .up (ih hq hlinks)
  | @link links left place rest q name target hdots hlength hget h ih =>
      have hstays : ¬ lost (place ++ [name]) := fun hlost =>
        hlinks place name target hlost hget links (Nat.lt_succ_self links) rest left h
      refine .link hdots hlength (hkept.get? hget rfl hstays) (ih hq ?_)
      intro place' name' target' hlost hget' fewer hfewer
      exact hlinks place' name' target' hlost hget' fewer (Nat.lt_succ_of_lt hfewer)
  | @down links left place rest q name es hdots hlength hget _ ih =>
      have hstays : ¬ lost (place ++ [name]) := fun hlost => hleaf _ hlost ⟨es, hget⟩
      obtain ⟨es', hes'⟩ := hkept.isDir hstays ⟨es, hget⟩
      exact .down hdots hlength hes' (ih hq hlinks)
  | @leaf links place name n hdots hlength hget hdir hlink =>
      have hn : n.isDirectory = false := by
        cases n with
        | directory es => exact absurd rfl (hdir es)
        | _ => rfl
      exact .leaf hdots hlength (hkept.get? hget hn hq) hdir hlink

/-- A link that leads to something else is on no way to a directory. -/
theorem Way.ends_at_leaf {root : Node} {links left links' left' : Nat}
    {start own rest q q' : List String} (hown : Way root links' start own left' q') (hq' : ¬ root.IsDir q') (hstart : root.IsDir start)
    (hq : root.IsDir q) : ¬ Way root links start (own ++ rest) left q := by
  intro h
  by_cases hrest : rest = []
  · subst hrest
    rw [List.append_nil] at h
    exact hq' (h.unique hown ▸ hq)
  · obtain ⟨between, m, hway, hm, -⟩ := h.split hstart hrest
    exact hq' (hway.unique hown ▸ hm)

/-- With as few links to go as possible, no way to where some names lead goes along them again. -/
theorem Way.exists_least {root : Node} {links left : Nat} {start own q : List String}
    (h : Way root links start own left q) (hq : ¬ root.IsDir q) (hstart : root.IsDir start) :
    ∃ least left', least ≤ links ∧ Way root least start own left' q ∧
      ∀ fewer < least, ∀ rest left, ¬ Way root fewer start (own ++ rest) left q := by
  classical
  have hex : ∃ k, ∃ left', Way root k start own left' q := ⟨links, left, h⟩
  obtain ⟨left', hleast⟩ := Nat.find_spec hex
  refine ⟨Nat.find hex, left', Nat.find_min' hex ⟨left, h⟩, hleast, ?_⟩
  intro fewer hfewer rest more hmore
  by_cases hrest : rest = []
  · subst hrest
    rw [List.append_nil] at hmore
    exact Nat.find_min hex hfewer ⟨more, hmore⟩
  · obtain ⟨between, m, hway, hm, -⟩ := hmore.split hstart hrest
    exact hq (hway.unique h ▸ hm)

/-! ## Disks with more directories -/

/-- A disk with new directories, and otherwise the same. -/
structure Grown (d d' : Disk) : Prop where
  directory : d'.directory = d.directory
  kept : Kept (fun _ => False) d.root d'.root
  fresh : ∀ p, d.root.get? p = none → d'.root.get? p = none ∨ d'.root.IsDir p

theorem Grown.refl (d : Disk) : Grown d d := ⟨rfl, .refl _ _, fun _ h => .inl h⟩

theorem Grown.trans {d d' d'' : Disk} (h : Grown d d') (h' : Grown d' d'') : Grown d d'' where
  directory := h'.directory.trans h.directory
  kept := h.kept.trans h'.kept
  fresh p hp := by
    rcases h.fresh p hp with hnone | hdir
    · exact h'.fresh p hnone
    · exact .inr (h'.kept.isDir not_false hdir)

theorem grown_put {d : Disk} {p : List String} (hp : d.root.IsDir p.dropLast)
    (hfree : d.root.get? p = none) : Grown d { d with root := d.root.put p (.directory []) } where
  directory := rfl
  kept := (Node.kept_put hp (fun ⟨es, hes⟩ => by simp [hfree] at hes) _).of_missing hfree
  fresh q hq := by
    by_cases hpq : p <+: q
    · obtain ⟨r, rfl⟩ := hpq
      rw [Node.get?_append, Node.get?_put]
      cases r with
      | nil => exact .inr ⟨[], by rw [List.append_nil, Node.get?_put]⟩
      | cons x r => exact .inl rfl
    · by_cases hqp : q <+: p
      · obtain ⟨es, hes⟩ := Node.isDir_above hp hqp fun heq => hpq (heq ▸ List.prefix_rfl)
        rw [hq] at hes
        cases hes
      · exact .inl ((Node.get?_put_apart hpq hqp _ _).trans hq)

theorem grown_made {d d' : Disk} {path : String} (h : d.made path = .ok d') : Grown d d' := by
  rw [made] at h
  split at h
  · cases h
  · cases h
  · next above name hfollow hname =>
      split at h
      · cases h
      · split at h
        · next es habove hfree =>
            obtain rfl := Except.ok.inj h
            refine grown_put ?_ hfree
            rw [List.dropLast_concat]
            exact ⟨es, habove⟩
        · cases h
        · cases h

theorem grown_makeEach (d : Disk) (paths : List String) : Grown d (d.makeEach paths).1 := by
  induction paths generalizing d with
  | nil => exact .refl d
  | cons path rest ih =>
      rw [makeEach]
      split
      · exact ih d
      · split
        · next made hmade => exact (grown_made hmade).trans (ih made)
        · exact .refl d

theorem grown_makePath (d : Disk) (path : String) : Grown d (d.makePath path).1 := by
  rw [makePath]
  split
  · exact .refl d
  · exact .refl d
  · exact grown_makeEach d (ancestors path)

/-! ## Files that are written -/

/-- Where a file would be made is the end of a way once it is made. -/
theorem way_of_follow_room {root : Node} {links : Nat} {place todo q : List String}
    (h : follow root .room links place todo = .ok q) (hplace : root.IsDir place)
    (hq : ¬ root.IsDir q) :
    root.IsDir q.dropLast ∧ (∀ target, root.get? q ≠ some (.link target)) ∧
      ∀ root' content, Kept (· = q) root root' → root'.get? q = some (.file content) →
        ∃ left, Way root' links place todo left q := by
  fun_induction follow root .room links place todo with
  | case1 links place =>
      obtain rfl := Except.ok.inj h
      exact absurd hplace hq
  | case2 links place todo ih =>
      obtain ⟨hdir, hlink, hway⟩ := ih h hplace.dropLast
      refine ⟨hdir, hlink, fun root' content hkept hget => ?_⟩
      obtain ⟨left, hleft⟩ := hway root' content hkept hget
      exact ⟨left, .up hleft⟩
  | case3 => cases h
  | case4 links place name todo hdots hlength hget hroom =>
      obtain rfl := Except.ok.inj h
      obtain rfl : todo = [] := by simpa using hroom
      refine ⟨by rwa [List.dropLast_concat], by simp [hget], fun root' content _ hfile => ?_⟩
      exact ⟨links, .leaf hdots hlength hfile (by simp) (by simp)⟩
  | case5 => cases h
  | case6 links place name todo hdots hlength target hget hend => simp at hend
  | case7 => cases h
  | case8 place name todo hdots hlength target hget hend links start ih =>
      obtain ⟨hdir, hlink, hway⟩ := ih h (hplace.start target)
      refine ⟨hdir, hlink, fun root' content hkept hfile => ?_⟩
      obtain ⟨left, hleft⟩ := hway root' content hkept hfile
      have hstays : place ++ [name] ≠ q := by
        rintro rfl
        exact hlink target hget
      exact ⟨left, .link hdots hlength (hkept.get? hget rfl hstays) hleft⟩
  | case9 links place name todo hdots hlength es hget ih =>
      obtain ⟨hdir, hlink, hway⟩ := ih h ⟨es, hget⟩
      refine ⟨hdir, hlink, fun root' content hkept hfile => ?_⟩
      obtain ⟨left, hleft⟩ := hway root' content hkept hfile
      have hstays : place ++ [name] ≠ q := by
        rintro rfl
        exact hq ⟨es, hget⟩
      obtain ⟨es', hes'⟩ := hkept.isDir hstays ⟨es, hget⟩
      exact ⟨left, .down hdots hlength hes' hleft⟩
  | case10 links place name todo hdots hlength n hlink hdir hget hend =>
      obtain rfl := Except.ok.inj h
      obtain rfl := List.isEmpty_iff.mp hend
      refine ⟨by rwa [List.dropLast_concat], fun target htarget => ?_, fun _ content _ hfile => ?_⟩
      · rw [hget] at htarget
        exact hlink target (Option.some.inj htarget)
      · exact ⟨links, .leaf hdots hlength hfile (by simp) (by simp)⟩
  | case11 => cases h

/-- What writing does. -/
theorem write_eq_ok {d d' : Disk} {path : String} {content : Text.Bytes}
    (h : d.write path content = .ok d') :
    ∃ p, d.newPlace path = .ok p ∧ ¬ d.root.IsDir p ∧ Path.asksDirectory path = false ∧
      d' = { d with root := d.root.put p (.file content) } := by
  rw [write] at h
  split at h
  · cases h
  · next p hp =>
      split at h
      · cases h
      · next hfree =>
          simp only [Bool.or_eq_true, not_or, Bool.not_eq_true] at hfree
          obtain ⟨hasks, hany⟩ := hfree
          refine ⟨p, hp, ?_, hasks, (Except.ok.inj h).symm⟩
          rintro ⟨es, hes⟩
          simp [hes, Node.isDirectory] at hany

/-- **What was written is there.** -/
theorem stat_write {d d' : Disk} {path : String} {content : Text.Bytes} (hroot : d.root.IsDir [])
    (h : d.write path content = .ok d') : d'.stat path = .ok (.file content) := by
  obtain ⟨p, hp, hfree, hasks, rfl⟩ := write_eq_ok h
  rw [newPlace] at hp
  split at hp
  · cases hp
  · next hempty =>
      obtain ⟨hdir, -, hway⟩ := way_of_follow_room hp hroot hfree
      have hfile := Node.get?_put d.root p (.file content)
      obtain ⟨left, hleft⟩ := hway _ content (Node.kept_put hdir hfree _) hfile
      refine stat_eq_ok_iff.mpr ⟨p, ?_, hfile, by simp [hasks]⟩
      rw [place, if_neg hempty]
      exact hleft.follow_eq

end RuleScan.Disk
