import RuleScan.Proofs.Watch.Directories

/-!
# Following a tree that changes

Directories are made, removed and moved while a watcher runs.  Each of these operations is heard of
by one or two events, which the watcher takes in before the next operation.

## What is proved

`shown_followed`, for any tree to begin with and any operations: the directories that are watched
are the visible ones of the tree as it is, together with what is LEFT OVER.  Left over are the names
that directories had before a directory above them was moved: the event is about the directory that
was moved and says nothing of those in it.  So the watched directories are the visible ones exactly
as long as what is left over is visible again; `shown_left_over` shows that it need not be.

## How

An event about a directory that is made, removed or moved changes the watched directories as the
operation changes the visible ones, except below a directory that has another name now.
`Operation.left` is the difference that one operation makes, `Watches.operation` says that it is all
of it, and `Followed.watches` is the induction over the operations.
-/

namespace RuleScan

open RuleScan.Disk (Node LegalName)
open RuleScan.Path (IsName)

/-! ## Visible directories -/

/-- What is visible of a tree that names lead to. -/
def VisibleAt (names : List String) (n : Node) (p : List String) : Prop :=
  ∃ more, p = names ++ more ∧ Visible n more ∧ ∀ name ∈ names, isNoise name = false

/-- No directory is below a place. -/
def Vacant (t : Node) (names : List String) : Prop := ∀ p, t.IsDir p → names <+: p → p = names

section Tree

variable {t : Node} {names source : List String}

theorem vacant_of_get? (h : ∀ n, t.get? names = some n → n = .directory []) : Vacant t names := by
  rintro _ ⟨es, hes⟩ ⟨more, rfl⟩
  rw [Node.get?_append] at hes
  obtain ⟨n, hn, hmore⟩ := Option.bind_eq_some_iff.mp hes
  obtain rfl := h n hn
  cases more with
  | nil => simp
  | cons name more => cases hmore

theorem Vacant.erase (h : Vacant t names) (hne : source ≠ []) : Vacant (t.erase source) names :=
  fun p hp => h p ((Node.isDir_erase hne p).mp hp).1

/-- A directory that is put at a vacant place makes visible what is visible of it; nothing becomes
invisible. -/
theorem visible_put {above : List String} {name : String} (habove : t.IsDir above)
    (hvacant : Vacant t (above ++ [name])) (es : Disk.Entries) (p : List String) :
    Visible (t.put (above ++ [name]) (.directory es)) p ↔
      Visible t p ∨ VisibleAt (above ++ [name]) (.directory es) p := by
  have hdrop : above ++ [name] ≠ [] → t.IsDir (above ++ [name]).dropLast := by simpa using habove
  constructor
  · rintro ⟨hdir, hquiet⟩
    rcases (Node.isDir_put hdrop _ p).mp hdir with ⟨more, rfl, hmore⟩ | ⟨-, hdir⟩
    · obtain ⟨hnames, hmorequiet⟩ := List.forall_mem_append.mp hquiet
      exact .inr ⟨more, rfl, ⟨hmore, hmorequiet⟩, hnames⟩
    · exact .inl ⟨hdir, hquiet⟩
  · rintro (⟨hdir, hquiet⟩ | ⟨more, rfl, hmore, hquiet⟩)
    · refine ⟨(Node.isDir_put hdrop _ p).mpr ?_, hquiet⟩
      by_cases hunder : above ++ [name] <+: p
      · -- the place itself was a directory, and is one again
        obtain rfl := hvacant p hdir hunder
        exact .inl ⟨[], (List.append_nil _).symm, Node.isDir_nil.mpr ⟨es, rfl⟩⟩
      · exact .inr ⟨hunder, hdir⟩
    · exact ⟨(Node.isDir_put hdrop _ _).mpr (.inl ⟨more, rfl, hmore.isDir⟩),
        List.forall_mem_append.mpr ⟨hquiet, hmore.quiet⟩⟩

theorem visible_erase (hne : names ≠ []) (p : List String) :
    Visible (t.erase names) p ↔ Visible t p ∧ ¬ names <+: p := by
  constructor
  · rintro ⟨hdir, hquiet⟩
    obtain ⟨hdir, hnot⟩ := (Node.isDir_erase hne p).mp hdir
    exact ⟨⟨hdir, hquiet⟩, hnot⟩
  · rintro ⟨⟨hdir, hquiet⟩, hnot⟩
    exact ⟨(Node.isDir_erase hne p).mpr ⟨hdir, hnot⟩, hquiet⟩

end Tree

namespace Watcher

/-! ## Operations -/

/-- What can be done to the directories below a root; each is given by the names that lead to it. -/
inductive Operation where
  | make (names : List String)
  | remove (names : List String)
  | rename (source target : List String)

/-- An operation that can be done to a tree, and the tree afterwards: a directory can be made in
another one under a name that is free, an empty one can be removed, and any one can be moved to a
free name, or in the place of an empty directory, but not into itself. -/
inductive Operation.Does (t : Node) : Operation → Node → Prop
  | make (above : List String) (name : String) (hname : LegalName name) (habove : t.IsDir above)
      (hfree : t.get? (above ++ [name]) = none) :
      Does t (.make (above ++ [name])) (t.put (above ++ [name]) (.directory []))
  | remove {names : List String} (hne : names ≠ [])
      (hempty : t.get? names = some (.directory [])) : Does t (.remove names) (t.erase names)
  | rename {source : List String} (above : List String) (name : String) {es : Disk.Entries}
      (hne : source ≠ []) (hsource : t.get? source = some (.directory es))
      (hname : LegalName name) (habove : t.IsDir above)
      (hfree : ∀ n, t.get? (above ++ [name]) = some n → n = .directory [])
      (hinto : ¬ source <+: above ++ [name]) :
      Does t (.rename source (above ++ [name]))
        ((t.erase source).put (above ++ [name]) (.directory es))

namespace Operation

/-- The places that an operation is about. -/
def places : Operation → List (List String)
  | make names | remove names => [names]
  | rename source target => [source, target]

/-- What is heard of an operation. -/
def events (root : String) : Operation → List Event
  | make names => [⟨[.created], Path.join (root :: names)⟩]
  | remove names => [⟨[.removed], Path.join (root :: names)⟩]
  | rename source target =>
    [⟨[.renamed], Path.join (root :: source)⟩, ⟨[.created], Path.join (root :: target)⟩]

/-- What is left over after an operation: moving a directory leaves over the old names of the
directories that are visible in it, and a name that an event takes back is not left over. -/
def left (t : Node) (before : List String → Prop) : Operation → List String → Prop
  | make _ => before
  | remove names => fun p => before p ∧ p ≠ names
  | rename source _ => fun p => (before p ∨ (Visible t p ∧ source <+: p)) ∧ p ≠ source

end Operation

/-- A watcher that was made for some tree and has heard of all operations since: the tree as it is
now, the watcher, and what is left over.  The files elsewhere on the disk may be any at any time. -/
inductive Followed : Node → Watcher → (List String → Prop) → Prop
  | start {d : Disk} {root : String} {w : Watcher} {es : Disk.Entries}
      (hdirectory : Path.isAbs d.directory = true)
      (hroot : d.lstat (Path.absolute d.directory root) = .ok (.directory es))
      (htidy : (Node.directory es).Tidy) (hmake : make d root = .ok w) :
      Followed (.directory es) w fun _ => False
  | after {t t' : Node} {w : Watcher} {left : List String → Prop} (h : Followed t w left)
      {op : Operation} (hop : op.Does t t')
      (hdots : ∀ names ∈ op.places, ∀ name ∈ names, "..".toList.isPrefixOf name.toList = false)
      {d : Disk} (hroot : d.stat w.root = .ok t') :
      Followed t' ((op.events w.root).foldl (fun w e => w.receive d e) w) (op.left t left)

/-! ## One event -/

section Event

variable {base : List String} {w : Watcher} {P : List String → Prop} {names : List String}

/-- An event is heeded unless something on the way to its place is noise. -/
theorem Watches.heeds (h : Watches base w P) (hnames : ∀ n ∈ names, IsName n) (hne : names ≠ [])
    (hdots : ∀ n ∈ names, "..".toList.isPrefixOf n.toList = false) {kind : Event.Kind}
    (hkind : kind ≠ .touched) :
    w.heeds ⟨[kind], Disk.pathOf (base ++ names)⟩ = true ↔ ∀ n ∈ names, isNoise n = false := by
  have hfront : "..".toList.isPrefixOf (Path.below names).toList = false := by
    obtain ⟨name, rest, rfl⟩ := List.exists_cons_of_ne_nil hne
    rw [Path.isPrefixOf_below (by decide), hdots name List.mem_cons_self]
  have hhas : Event.has ⟨[kind], Disk.pathOf (base ++ names)⟩ .touched = false := by
    simpa [Event.has] using hkind.symm
  rw [Watcher.heeds, hhas, h.ignores hnames hne, hfront]
  simp

theorem receive_heeded {e : Event} {d : Disk} (h : w.heeds e = true) :
    (w.receive d e).directories = w.directoriesAfter d e := by
  obtain ⟨path, hpath⟩ := exists_relative h
  simp [receive, h, hpath]

theorem receive_unheeded {e : Event} {d : Disk} (h : ¬ w.heeds e = true) :
    w.receive d e = w := by
  simp [receive, h]

theorem root_receive (w : Watcher) (d : Disk) (e : Event) : (w.receive d e).root = w.root :=
  root_step w d (.event e)

/-- A directory that is gone is not watched any more. -/
theorem Watches.gone (h : Watches base w P) (hnames : ∀ n ∈ names, IsName n) (hne : names ≠ [])
    (hdots : ∀ n ∈ names, "..".toList.isPrefixOf n.toList = false) (kind : Event.Kind)
    (hkind : kind = .removed ∨ kind = .renamed) (d : Disk) :
    Watches base (w.receive d ⟨[kind], Disk.pathOf (base ++ names)⟩)
      fun p => P p ∧ p ≠ names := by
  refine ⟨h.base_isName, by rw [root_receive, h.root_eq], fun p hp => h.isName p hp.1,
    fun p hp => h.quiet p hp.1, fun x => ?_⟩
  have htouched : kind ≠ .touched := by rcases hkind with rfl | rfl <;> decide
  have hheeds := h.heeds hnames hne hdots htouched
  by_cases hquiet : ∀ n ∈ names, isNoise n = false
  · have hafter : w.directoriesAfter d ⟨[kind], Disk.pathOf (base ++ names)⟩ =
        w.directories.filter (· ≠ Disk.pathOf (base ++ names)) := by
      rcases hkind with rfl | rfl <;> rfl
    have hsame : ∀ p, P p → Disk.pathOf (base ++ p) = Disk.pathOf (base ++ names) → p = names := by
      intro p hp heq
      exact List.append_cancel_left (Path.pathOf_injective
        (List.forall_mem_append.mpr ⟨h.base_isName, h.isName p hp⟩)
        (List.forall_mem_append.mpr ⟨h.base_isName, hnames⟩) heq)
    rw [receive_heeded (hheeds.mpr hquiet), hafter, List.mem_filter, h.mem]
    simp only [decide_eq_true_eq]
    constructor
    · rintro ⟨⟨p, rfl, hp⟩, hdiffer⟩
      exact ⟨p, rfl, hp, fun heq => hdiffer (heq ▸ rfl)⟩
    · rintro ⟨p, rfl, hp, hdiffer⟩
      exact ⟨⟨p, rfl, hp⟩, fun heq => hdiffer (hsame p hp heq)⟩
  · rw [receive_unheeded (fun hh => hquiet (hheeds.mp hh)), h.mem]
    -- an event that is not heeded is about a directory that is not watched
    refine exists_congr fun p => and_congr_right fun _ => (and_iff_left_of_imp fun hp => ?_).symm
    rintro rfl
    exact hquiet (h.quiet p hp)

/-- Where a directory is new, what is visible of it is watched. -/
theorem Watches.new (h : Watches base w P) (hne : names ≠ [])
    (hdots : ∀ n ∈ names, "..".toList.isPrefixOf n.toList = false) {d : Disk} {t : Node}
    (ht : t.Tidy) (hroot : d.stat w.root = .ok t) {es : Disk.Entries}
    (hget : t.get? names = some (.directory es)) :
    Watches base (w.receive d ⟨[.created], Disk.pathOf (base ++ names)⟩)
      fun p => P p ∨ VisibleAt names (.directory es) p := by
  obtain ⟨hlegal, hes⟩ := ht.get? hget
  have hnames : ∀ n ∈ names, IsName n := fun n hn => (hlegal n hn).toIsName
  refine ⟨h.base_isName, by rw [root_receive, h.root_eq], ?_, ?_, fun x => ?_⟩
  · rintro p (hp | ⟨more, rfl, hmore, -⟩)
    · exact h.isName p hp
    · exact List.forall_mem_append.mpr ⟨hnames, hmore.isName hes⟩
  · rintro p (hp | ⟨more, rfl, hmore, hquiet⟩)
    · exact h.quiet p hp
    · exact List.forall_mem_append.mpr ⟨hquiet, hmore.quiet⟩
  have hheeds := h.heeds hnames hne hdots (show Event.Kind.created ≠ .touched by decide)
  by_cases hquiet : ∀ n ∈ names, isNoise n = false
  · rw [h.root_eq] at hroot
    obtain ⟨place, hplace, ht'⟩ := Disk.exists_place_of_stat hroot
    obtain ⟨hlstat, hstat⟩ := Disk.find_below ht h.base_isName hplace ht' hget hne nofun
    obtain ⟨found, hfound, hmem⟩ :=
      mem_directoriesAt h.base_isName names hnames hquiet hlstat hes
    have hafter : w.directoriesAfter d ⟨[.created], Disk.pathOf (base ++ names)⟩ =
        addNew w.directories found := by
      simp [directoriesAfter, Event.has, directoriesWith, hstat, follow, h.root_eq, hfound,
        Except.map]
    rw [receive_heeded (hheeds.mpr hquiet), hafter, mem_addNew, h.mem, hmem]
    constructor
    · rintro (⟨p, rfl, hp⟩ | ⟨more, rfl, hmore⟩)
      · exact ⟨p, rfl, .inl hp⟩
      · exact ⟨names ++ more, rfl, .inr ⟨more, rfl, hmore, hquiet⟩⟩
    · rintro ⟨p, rfl, hp | ⟨more, rfl, hmore, -⟩⟩
      · exact .inl ⟨p, rfl, hp⟩
      · exact .inr ⟨more, rfl, hmore⟩
  · rw [receive_unheeded (fun hh => hquiet (hheeds.mp hh)), h.mem]
    refine exists_congr fun p => and_congr_right fun _ => (or_iff_left ?_).symm
    rintro ⟨more, -, -, hall⟩
    exact hquiet hall

end Event

/-! ## One operation -/

theorem legalName_concat {t : Node} (ht : t.Tidy) {above : List String} {name : String}
    (habove : t.IsDir above) (hname : LegalName name) : ∀ n ∈ above ++ [name], LegalName n := by
  obtain ⟨es, hes⟩ := habove
  exact List.forall_mem_append.mpr ⟨(ht.get? hes).1, List.forall_mem_singleton.mpr hname⟩

/-- An operation keeps a tree tidy. -/
theorem Operation.Does.tidy {t t' : Node} {op : Operation} (h : op.Does t t') (ht : t.Tidy) :
    t'.Tidy := by
  cases h with
  | make above name hname habove hfree =>
      exact ht.put Node.tidy_empty (legalName_concat ht habove hname)
  | remove hne hempty => exact ht.erase _
  | rename above name hne hsource hname habove hfree hinto =>
      exact (ht.erase _).put (ht.get? hsource).2 (legalName_concat ht habove hname)

/-- The places of an operation have names. -/
theorem Operation.Does.isName {t t' : Node} {op : Operation} (h : op.Does t t') (ht : t.Tidy) :
    ∀ names ∈ op.places, ∀ n ∈ names, IsName n := by
  have hlegal : ∀ names ∈ op.places, ∀ n ∈ names, LegalName n := by
    cases h with
    | make above name hname habove hfree =>
        exact List.forall_mem_singleton.mpr (legalName_concat ht habove hname)
    | remove hne hempty => exact List.forall_mem_singleton.mpr (ht.get? hempty).1
    | rename above name hne hsource hname habove hfree hinto =>
        exact List.forall_mem_cons.mpr ⟨(ht.get? hsource).1,
          List.forall_mem_singleton.mpr (legalName_concat ht habove hname)⟩
  exact fun names hnames n hn => (hlegal names hnames n hn).toIsName

/-- **What one operation and its events do to the watched directories.** -/
theorem Watches.operation {base : List String} {w : Watcher} {t t' : Node}
    {left : List String → Prop} (ht : t.Tidy) (h : Watches base w fun p => Visible t p ∨ left p)
    {op : Operation} (hop : op.Does t t')
    (hdots : ∀ names ∈ op.places, ∀ n ∈ names, "..".toList.isPrefixOf n.toList = false)
    {d : Disk} (hroot : d.stat w.root = .ok t') :
    Watches base ((op.events w.root).foldl (fun w e => w.receive d e) w)
      fun p => Visible t' p ∨ op.left t left p := by
  have ht' := hop.tidy ht
  have hjoin : ∀ names ∈ op.places,
      Path.join (w.root :: names) = Disk.pathOf (base ++ names) := by
    intro names hnames
    rw [h.root_eq, Path.join_names h.base_isName (hop.isName ht names hnames)]
  have hnames := hop.isName ht
  cases hop with
  | make above name hname habove hfree =>
      have hvacant : Vacant t (above ++ [name]) := vacant_of_get? (by simp [hfree])
      simp only [Operation.places, List.forall_mem_singleton] at hdots hjoin
      simp only [Operation.events, List.foldl_cons, List.foldl_nil, hjoin]
      refine (h.new (by simp) hdots ht' hroot (Node.get?_put _ _ _)).congr fun p => ?_
      rw [visible_put habove hvacant, Operation.left]
      exact or_right_comm
  | @remove names hne hempty =>
      have hvacant : Vacant t names := vacant_of_get? (by simp [hempty])
      simp only [Operation.places, List.forall_mem_singleton] at hdots hjoin hnames
      simp only [Operation.events, List.foldl_cons, List.foldl_nil, hjoin]
      refine (h.gone hnames hne hdots .removed (.inl rfl) d).congr fun p => ?_
      have hunder : Visible t p → (names <+: p ↔ p = names) := fun hvisible =>
        ⟨hvacant p hvisible.isDir, fun heq => heq ▸ List.prefix_refl _⟩
      rw [visible_erase hne, Operation.left, and_congr_right fun hv => not_congr (hunder hv)]
      exact or_and_right
  | @rename source above name es hne hsource hname habove hfree hinto =>
      have habove' : (t.erase source).IsDir above := by
        refine (Node.isDir_erase hne above).mpr ⟨habove, fun hunder => ?_⟩
        exact hinto (hunder.trans (List.prefix_append _ _))
      simp only [Operation.places, List.forall_mem_cons, List.not_mem_nil, false_implies,
        implies_true, and_true] at hdots hjoin hnames
      simp only [Operation.events, List.foldl_cons, List.foldl_nil, hjoin]
      have hgone := h.gone hnames.1 hne hdots.1 .renamed (.inr rfl) d
      rw [← root_receive w d] at hroot
      refine (hgone.new (by simp) hdots.2 ht' hroot (Node.get?_put _ _ _)).congr fun p => ?_
      rw [visible_put habove' ((vacant_of_get? hfree).erase hne), visible_erase hne, Operation.left]
      have hself : ¬ source <+: p → p ≠ source := fun hnot heq => hnot (heq ▸ List.prefix_refl _)
      constructor
      · rintro (⟨hvisible | hleft, hdiffer⟩ | hnew)
        · by_cases hunder : source <+: p
          · exact .inr ⟨.inr ⟨hvisible, hunder⟩, hdiffer⟩
          · exact .inl (.inl ⟨hvisible, hunder⟩)
        · exact .inr ⟨.inl hleft, hdiffer⟩
        · exact .inl (.inr hnew)
      · rintro ((⟨hvisible, hnot⟩ | hnew) | ⟨hleft | ⟨hvisible, -⟩, hdiffer⟩)
        · exact .inl ⟨.inl hvisible, hself hnot⟩
        · exact .inr hnew
        · exact .inl ⟨.inr hleft, hdiffer⟩
        · exact .inl ⟨.inl hvisible, hdiffer⟩

/-! ## A whole run -/

/-- The watched directories are the visible ones and those left over. -/
theorem Followed.watches {t : Node} {w : Watcher} {left : List String → Prop}
    (h : Followed t w left) :
    t.Tidy ∧ ∃ base, Watches base w fun p => Visible t p ∨ left p := by
  induction h with
  | start hdirectory hroot htidy hmake =>
      obtain ⟨w', base, hmake', -, hwatches⟩ := watches_make _ hdirectory hroot htidy
      obtain rfl := Except.ok.inj (hmake.symm.trans hmake')
      exact ⟨htidy, base, hwatches.congr fun p => (or_false _).to_iff.symm⟩
  | after h hop hdots hroot ih =>
      obtain ⟨ht, base, hwatches⟩ := ih
      exact ⟨hop.tidy ht, base, hwatches.operation ht hop hdots hroot⟩

/-- The directories that are shown are the visible ones and those left over. -/
theorem Followed.mem_shown {t : Node} {w : Watcher} {left : List String → Prop}
    (h : Followed t w left) (x : String) :
    x ∈ w.shown ↔ ∃ names, x = Path.below names ∧ (Visible t names ∨ left names) := by
  obtain ⟨-, base, hwatches⟩ := h.watches
  exact hwatches.mem_shown x

/-- **The watched directories follow the tree, but for what is left over.**  After any operations
on any tree, the directories that are shown are the visible ones and those left over, no others.
They are exactly the visible ones if and only if everything that is left over is visible. -/
theorem shown_followed {t : Node} {w : Watcher} {left : List String → Prop}
    (h : Followed t w left) :
    (∀ x, x ∈ w.shown ↔ ∃ names, x = Path.below names ∧ (Visible t names ∨ left names)) ∧
    ((∀ x, x ∈ w.shown ↔ ∃ names, x = Path.below names ∧ Visible t names) ↔
      ∀ names, left names → Visible t names) := by
  refine ⟨h.mem_shown, fun hexact names hleft => ?_, fun hleft x => ?_⟩
  · obtain ⟨ht, base, hwatches⟩ := h.watches
    have hshown := (h.mem_shown _).mpr ⟨names, rfl, .inr hleft⟩
    obtain ⟨names', heq, hvisible⟩ := (hexact _).mp hshown
    rwa [Path.below_injective (hwatches.isName names (.inr hleft)) (hvisible.isName ht) heq]
  · rw [h.mem_shown]
    refine exists_congr fun names => and_congr_right fun _ => or_iff_left_of_imp (hleft names)

/-- The sample tree with another directory. -/
def madeTree : Node :=
  .directory [("..cfg", .file []), ("a", .directory [("b", .directory []), ("f", .file [])]),
    ("c", .directory []), ("vendor", .file [])]

/-- The same tree after its directory `a` has got the name `d`. -/
def movedTree : Node :=
  .directory [("..cfg", .file []), ("c", .directory []),
    ("d", .directory [("b", .directory []), ("f", .file [])]), ("vendor", .file [])]

/-- A watcher of the sample tree that hears of the new directory and then of the new name. -/
theorem followed_madeTree :
    ∃ w w', Followed madeTree w (fun _ => False) ∧
      Followed movedTree w' (Operation.left madeTree (fun _ => False) (.rename ["a"] ["d"])) := by
  have hsample := (find_diskWith sampleTree.entries).1
  obtain ⟨w, base, hmake, hwroot, -⟩ := watches_make (d := diskWith sampleTree) "/r"
    (by decide) hsample tidy_sampleTree
  have hroot : w.root = "/r" := hwroot.trans (by decide)
  have hmade : (Operation.make ["c"]).Does sampleTree madeTree :=
    .make [] "c" (by decide) ⟨_, rfl⟩ rfl
  have hmoved : (Operation.rename ["a"] ["d"]).Does madeTree movedTree :=
    .rename [] "d" (by decide) rfl (by decide) ⟨_, rfl⟩ nofun (by decide)
  have hstart : Followed sampleTree w fun _ => False := by
    refine .start ?_ ?_ tidy_sampleTree hmake
    · decide
    · exact hsample
  have hfirst := hstart.after hmade (by decide) (d := diskWith madeTree)
    (hroot ▸ (find_diskWith madeTree.entries).2)
  refine ⟨_, _, hfirst, hfirst.after hmoved (by decide) (d := diskWith movedTree) ?_⟩
  simp only [Operation.events, List.foldl_cons, List.foldl_nil, root_receive, hroot]
  exact (find_diskWith movedTree.entries).2

theorem shown_followed_sample :
    ∃ w w' left, Followed madeTree w (fun _ => False) ∧
      (∀ x, x ∈ w.shown ↔ ∃ names, x = Path.below names ∧ Visible madeTree names) ∧
      Followed movedTree w' left ∧ "d/b" ∈ w'.shown ∧
      ¬ ∀ x, x ∈ w'.shown ↔ ∃ names, x = Path.below names ∧ Visible movedTree names := by
  obtain ⟨w, w', hmade, hmoved⟩ := followed_madeTree
  refine ⟨w, w', _, hmade, (shown_followed hmade).2.mpr nofun, hmoved,
    ((shown_followed hmoved).1 _).mpr ⟨["d", "b"], by decide, .inl ⟨⟨_, rfl⟩, by decide⟩⟩, ?_⟩
  rw [(shown_followed hmoved).2]
  intro hvisible
  have hleft : Operation.left madeTree (fun _ => False) (.rename ["a"] ["d"]) ["a", "b"] :=
    ⟨.inr ⟨⟨⟨_, rfl⟩, by decide⟩, by decide⟩, by decide⟩
  obtain ⟨_, hget⟩ := (hvisible _ hleft).isDir
  cases hget

/-- A directory that has another name now is watched under the old one too. -/
theorem shown_left_over :
    ∃ w left, Followed movedTree w left ∧ "a/b" ∈ w.shown ∧ ¬ movedTree.IsDir ["a", "b"] := by
  obtain ⟨-, w, -, h⟩ := followed_madeTree
  refine ⟨w, _, h, (h.mem_shown _).mpr ⟨["a", "b"], by decide, .inr ?_⟩, fun ⟨_, hget⟩ => ?_⟩
  · exact ⟨.inr ⟨⟨⟨_, rfl⟩, by decide⟩, by decide⟩, by decide⟩
  · cases hget

end Watcher

end RuleScan
