import RuleScan.Proofs.Disk.Tree

/-!
# Ways through a tree

A path is followed name by name, and a symbolic link on the way puts other names in front of those
that are left.

## What is proved

  * `way_of_follow`, `Way.follow_eq` — a path leads somewhere exactly if there is a WAY along it, a
    list of steps with the links that are left;
  * `Way.follow_append`, `Way.split` — ways to directories can be put together and taken apart;
  * `Way.unique` — where a way leads does not depend on how many links may be followed;
  * `find_below`, `stat_missing` — if a path leads to a directory, then the path with names behind
    it leads to where the names lead from there.

## Why ways, and not only where they lead

Two trees can be compared along a way, step by step: what a step looks at is one place.  And the
links that are left are the same in both, which is what the names behind depend on.
-/

namespace RuleScan.Disk

/-! ## Ways -/

/-- A way through a tree: from a place, with some links to go, along names, with the links that are
left and the place it leads to. -/
inductive Way (root : Node) : Nat → List String → List String → Nat → List String → Prop
  | here (links : Nat) (place : List String) : Way root links place [] links place
  | up {links left : Nat} {place rest q : List String}
      (h : Way root links place.dropLast rest left q) : Way root links place (".." :: rest) left q
  | link {links left : Nat} {place rest q : List String} {name target : String}
      (hdots : name ≠ "..") (hlength : ¬ Text.byteLength name > maxNameLength)
      (hget : root.get? (place ++ [name]) = some (.link target))
      (h : Way root links (if Path.isAbs target then [] else place) (names target ++ rest) left q) :
      Way root (links + 1) place (name :: rest) left q
  | down {links left : Nat} {place rest q : List String} {name : String} {es : Entries}
      (hdots : name ≠ "..") (hlength : ¬ Text.byteLength name > maxNameLength)
      (hget : root.get? (place ++ [name]) = some (.directory es))
      (h : Way root links (place ++ [name]) rest left q) :
      Way root links place (name :: rest) left q
  | leaf {links : Nat} {place : List String} {name : String} {n : Node}
      (hdots : name ≠ "..") (hlength : ¬ Text.byteLength name > maxNameLength)
      (hget : root.get? (place ++ [name]) = some n) (hdir : ∀ es, n ≠ .directory es)
      (hlink : ∀ target, n ≠ .link target) : Way root links place [name] links (place ++ [name])

variable {root : Node} {links left : Nat} {place q : List String}

theorem follow_directory {ending : Ending} {name : String} (hdots : name ≠ "..")
    (hlength : ¬ Text.byteLength name > maxNameLength) {es : Entries} (hget : root.get? (place ++ [name]) = some (.directory es))
    (rest : List String) :
    follow root ending links place (name :: rest) =
      follow root ending links (place ++ [name]) rest := by
  rw [follow, if_neg hdots, if_neg hlength, hget]

theorem follow_link {ending : Ending} {name target : String} {rest : List String}
    (hdots : name ≠ "..") (hlength : ¬ Text.byteLength name > maxNameLength)
    (hget : root.get? (place ++ [name]) = some (.link target))
    (hon : rest = [] → ending ≠ .entry) :
    follow root ending (links + 1) place (name :: rest) =
      follow root ending links (if Path.isAbs target then [] else place)
        (names target ++ rest) := by
  have hgo : (rest.isEmpty && decide (ending = .entry)) = false := by
    cases rest with
    | nil => simpa using hon rfl
    | cons x rest => rfl
  rw [follow, if_neg hdots, if_neg hlength, hget]
  dsimp only
  rw [hgo]
  rfl

theorem way_of_follow {todo : List String} (h : follow root .target links place todo = .ok q) :
    ∃ left, Way root links place todo left q := by
  fun_induction follow root .target links place todo with
  | case1 links place =>
      obtain rfl := Except.ok.inj h
      exact ⟨links, .here links place⟩
  | case2 links place todo ih =>
      obtain ⟨left, hway⟩ := ih h
      exact ⟨left, .up hway⟩
  | case3 => cases h
  | case4 links place name todo hdots hlength hget hroom => simp at hroom
  | case5 => cases h
  | case6 links place name todo hdots hlength target hget hend => simp at hend
  | case7 => cases h
  | case8 place name todo hdots hlength target hget hend links start ih =>
      obtain ⟨left, hway⟩ := ih h
      exact ⟨left, .link hdots hlength hget hway⟩
  | case9 links place name todo hdots hlength es hget ih =>
      obtain ⟨left, hway⟩ := ih h
      exact ⟨left, .down hdots hlength hget hway⟩
  | case10 links place name todo hdots hlength n hlink hdir hget hend =>
      obtain rfl := Except.ok.inj h
      obtain rfl := List.isEmpty_iff.mp hend
      exact ⟨links, .leaf hdots hlength hget hdir hlink⟩
  | case11 => cases h

/-- What is no link itself is found also where links are followed. -/
theorem follow_target {todo : List String} (h : follow root .entry links place todo = .ok q)
    (hq : ∀ target, root.get? q ≠ some (.link target)) :
    follow root .target links place todo = .ok q := by
  fun_induction follow root .entry links place todo with
  | case1 links place => rwa [follow]
  | case2 links place todo ih => rw [follow, if_pos rfl, ih h]
  | case3 => cases h
  | case4 links place name todo hdots hlength hget hroom => simp at hroom
  | case5 => cases h
  | case6 links place name todo hdots hlength target hget hend =>
      obtain rfl := Except.ok.inj h
      exact absurd hget (hq target)
  | case7 => cases h
  | case8 place name todo hdots hlength target hget hend links start ih =>
      rw [follow_link hdots hlength hget (by simp)]
      exact ih h
  | case9 links place name todo hdots hlength es hget ih =>
      rw [follow_directory hdots hlength hget, ih h]
  | case10 links place name todo hdots hlength n hlink hdir hget hend =>
      rw [follow, if_neg hdots, if_neg hlength, hget]
      cases n with
      | directory es => exact absurd rfl (hdir es)
      | link target => exact absurd rfl (hlink target)
      | _ => simpa [hend] using h
  | case11 => cases h

/-- A way to a directory can be followed on from there, whatever comes next. -/
theorem Way.follow_append {todo : List String} (h : Way root links place todo left q)
    (hq : root.IsDir q) {rest : List String} (hrest : rest ≠ []) (ending : Ending) :
    follow root ending links place (todo ++ rest) = follow root ending left q rest := by
  induction h with
  | here => rfl
  | up _ ih => rw [List.cons_append, follow, if_pos rfl, ih hq]
  | link hdots hlength hget _ ih =>
      rw [List.cons_append, follow_link hdots hlength hget (by simp [hrest]), ← List.append_assoc,
        ih hq]
  | down hdots hlength hget _ ih =>
      rw [List.cons_append, follow_directory hdots hlength hget, ih hq]
  | leaf _ _ hget hdir _ =>
      obtain ⟨es, hes⟩ := hq
      rw [hget] at hes
      exact absurd (Option.some.inj hes) (hdir es)

theorem Way.follow_eq {todo : List String} (h : Way root links place todo left q) :
    follow root .target links place todo = .ok q := by
  induction h with
  | here => rw [follow]
  | up _ ih => rw [follow, if_pos rfl, ih]
  | link hdots hlength hget _ ih => rw [follow_link hdots hlength hget (by simp), ih]
  | down hdots hlength hget _ ih => rw [follow_directory hdots hlength hget, ih]
  | @leaf _ _ _ n hdots hlength hget hdir hlink =>
      rw [follow, if_neg hdots, if_neg hlength, hget]
      cases n with
      | directory es => exact absurd rfl (hdir es)
      | link target => exact absurd rfl (hlink target)
      | _ => rfl

/-- More links to go do no harm. -/
theorem Way.add {todo : List String} (h : Way root links place todo left q) (k : Nat) :
    Way root (links + k) place todo (left + k) q := by
  induction h with
  | here links place => exact .here (links + k) place
  | up _ ih => exact .up ih
  | @link links _ _ _ _ _ _ hdots hlength hget _ ih =>
      rw [Nat.add_right_comm]
      exact .link hdots hlength hget ih
  | down hdots hlength hget _ ih => exact .down hdots hlength hget ih
  | leaf hdots hlength hget hdir hlink => exact .leaf hdots hlength hget hdir hlink

/-- The name of a file is a way to it. -/
theorem Way.file {name : String} {content : Text.Bytes} (hdots : name ≠ "..")
    (hlength : ¬ Text.byteLength name > maxNameLength)
    (hget : root.get? (place ++ [name]) = some (.file content)) :
    Way root links place [name] links (place ++ [name]) :=
  .leaf hdots hlength hget nofun nofun

/-- Ways from the same place along the same names lead to the same place. -/
theorem Way.unique {links' left' : Nat} {todo q' : List String}
    (h : Way root links place todo left q) (h' : Way root links' place todo left' q') : q = q' := by
  have hfollow := (h.add links').follow_eq
  have hfollow' := (h'.add links).follow_eq
  rw [Nat.add_comm links', hfollow] at hfollow'
  exact Except.ok.inj hfollow'

theorem Node.IsDir.dropLast {p : List String} (h : root.IsDir p) : root.IsDir p.dropLast := by
  rcases List.eq_nil_or_concat p with rfl | ⟨front, last, rfl⟩
  · exact h
  · rw [List.concat_eq_append, List.dropLast_concat]
    exact IsDir.of_append (List.concat_eq_append ▸ h)

/-- A link that is not absolute leads on from its directory, any other one from the root. -/
theorem Node.IsDir.start (h : root.IsDir place) (target : String) :
    root.IsDir (if Path.isAbs target then [] else place) := by
  split
  · exact IsDir.of_append (p := []) h
  · exact h

/-- A way along more names leads through a directory. -/
theorem Way.split {todo rest : List String} (h : Way root links place (todo ++ rest) left q)
    (hplace : root.IsDir place) (hrest : rest ≠ []) :
    ∃ between m, Way root links place todo between m ∧ root.IsDir m ∧
      Way root between m rest left q := by
  generalize hall : todo ++ rest = all at h
  induction h generalizing todo with
  | here => exact absurd (List.append_eq_nil_iff.mp hall).2 hrest
  | @up links left place more q h ih =>
      cases todo with
      | nil =>
          obtain rfl : rest = ".." :: more := hall
          exact ⟨links, place, .here links place, hplace, .up h⟩
      | cons x todo =>
          obtain ⟨rfl, hmore⟩ := List.cons.inj hall
          obtain ⟨between, m, hway, hm, hon⟩ := ih hplace.dropLast hmore
          exact ⟨between, m, .up hway, hm, hon⟩
  | @link links left place more q name target hdots hlength hget h ih =>
      cases todo with
      | nil =>
          obtain rfl : rest = name :: more := hall
          exact ⟨links + 1, place, .here _ place, hplace, .link hdots hlength hget h⟩
      | cons x todo =>
          obtain ⟨rfl, rfl⟩ := List.cons.inj hall
          obtain ⟨between, m, hway, hm, hon⟩ :=
            ih (hplace.start target) (List.append_assoc _ _ _)
          exact ⟨between, m, .link hdots hlength hget hway, hm, hon⟩
  | @down links left place more q name es hdots hlength hget h ih =>
      cases todo with
      | nil =>
          obtain rfl : rest = name :: more := hall
          exact ⟨links, place, .here links place, hplace, .down hdots hlength hget h⟩
      | cons x todo =>
          obtain ⟨rfl, hmore⟩ := List.cons.inj hall
          obtain ⟨between, m, hway, hm, hon⟩ := ih ⟨es, hget⟩ hmore
          exact ⟨between, m, .down hdots hlength hget hway, hm, hon⟩
  | @leaf links place name n hdots hlength hget hdir hlink =>
      cases todo with
      | nil =>
          obtain rfl : rest = [name] := hall
          exact ⟨links, place, .here links place, hplace, .leaf hdots hlength hget hdir hlink⟩
      | cons x todo =>
          obtain ⟨-, hmore⟩ := List.cons.inj hall
          exact absurd (List.append_eq_nil_iff.mp hmore).2 hrest

/-! ## Following a path -/

/-- From a directory in a tree, names are followed to where they lead in it. -/
theorem follow_names {root t m : Node} (ht : t.Tidy) {place names : List String}
    (hplace : root.get? place = some t) (hm : t.get? names = some m)
    (hlink : ∀ target, m ≠ .link target) (ending : Ending) (links : Nat) :
    follow root ending links place names = .ok (place ++ names) := by
  induction names generalizing place t with
  | nil => rw [follow, List.append_nil]
  | cons name names ih =>
      obtain ⟨es, n, rfl, hentry, hget⟩ := Node.get?_cons_eq_some hm
      obtain ⟨hname, hn⟩ := ht.entry? hentry
      have hroot : root.get? (place ++ [name]) = some n := by
        rw [Node.get?_append, hplace]
        simp [Node.get?_cons, hentry]
      have hlength : ¬ Text.byteLength name > maxNameLength := Nat.not_lt.mpr hname.length_le
      by_cases hnil : names = []
      · subst hnil
        obtain rfl : n = m := Option.some.inj hget
        rw [follow, if_neg hname.ne_dots, if_neg hlength, hroot]
        cases n with
        | link target => exact absurd rfl (hlink target)
        | directory es' => simp [follow]
        | file content => simp
        | pipe => simp
      · obtain ⟨es', rfl⟩ := Node.exists_directory_of_get? hnil hget
        rw [follow_directory hname.ne_dots hlength hroot, ih hn hroot hget]
        simp

theorem fullNames_pathOf (d : Disk) {names : List String} (h : ∀ n ∈ names, Path.IsName n) :
    d.fullNames (pathOf names) = names := by
  have hkept : names.filter (fun s => s ≠ "" && s ≠ ".") = names := by
    refine List.filter_eq_self.mpr fun s hs => ?_
    simp [(h s hs).ne_empty, (h s hs).ne_dot]
  rw [fullNames, Path.isAbs_pathOf, if_pos rfl, Disk.names, Path.segments_pathOf h]
  by_cases hnil : names = []
  · subst hnil
    rfl
  · rw [if_neg hnil, List.filter_cons_of_neg (by simp), hkept]

theorem place_pathOf (d : Disk) {names : List String} (h : ∀ n ∈ names, Path.IsName n) :
    d.place (pathOf names) = follow d.root .target maxLinks [] names := by
  rw [place, Path.pathOf_ne_empty, fullNames_pathOf d h]
  rfl

/-- A path that ends with a name may lead to anything. -/
theorem asksDirectory_pathOf {names : List String} (h : ∀ n ∈ names, Path.IsName n)
    (hne : names ≠ []) : Path.asksDirectory (pathOf names) = false := by
  rw [Path.asksDirectory, Path.segments_pathOf h, if_neg hne, List.getLast?_cons_of_ne_nil hne,
    List.getLast?_eq_some_getLast hne]
  have hlast := h _ (List.getLast_mem hne)
  simp [hlast.ne_empty, hlast.ne_dot]

/-- What is at a path, and a directory if the path asks for one. -/
theorem stat_eq_ok_iff {d : Disk} {path : String} {n : Node} :
    d.stat path = .ok n ↔ ∃ place, d.place path = .ok place ∧ d.root.get? place = some n ∧
      (Path.asksDirectory path = true → n.isDirectory = true) := by
  rw [stat]
  cases d.place path with
  | error f => simp [bind, Except.bind]
  | ok place =>
      cases hget : d.root.get? place with
      | none => simp [bind, Except.bind, hget, throw, throwThe, MonadExceptOf.throw]
      | some m =>
          simp only [bind, Except.bind, hget, Except.ok.injEq, exists_eq_left', Option.some.injEq]
          split
          · next hasks =>
              rw [Bool.and_eq_true, Bool.not_eq_true'] at hasks
              refine ⟨nofun, ?_⟩
              rintro ⟨rfl, hdir⟩
              rw [hdir hasks.1] at hasks
              cases hasks.2
          · next hasks =>
              refine ⟨fun h => ?_, fun ⟨h, _⟩ => congrArg Except.ok h⟩
              obtain rfl := Except.ok.inj h
              exact ⟨rfl, fun h => by simpa [h] using hasks⟩

theorem lstat_pathOf (d : Disk) {names place : List String} {n : Node}
    (h : ∀ n ∈ names, Path.IsName n) (hne : names ≠ [])
    (hfollow : follow d.root .entry maxLinks [] names = .ok place)
    (hget : d.root.get? place = some n) : d.lstat (pathOf names) = .ok n := by
  simp only [lstat, Path.pathOf_ne_empty, asksDirectory_pathOf h hne, fullNames_pathOf d h,
    hfollow]
  simp [bind, Except.bind, hget, pure, Except.pure]

theorem stat_pathOf (d : Disk) {names place : List String} {n : Node}
    (h : ∀ n ∈ names, Path.IsName n) (hne : names ≠ [])
    (hfollow : follow d.root .target maxLinks [] names = .ok place)
    (hget : d.root.get? place = some n) : d.stat (pathOf names) = .ok n := by
  refine stat_eq_ok_iff.mpr ⟨place, ?_, hget, fun hasks => ?_⟩
  · rw [place_pathOf d h, hfollow]
  · rw [asksDirectory_pathOf h hne] at hasks
    cases hasks

/-- **If a path leads to a directory, then the path with names behind it leads to where the names
lead from there.** -/
theorem find_below {d : Disk} {base place names : List String} {t m : Node} (ht : t.Tidy)
    (hbase : ∀ n ∈ base, Path.IsName n) (hplace : d.place (pathOf base) = .ok place)
    (hget : d.root.get? place = some t) (hm : t.get? names = some m) (hne : names ≠ [])
    (hlink : ∀ target, m ≠ .link target) :
    d.lstat (pathOf (base ++ names)) = .ok m ∧ d.stat (pathOf (base ++ names)) = .ok m := by
  have hdir : d.root.IsDir place := by
    obtain ⟨es, rfl⟩ := Node.exists_directory_of_get? hne hm
    exact ⟨es, hget⟩
  have hall : ∀ n ∈ base ++ names, Path.IsName n :=
    List.forall_mem_append.mpr ⟨hbase, fun n hn => ((ht.get? hm).1 n hn).toIsName⟩
  have hfollow : ∀ ending,
      follow d.root ending maxLinks [] (base ++ names) = .ok (place ++ names) := by
    intro ending
    rw [place_pathOf d hbase] at hplace
    obtain ⟨left, hway⟩ := way_of_follow hplace
    rw [hway.follow_append hdir hne, follow_names ht hget hm hlink]
  have hend : d.root.get? (place ++ names) = some m := by
    rw [Node.get?_append, hget]
    exact hm
  have hnil : base ++ names ≠ [] := List.append_ne_nil_of_right_ne_nil base hne
  exact ⟨lstat_pathOf d hall hnil (hfollow .entry) hend,
    stat_pathOf d hall hnil (hfollow .target) hend⟩

/-- The path without names is the root. -/
theorem place_root (d : Disk) : d.place (pathOf []) = .ok [] := by
  rw [place_pathOf d (List.forall_mem_nil _), follow]

/-- From the root, names that lead to something are a path to it. -/
theorem stat_names {d : Disk} (names : List String) {m : Node} (ht : d.root.Tidy)
    (hm : d.root.get? names = some m) (hne : names ≠ []) (hlink : ∀ target, m ≠ .link target) :
    d.stat (pathOf names) = .ok m :=
  (find_below ht (List.forall_mem_nil _) d.place_root rfl hm hne hlink).2

/-- What is at a path and is no link is there behind links too. -/
theorem stat_of_lstat {d : Disk} {path : String} {n : Node} (h : d.lstat path = .ok n)
    (hn : ∀ target, n ≠ .link target) : d.stat path = .ok n := by
  simp only [lstat] at h
  split at h
  · cases h
  · next hempty =>
      cases hasks : Path.asksDirectory path with
      | true => simpa [hasks] using h
      | false =>
          cases hfollow : follow d.root .entry maxLinks [] (d.fullNames path) with
          | error f => simp [hasks, hfollow, bind, Except.bind] at h
          | ok q =>
              have hget : d.root.get? q = some n := by
                cases hq : d.root.get? q with
                | none => simp [hasks, hfollow, bind, Except.bind, hq] at h
                | some m => simpa [hasks, hfollow, bind, Except.bind, hq, pure, Except.pure] using h
              refine stat_eq_ok_iff.mpr ⟨q, ?_, hget, by simp [hasks]⟩
              rw [place, if_neg hempty]
              exact follow_target hfollow fun target => by simpa [hget] using hn target

/-- What is at a path is at the place that the path leads to. -/
theorem exists_place_of_stat {d : Disk} {path : String} {n : Node} (h : d.stat path = .ok n) :
    ∃ place, d.place path = .ok place ∧ d.root.get? place = some n := by
  obtain ⟨place, hplace, hget, -⟩ := stat_eq_ok_iff.mp h
  exact ⟨place, hplace, hget⟩

end RuleScan.Disk
