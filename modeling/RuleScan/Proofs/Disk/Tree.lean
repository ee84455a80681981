import RuleScan.Proofs.Disk.Names

/-!
# Directories of a tree

What is asked of a tree below is only which of its places are directories.

## What is proved

  * `Node.isDir_put`, `Node.isDir_erase` — how this changes when something is put at a place or is
    taken away;
  * `Node.Tidy.put`, `Node.Tidy.erase` — a tree with legal names in order stays one;
  * `mem_visits` — a walk comes across exactly the places that names lead to without going through
    a directory that is not entered.

## Why a tree has to be tidy

Names lead to the FIRST entry with a name, while a walk comes across all entries.  The two agree
where no name comes twice, and entries that are kept in order have that.
-/

namespace RuleScan.Disk

/-- A name that an entry can be given. -/
structure LegalName (name : String) : Prop extends Path.IsName name where
  length_le : Text.byteLength name ≤ maxNameLength

instance (name : String) : Decidable (LegalName name) :=
  decidable_of_iff (name ≠ "" ∧ name ≠ "." ∧ name ≠ ".." ∧ '/' ∉ name.toList ∧
      Text.byteLength name ≤ maxNameLength)
    ⟨fun ⟨hempty, hdot, hdots, hslash, hlength⟩ => ⟨⟨hempty, hdot, hdots, hslash⟩, hlength⟩,
      fun h => ⟨h.ne_empty, h.ne_dot, h.ne_dots, h.slash_notMem, h.length_le⟩⟩

namespace Node

/-- A tree whose directories have legal names in order, each once. -/
inductive Tidy : Node → Prop
  | file (content : Text.Bytes) : Tidy (.file content)
  | link (target : String) : Tidy (.link target)
  | pipe : Tidy .pipe
  | directory {es : Entries} (hnames : ∀ e ∈ es, LegalName e.1)
      (hsorted : es.Pairwise fun a b => a.1 < b.1) (hbelow : ∀ e ∈ es, Tidy e.2) :
      Tidy (.directory es)

/-- Whether names lead to a directory. -/
def IsDir (n : Node) (names : List String) : Prop := ∃ es, n.get? names = some (.directory es)

theorem eq_directory {n : Node} (h : n.isDirectory = true) : ∃ es, n = .directory es := by
  cases n with
  | directory es => exact ⟨es, rfl⟩
  | _ => cases h

/-! ## Entries -/

theorem entry?_directory (name : String) (es : Entries) :
    entry? name (directory es) = (es.find? (·.1 = name)).map (·.2) := rfl

theorem entry?_eq_some {n m : Node} {name : String} (h : n.entry? name = some m) :
    ∃ es, n = .directory es ∧ (name, m) ∈ es := by
  cases n with
  | directory es =>
      obtain ⟨⟨other, m'⟩, hfind, rfl⟩ := Option.map_eq_some_iff.mp h
      have hname : other = name := by simpa using List.find?_some hfind
      exact ⟨es, rfl, hname ▸ List.mem_of_find?_eq_some hfind⟩
  | file _ => cases h
  | link _ => cases h
  | pipe => cases h

/-- Where no name comes twice, every entry is the one with its name. -/
theorem entry?_of_mem {es : Entries} (hsorted : es.Pairwise fun a b => a.1 < b.1) {name : String}
    {n : Node} (h : (name, n) ∈ es) : entry? name (directory es) = some n := by
  rw [entry?_directory]
  induction es with
  | nil => cases h
  | cons e es ih =>
      rw [List.pairwise_cons] at hsorted
      rcases List.mem_cons.mp h with rfl | h
      · simp
      · have hlt : e.1 < name := hsorted.1 _ h
        have hne : e.1 ≠ name := fun heq => String.lt_irrefl name (heq ▸ hlt)
        rw [List.find?_cons_of_neg (by simpa using hne)]
        exact ih hsorted.2 h

/-- Only its entries matter to what a directory has. -/
theorem entry?_entries (n : Node) (name : String) :
    entry? name (directory n.entries) = n.entry? name := rfl

theorem entry?_insertEntry (name other : String) (m : Node) (es : Entries) :
    entry? other (directory (insertEntry name m es)) =
      if other = name then some m else entry? other (directory es) := by
  simp only [entry?_directory]
  induction es with
  | nil => by_cases h : other = name <;> simp [insertEntry, h, eq_comm]
  | cons e es ih =>
      rw [insertEntry]
      by_cases hname : name = e.1
      · rw [if_pos hname]
        by_cases h : other = name <;> simp [h, ← hname, eq_comm]
      · rw [if_neg hname]
        by_cases hlt : name < e.1
        · rw [if_pos hlt]
          by_cases h : other = name <;> simp [List.find?_cons, h, eq_comm]
        · rw [if_neg hlt]
          by_cases he : e.1 = other
          · have h : other ≠ name := fun h => hname (h ▸ he.symm)
            simp [he, h]
          · simpa [List.find?_cons, he] using ih

theorem mem_insertEntry {name : String} {m : Node} {es : Entries} {e : String × Node}
    (h : e ∈ insertEntry name m es) : e = (name, m) ∨ e ∈ es := by
  induction es with
  | nil => exact .inl (List.mem_singleton.mp h)
  | cons e' es ih =>
      rw [insertEntry] at h
      split at h
      · rcases List.mem_cons.mp h with rfl | h
        · exact .inl rfl
        · exact .inr (List.mem_cons_of_mem _ h)
      · split at h
        · rcases List.mem_cons.mp h with rfl | h
          · exact .inl rfl
          · exact .inr h
        · rcases List.mem_cons.mp h with rfl | h
          · exact .inr List.mem_cons_self
          · exact (ih h).imp id (List.mem_cons_of_mem _)

theorem pairwise_insertEntry {es : Entries} (hsorted : es.Pairwise fun a b => a.1 < b.1)
    (name : String) (m : Node) : (insertEntry name m es).Pairwise fun a b => a.1 < b.1 := by
  induction es with
  | nil => exact List.pairwise_singleton _ _
  | cons e es ih =>
      have hrest := List.pairwise_cons.mp hsorted
      rw [insertEntry]
      split
      · next hname => exact List.pairwise_cons.mpr ⟨fun x hx => hname ▸ hrest.1 x hx, hrest.2⟩
      · next hname =>
          split
          · next hlt =>
              refine List.pairwise_cons.mpr ⟨fun x hx => ?_, hsorted⟩
              rcases List.mem_cons.mp hx with rfl | hx
              · exact hlt
              · exact String.lt_trans hlt (hrest.1 x hx)
          · next hlt =>
              have hgt : e.1 < name := Decidable.byContradiction fun hge =>
                hname (String.le_antisymm (String.not_lt.mp hge) (String.not_lt.mp hlt))
              refine List.pairwise_cons.mpr ⟨fun x hx => ?_, ih hrest.2⟩
              rcases mem_insertEntry hx with rfl | hx
              · exact hgt
              · exact hrest.1 x hx

/-! ## Where names lead -/

@[simp] theorem get?_nil (n : Node) : n.get? [] = some n := rfl

theorem get?_cons (name : String) (rest : List String) (n : Node) :
    n.get? (name :: rest) = (n.entry? name).bind (get? rest) := rfl

theorem get?_append (p q : List String) (n : Node) :
    n.get? (p ++ q) = (n.get? p).bind (get? q) := by
  induction p generalizing n with
  | nil => rfl
  | cons name p ih =>
      rw [List.cons_append, get?_cons, get?_cons, Option.bind_assoc]
      exact Option.bind_congr fun m _ => ih m

theorem get?_cons_eq_some {n m : Node} {name : String} {rest : List String}
    (h : n.get? (name :: rest) = some m) :
    ∃ es n', n = .directory es ∧ n.entry? name = some n' ∧ n'.get? rest = some m := by
  obtain ⟨n', hentry, hget⟩ := Option.bind_eq_some_iff.mp h
  obtain ⟨es, hes, -⟩ := entry?_eq_some hentry
  exact ⟨es, n', hes, hentry, hget⟩

theorem exists_directory_of_get? {n m : Node} {names : List String} (hne : names ≠ [])
    (h : n.get? names = some m) : ∃ es, n = .directory es := by
  obtain ⟨name, rest, rfl⟩ := List.exists_cons_of_ne_nil hne
  obtain ⟨es, -, rfl, -⟩ := get?_cons_eq_some h
  exact ⟨es, rfl⟩

/-- Only a directory has something in it. -/
theorem isDir_of_get? {n m : Node} {p : List String} {name : String}
    (h : n.get? (p ++ [name]) = some m) : n.IsDir p := by
  rw [get?_append] at h
  obtain ⟨n', hp, hname⟩ := Option.bind_eq_some_iff.mp h
  obtain ⟨es, rfl⟩ := exists_directory_of_get? (by simp) hname
  exact ⟨es, hp⟩

theorem get?_put (n : Node) (p : List String) (new : Node) : (n.put p new).get? p = some new := by
  induction p generalizing n with
  | nil => rfl
  | cons name p ih =>
      rw [put, get?_cons, entry?_insertEntry, if_pos rfl]
      exact ih _

theorem isDir_nil {n : Node} : n.IsDir [] ↔ ∃ es, n = .directory es := by
  simp [IsDir]

theorem isDir_cons {n : Node} {name : String} {q : List String} :
    n.IsDir (name :: q) ↔ ∃ m, n.entry? name = some m ∧ m.IsDir q := by
  simp only [IsDir, get?_cons, Option.bind_eq_some_iff]
  exact ⟨fun ⟨es, m, hm, hq⟩ => ⟨m, hm, es, hq⟩, fun ⟨m, hm, es, hq⟩ => ⟨es, m, hm, hq⟩⟩

/-- Above a directory there are directories. -/
theorem IsDir.of_append {n : Node} {p q : List String} (h : n.IsDir (p ++ q)) : n.IsDir p := by
  induction q generalizing p with
  | nil => simpa using h
  | cons name q ih =>
      have hname : n.IsDir (p ++ [name]) := ih (by simpa using h)
      obtain ⟨es, hes⟩ := hname
      exact isDir_of_get? hes

/-- What is put at a place below a directory changes what is there and below it, nothing else. -/
theorem isDir_put {n : Node} {p : List String} (hp : p ≠ [] → n.IsDir p.dropLast) (new : Node)
    (q : List String) :
    (n.put p new).IsDir q ↔ (∃ r, q = p ++ r ∧ new.IsDir r) ∨ (¬ p <+: q ∧ n.IsDir q) := by
  induction p generalizing n q with
  | nil => simp [put]
  | cons name p ih =>
      have hn : n.IsDir [] := IsDir.of_append (p := []) (hp (by simp))
      cases q with
      | nil =>
          have hput : (n.put (name :: p) new).IsDir [] := isDir_nil.mpr ⟨_, rfl⟩
          simp [hput, hn]
      | cons x q =>
          rw [put, isDir_cons, isDir_cons, entry?_insertEntry]
          by_cases hx : x = name
          · subst hx
            -- Unless this is the place itself, an entry with the first name is there already.
            have hentry : p ≠ [] → ∃ m, n.entry? x = some m ∧ m.IsDir p.dropLast := by
              intro hne
              have hdir := hp (by simp)
              rw [List.dropLast_cons_of_ne_nil hne, isDir_cons] at hdir
              exact hdir
            rw [if_pos rfl]
            simp only [Option.some.injEq, exists_eq_left', List.cons_append, List.cons.injEq,
              true_and, List.prefix_cons_iff, reduceCtorEq, false_or, exists_eq_left']
            rw [ih (fun hne => by
              obtain ⟨m, hm, hdir⟩ := hentry hne
              rwa [hm]) q]
            refine or_congr Iff.rfl (and_congr_right fun hnot => ?_)
            obtain ⟨m, hm, -⟩ := hentry (fun hnil => hnot (hnil ▸ List.nil_prefix))
            simp [hm]
          · rw [if_neg hx]
            simp [hx, Ne.symm hx, entry?_entries]

theorem erase_name (name : String) (es : Entries) :
    (directory es).erase [name] = .directory (es.filter (·.1 ≠ name)) := rfl

theorem erase_below (name x : String) (p : List String) (n : Node) :
    n.erase (name :: x :: p) = match n.entry? name with
      | some m => .directory (insertEntry name (m.erase (x :: p)) n.entries)
      | none => n := by
  cases n <;> rfl

theorem entry?_filter (name x : String) (es : Entries) :
    entry? x (directory (es.filter (·.1 ≠ name))) =
      if x = name then none else entry? x (directory es) := by
  rw [entry?_directory, entry?_directory, List.find?_filter]
  by_cases hx : x = name
  · subst hx
    simp
  · have hsame : (fun e : String × Node => decide (decide (e.1 ≠ name) = true ∧
        decide (e.1 = x) = true)) = fun e => decide (e.1 = x) := by
      funext e
      by_cases he : e.1 = x <;> simp [he, hx]
    rw [hsame, if_neg hx]

theorem entry?_erase (n : Node) (name : String) (p : List String) (x : String) :
    entry? x (n.erase (name :: p)) =
      if x = name then (if p = [] then none else (n.entry? name).map (erase p))
      else n.entry? x := by
  cases p with
  | nil =>
      cases n with
      | directory es =>
          rw [erase_name, entry?_filter, if_pos rfl]
      | file _ => by_cases hx : x = name <;> simp [erase, entry?, entries]
      | link _ => by_cases hx : x = name <;> simp [erase, entry?, entries]
      | pipe => by_cases hx : x = name <;> simp [erase, entry?, entries]
  | cons y p =>
      rw [erase_below]
      cases hentry : n.entry? name with
      | none => by_cases hx : x = name <;> simp [hx, hentry]
      | some m =>
          simpa [entry?_entries] using entry?_insertEntry name x (m.erase (y :: p)) n.entries

theorem isDir_erase_nil {n : Node} {p : List String} (hp : p ≠ []) :
    (n.erase p).IsDir [] ↔ n.IsDir [] := by
  obtain _ | ⟨name, _ | ⟨x, p⟩⟩ := p
  · exact absurd rfl hp
  · cases n <;> simp [isDir_nil, erase]
  · rw [erase_below]
    cases hentry : n.entry? name with
    | none => rfl
    | some m =>
        obtain ⟨es, rfl, -⟩ := entry?_eq_some hentry
        simp [isDir_nil]

/-- What is taken away is gone with everything below it, and nothing else is. -/
theorem isDir_erase {n : Node} {p : List String} (hp : p ≠ []) (q : List String) :
    (n.erase p).IsDir q ↔ n.IsDir q ∧ ¬ p <+: q := by
  induction p generalizing n q with
  | nil => exact absurd rfl hp
  | cons name p ih =>
      cases q with
      | nil => simp [isDir_erase_nil hp]
      | cons x q =>
          rw [isDir_cons, isDir_cons, entry?_erase]
          by_cases hx : x = name
          · subst hx
            by_cases hnil : p = []
            · simp [hnil]
            · rw [if_pos rfl, if_neg hnil]
              simp only [Option.map_eq_some_iff]
              constructor
              · rintro ⟨_, ⟨m, hm, rfl⟩, hdir⟩
                obtain ⟨hq, hnot⟩ := (ih hnil q).mp hdir
                exact ⟨⟨m, hm, hq⟩, by simpa using hnot⟩
              · rintro ⟨⟨m, hm, hq⟩, hnot⟩
                exact ⟨_, ⟨m, hm, rfl⟩, (ih hnil q).mpr ⟨hq, by simpa using hnot⟩⟩
          · simp [hx, Ne.symm hx]

/-! ## Tidy trees -/

theorem Tidy.entry? {n m : Node} (h : n.Tidy) {name : String} (hm : n.entry? name = some m) :
    LegalName name ∧ m.Tidy := by
  obtain ⟨es, rfl, hmem⟩ := entry?_eq_some hm
  cases h with
  | directory hnames _ hbelow => exact ⟨hnames _ hmem, hbelow _ hmem⟩

/-- Names that lead somewhere are legal. -/
theorem Tidy.get? {n m : Node} (h : n.Tidy) {p : List String} (hm : n.get? p = some m) :
    (∀ name ∈ p, LegalName name) ∧ m.Tidy := by
  induction p generalizing n with
  | nil =>
      rw [get?_nil, Option.some.injEq] at hm
      exact ⟨nofun, hm ▸ h⟩
  | cons name p ih =>
      obtain ⟨es, n', -, hentry, hget⟩ := get?_cons_eq_some hm
      obtain ⟨hname, hn'⟩ := h.entry? hentry
      obtain ⟨hrest, hm'⟩ := ih hn' hget
      exact ⟨List.forall_mem_cons.mpr ⟨hname, hrest⟩, hm'⟩

theorem tidy_empty : (directory []).Tidy := .directory nofun List.Pairwise.nil nofun

theorem Tidy.entries {n : Node} (h : n.Tidy) : (Node.directory n.entries).Tidy := by
  cases h with
  | directory hnames hsorted hbelow => exact .directory hnames hsorted hbelow
  | _ => exact tidy_empty

theorem Tidy.insertEntry {es : Entries} (h : (Node.directory es).Tidy) {name : String}
    (hname : LegalName name) {m : Node} (hm : m.Tidy) :
    (Node.directory (Node.insertEntry name m es)).Tidy := by
  cases h with
  | directory hnames hsorted hbelow =>
      refine .directory (fun e he => ?_) (pairwise_insertEntry hsorted name m) fun e he => ?_
      · rcases mem_insertEntry he with rfl | he
        · exact hname
        · exact hnames e he
      · rcases mem_insertEntry he with rfl | he
        · exact hm
        · exact hbelow e he

theorem Tidy.put {n new : Node} (h : n.Tidy) (hnew : new.Tidy) {p : List String}
    (hp : ∀ name ∈ p, LegalName name) : (n.put p new).Tidy := by
  induction p generalizing n with
  | nil => exact hnew
  | cons name p ih =>
      have hchild : ((n.entry? name).getD (.directory [])).Tidy := by
        cases hentry : n.entry? name with
        | none => exact tidy_empty
        | some m => exact (h.entry? hentry).2
      rw [List.forall_mem_cons] at hp
      rw [Node.put]
      exact h.entries.insertEntry hp.1 (ih hchild hp.2)

theorem Tidy.erase {n : Node} (h : n.Tidy) (p : List String) : (n.erase p).Tidy := by
  induction p generalizing n with
  | nil => exact h
  | cons name p ih =>
      cases p with
      | nil =>
          cases h with
          | directory hnames hsorted hbelow =>
              rw [erase_name]
              exact .directory (fun e he => hnames e (List.mem_filter.mp he).1)
                (hsorted.filter _) fun e he => hbelow e (List.mem_filter.mp he).1
          | file content => exact .file content
          | link target => exact .link target
          | pipe => exact .pipe
      | cons x p =>
          rw [erase_below]
          cases hentry : n.entry? name with
          | none => exact h
          | some m =>
              obtain ⟨hname, hm⟩ := h.entry? hentry
              exact h.entries.insertEntry hname (ih hm)

end Node

/-! ## Walks -/

theorem visitsOf_eq (enters : String → Bool) (path : List String) (es : Entries) :
    visitsOf enters path es = es.flatMap fun e =>
      if e.2.isDirectory && !enters e.1 then []
      else ⟨path ++ [e.1], e.2⟩ :: visits enters (path ++ [e.1]) e.2 := by
  induction es with
  | nil => rfl
  | cons e es ih =>
      rw [visitsOf, ih]
      rfl

/-- Whoever comes to a node has entered the directories above it, and it if it is one. -/
structure Entered (enters : String → Bool) (names : List String) (n : Node) : Prop where
  above : ∀ name ∈ names.dropLast, enters name = true
  self : n.isDirectory = true → ∀ name ∈ names, enters name = true

theorem entered_cons {enters : String → Bool} {name : String} {names : List String}
    (hne : names ≠ []) {n : Node} :
    Entered enters (name :: names) n ↔ enters name = true ∧ Entered enters names n := by
  constructor
  · intro h
    have habove := h.above
    rw [List.dropLast_cons_of_ne_nil hne, List.forall_mem_cons] at habove
    exact ⟨habove.1, habove.2, fun hdir => (List.forall_mem_cons.mp (h.self hdir)).2⟩
  · rintro ⟨hname, h⟩
    refine ⟨?_, fun hdir => List.forall_mem_cons.mpr ⟨hname, h.self hdir⟩⟩
    rw [List.dropLast_cons_of_ne_nil hne]
    exact List.forall_mem_cons.mpr ⟨hname, h.above⟩

/-- Where there is no directory, a walk ends, and no names lead on. -/
theorem mem_visits_leaf {enters : String → Bool} {n : Node} (hn : n.isDirectory = false)
    {path : List String} (hvisits : visits enters path n = []) (v : Visit) :
    v ∈ visits enters path n ↔ ∃ names, v.path = path ++ names ∧ names ≠ [] ∧
      n.get? names = some v.node ∧ Entered enters names v.node := by
  rw [hvisits]
  refine ⟨nofun, ?_⟩
  rintro ⟨names, -, hne, hget, -⟩
  obtain ⟨es, rfl⟩ := Node.exists_directory_of_get? hne hget
  cases hn

/-- A walk comes across what names lead to through directories that are entered. -/
theorem mem_visits {enters : String → Bool} {n : Node} (h : n.Tidy) (path : List String)
    (v : Visit) : v ∈ visits enters path n ↔
      ∃ names, v.path = path ++ names ∧ names ≠ [] ∧ n.get? names = some v.node ∧
        Entered enters names v.node := by
  induction h generalizing path with
  | directory hnames hsorted hbelow ih =>
      rw [visits, visitsOf_eq, List.mem_flatMap]
      constructor
      · rintro ⟨⟨name, m⟩, hmem, hv⟩
        have hentry := Node.entry?_of_mem hsorted hmem
        split at hv
        · cases hv
        · next hcond =>
            have henters : m.isDirectory = true → enters name = true := by
              intro hdir
              simpa [hdir] using hcond
            rcases List.mem_cons.mp hv with rfl | hv
            · refine ⟨[name], rfl, by simp, by simp [Node.get?_cons, hentry], nofun, ?_⟩
              simpa using henters
            · obtain ⟨names, hpath, hne, hget, hentered⟩ := (ih _ hmem _).mp hv
              refine ⟨name :: names, by simp [hpath], by simp, by simpa [Node.get?_cons, hentry],
                (entered_cons hne).mpr ⟨henters ?_, hentered⟩⟩
              obtain ⟨es, rfl⟩ := Node.exists_directory_of_get? hne hget
              rfl
      · rintro ⟨names, hpath, hne, hget, hentered⟩
        obtain ⟨name, rest, rfl⟩ := List.exists_cons_of_ne_nil hne
        obtain ⟨-, m, -, hentry, hget⟩ := Node.get?_cons_eq_some hget
        obtain ⟨es', hes', hmem⟩ := Node.entry?_eq_some hentry
        obtain rfl := Node.directory.inj hes'
        refine ⟨(name, m), hmem, ?_⟩
        by_cases hrest : rest = []
        · subst hrest
          obtain rfl : m = v.node := Option.some.inj hget
          have hcond : ¬ (v.node.isDirectory && !enters name) = true := by
            intro hcond
            simp only [Bool.and_eq_true] at hcond
            have henters := hentered.self hcond.1 name List.mem_cons_self
            simp [henters] at hcond
          rw [if_neg hcond]
          obtain ⟨vpath, vnode⟩ := v
          exact hpath ▸ List.mem_cons_self
        · obtain ⟨henters, hentered⟩ := (entered_cons hrest).mp hentered
          rw [if_neg (by simp [henters])]
          exact List.mem_cons_of_mem _
            ((ih _ hmem _).mpr ⟨rest, by simpa using hpath, hrest, hget, hentered⟩)
  | file content => exact mem_visits_leaf rfl rfl v
  | link target => exact mem_visits_leaf rfl rfl v
  | pipe => exact mem_visits_leaf rfl rfl v

end RuleScan.Disk
