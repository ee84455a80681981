import RuleScan.Proofs.Engine.Crew
import RuleScan.Proofs.Engine.Separation

/-!
# One content for every file

The tasks of an evaluation search side by side, and they share one reader.  Meanwhile others write,
make and remove files.  Whichever task asks for a path first loads it; who asks for it later waits
until it is loaded and gets the same.

## The model

`Readers` is what the tasks share: the disk AS IT IS NOW, the reader, who is loading which path, and
how far every task is.  `Readers.Step` says what can happen next.  The disk may become any other one
at any moment, also between the claim of a path and the end of its load, so a load can give whatever
a file system makes of it: an old content, a new one or a mixture.  Of the reader nothing but
`FileReader.read` is used.

## What is proved

  * `Readers.Reachable.sound` — the invariant: every path is loaded ONCE, every read has given what
    that load gave, and a task has found what is in the contents that were loaded;
  * `Readers.Sound.searched` — so when the tasks have ended, they have found what they would have
    found in files that nobody touched;
  * `Readers.exists_complete` — and they can always come to their end: no task waits for ever;
  * `Readers.result_eq` — together: the result is that of an evaluation of ONE content for every
    file, the one that its first load gave.

An evaluation that is interrupted has no result, so nothing interrupts the tasks here.
-/

namespace RuleScan

open RuleScan.Text (Bytes)

namespace Engine

/-! ## Tasks with one reader -/

/-- How far a task is. -/
inductive Progress where
  | waiting
  /-- The paths that are left, and what was found in the others. -/
  | searching (left : List String) (found : List Match)
  | ended (found : List Match)

/-- What the tasks share. -/
structure Readers where
  disk : Disk
  reader : FileReader
  /-- Who is loading a path. -/
  loading : String → Option TaskId := fun _ => none
  progress : TaskId → Progress := fun _ => .waiting
  /-- What loads have given, the first one first. -/
  loads : List (String × Option Bytes) := []
  /-- What reads have given. -/
  reads : List (String × Option Bytes) := []

namespace Readers

/-- With another state of a task. -/
def put (c : Readers) (t : TaskId) (p : Progress) : Readers :=
  { c with progress := fun u => if u = t then p else c.progress u }

/-- With another one who loads a path. -/
def hold (c : Readers) (path : String) (t : Option TaskId) : Readers :=
  { c with loading := fun p => if p = path then t else c.loading p }

/-- When a path has been loaded. -/
def load (c : Readers) (path : String) : Readers :=
  { c.hold path none with
    reader := (c.reader.read c.disk path).2
    loads := c.loads ++ [(path, (c.reader.read c.disk path).1)] }

/-- When a task has read a path and searched what it got. -/
def read (c : Readers) (t : TaskId) (m : Matcher) (path : String) (left : List String)
    (found : List Match) : Readers :=
  { c.put t (.searching left (found ++ matchesIn (fun p => (c.reader.read c.disk p).1) m path)) with
    reads := c.reads ++ [(path, (c.reader.read c.disk path).1)] }

/-- Whether the reader remembers a path. -/
def Remembers (c : Readers) (path : String) : Prop := path ∈ c.reader.seen.map Prod.fst

/-- What can happen next. -/
inductive Step (w : Work) : Readers → Readers → Prop
  | change {c : Readers} (d : Disk) : Step w c { c with disk := d }
  | start {c : Readers} {t : TaskId} {task : List String × Matcher} : w.taskAt? t = some task →
      task.1 ≠ [] → c.progress t = .waiting → Step w c (c.put t (.searching task.1 []))
  | claim {c : Readers} {t : TaskId} {path : String} {left : List String} {found : List Match} :
      c.progress t = .searching (path :: left) found → ¬ c.Remembers path →
      c.loading path = none → Step w c (c.hold path (some t))
  | load {c : Readers} {t : TaskId} {path : String} : c.loading path = some t →
      Step w c (c.load path)
  | read {c : Readers} {t : TaskId} {task : List String × Matcher} {path : String}
      {left : List String} {found : List Match} : w.taskAt? t = some task →
      c.progress t = .searching (path :: left) found → c.Remembers path →
      Step w c (c.read t task.2 path left found)
  | finish {c : Readers} {t : TaskId} {found : List Match} : c.progress t = .searching [] found →
      Step w c (c.put t (.ended found))

/-- A reader that has read nothing, with the disk as it is at first. -/
def start (w : Work) : Readers :=
  { disk := w.disk, reader := FileReader.make w.engine.root w.engine.maxFileSize }

/-- What tasks and others can come to. -/
def Reachable (w : Work) (c : Readers) : Prop := Relation.ReflTransGen (Step w) (start w) c

/-- A task with files has ended; one without is not started. -/
def Done (w : Work) (c : Readers) (t : TaskId) : Prop :=
  ∀ task, w.taskAt? t = some task → task.1 ≠ [] → ∃ found, c.progress t = .ended found

/-- All tasks are done. -/
def Complete (w : Work) (c : Readers) : Prop := ∀ t, c.Done w t

/-- What the first load of a path gave. -/
def first? (c : Readers) (path : String) : Option (Option Bytes) :=
  (c.loads.find? (·.1 = path)).map (·.2)

/-- The tasks that have ended, with what they found. -/
def crew (c : Readers) : Crew where
  job t := match c.progress t with
    | .ended found => .ended (.ok (.ok found))
    | _ => .waiting

/-- What comes out when the tasks have ended. -/
def result (w : Work) (known : List String) (c : Readers) : Evaluation :=
  conclude w.engine.effectiveMarker known (w.plans.zipIdx.map c.crew.searched)

/-! ## What holds of all readers -/

/-- Contents of files that all loads so far are in line with. -/
def Agrees (c : Readers) (fixed : String → Option Bytes) : Prop :=
  ∀ path content, c.first? path = some content → fixed path = content

/-- A task has found what is in the files before those that are left. -/
def FoundBefore (w : Work) (c : Readers) (t : TaskId) (left : List String)
    (found : List Match) : Prop :=
  ∃ before m, w.taskAt? t = some (before ++ left, m) ∧
    ∀ fixed, c.Agrees fixed → found = before.flatMap (matchesIn fixed m)

/-- What a task has found, as far as it is. -/
def Found (w : Work) (c : Readers) (t : TaskId) : Progress → Prop
  | .waiting => True
  | .searching left found => c.FoundBefore w t left found
  | .ended found => c.FoundBefore w t [] found

/-- Every path is loaded once, and all that is read and found is of these loads. -/
structure Sound (w : Work) (c : Readers) : Prop where
  seen : c.reader.seen = c.loads.reverse
  distinct : (c.loads.map Prod.fst).Nodup
  /-- Who loads a path needs it next, and nobody has loaded it before. -/
  loading : ∀ path t, c.loading path = some t → ¬ c.Remembers path ∧
    ∃ left found, c.progress t = .searching (path :: left) found
  reads : ∀ r ∈ c.reads, r ∈ c.loads
  found : ∀ t, c.Found w t (c.progress t)

variable {w : Work} {c c' : Readers}

@[simp] theorem progress_put (c : Readers) (t u : TaskId) (p : Progress) :
    (c.put t p).progress u = if u = t then p else c.progress u := rfl

@[simp] theorem loading_hold (c : Readers) (path p : String) (t : Option TaskId) :
    (c.hold path t).loading p = if p = path then t else c.loading p := rfl

theorem sound_start (w : Work) : (start w).Sound w where
  seen := rfl
  distinct := List.nodup_nil
  loading := fun _ _ h => by cases h
  reads := fun _ h => by cases h
  found := fun _ => trivial

/-! ### Loads -/

/-- With different paths, every load is the first of its path. -/
theorem first?_of_mem (hdistinct : (c.loads.map Prod.fst).Nodup) {path : String}
    {content : Option Bytes} (h : (path, content) ∈ c.loads) : c.first? path = some content := by
  rw [first?]
  cases hfind : c.loads.find? (·.1 = path) with
  | none => exact absurd (List.find?_eq_none.mp hfind _ h) (by simp)
  | some r =>
      have hpath : r.1 = path := by simpa using List.find?_some hfind
      have hr : r = (path, content) :=
        List.inj_on_of_nodup_map hdistinct (List.mem_of_find?_eq_some hfind) h hpath
      rw [hr]
      rfl

/-- Whatever comes next, what was loaded stays loaded. -/
theorem loads_of_steps (h : Relation.ReflTransGen (Step w) c c') :
    ∃ more, c'.loads = c.loads ++ more := by
  induction h with
  | refl => exact ⟨[], by rw [List.append_nil]⟩
  | tail _ hstep ih =>
      obtain ⟨more, hmore⟩ := ih
      cases hstep with
      | @load _ path _ => exact ⟨more ++ [(path, _)], by rw [← List.append_assoc, ← hmore]; rfl⟩
      | _ => exact ⟨more, hmore⟩

/-- What is the first load of a path stays it. -/
theorem first?_of_append {more : List (String × Option Bytes)}
    (hloads : c'.loads = c.loads ++ more) {path : String} {content : Option Bytes}
    (h : c.first? path = some content) : c'.first? path = some content := by
  obtain ⟨r, hr, hcontent⟩ := Option.map_eq_some_iff.mp h
  rw [first?, hloads, List.find?_append, hr]
  exact congrArg some hcontent

/-- The contents that were loaded, and none for the paths that were not. -/
theorem agrees_contents (c : Readers) : c.Agrees fun path => (c.first? path).join := by
  intro path content h
  exact congrArg Option.join h

theorem Agrees.of_append {more : List (String × Option Bytes)}
    (hloads : c'.loads = c.loads ++ more) {fixed : String → Option Bytes} (h : c'.Agrees fixed) :
    c.Agrees fixed := by
  exact fun path content hfirst => h path content (first?_of_append hloads hfirst)

/-- More loads change nothing in what has been found. -/
theorem Found.of_append {more : List (String × Option Bytes)}
    (hloads : c'.loads = c.loads ++ more) {t : TaskId} {p : Progress} (h : c.Found w t p) :
    c'.Found w t p := by
  have hbefore : ∀ left found, c.FoundBefore w t left found → c'.FoundBefore w t left found := by
    rintro left found ⟨before, m, htask, hfound⟩
    exact ⟨before, m, htask, fun fixed hfixed => hfound fixed (hfixed.of_append hloads)⟩
  cases p with
  | waiting => trivial
  | searching left found => exact hbefore left found h
  | ended found => exact hbefore [] found h

theorem Sound.remembers_iff (h : c.Sound w) {path : String} :
    c.Remembers path ↔ path ∈ c.loads.map Prod.fst := by
  rw [Remembers, h.seen, List.map_reverse, List.mem_reverse]

/-- Reading what has been loaded gives what the load gave, whatever the disk is now. -/
theorem Sound.read_of_remembers (h : c.Sound w) {path : String} (hpath : c.Remembers path) :
    (path, (c.reader.read c.disk path).1) ∈ c.loads := by
  rw [FileReader.read]
  split
  · next p content hfind =>
      obtain rfl : p = path := by simpa using List.find?_some hfind
      have hmem := List.mem_of_find?_eq_some hfind
      rwa [h.seen, List.mem_reverse] at hmem
  · next hnone =>
      obtain ⟨r, hr, hrpath⟩ := List.mem_map.mp hpath
      exact absurd (List.find?_eq_none.mp hnone r hr) (by simpa using hrpath)

theorem seen_load (hpath : ¬ c.Remembers path) :
    (c.load path).reader.seen = (path, (c.reader.read c.disk path).1) :: c.reader.seen := by
  have hnone : c.reader.seen.find? (·.1 = path) = none := by
    rw [List.find?_eq_none]
    intro r hr hrpath
    exact hpath (List.mem_map.mpr ⟨r, hr, by simpa using hrpath⟩)
  simp only [load, FileReader.read, hnone]

/-- After a load the path is remembered. -/
theorem remembers_load (c : Readers) (path : String) : (c.load path).Remembers path := by
  by_cases hpath : c.Remembers path
  · obtain ⟨r, hr, hrpath⟩ := List.mem_map.mp hpath
    refine List.mem_map.mpr ⟨r, ?_, hrpath⟩
    show r ∈ (c.reader.read c.disk path).2.seen
    rw [FileReader.read]
    split
    · exact hr
    · exact List.mem_cons_of_mem _ hr
  · rw [Remembers, seen_load hpath]
    exact List.mem_cons_self

/-! ### Steps -/

/-- A task that loads nothing may go on. -/
theorem Sound.put {t : TaskId} {p : Progress} (h : c.Sound w)
    (hidle : ∀ path, c.loading path ≠ some t) (hp : c.Found w t p) : (c.put t p).Sound w where
  seen := h.seen
  distinct := h.distinct
  loading := by
    intro path u hu
    have hut : u ≠ t := by
      rintro rfl
      exact hidle path hu
    rw [progress_put, if_neg hut]
    exact h.loading path u hu
  reads := h.reads
  found := by
    intro u
    rw [progress_put]
    split
    · next hut =>
        rw [hut]
        exact hp
    · exact h.found u

/-- A task that needs nothing, or something that is remembered, loads nothing. -/
theorem Sound.idle {t : TaskId} (h : c.Sound w)
    (hnext : ∀ path left found, c.progress t = .searching (path :: left) found →
      c.Remembers path) (path : String) : c.loading path ≠ some t := by
  intro hloading
  obtain ⟨hpath, left, found, hprogress⟩ := h.loading path t hloading
  exact hpath (hnext path left found hprogress)

theorem Sound.claim {t : TaskId} {path : String} {left : List String} {found : List Match}
    (h : c.Sound w) (hprogress : c.progress t = .searching (path :: left) found)
    (hpath : ¬ c.Remembers path) : (c.hold path (some t)).Sound w where
  seen := h.seen
  distinct := h.distinct
  loading := by
    intro p u hu
    rw [loading_hold] at hu
    split at hu
    · next hp =>
        obtain rfl := Option.some.inj hu
        rw [hp]
        exact ⟨hpath, left, found, hprogress⟩
    · exact h.loading p u hu
  reads := h.reads
  found := h.found

theorem Sound.load {t : TaskId} {path : String} (h : c.Sound w)
    (hloading : c.loading path = some t) : (c.load path).Sound w := by
  obtain ⟨hpath, -⟩ := h.loading path t hloading
  constructor
  case seen =>
    rw [seen_load hpath, h.seen, Readers.load, List.reverse_append]
    rfl
  case distinct =>
    rw [Readers.load, List.map_append]
    refine h.distinct.append (List.nodup_singleton _) ?_
    rw [List.map_singleton, List.disjoint_singleton, ← h.remembers_iff]
    exact hpath
  case loading =>
    intro p u hu
    have hhold : (c.hold path none).loading p = some u := hu
    rw [loading_hold] at hhold
    split at hhold
    · cases hhold
    · next hp =>
        obtain ⟨hforgot, hnext⟩ := h.loading p u hhold
        refine ⟨?_, hnext⟩
        rw [Remembers, seen_load hpath, List.map_cons, List.mem_cons, not_or]
        exact ⟨hp, hforgot⟩
  case reads =>
    intro r hr
    exact List.mem_append_left _ (h.reads r hr)
  case found =>
    intro u
    exact Found.of_append rfl (h.found u)

/-- What is found in a content that has been loaded is found in any contents that agree. -/
theorem Sound.matchesIn_eq (h : c.Sound w) {path : String} (hpath : c.Remembers path)
    {fixed : String → Option Bytes} (hfixed : c.Agrees fixed) (m : Matcher) :
    matchesIn (fun p => (c.reader.read c.disk p).1) m path = matchesIn fixed m path := by
  have hsame : (c.reader.read c.disk path).1 = fixed path :=
    (hfixed path _ (first?_of_mem h.distinct (h.read_of_remembers hpath))).symm
  rw [matchesIn, matchesIn, hsame]

theorem Sound.read {t : TaskId} {task : List String × Matcher} {path : String}
    {left : List String} {found : List Match} (h : c.Sound w) (htask : w.taskAt? t = some task)
    (hprogress : c.progress t = .searching (path :: left) found) (hpath : c.Remembers path) :
    (c.read t task.2 path left found).Sound w := by
  have hidle : ∀ p, c.loading p ≠ some t := by
    refine h.idle fun p left' found' hp => ?_
    rw [hprogress] at hp
    cases hp
    exact hpath
  have hfound : c.Found w t (c.progress t) := h.found t
  rw [hprogress] at hfound
  obtain ⟨before, m, hat, hbefore⟩ := hfound
  obtain rfl : task = (before ++ path :: left, m) := Option.some.inj (htask.symm.trans hat)
  have hput := h.put hidle (p := .searching left
    (found ++ matchesIn (fun p => (c.reader.read c.disk p).1) m path)) ?_
  · refine ⟨hput.seen, hput.distinct, hput.loading, ?_, hput.found⟩
    intro r hr
    rcases List.mem_append.mp hr with hr | hr
    · exact h.reads r hr
    · rw [List.mem_singleton.mp hr]
      exact h.read_of_remembers hpath
  · refine ⟨before ++ [path], m, by rw [hat, List.append_assoc]; rfl, fun fixed hfixed => ?_⟩
    rw [List.flatMap_append, List.flatMap_singleton, ← hbefore fixed hfixed,
      h.matchesIn_eq hpath hfixed]

theorem Sound.step (h : c.Sound w) (hstep : Step w c c') : c'.Sound w := by
  cases hstep with
  | change d => exact ⟨h.seen, h.distinct, h.loading, h.reads, h.found⟩
  | @start t task htask _ hwaiting =>
      refine h.put (h.idle fun path left found hp => ?_) ?_
      · rw [hwaiting] at hp
        cases hp
      · exact ⟨[], task.2, htask, fun _ _ => rfl⟩
  | claim hprogress hpath _ => exact h.claim hprogress hpath
  | load hloading => exact h.load hloading
  | read htask hprogress hpath => exact h.read htask hprogress hpath
  | @finish t found hprogress =>
      refine h.put (h.idle fun path left found hp => ?_) ?_
      · rw [hprogress] at hp
        cases hp
      · have hfound := h.found t
        rwa [hprogress] at hfound

theorem Reachable.sound (h : Reachable w c) : c.Sound w := by
  induction h with
  | refl => exact sound_start w
  | tail _ hstep ih => exact ih.step hstep

/-! ## Readers that have done all -/

section Complete

variable {fixed : String → Option Bytes}

theorem Sound.outcome (h : c.Sound w) (hcomplete : c.Complete w) (hfixed : c.Agrees fixed)
    {t : TaskId} {paths : List String} {m : Matcher} (htask : w.taskAt? t = some (paths, m)) :
    c.crew.outcome t = nativeOutcome fixed paths m := by
  have hfound := h.found t
  by_cases hended : ∃ found, c.progress t = .ended found
  · obtain ⟨found, hprogress⟩ := hended
    rw [hprogress] at hfound
    obtain ⟨before, m', hat, hbefore⟩ := hfound
    rw [List.append_nil, htask] at hat
    obtain ⟨rfl, rfl⟩ := Prod.mk.inj (Option.some.inj hat)
    rw [Crew.outcome, nativeOutcome, ← hbefore fixed hfixed]
    simp only [crew, hprogress]
  · -- Only a task without files has not ended; nothing is put down for it.
    have hpaths : paths = [] := by
      by_contra hne
      exact hended (hcomplete t _ htask hne)
    rw [hpaths, Crew.outcome]
    cases hprogress : c.progress t with
    | waiting => simp only [crew, hprogress]; rfl
    | searching left found => simp only [crew, hprogress]; rfl
    | ended found => exact absurd ⟨found, hprogress⟩ hended

/-- What is done to every element with its number, if the number does not matter. -/
theorem map_zipIdx_eq {α β : Type} {l : List α} {f : α × ℕ → β} {g : α → β}
    (h : ∀ a i, l[i]? = some a → f (a, i) = g a) : l.zipIdx.map f = l.map g := by
  have hfst : ∀ p ∈ l.zipIdx, f p = (g ∘ Prod.fst) p :=
    fun p hp => h p.1 p.2 (List.mem_zipIdx_iff_getElem?.mp hp)
  rw [List.map_congr_left hfst, ← List.map_map, List.zipIdx_map_fst]

/-- The tasks have found what there is to find in the contents that were loaded first. -/
theorem Sound.searched (h : c.Sound w) (hcomplete : c.Complete w) (hfixed : c.Agrees fixed)
    {p : Plan} {i : Nat} (hp : w.plans[i]? = some p) :
    c.crew.searched (p, i) = nativeSearched fixed p := by
  have htasks : ∀ part, c.crew.tasks i part (p.matchers part) =
      (p.matchers part).map fun m => (m, nativeOutcome fixed p.paths m) := by
    intro part
    refine map_zipIdx_eq fun m j hm => ?_
    have htask : w.taskAt? ⟨i, part, j⟩ = some (p.paths, m) := by simp [Work.taskAt?, hp, hm]
    exact congrArg (Prod.mk m) (h.outcome hcomplete hfixed htask)
  rw [Crew.searched, nativeSearched]
  exact congrArg₂ _ (htasks .any) (htasks .all)

theorem Sound.result (h : c.Sound w) (hcomplete : c.Complete w) (hfixed : c.Agrees fixed)
    (known : List String) : c.result w known =
      conclude w.engine.effectiveMarker known (w.plans.map (nativeSearched fixed)) := by
  rw [Readers.result, map_zipIdx_eq fun p i hp => h.searched hcomplete hfixed hp]

end Complete

/-! ## No task waits for ever -/

/-- Whoever is loading a path can end it, so what a task needs next can be had. -/
theorem exists_remembers (w : Work) {t : TaskId} {path : String} {left : List String}
    {found : List Match} (hprogress : c.progress t = .searching (path :: left) found) :
    ∃ c', Relation.ReflTransGen (Step w) c c' ∧ c'.Remembers path ∧
      c'.progress = c.progress := by
  by_cases hpath : c.Remembers path
  · exact ⟨c, .refl, hpath, rfl⟩
  · cases hloading : c.loading path with
    | some u => exact ⟨c.load path, .single (.load hloading), remembers_load c path, rfl⟩
    | none =>
        have hclaim : Step w c (c.hold path (some t)) := .claim hprogress hpath hloading
        have hload : Step w (c.hold path (some t)) ((c.hold path (some t)).load path) :=
          .load (if_pos rfl)
        exact ⟨_, (Relation.ReflTransGen.single hclaim).tail hload, remembers_load _ path, rfl⟩

/-- A task that searches can come to its end, by induction on the paths that are left. -/
theorem exists_ended_of_searching {t : TaskId} {task : List String × Matcher}
    (htask : w.taskAt? t = some task) {left : List String} {found : List Match}
    (hprogress : c.progress t = .searching left found) :
    ∃ c', Relation.ReflTransGen (Step w) c c' ∧ (∃ found, c'.progress t = .ended found) ∧
      ∀ u, u ≠ t → c'.progress u = c.progress u := by
  induction left generalizing c found with
  | nil =>
      refine ⟨_, .single (.finish hprogress), ⟨found, by simp⟩, fun u hu => ?_⟩
      rw [progress_put, if_neg hu]
  | cons path left ih =>
      obtain ⟨c₁, hsteps, hpath, hsame⟩ := exists_remembers w hprogress
      have hread : Step w c₁ (c₁.read t task.2 path left found) :=
        .read htask (by rw [hsame, hprogress]) hpath
      obtain ⟨c₂, hsteps', hended, hothers⟩ := ih (c := c₁.read t task.2 path left found)
        (show (c₁.put t _).progress t = _ from if_pos rfl)
      refine ⟨c₂, (hsteps.tail hread).trans hsteps', hended, fun u hu => ?_⟩
      rw [hothers u hu, ← hsame]
      exact if_neg hu

theorem exists_ended (w : Work) (c : Readers) {t : TaskId} {task : List String × Matcher}
    (htask : w.taskAt? t = some task) (hpaths : task.1 ≠ []) :
    ∃ c', Relation.ReflTransGen (Step w) c c' ∧ (∃ found, c'.progress t = .ended found) ∧
      ∀ u, u ≠ t → c'.progress u = c.progress u := by
  cases hprogress : c.progress t with
  | ended found => exact ⟨c, .refl, ⟨found, hprogress⟩, fun _ _ => rfl⟩
  | searching left found => exact exists_ended_of_searching htask hprogress
  | waiting =>
      have hstart : Step w c (c.put t (.searching task.1 [])) := .start htask hpaths hprogress
      obtain ⟨c', hsteps, hended, hsame⟩ := exists_ended_of_searching htask
        (show (c.put t (.searching task.1 [])).progress t = _ from if_pos rfl)
      refine ⟨c', hsteps.head hstart, hended, fun u hu => ?_⟩
      rw [hsame u hu, progress_put, if_neg hu]

/-- Whatever has happened so far, the tasks can come to their end. -/
theorem exists_complete (w : Work) (c : Readers) :
    ∃ c', Relation.ReflTransGen (Step w) c c' ∧ c'.Complete w := by
  have heach : ∀ (c : Readers) t, ∃ c', Relation.ReflTransGen (Step w) c c' ∧ c'.Done w t ∧
      ∀ u, c.Done w u → c'.Done w u := by
    intro c t
    by_cases htask : ∃ task, w.taskAt? t = some task ∧ task.1 ≠ []
    · obtain ⟨task, htask, hpaths⟩ := htask
      obtain ⟨c', hsteps, hended, hsame⟩ := exists_ended w c htask hpaths
      refine ⟨c', hsteps, fun _ _ _ => hended, fun u hu task' htask' hpaths' => ?_⟩
      by_cases hut : u = t
      · rw [hut]
        exact hended
      · rw [hsame u hut]
        exact hu task' htask' hpaths'
    · exact ⟨c, .refl, fun task h hpaths => absurd ⟨task, h, hpaths⟩ htask, fun _ h => h⟩
  obtain ⟨c', hsteps, hdone⟩ :=
    Crew.exists_all_of_each heach c (taskIds (w.plans.zipIdx.map c.crew.searched))
  exact ⟨c', hsteps, fun t task htask => hdone t (Crew.mem_taskIds_of_taskAt? htask) task htask⟩

/-! ## Evaluations while files change -/

/-- **An evaluation sees one content of every file**: a path is loaded once, whoever reads it gets
what that load gave, and the result is that of the contents loaded, as if nobody had touched a
file.  A rule that asks for several patterns finds all of them in ONE content. -/
theorem result_eq {w : Work} (hnative : w.engine.searcher = Searcher.native)
    {rules : List Rule} (files : List String) {exclude : List String} {globs : GlobSet}
    {cs : List Rule.Compiled} (hglobs : GlobSet.ofPatterns exclude = .ok globs)
    (hrules : compileRules rules = .ok cs)
    (hplans : w.plans = cs.map (planOf (universeOf globs files))) {c : Readers}
    (h : Reachable w c) :
    ((c.loads.map Prod.fst).Nodup ∧ ∀ r ∈ c.reads, c.first? r.1 = some r.2) ∧
    (∃ c', Relation.ReflTransGen (Step w) c c' ∧ c'.Complete w) ∧
    (c.Complete w →
      (∀ fixed, c.Agrees fixed → c.result w (universeOf globs files) =
        nativeEvaluation w.engine.effectiveMarker fixed (universeOf globs files) cs) ∧
      (∀ d, c.Agrees ((FileReader.make w.engine.root w.engine.maxFileSize).load d) →
        (w.engine.evaluate Signal.quiet d rules (some files) exclude).Returns
          (c.result w (universeOf globs files))) ∧
      ∀ i p, w.plans[i]? = some p →
        ∀ f ∈ allFindings w.engine.effectiveMarker (c.crew.searched (p, i)), ∃ content,
          c.first? f.file = some (some content) ∧ ∀ m ∈ p.rule.allOf, ∃ number column text,
            m.HitsOn w.engine.effectiveMarker content number column text) := by
  have hsound := h.sound
  have hresult : c.Complete w → ∀ fixed, c.Agrees fixed →
      c.result w (universeOf globs files) =
        nativeEvaluation w.engine.effectiveMarker fixed (universeOf globs files) cs := by
    intro hcomplete fixed hfixed
    rw [hsound.result hcomplete hfixed, hplans, nativeEvaluation, List.map_map]
    rfl
  refine ⟨⟨hsound.distinct, fun r hr => first?_of_mem hsound.distinct (hsound.reads r hr)⟩,
    exists_complete w c, fun hcomplete => ⟨hresult hcomplete, fun d hd => ?_,
      fun i p hp f hf => ?_⟩⟩
  · rw [hresult hcomplete _ hd]
    exact returns_evaluate hnative d files hglobs hrules
  · rw [hsound.searched hcomplete c.agrees_contents hp] at hf
    obtain ⟨file, -, content, hread, number, column, ⟨-, hall, -⟩, hkey⟩ :=
      mem_places_allFindings.mp (List.mem_map_of_mem hf)
    obtain rfl : f.file = file := congrArg (·.2.1) hkey
    exact ⟨content, Option.join_eq_some_iff.mp hread, hall⟩

/-! ## A file that is removed

One task of the sample loads the file, then it is removed, and the others still find it. -/

/-- The rule of the sample, on its file. -/
def sampleWork (c : Rule.Compiled) : Work where
  engine := { marker := "!" }
  disk := sampleDisk
  plans := [planOf ["f"] c]
  programs := {}

/-- After the first load, with the file gone. -/
def removed (c : Rule.Compiled) (t : TaskId) : Readers :=
  { ((((start (sampleWork c)).put t (.searching ["f"] [])).hold "f" (some t)).load "f") with
    disk := {} }

theorem reachable_removed {c : Rule.Compiled} {t : TaskId} {m : Matcher}
    (htask : (sampleWork c).taskAt? t = some (["f"], m)) :
    Reachable (sampleWork c) (removed c t) := by
  have hstart : Step (sampleWork c) (start (sampleWork c))
      ((start (sampleWork c)).put t (.searching ["f"] [])) :=
    .start htask (List.cons_ne_nil _ _) rfl
  have hclaim : Step (sampleWork c) ((start (sampleWork c)).put t (.searching ["f"] []))
      (((start (sampleWork c)).put t (.searching ["f"] [])).hold "f" (some t)) :=
    .claim (if_pos rfl) List.not_mem_nil rfl
  exact (((Relation.ReflTransGen.single hstart).tail hclaim).tail (.load (if_pos rfl))).tail
    (.change {})

theorem taskAt?_sampleWork {c : Rule.Compiled} (hc : sampleRule.compile = .ok c) :
    ∃ m, (sampleWork c).taskAt? ⟨0, .all, 0⟩ = some (["f"], m) := by
  obtain ⟨hrule, -, -, hall⟩ := Rule.compile_inv hc
  have hpaths : (planOf ["f"] c).paths = ["f"] := by
    have hmem : "f" ∈ (planOf ["f"] c).paths :=
      (mem_planOf_paths (by rw [hrule, hc])).mpr
        ⟨List.mem_singleton_self _, by rw [hrule]; exact ⟨_, rfl, by decide⟩⟩
    exact List.filter_eq_self.mpr fun name hname =>
      (List.mem_singleton.mp hname) ▸ (List.mem_filter.mp hmem).2
  obtain ⟨m, ms, -, -, hms⟩ := mapM_cons_inv
    (show [Pattern.literal "a", .literal "a"].mapM Pattern.compile = .ok c.allOf from hall)
  have hmatchers : ((planOf ["f"] c).matchers .all)[0]? = some m := by
    show c.allOf[0]? = _
    rw [hms]
    rfl
  refine ⟨m, ?_⟩
  show ((planOf ["f"] c).matchers .all)[0]?.bind
    (fun m => some ((planOf ["f"] c).paths, m)) = some (["f"], m)
  rw [hmatchers, hpaths]
  rfl

theorem result_of_removed :
    ∃ c, sampleRule.compile = .ok c ∧
      ∃ r, Relation.ReflTransGen (Step (sampleWork c)) (removed c ⟨0, .all, 0⟩) r ∧
        Reachable (sampleWork c) r ∧ r.Complete (sampleWork c) ∧
        ("r", "f", 1, 1) ∈ (r.result (sampleWork c) ["f"]).findings.map Finding.key := by
  obtain ⟨c, hc⟩ : ∃ c, sampleRule.compile = .ok c := ⟨_, rfl⟩
  have hcs : compileRules [sampleRule] = .ok [c] := by
    rw [compileRules, hc]
    rfl
  have hglobs : GlobSet.ofPatterns [] = .ok [] := rfl
  have hfiles : universeOf [] ["f"] = ["f"] := by
    rw [universeOf_singleton]
    decide
  obtain ⟨m, htask⟩ := taskAt?_sampleWork hc
  have hremoved := reachable_removed htask
  obtain ⟨-, ⟨r, hsteps, hcomplete⟩, -⟩ := result_eq (w := sampleWork c) rfl ["f"] hglobs hcs
    (by rw [hfiles]; rfl) hremoved
  have hr : Reachable (sampleWork c) r := hremoved.trans hsteps
  obtain ⟨-, -, hresult⟩ := result_eq (w := sampleWork c) rfl ["f"] hglobs hcs
    (by rw [hfiles]; rfl) hr
  refine ⟨c, hc, r, hsteps, hr, hcomplete, ?_⟩
  -- What was loaded before the file was removed is what was loaded first.
  obtain ⟨more, hmore⟩ := loads_of_steps hsteps
  have hfirst : r.first? "f" = some
      ((FileReader.make "." defaultMaxSize).load sampleDisk "f") :=
    first?_of_append hmore (first?_of_mem hremoved.sound.distinct List.mem_cons_self)
  have heq := (hresult hcomplete).1 _ r.agrees_contents
  rw [hfiles] at heq
  rw [heq, nativeEvaluation_congr _ ?_ [c]]
  · exact mem_places_sample hc
  · intro name hname
    rw [List.mem_singleton.mp hname, hfirst]
    rfl

end Readers

end Engine

end RuleScan
