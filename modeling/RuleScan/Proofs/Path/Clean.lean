import Mathlib.Data.List.Basic
import RuleScan.Proofs.Disk.Names

/-!
# Clean paths

Cleaning a path keeps its names, but for those that a `..` behind them takes back.

## What is proved

  * `clean_ne_empty`, `clean_clean` — a clean path is not empty, and cleaning it changes nothing;
  * `names_clean`, `names_join`, `names_dir` — the names of a clean path, those of a path with a
    name joined to it, and those of the directory above;
  * `withoutHere_clean` — there is no `./` in front of a clean path that could be dropped;
  * `mem_clean` — the characters of a clean path are those of the path, or slashes and dots;
  * `Spelling.clean_spell` — cleaning sees slashes and dots and nothing else, so the characters can
    be spelled in another way before it or after it.

## How the argument goes

What is kept are names, BEHIND some `..` that had no name to take back, and at the root there are
none of these (`Settled`).  One step of cleaning preserves that, so the walk over all pieces does.
Read once more, each of those pieces is kept as it is: a `..` has no name before it, and a name is
always kept.
-/

namespace RuleScan.Path

/-! ## The pieces of a clean path -/

/-- The pieces that are kept, the last one first: names behind some `..`, none of them at the
root. -/
def Settled (rooted : Bool) (acc : List String) : Prop :=
  ∃ names n, acc = names ++ List.replicate n ".." ∧ (∀ m ∈ names, IsName m) ∧
    (rooted = true → n = 0)

theorem settled_cleanStep {rooted : Bool} {acc : List String} (h : Settled rooted acc)
    {segment : String} (hslash : '/' ∉ segment.toList) :
    Settled rooted (cleanStep rooted acc segment) := by
  obtain ⟨names, n, rfl, hnames, hroot⟩ := h
  unfold cleanStep
  split
  · exact ⟨names, n, rfl, hnames, hroot⟩
  · next hblank =>
      simp only [Bool.or_eq_true, decide_eq_true_eq, not_or] at hblank
      split
      · cases names with
        | nil =>
            -- nothing to take back
            cases n with
            | zero =>
                cases rooted with
                | true => exact ⟨[], 0, rfl, by simp, fun _ => rfl⟩
                | false => exact ⟨[], 1, rfl, by simp, by simp⟩
            | succ n => exact ⟨[], n + 2, rfl, by simp, fun hr => absurd (hroot hr) (by simp)⟩
        | cons m names =>
            obtain ⟨hm, hnames⟩ := List.forall_mem_cons.mp hnames
            simp only [List.cons_append, hm.ne_dots, if_false]
            exact ⟨names, n, rfl, hnames, hroot⟩
      · next hdots =>
          refine ⟨segment :: names, n, rfl, List.forall_mem_cons.mpr ⟨?_, hnames⟩, hroot⟩
          exact ⟨hblank.1, hblank.2, hdots, hslash⟩

theorem settled_foldl_cleanStep {rooted : Bool} {l acc : List String}
    (hl : ∀ s ∈ l, '/' ∉ s.toList) (h : Settled rooted acc) :
    Settled rooted (l.foldl (cleanStep rooted) acc) := by
  induction l generalizing acc with
  | nil => exact h
  | cons s l ih =>
      obtain ⟨hs, hl⟩ := List.forall_mem_cons.mp hl
      exact ih hl (settled_cleanStep h hs)

/-- The pieces of a clean path: some `..`, and names. -/
theorem cleanSegments_eq (path : String) :
    ∃ n names, cleanSegments path = List.replicate n ".." ++ names ∧ (∀ m ∈ names, IsName m) ∧
      (isAbs path = true → n = 0) := by
  obtain ⟨names, n, hacc, hnames, hroot⟩ := settled_foldl_cleanStep
    (fun s => slash_notMem_of_mem_segments) (⟨[], 0, rfl, by simp, fun _ => rfl⟩ :
      Settled (isAbs path) [])
  refine ⟨n, names.reverse, ?_, fun m hm => hnames m (List.mem_reverse.mp hm), hroot⟩
  rw [cleanSegments, hacc, List.reverse_append, List.reverse_replicate]

/-- What is kept is one piece between slashes, and says something. -/
theorem kept_of_mem_cleanSegments {path s : String} (h : s ∈ cleanSegments path) :
    s ≠ "" ∧ s ≠ "." ∧ '/' ∉ s.toList := by
  obtain ⟨n, names, hsegments, hnames, -⟩ := cleanSegments_eq path
  rw [hsegments] at h
  rcases List.mem_append.mp h with h | h
  · rw [List.eq_of_mem_replicate h]
    decide
  · have hname := hnames s h
    exact ⟨hname.ne_empty, hname.ne_dot, hname.slash_notMem⟩

/-! ## Cleaning a clean path -/

theorem segments_intercalate_of_notMem {l : List String} (hne : l ≠ [])
    (h : ∀ s ∈ l, '/' ∉ s.toList) : segments ("/".intercalate l) = l := by
  rw [segments_intercalate hne]
  have hpieces := List.flatMap_congr fun s hs => segments_of_notMem (h s hs)
  exact hpieces.trans (List.flatMap_singleton' l)

/-- In front of the first slash of a full path there is nothing. -/
theorem mem_segments_of_isAbs {path : String} (h : isAbs path = true) : "" ∈ segments path := by
  rw [isAbs, decide_eq_true_eq] at h
  obtain ⟨more, hmore⟩ := List.head?_eq_some_iff.mp h
  rw [segments, hmore, Text.splitWhere_cons_self (by simp)]
  exact List.mem_cons_self

theorem foldl_cleanStep_dots (k n : Nat) :
    (List.replicate n "..").foldl (cleanStep false) (List.replicate k "..") =
      List.replicate (k + n) ".." := by
  induction n generalizing k with
  | zero => rfl
  | succ n ih =>
      have hstep : cleanStep false (List.replicate k "..") ".." = List.replicate (k + 1) ".." := by
        cases k <;> rfl
      rw [List.replicate_succ, List.foldl_cons, hstep, ih, Nat.add_assoc, Nat.add_comm 1 n]

theorem segments_below_cleanSegments {path : String} (hne : cleanSegments path ≠ []) :
    segments (below (cleanSegments path)) = cleanSegments path := by
  rw [below_of_ne_nil hne]
  exact segments_intercalate_of_notMem hne fun s hs => (kept_of_mem_cleanSegments hs).2.2

theorem below_cleanSegments_ne_empty (path : String) : below (cleanSegments path) ≠ "" := by
  intro hempty
  by_cases hne : cleanSegments path = []
  · rw [hne] at hempty
    exact absurd hempty (by decide)
  · have hsegments := segments_below_cleanSegments hne
    rw [hempty] at hsegments
    have hmem : "" ∈ cleanSegments path := by
      rw [← hsegments]
      decide
    exact (kept_of_mem_cleanSegments hmem).1 rfl

theorem isAbs_below_cleanSegments (path : String) : isAbs (below (cleanSegments path)) = false := by
  refine Bool.eq_false_iff.mpr fun habs => ?_
  by_cases hne : cleanSegments path = []
  · rw [hne] at habs
    exact absurd habs (by decide)
  · have hmem := mem_segments_of_isAbs habs
    rw [segments_below_cleanSegments hne] at hmem
    exact (kept_of_mem_cleanSegments hmem).1 rfl

/-- A path that does not start at the root is cleaned to the one below of what is kept. -/
theorem clean_eq_below {path : String} (h : isAbs path = false) :
    clean path = below (cleanSegments path) := by
  by_cases hne : cleanSegments path = []
  · simp [clean, h, hne]
  · have hbody := below_cleanSegments_ne_empty path
    rw [below_of_ne_nil hne] at hbody ⊢
    rw [clean, h]
    simp [hbody]

theorem clean_ne_empty (path : String) : clean path ≠ "" := by
  cases h : isAbs path with
  | true =>
      rw [clean_eq_pathOf h]
      exact String.isEmpty_eq_false_iff.mp (pathOf_ne_empty _)
  | false =>
      rw [clean_eq_below h]
      exact below_cleanSegments_ne_empty path

/-- Cleaning once more keeps all of the pieces. -/
theorem cleanSegments_below {path : String} (hne : cleanSegments path ≠ []) :
    cleanSegments (below (cleanSegments path)) = cleanSegments path := by
  obtain ⟨n, names, hsegments, hnames, -⟩ := cleanSegments_eq path
  rw [cleanSegments, isAbs_below_cleanSegments, segments_below_cleanSegments hne, hsegments,
    List.foldl_append]
  have hdots := foldl_cleanStep_dots 0 n
  rw [List.replicate_zero, Nat.zero_add] at hdots
  rw [hdots, foldl_cleanStep_names _ _ hnames, List.reverse_append, List.reverse_reverse,
    List.reverse_replicate]

theorem isAbs_clean (path : String) : isAbs (clean path) = isAbs path := by
  cases h : isAbs path with
  | true => rw [clean_eq_pathOf h, isAbs_pathOf]
  | false => rw [clean_eq_below h, isAbs_below_cleanSegments]

theorem cleanSegments_clean (path : String) : cleanSegments (clean path) = cleanSegments path := by
  cases h : isAbs path with
  | true => rw [clean_eq_pathOf h, cleanSegments_pathOf (isName_cleanSegments h)]
  | false =>
      rw [clean_eq_below h]
      by_cases hne : cleanSegments path = []
      · rw [hne]
        decide
      · exact cleanSegments_below hne

/-- Cleaning a clean path changes nothing. -/
theorem clean_clean (path : String) : clean (clean path) = clean path := by
  rw [clean, cleanSegments_clean, isAbs_clean, ← clean]

/-- The names of a clean path are the pieces that are kept. -/
theorem names_clean (path : String) : Disk.names (clean path) = cleanSegments path := by
  have hkept : (cleanSegments path).filter (fun s => s ≠ "" && s ≠ ".") = cleanSegments path := by
    refine List.filter_eq_self.mpr fun s hs => ?_
    obtain ⟨hempty, hdot, -⟩ := kept_of_mem_cleanSegments hs
    simp [hempty, hdot]
  rw [Disk.names]
  by_cases hne : cleanSegments path = []
  · cases h : isAbs path with
    | true =>
        rw [clean_eq_pathOf h, hne]
        decide
    | false =>
        rw [clean_eq_below h, hne]
        decide
  · cases h : isAbs path with
    | true =>
        rw [clean_eq_pathOf h, segments_pathOf (isName_cleanSegments h), if_neg hne,
          List.filter_cons_of_neg (by simp), hkept]
    | false => rw [clean_eq_below h, segments_below_cleanSegments hne, hkept]

/-- A clean path asks for a directory only if nothing is kept of it. -/
theorem asksDirectory_clean {path : String} (h : cleanSegments path ≠ []) :
    asksDirectory (clean path) = false := by
  obtain ⟨hempty, hdot, -⟩ := kept_of_mem_cleanSegments (List.getLast_mem h)
  have hlast : (segments (clean path)).getLast? = some ((cleanSegments path).getLast h) := by
    cases habs : isAbs path with
    | true =>
        rw [clean_eq_pathOf habs, segments_pathOf (isName_cleanSegments habs), if_neg h,
          List.getLast?_cons_of_ne_nil h, List.getLast?_eq_some_getLast h]
    | false =>
        rw [clean_eq_below habs, segments_below_cleanSegments h, List.getLast?_eq_some_getLast h]
  rw [asksDirectory, hlast]
  simp [hempty, hdot]

/-- A clean path does not start with `./`. -/
theorem stripFront?_clean (path : String) : Text.stripFront? "./" (clean path) = none := by
  rw [Text.stripFront?, if_neg]
  intro hfront
  obtain ⟨more, hmore⟩ := List.isPrefixOf_iff_prefix.mp hfront
  have hpath : clean path = "." ++ "/" ++ String.ofList more := by
    rw [← String.toList_inj, ← hmore]
    simp
  have hdot : "." ∈ segments (clean path) := by
    rw [hpath, segments_append]
    exact List.mem_append_left _ (by decide)
  cases h : isAbs path with
  | true =>
      have habs := isAbs_pathOf (cleanSegments path)
      rw [← clean_eq_pathOf h, isAbs, ← hmore] at habs
      simp at habs
  | false =>
      rw [clean_eq_below h] at hmore hdot
      by_cases hne : cleanSegments path = []
      · rw [hne] at hmore
        simp at hmore
      · rw [segments_below_cleanSegments hne] at hdot
        exact (kept_of_mem_cleanSegments hdot).2.1 rfl

@[simp] theorem withoutHere_clean (path : String) : withoutHere (clean path) = clean path := by
  rw [withoutHere, stripFront?_clean, Option.getD_none]

/-! ## The last name of a path -/

section Last

variable {start name : String} (hstart : IsFront start)
include hstart

/-- A text without slashes takes the place of the last piece, which is empty. -/
theorem exists_pieces (hname : '/' ∉ name.toList) :
    ∃ pieces, segments start = pieces ++ [""] ∧ segments (start ++ name) = pieces ++ [name] := by
  rcases hstart with hnil | ⟨start', hslash⟩
  · obtain rfl := String.toList_eq_nil_iff.mp hnil
    refine ⟨[], by decide, ?_⟩
    rw [String.empty_append]
    exact segments_of_notMem hname
  · obtain rfl : start = String.ofList start' ++ "/" ++ "" := by
      rw [← String.toList_inj, hslash]
      simp
    refine ⟨segments (String.ofList start'), segments_append _ _, ?_⟩
    rw [String.append_empty, segments_append, segments_of_notMem hname]

theorem names_start (hname : '/' ∉ name.toList) (hne : name ≠ "") (hdot : name ≠ ".") :
    Disk.names (start ++ name) = Disk.names start ++ [name] := by
  obtain ⟨pieces, hpieces, hall⟩ := exists_pieces hstart hname
  rw [Disk.names, Disk.names, hall, hpieces, List.filter_append, List.filter_append]
  simp [hne, hdot]

omit hstart in
theorem isAbs_start (hname : '/' ∉ name.toList) : isAbs (start ++ name) = isAbs start := by
  rw [isAbs, isAbs, String.toList_append]
  cases hchars : start.toList with
  | nil =>
      cases hcs : name.toList with
      | nil => rfl
      | cons c cs =>
          rw [hcs, List.mem_cons, not_or] at hname
          simp [Ne.symm hname.1]
  | cons c cs => rfl

theorem cleanSegments_start (hname : IsName name) :
    cleanSegments (start ++ name) = cleanSegments start ++ [name] := by
  obtain ⟨pieces, hpieces, hall⟩ := exists_pieces hstart hname.slash_notMem
  have hstep : ∀ rooted acc, cleanStep rooted acc name = name :: acc := by
    intro rooted acc
    simp [cleanStep, hname.ne_empty, hname.ne_dot, hname.ne_dots]
  rw [cleanSegments, cleanSegments, hall, hpieces, isAbs_start hname.slash_notMem,
    List.foldl_append, List.foldl_append]
  simp only [List.foldl_cons, List.foldl_nil, hstep, cleanStep_blank, List.reverse_cons]

end Last

/-- A path that asks for no directory ends with a name, behind a slash or alone. -/
theorem exists_last {path : String} (h : asksDirectory path = false) :
    ∃ start name : String, path = start ++ name ∧ IsFront start ∧ '/' ∉ name.toList ∧
      name ≠ "" ∧ name ≠ "." := by
  let p : Char → Bool := fun c => c ≠ '/'
  have hpath : path = String.ofList (path.toList.reverse.dropWhile p).reverse ++
      String.ofList (path.toList.reverse.takeWhile p).reverse := by
    rw [← String.ofList_append, ← List.reverse_append, List.takeWhile_append_dropWhile,
      List.reverse_reverse, String.ofList_toList]
  have hslash : '/' ∉ (String.ofList (path.toList.reverse.takeWhile p).reverse).toList := by
    intro hmem
    rw [String.toList_ofList, List.mem_reverse] at hmem
    exact absurd (List.all_eq_true.mp List.all_takeWhile _ hmem) (by decide)
  have hstart : IsFront (String.ofList (path.toList.reverse.dropWhile p).reverse) := by
    rw [IsFront, String.toList_ofList]
    cases hdrop : path.toList.reverse.dropWhile p with
    | nil => exact .inl rfl
    | cons c cs =>
        have hc := List.head?_dropWhile_not p path.toList.reverse
        rw [hdrop] at hc
        obtain rfl : c = '/' := by simpa [p] using hc
        exact .inr ⟨cs.reverse, List.reverse_cons⟩
  refine ⟨_, _, hpath, hstart, hslash, ?_⟩
  obtain ⟨pieces, -, hpieces⟩ := exists_pieces hstart hslash
  rw [asksDirectory, hpath, hpieces, List.getLast?_concat] at h
  simpa [not_or] using h

/-- The names of a path with a name joined to it. -/
theorem names_join {path name : String} (h : clean path = path) (hname : IsName name) :
    Disk.names (join [path, name]) = Disk.names path ++ [name] ∧
      isAbs (join [path, name]) = isAbs path ∧ asksDirectory (join [path, name]) = false ∧
      join [path, name] ≠ "" := by
  have hne : path ≠ "" := h ▸ clean_ne_empty path
  have hjoin : join [path, name] = clean (path ++ "/" ++ name) := by
    have hempty := String.isEmpty_eq_false_iff.mpr hne
    have hempty' := String.isEmpty_eq_false_iff.mpr hname.ne_empty
    simp [join, hempty, hempty']
  have hslash : IsFront (path ++ "/") := .inr ⟨path.toList, by simp⟩
  have habs : isAbs (path ++ "/") = isAbs path := by
    obtain ⟨c, cs, hcs⟩ := List.exists_cons_of_ne_nil (mt String.toList_eq_nil_iff.mp hne)
    simp [isAbs, hcs]
  have hkept : cleanSegments (path ++ "/" ++ name) = cleanSegments path ++ [name] := by
    have hblank : segments (path ++ "/") = segments path ++ [""] := by
      rw [← String.append_empty (s := path ++ "/"), segments_append]
      rfl
    rw [cleanSegments_start hslash hname, cleanSegments, cleanSegments, hblank, habs,
      List.foldl_append, List.foldl_cons, cleanStep_blank, List.foldl_nil]
  rw [hjoin]
  refine ⟨?_, ?_, asksDirectory_clean (by simp [hkept]), clean_ne_empty _⟩
  · rw [names_clean, hkept, ← names_clean, h]
  · rw [isAbs_clean, isAbs_start hname.slash_notMem, habs]

/-- The names of the directory above a name; they are those of the path if cleaning the path takes
none of them back. -/
theorem names_dir {start name : String} (hname : IsName name) (hstart : IsFront start)
    (h : Disk.names (clean (start ++ name)) = Disk.names (start ++ name)) :
    Disk.names (dir (start ++ name)) = Disk.names start ∧
      isAbs (dir (start ++ name)) = isAbs start := by
  rw [dir, split_fst hname hstart]
  refine ⟨?_, isAbs_clean start⟩
  rw [names_clean, cleanSegments_start hstart hname,
    names_start hstart hname.slash_notMem hname.ne_empty hname.ne_dot] at h
  rw [names_clean]
  exact List.append_cancel_right h

/-! ## The characters of a clean path -/

theorem mem_of_mem_splitWhere {p : Char → Bool} {cs piece : List Char}
    (h : piece ∈ Text.splitWhere p cs) {c : Char} (hc : c ∈ piece) : c ∈ cs := by
  induction cs generalizing piece with
  | nil =>
      rw [List.mem_singleton.mp h] at hc
      cases hc
  | cons d cs ih =>
      by_cases hd : p d = true
      · rw [Text.splitWhere_cons_self hd] at h
        rcases List.mem_cons.mp h with rfl | h
        · cases hc
        · exact List.mem_cons_of_mem d (ih h hc)
      · obtain ⟨first, more, hsplit⟩ := List.exists_cons_of_ne_nil (Text.splitWhere_ne_nil p cs)
        rw [Text.splitWhere_cons (by simpa using hd) hsplit] at h
        rw [hsplit] at ih
        rcases List.mem_cons.mp h with rfl | h
        · rcases List.mem_cons.mp hc with rfl | hc
          · exact List.mem_cons_self
          · exact List.mem_cons_of_mem d (ih List.mem_cons_self hc)
        · exact List.mem_cons_of_mem d (ih (List.mem_cons_of_mem first h) hc)

theorem mem_cleanStep {rooted : Bool} {acc : List String} {segment s : String}
    (h : s ∈ cleanStep rooted acc segment) : s ∈ acc ∨ s = segment ∨ s = ".." := by
  unfold cleanStep at h
  split at h
  · exact .inl h
  · split at h
    · cases acc with
      | nil => cases rooted <;> simp_all
      | cons last rest =>
          simp only at h
          split at h <;> simp_all
    · rw [List.mem_cons] at h
      exact h.symm.imp_right .inl

/-- Every piece that is kept was there, or is a `..`. -/
theorem mem_segments_of_mem_cleanSegments {path s : String} (h : s ∈ cleanSegments path) :
    s ∈ segments path ∨ s = ".." := by
  have hfold : ∀ (rooted : Bool) (l acc : List String), s ∈ l.foldl (cleanStep rooted) acc →
      s ∈ acc ∨ s ∈ l ∨ s = ".." := by
    intro rooted l
    induction l with
    | nil => exact fun acc h => .inl h
    | cons a l ih =>
        intro acc h
        rcases ih _ h with h | h | h
        · rcases mem_cleanStep h with h | rfl | h
          · exact .inl h
          · exact .inr (.inl List.mem_cons_self)
          · exact .inr (.inr h)
        · exact .inr (.inl (List.mem_cons_of_mem a h))
        · exact .inr (.inr h)
  rw [cleanSegments, List.mem_reverse] at h
  exact (hfold _ _ [] h).resolve_left (by simp)

theorem mem_intercalate {l : List String} {c : Char} (h : c ∈ ("/".intercalate l).toList) :
    c = '/' ∨ ∃ s ∈ l, c ∈ s.toList := by
  induction l with
  | nil => cases h
  | cons a l ih =>
      cases l with
      | nil => exact .inr ⟨a, by simp, by simpa using h⟩
      | cons b l =>
          rw [String.intercalate_cons_of_ne_nil (List.cons_ne_nil b l)] at h
          simp only [String.toList_append, List.mem_append] at h
          rcases h with (h | h) | h
          · exact .inr ⟨a, List.mem_cons_self, h⟩
          · exact .inl (by simpa using h)
          · exact (ih h).imp_right fun ⟨s, hs, hc⟩ => ⟨s, List.mem_cons_of_mem a hs, hc⟩

/-- Cleaning adds no characters but slashes and dots. -/
theorem mem_clean {path : String} {c : Char} (h : c ∈ (clean path).toList) :
    c ∈ path.toList ∨ c = '/' ∨ c = '.' := by
  have hbody : c ∈ ("/".intercalate (cleanSegments path)).toList →
      c ∈ path.toList ∨ c = '/' ∨ c = '.' := by
    intro hc
    rcases mem_intercalate hc with hc | ⟨s, hs, hc⟩
    · exact .inr (.inl hc)
    · rcases mem_segments_of_mem_cleanSegments hs with hs | rfl
      · obtain ⟨piece, hpiece, rfl⟩ := List.mem_map.mp hs
        rw [String.toList_ofList] at hc
        exact .inl (mem_of_mem_splitWhere hpiece hc)
      · exact .inr (.inr (by simpa using hc))
  rw [clean] at h
  split at h
  · rw [String.toList_append, List.mem_append] at h
    rcases h with h | h
    · exact .inr (.inl (by simpa using h))
    · exact hbody h
  · split at h
    · exact .inr (.inr (by simpa using h))
    · exact hbody h

/-! ## Other spellings -/

/-- A text with its characters spelled out in another way. -/
def spell (g : Char → List Char) (s : String) : String := String.ofList (s.toList.flatMap g)

/-- A way to spell characters that keeps slashes and dots, and by which texts can be told apart. -/
structure Spelling (g : Char → List Char) : Prop where
  slash : g '/' = ['/']
  dot : g '.' = ['.']
  slash_notMem : ∀ c, c ≠ '/' → '/' ∉ g c
  injective : Function.Injective (spell g)

theorem spell_append (g : Char → List Char) (a b : String) :
    spell g (a ++ b) = spell g a ++ spell g b := by
  rw [spell, spell, spell, String.toList_append, List.flatMap_append, String.ofList_append]

/-- What has no slash in it belongs to the first piece. -/
theorem splitWhere_append_of_notMem {as bs piece : List Char} (h : '/' ∉ as)
    {more : List (List Char)} (hbs : Text.splitWhere (· = '/') bs = piece :: more) :
    Text.splitWhere (· = '/') (as ++ bs) = (as ++ piece) :: more := by
  induction as with
  | nil => exact hbs
  | cons a as ih =>
      rw [List.mem_cons, not_or] at h
      exact Text.splitWhere_cons (by simpa using Ne.symm h.1) (ih h.2)

namespace Spelling

variable {g : Char → List Char} (hg : Spelling g)
include hg

theorem spell_slash : spell g "/" = "/" := by
  simp [spell, hg.slash]

theorem spell_eq_empty_iff {s : String} : spell g s = "" ↔ s = "" :=
  hg.injective.eq_iff' rfl

theorem spell_dot : spell g "." = "." := by
  simp [spell, hg.dot]

theorem spell_dots : spell g ".." = ".." := by
  simp [spell, hg.dot]

theorem splitWhere_flatMap (cs : List Char) :
    Text.splitWhere (· = '/') (cs.flatMap g) =
      (Text.splitWhere (· = '/') cs).map (·.flatMap g) := by
  induction cs with
  | nil => rfl
  | cons c cs ih =>
      rw [List.flatMap_cons]
      by_cases hc : c = '/'
      · rw [hc, hg.slash, List.singleton_append, Text.splitWhere_cons_self (by simp),
          Text.splitWhere_cons_self (by simp), ih]
        rfl
      · obtain ⟨piece, more, hsplit⟩ := List.exists_cons_of_ne_nil
          (Text.splitWhere_ne_nil (fun c => decide (c = '/')) cs)
        rw [hsplit] at ih
        rw [Text.splitWhere_cons (by simpa using hc) hsplit, splitWhere_append_of_notMem
          (hg.slash_notMem c hc) ih]
        rfl

theorem segments_spell (path : String) :
    segments (spell g path) = (segments path).map (spell g) := by
  rw [segments, spell, String.toList_ofList, hg.splitWhere_flatMap, segments, List.map_map,
    List.map_map]
  refine List.map_congr_left fun piece _ => ?_
  rw [Function.comp_apply, Function.comp_apply, spell, String.toList_ofList]

theorem ne_nil (c : Char) : g c ≠ [] := by
  intro hnil
  have hempty : spell g (String.singleton c) = "" := by
    simp [spell, hnil]
  exact absurd (hg.spell_eq_empty_iff.mp hempty) (by simp)

theorem isAbs_spell (path : String) : isAbs (spell g path) = isAbs path := by
  rw [isAbs, isAbs, spell, String.toList_ofList]
  cases path.toList with
  | nil => rfl
  | cons c cs =>
      rw [List.flatMap_cons]
      by_cases hc : c = '/'
      · rw [hc, hg.slash]
        rfl
      · obtain ⟨d, ds, hd⟩ := List.exists_cons_of_ne_nil (hg.ne_nil c)
        have hslash := hg.slash_notMem c hc
        rw [hd, List.mem_cons, not_or] at hslash
        simp [hd, hc, Ne.symm hslash.1]

theorem cleanStep_spell (rooted : Bool) (acc : List String) (segment : String) :
    cleanStep rooted (acc.map (spell g)) (spell g segment) =
      (cleanStep rooted acc segment).map (spell g) := by
  have hempty : ∀ s, spell g s = "" ↔ s = "" := fun _ => hg.spell_eq_empty_iff
  have hdot : ∀ s, spell g s = "." ↔ s = "." := fun _ => hg.injective.eq_iff' hg.spell_dot
  have hdots : ∀ s, spell g s = ".." ↔ s = ".." := fun _ => hg.injective.eq_iff' hg.spell_dots
  simp only [cleanStep, hempty, hdot, hdots]
  split
  · rfl
  · split
    · cases acc with
      | nil => cases rooted <;> simp [hg.spell_dots]
      | cons last rest =>
          simp only [List.map_cons, hdots]
          split <;> simp [hg.spell_dots]
    · rfl

theorem foldl_cleanStep_spell (rooted : Bool) (l acc : List String) :
    (l.map (spell g)).foldl (cleanStep rooted) (acc.map (spell g)) =
      (l.foldl (cleanStep rooted) acc).map (spell g) := by
  rw [List.foldl_map]
  exact List.foldl_hom _ fun acc s => hg.cleanStep_spell rooted acc s

theorem cleanSegments_spell (path : String) :
    cleanSegments (spell g path) = (cleanSegments path).map (spell g) := by
  rw [cleanSegments, hg.segments_spell, hg.isAbs_spell, cleanSegments, List.map_reverse]
  exact congrArg List.reverse (hg.foldl_cleanStep_spell _ _ [])

theorem spell_intercalate (l : List String) :
    spell g ("/".intercalate l) = "/".intercalate (l.map (spell g)) := by
  induction l with
  | nil => rfl
  | cons a l ih =>
      cases l with
      | nil => simp
      | cons b l =>
          have hmap : (b :: l).map (spell g) ≠ [] := by simp
          rw [String.intercalate_cons_of_ne_nil (List.cons_ne_nil b l), spell_append,
            spell_append, ih, hg.spell_slash]
          exact (String.intercalate_cons_of_ne_nil hmap).symm

/-- A path can be spelled in another way before it is cleaned or after. -/
theorem clean_spell (path : String) : clean (spell g path) = spell g (clean path) := by
  rw [clean, hg.isAbs_spell, hg.cleanSegments_spell, ← hg.spell_intercalate, clean]
  split
  · rw [spell_append, hg.spell_slash]
  · simp only [String.isEmpty_iff, hg.spell_eq_empty_iff]
    split
    · exact hg.spell_dot.symm
    · rfl

end Spelling

end RuleScan.Path
