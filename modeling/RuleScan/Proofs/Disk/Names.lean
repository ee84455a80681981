import RuleScan.Disk.Basic

/-!
# Paths as lists of names

A place in a tree is a list of names, and a path is a text.  A full path of names is
`Disk.pathOf names`; the path from a directory to what is below it is `Path.below names`, which is
`.` for the directory itself.

## What is proved

  * `Path.clean_eq_pathOf`, `Path.exists_absolute` — every clean full path is one of names;
  * `Path.join_names`, `Path.join_below` — joining a full path with names, or with a path below it,
    puts the names behind the others;
  * `Path.relative?_pathOf` — and the path from the one to the other is the one below again;
  * `Path.base_pathOf`, `Path.base_below`, `Path.dir_pathOf`, `Path.dir_below` — the last name, and
    what is above it.

## Why

All of this holds because a name (`Path.IsName`) is one piece between slashes, and a piece that
cleaning keeps: neither empty nor one of the two that stand for a directory and for the one above.
-/

namespace RuleScan

/-! ## Splitting a text -/

namespace Text

theorem splitWhere_ne_nil (p : Char → Bool) (cs : List Char) : splitWhere p cs ≠ [] := by
  cases cs with
  | nil => simp [splitWhere]
  | cons c cs =>
      simp only [splitWhere, List.foldr_cons]
      split
      · simp
      · split <;> simp

theorem splitWhere_cons_self {p : Char → Bool} {c : Char} (h : p c = true) (cs : List Char) :
    splitWhere p (c :: cs) = [] :: splitWhere p cs := by
  simp [splitWhere, h]

theorem splitWhere_cons {p : Char → Bool} {c : Char} (h : p c = false) {cs piece : List Char}
    {more : List (List Char)} (hcs : splitWhere p cs = piece :: more) :
    splitWhere p (c :: cs) = (c :: piece) :: more := by
  rw [splitWhere] at hcs ⊢
  rw [List.foldr_cons, hcs, h]
  rfl

theorem splitWhere_append {p : Char → Bool} {c : Char} (h : p c = true) (as bs : List Char) :
    splitWhere p (as ++ c :: bs) = splitWhere p as ++ splitWhere p bs := by
  induction as with
  | nil => exact splitWhere_cons_self h bs
  | cons a as ih =>
      by_cases ha : p a = true
      · rw [List.cons_append, splitWhere_cons_self ha, splitWhere_cons_self ha, ih,
          List.cons_append]
      · have ha' : p a = false := by simpa using ha
        obtain ⟨piece, more, hsplit⟩ := List.exists_cons_of_ne_nil (splitWhere_ne_nil p as)
        rw [hsplit] at ih
        rw [List.cons_append, splitWhere_cons ha' ih, splitWhere_cons ha' hsplit]
        rfl

theorem splitWhere_of_forall {p : Char → Bool} {cs : List Char} (h : ∀ c ∈ cs, p c = false) :
    splitWhere p cs = [cs] := by
  induction cs with
  | nil => rfl
  | cons c cs ih =>
      exact splitWhere_cons (h c List.mem_cons_self)
        (ih fun c' hc' => h c' (List.mem_cons_of_mem c hc'))

theorem forall_of_mem_splitWhere {p : Char → Bool} {cs piece : List Char}
    (h : piece ∈ splitWhere p cs) : ∀ c ∈ piece, p c = false := by
  induction cs generalizing piece with
  | nil =>
      intro c hc
      simp only [splitWhere, List.foldr_nil, List.mem_singleton] at h
      rw [h] at hc
      cases hc
  | cons c cs ih =>
      by_cases hc : p c = true
      · rw [splitWhere_cons_self hc] at h
        rcases List.mem_cons.mp h with rfl | h
        · nofun
        · exact ih h
      · have hc' : p c = false := by simpa using hc
        obtain ⟨first, more, hsplit⟩ := List.exists_cons_of_ne_nil (splitWhere_ne_nil p cs)
        rw [splitWhere_cons hc' hsplit] at h
        rw [hsplit] at ih
        rcases List.mem_cons.mp h with rfl | h
        · intro x hx
          rcases List.mem_cons.mp hx with rfl | hx
          · exact hc'
          · exact ih List.mem_cons_self x hx
        · exact ih (List.mem_cons_of_mem first h)

end Text

namespace Path

/-- A name that an entry of a directory may have. -/
structure IsName (name : String) : Prop where
  ne_empty : name ≠ ""
  ne_dot : name ≠ "."
  ne_dots : name ≠ ".."
  slash_notMem : '/' ∉ name.toList

/-- The path from a directory to what names lead to below it. -/
def below (names : List String) : String :=
  if names.isEmpty then "." else "/".intercalate names

@[simp] theorem below_nil : below [] = "." := rfl

theorem below_of_ne_nil {names : List String} (h : names ≠ []) :
    below names = "/".intercalate names := by
  rw [below, if_neg (by simpa using h)]

/-! ## The pieces of a path -/

theorem segments_append (a b : String) : segments (a ++ "/" ++ b) = segments a ++ segments b := by
  have hchars : (a ++ "/" ++ b).toList = a.toList ++ '/' :: b.toList := by simp
  rw [segments, hchars, Text.splitWhere_append (by simp), List.map_append]
  rfl

theorem segments_of_notMem {s : String} (h : '/' ∉ s.toList) : segments s = [s] := by
  have hnone : ∀ c ∈ s.toList, (decide (c = '/')) = false := by
    intro c hc
    simp only [decide_eq_false_iff_not]
    rintro rfl
    exact h hc
  rw [segments, Text.splitWhere_of_forall hnone]
  simp

theorem segments_name {name : String} (h : IsName name) : segments name = [name] :=
  segments_of_notMem h.slash_notMem

theorem segments_intercalate {l : List String} (h : l ≠ []) :
    segments ("/".intercalate l) = l.flatMap segments := by
  induction l with
  | nil => exact absurd rfl h
  | cons a l ih =>
      cases l with
      | nil => simp
      | cons b l =>
          rw [String.intercalate_cons_of_ne_nil (by simp), segments_append, ih (by simp)]
          rfl

variable {names : List String}

theorem flatMap_segments (h : ∀ n ∈ names, IsName n) : names.flatMap segments = names := by
  induction names with
  | nil => rfl
  | cons n names ih =>
      rw [List.flatMap_cons, segments_name (h n List.mem_cons_self),
        ih fun m hm => h m (List.mem_cons_of_mem n hm)]
      rfl

/-- Names are the pieces of the path below. -/
theorem segments_below (h : ∀ n ∈ names, IsName n) (hne : names ≠ []) :
    segments (below names) = names := by
  rw [below_of_ne_nil hne, segments_intercalate hne, flatMap_segments h]

theorem below_injective {a b : List String} (ha : ∀ n ∈ a, IsName n) (hb : ∀ n ∈ b, IsName n)
    (h : below a = below b) : a = b := by
  have hsegments : ∀ {l : List String}, (∀ n ∈ l, IsName n) →
      (segments (below l)).filter (· ≠ ".") = l := by
    intro l hl
    by_cases hne : l = []
    · subst hne
      decide
    · rw [segments_below hl hne, List.filter_eq_self.mpr fun n hn => by simp [(hl n hn).ne_dot]]
  rw [← hsegments ha, h, hsegments hb]

theorem isEmpty_below (h : ∀ n ∈ names, IsName n) : (below names).isEmpty = false := by
  rw [String.isEmpty_eq_false_iff]
  intro hempty
  by_cases hne : names = []
  · subst hne
    exact absurd hempty (by decide)
  · have hsegments := segments_below h hne
    rw [hempty] at hsegments
    exact absurd rfl (h "" (by rw [← hsegments]; exact List.mem_singleton_self _)).ne_empty

theorem segments_pathOf (h : ∀ n ∈ names, IsName n) :
    segments (Disk.pathOf names) = "" :: if names = [] then [""] else names := by
  have hsplit : Disk.pathOf names = "" ++ "/" ++ "/".intercalate names := by
    rw [Disk.pathOf, String.empty_append]
  rw [hsplit, segments_append]
  by_cases hne : names = []
  · subst hne
    rfl
  · rw [segments_intercalate hne, flatMap_segments h, if_neg hne]
    rfl

/-! ## Cleaning -/

theorem isAbs_pathOf (names : List String) : isAbs (Disk.pathOf names) = true := by
  simp [isAbs, Disk.pathOf]

/-- Cleaning keeps names. -/
theorem foldl_cleanStep_names (rooted : Bool) (acc : List String) (h : ∀ n ∈ names, IsName n) :
    names.foldl (cleanStep rooted) acc = names.reverse ++ acc := by
  induction names generalizing acc with
  | nil => rfl
  | cons n names ih =>
      have hn := h n List.mem_cons_self
      have hstep : cleanStep rooted acc n = n :: acc := by
        simp [cleanStep, hn.ne_empty, hn.ne_dot, hn.ne_dots]
      rw [List.foldl_cons, hstep, ih _ fun m hm => h m (List.mem_cons_of_mem n hm)]
      simp

/-- Pieces that say nothing are dropped. -/
theorem cleanStep_blank (rooted : Bool) (acc : List String) : cleanStep rooted acc "" = acc := by
  simp [cleanStep]

theorem cleanSegments_pathOf (h : ∀ n ∈ names, IsName n) :
    cleanSegments (Disk.pathOf names) = names := by
  rw [cleanSegments, segments_pathOf h, List.foldl_cons, cleanStep_blank]
  by_cases hne : names = []
  · subst hne
    rfl
  · rw [if_neg hne, foldl_cleanStep_names _ _ h]
    simp

theorem pathOf_injective {a b : List String} (ha : ∀ n ∈ a, IsName n) (hb : ∀ n ∈ b, IsName n)
    (h : Disk.pathOf a = Disk.pathOf b) : a = b := by
  rw [← cleanSegments_pathOf ha, h, cleanSegments_pathOf hb]

theorem clean_eq_pathOf {path : String} (h : isAbs path = true) :
    clean path = Disk.pathOf (cleanSegments path) := by
  simp [clean, h, Disk.pathOf]

/-- A piece of a path has no slash in it. -/
theorem slash_notMem_of_mem_segments {path s : String} (h : s ∈ segments path) :
    '/' ∉ s.toList := by
  obtain ⟨piece, hpiece, rfl⟩ := List.mem_map.mp h
  intro hslash
  have := Text.forall_of_mem_splitWhere hpiece '/' (by simpa using hslash)
  simp at this

/-- What cleaning keeps of a full path are names: at the root there is nothing above. -/
theorem isName_cleanSegments {path : String} (h : isAbs path = true) :
    ∀ n ∈ cleanSegments path, IsName n := by
  have hfold : ∀ (l acc : List String), (∀ s ∈ l, '/' ∉ s.toList) → (∀ n ∈ acc, IsName n) →
      ∀ n ∈ l.foldl (cleanStep true) acc, IsName n := by
    intro l
    induction l with
    | nil => exact fun acc _ hacc => hacc
    | cons s l ih =>
        intro acc hl hacc
        refine ih _ (fun s' hs' => hl s' (List.mem_cons_of_mem s hs')) ?_
        unfold cleanStep
        split
        · exact hacc
        · next hblank =>
            simp only [Bool.or_eq_true, decide_eq_true_eq, not_or] at hblank
            split
            · next hdots =>
                cases acc with
                | nil => exact fun n hn => absurd hn (by simp)
                | cons last rest =>
                    have hlast := (hacc last List.mem_cons_self).ne_dots
                    simp only [hlast, if_false]
                    exact fun n hn => hacc n (List.mem_cons_of_mem last hn)
            · next hdots =>
                intro n hn
                rcases List.mem_cons.mp hn with rfl | hn
                · exact ⟨hblank.1, hblank.2, hdots, hl n List.mem_cons_self⟩
                · exact hacc n hn
  intro n hn
  rw [cleanSegments, List.mem_reverse, h] at hn
  exact hfold _ [] (fun s hs => slash_notMem_of_mem_segments hs) (by simp) n hn

/-- A path that is made absolute is a full path of names. -/
theorem exists_absolute {directory : String} (h : isAbs directory = true) (path : String) :
    ∃ base : List String, (∀ n ∈ base, IsName n) ∧ absolute directory path = Disk.pathOf base := by
  have hclean : ∀ p, isAbs p = true →
      ∃ base : List String, (∀ n ∈ base, IsName n) ∧ clean p = Disk.pathOf base :=
    fun p hp => ⟨_, isName_cleanSegments hp, clean_eq_pathOf hp⟩
  rw [absolute]
  split
  · next habs => exact hclean path habs
  · have hdirectory : directory.isEmpty = false := by
      rw [String.isEmpty_eq_false_iff]
      rintro rfl
      cases h
    have hfront : ∀ rest : List String, isAbs ("/".intercalate (directory :: rest)) = true := by
      intro rest
      cases rest with
      | nil => simpa using h
      | cons b rest =>
          rw [isAbs, String.intercalate_cons_cons]
          rw [isAbs] at h
          cases hchars : directory.toList with
          | nil =>
              rw [hchars] at h
              cases h
          | cons c cs =>
              rw [hchars] at h
              simpa [hchars] using h
    have hparts : [directory, path].filter (! ·.isEmpty) =
        directory :: [path].filter (! ·.isEmpty) := by
      rw [List.filter_cons, hdirectory]
      rfl
    simp only [join, hparts, List.isEmpty_cons]
    exact hclean _ (hfront _)

/-! ## Joining -/

theorem pathOf_ne_empty (names : List String) : (Disk.pathOf names).isEmpty = false := by
  rw [String.isEmpty_eq_false_iff]
  intro hempty
  have habs := isAbs_pathOf names
  rw [hempty] at habs
  cases habs

/-- Joining a full path with something whose pieces are cleaned to names. -/
theorem clean_intercalate_pathOf {base names : List String} (hbase : ∀ n ∈ base, IsName n)
    {rest : List String}
    (hrest : (rest.flatMap segments).foldl (cleanStep true) base.reverse =
      (base ++ names).reverse) :
    clean ("/".intercalate (Disk.pathOf base :: rest)) = Disk.pathOf (base ++ names) := by
  have habs : isAbs ("/".intercalate (Disk.pathOf base :: rest)) = true := by
    cases rest with
    | nil => simpa using isAbs_pathOf base
    | cons b rest => simp [isAbs, Disk.pathOf]
  have hfront : (segments (Disk.pathOf base)).foldl (cleanStep true) [] = base.reverse := by
    have h := congrArg List.reverse (cleanSegments_pathOf hbase)
    rwa [cleanSegments, List.reverse_reverse, isAbs_pathOf] at h
  rw [clean_eq_pathOf habs, cleanSegments, habs, segments_intercalate (by simp),
    List.flatMap_cons, List.foldl_append, hfront, hrest, List.reverse_reverse]

theorem join_names {base : List String} (hbase : ∀ n ∈ base, IsName n)
    (h : ∀ n ∈ names, IsName n) :
    join (Disk.pathOf base :: names) = Disk.pathOf (base ++ names) := by
  have hparts : (Disk.pathOf base :: names).filter (! ·.isEmpty) = Disk.pathOf base :: names := by
    refine List.filter_eq_self.mpr fun s hs => ?_
    rcases List.mem_cons.mp hs with rfl | hs
    · simp [pathOf_ne_empty]
    · simpa [String.isEmpty_iff] using (h s hs).ne_empty
  simp only [join, hparts, List.isEmpty_cons]
  refine clean_intercalate_pathOf hbase ?_
  rw [flatMap_segments h, foldl_cleanStep_names _ _ h, List.reverse_append]

theorem join_below {base : List String} (hbase : ∀ n ∈ base, IsName n)
    (h : ∀ n ∈ names, IsName n) :
    join [Disk.pathOf base, below names] = Disk.pathOf (base ++ names) := by
  have hpieces : (segments (below names)).foldl (cleanStep true) base.reverse =
      (base ++ names).reverse := by
    by_cases hne : names = []
    · subst hne
      simp [segments_of_notMem, cleanStep]
    · rw [segments_below h hne, foldl_cleanStep_names _ _ h, List.reverse_append]
  simp only [join, List.filter_cons, pathOf_ne_empty, isEmpty_below h, List.filter_nil,
    Bool.not_false, if_true, List.isEmpty_cons]
  exact clean_intercalate_pathOf hbase (by simpa using hpieces)

/-! ## From one path to another -/

theorem commonLength_append (a b : List String) : commonLength a (a ++ b) = a.length := by
  induction a with
  | nil => cases b <;> rfl
  | cons x a ih => simp [commonLength, ih]

/-- Below a directory, the path from there is the one below. -/
theorem relative?_pathOf {base : List String} (hbase : ∀ n ∈ base, IsName n)
    (h : ∀ n ∈ names, IsName n) :
    relative? (Disk.pathOf base) (Disk.pathOf (base ++ names)) = some (below names) := by
  have hall : ∀ n ∈ base ++ names, IsName n := List.forall_mem_append.mpr ⟨hbase, h⟩
  have hclean : ∀ {l : List String}, (∀ n ∈ l, IsName n) →
      clean (Disk.pathOf l) = Disk.pathOf l := by
    intro l hl
    rw [clean_eq_pathOf (isAbs_pathOf l), cleanSegments_pathOf hl]
  by_cases hne : names = []
  · subst hne
    simp [relative?]
  · have hdiffer : Disk.pathOf base ≠ Disk.pathOf (base ++ names) := by
      intro heq
      have := pathOf_injective hbase hall heq
      exact hne (by simpa using this)
    rw [relative?, hclean hbase, hclean hall, if_neg hdiffer, isAbs_pathOf, isAbs_pathOf]
    simp only [bne_self_eq_false, Bool.false_eq_true, if_false, cleanSegments_pathOf hbase,
      cleanSegments_pathOf hall, commonLength_append]
    simp [below_of_ne_nil hne]

/-! ## The last name -/

/-- What stands before the last name of a path. -/
def front (names : List String) : String :=
  if names = [] then "" else "/".intercalate names ++ "/"

theorem intercalate_concat (names : List String) (name : String) :
    "/".intercalate (names ++ [name]) = front names ++ name := by
  by_cases hne : names = []
  · subst hne
    simp [front]
  · rw [front, if_neg hne, String.intercalate_append_of_ne_nil hne (by simp),
      String.intercalate_singleton]

/-- A text that a name can stand behind: nothing, or one that ends with a slash. -/
def IsFront (start : String) : Prop :=
  start.toList = [] ∨ ∃ start', start.toList = start' ++ ['/']

theorem isFront_front (names : List String) : IsFront (front names) := by
  by_cases hne : names = []
  · subst hne
    exact .inl rfl
  · exact .inr ⟨("/".intercalate names).toList, by rw [front, if_neg hne]; simp⟩

theorem IsFront.rooted {start : String} (h : IsFront start) : IsFront ("/" ++ start) := by
  rcases h with h | ⟨start', h⟩
  · exact .inr ⟨[], by rw [String.toList_append, h]; rfl⟩
  · exact .inr ⟨'/' :: start', by rw [String.toList_append, h]; rfl⟩

theorem below_concat (names : List String) (name : String) :
    below (names ++ [name]) = front names ++ name := by
  rw [below_of_ne_nil (by simp), intercalate_concat]

theorem pathOf_concat (names : List String) (name : String) :
    Disk.pathOf (names ++ [name]) = "/" ++ front names ++ name := by
  rw [Disk.pathOf, intercalate_concat, String.append_assoc]

section Last

variable {start name : String} (hname : IsName name) (hstart : IsFront start)
include hname hstart

/-- The last name is what stands behind the last slash. -/
theorem takeWhile_reverse_name :
    ((start ++ name).toList.reverse.takeWhile (· ≠ '/')).reverse = name.toList := by
  have hchars : ∀ c ∈ name.toList.reverse, (decide (c ≠ '/')) = true := by
    intro c hc
    simp only [decide_eq_true_eq]
    rintro rfl
    exact hname.slash_notMem (List.mem_reverse.mp hc)
  rw [String.toList_append, List.reverse_append, List.takeWhile_append_of_pos hchars]
  rcases hstart with hstart | ⟨start', hstart⟩ <;> simp [hstart]

/-- Nothing is dropped at the end of a path that ends with a name. -/
theorem base_append : base (start ++ name) = name := by
  have hne : name.toList ≠ [] := fun hnil => hname.ne_empty (String.toList_eq_nil_iff.mp hnil)
  have hkept : Text.dropEndWhile (fun c => decide (c = '/')) (start ++ name).toList =
      (start ++ name).toList := by
    obtain ⟨cs, c, hcs⟩ := (List.eq_nil_or_concat name.toList).resolve_left hne
    have hc : c ≠ '/' := by
      rintro rfl
      exact hname.slash_notMem (by rw [hcs]; simp)
    rw [Text.dropEndWhile, String.toList_append, hcs]
    simp [hc]
  have hchars : (start ++ name).toList ≠ [] := by
    rw [String.toList_append]
    exact List.append_ne_nil_of_right_ne_nil _ hne
  have hempty : (start ++ name).isEmpty = false := by
    rw [String.isEmpty_eq_false_iff]
    exact fun hempty => hchars (String.toList_eq_nil_iff.mpr hempty)
  rw [base, hempty, if_neg (by simp)]
  simp only [hkept, List.isEmpty_eq_false_iff.mpr hchars, Bool.false_eq_true, if_false]
  rw [takeWhile_reverse_name hname hstart, String.ofList_toList]

/-- What stands before the last name is what is left of the path. -/
theorem split_fst : (split (start ++ name)).1 = start := by
  rw [split, takeWhile_reverse_name hname hstart]
  simp only [String.toList_append, String.length_append, String.length_toList, Nat.add_sub_cancel]
  rw [← String.length_toList, List.take_left', String.ofList_toList]
  rfl

end Last

theorem base_ne_empty (path : String) : base path ≠ "" := by
  rw [base]
  split
  · decide
  · dsimp only
    split
    · decide
    · next hne =>
        rw [List.isEmpty_iff] at hne
        obtain ⟨c, cs, hcs⟩ : ∃ c cs, (Text.dropEndWhile (· = '/') path.toList).reverse = c :: cs :=
          List.exists_cons_of_ne_nil (by simpa using hne)
        have hhead := List.head?_dropWhile_not (fun c => decide (c = '/')) path.toList.reverse
        have hdrop : path.toList.reverse.dropWhile (· = '/') = c :: cs := by
          rw [← hcs, Text.dropEndWhile, List.reverse_reverse]
        have hc : c ≠ '/' := by simpa [hdrop] using hhead
        simp [hcs, hc]

theorem base_below (names : List String) {name : String} (h : IsName name) :
    base (below (names ++ [name])) = name := by
  rw [below_concat, base_append h (isFront_front names)]

theorem base_pathOf (names : List String) {name : String} (h : IsName name) :
    base (Disk.pathOf (names ++ [name])) = name := by
  rw [pathOf_concat, base_append h (isFront_front names).rooted]

/-- A path of names is its first name with nothing behind, or with a slash. -/
theorem exists_intercalate (name : String) (names : List String) :
    ∃ rest : List Char, (rest = [] ∨ rest.head? = some '/') ∧
      ("/".intercalate (name :: names)).toList = name.toList ++ rest := by
  cases names with
  | nil => exact ⟨[], .inl rfl, by simp⟩
  | cons n names => exact ⟨'/' :: ("/".intercalate (n :: names)).toList, .inr rfl, by simp⟩

theorem isAbs_front (h : ∀ n ∈ names, IsName n) : isAbs (front names) = false := by
  cases names with
  | nil => rfl
  | cons n names =>
      have hn := h n List.mem_cons_self
      obtain ⟨rest, -, hrest⟩ := exists_intercalate n names
      have hslash := hn.slash_notMem
      rw [isAbs, front, if_neg (by simp), String.toList_append, hrest]
      cases hchars : n.toList with
      | nil => exact absurd (String.toList_eq_nil_iff.mp hchars) hn.ne_empty
      | cons c cs =>
          rw [hchars] at hslash
          have hc : c ≠ '/' := fun hc => hslash (hc ▸ List.mem_cons_self)
          simp [hc]

/-- What is above the last name. -/
theorem dir_below {name : String} (h : ∀ n ∈ names, IsName n) (hname : IsName name) :
    dir (below (names ++ [name])) = below names := by
  rw [dir, below_concat, split_fst hname (isFront_front names), clean, cleanSegments, isAbs_front h]
  by_cases hne : names = []
  · subst hne
    rfl
  · have hsegments : segments (front names) = names ++ [""] := by
      have hfront : front names = "/".intercalate names ++ "/" ++ "" := by
        rw [front, if_neg hne, String.append_empty]
      rw [hfront, segments_append, segments_intercalate hne, flatMap_segments h]
      rfl
    have hbody := isEmpty_below h
    rw [below_of_ne_nil hne] at hbody
    rw [hsegments, List.foldl_append, foldl_cleanStep_names _ _ h, List.foldl_cons,
      cleanStep_blank]
    simp [hbody, below_of_ne_nil hne]

theorem isPrefixOf_append {s rest : List Char} (hs : '/' ∉ s)
    (hrest : rest = [] ∨ rest.head? = some '/') (cs : List Char) :
    s.isPrefixOf (cs ++ rest) = s.isPrefixOf cs := by
  induction s generalizing cs with
  | nil => simp
  | cons c s ih =>
      simp only [List.mem_cons, not_or] at hs
      cases cs with
      | nil =>
          rcases hrest with rfl | hhead
          · rfl
          · obtain ⟨rest', rfl⟩ : ∃ rest', rest = '/' :: rest' := by
              cases rest with
              | nil => cases hhead
              | cons x rest' => exact ⟨rest', by simpa using hhead⟩
            rw [List.nil_append, List.isPrefixOf_cons_cons, beq_false_of_ne (Ne.symm hs.1)]
            rfl
      | cons c' cs =>
          rw [List.cons_append, List.isPrefixOf_cons_cons, List.isPrefixOf_cons_cons, ih hs.2]

/-- A text without slashes stands in front of a path if it stands in front of its first name. -/
theorem isPrefixOf_below {s : String} (hs : '/' ∉ s.toList) (name : String)
    (names : List String) :
    s.toList.isPrefixOf (below (name :: names)).toList = s.toList.isPrefixOf name.toList := by
  obtain ⟨rest, hrest, hpath⟩ := exists_intercalate name names
  rw [below_of_ne_nil (by simp), hpath, isPrefixOf_append hs hrest]

end Path

end RuleScan
