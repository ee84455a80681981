import RuleScan.Engine.Finding

/-!
# What sorting and dropping repeated places leaves

`Finding.distinct` sorts findings by place, keeps the order of equal places, and drops a finding
whose place is that of the one before.  Everything said elsewhere about the findings of an
evaluation goes through one function: `firstAt k l`, the first finding of the place `k` in a list.

  * `firstAt_distinct` — sorting and dropping keep the first finding of every place;
  * `pairwise_distinct` — the places of what is left are strictly increasing;
  * `mem_distinct` — so a finding is left exactly when it is the first of its place;
  * `distinct_congr` — and two lists with the same first findings become the SAME list.

The last one is what the order of tasks, the order of files and the company of other rules are
measured by: none of them changes a first finding, so none of them changes the result.
-/

namespace RuleScan

/-- Lists in a strict order, whatever it is, are the same if their members are. -/
theorem eq_of_pairwise {α : Type} {r : α → α → Prop} (hasymm : ∀ a b, r a b → ¬ r b a)
    {l l' : List α} (h : l.Pairwise r) (h' : l'.Pairwise r) (hm : ∀ x, x ∈ l ↔ x ∈ l') :
    l = l' := by
  have hnodup : ∀ {m : List α}, m.Pairwise r → m.Nodup := fun hp => hp.imp fun {a b} hab heq => by
    subst heq
    exact hasymm _ _ hab hab
  have hperm : l.Perm l' := (List.perm_ext_iff_of_nodup (hnodup h) (hnodup h')).mpr hm
  exact hperm.eq_of_pairwise (fun a b _ _ hab hba => absurd hba (hasymm a b hab)) h h'

namespace Finding

/-- A place: what the order of findings looks at. -/
abbrev Place := String × String × Int × Int

/-- The first finding of a place. -/
def firstAt (k : Place) (l : List Finding) : Option Finding := l.find? fun x => x.key = k

/-! ## The order is the order of places -/

/-- The order as a lexicographic one, for which the laws are known. -/
theorem compare_eq_lex :
    compare = compareLex (compareOn rule) (compareLex (compareOn file)
      (compareLex (compareOn line) (compareOn column))) := by
  funext a b
  rfl

instance : Std.TransCmp compare := compare_eq_lex ▸ inferInstance

theorem compare_eq_iff {a b : Finding} : compare a b = .eq ↔ a.key = b.key := by
  simp only [compare, Ordering.then_eq_eq, Std.LawfulEqCmp.compare_eq_iff_eq, key, Prod.mk.injEq]

theorem notAfter_iff {a b : Finding} : notAfter a b = true ↔ (compare a b).isLE = true := by
  simp only [notAfter, decide_eq_true_eq]
  cases compare a b <;> decide

theorem notAfter_trans (a b c : Finding) :
    notAfter a b = true → notAfter b c = true → notAfter a c = true := by
  simp only [notAfter_iff]
  exact Std.TransCmp.isLE_trans

theorem notAfter_total (a b : Finding) : (notAfter a b || notAfter b a) = true := by
  have hswap : compare b a = (compare a b).swap := Std.OrientedCmp.eq_swap
  simp only [Bool.or_eq_true, notAfter_iff, hswap]
  cases compare a b <;> decide

theorem notAfter_of_key_eq {a b : Finding} (h : a.key = b.key) : notAfter a b = true := by
  rw [notAfter_iff, compare_eq_iff.mpr h]
  rfl

theorem compare_lt_of_notAfter {a b : Finding} (h : notAfter a b = true) (hk : a.key ≠ b.key) :
    compare a b = .lt := by
  have hne : compare a b ≠ .eq := fun he => hk (compare_eq_iff.mp he)
  rw [notAfter_iff] at h
  cases hc : compare a b with
  | lt => rfl
  | eq => exact absurd hc hne
  | gt => rw [hc] at h; exact absurd h (by decide)

theorem key_ne_of_compare_lt {a b : Finding} (h : compare a b = .lt) : a.key ≠ b.key := by
  intro hk
  rw [compare_eq_iff.mpr hk] at h
  cases h

/-- Places of which neither comes after the other are the same. -/
theorem key_eq_of_notAfter {f g : Finding} (h : notAfter f g = true) (h' : notAfter g f = true) :
    f.key = g.key := by
  refine Decidable.byContradiction fun hne => ?_
  have hlt := compare_lt_of_notAfter h hne
  have hswap : compare g f = (compare f g).swap := Std.OrientedCmp.eq_swap
  rw [compare_lt_of_notAfter h' (Ne.symm hne), hlt] at hswap
  cases hswap

/-! ## First findings -/

@[simp] theorem firstAt_nil (k : Place) : firstAt k [] = none := rfl

theorem firstAt_cons (k : Place) (a : Finding) (l : List Finding) :
    firstAt k (a :: l) = if a.key = k then some a else firstAt k l := by
  by_cases h : a.key = k <;> simp [firstAt, h]

theorem firstAt_append (k : Place) (l l' : List Finding) :
    firstAt k (l ++ l') = (firstAt k l).or (firstAt k l') :=
  List.find?_append

theorem firstAt_eq_none {k : Place} {l : List Finding} :
    firstAt k l = none ↔ ∀ x ∈ l, x.key ≠ k := by
  simp [firstAt, List.find?_eq_none]

theorem mem_of_firstAt {k : Place} {l : List Finding} {x : Finding} (h : firstAt k l = some x) :
    x ∈ l :=
  List.mem_of_find?_eq_some h

theorem key_of_firstAt {k : Place} {l : List Finding} {x : Finding} (h : firstAt k l = some x) :
    x.key = k := by
  simpa using List.find?_some h

/-- A place has a first finding as soon as it has one. -/
theorem isSome_firstAt {k : Place} {l : List Finding} :
    (firstAt k l).isSome = true ↔ k ∈ l.map key := by
  simp [firstAt, List.find?_isSome]

/-- Keeping findings by their places keeps the first findings of those places. -/
theorem firstAt_filter (p : Place → Bool) (k : Place) (l : List Finding) :
    firstAt k (l.filter fun x => p x.key) = if p k then firstAt k l else none := by
  induction l with
  | nil => simp
  | cons a l ih =>
      by_cases ha : p a.key = true
      · rw [List.filter_cons_of_pos (by exact ha), firstAt_cons, firstAt_cons, ih]
        by_cases hk : a.key = k
        · simp [hk, hk ▸ ha]
        · simp [hk]
      · rw [List.filter_cons_of_neg (by exact ha), ih, firstAt_cons]
        by_cases hk : a.key = k
        · simp [hk ▸ ha]
        · simp [hk]

/-- The first finding stands at the head of all findings of its place. -/
theorem firstAt_eq_head (k : Place) (l : List Finding) :
    firstAt k l = (l.filter fun x => x.key = k).head? := by
  rw [firstAt, List.head?_filter]

/-! ## First findings of many lists -/

theorem firstAt_flatMap_congr {α : Type} {k : Place} {l : List α} {f g : α → List Finding}
    (h : ∀ a ∈ l, firstAt k (f a) = firstAt k (g a)) :
    firstAt k (l.flatMap f) = firstAt k (l.flatMap g) := by
  induction l with
  | nil => rfl
  | cons a l ih =>
      rw [List.flatMap_cons, List.flatMap_cons, firstAt_append, firstAt_append,
        h a List.mem_cons_self, ih fun b hb => h b (List.mem_cons_of_mem _ hb)]

/-- If a place belongs to one list only, its first finding is looked for there, wherever and
however often that list stands. -/
theorem firstAt_flatMap_only {α : Type} {k : Place} {l : List α} {f : α → List Finding} {a : α}
    (ha : a ∈ l) (honly : ∀ b ∈ l, ∀ x ∈ f b, x.key = k → b = a) :
    firstAt k (l.flatMap f) = firstAt k (f a) := by
  induction l with
  | nil => cases ha
  | cons b l ih =>
      rw [List.flatMap_cons, firstAt_append]
      by_cases hl : a ∈ l
      · rw [ih hl fun c hc => honly c (List.mem_cons_of_mem _ hc)]
        cases hb : firstAt k (f b) with
        | none => rfl
        | some x =>
            obtain rfl := honly b List.mem_cons_self x (mem_of_firstAt hb) (key_of_firstAt hb)
            rw [hb]
            rfl
      · obtain rfl : a = b := (List.mem_cons.mp ha).resolve_right hl
        have hrest : firstAt k (l.flatMap f) = none := by
          rw [firstAt_eq_none]
          intro x hx hk
          obtain ⟨c, hc, hx⟩ := List.mem_flatMap.mp hx
          exact hl (honly c (List.mem_cons_of_mem _ hc) x hx hk ▸ hc)
        rw [hrest, Option.or_none]

/-- The same where a place says which list it belongs to. -/
theorem firstAt_flatMap_own {α : Type} [DecidableEq α] (owner : Place → α) {l : List α}
    {f : α → List Finding} (hown : ∀ a ∈ l, ∀ x ∈ f a, owner x.key = a) (k : Place) :
    firstAt k (l.flatMap f) = if owner k ∈ l then firstAt k (f (owner k)) else none := by
  by_cases hk : owner k ∈ l
  · rw [if_pos hk]
    refine firstAt_flatMap_only hk ?_
    intro b hb x hx hkey
    rw [← hkey, hown b hb x hx]
  · rw [if_neg hk, firstAt_eq_none]
    intro x hx hkey
    obtain ⟨a, ha, hx⟩ := List.mem_flatMap.mp hx
    rw [← hkey, hown a ha x hx] at hk
    exact hk ha

/-- The order of findings does not matter where no two of them have the same place. -/
theorem firstAt_perm {l l' : List Finding} (h : l.Perm l')
    (hne : l.Pairwise fun a b => a.key ≠ b.key) (k : Place) : firstAt k l = firstAt k l' := by
  induction h with
  | nil => rfl
  | cons a _ ih => rw [firstAt_cons, firstAt_cons, ih (List.pairwise_cons.mp hne).2]
  | swap a b l =>
      have hab : b.key ≠ a.key := (List.pairwise_cons.mp hne).1 a List.mem_cons_self
      simp only [firstAt_cons]
      by_cases ha : a.key = k
      · simp [ha, ha ▸ hab]
      · simp [ha]
  | trans h₁ _ ih₁ ih₂ =>
      exact (ih₁ hne).trans (ih₂ (h₁.pairwise hne fun hab => Ne.symm hab))

/-! ## Sorting -/

theorem perm_sort (l : List Finding) : (sort l).Perm l := List.mergeSort_perm l notAfter

theorem pairwise_sort (l : List Finding) : (sort l).Pairwise (fun a b => notAfter a b = true) :=
  List.pairwise_mergeSort notAfter_trans notAfter_total l

/-- The sort is stable: the findings of one place keep their order. -/
theorem filter_key_sort (k : Place) (l : List Finding) :
    (sort l).filter (fun x => x.key = k) = l.filter fun x => x.key = k := by
  have hpair : (l.filter fun x => x.key = k).Pairwise (fun a b => notAfter a b = true) := by
    refine List.pairwise_of_forall_mem_list ?_
    intro a ha b hb
    have hka : a.key = k := by simpa using (List.mem_filter.mp ha).2
    have hkb : b.key = k := by simpa using (List.mem_filter.mp hb).2
    exact notAfter_of_key_eq (hka.trans hkb.symm)
  have hsub : (l.filter fun x => x.key = k).Sublist (sort l) :=
    List.sublist_mergeSort notAfter_trans notAfter_total hpair List.filter_sublist
  have hsub' := hsub.filter fun x => x.key = k
  rw [List.filter_filter] at hsub'
  simp only [Bool.and_self] at hsub'
  have hperm : ((sort l).filter fun x => x.key = k).Perm (l.filter fun x => x.key = k) :=
    (perm_sort l).filter _
  exact (hsub'.eq_of_length hperm.length_eq.symm).symm

theorem firstAt_sort (k : Place) (l : List Finding) : firstAt k (sort l) = firstAt k l := by
  rw [firstAt_eq_head, filter_key_sort, ← firstAt_eq_head]

/-! ## Dropping repeated places -/

theorem mem_of_mem_dropRepeated {l : List Finding} {x : Finding} :
    x ∈ dropRepeated l → x ∈ l := by
  fun_induction dropRepeated l with
  | case1 a b rest hk ih =>
      intro hx
      rcases List.mem_cons.mp (ih hx) with rfl | hx
      · exact List.mem_cons_self
      · exact List.mem_cons_of_mem _ (List.mem_cons_of_mem _ hx)
  | case2 a b rest hk ih =>
      intro hx
      rcases List.mem_cons.mp hx with rfl | hx
      · exact List.mem_cons_self
      · exact List.mem_cons_of_mem _ (ih hx)
  | case3 short _ => exact id

/-- What is dropped is never the first of its place, whether or not the list is sorted. -/
theorem firstAt_dropRepeated (k : Place) (l : List Finding) :
    firstAt k (dropRepeated l) = firstAt k l := by
  fun_induction dropRepeated l with
  | case1 a b rest hk ih =>
      rw [ih]
      simp only [firstAt_cons, ← hk]
      split <;> rfl
  | case2 a b rest hk ih => rw [firstAt_cons, ih, ← firstAt_cons]
  | case3 short _ => rfl

/-- In a sorted list equal places are neighbours, so that dropping leaves each place once. -/
theorem pairwise_dropRepeated {l : List Finding}
    (h : l.Pairwise (fun a b => notAfter a b = true)) :
    (dropRepeated l).Pairwise (fun a b => compare a b = .lt) := by
  fun_induction dropRepeated l with
  | case1 a b rest hk ih =>
      obtain ⟨ha, hb⟩ := List.pairwise_cons.mp h
      obtain ⟨-, hrest⟩ := List.pairwise_cons.mp hb
      exact ih (List.pairwise_cons.mpr ⟨fun x hx => ha x (List.mem_cons_of_mem _ hx), hrest⟩)
  | case2 a b rest hk ih =>
      obtain ⟨ha, hb⟩ := List.pairwise_cons.mp h
      refine List.pairwise_cons.mpr ⟨?_, ih hb⟩
      have hab : compare a b = .lt := compare_lt_of_notAfter (ha b List.mem_cons_self) hk
      intro x hx
      rcases List.mem_cons.mp (mem_of_mem_dropRepeated hx) with rfl | hx
      · exact hab
      · have hbx := notAfter_iff.mp ((List.pairwise_cons.mp hb).1 x hx)
        exact Std.TransCmp.lt_of_lt_of_isLE hab hbx
  | case3 short hshort =>
      match short, hshort with
      | [], _ => exact .nil
      | [a], _ => exact List.pairwise_singleton _ a
      | a :: b :: rest, hshort => exact absurd rfl (hshort a b rest)

/-! ## The canonical list -/

theorem pairwise_distinct (l : List Finding) :
    (distinct l).Pairwise (fun a b => compare a b = .lt) :=
  pairwise_dropRepeated (pairwise_sort l)

theorem firstAt_distinct (k : Place) (l : List Finding) :
    firstAt k (distinct l) = firstAt k l := by
  rw [distinct, firstAt_dropRepeated, firstAt_sort]

/-- In a list with strictly increasing places every member is the first of its place. -/
theorem firstAt_of_mem {l : List Finding} (h : l.Pairwise (fun a b => compare a b = .lt))
    {x : Finding} (hx : x ∈ l) : firstAt x.key l = some x := by
  induction l with
  | nil => cases hx
  | cons a l ih =>
      obtain ⟨ha, hl⟩ := List.pairwise_cons.mp h
      rcases List.mem_cons.mp hx with rfl | hx
      · simp [firstAt_cons]
      · rw [firstAt_cons, if_neg (key_ne_of_compare_lt (ha x hx)), ih hl hx]

/-- A finding is left exactly when it is the first of its place. -/
theorem mem_distinct {x : Finding} {l : List Finding} :
    x ∈ distinct l ↔ firstAt x.key l = some x := by
  constructor
  · intro hx
    rw [← firstAt_distinct]
    exact firstAt_of_mem (pairwise_distinct l) hx
  · intro h
    rw [← firstAt_distinct] at h
    exact mem_of_firstAt h

/-- Strictly increasing lists with the same members are the same list. -/
theorem eq_of_mem_iff {l l' : List Finding} (h : l.Pairwise (fun a b => compare a b = .lt))
    (h' : l'.Pairwise (fun a b => compare a b = .lt)) (hm : ∀ x, x ∈ l ↔ x ∈ l') : l = l' := by
  refine eq_of_pairwise (fun a b hab hba => ?_) h h' hm
  have hswap : compare b a = (compare a b).swap := Std.OrientedCmp.eq_swap
  rw [hab, hba] at hswap
  cases hswap

theorem distinct_congr {l l' : List Finding} (h : ∀ k, firstAt k l = firstAt k l') :
    distinct l = distinct l' := by
  refine eq_of_mem_iff (pairwise_distinct l) (pairwise_distinct l') ?_
  intro x
  rw [mem_distinct, mem_distinct, h]

/-- The places that are left are the places that were there. -/
theorem mem_key_distinct {k : Place} {l : List Finding} :
    k ∈ (distinct l).map key ↔ k ∈ l.map key := by
  rw [← isSome_firstAt, ← isSome_firstAt, firstAt_distinct]

/-- Keeping some places may as well be done before sorting and dropping. -/
theorem filter_distinct (p : Place → Bool) (l : List Finding) :
    (distinct l).filter (fun x => p x.key) = distinct (l.filter fun x => p x.key) := by
  refine eq_of_mem_iff ((pairwise_distinct l).filter _) (pairwise_distinct _) ?_
  intro x
  rw [List.mem_filter, mem_distinct, mem_distinct, firstAt_filter]
  by_cases hp : p x.key = true <;> simp [hp]

end Finding

end RuleScan
