import RuleScan.Diff.Unified

/-!
# Edits and what they make of a list

## What is proved

  * `apply_ofLists` — the edits between two lists, applied to the one, give the other;
  * `inOrder_ofLists` — they stand one behind the other within the old list;
  * `applyFrom_map` — edits of items can be applied before or after each item is replaced;
  * `applyFrom_flatMap` — and before or after each item is spelled out, whatever the lengths of the
    spellings, when the places are counted in the spelling.

## How

The search for common items can only PROPOSE pairs.  The first two hold whatever was proposed:
`InStep` is all that is left of a proposal, and it says that the pairs are pairs of equal items in
the order of both lists.

The last one is what a change of measure needs.  A place in a list becomes a place in what the list
spells (`place`); the order of places stays, and where no item is spelled by nothing it can be read
back.
-/

namespace RuleScan.Diff

variable {α β : Type}

/-! ## Stretches of a list -/

theorem drop_eq_drop_take_append (l : List α) {i k : Nat} (h : i ≤ k) :
    l.drop i = (l.take k).drop i ++ l.drop k := by
  rcases Nat.le_total k l.length with hk | hk
  · conv => lhs; rw [← List.take_append_drop k l]
    rw [List.drop_append, List.length_take_of_le hk, Nat.sub_eq_zero_of_le h, List.drop_zero]
  · rw [List.take_of_length_le hk, List.drop_eq_nil_of_le hk, List.append_nil]

theorem drop_take_eq_append (l : List α) {i k j : Nat} (h : i ≤ k) (hk : k ≤ j) :
    (l.take j).drop i = (l.take k).drop i ++ (l.take j).drop k := by
  rw [drop_eq_drop_take_append (l.take j) h, List.take_take, Nat.min_eq_left hk]

theorem drop_take_self (l : List α) (i : Nat) : (l.take i).drop i = [] :=
  List.drop_eq_nil_of_le (List.length_take_le i l)

namespace Edit

/-! ## Edits in order -/

theorem inOrder_cons {n i : Nat} {e : Edit α} {rest : List (Edit α)} :
    inOrder n i (e :: rest) = true ↔
      i ≤ e.start ∧ e.start ≤ e.stop ∧ e.stop ≤ n ∧ inOrder n e.stop rest = true := by
  simp only [inOrder, Bool.and_eq_true, decide_eq_true_eq, and_assoc]

theorem inOrder_of_le {n i k : Nat} {edits : List (Edit α)} (h : inOrder n k edits = true)
    (hik : i ≤ k) : inOrder n i edits = true := by
  cases edits with
  | nil => rfl
  | cons e rest =>
      rw [inOrder_cons] at h ⊢
      exact ⟨Nat.le_trans hik h.1, h.2⟩

theorem le_of_mem_inOrder {n i : Nat} {edits : List (Edit α)} (h : inOrder n i edits = true)
    {e : Edit α} (he : e ∈ edits) : e.start ≤ n ∧ e.stop ≤ n := by
  induction edits generalizing i with
  | nil => cases he
  | cons first rest ih =>
      rw [inOrder_cons] at h
      obtain ⟨-, hle, hstop, hrest⟩ := h
      rcases List.mem_cons.mp he with rfl | he
      · exact ⟨Nat.le_trans hle hstop, hstop⟩
      · exact ih hrest he

/-- What is before the first edit stays. -/
theorem applyFrom_of_le {old : List α} {i k : Nat} {edits : List (Edit α)}
    (h : inOrder old.length k edits = true) (hik : i ≤ k) :
    applyFrom old i edits = (old.take k).drop i ++ applyFrom old k edits := by
  cases edits with
  | nil => exact drop_eq_drop_take_append old hik
  | cons e rest =>
      rw [applyFrom, applyFrom, drop_take_eq_append old hik (inOrder_cons.mp h).1]
      simp only [List.append_assoc]

theorem mem_applyFrom {old : List α} {i : Nat} {edits : List (Edit α)} {e : Edit α} {a : α}
    (he : e ∈ edits) (ha : a ∈ e.lines) : a ∈ applyFrom old i edits := by
  induction edits generalizing i with
  | nil => cases he
  | cons first rest ih =>
      rw [applyFrom, List.mem_append, List.mem_append]
      rcases List.mem_cons.mp he with rfl | he
      · exact .inl (.inr ha)
      · exact .inr (ih he)

/-- Whatever comes out was there or was added. -/
theorem mem_or_mem_of_mem_applyFrom {old : List α} {i : Nat} {edits : List (Edit α)} {a : α}
    (h : a ∈ applyFrom old i edits) : a ∈ old ∨ ∃ e ∈ edits, a ∈ e.lines := by
  induction edits generalizing i with
  | nil => exact .inl (List.mem_of_mem_drop h)
  | cons e rest ih =>
      rw [applyFrom, List.mem_append, List.mem_append] at h
      rcases h with (h | h) | h
      · exact .inl (List.mem_of_mem_take (List.mem_of_mem_drop h))
      · exact .inr ⟨e, List.mem_cons_self, h⟩
      · exact (ih h).imp_right fun ⟨e', he', ha⟩ => ⟨e', List.mem_cons_of_mem e he', ha⟩

/-! ## The edits between two lists -/

/-- Pairs of places of equal items, each behind the one before in both lists. -/
inductive InStep (old new : List α) : Nat → Nat → List Pair → Prop
  | nil {i j : Nat} : InStep old new i j []
  | cons {i j x y : Nat} {rest : List Pair} (a : α) : i ≤ x → j ≤ y → old[x]? = some a →
      new[y]? = some a → InStep old new (x + 1) (y + 1) rest → InStep old new i j ((x, y) :: rest)

theorem inStep_of_proposed [DecidableEq α] (old new : List α) (i j : Nat) (pairs : List Pair) :
    InStep old new i j (inStep old new i j pairs) := by
  induction pairs generalizing i j with
  | nil => exact .nil
  | cons pair rest ih =>
      rw [inStep]
      split
      next h =>
        simp only [Bool.and_eq_true, decide_eq_true_eq] at h
        obtain ⟨⟨⟨⟨hi, hj⟩, hx⟩, -⟩, heq⟩ := h
        have hold := List.getElem?_eq_getElem hx
        exact .cons old[pair.1] hi hj hold (heq ▸ hold) (ih _ _)
      next => exact ih i j

/-- Whether or not there is something to replace before a pair, the new items up to it come out. -/
theorem applyFrom_between {old new : List α} {i x j y : Nat} {edits : List (Edit α)}
    (hi : i ≤ x) (hj : j ≤ y) :
    applyFrom old i ((between? new i x j y).toList ++ edits) =
      (new.take y).drop j ++ applyFrom old x edits := by
  rw [between?]
  split
  next => rw [Option.toList_some, List.singleton_append, applyFrom, drop_take_self, List.nil_append]
  next h =>
    simp only [Bool.or_eq_true, decide_eq_true_eq, not_or, Nat.not_lt] at h
    obtain rfl : i = x := Nat.le_antisymm hi h.1
    obtain rfl : j = y := Nat.le_antisymm hj h.2
    rw [Option.toList_none, List.nil_append, drop_take_self, List.nil_append]

theorem inOrder_between {new : List α} {n i x j y : Nat} {edits : List (Edit α)} (hi : i ≤ x)
    (hx : x ≤ n) (h : inOrder n x edits = true) :
    inOrder n i ((between? new i x j y).toList ++ edits) = true := by
  rw [between?]
  split
  · exact inOrder_cons.mpr ⟨Nat.le_refl i, hi, hx, h⟩
  · exact inOrder_of_le h hi

/-- The edits around common items are in order and make the one list of the other. -/
theorem around_of_inStep {old new : List α} {i j : Nat} {pairs : List Pair}
    (h : InStep old new i j pairs) (hi : i ≤ old.length) (hj : j ≤ new.length) :
    inOrder old.length i (around old new i j pairs) = true ∧
      applyFrom old i (around old new i j pairs) = new.drop j := by
  induction h with
  | nil =>
      rw [around, ← List.append_nil (Option.toList _)]
      refine ⟨inOrder_between hi (Nat.le_refl _) rfl, ?_⟩
      rw [applyFrom_between hi hj, applyFrom, List.drop_length, List.append_nil, List.take_length]
  | @cons i j x y rest a hix hjy hx hy hrest ih =>
      obtain ⟨hxlt, hxget⟩ := List.getElem?_eq_some_iff.mp hx
      obtain ⟨hylt, hyget⟩ := List.getElem?_eq_some_iff.mp hy
      obtain ⟨horder, happly⟩ := ih hxlt hylt
      rw [around]
      refine ⟨inOrder_between hix (Nat.le_of_lt hxlt) (inOrder_of_le horder (Nat.le_succ x)), ?_⟩
      have hkept : (old.take (x + 1)).drop x = [a] := by
        rw [List.take_succ_eq_append_getElem hxlt, hxget,
          List.drop_left' (List.length_take_of_le (Nat.le_of_lt hxlt))]
      calc applyFrom old i ((between? new i x j y).toList ++ around old new (x + 1) (y + 1) rest)
          = (new.take y).drop j ++ ([a] ++ new.drop (y + 1)) := by
            rw [applyFrom_between hix hjy, applyFrom_of_le horder (Nat.le_succ x), hkept, happly]
        _ = new.drop j := by
            rw [List.singleton_append, ← hyget, ← List.drop_eq_getElem_cons hylt,
              ← drop_eq_drop_take_append new hjy]

section

variable [DecidableEq α] (old new : List α)

theorem inOrder_ofLists : inOrder old.length 0 (ofLists old new) = true :=
  (around_of_inStep (inStep_of_proposed old new 0 0 _) (Nat.zero_le _) (Nat.zero_le _)).1

/-- The edits between two lists make the one of the other. -/
theorem apply_ofLists : apply old (ofLists old new) = new :=
  (around_of_inStep (inStep_of_proposed old new 0 0 _) (Nat.zero_le _) (Nat.zero_le _)).2

end

/-! ## Items replaced one by one -/

/-- An edit in which each item is replaced. -/
protected def map (f : α → β) (e : Edit α) : Edit β := ⟨e.start, e.stop, e.lines.map f⟩

theorem applyFrom_map (f : α → β) (old : List α) (i : Nat) (edits : List (Edit α)) :
    applyFrom (old.map f) i (edits.map (Edit.map f)) = (applyFrom old i edits).map f := by
  induction edits generalizing i with
  | nil => simp only [List.map_nil, applyFrom, List.map_drop]
  | cons e rest ih =>
      simp only [List.map_cons, applyFrom, ih, Edit.map, List.map_append, List.map_drop,
        List.map_take]

theorem inOrder_map (f : α → β) (n i : Nat) (edits : List (Edit α)) :
    inOrder n i (edits.map (Edit.map f)) = inOrder n i edits := by
  induction edits generalizing i with
  | nil => rfl
  | cons e rest ih => simp only [List.map_cons, inOrder, ih, Edit.map]

/-! ## Items spelled out -/

/-- A place of a list as a place in what the list spells. -/
def place (f : α → List β) (old : List α) (i : Nat) : Nat := ((old.take i).flatMap f).length

/-- An edit of a list as an edit of what the list spells. -/
protected def flatMap (f : α → List β) (old : List α) (e : Edit α) : Edit β :=
  ⟨place f old e.start, place f old e.stop, e.lines.flatMap f⟩

section

variable (f : α → List β) (old : List α)

theorem place_length : place f old old.length = (old.flatMap f).length := by
  rw [place, List.take_length]

theorem flatMap_take_of_le {i j : Nat} (h : i ≤ j) : (old.take j).flatMap f =
    (old.take i).flatMap f ++ ((old.take j).drop i).flatMap f := by
  have hsplit : old.take j = old.take i ++ (old.take j).drop i :=
    drop_take_eq_append old (Nat.zero_le i) h
  rw [← List.flatMap_append, ← hsplit]

theorem place_le {i j : Nat} (h : i ≤ j) : place f old i ≤ place f old j := by
  rw [place, place, flatMap_take_of_le f old h, List.length_append]
  exact Nat.le_add_right _ _

theorem take_place {i : Nat} (h : i ≤ old.length) :
    (old.flatMap f).take (place f old i) = (old.take i).flatMap f := by
  have hsplit := flatMap_take_of_le f old h
  rw [List.take_length] at hsplit
  rw [hsplit]
  exact List.take_left

theorem drop_place {i j : Nat} (h : i ≤ j) :
    ((old.take j).flatMap f).drop (place f old i) = ((old.take j).drop i).flatMap f := by
  rw [flatMap_take_of_le f old h]
  exact List.drop_left

/-- Edits of a list do to what the list spells what they do to the list. -/
theorem applyFrom_flatMap {i : Nat} {edits : List (Edit α)}
    (h : inOrder old.length i edits = true) (hi : i ≤ old.length) :
    applyFrom (old.flatMap f) (place f old i) (edits.map (Edit.flatMap f old)) =
      (applyFrom old i edits).flatMap f := by
  induction edits generalizing i with
  | nil =>
      have hdrop := drop_place f old hi
      rw [List.take_length] at hdrop
      exact hdrop
  | cons e rest ih =>
      obtain ⟨hstart, hle, hstop, hrest⟩ := inOrder_cons.mp h
      simp only [List.map_cons, applyFrom, Edit.flatMap, ih hrest hstop, List.flatMap_append,
        take_place f old (Nat.le_trans hle hstop), drop_place f old hstart]

theorem apply_flatMap {edits : List (Edit α)} (h : inOrder old.length 0 edits = true) :
    apply (old.flatMap f) (edits.map (Edit.flatMap f old)) = (apply old edits).flatMap f :=
  applyFrom_flatMap f old h (Nat.zero_le _)

theorem inOrder_flatMap {i : Nat} {edits : List (Edit α)}
    (h : inOrder old.length i edits = true) :
    inOrder (old.flatMap f).length (place f old i) (edits.map (Edit.flatMap f old)) = true := by
  induction edits generalizing i with
  | nil => rfl
  | cons e rest ih =>
      obtain ⟨hstart, hle, hstop, hrest⟩ := inOrder_cons.mp h
      rw [List.map_cons, inOrder_cons, ← place_length]
      exact ⟨place_le f old hstart, place_le f old hle, place_le f old hstop,
        by rw [place_length]; exact ih hrest⟩

variable {f} {old}

/-- Where no item is spelled by nothing, places are told apart by what is spelled before them. -/
theorem le_of_place_le (hf : ∀ a, f a ≠ []) {i j : Nat} (hi : i ≤ old.length)
    (h : place f old i ≤ place f old j) : i ≤ j := by
  refine Nat.le_of_not_lt fun hlt => ?_
  have hj : j < old.length := Nat.lt_of_lt_of_le hlt hi
  have hnext : place f old (j + 1) ≤ place f old i := place_le f old hlt
  have hone : 0 < (f old[j]).length := List.length_pos_iff.mpr (hf _)
  rw [place, List.take_succ_eq_append_getElem hj, List.flatMap_append, List.length_append,
    List.flatMap_singleton] at hnext
  change place f old j + (f old[j]).length ≤ place f old i at hnext
  omega

theorem inOrder_of_flatMap (hf : ∀ a, f a ≠ []) {i : Nat} {edits : List (Edit α)}
    (hin : ∀ e ∈ edits, e.start ≤ old.length ∧ e.stop ≤ old.length) (hi : i ≤ old.length)
    (h : inOrder (old.flatMap f).length (place f old i) (edits.map (Edit.flatMap f old)) = true) :
    inOrder old.length i edits = true := by
  induction edits generalizing i with
  | nil => rfl
  | cons e rest ih =>
      obtain ⟨⟨hstart, hstop⟩, hrest⟩ := List.forall_mem_cons.mp hin
      obtain ⟨hfirst, hle, -, hnext⟩ := inOrder_cons.mp h
      exact inOrder_cons.mpr ⟨le_of_place_le hf hi hfirst, le_of_place_le hf hstart hle, hstop,
        ih hrest hstop hnext⟩

end

end Edit

end RuleScan.Diff
