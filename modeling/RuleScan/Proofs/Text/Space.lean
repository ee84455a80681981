import Mathlib.Data.List.DropRight
import Mathlib.Data.List.Infix
import RuleScan.Proofs.Text.Utf8
import RuleScan.Text.Space

/-!
# Blanks and separators

Blanks are dropped from bytes (`trimBytes`) by counting the bytes of blank code points at each end,
and from text (`trim`) by dropping characters.

## What is proved

  * `decode_drop`, `decode_take` — bytes cut where a code point ends are decoded piece by piece;
  * `decode_trimBytes` — so trimming bytes drops the blank code points at both ends, nothing else;
  * `textOf_trimBytes` — hence it does not matter whether blanks are dropped from bytes that are
    then read, or from what was read;
  * `trim_trim` — and a second time there is nothing to drop;
  * `append_cons_cancel` and the lemmas after it — what is put together with separators can be taken
    apart again;
  * `cut?_eq_some_iff` — which is where a text is cut.

The one point of care is a cut in front of bytes that would have completed a sequence.  What stands
before the cut was decoded WITHOUT those bytes, so `firstRune_take` asks for no more than the width
of the code point.
-/

namespace RuleScan.Text

/-! ## Cutting at the end of a code point -/

/-- A code point that is not as wide as it would be has been replaced. -/
theorem eq_replacement_of_width {valid : Bool} {code width n : Nat}
    (h : (if valid then ⟨code, width⟩ else ⟨replacement, 1⟩ : Rune).width ≤ n) (hwidth : n < width) :
    (⟨replacement, 1⟩ : Rune) = if valid then ⟨code, width⟩ else ⟨replacement, 1⟩ := by
  cases valid with
  | true => exact absurd h (Nat.not_le.mpr hwidth)
  | false => rfl

/-- The first code point is read from no more bytes than it is wide. -/
theorem firstRune_take {b0 : UInt8} {rest : Bytes} {n : Nat}
    (h : (firstRune b0 rest).width ≤ n + 1) : firstRune b0 (rest.take n) = firstRune b0 rest := by
  revert h
  rw [firstRune.eq_def, firstRune.eq_def]
  -- The first byte tells how many more there are to be: none, one, two, three, or none at all.
  split
  · exact fun _ => rfl
  split
  · intro h
    rcases rest with _ | ⟨b1, rest⟩
    · rw [List.take_nil]
    · rcases n with _ | n
      · exact eq_replacement_of_width h (by decide)
      · rfl
  split
  · intro h
    rcases rest with _ | ⟨b1, _ | ⟨b2, rest⟩⟩
    · rw [List.take_nil]
    · rcases n with _ | n
      · rfl
      · rw [List.take_succ_cons, List.take_nil]
    · rcases n with _ | _ | n
      · exact eq_replacement_of_width h (by decide)
      · exact eq_replacement_of_width h (by decide)
      · rfl
  split
  · intro h
    rcases rest with _ | ⟨b1, _ | ⟨b2, _ | ⟨b3, rest⟩⟩⟩
    · rw [List.take_nil]
    · rcases n with _ | n
      · rfl
      · rw [List.take_succ_cons, List.take_nil]
    · rcases n with _ | _ | n
      · rfl
      · rfl
      · rw [List.take_succ_cons, List.take_succ_cons, List.take_nil]
    · rcases n with _ | _ | _ | n
      · exact eq_replacement_of_width h (by decide)
      · exact eq_replacement_of_width h (by decide)
      · exact eq_replacement_of_width h (by decide)
      · rfl
  · exact fun _ => rfl

/-- The number of bytes of some code points. -/
abbrev bytesIn (runes : List Rune) : Nat := total (runes.map Rune.width)

theorem bytesIn_append (front rest : List Rune) :
    bytesIn (front ++ rest) = bytesIn front + bytesIn rest := by
  induction front with
  | nil => exact (Nat.zero_add _).symm
  | cons r front ih =>
      show r.width + bytesIn (front ++ rest) = r.width + bytesIn front + bytesIn rest
      rw [ih, Nat.add_assoc]

theorem bytesIn_reverse (runes : List Rune) : bytesIn runes.reverse = bytesIn runes := by
  induction runes with
  | nil => rfl
  | cons r runes ih =>
      rw [List.reverse_cons, bytesIn_append, ih]
      show bytesIn runes + (r.width + 0) = r.width + bytesIn runes
      omega

theorem decode_drop (bs : Bytes) (k : Nat) :
    decode (bs.drop (bytesIn ((decode bs).take k))) = (decode bs).drop k := by
  induction k generalizing bs with
  | zero => rfl
  | succ k ih =>
      cases bs with
      | nil => simp [decode]
      | cons b0 rest =>
          have hwidth := firstRune_width b0 rest
          have hbytes : bytesIn (((decode (b0 :: rest))).take (k + 1)) =
              (firstRune b0 rest).width +
                bytesIn ((decode (rest.drop ((firstRune b0 rest).width - 1))).take k) := by
            rw [decode, List.take_succ_cons]
            rfl
          have hdrop : (b0 :: rest).drop (bytesIn ((decode (b0 :: rest)).take (k + 1))) =
              (rest.drop ((firstRune b0 rest).width - 1)).drop
                (bytesIn ((decode (rest.drop ((firstRune b0 rest).width - 1))).take k)) := by
            rw [hbytes, List.drop_drop, show ∀ t, (firstRune b0 rest).width + t =
              (firstRune b0 rest).width - 1 + t + 1 by omega, List.drop_succ_cons]
          rw [hdrop, ih, decode, List.drop_succ_cons]

theorem decode_take (bs : Bytes) (k : Nat) :
    decode (bs.take (bytesIn ((decode bs).take k))) = (decode bs).take k := by
  induction k generalizing bs with
  | zero => simp [decode, total]
  | succ k ih =>
      cases bs with
      | nil => simp [decode]
      | cons b0 rest =>
          have hwidth := firstRune_width b0 rest
          have hbytes : bytesIn (((decode (b0 :: rest))).take (k + 1)) =
              (firstRune b0 rest).width - 1 +
                bytesIn ((decode (rest.drop ((firstRune b0 rest).width - 1))).take k) + 1 := by
            rw [decode, List.take_succ_cons]
            show (firstRune b0 rest).width + bytesIn _ = _
            omega
          rw [hbytes, List.take_succ_cons, decode, firstRune_take (by omega), decode,
            List.take_succ_cons, List.drop_take, Nat.add_sub_cancel_left, ih]

/-! ## Trimming -/

/-- Trimming drops the blank code points at both ends. -/
theorem decode_trimBytes (bs : Bytes) :
    decode (trimBytes bs) = ((decode bs).dropWhile isSpaceRune).rdropWhile isSpaceRune := by
  have hfront : decode (bs.drop (blankWidth (decode bs))) = (decode bs).dropWhile isSpaceRune := by
    rw [blankWidth, List.takeWhile_eq_take_findIdx_not, decode_drop,
      ← List.dropWhile_eq_drop_findIdx_not]
  rw [trimBytes, ← hfront]
  generalize bs.drop (blankWidth (decode bs)) = rest
  have hkept : (decode rest).take ((decode rest).rdropWhile isSpaceRune).length =
      (decode rest).rdropWhile isSpaceRune :=
    (List.prefix_iff_eq_take.mp (List.rdropWhile_prefix isSpaceRune (decode rest))).symm
  -- What is cut off behind are the bytes of the blank code points at the end.
  have hlength : rest.length - blankWidth (decode rest).reverse =
      bytesIn ((decode rest).rdropWhile isSpaceRune) := by
    have hblank : blankWidth (decode rest).reverse =
        bytesIn ((decode rest).rtakeWhile isSpaceRune) := (bytesIn_reverse _).symm
    have htotal : rest.length = bytesIn ((decode rest).rdropWhile isSpaceRune) +
        bytesIn ((decode rest).rtakeWhile isSpaceRune) := by
      rw [← bytesIn_append, List.rdropWhile_append_rtakeWhile]
      exact (total_decode rest).symm
    rw [hblank, htotal, Nat.add_sub_cancel]
  rw [hlength, ← hkept, decode_take, hkept]

/-- It does not matter whether bytes are trimmed or what they stand for. -/
theorem textOf_trimBytes (bs : Bytes) : textOf (trimBytes bs) = trim (textOf bs) := by
  rw [textOf, decode_trimBytes, trim, textOf, String.toList_ofList, trimWhile, dropEndWhile,
    List.dropWhile_map, ← List.map_reverse, List.dropWhile_map, ← List.map_reverse]
  rfl

theorem trimWhile_trimWhile (p : Char → Bool) (cs : List Char) :
    trimWhile p (trimWhile p cs) = trimWhile p cs := by
  show ((((cs.dropWhile p).rdropWhile p).dropWhile p).rdropWhile p) = (cs.dropWhile p).rdropWhile p
  -- The first character that stays is the first one that is not dropped in front.
  have hfront : ((cs.dropWhile p).rdropWhile p).dropWhile p = (cs.dropWhile p).rdropWhile p := by
    rw [List.dropWhile_eq_self_iff]
    intro hpos
    have hkept := List.rdropWhile_prefix p (cs.dropWhile p)
    have hlength : 0 < (cs.dropWhile p).length := hpos.trans_le hkept.length_le
    have hfirst := List.dropWhile_eq_self_iff.mp (List.dropWhile_idempotent p cs) hlength
    rwa [hkept.getElem hpos]
  rw [hfront, List.rdropWhile_idempotent]

theorem trim_trim (s : String) : trim (trim s) = trim s := by
  rw [trim, trim, String.toList_ofList, trimWhile_trimWhile]

end RuleScan.Text

/-!
## Texts that are put together with separators

What was put together can be taken apart again if the separator is not found in the parts, or not
before it or behind it.  In particular an index is told by the text in which it is put in brackets.
-/

namespace RuleScan

section

variable {α : Type}

/-- What is before the first of some separators is told by the whole. -/
theorem append_cons_cancel {c : α} {a a' r r' : List α} (h : c ∉ a) (h' : c ∉ a')
    (heq : a ++ c :: r = a' ++ c :: r') : a = a' ∧ r = r' := by
  induction a generalizing a' with
  | nil =>
      cases a' with
      | nil => exact ⟨rfl, (List.cons.inj heq).2⟩
      | cons d rest => exact absurd ((List.cons.inj heq).1 ▸ List.mem_cons_self) h'
  | cons b a ih =>
      cases a' with
      | nil => exact absurd ((List.cons.inj heq).1 ▸ List.mem_cons_self) h
      | cons d rest =>
          obtain ⟨rfl, htail⟩ := List.cons.inj heq
          obtain ⟨rfl, hr⟩ := ih (fun hc => h (List.mem_cons_of_mem _ hc))
            (fun hc => h' (List.mem_cons_of_mem _ hc)) htail
          exact ⟨rfl, hr⟩

/-- What is behind the last of some separators is told by the whole. -/
theorem append_cons_cancel_last {c : α} {a a' r r' : List α} (h : c ∉ r) (h' : c ∉ r')
    (heq : a ++ c :: r = a' ++ c :: r') : a = a' ∧ r = r' := by
  have hreverse := congrArg List.reverse heq
  simp only [List.reverse_append, List.reverse_cons, List.append_assoc, List.singleton_append]
    at hreverse
  obtain ⟨hr, ha⟩ := append_cons_cancel (by simpa using h) (by simpa using h') hreverse
  exact ⟨List.reverse_injective ha, List.reverse_injective hr⟩

/-- Where a separator of two different items is not found earlier, it starts at the front. -/
theorem eq_nil_of_pair {c d : α} (hcd : c ≠ d) {a t r r' : List α} (h : ¬ [c, d] <:+: a ++ t)
    (heq : c :: d :: r = t ++ c :: d :: r') : t = [] := by
  match t, heq with
  | [], _ => rfl
  | [e], heq => exact absurd (List.cons.inj (List.cons.inj heq).2).1.symm hcd
  | e :: e' :: rest, heq =>
      obtain ⟨he, htail⟩ := List.cons.inj heq
      obtain ⟨he', -⟩ := List.cons.inj htail
      exact absurd ⟨a, rest, by simp [he, he']⟩ h

/-- What is before the first of some such separators is told by the whole. -/
theorem append_pair_cancel {c d : α} (hcd : c ≠ d) {a a' r r' : List α} (h : ¬ [c, d] <:+: a)
    (h' : ¬ [c, d] <:+: a') (heq : a ++ c :: d :: r = a' ++ c :: d :: r') : a = a' ∧ r = r' := by
  have hfront : a = a' := by
    rcases List.append_eq_append_iff.mp heq with ⟨t, rfl, hr⟩ | ⟨t, rfl, hr⟩
    · rw [eq_nil_of_pair hcd h' hr, List.append_nil]
    · rw [eq_nil_of_pair hcd h hr, List.append_nil]
  subst hfront
  simpa using heq

/-- A pair does not reach into a list that its second item is not in. -/
theorem infix_of_infix_append {c d : α} {a b : List α} (h : [c, d] <:+: a ++ b) (hd : d ∉ b) :
    [c, d] <:+: a := by
  rcases List.infix_append_iff.mp h with ha | hb | ⟨front, back, hpair, hfront, hback⟩
  · exact ha
  · exact absurd (hb.subset (by simp)) hd
  · rcases back.eq_nil_or_concat with rfl | ⟨rest, e, rfl⟩
    · rw [List.append_nil] at hpair
      exact hpair ▸ hfront.isInfix
    · have hlast := congrArg List.getLast? hpair
      rw [List.concat_eq_append, ← List.append_assoc, List.getLast?_concat] at hlast
      obtain rfl : d = e := Option.some.inj hlast
      exact absurd (hback.subset (by simp)) hd

/-- Words that are ended by an item which is in none of them are told by the whole. -/
theorem flatMap_ended_cancel {c : α} {l l' : List (List α)} (h : ∀ w ∈ l, c ∉ w)
    (h' : ∀ w ∈ l', c ∉ w) (heq : (l.flatMap (· ++ [c])) = l'.flatMap (· ++ [c])) : l = l' := by
  induction l generalizing l' with
  | nil =>
      cases l' with
      | nil => rfl
      | cons w rest => simp at heq
  | cons w l ih =>
      cases l' with
      | nil => simp at heq
      | cons w' l' =>
          simp only [List.flatMap_cons, List.append_assoc, List.singleton_append] at heq
          obtain ⟨hw, hl⟩ := List.forall_mem_cons.mp h
          obtain ⟨hw', hl'⟩ := List.forall_mem_cons.mp h'
          obtain ⟨rfl, hrest⟩ := append_cons_cancel hw hw' heq
          rw [ih hl hl' hrest]

end

/-! ## Cutting a text -/

/-- A text is cut at the first of some separators. -/
theorem Text.cut?_eq_some_iff {c : Char} {cs front rest : List Char} :
    Text.cut? [c] cs = some (front, rest) ↔ c ∉ front ∧ cs = front ++ c :: rest := by
  induction cs generalizing front with
  | nil => simp [Text.cut?]
  | cons d cs ih =>
      rw [Text.cut?]
      by_cases hd : d = c
      · rw [if_pos (by simp [hd]), Option.some_inj, Prod.mk.injEq]
        constructor
        · rintro ⟨rfl, rfl⟩
          exact ⟨List.not_mem_nil, by rw [hd]; rfl⟩
        · rintro ⟨hfront, heq⟩
          rw [hd] at heq
          exact append_cons_cancel List.not_mem_nil hfront heq
      · rw [if_neg (by simp [Ne.symm hd]), Option.map_eq_some_iff]
        constructor
        · rintro ⟨pair, hrest, heq⟩
          obtain ⟨rfl, rfl⟩ := Prod.mk.inj heq
          obtain ⟨hbefore, rfl⟩ := ih.mp hrest
          exact ⟨fun hmem => (List.mem_cons.mp hmem).elim (Ne.symm hd) hbefore, rfl⟩
        · rintro ⟨hfront, heq⟩
          cases front with
          | nil => exact absurd (List.cons.inj heq).1 hd
          | cons e front =>
              obtain ⟨rfl, htail⟩ := List.cons.inj heq
              have hfront : c ∉ front := fun hmem => hfront (List.mem_cons_of_mem _ hmem)
              exact ⟨(front, rest), ih.mpr ⟨hfront, htail⟩, rfl⟩

/-! ## Numbers -/

theorem notMem_toDigits {c : Char} (hdigit : c.isDigit = false) (n : Nat) :
    c ∉ Nat.toDigits 10 n := by
  intro hc
  rw [Nat.isDigit_of_mem_toDigits (by decide) (by decide) hc] at hdigit
  cases hdigit

theorem toDigits_injective {m n : Nat} (h : Nat.toDigits 10 m = Nat.toDigits 10 n) : m = n := by
  rw [← Nat.ofDigitChars_ten_toDigits (n := m), h, Nat.ofDigitChars_ten_toDigits]

theorem toList_toString_nat (n : Nat) : (toString n).toList = Nat.toDigits 10 n := by
  rw [Nat.toString_eq_repr, Nat.repr_eq_ofList_toDigits, String.toList_ofList]

/-- An index in brackets is told by the whole. -/
theorem index_cancel {i k : Nat} {r r' : List Char}
    (h : (toString i).toList ++ ']' :: r = (toString k).toList ++ ']' :: r') : i = k ∧ r = r' := by
  rw [toList_toString_nat, toList_toString_nat] at h
  obtain ⟨hdigits, hrest⟩ := append_cons_cancel (notMem_toDigits (by decide) i)
    (notMem_toDigits (by decide) k) h
  exact ⟨toDigits_injective hdigits, hrest⟩

end RuleScan
