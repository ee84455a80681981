import Mathlib.Data.List.TakeDrop
import RuleScan.Json.Read
import RuleScan.Json.Write
import RuleScan.Proofs.Text.Utf8

/-!
# Texts and numbers of JSON

What is written for a text or a number is read as it, whatever stands behind.

## What is proved

  * `readText_writeText` — a text, with every character that has to be escaped;
  * `writeBytes_bytesOf` — bytes that make up a text are written as the text;
  * `readNumber_toString` — an integer of any size, in front of what does not EXTEND it.

## Why

A character of a text is written as itself or as one escape, and either is read as one character
(`readText_escapeChar`).  A character that is written by its number stands in the basic plane, and
since it is no half of a surrogate pair, no second escape is waited for.
-/

namespace RuleScan.Json

open RuleScan.Text

/-! ## Numbered escapes -/

/-- Digits that are read in two goes. -/
theorem hexDigits_add {n k acc m : Nat} {cs rest : List Char}
    (h : hexDigits n acc cs = .ok (m, rest)) : hexDigits (n + k) acc cs = hexDigits k m rest := by
  induction n generalizing acc cs with
  | zero =>
      cases h
      rw [Nat.zero_add]
  | succ n ih =>
      cases cs with
      | nil => cases h
      | cons c cs =>
          rw [hexDigits] at h
          rw [Nat.add_right_comm, hexDigits]
          cases hc : hexValue? c with
          | none =>
              rw [hc] at h
              cases h
          | some d =>
              rw [hc] at h
              exact ih h

theorem hexValue?_digitChar : ∀ d < 16, hexValue? d.digitChar = some d := by
  decide

theorem hexDigits_toDigits (n : Nat) (rest : List Char) :
    hexDigits (Nat.toDigits 16 n).length 0 (Nat.toDigits 16 n ++ rest) = .ok (n, rest) := by
  induction n using Nat.strongRecOn generalizing rest with
  | ind n ih =>
      by_cases hn : n < 16
      · rw [Nat.toDigits_of_lt_base hn, List.length_singleton, List.singleton_append, hexDigits,
          hexValue?_digitChar n hn]
        simp only [Nat.zero_mul, Nat.zero_add]
        rfl
      · rw [Nat.toDigits_of_base_le (by decide) (by omega), List.length_append,
          List.length_singleton, List.append_assoc, List.singleton_append,
          hexDigits_add (ih (n / 16) (by omega) _), hexDigits,
          hexValue?_digitChar (n % 16) (by omega)]
        dsimp only
        rw [hexDigits]
        congr 2
        omega

theorem hexDigits_zeros (n : Nat) (rest : List Char) :
    hexDigits n 0 (List.replicate n '0' ++ rest) = .ok (0, rest) := by
  induction n with
  | zero => rfl
  | succ n ih => exact ih

theorem hexDigits_hexPadded {width n : Nat} (hwidth : (Nat.toDigits 16 n).length ≤ width)
    (rest : List Char) : hexDigits width 0 ((hexPadded width n).toList ++ rest) = .ok (n, rest) := by
  obtain ⟨zeros, rfl⟩ := Nat.exists_eq_add_of_le' hwidth
  rw [hexPadded, String.toList_ofList, List.append_assoc, Nat.add_sub_cancel,
    hexDigits_add (hexDigits_zeros zeros _), hexDigits_toDigits]

/-- A character of the basic plane is read from its number. -/
theorem numbered_hexPadded {c : Char} (hc : c.toNat < 0x10000) (rest : List Char) :
    numbered ((hexPadded 4 c.toNat).toList ++ rest) = .ok (c, rest) := by
  have hwidth : (Nat.toDigits 16 c.toNat).length ≤ 4 :=
    (Nat.length_toDigits_le_iff (by decide) (by decide)).mpr hc
  have hsurrogate : ¬ (0xD800 ≤ c.toNat ∧ c.toNat ≤ 0xDFFF) := (code_bound c).2
  have hhigh : (0xD800 ≤ c.toNat && c.toNat < 0xDC00) = false := by simp; omega
  have hlow : (0xDC00 ≤ c.toNat && c.toNat < 0xE000) = false := by simp; omega
  simp only [numbered, hexDigits_hexPadded hwidth rest, bind, Except.bind, hhigh, hlow,
    Bool.false_eq_true, if_false]
  rw [Char.ofNat_toNat]
  rfl

/-! ## Texts -/

/-- A written character is read as the character. -/
theorem readText_escapeChar (fuel : Nat) (c : Char) (rest acc : List Char) :
    readText (fuel + 1) (escapeChar c ++ rest) acc = readText fuel rest (c :: acc) := by
  unfold escapeChar
  split
  case h_8 hquote hbackslash _ _ _ _ _ =>
    dsimp only
    split
    · next hescaped =>
        have hcode : c.toNat < 0x10000 := by
          simp only [Bool.or_eq_true, decide_eq_true_eq] at hescaped
          rcases hescaped with ((((hn | rfl) | rfl) | rfl) | hn) | hn
          · omega
          · decide
          · decide
          · decide
          · omega
          · omega
        simp only [List.cons_append, readText, escape, numbered_hexPadded hcode]
    · next hplain =>
        have hcode : ¬ c.toNat < 0x20 := by
          simp only [Bool.or_eq_true, decide_eq_true_eq] at hplain
          omega
        rw [List.singleton_append, readText.eq_5 _ _ _ _ hquote hbackslash, if_neg hcode]
  all_goals rfl

/-- Every character takes one step, so a text is read to its end. -/
theorem readText_flatMap {fuel : Nat} {cs : List Char} (hfuel : cs.length < fuel)
    (rest acc : List Char) : readText fuel (cs.flatMap escapeChar ++ '"' :: rest) acc =
      .ok (String.ofList (acc.reverse ++ cs), rest) := by
  induction cs generalizing fuel acc with
  | nil =>
      obtain ⟨fuel, rfl⟩ := Nat.exists_eq_add_of_lt hfuel
      simp [readText]
  | cons c cs ih =>
      obtain ⟨k, rfl⟩ := Nat.exists_eq_add_of_lt hfuel
      rw [List.flatMap_cons, List.append_assoc, readText_escapeChar,
        ih (by rw [List.length_cons]; omega)]
      simp

theorem length_le_flatMap_escapeChar (cs : List Char) :
    cs.length ≤ (cs.flatMap escapeChar).length := by
  have hone : ∀ c, 1 ≤ (escapeChar c).length := by
    intro c
    unfold escapeChar
    split
    case h_8 =>
      dsimp only
      split <;> simp
    all_goals decide
  induction cs with
  | nil => exact Nat.le_refl 0
  | cons c cs ih =>
      have hc := hone c
      rw [List.flatMap_cons, List.length_append, List.length_cons]
      omega

theorem toList_writeText (s : String) :
    (writeText s).toList = '"' :: (s.toList.flatMap escapeChar ++ ['"']) :=
  String.toList_ofList

/-- Behind its opening quote, a written text is read as the text. -/
theorem readText_writeText (s : String) (rest : List Char) :
    ∃ cs, (writeText s).toList ++ rest = '"' :: cs ∧
      readText (cs.length + 1) cs [] = .ok (s, rest) := by
  refine ⟨s.toList.flatMap escapeChar ++ '"' :: rest, by simp [toList_writeText], ?_⟩
  have hlength := length_le_flatMap_escapeChar s.toList
  rw [readText_flatMap (by rw [List.length_append]; omega)]
  simp

/-- The bytes of a text hold no byte outside a sequence, so they are written as the text. -/
theorem writeBytes_bytesOf (s : String) : writeBytes (bytesOf s) = writeText s := by
  have hwidth : ∀ c : Char, ¬ (c.toNat = replacement ∧ (String.utf8EncodeChar c).length = 1) := by
    rintro c ⟨hcode, hlength⟩
    obtain rfl : c = Char.ofNat replacement := by rw [← hcode, Char.ofNat_toNat]
    revert hlength
    decide
  rw [writeBytes, writeText, bytesOf_eq, decode_flatMap, List.flatMap_map]
  simp only [Bool.and_eq_true, decide_eq_true_eq, hwidth, if_false, Char.ofNat_toNat]

/-! ## Numbers -/

/-- What does not go on with a number: it ends there, or something else stands there. -/
def Closed (rest : List Char) : Prop :=
  ∀ c ∈ rest.head?, c.isDigit = false ∧ c ≠ '.' ∧ c ≠ 'e' ∧ c ≠ 'E'

theorem closed_cons {c : Char} {rest : List Char}
    (h : c.isDigit = false ∧ c ≠ '.' ∧ c ≠ 'e' ∧ c ≠ 'E') : Closed (c :: rest) := by
  intro d hd
  cases hd
  exact h

namespace Closed

variable {rest : List Char} (h : Closed rest)

include h

theorem readFraction_eq : readFraction rest = .ok (none, rest) := by
  cases rest with
  | nil => rfl
  | cons c rest =>
      obtain ⟨-, hpoint, -⟩ := h c rfl
      rw [readFraction]
      rintro r heq
      exact hpoint (List.cons.inj heq).1

theorem readExponent_eq : readExponent rest = .ok (none, rest) := by
  cases rest with
  | nil => rfl
  | cons c rest =>
      obtain ⟨-, -, he, hE⟩ := h c rfl
      simp only [readExponent.eq_def, he, hE, decide_false, Bool.or_false, Bool.false_eq_true,
        if_false]

theorem span_digits {ds : List Char} (hds : ∀ d ∈ ds, d.isDigit = true) :
    (ds ++ rest).span Char.isDigit = (ds, rest) := by
  have htake : rest.takeWhile Char.isDigit = [] ∧ rest.dropWhile Char.isDigit = rest := by
    cases rest with
    | nil => exact ⟨rfl, rfl⟩
    | cons c rest =>
        obtain ⟨hc, -⟩ := h c rfl
        simp [hc]
  rw [List.span_eq_takeWhile_dropWhile, List.takeWhile_append_of_pos hds,
    List.dropWhile_append_of_pos hds, htake.1, htake.2, List.append_nil]

end Closed

theorem digitChar_ne_zero : ∀ d < 10, d ≠ 0 → d.digitChar ≠ '0' := by
  decide

/-- Only the number zero starts with a zero. -/
theorem toDigits_cases (n : Nat) : n = 0 ∨ ∃ d ds, Nat.toDigits 10 n = d :: ds ∧ d ≠ '0' := by
  induction n using Nat.strongRecOn with
  | ind n ih =>
      by_cases hn : n < 10
      · rw [Nat.toDigits_of_lt_base hn]
        by_cases hzero : n = 0
        · exact .inl hzero
        · exact .inr ⟨_, _, rfl, digitChar_ne_zero n hn hzero⟩
      · rw [Nat.toDigits_of_base_le (by decide) (by omega)]
        rcases ih (n / 10) (by omega) with hzero | ⟨d, ds, hdigits, hd⟩
        · omega
        · exact .inr ⟨d, _, by rw [hdigits, List.cons_append], hd⟩

theorem digitsValue_toDigits (n : Nat) : digitsValue (Nat.toDigits 10 n) = n := by
  have hfold : Nat.ofDigitChars 10 (Nat.toDigits 10 n) 0 = digitsValue (Nat.toDigits 10 n) := by
    rw [Nat.ofDigitChars_eq_foldl, digitsValue]
    simp only [Nat.mul_comm 10]
    rfl
  rw [← hfold, Nat.ofDigitChars_ten_toDigits]

theorem readWhole_toDigits (n : Nat) {rest : List Char} (h : Closed rest) :
    readWhole (Nat.toDigits 10 n ++ rest) = .ok (Nat.toDigits 10 n, rest) := by
  rcases toDigits_cases n with rfl | ⟨d, ds, hdigits, hd⟩
  · rw [Nat.toDigits_zero]
    rfl
  · have hspan := h.span_digits fun c (hc : c ∈ Nat.toDigits 10 n) =>
      Nat.isDigit_of_mem_toDigits (by decide) (by decide) hc
    rw [readWhole, someDigits, hspan]
    · rw [hdigits]
      rfl
    · rw [hdigits]
      rintro r heq
      exact hd (List.cons.inj heq).1

theorem toList_toString (n : Int) : (toString n).toList =
    if 0 ≤ n then Nat.toDigits 10 n.toNat else '-' :: Nat.toDigits 10 (-n).toNat := by
  rw [Int.toString_eq_repr, Int.repr_eq_if]
  split
  · rw [Nat.repr_eq_ofList_toDigits, String.toList_ofList]
  · simp only [Nat.repr_eq_ofList_toDigits, String.toList_append, String.toList_ofList]
    rfl

theorem exists_toDigits (n : Nat) : ∃ d ds, Nat.toDigits 10 n = d :: ds ∧ d.isDigit = true := by
  cases hdigits : Nat.toDigits 10 n with
  | nil => exact absurd hdigits Nat.toDigits_ne_nil
  | cons d ds =>
      refine ⟨d, ds, rfl, Nat.isDigit_of_mem_toDigits (b := 10) (n := n) (by decide) (by decide) ?_⟩
      rw [hdigits]
      exact List.mem_cons_self

/-- The first character of a number is a digit or a sign. -/
theorem exists_toString (n : Int) : ∃ c cs, (toString n).toList = c :: cs ∧
    (c.isDigit = true ∨ c = '-') := by
  rw [toList_toString]
  split
  · obtain ⟨d, ds, hdigits, hd⟩ := exists_toDigits n.toNat
    exact ⟨d, ds, hdigits, .inl hd⟩
  · exact ⟨_, _, rfl, .inr rfl⟩

/-- A written integer is read as the integer. -/
theorem readNumber_toString (n : Int) {rest : List Char} (h : Closed rest) :
    readNumber ((toString n).toList ++ rest) = .ok (.int n, rest) := by
  rw [toList_toString]
  split
  · next hn =>
      obtain ⟨d, ds, hdigits, hd⟩ := exists_toDigits n.toNat
      have hsign : d ≠ '-' := by
        rintro rfl
        cases hd
      have hwhole := readWhole_toDigits n.toNat h
      rw [hdigits, List.cons_append] at hwhole ⊢
      simp only [readNumber]
      split
      · next heq => exact absurd (List.cons.inj heq).1 hsign
      · simp only [hwhole, h.readFraction_eq, h.readExponent_eq, bind, Except.bind,
          Bool.false_eq_true, if_false]
        rw [← hdigits, digitsValue_toDigits, Int.toNat_of_nonneg hn]
        rfl
  · next hn =>
      rw [List.cons_append, readNumber]
      simp only [readWhole_toDigits _ h, h.readFraction_eq, h.readExponent_eq, bind, Except.bind,
        digitsValue_toDigits, if_true]
      have hvalue : -(((-n).toNat : Nat) : Int) = n := by omega
      rw [hvalue]
      rfl

end RuleScan.Json
