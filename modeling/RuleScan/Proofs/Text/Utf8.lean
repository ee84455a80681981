import RuleScan.Text.Utf8

/-!
# Text as bytes and back

`Text.bytesOf` writes a text as bytes and `Text.textOf` reads bytes as a text.  Reading never
fails, so what is left to say is that it undoes writing, and where the bytes of a text can be cut.

## What is proved

  * `textOf_bytesOf` — reading the bytes of a text gives the text;
  * `mem_bytesOf` — a byte below 128 stands among the bytes of a text only as one of its characters;
  * `total_decode` — the widths of decoded code points add up to the number of bytes;
  * `head?_textOf_eq_some_iff` — a text starts with a character below 128 just if its bytes do;
  * `IsText.exists_char` — each byte of a text lies in one of its characters;
  * `IsText.take_iff` — the bytes before a place are those of a text exactly if the byte at the
    place does not continue a character;
  * `IsText.exists_boundary` — from any place it is at most three bytes back to such a place.

## Why

A path is printed as bytes, ended by a zero byte, and read back from the bytes before it.  That
works because no zero byte hides inside the bytes of another character.
-/

namespace RuleScan.Text

/-! ## The bytes of a text, character by character -/

theorem byteArray_loop (bs : ByteArray) (i : Nat) (r : Bytes) :
    ByteArray.toList.loop bs i r = r.reverse ++ bs.data.toList.drop i := by
  fun_induction ByteArray.toList.loop bs i r with
  | case1 i r hi ih =>
      have hlength : i < bs.data.toList.length := hi
      have hget : bs.get! i = bs.data.toList[i] := getElem!_pos bs.data i hi
      rw [ih, List.drop_eq_getElem_cons hlength, hget, List.reverse_cons, List.append_assoc]
      rfl
  | case2 i r hi =>
      have hlength : bs.data.toList.length ≤ i := Nat.le_of_not_lt hi
      rw [List.drop_eq_nil_of_le hlength, List.append_nil]

theorem bytesOf_ofList (cs : List Char) :
    bytesOf (String.ofList cs) = cs.flatMap String.utf8EncodeChar := by
  have hbytes : (String.ofList cs).toUTF8 = (cs.flatMap String.utf8EncodeChar).toByteArray := by
    rw [String.toUTF8_eq_toByteArray, String.toByteArray_ofList]
    rfl
  rw [bytesOf, hbytes, ByteArray.toList, byteArray_loop, List.toList_data_toByteArray]
  rfl

/-! ## Reading one character -/

theorem not_lt_of_le_toNat {b : UInt8} (h : 0x80 ≤ b.toNat) : ¬ b < 0x80 :=
  fun hlt => absurd (UInt8.lt_iff_toNat_lt.mp hlt) (Nat.not_lt.mpr h)

/-- Bounds on a byte are bounds on its number. -/
theorem between_iff {low high b : UInt8} :
    (low ≤ b && b ≤ high) = true ↔ low.toNat ≤ b.toNat ∧ b.toNat ≤ high.toNat := by
  simp [UInt8.le_iff_toNat_le]

/-- Whether a number is that of a byte that follows a first one. -/
def TailCode (n : Nat) : Prop := 0x80 ≤ n ∧ n ≤ 0xBF

theorem isTail_of_tailCode {b : UInt8} (h : TailCode b.toNat) : isTail b = true :=
  between_iff.mpr h

theorem firstRune_one {b0 : UInt8} (h0 : b0.toNat < 0x80) (rest : Bytes) :
    firstRune b0 rest = ⟨b0.toNat, 1⟩ := by
  have hlow : b0 < 0x80 := UInt8.lt_iff_toNat_lt.mpr h0
  simp only [firstRune, hlow, if_true]

theorem firstRune_two {b0 b1 : UInt8} (h0 : 0xC2 ≤ b0.toNat ∧ b0.toNat ≤ 0xDF)
    (h1 : TailCode b1.toNat) (rest : Bytes) :
    firstRune b0 (b1 :: rest) = ⟨b0.toNat % 32 * 64 + b1.toNat % 64, 2⟩ := by
  have hlow : ¬ b0 < 0x80 := not_lt_of_le_toNat (by omega)
  have hfirst : (0xC2 ≤ b0 && b0 ≤ 0xDF) = true := between_iff.mpr h0
  rw [firstRune, if_neg hlow, if_pos hfirst]
  simp only [isTail_of_tailCode h1, if_true, tailBits]

/-- The second of three bytes, unless the form is overlong or a surrogate. -/
theorem secondOfThree_of_tailCode {b0 b1 : UInt8} (h1 : TailCode b1.toNat)
    (hlong : b0.toNat = 0xE0 → 0xA0 ≤ b1.toNat) (hsurrogate : b0.toNat = 0xED → b1.toNat ≤ 0x9F) :
    secondOfThree b0 b1 = true := by
  rw [secondOfThree]
  split
  · rename_i hb0
    exact between_iff.mpr ⟨hlong (hb0 ▸ rfl), h1.2⟩
  · split
    · rename_i hb0
      exact between_iff.mpr ⟨h1.1, hsurrogate (hb0 ▸ rfl)⟩
    · exact isTail_of_tailCode h1

theorem firstRune_three {b0 b1 b2 : UInt8} (h0 : 0xE0 ≤ b0.toNat ∧ b0.toNat ≤ 0xEF)
    (h1 : TailCode b1.toNat) (h2 : TailCode b2.toNat) (hlong : b0.toNat = 0xE0 → 0xA0 ≤ b1.toNat)
    (hsurrogate : b0.toNat = 0xED → b1.toNat ≤ 0x9F) (rest : Bytes) :
    firstRune b0 (b1 :: b2 :: rest) =
      ⟨(b0.toNat % 16 * 64 + b1.toNat % 64) * 64 + b2.toNat % 64, 3⟩ := by
  have hlow : ¬ b0 < 0x80 := not_lt_of_le_toNat (by omega)
  have hnot : ¬ (0xC2 ≤ b0 && b0 ≤ 0xDF) = true := fun h =>
    absurd (Nat.le_trans h0.1 (between_iff.mp h).2) (by decide)
  have hfirst : (0xE0 ≤ b0 && b0 ≤ 0xEF) = true := between_iff.mpr h0
  rw [firstRune, if_neg hlow, if_neg hnot, if_pos hfirst]
  simp only [secondOfThree_of_tailCode h1 hlong hsurrogate, isTail_of_tailCode h2, Bool.and_self,
    if_true, tailBits]

/-- The second of four bytes, unless the form is overlong or too large. -/
theorem secondOfFour_of_tailCode {b0 b1 : UInt8} (h1 : TailCode b1.toNat)
    (hlong : b0.toNat = 0xF0 → 0x90 ≤ b1.toNat) (hlarge : b0.toNat = 0xF4 → b1.toNat ≤ 0x8F) :
    secondOfFour b0 b1 = true := by
  rw [secondOfFour]
  split
  · rename_i hb0
    exact between_iff.mpr ⟨hlong (hb0 ▸ rfl), h1.2⟩
  · split
    · rename_i hb0
      exact between_iff.mpr ⟨h1.1, hlarge (hb0 ▸ rfl)⟩
    · exact isTail_of_tailCode h1

theorem firstRune_four {b0 b1 b2 b3 : UInt8} (h0 : 0xF0 ≤ b0.toNat ∧ b0.toNat ≤ 0xF4)
    (h1 : TailCode b1.toNat) (h2 : TailCode b2.toNat) (h3 : TailCode b3.toNat)
    (hlong : b0.toNat = 0xF0 → 0x90 ≤ b1.toNat) (hlarge : b0.toNat = 0xF4 → b1.toNat ≤ 0x8F)
    (rest : Bytes) :
    firstRune b0 (b1 :: b2 :: b3 :: rest) =
      ⟨((b0.toNat % 8 * 64 + b1.toNat % 64) * 64 + b2.toNat % 64) * 64 + b3.toNat % 64, 4⟩ := by
  have hlow : ¬ b0 < 0x80 := not_lt_of_le_toNat (by omega)
  have hnot₂ : ¬ (0xC2 ≤ b0 && b0 ≤ 0xDF) = true := fun h =>
    absurd (Nat.le_trans h0.1 (between_iff.mp h).2) (by decide)
  have hnot₃ : ¬ (0xE0 ≤ b0 && b0 ≤ 0xEF) = true := fun h =>
    absurd (Nat.le_trans h0.1 (between_iff.mp h).2) (by decide)
  have hfirst : (0xF0 ≤ b0 && b0 ≤ 0xF4) = true := between_iff.mpr h0
  rw [firstRune, if_neg hlow, if_neg hnot₂, if_neg hnot₃, if_pos hfirst]
  simp only [secondOfFour_of_tailCode h1 hlong hlarge, isTail_of_tailCode h2,
    isTail_of_tailCode h3, Bool.and_self, if_true, tailBits]

theorem toNat_ofNat_of_lt {n : Nat} (h : n < 256) : (UInt8.ofNat n).toNat = n := by
  rw [UInt8.toNat_ofNat']
  exact Nat.mod_eq_of_lt h

theorem code_bound (c : Char) :
    c.val.toNat < 0x110000 ∧ ¬ (0xD800 ≤ c.val.toNat ∧ c.val.toNat ≤ 0xDFFF) := by
  have hvalid := c.valid
  simp only [UInt32.isValidChar, Nat.isValidChar] at hvalid
  omega

/-- The bytes of a character, whatever comes after them, are read as that character. -/
theorem firstRune_encode (c : Char) (rest : Bytes) :
    ∃ b0 more, String.utf8EncodeChar c = b0 :: more ∧
      firstRune b0 (more ++ rest) = ⟨c.toNat, more.length + 1⟩ := by
  obtain ⟨hbound, hsurrogate⟩ := code_bound c
  have hcode : c.toNat = c.val.toNat := rfl
  rw [String.utf8EncodeChar, hcode]
  generalize c.val.toNat = v at hbound hsurrogate ⊢
  -- One case for each length; the bytes are the digits of the code to the base 64.
  split
  · refine ⟨_, _, rfl, ?_⟩
    have h0 := toNat_ofNat_of_lt (show v < 256 by omega)
    rw [firstRune_one (by omega), h0]
    rfl
  split
  · refine ⟨_, _, rfl, ?_⟩
    have h0 := toNat_ofNat_of_lt (show v / 64 % 0x20 + 0xc0 < 256 by omega)
    have h1 := toNat_ofNat_of_lt (show v % 0x40 + 0x80 < 256 by omega)
    rw [List.cons_append, firstRune_two (by omega) (by rw [h1, TailCode]; omega), h0, h1]
    refine congrArg (fun code => Rune.mk code 2) ?_
    omega
  split
  · refine ⟨_, _, rfl, ?_⟩
    have h0 := toNat_ofNat_of_lt (show v / 4096 % 0x10 + 0xe0 < 256 by omega)
    have h1 := toNat_ofNat_of_lt (show v / 64 % 0x40 + 0x80 < 256 by omega)
    have h2 := toNat_ofNat_of_lt (show v % 0x40 + 0x80 < 256 by omega)
    rw [List.cons_append, List.cons_append, firstRune_three (by omega) (by rw [h1, TailCode]; omega)
      (by rw [h2, TailCode]; omega) (by omega) (by omega), h0, h1, h2]
    refine congrArg (fun code => Rune.mk code 3) ?_
    omega
  · refine ⟨_, _, rfl, ?_⟩
    have h0 := toNat_ofNat_of_lt (show v / 262144 % 0x08 + 0xf0 < 256 by omega)
    have h1 := toNat_ofNat_of_lt (show v / 4096 % 0x40 + 0x80 < 256 by omega)
    have h2 := toNat_ofNat_of_lt (show v / 64 % 0x40 + 0x80 < 256 by omega)
    have h3 := toNat_ofNat_of_lt (show v % 0x40 + 0x80 < 256 by omega)
    rw [List.cons_append, List.cons_append, List.cons_append, firstRune_four (by omega)
      (by rw [h1, TailCode]; omega) (by rw [h2, TailCode]; omega) (by rw [h3, TailCode]; omega)
      (by omega) (by omega), h0, h1, h2, h3]
    refine congrArg (fun code => Rune.mk code 4) ?_
    omega

theorem decode_encode (c : Char) (rest : Bytes) :
    decode (String.utf8EncodeChar c ++ rest) =
      ⟨c.toNat, (String.utf8EncodeChar c).length⟩ :: decode rest := by
  obtain ⟨b0, more, hbytes, hfirst⟩ := firstRune_encode c rest
  rw [hbytes, List.cons_append, decode]
  simp only [hfirst, Nat.add_sub_cancel, List.drop_left, List.length_cons]

/-! ## Reading what was written -/

theorem decode_flatMap (cs : List Char) : decode (cs.flatMap String.utf8EncodeChar) =
    cs.map fun c => ⟨c.toNat, (String.utf8EncodeChar c).length⟩ := by
  induction cs with
  | nil => simp [decode]
  | cons c cs ih => rw [List.flatMap_cons, decode_encode, ih, List.map_cons]

theorem codes_decode_flatMap (cs : List Char) :
    (decode (cs.flatMap String.utf8EncodeChar)).map (fun r => Char.ofNat r.code) = cs := by
  rw [decode_flatMap, List.map_map]
  simp [Function.comp_def, Char.ofNat_toNat]

theorem bytesOf_eq (s : String) : bytesOf s = s.toList.flatMap String.utf8EncodeChar := by
  conv => lhs; rw [← String.ofList_toList (s := s), bytesOf_ofList]

/-- Reading the bytes of a text gives the text. -/
theorem textOf_bytesOf (s : String) : textOf (bytesOf s) = s := by
  rw [textOf, bytesOf_eq, codes_decode_flatMap, String.ofList_toList]

theorem bytesOf_injective {s t : String} (h : bytesOf s = bytesOf t) : s = t := by
  rw [← textOf_bytesOf s, h, textOf_bytesOf]

theorem length_bytesOf (s : String) : (bytesOf s).length = s.utf8ByteSize := by
  rw [bytesOf, ByteArray.toList, byteArray_loop, List.reverse_nil, List.nil_append, List.drop_zero]
  rfl

theorem bytesOf_join (l : List String) : bytesOf (String.join l) = l.flatMap bytesOf := by
  rw [bytesOf_eq, String.toList_join, List.flatMap_assoc]
  simp only [← bytesOf_eq]

/-! ## Small bytes -/

/-- A byte below 128 belongs to no longer sequence. -/
theorem toNat_eq_of_mem_encode {b : UInt8} (hb : b.toNat < 0x80) {c : Char}
    (h : b ∈ String.utf8EncodeChar c) : b.toNat = c.toNat := by
  obtain ⟨hbound, -⟩ := code_bound c
  have hcode : c.toNat = c.val.toNat := rfl
  rw [String.utf8EncodeChar] at h
  rw [hcode]
  generalize c.val.toNat = v at hbound h ⊢
  have hlarge : ∀ n, n < 256 → 0x80 ≤ n → b ≠ UInt8.ofNat n := by
    intro n hn hge hbn
    rw [hbn, toNat_ofNat_of_lt hn] at hb
    omega
  split at h
  · rw [List.mem_singleton.mp h]
    exact toNat_ofNat_of_lt (by omega)
  split at h
  · simp only [List.mem_cons, List.not_mem_nil, or_false] at h
    rcases h with h | h <;> exact absurd h (hlarge _ (by omega) (by omega))
  split at h
  · simp only [List.mem_cons, List.not_mem_nil, or_false] at h
    rcases h with h | h | h <;> exact absurd h (hlarge _ (by omega) (by omega))
  · simp only [List.mem_cons, List.not_mem_nil, or_false] at h
    rcases h with h | h | h | h <;> exact absurd h (hlarge _ (by omega) (by omega))

/-- A byte below 128 stands among the bytes of a text only as one of its characters. -/
theorem mem_bytesOf {b : UInt8} (hb : b.toNat < 0x80) {s : String} (h : b ∈ bytesOf s) :
    Char.ofNat b.toNat ∈ s.toList := by
  rw [bytesOf_eq] at h
  obtain ⟨c, hc, hbc⟩ := List.mem_flatMap.mp h
  rw [toNat_eq_of_mem_encode hb hbc, Char.ofNat_toNat]
  exact hc

/-! ## Widths -/

theorem firstRune_width (b0 : UInt8) (rest : Bytes) :
    1 ≤ (firstRune b0 rest).width ∧ (firstRune b0 rest).width ≤ rest.length + 1 := by
  rw [firstRune.eq_def]
  repeat' split
  all_goals simp

/-- Decoding never loses its place. -/
theorem total_decode (bs : Bytes) : total ((decode bs).map Rune.width) = bs.length := by
  fun_induction decode bs with
  | case1 => rfl
  | case2 b0 rest r ih =>
      have hwidth : 1 ≤ r.width ∧ r.width ≤ rest.length + 1 := firstRune_width b0 rest
      have htotal : total (r.width :: (decode (rest.drop (r.width - 1))).map Rune.width) =
          r.width + total ((decode (rest.drop (r.width - 1))).map Rune.width) := rfl
      rw [List.map_cons, htotal, ih, List.length_drop, List.length_cons]
      omega

/-! ## The first character -/

/-- The first two of three bytes say that the code point is not below 128. -/
theorem le_of_secondOfThree {b0 b1 : UInt8} (h0 : 0xE0 ≤ b0.toNat ∧ b0.toNat ≤ 0xEF)
    (h1 : secondOfThree b0 b1 = true) : 2 ≤ b0.toNat % 16 * 64 + b1.toNat % 64 := by
  by_cases hb0 : b0 = 0xE0
  · rw [secondOfThree, if_pos hb0] at h1
    have hbounds : 0xA0 ≤ b1.toNat ∧ b1.toNat ≤ 0xBF := between_iff.mp h1
    omega
  · have hne : b0.toNat ≠ 0xE0 := fun heq => hb0 (UInt8.toNat_inj.mp heq)
    omega

/-- So do the first two of four bytes. -/
theorem le_of_secondOfFour {b0 b1 : UInt8} (h0 : 0xF0 ≤ b0.toNat ∧ b0.toNat ≤ 0xF4)
    (h1 : secondOfFour b0 b1 = true) : 1 ≤ b0.toNat % 8 * 64 + b1.toNat % 64 := by
  by_cases hb0 : b0 = 0xF0
  · rw [secondOfFour, if_pos hb0] at h1
    have hbounds : 0x90 ≤ b1.toNat ∧ b1.toNat ≤ 0xBF := between_iff.mp h1
    omega
  · have hne : b0.toNat ≠ 0xF0 := fun heq => hb0 (UInt8.toNat_inj.mp heq)
    omega

/-- Only the bytes below 128 stand for code points below 128: the bounds on the second byte keep
out the longer forms of such code points. -/
theorem le_code_firstRune {b0 : UInt8} (h : 0x80 ≤ b0.toNat) (rest : Bytes) :
    0x80 ≤ (firstRune b0 rest).code := by
  have hreplacement : 0x80 ≤ replacement := by decide
  rw [firstRune.eq_def, if_neg (not_lt_of_le_toNat h)]
  split
  · next hfirst =>
      have h0 : 0xC2 ≤ b0.toNat ∧ b0.toNat ≤ 0xDF := between_iff.mp hfirst
      repeat' split
      all_goals first | exact hreplacement | skip
      show 0x80 ≤ b0.toNat % 32 * 64 + _
      omega
  split
  · next hfirst =>
      repeat' split
      all_goals first | exact hreplacement | skip
      next b1 b2 _ htail =>
        have hsecond := le_of_secondOfThree (between_iff.mp hfirst) (Bool.and_eq_true_iff.mp htail).1
        show 0x80 ≤ (b0.toNat % 16 * 64 + b1.toNat % 64) * 64 + _
        omega
  split
  · next hfirst =>
      repeat' split
      all_goals first | exact hreplacement | skip
      next b1 b2 b3 _ htail =>
        have htail := (Bool.and_eq_true_iff.mp htail).1
        have hsecond := le_of_secondOfFour (between_iff.mp hfirst) (Bool.and_eq_true_iff.mp htail).1
        show 0x80 ≤ ((b0.toNat % 8 * 64 + b1.toNat % 64) * 64 + _) * 64 + _
        omega
  · exact hreplacement

theorem toNat_of_ofNat_eq {c : Char} {n : Nat} (hc : 0 < c.toNat) (h : Char.ofNat n = c) :
    n = c.toNat := by
  by_cases hn : n.isValidChar
  · rw [Char.ofNat, dif_pos hn] at h
    rw [← h]
    rfl
  · rw [Char.ofNat, dif_neg hn] at h
    rw [← h] at hc
    exact absurd hc (Nat.lt_irrefl 0)

theorem textOf_eq_empty_iff {bs : Bytes} : textOf bs = "" ↔ bs = [] := by
  cases bs with
  | nil => simp [textOf, decode]
  | cons b0 rest => simp [textOf, decode, ← String.toList_inj]

/-- A text starts with a character below 128 just if its bytes start with that byte. -/
theorem head?_textOf_eq_some_iff {c : Char} (hpos : 0 < c.toNat) (hlow : c.toNat < 0x80)
    {bs : Bytes} : (textOf bs).toList.head? = some c ↔ bs.head? = some (UInt8.ofNat c.toNat) := by
  have hbyte : (UInt8.ofNat c.toNat).toNat = c.toNat := toNat_ofNat_of_lt (by omega)
  cases bs with
  | nil => simp [textOf, decode]
  | cons b0 rest =>
      have hhead : (textOf (b0 :: rest)).toList.head? =
          some (Char.ofNat (firstRune b0 rest).code) := by
        rw [textOf, decode, String.toList_ofList, List.map_cons, List.head?_cons]
      rw [hhead, List.head?_cons, Option.some_inj, Option.some_inj, ← UInt8.toNat_inj, hbyte]
      constructor
      · intro hcode
        have hcode := toNat_of_ofNat_eq hpos hcode
        have hb0 : b0.toNat < 0x80 := by
          by_cases hb0 : 0x80 ≤ b0.toNat
          · have := le_code_firstRune hb0 rest
            omega
          · omega
        rwa [firstRune_one hb0] at hcode
      · intro hcode
        rw [firstRune_one (by omega), hcode, Char.ofNat_toNat]

/-! ## Where the bytes of a text can be cut

Bytes can be cut anywhere, but the bytes of a text are again those of a text only where a character
starts.  The byte at such a place tells it: of a character only the first byte lies outside the
range of those that follow. -/

/-- Whether bytes are those of a text. -/
def IsText (bs : Bytes) : Prop := ∃ s : String, bytesOf s = bs

/-- Whether the byte at a place continues a character; behind the end there is none. -/
def continuesAt (bs : Bytes) (n : Nat) : Bool := (bs[n]?).any isTail

variable {bs : Bytes} {n : Nat}

theorem continuesAt_of_lt (h : n < bs.length) : continuesAt bs n = isTail bs[n] := by
  rw [continuesAt, List.getElem?_eq_getElem h, Option.any_some]

theorem continuesAt_of_le (h : bs.length ≤ n) : continuesAt bs n = false := by
  rw [continuesAt, List.getElem?_eq_none h, Option.any_none]

theorem isText_iff : IsText bs ↔ ∃ cs : List Char, cs.flatMap String.utf8EncodeChar = bs := by
  constructor
  · rintro ⟨s, rfl⟩
    exact ⟨s.toList, (bytesOf_eq s).symm⟩
  · rintro ⟨cs, rfl⟩
    exact ⟨String.ofList cs, bytesOf_ofList cs⟩

/-- A character has at most four bytes, and all but the first one continue it. -/
theorem encode_eq_cons (c : Char) : ∃ b0 more, String.utf8EncodeChar c = b0 :: more ∧
    isTail b0 = false ∧ (∀ b ∈ more, isTail b = true) ∧ more.length ≤ 3 := by
  obtain ⟨hbound, -⟩ := code_bound c
  rw [String.utf8EncodeChar]
  generalize c.val.toNat = v at hbound ⊢
  have hfirst : ∀ m, m < 256 → (m < 0x80 ∨ 0xC0 ≤ m) → isTail (UInt8.ofNat m) = false := by
    intro m hm hrange
    rw [Bool.eq_false_iff, isTail, ne_eq, between_iff, toNat_ofNat_of_lt hm]
    show ¬ (0x80 ≤ m ∧ m ≤ 0xBF)
    omega
  have htail : ∀ m, isTail (UInt8.ofNat (m % 64 + 128)) = true := by
    intro m
    refine isTail_of_tailCode ?_
    rw [toNat_ofNat_of_lt (by omega), TailCode]
    omega
  have hnil : ∀ b ∈ ([] : Bytes), isTail b = true := List.forall_mem_nil _
  -- One case for each length; the bytes are the digits of the code to the base 64.
  split
  · exact ⟨_, _, rfl, hfirst _ (by omega) (by omega), hnil, by simp⟩
  split
  · exact ⟨_, _, rfl, hfirst _ (by omega) (by omega),
      List.forall_mem_cons.mpr ⟨htail _, hnil⟩, by simp⟩
  split
  · exact ⟨_, _, rfl, hfirst _ (by omega) (by omega),
      List.forall_mem_cons.mpr ⟨htail _, List.forall_mem_cons.mpr ⟨htail _, hnil⟩⟩, by simp⟩
  · exact ⟨_, _, rfl, hfirst _ (by omega) (by omega), List.forall_mem_cons.mpr ⟨htail _,
      List.forall_mem_cons.mpr ⟨htail _, List.forall_mem_cons.mpr ⟨htail _, hnil⟩⟩⟩, by simp⟩

/-- In front of other bytes, a character is continued at the places behind its first byte. -/
theorem continuesAt_encode (c : Char) (rest : Bytes) (h : n < (String.utf8EncodeChar c).length) :
    continuesAt (String.utf8EncodeChar c ++ rest) n = decide (0 < n) := by
  obtain ⟨b0, more, hbytes, hb0, hmore, -⟩ := encode_eq_cons c
  rw [hbytes] at h ⊢
  rw [continuesAt_of_lt (by rw [List.length_append]; omega), List.getElem_append_left h]
  cases n with
  | zero => exact hb0
  | succ n => exact hmore _ (List.getElem_mem _)

theorem continuesAt_append_right (front : Bytes) :
    continuesAt (front ++ bs) (front.length + n) = continuesAt bs n := by
  rw [continuesAt, continuesAt, List.getElem?_append_right (Nat.le_add_right _ _),
    Nat.add_sub_cancel_left]

/-- Each byte of a text lies in one of its characters. -/
theorem IsText.exists_char (h : IsText bs) (hn : n < bs.length) :
    ∃ front c rest, IsText front ∧ bs = front ++ (String.utf8EncodeChar c ++ rest) ∧
      front.length ≤ n ∧ n < front.length + (String.utf8EncodeChar c).length := by
  obtain ⟨cs, rfl⟩ := isText_iff.mp h
  clear h
  induction cs generalizing n with
  | nil => exact absurd hn (Nat.not_lt_zero n)
  | cons c cs ih =>
      rw [List.flatMap_cons] at hn ⊢
      by_cases hfirst : n < (String.utf8EncodeChar c).length
      · exact ⟨[], c, _, isText_iff.mpr ⟨[], rfl⟩, rfl, Nat.zero_le _, by simpa using hfirst⟩
      · rw [List.length_append] at hn
        obtain ⟨front, d, rest, hfront, hbytes, hle, hlt⟩ :=
          @ih (n - (String.utf8EncodeChar c).length) (by omega)
        obtain ⟨ds, rfl⟩ := isText_iff.mp hfront
        refine ⟨String.utf8EncodeChar c ++ ds.flatMap String.utf8EncodeChar, d, rest,
          isText_iff.mpr ⟨c :: ds, rfl⟩, ?_, ?_, ?_⟩
        · rw [hbytes, List.append_assoc]
        · rw [List.length_append]
          omega
        · rw [List.length_append]
          omega

/-- What follows a text within a text is a text: the characters in front are read from the whole. -/
theorem IsText.of_append {front rest : Bytes} (h : IsText (front ++ rest)) (hfront : IsText front) :
    IsText rest := by
  obtain ⟨cs, hcs⟩ := isText_iff.mp h
  obtain ⟨ds, rfl⟩ := isText_iff.mp hfront
  clear h hfront
  induction ds generalizing cs with
  | nil => exact isText_iff.mpr ⟨cs, hcs⟩
  | cons d ds ih =>
      rw [List.flatMap_cons, List.append_assoc] at hcs
      cases cs with
      | nil => exact absurd (List.append_eq_nil_iff.mp hcs.symm).1 String.utf8EncodeChar_ne_nil
      | cons c cs =>
          rw [List.flatMap_cons] at hcs
          have hread := congrArg decode hcs
          rw [decode_encode, decode_encode] at hread
          obtain rfl : c = d := Char.toNat_inj.mp (congrArg Rune.code (List.cons.inj hread).1)
          exact ih cs (List.append_cancel_left hcs)

theorem IsText.continuesAt_zero (h : IsText bs) : continuesAt bs 0 = false := by
  obtain ⟨cs, rfl⟩ := isText_iff.mp h
  cases cs with
  | nil => rfl
  | cons c cs =>
      rw [List.flatMap_cons, continuesAt_encode c _ (List.length_pos_iff.mpr
        String.utf8EncodeChar_ne_nil)]
      rfl

/-- The bytes before a place are those of a text exactly if no character is continued there. -/
theorem IsText.take_iff (h : IsText bs) : IsText (bs.take n) ↔ continuesAt bs n = false := by
  by_cases hn : n < bs.length
  · constructor
    · intro htake
      have hrest : IsText (bs.drop n) :=
        IsText.of_append ((List.take_append_drop n bs).symm ▸ h) htake
      have hplace : continuesAt bs n = continuesAt (bs.drop n) 0 := by
        rw [continuesAt, continuesAt, List.getElem?_drop, Nat.add_zero]
      rw [hplace, hrest.continuesAt_zero]
    · intro hplace
      obtain ⟨front, c, rest, hfront, rfl, hle, hlt⟩ := h.exists_char hn
      obtain ⟨k, rfl⟩ := Nat.exists_eq_add_of_le hle
      rw [continuesAt_append_right, continuesAt_encode c rest (by omega),
        decide_eq_false_iff_not] at hplace
      rw [show k = 0 by omega, Nat.add_zero, List.take_left]
      exact hfront
  · have hlength := Nat.le_of_not_lt hn
    rw [List.take_of_length_le hlength, continuesAt_of_le hlength]
    exact iff_of_true h rfl

/-- From any place it is at most three bytes back to one where a character starts. -/
theorem IsText.exists_boundary (h : IsText bs) (n : Nat) :
    ∃ k, k ≤ n ∧ n ≤ k + 3 ∧ continuesAt bs k = false := by
  by_cases hn : n < bs.length
  · obtain ⟨front, c, rest, -, rfl, hle, hlt⟩ := h.exists_char hn
    obtain ⟨b0, more, hbytes, -, -, hmore⟩ := encode_eq_cons c
    have hlength : (String.utf8EncodeChar c).length = more.length + 1 := by
      rw [hbytes, List.length_cons]
    refine ⟨front.length + 0, hle, by omega, ?_⟩
    rw [continuesAt_append_right, continuesAt_encode c rest (by omega)]
    rfl
  · exact ⟨n, Nat.le_refl n, Nat.le_add_right n 3, continuesAt_of_le (Nat.le_of_not_lt hn)⟩

end RuleScan.Text
