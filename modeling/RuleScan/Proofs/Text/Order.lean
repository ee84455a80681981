import Mathlib.Data.List.Lex
import Mathlib.Data.List.Nodup
import Mathlib.Data.String.Basic
import RuleScan.Proofs.Text.Space

/-!
# The order of texts and of their bytes

Texts are ordered by their characters, bytes by their numbers.

## What is proved

  * `bytesOf_lt` — texts are in the order of their bytes;
  * `rawText_lt` — so are bytes and the texts that have one character for each of them;
  * `trimBytes_bytesOf` — the blanks can be dropped from a text or from its bytes;
  * `pairwise_sorted`, `sublist_sorted` — a list that is sorted by texts is in their order, and what
    was in their order before stays as it was.

Two lists are in the order of the first place where they differ.  So it is enough that the bytes of
a smaller character come first WHATEVER STANDS BEHIND THEM (`encode_lt`), which is seen at the
digits of its code.
-/

namespace RuleScan.Text

/-! ## The bytes of a text -/

theorem ofNat_eq_ofNat {m n : Nat} (hm : m < UInt8.size) (hn : n < UInt8.size) :
    UInt8.ofNat m = UInt8.ofNat n ↔ m = n := by
  rw [← UInt8.toNat_inj, toNat_ofNat_of_lt hm, toNat_ofNat_of_lt hn]

/-- The bytes of a smaller character come first, whatever stands behind them. -/
theorem encode_lt {c d : Char} (h : c < d) (x y : Bytes) :
    String.utf8EncodeChar c ++ x < String.utf8EncodeChar d ++ y := by
  have hlt : c.val.toNat < d.val.toNat := UInt32.lt_iff_toNat_lt.mp (Char.lt_def.mp h)
  obtain ⟨hd, -⟩ := code_bound d
  rw [String.utf8EncodeChar, String.utf8EncodeChar]
  generalize c.val.toNat = v at hlt
  generalize d.val.toNat = w at hlt hd
  -- The digits to the base 64, one from the other.
  have h₂ : ∀ n, n / 4096 = n / 64 / 64 := by omega
  have h₃ : ∀ n, n / 262144 = n / 64 / 64 / 64 := by omega
  rw [h₂ v, h₂ w, h₃ v, h₃ w]
  -- One case for each two lengths: the longer one has the larger first byte.
  split_ifs
  all_goals
    simp (disch := simp only [UInt8.size]; omega) only [List.cons_append, List.nil_append,
      List.cons_lt_cons_iff, UInt8.ofNat_lt_iff_lt, ofNat_eq_ofNat]
  all_goals omega

/-- Texts are in the order of their bytes. -/
theorem bytesOf_lt {s t : String} (h : s < t) : bytesOf s < bytesOf t := by
  have hchars := String.lt_iff_toList_lt.mp h
  rw [bytesOf_eq, bytesOf_eq]
  generalize s.toList = cs at hchars
  generalize t.toList = ds at hchars
  induction hchars with
  | @nil d ds =>
      obtain ⟨b0, more, hbytes, -⟩ := firstRune_encode d []
      rw [List.flatMap_cons, hbytes]
      exact List.nil_lt_cons _ _
  | cons hlt ih => exact List.append_left_lt ih
  | rel hlt => exact encode_lt hlt _ _

/-! ## One character for each byte -/

/-- The text with one character for each byte, whatever the bytes are. -/
def rawText (bs : Bytes) : String := String.ofList (bs.map fun b => Char.ofNat b.toNat)

/-- The bytes of such a text. -/
def rawBytes (s : String) : Bytes := s.toList.map fun c => UInt8.ofNat c.toNat

theorem toNat_rawChar (b : UInt8) : (Char.ofNat b.toNat).toNat = b.toNat := by
  have hvalid : b.toNat.isValidChar := .inl (by have := b.toNat_lt; omega)
  rw [Char.ofNat, dif_pos hvalid]
  rfl

theorem rawBytes_rawText (bs : Bytes) : rawBytes (rawText bs) = bs := by
  rw [rawBytes, rawText, String.toList_ofList, List.map_map]
  refine (List.map_congr_left fun b _ => ?_).trans (List.map_id bs)
  rw [Function.comp_apply, toNat_rawChar, UInt8.ofNat_toNat, id]

theorem rawText_injective : Function.Injective rawText :=
  Function.LeftInverse.injective rawBytes_rawText

theorem rawText_rawBytes {s : String} (h : ∀ c ∈ s.toList, c.toNat < 256) :
    rawText (rawBytes s) = s := by
  rw [rawText, rawBytes, List.map_map]
  refine (congrArg String.ofList ((List.map_congr_left fun c hc => ?_).trans
    (List.map_id s.toList))).trans String.ofList_toList
  rw [Function.comp_apply, toNat_ofNat_of_lt (h c hc), Char.ofNat_toNat, id]

theorem toNat_lt_of_mem_rawText {bs : Bytes} {c : Char} (h : c ∈ (rawText bs).toList) :
    c.toNat < 256 := by
  rw [rawText, String.toList_ofList] at h
  obtain ⟨b, -, rfl⟩ := List.mem_map.mp h
  rw [toNat_rawChar]
  exact b.toNat_lt

theorem rawChar_lt {a b : UInt8} : Char.ofNat a.toNat < Char.ofNat b.toNat ↔ a < b := by
  rw [UInt8.lt_iff_toNat_lt, Char.lt_def, UInt32.lt_iff_toNat_lt]
  show (Char.ofNat a.toNat).toNat < (Char.ofNat b.toNat).toNat ↔ _
  rw [toNat_rawChar, toNat_rawChar]

theorem rawChar_inj {a b : UInt8} : Char.ofNat a.toNat = Char.ofNat b.toNat ↔ a = b := by
  rw [← Char.toNat_inj, toNat_rawChar, toNat_rawChar, UInt8.toNat_inj]

/-- Bytes are in the order of these texts. -/
theorem rawText_lt {as bs : Bytes} : rawText as < rawText bs ↔ as < bs := by
  rw [String.lt_iff_toList_lt, rawText, rawText, String.toList_ofList, String.toList_ofList]
  induction as generalizing bs with
  | nil => cases bs <;> simp
  | cons a as ih =>
      cases bs with
      | nil => simp
      | cons b bs =>
          rw [List.map_cons, List.map_cons, List.cons_lt_cons_iff, List.cons_lt_cons_iff, ih,
            rawChar_lt, rawChar_inj]

/-! ## Dropping blanks -/

theorem blankWidth_decode (cs : List Char) :
    blankWidth (decode (cs.flatMap String.utf8EncodeChar)) =
      ((cs.takeWhile isSpace).flatMap String.utf8EncodeChar).length := by
  have hblank : ∀ c : Char, isSpaceRune ⟨c.toNat, (String.utf8EncodeChar c).length⟩ = isSpace c :=
    fun c => by rw [isSpaceRune, Char.ofNat_toNat]
  rw [blankWidth, decode_flatMap, List.takeWhile_map, ← total_decode, decode_flatMap]
  simp only [Function.comp_def, hblank]

/-- The blanks can be dropped from a text or from its bytes. -/
theorem trimBytes_bytesOf (s : String) : trimBytes (bytesOf s) = bytesOf (trim s) := by
  rw [bytesOf_eq, trim, bytesOf_ofList, trimBytes, blankWidth_decode]
  generalize s.toList = cs
  have hfront : cs.flatMap String.utf8EncodeChar =
      (cs.takeWhile isSpace).flatMap String.utf8EncodeChar ++
        (cs.dropWhile isSpace).flatMap String.utf8EncodeChar := by
    rw [← List.flatMap_append, List.takeWhile_append_dropWhile]
  rw [hfront, List.drop_left, trimWhile]
  generalize cs.dropWhile isSpace = ds
  -- Behind, the blanks are those in front of the characters in reverse.
  have hreverse : (decode (ds.flatMap String.utf8EncodeChar)).reverse =
      decode (ds.reverse.flatMap String.utf8EncodeChar) := by
    rw [decode_flatMap, decode_flatMap, List.map_reverse]
  have hlength : ((ds.reverse.takeWhile isSpace).flatMap String.utf8EncodeChar).length =
      ((ds.rtakeWhile isSpace).flatMap String.utf8EncodeChar).length :=
    ((List.reverse_perm _).flatMap_right _).length_eq.symm
  have hend : ds.flatMap String.utf8EncodeChar =
      (ds.rdropWhile isSpace).flatMap String.utf8EncodeChar ++
        (ds.rtakeWhile isSpace).flatMap String.utf8EncodeChar := by
    rw [← List.flatMap_append, List.rdropWhile_append_rtakeWhile]
  rw [hreverse, blankWidth_decode, hlength, hend, List.length_append, Nat.add_sub_cancel,
    List.take_left]
  rfl

/-! ## Lists sorted by texts

Many lists are written in the order of a text that each of their items has: an id, a name, a key.
The sort is stable, so items with one text stay in the order in which they came. -/

section Sorted

variable {α : Type} (text : α → String)

theorem textLe_trans (a b c : α) (hab : decide (text a ≤ text b) = true)
    (hbc : decide (text b ≤ text c) = true) : decide (text a ≤ text c) = true :=
  decide_eq_true (String.le_trans (of_decide_eq_true hab) (of_decide_eq_true hbc))

theorem textLe_total (a b : α) : (decide (text a ≤ text b) || decide (text b ≤ text a)) = true := by
  simpa using String.le_total (text a) (text b)

/-- The list in the order of the texts. -/
theorem pairwise_sorted (l : List α) :
    (l.mergeSort fun a b => text a ≤ text b).Pairwise fun a b => text a ≤ text b :=
  (List.pairwise_mergeSort (textLe_trans text) (textLe_total text) l).imp of_decide_eq_true

/-- The order is strict where no two items have one text. -/
theorem pairwise_sorted_lt {l : List α} (h : (l.map text).Nodup) :
    (l.mergeSort fun a b => text a ≤ text b).Pairwise fun a b => text a < text b := by
  have hperm := (List.mergeSort_perm l fun a b => text a ≤ text b).map text
  have hne := List.pairwise_map.mp (hperm.nodup_iff.mpr h)
  exact ((pairwise_sorted text l).and hne).imp fun {a b} hab =>
    String.not_le.mp fun hba => hab.2 (String.le_antisymm hab.1 hba)

variable {text}

/-- Items that are in the order already keep it. -/
theorem sublist_sorted {part l : List α} (hpart : part.Pairwise fun a b => text a ≤ text b)
    (h : part.Sublist l) : part.Sublist (l.mergeSort fun a b => text a ≤ text b) :=
  List.sublist_mergeSort (textLe_trans text) (textLe_total text) (hpart.imp decide_eq_true) h

end Sorted

end RuleScan.Text
