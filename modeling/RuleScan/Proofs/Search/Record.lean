import Mathlib.Data.List.Basic
import RuleScan.Decimal.Read
import RuleScan.Proofs.Regex.Offset
import RuleScan.Proofs.Search.Lines

/-!
# Records of matches

A search program prints a match as a record: the path, a zero byte, the number of the line, a
colon, the column, a colon, and the line as it stands in the file, ended by a line feed.  Here
records are written, and `Searcher.outputMatches` is shown to read them.

## What is proved

  * `number?_decimal` — a number in decimal is read as that number, if it fits a word;
  * `recordMatch?_record` — a record is read as the match it was written from, WHATEVER the line is;
  * `outputMatches_printed` — so are all records of an output, in their order;
  * `filterMap_fileRecords` — the records of a file are the matches that are found in it.

## Why

The path holds no zero byte and the numbers hold no colon, so each is cut off where it ends, and
whatever bytes are left are the line.  Only the carriage return at the end of the line is touched,
and that is the one which a line is read without anyway.
-/

namespace RuleScan.Searcher

open RuleScan.Text

/-- A number in decimal. -/
def decimal (n : Nat) : Bytes := bytesOf (toString n)

/-- The record of a match, without the line feed at its end. -/
def record (file : String) (line column : Nat) (raw : Bytes) : Bytes :=
  bytesOf file ++ 0 :: (decimal line ++ 58 :: (decimal column ++ 58 :: raw))

/-- Records as a program prints them. -/
def printed (records : List Bytes) : Bytes := records.flatMap (· ++ [10])

/-- The records of a file: those of the lines where a matcher finds something. -/
def fileRecords (m : Matcher) (file : String) (content : Bytes) : List Bytes :=
  (contentLines content).zipIdx.filterMap fun (raw, i) =>
    (m.find? (dropReturn raw)).map fun column => record file (i + 1) column raw

/-! ## Numbers -/

/-- The byte of a digit. -/
def digitByte (c : Char) : UInt8 := UInt8.ofNat c.toNat

theorem toNat_of_isDigit {c : Char} (h : c.isDigit = true) : 48 ≤ c.toNat ∧ c.toNat ≤ 57 := by
  simp only [Char.isDigit, Bool.and_eq_true, decide_eq_true_eq] at h
  exact ⟨UInt32.le_iff_toNat_le.mp h.1, UInt32.le_iff_toNat_le.mp h.2⟩

theorem toNat_digitByte {c : Char} (h : c.isDigit = true) : (digitByte c).toNat = c.toNat :=
  toNat_ofNat_of_lt (by have := toNat_of_isDigit h; omega)

theorem encode_digit {c : Char} (h : c.isDigit = true) :
    String.utf8EncodeChar c = [digitByte c] := by
  have hle : c.val.toNat ≤ 0x7f := by
    have hc := (toNat_of_isDigit h).2
    exact Nat.le_trans hc (by decide)
  rw [String.utf8EncodeChar, if_pos hle]
  rfl

/-- The bytes of a number are the bytes of its digits. -/
theorem decimal_eq (n : Nat) : decimal n = (Nat.toDigits 10 n).map digitByte := by
  rw [decimal, Nat.toString_eq_ofList_toDigits, bytesOf_ofList]
  have hdigits : ∀ cs : List Char, (∀ c ∈ cs, c.isDigit = true) →
      cs.flatMap String.utf8EncodeChar = cs.map digitByte := by
    intro cs
    induction cs with
    | nil => exact fun _ => rfl
    | cons c cs ih =>
        intro h
        obtain ⟨hc, hcs⟩ := List.forall_mem_cons.mp h
        rw [List.flatMap_cons, encode_digit hc, ih hcs, List.map_cons]
        rfl
  exact hdigits _ fun c hc => Nat.isDigit_of_mem_toDigits (by decide) (by decide) hc

theorem mem_decimal {n : Nat} {b : UInt8} (h : b ∈ decimal n) : 48 ≤ b.toNat ∧ b.toNat ≤ 57 := by
  rw [decimal_eq] at h
  obtain ⟨c, hc, rfl⟩ := List.mem_map.mp h
  have hdigit : c.isDigit = true := Nat.isDigit_of_mem_toDigits (by decide) (by decide) hc
  rw [toNat_digitByte hdigit]
  exact toNat_of_isDigit hdigit

/-- Reading digits one by one gives the number they stand for. -/
theorem foldl_digits (cs : List Char) (h : ∀ c ∈ cs, c.isDigit = true) (acc : Nat) :
    (cs.map digitByte).foldl (fun (n : Int) b => n * 10 + ((b.toNat : Int) - 48)) acc =
      Nat.ofDigitChars 10 cs acc := by
  induction cs generalizing acc with
  | nil => simp
  | cons c cs ih =>
      obtain ⟨hc, hcs⟩ := List.forall_mem_cons.mp h
      have hstep : (acc : Int) * 10 + (((digitByte c).toNat : Int) - 48) =
          ((10 * acc + (c.toNat - '0'.toNat) : Nat) : Int) := by
        have hrange := toNat_of_isDigit hc
        have hzero : '0'.toNat = 48 := rfl
        rw [toNat_digitByte hc, hzero]
        omega
      rw [List.map_cons, List.foldl_cons, hstep, ih hcs, Nat.ofDigitChars_cons]

/-- Without a sign in front, a number is its digits. -/
theorem number?_of_digits {b : UInt8} {bs : Bytes} (hplus : b ≠ 43) (hminus : b ≠ 45)
    (hdigits : ∀ x ∈ b :: bs, 48 ≤ x.toNat ∧ x.toNat ≤ 57) {n : Nat} (hn : n < Word.half)
    (hfold : (b :: bs).foldl (fun (n : Int) b => n * 10 + ((b.toNat : Int) - 48)) 0 = (n : Int)) :
    number? (b :: bs) = some (n : Int) := by
  have hany : ((b :: bs).any fun x => decide (x < 48) || decide (x > 57)) = false := by
    rw [List.any_eq_false]
    intro x hx
    obtain ⟨hlow, hhigh⟩ := hdigits x hx
    have hnot : ¬ x < 48 ∧ ¬ x > 57 :=
      ⟨fun h => absurd (UInt8.lt_iff_toNat_lt.mp h) (Nat.not_lt.mpr hlow),
        fun h => absurd (UInt8.lt_iff_toNat_lt.mp h) (Nat.not_lt.mpr hhigh)⟩
    simp [hnot]
  have hhead : (b :: bs).head? ≠ some 45 := by simpa using hminus
  have hhalf : (n : Int) < 9223372036854775808 := by
    have hcast : ((Word.half : Nat) : Int) = 9223372036854775808 := rfl
    omega
  have hrange : (decide ((n : Int) < -9223372036854775808) ||
      decide ((n : Int) > 9223372036854775807)) = false := by
    simp only [Bool.or_eq_false_iff, decide_eq_false_iff_not]
    omega
  unfold number?
  extract_lets digits value signed
  have hdigits : digits = b :: bs := by
    simp only [digits]
    split
    · rename_i h
      exact absurd (List.cons.inj h).1 hplus
    · rename_i h
      exact absurd (List.cons.inj h).1 hminus
    · rfl
  have hvalue : value = n := by
    simp only [value, hdigits]
    exact hfold
  have hsigned : signed = n := by
    simp only [signed, hvalue, hhead, if_false]
  rw [hdigits, hsigned, hany, hrange]
  rfl

/-- A number in decimal is read as that number. -/
theorem number?_decimal {n : Nat} (h : n < Word.half) : number? (decimal n) = some (n : Int) := by
  have hne : decimal n ≠ [] := by
    rw [decimal_eq]
    simp
  have hfold : (decimal n).foldl (fun (n : Int) b => n * 10 + ((b.toNat : Int) - 48)) 0 =
      (n : Int) := by
    have hdigits : ∀ c ∈ Nat.toDigits 10 n, c.isDigit = true := fun c hc =>
      Nat.isDigit_of_mem_toDigits (by decide) (by decide) hc
    have hread := foldl_digits (Nat.toDigits 10 n) hdigits 0
    rw [Nat.ofDigitChars_ten_toDigits] at hread
    rw [decimal_eq]
    exact hread
  have hdigits : ∀ x ∈ decimal n, 48 ≤ x.toNat ∧ x.toNat ≤ 57 := fun x hx => mem_decimal hx
  obtain ⟨b, bs, hb⟩ := List.exists_cons_of_ne_nil hne
  rw [hb] at hfold hdigits ⊢
  have hfirst := hdigits b List.mem_cons_self
  refine number?_of_digits ?_ ?_ hdigits h hfold
  · rintro rfl
    exact absurd hfirst.1 (by decide)
  · rintro rfl
    exact absurd hfirst.1 (by decide)

/-! ## Records -/

theorem cutAt?_append {b : UInt8} {before : Bytes} (h : b ∉ before) (after : Bytes) :
    cutAt? b (before ++ b :: after) = some (before, after) := by
  induction before with
  | nil => simp [cutAt?]
  | cons x before ih =>
      obtain ⟨hx, hbefore⟩ := List.ne_and_not_mem_of_not_mem_cons h
      simp [cutAt?, Ne.symm hx, ih hbefore]

/-- The carriage return at the end of a record is that of its line. -/
theorem dropReturn_append {b : UInt8} (hb : b ≠ 13) (before raw : Bytes) :
    dropReturn (before ++ b :: raw) = before ++ b :: dropReturn raw := by
  have hlast : (before ++ b :: raw).getLast? = some 13 ↔ raw.getLast? = some 13 := by
    cases raw with
    | nil => simp [hb]
    | cons x raw => simp
  rw [dropReturn, dropReturn]
  by_cases h : raw.getLast? = some 13
  · have hraw : raw ≠ [] := by
      rintro rfl
      cases h
    rw [if_pos h, if_pos (hlast.mpr h), List.dropLast_append_of_ne_nil (List.cons_ne_nil b raw),
      List.dropLast_cons_of_ne_nil hraw]
  · rw [if_neg h, if_neg fun h' => h (hlast.mp h')]

/-- A record is read as the match it was written from. -/
theorem recordMatch?_record {file : String} (hfile : 0 ∉ bytesOf file) {line column : Nat}
    (hline : line < Word.half) (hcolumn : column < Word.half) (raw : Bytes) :
    recordMatch? (record file line column raw) =
      some ⟨file, dropReturn raw, line, column⟩ := by
  have hcolon : ∀ n, 58 ∉ decimal n := by
    intro n hmem
    exact absurd (mem_decimal hmem).2 (by decide)
  have hdrop : dropReturn (record file line column raw) =
      record file line column (dropReturn raw) := by
    have h := dropReturn_append (show (58 : UInt8) ≠ 13 by decide)
      (bytesOf file ++ 0 :: (decimal line ++ 58 :: decimal column)) raw
    simpa [record, List.append_assoc] using h
  rw [recordMatch?, hdrop, record]
  simp only [cutAt?_append hfile, cutAt?_append (hcolon line), cutAt?_append (hcolon column),
    number?_decimal hline, number?_decimal hcolumn, textOf_bytesOf, Option.bind_eq_bind,
    Option.bind_some, Option.pure_def]

/-- A record with a path and a line that hold no line feed holds none. -/
theorem not_mem_record {file : String} (hfile : 10 ∉ bytesOf file) (line column : Nat)
    {raw : Bytes} (hraw : 10 ∉ raw) : 10 ∉ record file line column raw := by
  have hdecimal : ∀ n, 10 ∉ decimal n := by
    intro n hmem
    exact absurd (mem_decimal hmem).1 (by decide)
  simp [record, hfile, hraw, hdecimal]

/-- All records of an output are read, in their order. -/
theorem outputMatches_printed {records : List Bytes} (h : ∀ r ∈ records, 10 ∉ r) :
    outputMatches (printed records) = records.filterMap recordMatch? := by
  have hsplit : splitBytes 10 (printed records) = records ++ [[]] := by
    induction records with
    | nil => rfl
    | cons r records ih =>
        obtain ⟨hr, hrecords⟩ := List.forall_mem_cons.mp h
        have hfront : printed (r :: records) = r ++ 10 :: printed records := by
          simp [printed]
        rw [hfront, splitBytes_append hr, ih hrecords]
        rfl
  rw [outputMatches, hsplit, List.filterMap_append]
  exact List.append_nil _

/-! ## The records of a file -/

theorem RawLine.bounds {content raw : Bytes} {number : Nat} (h : RawLine content number raw) :
    number ≤ content.length ∧ raw.length ≤ content.length := by
  obtain ⟨before, after, rfl, -, -, hafter, rfl⟩ := h
  have hcount : before.count 10 ≤ before.length := List.count_le_length
  have hmore : 1 ≤ raw.length + after.length := by
    rcases hafter with hafter | ⟨-, hraw⟩
    · cases after with
      | nil => cases hafter
      | cons b after => simp; omega
    · have := List.length_pos_iff.mpr hraw
      omega
  simp only [List.length_append]
  omega

/-- The records of a file tell of the matches that are found in it. -/
theorem filterMap_fileRecords (m : Matcher) {file : String} (hfile : 0 ∉ bytesOf file)
    {content : Bytes} (hlength : content.length + 1 < Word.half) :
    (fileRecords m file content).filterMap recordMatch? = searchContent file m content := by
  rw [searchContent_eq, fileRecords, List.filterMap_filterMap, List.zipIdx_map,
    List.filterMap_map]
  refine List.filterMap_congr fun p hp => ?_
  obtain ⟨raw, i⟩ := p
  obtain ⟨hnumber, hraw⟩ :=
    RawLine.bounds ((getElem?_contentLines content i raw).mp (List.mem_zipIdx_iff_getElem?.mp hp))
  simp only [Function.comp_apply, Prod.map_apply, id_eq]
  cases hfind : m.find? (dropReturn raw) with
  | none => rfl
  | some column =>
      have hcolumn : column ≤ content.length + 1 := by
        have hle := Matcher.find?_le hfind
        have hdrop : (dropReturn raw).length ≤ raw.length := by
          rw [dropReturn]
          split
          · simp
          · exact Nat.le_refl _
        omega
      simp only [Option.map_some, Option.bind_some]
      rw [recordMatch?_record hfile (by omega) (by omega)]
      rfl

end RuleScan.Searcher
