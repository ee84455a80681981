import RuleScan.Engine.Search

/-!
# The lines of a content

`contentLines` splits at line feeds and drops what follows the last one if that is empty.  Here a
line is described by where it stands in the content, without splitting anything:

    content = before ++ raw ++ after

where `before` is empty or ends with a line feed, `raw` holds none, and `after` starts with one —
or is empty, and then `raw` is not, because an end at the end of the content starts no line.  The
number of the line is one more than the line feeds before it.

`getElem?_contentLines` says that the two descriptions agree, and `mem_searchContent` what a search
finds in a content: for every line, the first match of the matcher on it.
-/

namespace RuleScan

open RuleScan.Text (Bytes)

/-! ## Splitting at a byte -/

namespace Text

theorem splitBytes_ne_nil (s : UInt8) (bs : Bytes) : splitBytes s bs ≠ [] := by
  cases bs with
  | nil => simp [splitBytes]
  | cons b bs =>
      simp only [splitBytes, List.foldr_cons]
      split
      · simp
      · split <;> simp

@[simp] theorem splitBytes_nil (s : UInt8) : splitBytes s [] = [[]] := rfl

@[simp] theorem splitBytes_self (s : UInt8) (bs : Bytes) :
    splitBytes s (s :: bs) = [] :: splitBytes s bs := by
  simp [splitBytes]

/-- Any other byte goes to the front of the first piece. -/
theorem splitBytes_cons {s b : UInt8} (h : b ≠ s) {bs piece : Bytes} {more : List Bytes}
    (hbs : splitBytes s bs = piece :: more) :
    splitBytes s (b :: bs) = (b :: piece) :: more := by
  unfold splitBytes at hbs ⊢
  rw [List.foldr_cons, if_neg h, hbs]

/-- Bytes without the separator, up to the next one, are a piece. -/
theorem splitBytes_append {s : UInt8} {piece : Bytes} (h : s ∉ piece) (rest : Bytes) :
    splitBytes s (piece ++ s :: rest) = piece :: splitBytes s rest := by
  induction piece with
  | nil => simp
  | cons b piece ih =>
      obtain ⟨hb, hpiece⟩ := List.ne_and_not_mem_of_not_mem_cons h
      exact splitBytes_cons (Ne.symm hb) (ih hpiece)

/-! ## Occurrences -/

theorem isSome_indexOf_go {needle : Bytes} (hay : Bytes) (i : Nat) :
    (indexOf?.go needle hay i).isSome = true ↔ needle <:+: hay := by
  induction hay generalizing i with
  | nil => by_cases h : needle = [] <;> simp [indexOf?.go, h]
  | cons b hay ih =>
      simp only [indexOf?.go]
      by_cases h : needle.isPrefixOf (b :: hay) = true
      · rw [if_pos h]
        exact ⟨fun _ => (List.isPrefixOf_iff_prefix.mp h).isInfix, fun _ => rfl⟩
      · rw [if_neg h, ih, List.infix_cons_iff]
        simp only [List.isPrefixOf_iff_prefix] at h
        simp [h]

/-- `containsBytes` looks for its first argument as a stretch of the second. -/
theorem containsBytes_iff {needle hay : Bytes} :
    containsBytes needle hay = true ↔ needle <:+: hay :=
  isSome_indexOf_go hay 0

end Text

/-! ## Lines -/

/-- The line of a number in a content, with a carriage return at its end still in place. -/
def RawLine (content : Bytes) (number : Nat) (raw : Bytes) : Prop :=
  ∃ before after, content = before ++ raw ++ after ∧
    (before = [] ∨ before.getLast? = some 10) ∧ 10 ∉ raw ∧
    (after.head? = some 10 ∨ after = [] ∧ raw ≠ []) ∧
    number = before.count 10 + 1

/-- The line of a number in a content, without one carriage return at its end. -/
def IsLine (content : Bytes) (number : Nat) (text : Bytes) : Prop :=
  ∃ raw, RawLine content number raw ∧
    (raw = text ++ [13] ∨ raw = text ∧ text.getLast? ≠ some 13)

/-- The last piece is dropped if it is empty. -/
theorem contentLines_eq (content : Bytes) :
    contentLines content = if (Text.splitBytes 10 content).getLast? = some [] then
      (Text.splitBytes 10 content).dropLast else Text.splitBytes 10 content := by
  rw [contentLines]
  rcases List.eq_nil_or_concat (Text.splitBytes 10 content) with h | ⟨front, last, h⟩
  · exact absurd h (Text.splitBytes_ne_nil 10 content)
  · rw [h]
    cases last with
    | nil => simp
    | cons b last => simp

@[simp] theorem contentLines_nil : contentLines [] = [] := rfl

@[simp] theorem contentLines_feed (bs : Bytes) :
    contentLines (10 :: bs) = [] :: contentLines bs := by
  obtain ⟨piece, more, h⟩ := List.exists_cons_of_ne_nil (Text.splitBytes_ne_nil 10 bs)
  rw [contentLines_eq, contentLines_eq, Text.splitBytes_self, h]
  split <;> simp_all

/-- Any other byte goes to the front of the first line, and starts one if there is none. -/
theorem contentLines_cons {b : UInt8} (hb : b ≠ 10) (bs : Bytes) :
    contentLines (b :: bs) = match contentLines bs with
      | [] => [[b]]
      | line :: more => (b :: line) :: more := by
  obtain ⟨piece, more, h⟩ := List.exists_cons_of_ne_nil (Text.splitBytes_ne_nil 10 bs)
  rw [contentLines_eq, contentLines_eq, Text.splitBytes_cons hb h, h]
  -- Whether the last piece is empty changes only where it is the first one too.
  cases more with
  | nil => cases piece <;> simp
  | cons next rest =>
      simp only [List.getLast?_cons_cons, List.dropLast_cons_cons]
      split <;> simp

theorem contentLines_eq_nil {bs : Bytes} : contentLines bs = [] ↔ bs = [] := by
  cases bs with
  | nil => simp
  | cons b bs =>
      by_cases hb : b = 10
      · subst hb; simp
      · rw [contentLines_cons hb]
        split <;> simp

theorem not_mem_of_mem_contentLines {content raw : Bytes} (h : raw ∈ contentLines content) :
    10 ∉ raw := by
  induction content generalizing raw with
  | nil => simp at h
  | cons b bs ih =>
      by_cases hb : b = 10
      · subst hb
        rcases List.mem_cons.mp (contentLines_feed bs ▸ h) with rfl | h
        · exact List.not_mem_nil
        · exact ih h
      · rw [contentLines_cons hb] at h
        split at h
        · simp only [List.mem_singleton] at h
          simp [h, Ne.symm hb]
        · next line more hmore =>
            rw [hmore] at ih
            rcases List.mem_cons.mp h with rfl | h
            · simpa [Ne.symm hb] using ih List.mem_cons_self
            · exact ih (List.mem_cons_of_mem _ h)

/-! ## Where a line stands -/

/-- Where nothing or a line end stands before, the line feeds before are those counted. -/
theorem eq_nil_of_count {before : Bytes} (h : before = [] ∨ before.getLast? = some 10)
    (hc : before.count 10 = 0) : before = [] := by
  rcases h with h | h
  · exact h
  · have hmem : (10 : UInt8) ∈ before := List.mem_of_getLast? h
    exact absurd hmem (List.count_eq_zero.mp hc)

theorem rawLine_nil {number : Nat} {raw : Bytes} : ¬ RawLine [] number raw := by
  rintro ⟨before, after, hsplit, -, -, hafter, -⟩
  simp only [List.nil_eq, List.append_eq_nil_iff] at hsplit
  obtain ⟨⟨-, rfl⟩, rfl⟩ := hsplit
  simp at hafter

theorem rawLine_feed {bs raw : Bytes} {i : Nat} :
    RawLine (10 :: bs) (i + 1) raw ↔
      (i = 0 ∧ raw = []) ∨ ∃ j : Nat, i = j + 1 ∧ RawLine bs (j + 1) raw := by
  constructor
  · rintro ⟨before, after, hsplit, hbefore, hraw, hafter, hnumber⟩
    cases before with
    | nil =>
        refine Or.inl ⟨by simpa using hnumber, ?_⟩
        cases raw with
        | nil => rfl
        | cons b raw => simp_all
    | cons b before =>
        simp only [List.cons_append, List.cons.injEq] at hsplit
        obtain ⟨rfl, rfl⟩ := hsplit
        refine Or.inr ⟨before.count 10, ?_, before, after, rfl, ?_, hraw, hafter, rfl⟩
        · simp only [List.count_cons_self] at hnumber
          omega
        · cases before with
          | nil => exact Or.inl rfl
          | cons c before => simpa using hbefore
  · rintro (⟨rfl, rfl⟩ | ⟨j, rfl, before, after, rfl, hbefore, hraw, hafter, hnumber⟩)
    · exact ⟨[], 10 :: bs, rfl, Or.inl rfl, List.not_mem_nil, Or.inl rfl, rfl⟩
    · refine ⟨10 :: before, after, rfl, Or.inr ?_, hraw, hafter, ?_⟩
      · rcases hbefore with rfl | h
        · rfl
        · simp [List.getLast?_cons, h]
      · simp only [List.count_cons_self]
        omega

theorem rawLine_cons_zero {b : UInt8} (hb : b ≠ 10) {bs raw : Bytes} :
    RawLine (b :: bs) 1 raw ↔
      ∃ line, raw = b :: line ∧ (bs = [] ∧ line = [] ∨ RawLine bs 1 line) := by
  constructor
  · rintro ⟨before, after, hsplit, hbefore, hraw, hafter, hnumber⟩
    obtain rfl : before = [] := eq_nil_of_count hbefore (by omega)
    cases raw with
    | nil =>
        obtain rfl : after = b :: bs := by simpa using hsplit.symm
        simp [hb] at hafter
    | cons c line =>
        simp only [List.nil_append, List.cons_append, List.cons.injEq] at hsplit
        obtain ⟨rfl, rfl⟩ := hsplit
        refine ⟨line, rfl, ?_⟩
        have hline : 10 ∉ line := fun h => hraw (List.mem_cons_of_mem _ h)
        by_cases hempty : line ++ after = []
        · simp only [List.append_eq_nil_iff] at hempty
          exact Or.inl ⟨by simp [hempty], hempty.1⟩
        · refine Or.inr ⟨[], after, rfl, Or.inl rfl, hline, ?_, rfl⟩
          rcases hafter with h | ⟨rfl, -⟩
          · exact Or.inl h
          · exact Or.inr ⟨rfl, by simpa using hempty⟩
  · rintro ⟨line, rfl, ⟨rfl, rfl⟩ | ⟨before, after, rfl, hbefore, hline, hafter, hnumber⟩⟩
    · exact ⟨[], [], rfl, Or.inl rfl, by simp [Ne.symm hb], Or.inr ⟨rfl, by simp⟩, rfl⟩
    · obtain rfl : before = [] := eq_nil_of_count hbefore (by omega)
      refine ⟨[], after, rfl, Or.inl rfl, by simp [Ne.symm hb, hline], ?_, rfl⟩
      rcases hafter with h | ⟨rfl, -⟩
      · exact Or.inl h
      · exact Or.inr ⟨rfl, by simp⟩

theorem rawLine_cons_succ {b : UInt8} (hb : b ≠ 10) {bs raw : Bytes} {i : Nat} :
    RawLine (b :: bs) (i + 2) raw ↔ RawLine bs (i + 2) raw := by
  constructor
  · rintro ⟨before, after, hsplit, hbefore, hraw, hafter, hnumber⟩
    cases before with
    | nil => simp only [List.count_nil] at hnumber; omega
    | cons c before =>
        simp only [List.cons_append, List.cons.injEq] at hsplit
        obtain ⟨rfl, rfl⟩ := hsplit
        rw [List.count_cons_of_ne hb] at hnumber
        refine ⟨before, after, rfl, ?_, hraw, hafter, hnumber⟩
        cases before with
        | nil => exact Or.inl rfl
        | cons c before => simpa using hbefore
  · rintro ⟨before, after, rfl, hbefore, hraw, hafter, hnumber⟩
    refine ⟨b :: before, after, rfl, ?_, hraw, hafter, ?_⟩
    · rcases hbefore with rfl | h
      · simp only [List.count_nil] at hnumber; omega
      · simp [List.getLast?_cons, h]
    · rw [List.count_cons_of_ne hb]
      exact hnumber

/-- The lines of a content are its lines by place. -/
theorem getElem?_contentLines (content : Bytes) (i : Nat) (raw : Bytes) :
    (contentLines content)[i]? = some raw ↔ RawLine content (i + 1) raw := by
  induction content generalizing i raw with
  | nil => simpa using rawLine_nil
  | cons b bs ih =>
      by_cases hb : b = 10
      · subst hb
        rw [contentLines_feed, rawLine_feed]
        cases i with
        | zero => simp [eq_comm]
        | succ j => simp [ih]
      · rw [contentLines_cons hb]
        cases i with
        | zero =>
            simp only [Nat.zero_add, rawLine_cons_zero hb, ← ih 0]
            cases hbs : contentLines bs with
            | nil => simp [contentLines_eq_nil.mp hbs, eq_comm]
            | cons line more =>
                have hne : bs ≠ [] := fun h => by simp [h] at hbs
                simp [hne, eq_comm]
        | succ j =>
            rw [rawLine_cons_succ hb, ← ih]
            cases contentLines bs <;> simp

/-! ## What a search finds in a content -/

/-- The two ways to say that a carriage return is dropped. -/
theorem dropReturn_eq_iff {raw text : Bytes} :
    dropReturn raw = text ↔ raw = text ++ [13] ∨ raw = text ∧ text.getLast? ≠ some 13 := by
  rw [dropReturn]
  by_cases h : raw.getLast? = some 13
  · obtain ⟨front, rfl⟩ := List.getLast?_eq_some_iff.mp h
    rw [if_pos h, List.dropLast_concat]
    constructor
    · rintro rfl
      exact Or.inl rfl
    · rintro (hraw | ⟨rfl, hlast⟩)
      · exact List.append_cancel_right hraw
      · exact absurd h hlast
  · rw [if_neg h]
    constructor
    · rintro rfl
      exact Or.inr ⟨rfl, h⟩
    · rintro (rfl | ⟨rfl, -⟩)
      · exact absurd List.getLast?_concat h
      · rfl

theorem isLine_iff {content text : Bytes} {i : Nat} :
    IsLine content (i + 1) text ↔ ((contentLines content).map dropReturn)[i]? = some text := by
  simp only [IsLine, ← getElem?_contentLines, ← dropReturn_eq_iff, List.getElem?_map,
    Option.map_eq_some_iff]

/-- Lines are counted from one. -/
theorem IsLine.pos {content text : Bytes} {number : Nat} (h : IsLine content number text) :
    0 < number := by
  obtain ⟨raw, ⟨before, after, -, -, -, -, rfl⟩, -⟩ := h
  exact Nat.succ_pos _

theorem searchContent_eq (file : String) (m : Matcher) (content : Bytes) :
    searchContent file m content =
      ((contentLines content).map dropReturn).zipIdx.filterMap fun (line, i) =>
        (m.find? line).map fun column => ⟨file, line, (i : Int) + 1, (column : Int)⟩ := by
  rw [searchContent]
  refine congrArg (List.filterMap · _) (funext fun (line, i) => ?_)
  dsimp only
  cases m.find? line <;> rfl

/-- A search finds, on every line, the first match of the matcher. -/
theorem mem_searchContent {file : String} {m : Matcher} {content : Bytes} {x : Match} :
    x ∈ searchContent file m content ↔ ∃ number column : Nat, ∃ text,
      IsLine content number text ∧ m.find? text = some column ∧
        x = ⟨file, text, number, column⟩ := by
  simp only [searchContent_eq, List.mem_filterMap, Prod.exists, List.mem_zipIdx_iff_getElem?,
    Option.map_eq_some_iff]
  constructor
  · rintro ⟨text, i, hline, column, hfind, rfl⟩
    exact ⟨i + 1, column, text, isLine_iff.mpr hline, hfind, rfl⟩
  · rintro ⟨number, column, text, hline, hfind, rfl⟩
    obtain ⟨i, rfl⟩ : ∃ i, number = i + 1 := ⟨number - 1, by have := hline.pos; omega⟩
    exact ⟨text, i, isLine_iff.mp hline, column, hfind, rfl⟩

end RuleScan
