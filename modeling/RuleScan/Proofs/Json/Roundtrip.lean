import Mathlib.Data.List.DropRight
import RuleScan.Proofs.Json.Token

/-!
# Reading JSON that was written

A value that is written, on one line or over several, is read as the value again.

## What is proved

`readValue_writeAt`: in front of anything that does not go on with a number, the text of a LEGIBLE
value is read as the value, and what stands behind is left.  Legible are the values that JSON has a
form for; fractions are left out, and bytes have to make up a text and are read as it.

## How it goes

By induction on the value.  The elements of a list, and likewise the fields of an object, are all
written in the same way: a margin, the element, and then a comma before the next one or the end.
`readElements_written` and `readFields_written` go along them, given that each one is read back.
The fuel is measured by the text that is left, twice over, since a list takes one unit for itself
and one for each element.
-/

namespace RuleScan.Json

open RuleScan.Text

/-! ## Values and the values they are read as -/

/-- A value that is read back from what is written for it. -/
inductive Legible : Json → Prop
  | null : Legible .null
  | bool (b : Bool) : Legible (.bool b)
  | int (n : Int) : Legible (.int n)
  | string (s : String) : Legible (.string s)
  | bytes (s : String) : Legible (.bytes (bytesOf s))
  | array {elements : List Json} : (∀ v ∈ elements, Legible v) → Legible (.array elements)
  | object {fields : List (String × Json)} : (∀ f ∈ fields, Legible f.2) → Legible (.object fields)

mutual

/-- A value with its texts as texts, also where they were given by their bytes. -/
def texts : Json → Json
  | .bytes b => .string (textOf b)
  | .array elements => .array (textsAll elements)
  | .object fields => .object (textsFields fields)
  | v => v

/-- The elements of a list with their texts as texts. -/
def textsAll : List Json → List Json
  | [] => []
  | v :: rest => texts v :: textsAll rest

/-- The fields of an object with their texts as texts. -/
def textsFields : List (String × Json) → List (String × Json)
  | [] => []
  | (name, v) :: rest => (name, texts v) :: textsFields rest

end

theorem textsAll_eq (elements : List Json) : textsAll elements = elements.map texts := by
  induction elements with
  | nil => rfl
  | cons v rest ih => rw [textsAll, ih, List.map_cons]

theorem textsFields_eq (fields : List (String × Json)) :
    textsFields fields = fields.map fun f => (f.1, texts f.2) := by
  induction fields with
  | nil => rfl
  | cons f rest ih => rw [textsFields, ih, List.map_cons]

/-! ## Blanks -/

/-- What stands between tokens. -/
def Blank (cs : List Char) : Prop := ∀ c ∈ cs, c = ' ' ∨ c = '\n'

/-- Whether a character is passed over between tokens. -/
def isBlank (c : Char) : Bool := c = ' ' || c = '\t' || c = '\n' || c = '\r'

theorem skipBlanks_append {blanks : List Char} (h : Blank blanks) (rest : List Char) :
    skipBlanks (blanks ++ rest) = skipBlanks rest := by
  refine List.dropWhile_append_of_pos fun c hc => ?_
  rcases h c hc with rfl | rfl <;> rfl

theorem skipBlanks_cons {c : Char} (h : isBlank c = false) (rest : List Char) :
    skipBlanks (c :: rest) = c :: rest :=
  List.dropWhile_cons_of_neg (by simpa [isBlank] using h)

theorem readValue_blanks {blanks : List Char} (h : Blank blanks) (fuel : Nat) (rest : List Char) :
    readValue fuel (blanks ++ rest) = readValue fuel rest := by
  cases fuel with
  | zero => rfl
  | succ fuel => rw [readValue, readValue, skipBlanks_append h]

theorem skipBlanks_skipBlanks (cs : List Char) : skipBlanks (skipBlanks cs) = skipBlanks cs :=
  List.dropWhile_idempotent _ _

theorem readElements_skipBlanks (fuel : Nat) (cs : List Char) (acc : List Json) :
    readElements fuel (skipBlanks cs) acc = readElements fuel cs acc := by
  have hvalue : ∀ fuel, readValue fuel (skipBlanks cs) = readValue fuel cs := by
    intro fuel
    cases fuel with
    | zero => rfl
    | succ fuel => rw [readValue, readValue, skipBlanks_skipBlanks]
  cases fuel with
  | zero => rfl
  | succ fuel => rw [readElements, readElements, hvalue]

theorem readFields_skipBlanks (fuel : Nat) (cs : List Char) (acc : List (String × Json)) :
    readFields fuel (skipBlanks cs) acc = readFields fuel cs acc := by
  cases fuel with
  | zero => rfl
  | succ fuel => rw [readFields, readFields, skipBlanks_skipBlanks]

/-! ## How lists are written -/

/-- What is written before an element at a depth. -/
def margin : Option Nat → List Char
  | none => []
  | some n => '\n' :: List.replicate (2 * n) ' '

theorem blank_margin (depth : Option Nat) : Blank (margin depth) := by
  intro c hc
  cases depth with
  | none => cases hc
  | some n =>
      rcases List.mem_cons.mp hc with rfl | hc
      · exact .inr rfl
      · exact .inl (List.eq_of_mem_replicate hc)

/-- What is written behind the first element. -/
def behind (lead : List Char) (items : List String) (tail : List Char) : List Char :=
  items.flatMap (fun item => ',' :: (lead ++ item.toList)) ++ tail

theorem behind_cons (lead : List Char) (item : String) (items : List String) (tail : List Char) :
    behind lead (item :: items) tail = ',' :: (lead ++ (item.toList ++ behind lead items tail)) := by
  simp [behind]

theorem skipBlanks_behind (lead : List Char) (item : String) (items : List String)
    (tail : List Char) : skipBlanks (behind lead (item :: items) tail) =
      ',' :: (lead ++ (item.toList ++ behind lead items tail)) := by
  rw [behind_cons]
  exact skipBlanks_cons (by decide) _

theorem behind_append (lead : List Char) (items : List String) (tail rest : List Char) :
    behind lead items tail ++ rest = behind lead items (tail ++ rest) :=
  List.append_assoc ..

theorem closed_behind {lead tail : List Char} (htail : Closed tail) (items : List String) :
    Closed (behind lead items tail) := by
  cases items with
  | nil => exact htail
  | cons item rest => exact closed_cons (by decide)

theorem toList_enclose_nil (opening closing : String) (depth : Option Nat) :
    (enclose opening closing depth []).toList = opening.toList ++ closing.toList :=
  String.toList_append ..

theorem toList_intercalate_cons (separator item : String) (items : List String) :
    (separator.intercalate (item :: items)).toList =
      item.toList ++ items.flatMap fun other => separator.toList ++ other.toList := by
  induction items generalizing item with
  | nil => simp
  | cons other rest ih =>
      rw [String.intercalate_cons_cons, String.toList_append, String.toList_append, ih,
        List.flatMap_cons, List.append_assoc, List.append_assoc]

theorem toList_enclose (opening closing : String) (depth : Option Nat) (item : String)
    (items : List String) : (enclose opening closing depth (item :: items)).toList =
      opening.toList ++ (margin (depth.map (· + 1)) ++ (item.toList ++
        behind (margin (depth.map (· + 1))) items (margin depth ++ closing.toList))) := by
  have hcomma : ",".toList = [','] := rfl
  have hfeed : "\n".toList = ['\n'] := rfl
  cases depth with
  | none =>
      simp [-String.toList_intercalate, enclose, toList_intercalate_cons, behind, margin, hcomma]
  | some n =>
      simp [-String.toList_intercalate, enclose, toList_intercalate_cons, behind, margin, hcomma,
        hfeed]

/-! ## Elements and fields -/

/-- A value is read back at a depth. -/
def ReadsBack (depth : Option Nat) (v : Json) : Prop :=
  ∀ fuel rest, Closed rest → 2 * ((writeAt depth v).toList ++ rest).length ≤ fuel →
    readValue fuel ((writeAt depth v).toList ++ rest) = .ok (v.texts, rest)

section Steps

variable {fuel : Nat} {cs rest more : List Char} {v : Json}

theorem readElements_more {acc : List Json} (hv : readValue fuel cs = .ok (v, rest))
    (hrest : skipBlanks rest = ',' :: more) :
    readElements (fuel + 1) cs acc = readElements fuel more (v :: acc) := by
  simp only [readElements, hv, hrest]

theorem readElements_last {acc : List Json} (hv : readValue fuel cs = .ok (v, rest))
    (hrest : skipBlanks rest = ']' :: more) :
    readElements (fuel + 1) cs acc = .ok ((v :: acc).reverse, more) := by
  simp only [readElements, hv, hrest]

/-- A name and a colon stand in front of a value. -/
def Named (cs : List Char) (name : String) (value : List Char) : Prop :=
  ∃ quoted told, skipBlanks cs = '"' :: quoted ∧
    readText (quoted.length + 1) quoted [] = .ok (name, told) ∧ skipBlanks told = ':' :: value

variable {name : String} {value : List Char} {acc : List (String × Json)}

theorem readFields_more (hname : Named cs name value) (hv : readValue fuel value = .ok (v, rest))
    (hrest : skipBlanks rest = ',' :: more) :
    readFields (fuel + 1) cs acc = readFields fuel more ((name, v) :: acc) := by
  obtain ⟨quoted, told, hquote, htext, hcolon⟩ := hname
  simp only [readFields, hquote, htext, hcolon, hv, hrest]

theorem readFields_last (hname : Named cs name value) (hv : readValue fuel value = .ok (v, rest))
    (hrest : skipBlanks rest = '\x7d' :: more) :
    readFields (fuel + 1) cs acc = .ok (((name, v) :: acc).reverse, more) := by
  obtain ⟨quoted, told, hquote, htext, hcolon⟩ := hname
  simp only [readFields, hquote, htext, hcolon, hv, hrest]

end Steps

section Written

variable {depth : Option Nat} {lead tail rest : List Char} (hlead : Blank lead)
  (hclosed : Closed tail)

include hlead hclosed

theorem readElements_written (htail : skipBlanks tail = ']' :: rest) {v : Json} {vs : List Json}
    (h : ∀ w ∈ v :: vs, ReadsBack depth w) {fuel : Nat} {acc : List Json}
    (hfuel : 2 * (lead ++ ((writeAt depth v).toList ++
      behind lead (writeElements depth vs) tail)).length < fuel) :
    readElements fuel (lead ++ ((writeAt depth v).toList ++
      behind lead (writeElements depth vs) tail)) acc =
        .ok (acc.reverse ++ (v :: vs).map texts, rest) := by
  induction vs generalizing v acc fuel with
  | nil =>
      obtain ⟨fuel, rfl⟩ := Nat.exists_eq_succ_of_ne_zero (Nat.ne_zero_of_lt hfuel)
      have hv := h v List.mem_cons_self fuel (behind lead [] tail) (closed_behind hclosed [])
        (by simp [writeElements] at hfuel ⊢; omega)
      rw [← readValue_blanks hlead] at hv
      rw [writeElements, readElements_last hv htail]
      simp
  | cons w vs ih =>
      obtain ⟨fuel, rfl⟩ := Nat.exists_eq_succ_of_ne_zero (Nat.ne_zero_of_lt hfuel)
      have hv := h v List.mem_cons_self fuel (behind lead (writeElements depth (w :: vs)) tail)
        (closed_behind hclosed _) (by simp at hfuel ⊢; omega)
      rw [← readValue_blanks hlead] at hv
      have hnext := skipBlanks_behind lead (writeAt depth w) (writeElements depth vs) tail
      rw [writeElements, behind_cons] at hfuel
      rw [readElements_more hv hnext, ih (fun u hu => h u (List.mem_cons_of_mem _ hu))
        (by simp at hfuel ⊢; omega)]
      simp

/-- A field as it is written. -/
def fieldText (depth : Option Nat) (f : String × Json) : String :=
  writeText f.1 ++ (if depth.isSome then ": " else ":") ++ writeAt depth f.2

omit hlead hclosed in
theorem exists_fieldText (depth : Option Nat) (f : String × Json) : ∃ blanks, Blank blanks ∧
    (fieldText depth f).toList =
      (writeText f.1).toList ++ ':' :: (blanks ++ (writeAt depth f.2).toList) := by
  have hcolon : ":".toList = [':'] := rfl
  have hblank : ": ".toList = [':', ' '] := rfl
  cases depth with
  | none =>
      refine ⟨[], fun _ hc => absurd hc List.not_mem_nil, ?_⟩
      simp [fieldText, hcolon]
  | some n =>
      refine ⟨[' '], fun c hc => .inl (List.mem_singleton.mp hc), ?_⟩
      simp [fieldText, hblank]

omit hclosed in
/-- Behind the name of a written field stands its value. -/
theorem named_fieldText (depth : Option Nat) (f : String × Json) (rest : List Char) :
    ∃ blanks, Blank blanks ∧ (fieldText depth f).toList.length =
        (writeText f.1).toList.length + (1 + (blanks.length + (writeAt depth f.2).toList.length)) ∧
      Named (lead ++ ((fieldText depth f).toList ++ rest)) f.1
        (blanks ++ ((writeAt depth f.2).toList ++ rest)) := by
  obtain ⟨blanks, hblanks, htext⟩ := exists_fieldText depth f
  obtain ⟨quoted, hquoted, hread⟩ := readText_writeText f.1
    (':' :: (blanks ++ ((writeAt depth f.2).toList ++ rest)))
  refine ⟨blanks, hblanks, by rw [htext]; simp; omega, quoted, _, ?_, hread,
    skipBlanks_cons (by decide) _⟩
  rw [skipBlanks_append hlead, htext, ← skipBlanks_cons (c := '"') (by decide) quoted, ← hquoted]
  simp

theorem readFields_written (htail : skipBlanks tail = '\x7d' :: rest) {f : String × Json}
    {fs : List (String × Json)} (h : ∀ g ∈ f :: fs, ReadsBack depth g.2) {fuel : Nat}
    {acc : List (String × Json)} (hfuel : 2 * (lead ++ ((fieldText depth f).toList ++
      behind lead (writeFields depth fs) tail)).length < fuel) :
    readFields fuel (lead ++ ((fieldText depth f).toList ++
      behind lead (writeFields depth fs) tail)) acc =
        .ok (acc.reverse ++ (f :: fs).map (fun f => (f.1, texts f.2)), rest) := by
  induction fs generalizing f acc fuel with
  | nil =>
      obtain ⟨fuel, rfl⟩ := Nat.exists_eq_succ_of_ne_zero (Nat.ne_zero_of_lt hfuel)
      obtain ⟨blanks, hblanks, hlength, hnamed⟩ := named_fieldText hlead depth f
        (behind lead [] tail)
      have hv := h f List.mem_cons_self fuel (behind lead [] tail) (closed_behind hclosed [])
        (by simp [writeFields] at hfuel hlength ⊢; omega)
      rw [← readValue_blanks hblanks] at hv
      rw [writeFields, readFields_last hnamed hv htail]
      simp
  | cons g fs ih =>
      obtain ⟨fuel, rfl⟩ := Nat.exists_eq_succ_of_ne_zero (Nat.ne_zero_of_lt hfuel)
      obtain ⟨blanks, hblanks, hlength, hnamed⟩ := named_fieldText hlead depth f
        (behind lead (writeFields depth (g :: fs)) tail)
      have hv := h f List.mem_cons_self fuel (behind lead (writeFields depth (g :: fs)) tail)
        (closed_behind hclosed _) (by simp at hfuel hlength ⊢; omega)
      rw [← readValue_blanks hblanks] at hv
      have hnext := skipBlanks_behind lead (fieldText depth g) (writeFields depth fs) tail
      have hitems : writeFields depth (g :: fs) = fieldText depth g :: writeFields depth fs := rfl
      rw [hitems, behind_cons] at hfuel
      rw [readFields_more hnamed hv hnext, ih (fun u hu => h u (List.mem_cons_of_mem _ hu))
        (by simp at hfuel hlength ⊢; omega)]
      simp

end Written

/-! ## Values -/

/-- What a number starts with is neither a blank nor the start of any other value. -/
theorem plain_of_number {c : Char} (h : c.isDigit = true ∨ c = '-') : isBlank c = false ∧
    c ∉ ['"', '[', ']', '\x7b', 't', 'f', 'n'] := by
  constructor
  · by_contra hblank
    simp only [isBlank, Bool.not_eq_false, Bool.or_eq_true, decide_eq_true_eq] at hblank
    rcases hblank with ((rfl | rfl) | rfl) | rfl <;> revert h <;> decide
  · intro hmem
    simp only [List.mem_cons, List.not_mem_nil, or_false] at hmem
    rcases hmem with rfl | rfl | rfl | rfl | rfl | rfl | rfl <;> revert h <;> decide

/-- What a value starts with: no blank, and nothing that ends a list. -/
theorem exists_writeAt {v : Json} (h : Legible v) (depth : Option Nat) :
    ∃ c cs, (writeAt depth v).toList = c :: cs ∧ isBlank c = false ∧ c ≠ ']' := by
  cases h with
  | null => exact ⟨'n', ['u', 'l', 'l'], by rw [writeAt]; rfl, by decide⟩
  | bool b =>
      cases b with
      | false => exact ⟨'f', ['a', 'l', 's', 'e'], by rw [writeAt]; rfl, by decide⟩
      | true => exact ⟨'t', ['r', 'u', 'e'], by rw [writeAt]; rfl, by decide⟩
  | int n =>
      obtain ⟨c, cs, htext, hc⟩ := exists_toString n
      obtain ⟨hblank, hplain⟩ := plain_of_number hc
      exact ⟨c, cs, htext, hblank, fun h => hplain (by simp [h])⟩
  | string s => exact ⟨'"', _, toList_writeText s, by decide⟩
  | bytes s =>
      refine ⟨'"', s.toList.flatMap escapeChar ++ ['"'], ?_, by decide⟩
      rw [writeAt, writeBytes_bytesOf]
      exact toList_writeText s
  | @array elements _ =>
      cases elements with
      | nil => exact ⟨'[', _, toList_enclose_nil _ _ _, by decide⟩
      | cons v vs => exact ⟨'[', _, toList_enclose _ _ _ _ _, by decide⟩
  | @object fields _ =>
      cases fields with
      | nil => exact ⟨'\x7b', _, toList_enclose_nil _ _ _, by decide⟩
      | cons f fs => exact ⟨'\x7b', _, toList_enclose _ _ _ _ _, by decide⟩

theorem readWord_append (w : String) (v : Json) (rest : List Char) :
    readWord w v (w.toList ++ rest) = .ok (v, rest) := by
  have hprefix : w.toList.isPrefixOf (w.toList ++ rest) = true :=
    List.isPrefixOf_iff_prefix.mpr (List.prefix_append _ _)
  rw [readWord, if_pos hprefix, ← String.length_toList, List.drop_left]

/-- A value that is read with one unit of fuel is read back. -/
theorem readsBack_of_succ {depth : Option Nat} {v : Json}
    (h : ∀ fuel rest, Closed rest → 2 * ((writeAt depth v).toList ++ rest).length ≤ fuel + 1 →
      readValue (fuel + 1) ((writeAt depth v).toList ++ rest) = .ok (v.texts, rest))
    (hne : (writeAt depth v).toList ≠ []) : ReadsBack depth v := by
  intro fuel rest hclosed hfuel
  have hpos := List.length_pos_iff.mpr hne
  obtain ⟨fuel, rfl⟩ := Nat.exists_eq_succ_of_ne_zero
    (show fuel ≠ 0 by rw [List.length_append] at hfuel; omega)
  exact h fuel rest hclosed hfuel

theorem readsBack_text {depth : Option Nat} {v : Json} {s : String}
    (hv : writeAt depth v = writeText s) (htexts : v.texts = .string s) : ReadsBack depth v := by
  refine readsBack_of_succ (fun fuel rest _ _ => ?_) (by simp [hv, toList_writeText])
  obtain ⟨cs, hcs, hread⟩ := readText_writeText s rest
  rw [hv, hcs, htexts]
  simp only [readValue, skipBlanks_cons (show isBlank '"' = false by decide), hread, Except.map]

theorem readsBack_int (depth : Option Nat) (n : Int) : ReadsBack depth (.int n) := by
  obtain ⟨c, cs, htext, hc⟩ := exists_toString n
  refine readsBack_of_succ (fun fuel rest hclosed _ => ?_) (by rw [writeAt, htext]; simp)
  have hread := readNumber_toString n hclosed
  obtain ⟨hblank, hplain⟩ := plain_of_number hc
  simp only [List.mem_cons, List.not_mem_nil, or_false, not_or] at hplain
  obtain ⟨hquote, hbracket, -, hbrace, ht, hf, hn⟩ := hplain
  rw [htext, List.cons_append] at hread
  rw [writeAt, htext, List.cons_append, readValue, skipBlanks_cons hblank]
  split
  · next heq => cases heq
  · next heq => exact absurd (List.cons.inj heq).1 hquote
  · next heq => exact absurd (List.cons.inj heq).1 hbracket
  · next heq => exact absurd (List.cons.inj heq).1 hbrace
  · next heq =>
      obtain ⟨rfl, rfl⟩ := List.cons.inj heq
      rw [if_neg ht, if_neg hf, if_neg hn]
      exact hread

/-- A word is read as what it stands for. -/
theorem readsBack_word {depth : Option Nat} {v : Json} {c : Char} {cs : List Char} {w : String}
    (hw : w.toList = c :: cs) (hv : writeAt depth v = w) (htexts : v.texts = v)
    (hread : ∀ fuel rest, readValue (fuel + 1) (c :: rest) = readWord w v (c :: rest)) :
    ReadsBack depth v := by
  refine readsBack_of_succ (fun fuel rest _ _ => ?_) (by rw [hv, hw]; simp)
  have hword := readWord_append w v rest
  rw [hw, List.cons_append] at hword
  rw [hv, hw, List.cons_append, hread, hword, htexts]

theorem readsBack_null (depth : Option Nat) : ReadsBack depth .null := by
  refine readsBack_word (c := 'n') (w := "null") rfl (by rw [writeAt]) rfl fun fuel rest => ?_
  simp [readValue, skipBlanks_cons (show isBlank 'n' = false by decide)]

theorem readsBack_bool (depth : Option Nat) (b : Bool) : ReadsBack depth (.bool b) := by
  cases b with
  | false =>
      refine readsBack_word (c := 'f') (w := "false") rfl (by simp [writeAt]) rfl fun fuel rest => ?_
      simp [readValue, skipBlanks_cons (show isBlank 'f' = false by decide)]
  | true =>
      refine readsBack_word (c := 't') (w := "true") rfl (by simp [writeAt]) rfl fun fuel rest => ?_
      simp [readValue, skipBlanks_cons (show isBlank 't' = false by decide)]

/-- A list that does not end at once is read element by element. -/
theorem readValue_array {fuel : Nat} {c : Char} {cs more rest : List Char} {vs : List Json}
    (hmore : skipBlanks more = c :: cs) (hc : c ≠ ']')
    (hread : readElements fuel more [] = .ok (vs, rest)) :
    readValue (fuel + 1) ('[' :: more) = .ok (.array vs, rest) := by
  rw [← readElements_skipBlanks, hmore] at hread
  simp only [readValue, skipBlanks_cons (show isBlank '[' = false by decide), hmore]
  split
  · next heq => exact absurd (List.cons.inj heq).1 hc
  · rw [hread]
    rfl

/-- An object that does not end at once is read field by field. -/
theorem readValue_object {fuel : Nat} {cs more rest : List Char} {fs : List (String × Json)}
    (hmore : skipBlanks more = '"' :: cs) (hread : readFields fuel more [] = .ok (fs, rest)) :
    readValue (fuel + 1) ('\x7b' :: more) = .ok (.object fs, rest) := by
  rw [← readFields_skipBlanks, hmore] at hread
  simp only [readValue, skipBlanks_cons (show isBlank '\x7b' = false by decide), hmore]
  split
  · next heq => exact absurd (List.cons.inj heq).1 (by decide)
  · rw [hread]
    rfl

/-- What stands behind the last element of a list. -/
theorem closed_margin (depth : Option Nat) {c : Char} {rest : List Char}
    (h : Closed (c :: rest)) : Closed (margin depth ++ c :: rest) := by
  cases depth with
  | none => exact h
  | some n => exact closed_cons (by decide)

theorem skipBlanks_margin (depth : Option Nat) {c : Char} (h : isBlank c = false)
    (rest : List Char) : skipBlanks (margin depth ++ c :: rest) = c :: rest := by
  rw [skipBlanks_append (blank_margin depth), skipBlanks_cons h]

theorem readsBack_array {depth : Option Nat} {elements : List Json}
    (hlegible : ∀ v ∈ elements, Legible v)
    (h : ∀ v ∈ elements, ReadsBack (depth.map (· + 1)) v) : ReadsBack depth (.array elements) := by
  cases elements with
  | nil =>
      have htext : (writeAt depth (.array [])).toList = ['[', ']'] := by
        rw [writeAt, writeElements, toList_enclose_nil]
        rfl
      refine readsBack_of_succ (fun fuel rest _ _ => ?_) (by simp [htext])
      simp [htext, readValue, skipBlanks_cons (show isBlank '[' = false by decide),
        skipBlanks_cons (show isBlank ']' = false by decide), texts, textsAll]
  | cons v vs =>
      have htext : ∀ rest, (writeAt depth (.array (v :: vs))).toList ++ rest =
          '[' :: (margin (depth.map (· + 1)) ++ ((writeAt (depth.map (· + 1)) v).toList ++
            behind (margin (depth.map (· + 1))) (writeElements (depth.map (· + 1)) vs)
              (margin depth ++ ']' :: rest))) := by
        intro rest
        rw [writeAt, writeElements, toList_enclose]
        simp [behind_append]
      refine readsBack_of_succ (fun fuel rest _ hfuel => ?_) ?_
      · rw [htext] at hfuel ⊢
        obtain ⟨c, cs, hstart, hblank, hc⟩ :=
          exists_writeAt (hlegible v List.mem_cons_self) (depth.map (· + 1))
        have hread : readElements fuel _ [] = .ok (_, rest) :=
          readElements_written (blank_margin (depth.map (· + 1)))
            (closed_margin depth (closed_cons (c := ']') (by decide)))
            (skipBlanks_margin depth (by decide) rest) h (by simp at hfuel ⊢; omega)
        have hskip : ∀ more, skipBlanks (margin (depth.map (· + 1)) ++
            ((writeAt (depth.map (· + 1)) v).toList ++ more)) = c :: (cs ++ more) := by
          intro more
          rw [skipBlanks_append (blank_margin _), hstart]
          exact skipBlanks_cons hblank _
        rw [readValue_array (hskip _) hc hread, texts, textsAll_eq]
        rfl
      · have hne := htext []
        rw [List.append_nil] at hne
        rw [hne]
        exact List.cons_ne_nil _ _

theorem readsBack_object {depth : Option Nat} {fields : List (String × Json)}
    (h : ∀ f ∈ fields, ReadsBack (depth.map (· + 1)) f.2) : ReadsBack depth (.object fields) := by
  cases fields with
  | nil =>
      have htext : (writeAt depth (.object [])).toList = ['\x7b', '\x7d'] := by
        rw [writeAt, writeFields, toList_enclose_nil]
        rfl
      refine readsBack_of_succ (fun fuel rest _ _ => ?_) (by simp [htext])
      simp [htext, readValue, skipBlanks_cons (show isBlank '\x7b' = false by decide),
        skipBlanks_cons (show isBlank '\x7d' = false by decide), texts, textsFields]
  | cons f fs =>
      have htext : ∀ rest, (writeAt depth (.object (f :: fs))).toList ++ rest =
          '\x7b' :: (margin (depth.map (· + 1)) ++ ((fieldText (depth.map (· + 1)) f).toList ++
            behind (margin (depth.map (· + 1))) (writeFields (depth.map (· + 1)) fs)
              (margin depth ++ '\x7d' :: rest))) := by
        intro rest
        rw [writeAt, writeFields, ← fieldText, toList_enclose]
        simp [behind_append]
      refine readsBack_of_succ (fun fuel rest _ hfuel => ?_) ?_
      · rw [htext] at hfuel ⊢
        have hread : readFields fuel _ [] = .ok (_, rest) :=
          readFields_written (blank_margin (depth.map (· + 1)))
            (closed_margin depth (closed_cons (c := '\x7d') (by decide)))
            (skipBlanks_margin depth (by decide) rest) h (by simp at hfuel ⊢; omega)
        obtain ⟨-, -, -, quoted, -, hquoted, -⟩ := named_fieldText
          (blank_margin (depth.map (· + 1))) (depth.map (· + 1)) f
          (behind (margin (depth.map (· + 1))) (writeFields (depth.map (· + 1)) fs)
            (margin depth ++ '\x7d' :: rest))
        rw [readValue_object hquoted hread, texts, textsFields_eq]
        rfl
      · have hne := htext []
        rw [List.append_nil] at hne
        rw [hne]
        exact List.cons_ne_nil _ _

/-- **A value is read as it was written.** -/
theorem readsBack_of_legible {v : Json} (h : Legible v) (depth : Option Nat) :
    ReadsBack depth v := by
  induction h generalizing depth with
  | null => exact readsBack_null depth
  | bool b => exact readsBack_bool depth b
  | int n => exact readsBack_int depth n
  | string s => exact readsBack_text rfl rfl
  | bytes s => exact readsBack_text (writeBytes_bytesOf s) (by rw [texts, textOf_bytesOf])
  | array hlegible ih => exact readsBack_array hlegible fun v hv => ih v hv _
  | object _ ih => exact readsBack_object fun f hf => ih f hf _

/-- An object of legible values, of which some may be left out. -/
theorem legible_ofFields {fields : List (String × Option Json)}
    (h : ∀ f ∈ fields, ∀ v ∈ f.2, Legible v) : Legible (ofFields fields) := by
  refine .object fun g hg => ?_
  obtain ⟨f, hf, hfg⟩ := List.mem_filterMap.mp hg
  obtain ⟨v, hv, rfl⟩ := Option.map_eq_some_iff.mp hfg
  exact h f hf v hv

/-- What is in front of a document that starts with a value. -/
theorem front_append {v : Json} (h : Legible v) (depth : Option Nat) {rest : String}
    (hrest : Closed rest.toList) : front (writeAt depth v ++ rest) = .ok (v.texts, rest.toList) := by
  rw [front, String.toList_append]
  exact readsBack_of_legible h depth _ _ hrest (Nat.le_add_right _ 2)

end RuleScan.Json
