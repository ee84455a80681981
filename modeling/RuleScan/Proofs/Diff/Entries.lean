import Mathlib.Data.Finset.Card
import RuleScan.Proofs.Diff.Edits
import RuleScan.Proofs.Text.Utf8
import RuleScan.Report.Format

/-!
# The edits of entries make the new entries of the old

Entries are compared as single characters, and what the comparison says of characters is read as
edits of entries.  Here the whole way is followed: entries to characters, characters to bytes, an
edit of bytes back to one of characters and from there to one of entries, and an edit of entries to
one of the bytes of the joined entries.

## What is proved

`Differ.entryEdits?_patches`: as long as there is a character for every entry, there are edits, they start
and end where an entry does, and they make the joined new entries of the joined old ones.  So there
is a difference between any two such reports.

## What is assumed

What finds the edits between two texts and what shows edits may be any two functions that are
`Differ.Lawful`: the one finds edits that make the second text of the first and cut no character in
two; the other shows all edits that are in order.  `standard_lawful`: the functions of this library
are such.

## How

Edits are followed as edits of LISTS.  `Patches.exists_chars` gives the list of characters that the
edits of a text are about, `exists_entries` the list of entries behind it; each step is one of
`Edit.applyFrom_map` and `Edit.apply_flatMap`.  An entry that is added can be read back since
its character stands in the new text, and every character of the new text was written for an entry.
-/

namespace RuleScan.Diff

open RuleScan.Text (Bytes bytesOf)

/-! ## Edits of a text -/

/-- A place in the bytes of a text where a character starts or the text ends. -/
def AtChar (text : String) (place : Nat) : Prop :=
  ∃ k ≤ text.toList.length, place = (String.ofList (text.toList.take k)).utf8ByteSize

/-- Edits of a text that are in order, make another text of it, and are at places of some kind. -/
structure Patches (At : Nat → Prop) (old new : String) (edits : List TextEdit) : Prop where
  fit : TextEdit.fit old edits = true
  at_start : ∀ e ∈ edits, At e.start
  at_stop : ∀ e ∈ edits, At e.stop
  apply : Edit.apply (bytesOf old) (edits.map TextEdit.inBytes) = bytesOf new

/-- What is asked of the functions that find and show edits. -/
structure Differ.Lawful (d : Differ) : Prop where
  patches : ∀ old new, Patches (AtChar old) old new (d.between old new)
  shows : ∀ oldLabel newLabel text edits, TextEdit.fit text edits = true →
    (d.unified? oldLabel newLabel text edits).isSome = true

/-- Edits of the items that a text is made of, written as edits of the text. -/
theorem map_inBytes {α : Type} {f : α → Bytes} {items : List α} {write : Edit α → TextEdit}
    (hwrite : ∀ e, (write e).inBytes = e.flatMap f items) (edits : List (Edit α)) :
    (edits.map write).map TextEdit.inBytes = edits.map (Edit.flatMap f items) := by
  rw [List.map_map]
  exact List.map_congr_left fun e _ => hwrite e

/-- Such edits do to the text what they do to its items, and are where items start or end. -/
theorem patches_of_items {α : Type} {f : α → Bytes} {items : List α} {write : Edit α → TextEdit}
    (hwrite : ∀ e, (write e).inBytes = e.flatMap f items) {At : Nat → Prop}
    (hat : ∀ i ≤ items.length, At (Edit.place f items i)) {edits : List (Edit α)}
    (h : Edit.inOrder items.length 0 edits = true) {old new : String}
    (hold : bytesOf old = items.flatMap f)
    (hnew : bytesOf new = (Edit.apply items edits).flatMap f) :
    Patches At old new (edits.map write) where
  fit := by
    rw [TextEdit.fit, map_inBytes hwrite, hold]
    exact Edit.inOrder_flatMap f items h
  at_start := List.forall_mem_map.mpr fun e he => by
    have hstart : (write e).start = Edit.place f items e.start := congrArg Edit.start (hwrite e)
    exact hstart ▸ hat _ (Edit.le_of_mem_inOrder h he).1
  at_stop := List.forall_mem_map.mpr fun e he => by
    have hstop : (write e).stop = Edit.place f items e.stop := congrArg Edit.stop (hwrite e)
    exact hstop ▸ hat _ (Edit.le_of_mem_inOrder h he).2
  apply := by rw [map_inBytes hwrite, hold, Edit.apply_flatMap f items h, hnew]

theorem place_chars (old : List Char) (i : Nat) :
    Edit.place String.utf8EncodeChar old i = (String.ofList (old.take i)).utf8ByteSize := by
  rw [Edit.place, ← Text.bytesOf_ofList, Text.length_bytesOf]

theorem TextEdit.inBytes_ofChars (old : List Char) (e : Edit Char) :
    (ofChars old e).inBytes = e.flatMap String.utf8EncodeChar old := by
  simp only [inBytes, ofChars, Edit.flatMap, place_chars, Text.bytesOf_ofList]

theorem between_patches (old new : String) :
    Patches (AtChar old) old new (TextEdit.between old new) := by
  rw [TextEdit.between]
  split
  next h => exact ⟨rfl, by simp, by simp, by rw [h]; rfl⟩
  next =>
    refine patches_of_items (TextEdit.inBytes_ofChars old.toList) (fun i hi => ?_)
      (Edit.inOrder_ofLists _ _) (Text.bytesOf_eq old) ?_
    · exact ⟨i, hi, place_chars _ i⟩
    · rw [Edit.apply_ofLists, Text.bytesOf_eq]

theorem Differ.standard_lawful : Differ.standard.Lawful where
  patches := between_patches
  shows := by
    intro oldLabel newLabel text edits h
    simp only [Differ.standard, Diff.unified?, if_pos h, Option.isSome_some]

/-- A list whose items all come from somewhere comes from a list. -/
theorem exists_map_eq {α β : Type} {g : α → β} {P : α → Prop} {l : List β}
    (h : ∀ b ∈ l, ∃ a, g a = b ∧ P a) : ∃ l' : List α, l'.map g = l ∧ ∀ a ∈ l', P a := by
  induction l with
  | nil => exact ⟨[], rfl, by simp⟩
  | cons b l ih =>
      obtain ⟨⟨a, hab, ha⟩, hrest⟩ := List.forall_mem_cons.mp h
      obtain ⟨l', hmap, hl'⟩ := ih hrest
      exact ⟨a :: l', by rw [List.map_cons, hab, hmap], List.forall_mem_cons.mpr ⟨ha, hl'⟩⟩

theorem mapM_map_eq_some {α β γ : Type} {f : β → Option γ} {g : α → β} {k : α → γ} {l : List α}
    (h : ∀ a ∈ l, f (g a) = some (k a)) : (l.map g).mapM f = some (l.map k) := by
  induction l with
  | nil => rfl
  | cons a l ih =>
      obtain ⟨ha, hl⟩ := List.forall_mem_cons.mp h
      rw [List.map_cons, List.mapM_cons, ha, ih hl]
      rfl

/-- Edits of a text that cut no character in two are edits of its characters. -/
theorem Patches.exists_chars {old new : String} {edits : List TextEdit}
    (h : Patches (AtChar old) old new edits) : ∃ es : List (Edit Char),
      edits = es.map (TextEdit.ofChars old.toList) ∧
      Edit.inOrder old.toList.length 0 es = true ∧ Edit.apply old.toList es = new.toList := by
  have hchars : ∀ e ∈ edits, ∃ e' : Edit Char, TextEdit.ofChars old.toList e' = e ∧
      e'.start ≤ old.toList.length ∧ e'.stop ≤ old.toList.length := by
    intro e he
    obtain ⟨i, hi, hstart⟩ := h.at_start e he
    obtain ⟨j, hj, hstop⟩ := h.at_stop e he
    refine ⟨⟨i, j, e.text.toList⟩, ?_, hi, hj⟩
    simp only [TextEdit.ofChars, ← hstart, ← hstop, String.ofList_toList]
  obtain ⟨es, rfl, hin⟩ := exists_map_eq hchars
  have horder : Edit.inOrder old.toList.length 0 es = true := by
    refine Edit.inOrder_of_flatMap (f := String.utf8EncodeChar)
      (fun _ => String.utf8EncodeChar_ne_nil) hin (Nat.zero_le _) ?_
    rw [← map_inBytes (TextEdit.inBytes_ofChars old.toList), ← Text.bytesOf_eq]
    exact h.fit
  refine ⟨es, rfl, horder, ?_⟩
  have happly := h.apply
  rw [map_inBytes (TextEdit.inBytes_ofChars _), Text.bytesOf_eq, Edit.apply_flatMap _ _ horder,
    ← String.toList_ofList (l := Edit.apply old.toList es), ← Text.bytesOf_eq] at happly
  rw [← Text.bytesOf_injective happly, String.toList_ofList]

/-! ## Characters for entries -/

theorem toNat_symbolOf {i : Nat} (h : i < symbolCount) :
    (symbolOf i).toNat = symbolBase + i := by
  have hvalid : (symbolBase + i).isValidChar := by
    simp only [symbolBase, symbolCount] at h ⊢
    exact .inr ⟨by omega, by omega⟩
  rw [symbolOf, if_pos h, Char.ofNat, dif_pos hvalid]
  rfl

/-- The characters for entries are those of four bytes. -/
theorem length_encode_symbolOf {i : Nat} (h : i < symbolCount) :
    (String.utf8EncodeChar (symbolOf i)).length = symbolWidth := by
  have hcode : (symbolOf i).val.toNat = symbolBase + i := toNat_symbolOf h
  have hlarge : ∀ n : UInt32, n.toNat < symbolBase → ¬ (symbolOf i).val ≤ n := by
    intro n hn hle
    rw [UInt32.le_iff_toNat_le] at hle
    omega
  rw [String.length_utf8EncodeChar, Char.utf8Size, if_neg (hlarge _ (by decide)), if_neg (hlarge _ (by decide)),
    if_neg (hlarge _ (by decide)), symbolWidth]

/-- The character that stands for one of some entries. -/
def symbol (entries : List String) (entry : String) : Char := symbolOf (entries.idxOf entry)

section

variable {entries : List String} (hlength : entries.length ≤ symbolCount)

include hlength

theorem idxOf_lt_symbolCount {entry : String} (h : entry ∈ entries) :
    entries.idxOf entry < symbolCount :=
  Nat.lt_of_lt_of_le (List.idxOf_lt_length_of_mem h) hlength

/-- A character that was written for an entry is read as the entry. -/
theorem entryOf?_symbol {entry : String} (h : entry ∈ entries) :
    entryOf? entries (symbol entries entry) = some entry := by
  rw [entryOf?, symbol, toNat_symbolOf (idxOf_lt_symbolCount hlength h),
    if_pos (Nat.le_add_right _ _), Nat.add_sub_cancel_left, List.getElem?_idxOf h]

/-- What was written for entries is read as the entries. -/
theorem mapM_entryOf?_symbols {l : List String} (h : ∀ entry ∈ l, entry ∈ entries) :
    (l.map (symbol entries)).mapM (entryOf? entries) = some l := by
  have hread := mapM_map_eq_some (k := id) fun entry he => entryOf?_symbol hlength (h entry he)
  rwa [List.map_id] at hread

theorem utf8ByteSize_symbols {l : List String} (h : ∀ entry ∈ l, entry ∈ entries) :
    (String.ofList (l.map (symbol entries))).utf8ByteSize = symbolWidth * l.length := by
  rw [← Text.length_bytesOf, Text.bytesOf_ofList]
  induction l with
  | nil => rfl
  | cons entry rest ih =>
      obtain ⟨hfirst, hrest⟩ := List.forall_mem_cons.mp h
      rw [List.map_cons, List.flatMap_cons, List.length_append, ih hrest, symbol,
        length_encode_symbolOf (idxOf_lt_symbolCount hlength hfirst), List.length_cons,
        Nat.mul_succ, Nat.add_comm]

end

/-! ## Entries as characters -/

section

variable (met l : List String)

theorem prefix_encode : met <+: (encode met l).2 := by
  induction l generalizing met with
  | nil => exact List.prefix_refl met
  | cons entry rest ih =>
      refine List.IsPrefix.trans ?_ (ih _)
      split
      · exact List.prefix_refl met
      · exact List.prefix_append met [entry]

theorem mem_encode {met l : List String} {entry : String} :
    entry ∈ (encode met l).2 ↔ entry ∈ met ∨ entry ∈ l := by
  induction l generalizing met with
  | nil => simp [encode]
  | cons first rest ih =>
      rw [encode, ih, List.mem_cons]
      split
      next h =>
        exact ⟨fun hor => hor.imp_right .inr, fun hor => hor.elim .inl fun hor =>
          hor.elim (fun heq => .inl (heq ▸ h)) .inr⟩
      next => rw [List.mem_append, List.mem_singleton, or_assoc]

theorem nodup_encode {met : List String} (h : met.Nodup) : (encode met l).2.Nodup := by
  induction l generalizing met with
  | nil => exact h
  | cons entry rest ih =>
      refine ih ?_
      split
      next => exact h
      next hnew =>
        exact h.append (List.nodup_singleton entry) (List.disjoint_singleton.mpr hnew)

/-- The number of an entry does not change when others get theirs, so all entries are written by
the numbers that are given out in the end. -/
theorem encode_fst {met l entries : List String} (h : (encode met l).2 <+: entries) :
    (encode met l).1 = l.map (symbol entries) := by
  induction l generalizing met with
  | nil => rfl
  | cons entry rest ih =>
      have hmet : entry ∈ if entry ∈ met then met else met ++ [entry] := by
        split
        next hmet => exact hmet
        next => exact List.mem_append_right _ (List.mem_singleton_self entry)
      obtain ⟨more, hmore⟩ := (prefix_encode _ rest).trans h
      calc (encode met (entry :: rest)).1
          = symbolOf ((if entry ∈ met then met else met ++ [entry]).idxOf entry) ::
              (encode (if entry ∈ met then met else met ++ [entry]) rest).1 := rfl
        _ = (entry :: rest).map (symbol entries) := by
            rw [ih h, List.map_cons, symbol, ← hmore, List.idxOf_append_of_mem hmet]

end

/-- All entries of two lists, each once, in the order of their numbers. -/
def numbered (old new : List String) : List String := (encode (encode [] old).2 new).2

section

variable (old new : List String)

theorem mem_numbered {old new : List String} {entry : String} :
    entry ∈ numbered old new ↔ entry ∈ old ++ new := by
  rw [numbered, mem_encode, mem_encode, List.mem_append, or_iff_right List.not_mem_nil]

theorem length_numbered : (numbered old new).length = (old ++ new).toFinset.card := by
  have hnodup : (numbered old new).Nodup := nodup_encode _ (nodup_encode _ List.nodup_nil)
  rw [← List.toFinset_card_of_nodup hnodup]
  congr 1
  ext entry
  rw [List.mem_toFinset, List.mem_toFinset, mem_numbered]

theorem entryEdits?_eq (d : Differ) : d.entryEdits? old new =
    (d.between (String.ofList (old.map (symbol (numbered old new))))
      (String.ofList (new.map (symbol (numbered old new))))).mapM
        (decodeEdit? (numbered old new) (offsets old)) := by
  have hold : (encode [] old).1 = old.map (symbol (numbered old new)) :=
    encode_fst (prefix_encode _ new)
  have hnew : (encode (encode [] old).2 new).1 = new.map (symbol (numbered old new)) :=
    encode_fst (List.prefix_refl _)
  rw [← hold, ← hnew]
  rfl

end

/-! ## Edits of entries -/

/-- A place in the bytes of joined entries where one of them starts or the last one ends. -/
def AtEntry (entries : List String) (place : Nat) : Prop :=
  ∃ i ≤ entries.length, place = (String.join (entries.take i)).utf8ByteSize

/-- An edit of entries as an edit of the joined entries. -/
def TextEdit.ofEntries (old : List String) (e : Edit String) : TextEdit :=
  { start := (String.join (old.take e.start)).utf8ByteSize
    stop := (String.join (old.take e.stop)).utf8ByteSize
    text := String.join e.lines }

theorem place_entries (old : List String) (i : Nat) :
    Edit.place bytesOf old i = (String.join (old.take i)).utf8ByteSize := by
  rw [Edit.place, ← Text.bytesOf_join, Text.length_bytesOf]

theorem TextEdit.inBytes_ofEntries (old : List String) (e : Edit String) :
    (ofEntries old e).inBytes = e.flatMap bytesOf old := by
  simp only [inBytes, ofEntries, Edit.flatMap, place_entries, Text.bytesOf_join]

theorem getElem?_offsetsFrom (place : Nat) (l : List String) {i : Nat} (h : i ≤ l.length) :
    (offsetsFrom place l)[i]? = some (place + (String.join (l.take i)).utf8ByteSize) := by
  induction l generalizing place i with
  | nil =>
      obtain rfl := Nat.le_zero.mp h
      rfl
  | cons entry rest ih =>
      cases i with
      | zero => rfl
      | succ i =>
          rw [offsetsFrom, List.getElem?_cons_succ, ih _ (Nat.le_of_succ_le_succ h),
            List.take_succ_cons, String.join_cons, String.utf8ByteSize_append, Nat.add_assoc]

theorem getElem?_offsets {l : List String} {i : Nat} (h : i ≤ l.length) :
    (offsets l)[i]? = some (String.join (l.take i)).utf8ByteSize := by
  rw [offsets, getElem?_offsetsFrom 0 l h, Nat.zero_add]

section

variable {entries old : List String} (hlength : entries.length ≤ symbolCount)
  (hold : ∀ entry ∈ old, entry ∈ entries)

include hlength hold

/-- The place of a character tells the number of entries before it. -/
theorem size_take_symbols {i : Nat} (h : i ≤ old.length) :
    (String.ofList ((old.map (symbol entries)).take i)).utf8ByteSize / symbolWidth = i := by
  rw [← List.map_take, utf8ByteSize_symbols hlength fun entry he => hold _ (List.mem_of_mem_take he),
    List.length_take_of_le h]
  exact Nat.mul_div_cancel_left i (by decide)

/-- An edit of the characters for entries is read as the edit of the entries. -/
theorem decodeEdit?_symbols {e : Edit String} (hstart : e.start ≤ old.length)
    (hstop : e.stop ≤ old.length) (hadded : ∀ entry ∈ e.lines, entry ∈ entries) :
    decodeEdit? entries (offsets old)
        (TextEdit.ofChars (old.map (symbol entries)) (e.map (symbol entries))) =
      some (TextEdit.ofEntries old e) := by
  simp only [decodeEdit?, TextEdit.ofChars, Edit.map, String.toList_ofList,
    mapM_entryOf?_symbols hlength hadded,
    size_take_symbols hlength hold hstart, size_take_symbols hlength hold hstop,
    getElem?_offsets hstart, getElem?_offsets hstop]
  rfl

end

/-- Edits of the characters for entries are edits of the entries: whatever is added was written
for an entry. -/
theorem exists_entries {entries old new : List String} (hlength : entries.length ≤ symbolCount)
    (hold : ∀ entry ∈ old, entry ∈ entries) (hnew : ∀ entry ∈ new, entry ∈ entries)
    {es : List (Edit Char)}
    (happly : Edit.apply (old.map (symbol entries)) es = new.map (symbol entries)) :
    ∃ edits : List (Edit String), edits.map (Edit.map (symbol entries)) = es ∧
      (∀ e ∈ edits, ∀ entry ∈ e.lines, entry ∈ entries) ∧ Edit.apply old edits = new := by
  have hwritten : ∀ e ∈ es, ∃ e' : Edit String, e'.map (symbol entries) = e ∧
      ∀ entry ∈ e'.lines, entry ∈ entries := by
    intro e he
    have hsymbols : ∀ c ∈ e.lines, ∃ entry, symbol entries entry = c ∧ entry ∈ entries := by
      intro c hc
      have hmem : c ∈ Edit.apply (old.map (symbol entries)) es := Edit.mem_applyFrom he hc
      rw [happly] at hmem
      obtain ⟨entry, hentry, rfl⟩ := List.mem_map.mp hmem
      exact ⟨entry, rfl, hnew entry hentry⟩
    obtain ⟨added, hadded, hin⟩ := exists_map_eq hsymbols
    exact ⟨⟨e.start, e.stop, added⟩, by rw [Edit.map, hadded], hin⟩
  obtain ⟨edits, rfl, hin⟩ := exists_map_eq hwritten
  refine ⟨edits, rfl, hin, ?_⟩
  have hmade : ∀ entry ∈ Edit.apply old edits, entry ∈ entries := by
    intro entry hentry
    rcases Edit.mem_or_mem_of_mem_applyFrom hentry with hkept | ⟨e, he, hadded⟩
    · exact hold entry hkept
    · exact hin e he entry hadded
  rw [Edit.apply, Edit.applyFrom_map] at happly
  have hread := mapM_entryOf?_symbols hlength hmade
  rw [Edit.apply, happly, mapM_entryOf?_symbols hlength hnew] at hread
  exact (Option.some.inj hread).symm

/-- As long as there is a character for every entry, there are edits of entries that make the new
entries of the old ones. -/
theorem Differ.Lawful.exists_edits {d : Differ} (hd : d.Lawful) {old new : List String}
    (hcount : (old ++ new).toFinset.card ≤ symbolCount) : ∃ edits : List (Edit String),
      d.entryEdits? old new = some (edits.map (TextEdit.ofEntries old)) ∧
      Edit.inOrder old.length 0 edits = true ∧ Edit.apply old edits = new := by
  have hlength : (numbered old new).length ≤ symbolCount := by rwa [length_numbered]
  have hold : ∀ entry ∈ old, entry ∈ numbered old new := fun entry he =>
    mem_numbered.mpr (List.mem_append_left _ he)
  have hnew : ∀ entry ∈ new, entry ∈ numbered old new := fun entry he =>
    mem_numbered.mpr (List.mem_append_right _ he)
  obtain ⟨es, hes, horder, happly⟩ := (hd.patches
    (String.ofList (old.map (symbol (numbered old new))))
    (String.ofList (new.map (symbol (numbered old new))))).exists_chars
  rw [String.toList_ofList] at hes horder happly
  rw [String.toList_ofList] at happly
  obtain ⟨edits, rfl, hadded, hmade⟩ := exists_entries hlength hold hnew happly
  rw [Edit.inOrder_map, List.length_map] at horder
  refine ⟨edits, ?_, horder, hmade⟩
  rw [entryEdits?_eq, hes, List.map_map]
  refine mapM_map_eq_some fun e he => ?_
  obtain ⟨hstart, hstop⟩ := Edit.le_of_mem_inOrder horder he
  exact decodeEdit?_symbols hlength hold hstart hstop (hadded e he)

/-- As long as there is a character for every entry, there are edits of the joined old entries that
start and end where an entry does, are in order, and make the joined new entries.  They can be shown,
so that there is a difference between any two reports with no more entries. -/
theorem Differ.entryEdits?_patches (d : Differ) (hd : d.Lawful) :
    (∀ old new : List String, (old ++ new).toFinset.card ≤ 0x100000 →
      ∃ edits, d.entryEdits? old new = some edits ∧
        Patches (AtEntry old) (String.join old) (String.join new) edits ∧
        ∀ oldLabel newLabel,
          (d.unified? oldLabel newLabel (String.join old) edits).isSome = true) ∧
    ∀ (oldLabel newLabel : String) (old new : Report),
      (old.entries ++ new.entries).toFinset.card ≤ 0x100000 →
      (Report.diff? d oldLabel old newLabel new).isSome = true := by
  have hentries : ∀ old new : List String, (old ++ new).toFinset.card ≤ symbolCount →
      ∃ edits, d.entryEdits? old new = some edits ∧
        Patches (AtEntry old) (String.join old) (String.join new) edits ∧
        ∀ oldLabel newLabel,
          (d.unified? oldLabel newLabel (String.join old) edits).isSome = true := by
    intro old new hcount
    obtain ⟨edits, hedits, horder, happly⟩ := hd.exists_edits hcount
    have hpatches : Patches (AtEntry old) (String.join old) (String.join new)
        (edits.map (TextEdit.ofEntries old)) :=
      patches_of_items (TextEdit.inBytes_ofEntries old) (fun i hi => ⟨i, hi, place_entries old i⟩)
        horder (Text.bytesOf_join old) (happly ▸ Text.bytesOf_join new)
    exact ⟨_, hedits, hpatches, fun _ _ => hd.shows _ _ _ _ hpatches.fit⟩
  refine ⟨hentries, fun oldLabel newLabel old new hcount => ?_⟩
  obtain ⟨edits, hedits, -, hshown⟩ := hentries _ _ hcount
  rw [Report.diff?]
  split
  · rfl
  · simp only [hedits, Option.bind_eq_bind, Option.bind_some]
    exact hshown _ _

theorem Differ.entryEdits?_patches_sample :
    (∃ edits, Differ.standard.entryEdits? ["a\n", "b\n", "a\n"] ["b\n", "c\n"] = some edits ∧
      Patches (AtEntry ["a\n", "b\n", "a\n"]) "a\nb\na\n" "b\nc\n" edits) ∧
    (∃ edits, Differ.standard.entryEdits? [] ["b\n", "c\n"] = some edits ∧
      Patches (AtEntry []) "" "b\nc\n" edits) ∧
    (Report.diff? .standard "old" { findings := some [{ rule := "r", file := "f" }] } "new"
      { findings := some [{ rule := "r", file := "g" }] }).isSome = true := by
  obtain ⟨hentries, hreports⟩ := Differ.entryEdits?_patches .standard Differ.standard_lawful
  obtain ⟨edits, hedits, hpatches, -⟩ :=
    hentries ["a\n", "b\n", "a\n"] ["b\n", "c\n"] (by decide)
  obtain ⟨edits', hedits', hpatches', -⟩ := hentries [] ["b\n", "c\n"] (by decide)
  refine ⟨⟨edits, hedits, hpatches⟩, ⟨edits', hedits', hpatches'⟩, hreports _ _ _ _ ?_⟩
  exact (List.toFinset_card_le _).trans (by simp [Report.entries, Report.allFindings, Finding.sort])

example : Differ.standard.entryEdits? ["a\n", "b\n", "a\n"] ["b\n", "c\n"] =
    some [⟨0, 2, ""⟩, ⟨4, 6, "c\n"⟩] := by
  decide +kernel

end RuleScan.Diff
