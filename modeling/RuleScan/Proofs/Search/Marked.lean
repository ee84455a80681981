import RuleScan.Engine.Evaluate
import RuleScan.Proofs.Search.Lines
import RuleScan.Proofs.Text.Utf8

/-!
# A mark on a line

A line is taken out of a content together with what stands before and after it (`LineAt`), so that
something can be put behind it and all else stays.

## What is proved

  * `LineAt.exists_of_isLine` — every line of a content can be taken out;
  * `LineAt.contentLines_contentWith` — whatever is put behind a line, as long as it does not end
    the line, the lines before and after stay what they are;
  * `LineAt.unmarked_contentWith` — so a search of the content with the mark on the line finds what
    it found before, except for that line.

The mark goes in front of a carriage return that belongs to the end of the line, or behind one that
belongs to the line.  A mark that ends with a carriage return itself would lose it.
-/

namespace RuleScan

open RuleScan.Text (Bytes)

/-! ## Lines before and after -/

section Lines

variable {before raw after : Bytes}

theorem ends_of_cons {b : UInt8} (h : b :: before = [] ∨ (b :: before).getLast? = some 10) :
    before = [] ∨ before.getLast? = some 10 := by
  cases before with
  | nil => exact .inl rfl
  | cons c before =>
      have hlast := h.resolve_left (List.cons_ne_nil b _)
      exact .inr (by rwa [List.getLast?_cons_cons] at hlast)

/-- Behind a byte that ends no line there is one to go on with. -/
theorem exists_lines_of_cons {b : UInt8}
    (h : b :: before = [] ∨ (b :: before).getLast? = some 10) (hb : b ≠ 10) :
    ∃ line more, contentLines before = line :: more := by
  refine List.exists_cons_of_ne_nil fun hnil => hb ?_
  rw [contentLines_eq_nil.mp hnil] at h
  exact Option.some.inj (h.resolve_left (List.cons_ne_nil b []))

/-- Behind the end of a line, other lines start. -/
theorem contentLines_append (h : before = [] ∨ before.getLast? = some 10) (rest : Bytes) :
    contentLines (before ++ rest) = contentLines before ++ contentLines rest := by
  induction before with
  | nil => rfl
  | cons b before ih =>
      have ih := ih (ends_of_cons h)
      by_cases hb : b = 10
      · rw [hb, List.cons_append, contentLines_feed, contentLines_feed, ih, List.cons_append]
      · obtain ⟨line, more, hlines⟩ := exists_lines_of_cons h hb
        rw [List.cons_append, contentLines_cons hb, contentLines_cons hb, ih, hlines]
        rfl

/-- There are as many lines as line feeds where the last line has one too. -/
theorem length_contentLines (h : before = [] ∨ before.getLast? = some 10) :
    (contentLines before).length = before.count 10 := by
  induction before with
  | nil => rfl
  | cons b before ih =>
      have ih := ih (ends_of_cons h)
      by_cases hb : b = 10
      · rw [hb, contentLines_feed, List.length_cons, ih, List.count_cons_self]
      · obtain ⟨line, more, hlines⟩ := exists_lines_of_cons h hb
        rw [contentLines_cons hb, hlines, List.count_cons_of_ne hb, ← ih, hlines]
        rfl

theorem contentLines_line (hraw : 10 ∉ raw)
    (hafter : after.head? = some 10 ∨ after = [] ∧ raw ≠ []) :
    contentLines (raw ++ after) = raw :: contentLines after.tail := by
  induction raw with
  | nil =>
      obtain ⟨rest, rfl⟩ := List.head?_eq_some_iff.mp (hafter.resolve_right fun h => h.2 rfl)
      exact contentLines_feed rest
  | cons b raw ih =>
      obtain ⟨hb, hraw⟩ := List.ne_and_not_mem_of_not_mem_cons hraw
      rw [List.cons_append, contentLines_cons (Ne.symm hb)]
      by_cases hempty : after = [] ∧ raw = []
      · rw [hempty.1, hempty.2]
        rfl
      · have hafter : after.head? = some 10 ∨ after = [] ∧ raw ≠ [] :=
          hafter.imp_right fun h => ⟨h.1, fun hnil => hempty ⟨h.1, hnil⟩⟩
        rw [ih hraw hafter]

end Lines

/-! ## A line in its place -/

/-- A line with what stands before and after it. -/
structure LineAt where
  before : Bytes
  text : Bytes
  /-- A carriage return that belongs to the end of the line, if there is one. -/
  ending : Bytes
  after : Bytes
  starts : before = [] ∨ before.getLast? = some 10
  whole : 10 ∉ text
  returns : ending = [] ∨ ending = [13]
  ends : after.head? = some 10 ∨ after = [] ∧ text ++ ending ≠ []

namespace LineAt

/-- The content that the line stands in. -/
def content (l : LineAt) : Bytes := l.before ++ (l.text ++ l.ending) ++ l.after

/-- The number of the line, counted from one. -/
def number (l : LineAt) : Nat := l.before.count 10 + 1

/-- The content with a mark behind the line. -/
def contentWith (l : LineAt) (mark : Bytes) : Bytes :=
  l.before ++ (l.text ++ mark ++ l.ending) ++ l.after

theorem contentWith_nil (l : LineAt) : l.contentWith [] = l.content := by
  rw [contentWith, content, List.append_nil]

theorem feed_not_mem_ending (l : LineAt) : 10 ∉ l.ending := by
  rcases l.returns with h | h <;> rw [h] <;> decide

/-- Every line of a content stands somewhere. -/
theorem exists_of_isLine {content text : Bytes} {number : Nat} (h : IsLine content number text) :
    ∃ l : LineAt, l.content = content ∧ l.number = number ∧ l.text = text := by
  obtain ⟨raw, ⟨before, after, rfl, hstarts, hwhole, hends, rfl⟩, rfl | ⟨rfl, -⟩⟩ := h
  · exact ⟨⟨before, text, [13], after, hstarts, fun h => hwhole (List.mem_append_left _ h),
      .inr rfl, hends⟩, rfl, rfl, rfl⟩
  · refine ⟨⟨before, raw, [], after, hstarts, hwhole, .inl rfl, ?_⟩, ?_, rfl, rfl⟩
    · rwa [List.append_nil]
    · show before ++ (raw ++ []) ++ after = before ++ raw ++ after
      rw [List.append_nil]

/-- The lines before and after do not depend on the mark. -/
theorem contentLines_contentWith (l : LineAt) {mark : Bytes} (hmark : 10 ∉ mark) :
    contentLines (l.contentWith mark) =
      contentLines l.before ++ (l.text ++ mark ++ l.ending) :: contentLines l.after.tail := by
  have hraw : 10 ∉ l.text ++ mark ++ l.ending := by
    simp [l.whole, hmark, l.feed_not_mem_ending]
  have hends : l.after.head? = some 10 ∨ l.after = [] ∧ l.text ++ mark ++ l.ending ≠ [] := by
    refine l.ends.imp_right fun h => ⟨h.1, fun hnil => h.2 ?_⟩
    simp only [List.append_eq_nil_iff] at hnil ⊢
    exact ⟨hnil.1.1, hnil.2⟩
  rw [contentWith, List.append_assoc, contentLines_append l.starts, contentLines_line hraw hends]

/-- A marked line holds the mark. -/
theorem mark_infix (l : LineAt) {mark : Bytes} (hmark : 13 ∉ mark) :
    mark <:+: dropReturn (l.text ++ mark ++ l.ending) := by
  rcases l.returns with h | h
  · rw [h, List.append_nil]
    cases mark with
    | nil => exact List.nil_infix
    | cons b mark =>
        have hlast : (l.text ++ b :: mark).getLast? ≠ some 13 := by
          intro hlast
          rw [List.getLast?_append, List.getLast?_cons, Option.some_or] at hlast
          exact hmark (List.mem_of_getLast? (List.getLast?_cons.trans hlast))
        rw [dropReturn, if_neg hlast]
        exact (List.suffix_append _ _).isInfix
  · rw [h, dropReturn, if_pos List.getLast?_concat, List.dropLast_concat]
    exact (List.suffix_append _ _).isInfix

end LineAt

/-! ## What is found -/

section Found

variable (file : String) (m : Matcher)

/-- The matches in lines, of which the first has a number of its own. -/
def matchesFrom (start : Nat) (lines : List Bytes) : List Match :=
  ((lines.map dropReturn).zipIdx start).filterMap fun (line, i) =>
    (m.find? line).map fun column : Nat => ⟨file, line, (i : Int) + 1, (column : Int)⟩

theorem matchesFrom_append (start : Nat) (lines rest : List Bytes) :
    matchesFrom file m start (lines ++ rest) =
      matchesFrom file m start lines ++ matchesFrom file m (start + lines.length) rest := by
  rw [matchesFrom, List.map_append, List.zipIdx_append, List.filterMap_append, List.length_map]
  rfl

theorem searchContent_eq_matchesFrom (content : Bytes) :
    searchContent file m content = matchesFrom file m 0 (contentLines content) :=
  searchContent_eq file m content

variable {file m}

theorem Engine.unmarked_append (marker : String) (ms rest : List Match) :
    unmarked marker (ms ++ rest) = unmarked marker ms ++ unmarked marker rest :=
  List.filter_append ms rest

theorem line_of_mem_matchesFrom {start : Nat} {lines : List Bytes} {x : Match}
    (hx : x ∈ matchesFrom file m start lines) :
    (start : Int) < x.line ∧ x.line ≤ start + lines.length := by
  obtain ⟨⟨line, i⟩, hmem, hmatch⟩ := List.mem_filterMap.mp hx
  obtain ⟨column, -, rfl⟩ := Option.map_eq_some_iff.mp hmatch
  obtain ⟨hle, hlt, -⟩ := List.mem_zipIdx hmem
  rw [List.length_map] at hlt
  dsimp only
  omega

theorem text_of_mem_matchesFrom {start : Nat} {raw : Bytes} {x : Match}
    (hx : x ∈ matchesFrom file m start [raw]) : x.text = dropReturn raw := by
  obtain ⟨⟨line, i⟩, hmem, hmatch⟩ := List.mem_filterMap.mp hx
  obtain ⟨column, -, rfl⟩ := Option.map_eq_some_iff.mp hmatch
  exact (Prod.mk.inj (List.mem_singleton.mp hmem)).1

/-- A search of the content with the mark behind a line finds what it finds without the mark, but
not on that line. -/
theorem LineAt.unmarked_contentWith (l : LineAt) {marker : String}
    (hfeed : 10 ∉ Text.bytesOf marker) (hreturn : 13 ∉ Text.bytesOf marker) :
    Engine.unmarked marker (searchContent file m (l.contentWith (Text.bytesOf marker))) =
      (Engine.unmarked marker (searchContent file m l.content)).filter
        fun x => x.line ≠ (l.number : Int) := by
  have hnumber : (contentLines l.before).length + 1 = l.number :=
    congrArg (· + 1) (length_contentLines l.starts)
  -- The three parts of a content, with any mark behind the line.
  have hparts : ∀ mark, 10 ∉ mark → searchContent file m (l.contentWith mark) =
      matchesFrom file m 0 (contentLines l.before) ++
        (matchesFrom file m (contentLines l.before).length [l.text ++ mark ++ l.ending] ++
          matchesFrom file m l.number (contentLines l.after.tail)) := by
    intro mark hmark
    rw [searchContent_eq_matchesFrom, l.contentLines_contentWith hmark, matchesFrom_append,
      Nat.zero_add, ← List.singleton_append, matchesFrom_append, List.length_singleton, hnumber]
  have hfront : (Engine.unmarked marker (matchesFrom file m 0 (contentLines l.before))).filter
      (fun x => x.line ≠ (l.number : Int)) =
        Engine.unmarked marker (matchesFrom file m 0 (contentLines l.before)) := by
    refine List.filter_eq_self.mpr fun x hx => decide_eq_true ?_
    have := (line_of_mem_matchesFrom (List.mem_filter.mp hx).1).2
    omega
  have hback : (Engine.unmarked marker (matchesFrom file m l.number
      (contentLines l.after.tail))).filter (fun x => x.line ≠ (l.number : Int)) =
        Engine.unmarked marker (matchesFrom file m l.number (contentLines l.after.tail)) := by
    refine List.filter_eq_self.mpr fun x hx => decide_eq_true ?_
    have := (line_of_mem_matchesFrom (List.mem_filter.mp hx).1).1
    omega
  have hold : (Engine.unmarked marker (matchesFrom file m (contentLines l.before).length
      [l.text ++ [] ++ l.ending])).filter (fun x => x.line ≠ (l.number : Int)) = [] := by
    refine List.filter_eq_nil_iff.mpr fun x hx hne => of_decide_eq_true hne ?_
    have := line_of_mem_matchesFrom (List.mem_filter.mp hx).1
    rw [List.length_singleton] at this
    omega
  have hnew : Engine.unmarked marker (matchesFrom file m (contentLines l.before).length
      [l.text ++ Text.bytesOf marker ++ l.ending]) = [] := by
    refine List.filter_eq_nil_iff.mpr fun x hx hkept => ?_
    have hmarked := Text.containsBytes_iff.mpr (l.mark_infix hreturn)
    rw [text_of_mem_matchesFrom hx, hmarked] at hkept
    cases hkept
  rw [hparts _ hfeed, ← l.contentWith_nil, hparts _ List.not_mem_nil]
  simp only [Engine.unmarked_append, List.filter_append, hfront, hback, hold, hnew]

end Found

end RuleScan
