import RuleScan.Glob.Compile

/-!
# Globs that can be read

Reading a glob fails only because of its text, and where it fails can be said without the parts
that have been read before.  `Reads k p s` says that `s` can be read while `k` choices are open,
from a place `p` where a part may begin, or within fixed text, or behind a backslash.

## What is proved

  * `exists_parts_iff`, `exists_parse_iff` — `Reads` is what the reader accepts;
  * `Reads.part`, `Reads.behind_plain` — what can be read behind an ordinary character can be read
    without it;
  * `Reads.of_append` — and what can be read can be read without its end, if there is no closing
    bracket in the end.

The one point of care is what a bracket consumes.  It ends at a closing bracket, and it is read in
the same way whatever stands behind that one (`bracket_append`), so an end without a closing bracket
is never a part of it.
-/

namespace RuleScan.Glob

namespace Tree

/-- Where the reader stands. -/
inductive Place where
  /-- Where a part may begin. -/
  | part
  /-- Within fixed text. -/
  | text
  /-- Within fixed text, behind a backslash. -/
  | escaped
  deriving DecidableEq, Repr

/-- The characters that end fixed text: those that begin a part and, within a choice, those that
end an alternative. -/
def stops (opened : Nat) : List Char :=
  ['?', '*', '[', '\x7b'] ++ if opened = 0 then [] else ['\x7d', ',']

theorem stops_length (frames : List Frame) :
    (['?', '*', '[', '\x7b'] ++ if frames.isEmpty then [] else ['\x7d', ',']) =
      stops frames.length := by
  cases frames with
  | nil => rfl
  | cons f frames => rfl

/-- A character that begins no part and, within a choice, ends no alternative does not end fixed
text. -/
theorem notMem_stops {frames : List Frame} {c : Char}
    (hbegins : c ≠ '?' ∧ c ≠ '*' ∧ c ≠ '[' ∧ c ≠ '\x7b')
    (hends : frames ≠ [] → c ≠ '\x7d' ∧ c ≠ ',') : c ∉ stops frames.length := by
  cases frames with
  | nil => simpa [stops] using hbegins
  | cons f frames => simpa [stops, hbegins] using hends (List.cons_ne_nil f frames)

/-- One character that ends fixed text, with what belongs to it: how many choices are open behind
it, and what is left. -/
inductive Begins : Nat → Char → List Char → Nat → List Char → Prop
  | opened {k : Nat} {s : List Char} : Begins k '\x7b' s (k + 1) s
  | parted {k : Nat} {s : List Char} : Begins (k + 1) ',' s (k + 1) s
  | closed {k : Nat} {s : List Char} : Begins (k + 1) '\x7d' s k s
  | listed {k : Nat} {s left : List Char} {t : Tree} : bracket s = .ok (t, left) →
      Begins k '[' s k left
  | single {k : Nat} {s : List Char} : Begins k '?' s k s
  | star {k : Nat} {s : List Char} : Begins k '*' s k s

/-- A text that can be read while some choices are open, from a place on. -/
inductive Reads : Nat → Place → List Char → Prop
  | done {k : Nat} {p : Place} : Reads k p []
  /-- A NUL character ends the glob. -/
  | ended {k : Nat} {s : List Char} : Reads k .part (ending :: s)
  /-- A NUL character ends fixed text. -/
  | passed {k : Nat} {p : Place} {s : List Char} : p ≠ .part → Reads k .part s →
      Reads k p (ending :: s)
  | begun {k k' : Nat} {p : Place} {c : Char} {s s' : List Char} : p ≠ .escaped →
      Begins k c s k' s' → Reads k' .part s' → Reads k p (c :: s)
  | escape {k : Nat} {p : Place} {s : List Char} : p ≠ .escaped → Reads k .escaped s →
      Reads k p ('\\' :: s)
  | plain {k : Nat} {p : Place} {c : Char} {s : List Char} : p ≠ .escaped →
      isUnreadable c = false → c ≠ '\\' → c ∉ stops k → Reads k .text s → Reads k p (c :: s)
  | literal {k : Nat} {c : Char} {s : List Char} : isUnreadable c = false → Reads k .text s →
      Reads k .escaped (c :: s)

theorem isUnreadable_eq_false {c : Char} (hdecodable : c ≠ undecodable) (hending : c ≠ ending) :
    isUnreadable c = false := by
  simp [isUnreadable, hdecodable, hending]

/-! ## By the first character -/

section First

variable {k k' k'' : Nat} {p q : Place} {c : Char} {s s' s'' : List Char}

theorem Begins.mem_stops (h : Begins k c s k' s') : c ∈ stops k := by
  cases h <;> simp [stops]

theorem Begins.isUnreadable (h : Begins k c s k' s') : isUnreadable c = false := by
  cases h <;> decide

theorem Begins.ne_backslash (h : Begins k c s k' s') : c ≠ '\\' := by
  cases h <;> decide

/-- The character decides what is left. -/
theorem Begins.unique (h : Begins k c s k' s') (h' : Begins k c s k'' s'') :
    k' = k'' ∧ s' = s'' := by
  cases h with
  | listed hbracket =>
      cases h' with
      | listed hbracket' =>
          rw [hbracket] at hbracket'
          cases hbracket'
          exact ⟨rfl, rfl⟩
  | _ =>
      cases h'
      exact ⟨rfl, rfl⟩

theorem Begins.exists_bracket (h : Begins k '[' s k' s') : ∃ t, bracket s = .ok (t, s') := by
  cases h with
  | listed hbracket => exact ⟨_, hbracket⟩

theorem not_reads_undecodable : ¬ Reads k p (undecodable :: s) := by
  intro h
  cases h with
  | begun _ hbegins => exact absurd hbegins.isUnreadable (by decide)
  | plain _ hreadable => exact absurd hreadable (by decide)
  | literal hreadable => exact absurd hreadable (by decide)

theorem reads_ending_iff (hp : p ≠ .part) : Reads k p (ending :: s) ↔ Reads k .part s := by
  constructor
  · intro h
    cases h with
    | ended => exact absurd rfl hp
    | passed _ h => exact h
    | begun _ hbegins => exact absurd hbegins.isUnreadable (by decide)
    | plain _ hreadable => exact absurd hreadable (by decide)
    | literal hreadable => exact absurd hreadable (by decide)
  · exact .passed hp

theorem reads_backslash_iff (hp : p ≠ .escaped) : Reads k p ('\\' :: s) ↔ Reads k .escaped s := by
  constructor
  · intro h
    cases h with
    | begun _ hbegins => exact absurd rfl hbegins.ne_backslash
    | escape _ h => exact h
    | plain _ _ hescape => exact absurd rfl hescape
    | literal => exact absurd rfl hp
  · exact .escape hp

theorem reads_plain_iff (hp : p ≠ .escaped) (hreadable : isUnreadable c = false)
    (hescape : c ≠ '\\') (hstop : c ∉ stops k) : Reads k p (c :: s) ↔ Reads k .text s := by
  constructor
  · intro h
    cases h with
    | ended => exact absurd hreadable (by decide)
    | passed => exact absurd hreadable (by decide)
    | begun _ hbegins => exact absurd hbegins.mem_stops hstop
    | escape => exact absurd rfl hescape
    | plain _ _ _ _ h => exact h
    | literal => exact absurd rfl hp
  · exact .plain hp hreadable hescape hstop

theorem reads_literal_iff (hreadable : isUnreadable c = false) :
    Reads k .escaped (c :: s) ↔ Reads k .text s := by
  constructor
  · intro h
    cases h with
    | passed => exact absurd hreadable (by decide)
    | begun hp => exact absurd rfl hp
    | escape hp => exact absurd rfl hp
    | plain hp => exact absurd rfl hp
    | literal _ h => exact h
  · exact .literal hreadable

/-- What is read at a character that ends fixed text. -/
theorem Reads.begins (h : Reads k p (c :: s)) (hp : p ≠ .escaped) (hc : c ∈ stops k)
    (hending : c ≠ ending) (hescape : c ≠ '\\') :
    ∃ k' s', Begins k c s k' s' ∧ Reads k' .part s' := by
  cases h with
  | ended => exact absurd rfl hending
  | passed => exact absurd rfl hending
  | begun _ hbegins h => exact ⟨_, _, hbegins, h⟩
  | escape => exact absurd rfl hescape
  | plain _ _ _ hstop => exact absurd hc hstop
  | literal => exact absurd rfl hp

theorem reads_begun_iff (hp : p ≠ .escaped) (hbegins : Begins k c s k' s') :
    Reads k p (c :: s) ↔ Reads k' .part s' := by
  constructor
  · intro h
    have hending : c ≠ ending := by
      rintro rfl
      exact absurd hbegins.isUnreadable (by decide)
    obtain ⟨k'', s'', hbegins', h⟩ := h.begins hp hbegins.mem_stops hending hbegins.ne_backslash
    obtain ⟨rfl, rfl⟩ := hbegins.unique hbegins'
    exact h
  · exact .begun hp hbegins

/-- Unless a NUL character follows, parts are read where text is read, and the other way round. -/
theorem Reads.moved (h : Reads k p (c :: s)) (hp : p ≠ .escaped) (hq : q ≠ .escaped)
    (hending : c ≠ ending) : Reads k q (c :: s) := by
  cases h with
  | ended => exact absurd rfl hending
  | passed => exact absurd rfl hending
  | begun _ hbegins h => exact .begun hq hbegins h
  | escape _ h => exact .escape hq h
  | plain _ hreadable hescape hstop h => exact .plain hq hreadable hescape hstop h
  | literal => exact absurd rfl hp

/-- What can be read within fixed text can be read where a part may begin. -/
theorem Reads.part (h : Reads k .text s) : Reads k .part s := by
  match s with
  | [] => exact .done
  | c :: s =>
      by_cases hc : c = ending
      · rw [hc]
        exact .ended
      · exact h.moved (by decide) (by decide) hc

end First

/-! ## Fixed text -/

/-- Fixed text is read up to where a part may begin. -/
theorem reads_iff_takeText (k : Nat) (s : List Char) (escaped : Bool) :
    Reads k (if escaped then .escaped else .text) s ↔
      (takeText (stops k) s escaped).2.2 = false ∧
        Reads k .part (takeText (stops k) s escaped).2.1 := by
  have hplace : ∀ b : Bool, (if b then Place.escaped else Place.text) ≠ .part := by decide
  fun_induction takeText (stops k) s escaped with
  | case1 escaped => exact ⟨fun _ => ⟨rfl, .done⟩, fun _ => .done⟩
  | case2 rest escaped => exact ⟨fun h => absurd h not_reads_undecodable, fun h => nomatch h.1⟩
  | case3 rest escaped =>
      exact (reads_ending_iff (hplace escaped)).trans (and_iff_right rfl).symm
  | case4 c rest escaped _ _ hescape ih =>
      obtain ⟨rfl, rfl⟩ : escaped = false ∧ c = '\\' := by simpa using hescape
      exact (reads_backslash_iff (by decide)).trans ih
  | case5 c rest escaped _ hending _ hstop =>
      obtain ⟨rfl, -⟩ : escaped = false ∧ c ∈ stops k := by simpa using hstop
      refine Iff.trans ⟨fun h => ?_, fun h => ?_⟩ (and_iff_right rfl).symm
      · exact h.moved (by decide) (by decide) hending
      · exact h.moved (by decide) (by decide) hending
  | case6 c rest escaped hdecodable hending hescape hstop more left bad htake ih =>
      rw [htake] at ih
      have hreadable := isUnreadable_eq_false hdecodable hending
      cases escaped with
      | true => exact (reads_literal_iff hreadable).trans ih
      | false =>
          have hc : c ≠ '\\' := by simpa using hescape
          have hs : c ∉ stops k := by simpa using hstop
          exact (reads_plain_iff (by decide) hreadable hc hs).trans ih

/-- Where a part may begin and text stands, the text is read first. -/
theorem reads_iff_of_takeText {k : Nat} {c : Char} {s chars left : List Char} {bad : Bool}
    (hending : c ≠ ending) (htake : takeText (stops k) (c :: s) false = (chars, left, bad)) :
    Reads k .part (c :: s) ↔ bad = false ∧ Reads k .part left := by
  have htext := reads_iff_takeText k (c :: s) false
  rw [htake] at htext
  refine Iff.trans ⟨fun h => ?_, .part⟩ htext
  exact h.moved (by decide) (by decide) hending

theorem length_takeText_le (stop s : List Char) (escaped : Bool) :
    (takeText stop s escaped).2.1.length ≤ s.length := by
  fun_induction takeText stop s escaped with
  | case1 | case2 | case5 => exact Nat.le_refl _
  | case3 => exact Nat.le_succ _
  | case4 c rest escaped _ _ _ ih => exact Nat.le_succ_of_le ih
  | case6 c rest escaped _ _ _ _ more left bad htake ih =>
      rw [htake] at ih
      exact Nat.le_succ_of_le ih

/-- Text takes at least its first character. -/
theorem length_takeText_lt {stop s : List Char} {c : Char} (hdecodable : c ≠ undecodable)
    (hending : c ≠ ending) (hstop : c ∉ stop) :
    (takeText stop (c :: s) false).2.1.length < (c :: s).length := by
  rw [takeText, if_neg hdecodable, if_neg hending]
  split
  · exact Nat.lt_succ_of_le (length_takeText_le stop s true)
  · rw [if_neg (by simpa using hstop)]
    exact Nat.lt_succ_of_le (length_takeText_le stop s false)

/-! ## Brackets -/

theorem closing_eq_ok_iff {tree : Except ParseError Tree} {s left : List Char} {t : Tree} :
    closing tree s = .ok (t, left) ↔ s = ']' :: left ∧ tree = .ok t := by
  fun_cases closing tree s with
  | case1 => exact ⟨nofun, nofun⟩
  | case2 c rest hc =>
      refine ⟨nofun, fun h => ?_⟩
      rw [(List.cons.inj h.1).1] at hc
      exact absurd hc (by decide)
  | case3 c rest hc hclose => exact ⟨nofun, fun h => absurd (List.cons.inj h.1).1 hclose⟩
  | case4 c rest hc hclose =>
      obtain rfl : c = ']' := Decidable.not_not.mp hclose
      cases tree with
      | error e => exact ⟨nofun, nofun⟩
      | ok t' =>
          show Except.ok (t', rest) = _ ↔ _
          simp [and_comm]

/-- Text up to a closing bracket is read the same whatever stands behind the bracket. -/
theorem takeText_closing {s chars left : List Char} {escaped : Bool}
    (h : takeText [']'] s escaped = (chars, ']' :: left, false)) :
    ∃ front, s = front ++ ']' :: left ∧ ∀ left',
      takeText [']'] (front ++ ']' :: left') escaped = (chars, ']' :: left', false) := by
  fun_induction takeText [']'] s escaped generalizing chars with
  | case1 | case2 => cases h
  | case3 =>
      cases h
      exact ⟨[ending], rfl, fun left' => rfl⟩
  | case4 c rest escaped hdecodable hending hescape ih =>
      obtain ⟨front, rfl, hfront⟩ := ih h
      refine ⟨c :: front, rfl, fun left' => ?_⟩
      rw [List.cons_append, takeText, if_neg hdecodable, if_neg hending, if_pos hescape]
      exact hfront left'
  | case5 c rest escaped hdecodable hending hescape hstop =>
      cases h
      refine ⟨[], rfl, fun left' => ?_⟩
      rw [List.nil_append, takeText, if_neg hdecodable, if_neg hending, if_neg hescape,
        if_pos hstop]
  | case6 c rest escaped hdecodable hending hescape hstop more left bad htake ih =>
      cases h
      obtain ⟨front, rfl, hfront⟩ := ih htake
      refine ⟨c :: front, rfl, fun left' => ?_⟩
      rw [List.cons_append, takeText, if_neg hdecodable, if_neg hending, if_neg hescape,
        if_neg hstop, hfront left']

theorem bracketed_append {negated : Bool} {s left : List Char} {t : Tree}
    (h : bracketed negated s = .ok (t, left)) :
    ∃ front, front ≠ [] ∧ s = front ++ ']' :: left ∧
      ∀ left', bracketed negated (front ++ ']' :: left') = .ok (t, left') := by
  revert h
  fun_cases bracketed negated s with
  | case1 | case2 | case3 | case4 | case6 | case7 => exact nofun
  | case5 lo hlo hi rest hhi =>
      intro h
      obtain ⟨rfl, ht⟩ := closing_eq_ok_iff.mp h
      refine ⟨[lo, '-', hi], List.cons_ne_nil _ _, rfl, fun left' => ?_⟩
      show (if isUnreadable lo then _ else if isUnreadable hi then _ else _) = _
      rw [if_neg hlo, if_neg hhi]
      exact closing_eq_ok_iff.mpr ⟨rfl, ht⟩
  | case8 c rest hrange hc chars left' bad htake hbad =>
      intro h
      obtain ⟨rfl, ht⟩ := closing_eq_ok_iff.mp h
      rw [Bool.eq_false_iff.mpr hbad] at htake
      obtain ⟨front, hfront, hreread⟩ := takeText_closing htake
      match front with
      | [] =>
          -- Without any character between the brackets nothing would have been read.
          obtain ⟨rfl, rfl⟩ := List.cons.inj hfront
          have hnone : takeText [']'] (']' :: rest) false = ([], ']' :: rest, false) := rfl
          rw [hnone] at htake
          cases htake
          cases ht
      | c' :: front =>
          obtain ⟨rfl, rfl⟩ := List.cons.inj hfront
          refine ⟨c :: front, List.cons_ne_nil _ _, rfl, fun left' => ?_⟩
          -- What follows the first character is still no dash.
          have hrange' : ∀ more, front ++ ']' :: left' ≠ '-' :: more := by
            intro more hmore
            cases front with
            | nil => exact absurd (List.cons.inj hmore).1 (by decide)
            | cons d front =>
                rw [(List.cons.inj hmore).1] at hrange
                exact hrange (front ++ ']' :: left) rfl
          have htake' : takeText [']'] (c :: (front ++ ']' :: left')) false =
              (chars, ']' :: left', false) := hreread left'
          show bracketed negated (c :: (front ++ ']' :: left')) = _
          rw [bracketed, if_neg hc, htake']
          · exact closing_eq_ok_iff.mpr ⟨rfl, ht⟩
          · exact fun more h => hrange' more h

/-- A part in brackets is read the same whatever stands behind its closing bracket. -/
theorem bracket_append {s left : List Char} {t : Tree} (h : bracket s = .ok (t, left)) :
    ∃ front, s = front ++ ']' :: left ∧
      ∀ left', bracket (front ++ ']' :: left') = .ok (t, left') := by
  revert h
  fun_cases bracket s with
  | case1 rest =>
      intro h
      obtain ⟨front, -, rfl, hfront⟩ := bracketed_append h
      exact ⟨'!' :: front, rfl, hfront⟩
  | case2 s hplain =>
      intro h
      obtain ⟨front, hne, rfl, hfront⟩ := bracketed_append h
      refine ⟨front, rfl, fun left' => ?_⟩
      obtain ⟨c, front, rfl⟩ := List.exists_cons_of_ne_nil hne
      have hc : c ≠ '!' := fun hc => hplain (front ++ ']' :: left) (by rw [hc]; rfl)
      rw [← hfront left']
      show bracket (c :: (front ++ ']' :: left')) = _
      rw [bracket]
      · rfl
      · intro rest hrest
        exact hc (List.cons.inj hrest).1

/-! ## The whole text -/

/-- **What the reader accepts**, whatever it has read before. -/
theorem exists_parts_iff {fuel : Nat} {frames : List Frame} {acc : List Tree} {s : List Char}
    (hfuel : s.length < fuel) :
    (∃ ts, parts fuel frames acc s = .ok ts) ↔ Reads frames.length .part s := by
  fun_induction parts fuel frames acc s with
  | case1 => exact absurd hfuel (Nat.not_lt_zero _)
  | case2 => exact ⟨fun _ => .done, fun _ => ⟨_, rfl⟩⟩
  | case3 => exact ⟨nofun, fun h => absurd h not_reads_undecodable⟩
  | case4 => exact ⟨fun _ => .ended, fun _ => ⟨_, rfl⟩⟩
  | case5 fuel frames acc rest _ _ ih =>
      rw [reads_begun_iff (by decide) .opened]
      exact ih (Nat.lt_of_succ_lt_succ hfuel)
  | case6 fuel frames acc rest e hbracket =>
      refine ⟨nofun, fun h => ?_⟩
      obtain ⟨_, _, hbegins, -⟩ := h.begins (by decide) (by simp [stops]) (by decide) (by decide)
      obtain ⟨t, hok⟩ := hbegins.exists_bracket
      rw [hbracket] at hok
      cases hok
  | case7 fuel frames acc rest t left hbracket _ _ ih =>
      obtain ⟨front, rfl, -⟩ := bracket_append hbracket
      have hlength : left.length < fuel := by
        simp only [List.length_cons, List.length_append] at hfuel
        omega
      rw [reads_begun_iff (by decide) (.listed hbracket)]
      exact ih hlength
  | case8 fuel frames acc rest _ _ ih =>
      rw [reads_begun_iff (by decide) .single]
      exact ih (Nat.lt_of_succ_lt_succ hfuel)
  | case9 fuel frames acc rest _ _ ih =>
      rw [reads_begun_iff (by decide) .star, reads_begun_iff (by decide) .star]
      exact ih (Nat.lt_of_succ_lt (Nat.lt_of_succ_lt_succ hfuel))
  | case10 fuel frames acc rest _ _ _ ih =>
      rw [reads_begun_iff (by decide) .star]
      exact ih (Nat.lt_of_succ_lt_succ hfuel)
  | case11 fuel acc rest f outer _ _ _ _ _ _ ih =>
      exact (ih (Nat.lt_of_succ_lt_succ hfuel)).trans (reads_begun_iff (by decide) .parted).symm
  | case12 fuel acc rest f outer _ _ _ _ _ _ ih =>
      exact (ih (Nat.lt_of_succ_lt_succ hfuel)).trans (reads_begun_iff (by decide) .closed).symm
  | case13 fuel frames acc c rest _ hending stop chars left h₁ h₂ h₃ h₄ h₅ h₆ htake =>
      have htake' : takeText (stops frames.length) (c :: rest) false = (chars, left, true) :=
        stops_length frames ▸ htake
      split
      · exact absurd rfl (h₅ _ _ rfl)
      · exact absurd rfl (h₆ _ _ rfl)
      · dsimp only
        rw [stops_length, htake', reads_iff_of_takeText hending htake']
        exact ⟨nofun, nofun⟩
  | case14 fuel frames acc c rest hdecodable hending stop chars left bad htake hbad h₁ h₂ h₃ h₄ h₅
      h₆ ih =>
      have htake' : takeText (stops frames.length) (c :: rest) false = (chars, left, bad) :=
        stops_length frames ▸ htake
      have hstop : c ∉ stops frames.length := by
        refine notMem_stops ⟨h₃, h₄, h₂, h₁⟩ fun hframes => ?_
        obtain ⟨f, outer, rfl⟩ := List.exists_cons_of_ne_nil hframes
        exact ⟨fun h => h₆ _ _ h rfl, fun h => h₅ _ _ h rfl⟩
      have hlength := length_takeText_lt (s := rest) hdecodable hending hstop
      rw [htake'] at hlength
      split
      · exact absurd rfl (h₅ _ _ rfl)
      · exact absurd rfl (h₆ _ _ rfl)
      · dsimp only
        rw [stops_length, htake', reads_iff_of_takeText hending htake']
        dsimp only
        rw [if_neg hbad, ih (Nat.lt_of_lt_of_le hlength (Nat.le_of_lt_succ hfuel))]
        exact (and_iff_right (Bool.eq_false_iff.mpr hbad)).symm

theorem exists_parse_iff {glob : String} :
    (∃ t, parse glob = .ok t) ↔ Reads 0 .part glob.toList := by
  have hparts : (∃ ts, parts (glob.length + 1) [] [] glob.toList = .ok ts) ↔ _ :=
    exists_parts_iff (Nat.lt_succ_of_le (Nat.le_of_eq String.length_toList))
  refine Iff.trans ?_ hparts
  rw [parse]
  constructor
  · rintro ⟨t, ht⟩
    cases h : parts (glob.length + 1) [] [] glob.toList with
    | error e =>
        rw [h] at ht
        cases ht
    | ok ts => exact ⟨ts, rfl⟩
  · rintro ⟨ts, hts⟩
    rw [hts]
    exact ⟨_, rfl⟩

/-! ## Parts of what can be read -/

/-- Behind an ordinary character there is a text that can be read on its own. -/
theorem Reads.behind_plain {k : Nat} {p : Place} {c : Char} {s : List Char} (h : Reads k p (c :: s))
    (hp : p ≠ .escaped) (hreadable : isUnreadable c = false) (hescape : c ≠ '\\')
    (hstop : c ∉ stops k) : Reads k .part s :=
  ((reads_plain_iff hp hreadable hescape hstop).mp h).part

/-- What is read at one character belongs to the text up to the last closing bracket. -/
theorem Begins.of_append {k k' : Nat} {c : Char} {s t s' : List Char}
    (h : Begins k c (s ++ t) k' s') (ht : ']' ∉ t) : ∃ s₁, s' = s₁ ++ t ∧ Begins k c s k' s₁ := by
  cases h with
  | opened => exact ⟨s, rfl, .opened⟩
  | parted => exact ⟨s, rfl, .parted⟩
  | closed => exact ⟨s, rfl, .closed⟩
  | single => exact ⟨s, rfl, .single⟩
  | star => exact ⟨s, rfl, .star⟩
  | listed hbracket =>
      obtain ⟨front, hfront, hreread⟩ := bracket_append hbracket
      rcases List.append_eq_append_iff.mp hfront with ⟨more, -, rfl⟩ | ⟨more, rfl, hmore⟩
      · exact absurd (by simp) ht
      · rcases List.cons_eq_append_iff.mp hmore with ⟨-, rfl⟩ | ⟨left, rfl, rfl⟩
        · exact absurd (by simp) ht
        · exact ⟨left, rfl, .listed (hreread left)⟩

/-- The end of a text need not be there, if it does not close any bracket. -/
theorem Reads.of_append {k : Nat} {p : Place} {s t : List Char} (h : Reads k p (s ++ t))
    (ht : ']' ∉ t) : Reads k p s := by
  generalize hu : s ++ t = u at h
  induction h generalizing s with
  | done =>
      obtain ⟨rfl, -⟩ := List.append_eq_nil_iff.mp hu
      exact .done
  | ended =>
      rcases List.append_eq_cons_iff.mp hu with ⟨rfl, -⟩ | ⟨s, rfl, rfl⟩
      · exact .done
      · exact .ended
  | passed hp _ ih =>
      rcases List.append_eq_cons_iff.mp hu with ⟨rfl, -⟩ | ⟨s, rfl, rfl⟩
      · exact .done
      · exact .passed hp (ih rfl)
  | begun hp hbegins _ ih =>
      rcases List.append_eq_cons_iff.mp hu with ⟨rfl, -⟩ | ⟨s, rfl, rfl⟩
      · exact .done
      · obtain ⟨s', rfl, hshort⟩ := hbegins.of_append ht
        exact .begun hp hshort (ih rfl)
  | escape hp _ ih =>
      rcases List.append_eq_cons_iff.mp hu with ⟨rfl, -⟩ | ⟨s, rfl, rfl⟩
      · exact .done
      · exact .escape hp (ih rfl)
  | plain hp hreadable hescape hstop _ ih =>
      rcases List.append_eq_cons_iff.mp hu with ⟨rfl, -⟩ | ⟨s, rfl, rfl⟩
      · exact .done
      · exact .plain hp hreadable hescape hstop (ih rfl)
  | literal hreadable _ ih =>
      rcases List.append_eq_cons_iff.mp hu with ⟨rfl, -⟩ | ⟨s, rfl, rfl⟩
      · exact .done
      · exact .literal hreadable (ih rfl)

end Tree

/-- **A glob can be read if its text can.** -/
theorem exists_ofText_iff {text : String} :
    (∃ g, ofText text = .ok g) ↔ Tree.Reads 0 .part text.toList := by
  refine Iff.trans ?_ Tree.exists_parse_iff
  rw [ofText]
  constructor
  · rintro ⟨g, hg⟩
    cases h : Tree.parse text with
    | error e =>
        rw [h] at hg
        cases hg
    | ok t => exact ⟨t, rfl⟩
  · rintro ⟨t, ht⟩
    rw [ht]
    exact ⟨_, rfl⟩

end RuleScan.Glob
