import RuleScan.Engine.Finding
import RuleScan.Proofs.Text.Order

/-!
# What is shown of a line

A finding shows its line without the blanks around it, and of a long line only the front.

## What is proved

  * `walksBack_iff` — the place of the cut is found by a WALK back from the limit, which reads a
    byte at each step.  From every place in the line there is exactly one walk that comes to an end,
    and all bytes that it reads are there;
  * `le_cutPlace`, `continuesAt_cutPlace` — it ends at the last place up to the limit where no
    character is continued;
  * `snippetOf_longest` — so of a line that is a text the longest front is shown that is a text and
    not longer than the limit.

Nothing is asked of the bytes for the walk.  Where they are not those of a text it may go back to
the front, and then nothing is shown.
-/

namespace RuleScan

open RuleScan.Text

/-- Without the blanks at their ends, the bytes of a text are those of a text. -/
theorem Text.IsText.trimBytes {bs : Bytes} (h : IsText bs) : IsText (trimBytes bs) := by
  obtain ⟨s, rfl⟩ := h
  exact ⟨trim s, (trimBytes_bytesOf s).symm⟩

namespace Finding

variable {bs : Bytes} {n place : Nat}

/-- The walks back from a place that come to an end, with the place where they stop: at the front,
or at a byte that does not continue a character.  There is no step where there is no byte. -/
inductive WalksBack (bs : Bytes) : Nat → Nat → Prop
  | front : WalksBack bs 0 0
  | start {n : Nat} (hpos : 0 < n) (hn : n < bs.length) (hstart : isTail bs[n] = false) :
      WalksBack bs n n
  | back {n place : Nat} (hn : n + 1 < bs.length) (htail : isTail bs[n + 1] = true)
      (hrest : WalksBack bs n place) : WalksBack bs (n + 1) place

theorem cutPlace_succ (bs : Bytes) (n : Nat) :
    cutPlace bs (n + 1) = if continuesAt bs (n + 1) then cutPlace bs n else n + 1 := rfl

/-- From a place in the line there is one walk back. -/
theorem walksBack_iff (hn : n < bs.length) : WalksBack bs n place ↔ place = cutPlace bs n := by
  induction n with
  | zero =>
      constructor
      · intro h
        cases h with
        | front => rfl
        | start hpos => exact absurd hpos (Nat.lt_irrefl 0)
      · rintro rfl
        exact .front
  | succ n ih =>
      rw [cutPlace_succ, continuesAt_of_lt hn]
      cases hbyte : isTail bs[n + 1] with
      | true =>
          rw [if_pos rfl, ← ih (Nat.lt_of_succ_lt hn)]
          constructor
          · intro h
            cases h with
            | start _ _ hstart => exact absurd hbyte (Bool.eq_false_iff.mp hstart)
            | back _ _ hrest => exact hrest
          · exact .back hn hbyte
      | false =>
          rw [if_neg Bool.false_ne_true]
          constructor
          · intro h
            cases h with
            | start => rfl
            | back _ htail => exact absurd htail (Bool.eq_false_iff.mp hbyte)
          · rintro rfl
            exact .start (Nat.succ_pos n) hn hbyte

/-! ## Where the walk ends -/

theorem cutPlace_le (bs : Bytes) (n : Nat) : cutPlace bs n ≤ n := by
  induction n with
  | zero => exact Nat.le_refl 0
  | succ n ih =>
      rw [cutPlace_succ]
      split
      · exact Nat.le_succ_of_le ih
      · exact Nat.le_refl _

/-- The walk passes only bytes that continue a character. -/
theorem le_cutPlace {k : Nat} (hk : k ≤ n) (h : continuesAt bs k = false) : k ≤ cutPlace bs n := by
  induction n with
  | zero => exact hk
  | succ n ih =>
      rw [cutPlace_succ]
      split
      · next hplace =>
          have hne : k ≠ n + 1 := by
            rintro rfl
            exact Bool.eq_false_iff.mp h hplace
          exact ih (by omega)
      · exact hk

theorem continuesAt_cutPlace (h : continuesAt bs 0 = false) :
    continuesAt bs (cutPlace bs n) = false := by
  induction n with
  | zero => exact h
  | succ n ih =>
      rw [cutPlace_succ]
      split
      · exact ih
      · next hplace => exact Bool.eq_false_iff.mpr hplace

/-! ## What is shown -/

variable {line : Bytes}

theorem snippetOf_of_le (h : (trimBytes line).length ≤ 200) : snippetOf line = trimBytes line :=
  if_pos h

theorem snippetOf_of_lt (h : 200 < (trimBytes line).length) :
    snippetOf line = (trimBytes line).take (cutPlace (trimBytes line) 200) :=
  if_neg (Nat.not_le_of_lt h)

theorem length_snippetOf (h : 200 < (trimBytes line).length) :
    (snippetOf line).length = cutPlace (trimBytes line) 200 := by
  have hle := cutPlace_le (trimBytes line) 200
  rw [snippetOf_of_lt h, List.length_take]
  omega

/-- What is shown of a text is the longest front that is a text and not longer than the limit. -/
theorem snippetOf_of_isText (hline : IsText line) (h : 200 < (trimBytes line).length) :
    IsText (snippetOf line) ∧ 197 ≤ (snippetOf line).length ∧
      ∀ front, front <+: trimBytes line → front.length ≤ 200 → IsText front →
        front <+: snippetOf line := by
  have htext : IsText (trimBytes line) := hline.trimBytes
  refine ⟨?_, ?_, fun front hfront hlength hvalid => ?_⟩
  · rw [snippetOf_of_lt h, htext.take_iff]
    exact continuesAt_cutPlace htext.continuesAt_zero
  · obtain ⟨k, hk, hback, hplace⟩ := htext.exists_boundary 200
    have hcut := le_cutPlace hk hplace
    rw [length_snippetOf h]
    omega
  · have heq : front = (trimBytes line).take front.length := List.prefix_iff_eq_take.mp hfront
    have hplace : continuesAt (trimBytes line) front.length = false :=
      htext.take_iff.mp (heq ▸ hvalid)
    rw [heq, snippetOf_of_lt h]
    exact List.take_prefix_take_left (le_cutPlace hlength hplace)

/-- A line is shown from its first character that is no blank on.  A short line is shown to its
end, and of a longer one the place of the cut is found by the one walk back from the limit.  If the
line is a text, so is what is shown, and no longer front within the limit is one. -/
theorem snippetOf_longest (line : Bytes) :
    snippetOf line <+: trimBytes line ∧ (snippetOf line).length ≤ 200 ∧
      ((trimBytes line).length ≤ 200 → snippetOf line = trimBytes line) ∧
      (200 < (trimBytes line).length →
        ∀ cut, WalksBack (trimBytes line) 200 cut ↔ cut = (snippetOf line).length) ∧
      (IsText line → IsText (snippetOf line) ∧
        (200 < (trimBytes line).length → 197 ≤ (snippetOf line).length ∧
          ∀ front, front <+: trimBytes line → front.length ≤ 200 → IsText front →
            front <+: snippetOf line)) := by
  by_cases hshort : (trimBytes line).length ≤ 200
  · have heq := snippetOf_of_le hshort
    have hnot : ¬ 200 < (trimBytes line).length := Nat.not_lt_of_le hshort
    refine ⟨heq ▸ List.prefix_refl _, heq ▸ hshort, fun _ => heq, fun h => absurd h hnot,
      fun hline => ⟨heq ▸ hline.trimBytes, fun h => absurd h hnot⟩⟩
  · have hlong : 200 < (trimBytes line).length := Nat.lt_of_not_le hshort
    have hlength := length_snippetOf hlong
    refine ⟨?_, ?_, fun h => absurd h hshort, fun _ cut => ?_, fun hline => ?_⟩
    · rw [snippetOf_of_lt hlong]
      exact List.take_prefix _ _
    · rw [hlength]
      exact cutPlace_le _ _
    · rw [hlength]
      exact walksBack_iff hlong
    · obtain ⟨hvalid, hlower, hlongest⟩ := snippetOf_of_isText hline hlong
      exact ⟨hvalid, fun _ => ⟨hlower, hlongest⟩⟩

/-- A line with a character of three bytes across the limit. -/
def sampleLine : Bytes := bytesOf (String.ofList (' ' :: List.replicate 199 'a' ++ ['€']))

theorem trimBytes_sampleLine :
    trimBytes sampleLine = (List.replicate 199 'a' ++ ['€']).flatMap String.utf8EncodeChar := by
  have htrim : trimWhile isSpace (' ' :: List.replicate 199 'a' ++ ['€']) =
      List.replicate 199 'a' ++ ['€'] := by decide +kernel
  rw [sampleLine, trimBytes_bytesOf, trim, String.toList_ofList, htrim, bytesOf_ofList]

/-- The walk back from the limit ends before the character that does not fit, and no shorter front
is shown. -/
theorem snippetOf_longest_sample :
    IsText sampleLine ∧ 200 < (trimBytes sampleLine).length ∧
      WalksBack (trimBytes sampleLine) 200 199 ∧ (snippetOf sampleLine).length = 199 ∧
      IsText (snippetOf sampleLine) ∧
      bytesOf (String.ofList (List.replicate 198 'a')) <+: snippetOf sampleLine := by
  have htext : IsText sampleLine := ⟨_, rfl⟩
  have hlong : 200 < (trimBytes sampleLine).length := by
    rw [trimBytes_sampleLine]
    decide +kernel
  have hwalk : WalksBack (trimBytes sampleLine) 200 199 := by
    rw [walksBack_iff hlong, trimBytes_sampleLine]
    decide +kernel
  have hfront : bytesOf (String.ofList (List.replicate 198 'a')) <+: trimBytes sampleLine := by
    rw [trimBytes_sampleLine, bytesOf_ofList]
    decide +kernel
  have hlength : (bytesOf (String.ofList (List.replicate 198 'a'))).length ≤ 200 := by
    rw [bytesOf_ofList]
    decide +kernel
  obtain ⟨-, -, -, hcut, hvalid⟩ := snippetOf_longest sampleLine
  obtain ⟨hshown, hlongest⟩ := hvalid htext
  exact ⟨htext, hlong, hwalk, ((hcut hlong 199).mp hwalk).symm, hshown,
    (hlongest hlong).2 _ hfront hlength ⟨_, rfl⟩⟩

end Finding

end RuleScan
