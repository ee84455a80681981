import Mathlib.Data.List.Nodup
import RuleScan.Yaml.Record

/-!
# Documents that spell out their values

A document may say a value in many ways: with anchors and aliases, with tags, with maps that are
merged in.  `spelled?` is the value of a node that does without all of them, a tree of scalars,
lists, and maps whose keys are different texts.  This is how values are written down.

## What is proved

What the evaluation of a document gives may depend on what its anchors stood for on the way.  For a
node that spells out its value it does not: the evaluation gives that value and leaves the anchors
alone (`evaluate_of_spelled`), and so does every look at a part of the document while a record is
read from it (`Spells.value`, `Spells.isNull`, `Spells.elements`, `Spells.entries`).

The bound on the depth is part of the notion, since an evaluation that has used it up gives null
and does not say so.
-/

namespace RuleScan.Yaml

/-! ## Spelling out -/

mutual

/-- The value that a node spells out; `fuel` bounds how deep it may be. -/
def spelled? (tokens : Tokens) (fuel : Nat) (n : Node) : Option Json :=
  match fuel, n with
  | 0, _ => none
  | _ + 1, .scalar t => some (tokenValue (tokens[t]?.getD default))
  | _ + 1, .word t => some (.string (textAt tokens t))
  | _ + 1, .block _ text => some (.string ((text.map (textAt tokens)).getD ""))
  | fuel + 1, .sequence _ elements => (spelledAll? tokens fuel elements).map .array
  | fuel + 1, .mapping _ entries =>
    ((spelledEntries? tokens fuel entries).filter fun fields =>
      (fields.map Prod.fst).Nodup).map .object
  | _ + 1, _ => none

/-- The values that several nodes spell out. -/
def spelledAll? (tokens : Tokens) (fuel : Nat) (nodes : List Node) : Option (List Json) :=
  match fuel, nodes with
  | _, [] => some []
  | 0, _ :: _ => none
  | fuel + 1, n :: rest =>
    (spelled? tokens fuel n).bind fun v => (spelledAll? tokens fuel rest).map (v :: ·)

/-- The fields that the entries of a map spell out. -/
def spelledEntries? (tokens : Tokens) (fuel : Nat) (entries : List (Node × Node)) :
    Option (List (String × Json)) :=
  match fuel, entries with
  | _, [] => some []
  | 0, _ :: _ => none
  | fuel + 1, (k, n) :: rest =>
    match spelled? tokens fuel k with
    | some (.string name) =>
      (spelled? tokens fuel n).bind fun v =>
        (spelledEntries? tokens fuel rest).map ((name, v) :: ·)
    | _ => none

end

variable {tokens : Tokens} {fuel : Nat}

theorem spelledAll?_cons {n : Node} {rest : List Node} {vs : List Json}
    (h : spelledAll? tokens (fuel + 1) (n :: rest) = some vs) :
    ∃ v ws, spelled? tokens fuel n = some v ∧ spelledAll? tokens fuel rest = some ws ∧
      vs = v :: ws := by
  rw [spelledAll?] at h
  obtain ⟨v, hv, h⟩ := Option.bind_eq_some_iff.mp h
  obtain ⟨ws, hws, rfl⟩ := Option.map_eq_some_iff.mp h
  exact ⟨v, ws, hv, hws, rfl⟩

theorem spelledEntries?_cons {k n : Node} {rest : List (Node × Node)}
    {fields : List (String × Json)}
    (h : spelledEntries? tokens (fuel + 1) ((k, n) :: rest) = some fields) :
    ∃ name v more, spelled? tokens fuel k = some (.string name) ∧
      spelled? tokens fuel n = some v ∧ spelledEntries? tokens fuel rest = some more ∧
      fields = (name, v) :: more := by
  rw [spelledEntries?] at h
  split at h
  · next name hname =>
      obtain ⟨v, hv, h⟩ := Option.bind_eq_some_iff.mp h
      obtain ⟨more, hmore, rfl⟩ := Option.map_eq_some_iff.mp h
      exact ⟨name, v, more, hname, hv, hmore, rfl⟩
  · cases h

theorem spelled?_sequence {t : Nat} {elements : List Node} {v : Json}
    (h : spelled? tokens (fuel + 1) (.sequence t elements) = some v) :
    ∃ vs, spelledAll? tokens fuel elements = some vs ∧ v = .array vs := by
  rw [spelled?] at h
  obtain ⟨vs, hvs, rfl⟩ := Option.map_eq_some_iff.mp h
  exact ⟨vs, hvs, rfl⟩

theorem spelled?_mapping {t : Nat} {entries : List (Node × Node)} {v : Json}
    (h : spelled? tokens (fuel + 1) (.mapping t entries) = some v) :
    ∃ fields, spelledEntries? tokens fuel entries = some fields ∧
      (fields.map Prod.fst).Nodup ∧ v = .object fields := by
  rw [spelled?] at h
  obtain ⟨fields, hfields, rfl⟩ := Option.map_eq_some_iff.mp h
  obtain ⟨hfields, hnodup⟩ := Option.filter_eq_some_iff.mp hfields
  exact ⟨fields, hfields, of_decide_eq_true hnodup, rfl⟩

/-- A greater bound changes nothing. -/
theorem spelled?_succ (tokens : Tokens) (fuel : Nat) :
    (∀ n v, spelled? tokens fuel n = some v → spelled? tokens (fuel + 1) n = some v) ∧
    (∀ ns vs, spelledAll? tokens fuel ns = some vs → spelledAll? tokens (fuel + 1) ns = some vs) ∧
    ∀ es fields, spelledEntries? tokens fuel es = some fields →
      spelledEntries? tokens (fuel + 1) es = some fields := by
  induction fuel with
  | zero =>
      refine ⟨fun n v h => (by cases h), fun ns vs h => ?_, fun es fields h => ?_⟩
      · cases ns with
        | nil => exact h
        | cons n rest => cases h
      · cases es with
        | nil => exact h
        | cons e rest => cases h
  | succ fuel ih =>
      obtain ⟨ihNode, ihAll, ihEntries⟩ := ih
      refine ⟨fun n v h => ?_, fun ns vs h => ?_, fun es fields h => ?_⟩
      · cases n with
        | sequence t elements =>
            obtain ⟨vs, hvs, rfl⟩ := spelled?_sequence h
            rw [spelled?, ihAll elements vs hvs, Option.map_some]
        | mapping t entries =>
            obtain ⟨fields, hfields, hnodup, rfl⟩ := spelled?_mapping h
            rw [spelled?, ihEntries entries fields hfields, Option.filter_some,
              if_pos (decide_eq_true hnodup), Option.map_some]
        | _ => exact h
      · cases ns with
        | nil => exact h
        | cons n rest =>
            obtain ⟨v, ws, hv, hws, rfl⟩ := spelledAll?_cons h
            rw [spelledAll?, ihNode n v hv, ihAll rest ws hws]
            rfl
      · cases es with
        | nil => exact h
        | cons e rest =>
            obtain ⟨k, n⟩ := e
            obtain ⟨name, v, more, hname, hv, hmore, rfl⟩ := spelledEntries?_cons h
            rw [spelledEntries?, ihNode k _ hname, ihNode n v hv, ihEntries rest more hmore]
            rfl

theorem spelled?_of_le {n : Node} {v : Json} (h : spelled? tokens fuel n = some v) {bound : Nat}
    (hle : fuel ≤ bound) : spelled? tokens bound n = some v := by
  induction hle with
  | refl => exact h
  | step _ ih => exact (spelled?_succ tokens _).1 n v ih

/-! ## Evaluation -/

/-- What spells out a text is no merge key. -/
theorem isMerge_of_spelled {k : Node} {name : String}
    (h : spelled? tokens fuel k = some (.string name)) : isMerge tokens k = false := by
  cases fuel with
  | zero => cases h
  | succ fuel =>
      cases k with
      | scalar t =>
          simp only [spelled?, Option.some.injEq, tokenValue] at h
          rw [isMerge]
          split
          · next hkind =>
              rw [hkind] at h
              cases h
          · rfl
      | explicit m k => cases h
      | tag t v => cases h
      | anchor t m v => cases h
      | _ => rfl

/-- A name that comes later is not there yet. -/
theorem notMem_of_nodup {done fields : List (String × Json)} {name : String} {v : Json}
    (h : ((done ++ (name, v) :: fields).map Prod.fst).Nodup) : name ∉ done.map Prod.fst := by
  intro hmem
  rw [List.map_append, List.nodup_append] at h
  exact h.2.2 name hmem name List.mem_cons_self rfl

theorem setField_of_notMem {fields : List (String × Json)} {name : String}
    (h : name ∉ fields.map Prod.fst) (v : Json) :
    Json.setField fields name v = fields ++ [(name, v)] := by
  rw [Json.setField, if_neg]
  intro hany
  obtain ⟨f, hf, hname⟩ := List.any_eq_true.mp hany
  exact h (List.mem_map.mpr ⟨f, hf, of_decide_eq_true hname⟩)

theorem run_bind_of {α β : Type} {x : Evaluation α} {f : α → Evaluation β} {a b : Anchors} {v : α}
    (h : x.run a = .ok (v, b)) : (x >>= f).run a = (f v).run b := by
  rw [StateT.run_bind, h]
  rfl

/-- A node that spells out its value has that value, whatever anchors there are; and it leaves them
alone.  The induction is on the bound, for nodes, lists and entries together. -/
theorem evaluate_of_spelled (tokens : Tokens) (fuel : Nat) :
    (∀ n v around anchors, spelled? tokens fuel n = some v →
      (evaluate tokens fuel around n).run anchors = .ok (v, anchors)) ∧
    (∀ ns vs around anchors, spelledAll? tokens fuel ns = some vs →
      (evaluateAll tokens fuel around ns).run anchors = .ok (vs, anchors)) ∧
    ∀ es fields around anchors done, spelledEntries? tokens fuel es = some fields →
      ((done ++ fields).map Prod.fst).Nodup →
      (evaluateEntries tokens fuel around es done).run anchors = .ok (done ++ fields, anchors) := by
  induction fuel with
  | zero =>
      refine ⟨fun n v _ _ h => (by cases h), fun ns vs _ _ h => ?_, fun es fields _ _ done h _ => ?_⟩
      · cases ns with
        | nil =>
            cases h
            rfl
        | cons n rest => cases h
      · cases es with
        | nil =>
            cases h
            rw [List.append_nil]
            rfl
        | cons e rest => cases h
  | succ fuel ih =>
      obtain ⟨ihNode, ihAll, ihEntries⟩ := ih
      refine ⟨fun n v around anchors h => ?_, fun ns vs around anchors h => ?_,
        fun es fields around anchors done h hnodup => ?_⟩
      · cases n with
        | sequence t elements =>
            obtain ⟨vs, hvs, rfl⟩ := spelled?_sequence h
            rw [evaluate, run_bind_of (ihAll elements vs around anchors hvs)]
            rfl
        | mapping t entries =>
            obtain ⟨fields, hfields, hnodup, rfl⟩ := spelled?_mapping h
            rw [evaluate, run_bind_of (ihEntries entries fields around anchors [] hfields hnodup)]
            rfl
        | scalar t => cases h; rfl
        | word t => cases h; rfl
        | block m text => cases h; rfl
        | _ => cases h
      · cases ns with
        | nil =>
            cases h
            rfl
        | cons n rest =>
            obtain ⟨v, ws, hv, hws, rfl⟩ := spelledAll?_cons h
            rw [evaluateAll, run_bind_of (ihNode n v around anchors hv),
              run_bind_of (ihAll rest ws around anchors hws)]
            rfl
      · cases es with
        | nil =>
            cases h
            rw [List.append_nil]
            rfl
        | cons e rest =>
            obtain ⟨k, n⟩ := e
            obtain ⟨name, v, more, hname, hv, hmore, rfl⟩ := spelledEntries?_cons h
            have hnew := notMem_of_nodup hnodup
            have hrest := ihEntries rest more around anchors (done ++ [(name, v)]) hmore
              (by rwa [List.append_assoc])
            rw [evaluateEntries, isMerge_of_spelled hname, if_neg Bool.false_ne_true,
              run_bind_of (ihNode k _ around anchors hname)]
            show (evaluate tokens fuel around n >>= _ : Evaluation _).run anchors = _
            rw [run_bind_of (ihNode n v around anchors hv)]
            show (evaluateEntries tokens fuel around rest (Json.setField done name v)).run
              anchors = _
            rw [setField_of_notMem hnew, hrest, List.append_assoc]
            rfl

/-! ## Looking at parts -/

/-- A node spells out a value, where a document is read. -/
def Spells (s : Source) (n : Node) (v : Json) : Prop :=
  spelled? s.tokens (depthOf s.tokens) n = some v

/-- An entry spells out a field. -/
def SpellsField (s : Source) (e : Node × Node) (f : String × Json) : Prop :=
  Spells s e.1 (.string f.1) ∧ Spells s e.2 f.2

variable {s : Source} {n : Node} {v : Json}

/-- A value that is no list and no object. -/
def leafValue : Json → Bool
  | .array _ | .object _ => false
  | _ => true

/-- Whether a value is null. -/
def nullValue : Json → Bool
  | .null => true
  | _ => false

theorem leafValue_tokenValue (t : Token) : leafValue (tokenValue t) = true := by
  rw [tokenValue]
  split
  · split <;> rfl
  all_goals rfl

theorem forall₂_of_spelledAll? {ns : List Node} {vs : List Json} (hle : fuel ≤ depthOf s.tokens)
    (h : spelledAll? s.tokens fuel ns = some vs) : List.Forall₂ (Spells s) ns vs := by
  induction ns generalizing fuel vs with
  | nil =>
      obtain rfl : vs = [] := by
        cases fuel <;> exact (Option.some.inj h).symm
      exact .nil
  | cons n rest ih =>
      cases fuel with
      | zero => cases h
      | succ fuel =>
          obtain ⟨v, ws, hv, hws, rfl⟩ := spelledAll?_cons h
          exact .cons (spelled?_of_le hv (by omega)) (ih (by omega) hws)

theorem forall₂_of_spelledEntries? {es : List (Node × Node)} {fields : List (String × Json)}
    (hle : fuel ≤ depthOf s.tokens) (h : spelledEntries? s.tokens fuel es = some fields) :
    List.Forall₂ (SpellsField s) es fields ∧ es.length ≤ fuel := by
  induction es generalizing fuel fields with
  | nil =>
      obtain rfl : fields = [] := by
        cases fuel <;> exact (Option.some.inj h).symm
      exact ⟨.nil, Nat.zero_le _⟩
  | cons e rest ih =>
      cases fuel with
      | zero => cases h
      | succ fuel =>
          obtain ⟨k, n⟩ := e
          obtain ⟨name, v, more, hname, hv, hmore, rfl⟩ := spelledEntries?_cons h
          obtain ⟨hrest, hlength⟩ := ih (by omega) hmore
          exact ⟨.cons ⟨spelled?_of_le hname (by omega), spelled?_of_le hv (by omega)⟩ hrest,
            Nat.succ_le_succ hlength⟩

theorem exists_depthOf (tokens : Tokens) : ∃ fuel, depthOf tokens = fuel + 1 :=
  ⟨64 * (tokens.size + 8) - 1, by rw [depthOf]; omega⟩

/-- The kinds of nodes that spell out a value, with what is known of their parts. -/
inductive Spelling (s : Source) : Node → Json → Prop
  | scalar (t : Nat) : Spelling s (.scalar t) (tokenValue (s.tokens[t]?.getD default))
  | word (t : Nat) : Spelling s (.word t) (.string (textAt s.tokens t))
  | block (header : Nat) (text : Option Nat) :
      Spelling s (.block header text) (.string ((text.map (textAt s.tokens)).getD ""))
  | sequence {t : Nat} {ns : List Node} {vs : List Json} : List.Forall₂ (Spells s) ns vs →
      Spelling s (.sequence t ns) (.array vs)
  | mapping {t : Nat} {es : List (Node × Node)} {fields : List (String × Json)} :
      List.Forall₂ (SpellsField s) es fields → es.length < depthOf s.tokens →
      (fields.map Prod.fst).Nodup → Spelling s (.mapping t es) (.object fields)

namespace Spells

theorem spelling (h : Spells s n v) : Spelling s n v := by
  obtain ⟨fuel, hfuel⟩ := exists_depthOf s.tokens
  rw [Spells, hfuel] at h
  cases n with
  | scalar t =>
      cases h
      exact .scalar t
  | word t =>
      cases h
      exact .word t
  | block m text =>
      cases h
      exact .block m text
  | sequence t ns =>
      obtain ⟨vs, hvs, rfl⟩ := spelled?_sequence h
      exact .sequence (forall₂_of_spelledAll? (by omega) hvs)
  | mapping t es =>
      obtain ⟨fields, hfields, hnodup, rfl⟩ := spelled?_mapping h
      obtain ⟨hes, hlength⟩ := forall₂_of_spelledEntries? (by omega) hfields
      exact .mapping hes (by omega) hnodup
  | _ => cases h

theorem value (h : Spells s n v) : Reading.value n s = .ok v := by
  have hrun := (evaluate_of_spelled s.tokens (depthOf s.tokens)).1 n v [] s.anchors h
  rw [Reading.value, hrun]

/-- There is no anchor and no alias to follow. -/
theorem resolve (h : Spells s n v) (fuel : Nat) : Reading.resolve fuel n = pure n := by
  cases h.spelling <;> cases fuel <;> rfl

theorem isNull (h : Spells s n v) : Reading.isNull n s = .ok (nullValue v) := by
  rw [Reading.isNull, h.resolve]
  cases h.spelling <;> rfl

theorem plain (h : Spells s n v) : Reading.plain n s = .ok n := by
  rw [Reading.plain, h.resolve]
  cases h.spelling <;> rfl

/-- A list has the elements that are spelled out. -/
theorem elements_array {vs : List Json} (h : Spells s n (.array vs)) :
    ∃ ns, Reading.elements n s = .ok ns ∧ List.Forall₂ (Spells s) ns vs := by
  have hplain := h.plain
  rw [Reading.elements]
  simp only [Bind.bind, hplain]
  generalize hv : Json.array vs = v at h
  cases h.spelling with
  | scalar t =>
      have hleaf := leafValue_tokenValue (s.tokens[t]?.getD default)
      rw [← hv] at hleaf
      cases hleaf
  | sequence hall =>
      cases hv
      exact ⟨_, rfl, hall⟩
  | _ => cases hv

/-- What is no list has no elements. -/
theorem elements_error (h : Spells s n v) (hv : ∀ vs, v ≠ .array vs) :
    ∃ e, Reading.elements n s = .error e := by
  have hplain := h.plain
  rw [Reading.elements]
  simp only [Bind.bind, hplain]
  cases h.spelling with
  | sequence _ => exact absurd rfl (hv _)
  | _ => exact ⟨_, rfl⟩

/-- An object has the entries that are spelled out. -/
theorem entries_object {fields : List (String × Json)} (h : Spells s n (.object fields)) :
    ∃ es, Reading.entries false n s = .ok es ∧ List.Forall₂ (SpellsField s) es fields ∧
      es.length < depthOf s.tokens ∧ (fields.map Prod.fst).Nodup := by
  obtain ⟨fuel, hfuel⟩ := exists_depthOf s.tokens
  generalize hv : Json.object fields = v at h
  cases h.spelling with
  | scalar t =>
      have hleaf := leafValue_tokenValue (s.tokens[t]?.getD default)
      rw [← hv] at hleaf
      cases hleaf
  | mapping hall hlength hnodup =>
      cases hv
      refine ⟨_, ?_, hall, hlength, hnodup⟩
      rw [Reading.entries, hfuel]
      rfl
  | _ => cases hv

/-- What is no object has no entries. -/
theorem entries_error (h : Spells s n v) (hv : ∀ fields, v ≠ .object fields) :
    ∃ e, Reading.entries false n s = .error e := by
  obtain ⟨fuel, hfuel⟩ := exists_depthOf s.tokens
  rw [Reading.entries, hfuel]
  cases h.spelling with
  | mapping _ _ _ => exact absurd rfl (hv _)
  | _ => exact ⟨_, rfl⟩

end Spells

/-! ## Whole documents -/

/-- The first document of a text spells out a value, and has that value. -/
def SpellsOut (text : String) (v : Json) : Prop :=
  ∃ loaded n, load text = .ok loaded ∧ loaded.documents.head? = some (n, v) ∧
    Spells ⟨loaded.tokens, loaded.anchors⟩ n v

theorem SpellsOut.read {text : String} (h : SpellsOut text v) : Yaml.read text = .ok v := by
  obtain ⟨loaded, n, hload, hhead, -⟩ := h
  obtain ⟨rest, hdocuments⟩ := List.head?_eq_some_iff.mp hhead
  unfold Yaml.read
  rw [hload]
  simp only [hdocuments]

/-- A document that spells out its value is read from a node that does so. -/
theorem SpellsOut.readDocument {α : Type} {text : String} (h : SpellsOut text v)
    (read : Node → Reading α) : ∃ s n, Spells s n v ∧
      (Yaml.readDocument text read).toOption = (read n s).toOption := by
  obtain ⟨loaded, n, hload, hhead, hspells⟩ := h
  obtain ⟨rest, hdocuments⟩ := List.head?_eq_some_iff.mp hhead
  refine ⟨⟨loaded.tokens, loaded.anchors⟩, n, hspells, ?_⟩
  unfold Yaml.readDocument
  rw [hload]
  simp only [hdocuments]
  split
  · next a ha => rw [ha]; rfl
  · next m hm => rw [hm]; rfl

end RuleScan.Yaml
