import RuleScan.Proofs.Schema.Violations
import RuleScan.Schema.Validate

/-!
# Where problems are told, and where an error points

Of the problems of a value a validator tells by one error.  Its message is one line and its path one
place, both taken from the same tree of violations.

## What is proved

  * `check_tellsInPlace` — a check tells of problems where they are: what is wrong with a value is
    told at its place or INSIDE it, and so are the causes of a problem at the place of the problem;
  * `Validator.validate_points` — which line the message is and which place the path is, and that
    the message is about this place exactly if the least of all lines is.  There is a line about the
    place at all unless a problem is with the name of a field, so the two agree if only one place
    has problems;
  * `Validator.validate_points_elsewhere` — if two places have problems, the error may tell of the
    one and point at the other.

The invariant is carried through the keywords, one lemma `lies_…` for each: a step keeps the
problems found so far inside the value if the judge of the other schemas does.  The induction on the
fuel is then `lies_verdict`.

Names are the exception (`LiesAt.ofName`).  The name of a field is checked as a value of its own, so
what is wrong with it is told at the root, however deep the object is; the longest place of the tree
can then be one that no line is about.
-/

namespace RuleScan.Schema

/-! ## Violations that lie at a place -/

/-- A violation lies at a place if it is told there or at a place inside, and its causes lie where
it is told itself.  What is wrong with the name of a field is told at the root of the value: a name
has no place of its own. -/
inductive Violation.LiesAt : List String → Violation → Prop
  | inside {l place : List String} {m : String} {causes : List Violation} (hplace : l <+: place)
      (hcauses : ∀ v ∈ causes, LiesAt place v) : LiesAt l (.node place m causes)
  | ofName {l : List String} {name : String} {causes : List Violation}
      (hcauses : ∀ v ∈ causes, LiesAt [] v) :
      LiesAt l (.node [] (Fault.fieldName name).message causes)

theorem Violation.LiesAt.mono {l l' : List String} {v : Violation} (hl : l <+: l')
    (h : v.LiesAt l') : v.LiesAt l := by
  cases h with
  | inside hplace hcauses => exact .inside (hl.trans hplace) hcauses
  | ofName hcauses => exact .ofName hcauses

theorem lies_gather {l : List String} {vs : List Violation} (h : ∀ v ∈ vs, v.LiesAt l) :
    (gather l vs).LiesAt l := by
  rw [gather.eq_def]
  split
  · next one => exact h one List.mem_cons_self
  · exact .inside List.prefix_rfl h

/-- The problems found so far lie at a place. -/
def Progress.LiesAt (l : List String) (p : Progress) : Prop := ∀ v ∈ p.found, v.LiesAt l

/-- The problems that a judge tells of a value lie where the value is. -/
def Judge.TellsInPlace (judge : Judge) : Prop :=
  ∀ c needed vs, judge c needed = .error vs → ∀ v ∈ vs, v.LiesAt c.location

namespace Context

variable {c : Context} {judge : Judge} {p : Progress} {l : List String}

theorem lies_add (hp : p.LiesAt l) {v : Violation} (hv : v.LiesAt l) : (p.add v).LiesAt l :=
  List.forall_mem_append.mpr ⟨hp, List.forall_mem_singleton.mpr hv⟩

theorem lies_faultOf (f : Fault) {causes : List Violation}
    (h : ∀ v ∈ causes, v.LiesAt c.location) : (c.faultOf f causes).LiesAt c.location :=
  .inside List.prefix_rfl h

theorem lies_fault (c : Context) (f : Fault) : (c.fault f).LiesAt c.location :=
  lies_faultOf f (by simp)

/-! ## Other schemas -/

/-- The same value against another schema: there are no new problems, or they lie where the value
is. -/
theorem also_cases (hjudge : judge.TellsInPlace) (hp : p.LiesAt c.location) (n : Node)
    (keyword : String) :
    (∃ q, c.also judge p n keyword = .ok q ∧ q.LiesAt c.location) ∨
      ∃ vs, c.also judge p n keyword = .error vs ∧ ∀ v ∈ vs, v.LiesAt c.location := by
  rw [also]
  cases hverdict : judge (c.beside n keyword) (!p.unseen.isEmpty) with
  | ok u => exact .inl ⟨_, rfl, hp⟩
  | error vs => exact .inr ⟨vs, rfl, hjudge (c.beside n keyword) _ vs hverdict⟩

theorem lies_addAlso (hjudge : judge.TellsInPlace) (hp : p.LiesAt c.location) (n : Node) :
    (c.addAlso judge p n).LiesAt c.location := by
  rw [addAlso]
  obtain ⟨q, hq, hfound⟩ | ⟨vs, hvs, hfound⟩ := also_cases hjudge hp n ""
  · rw [hq]
    exact hfound
  · rw [hvs]
    exact lies_add hp (lies_gather hfound)

theorem lies_addReferred (hjudge : judge.TellsInPlace) (hp : p.LiesAt c.location) (n : Node)
    (keyword : String) : (c.addReferred judge p n keyword).LiesAt c.location := by
  rw [addReferred]
  obtain ⟨q, hq, hfound⟩ | ⟨vs, hvs, hfound⟩ := also_cases hjudge hp n keyword
  · rw [hq]
    exact hfound
  · rw [hvs]
    exact lies_add hp (lies_faultOf _ hfound)

/-- What is wrong with a part of the value lies where the value is. -/
theorem lies_within (hjudge : judge.TellsInPlace) {n : Node} {token : String} {v : Json}
    {needed : Bool} {vs : List Violation} (h : judge (c.within n token v) needed = .error vs) :
    (gather (c.location ++ [token]) vs).LiesAt c.location :=
  (lies_gather (hjudge _ _ vs h)).mono (List.prefix_append _ _)

theorem lies_addWithin (hjudge : judge.TellsInPlace) (hp : p.LiesAt c.location) (n : Node)
    (token : String) (v : Json) : (c.addWithin judge p n token v).LiesAt c.location := by
  rw [addWithin]
  cases hverdict : judge (c.within n token v) (!p.unseen.isEmpty) with
  | ok u => exact hp
  | error vs => exact lies_add hp (lies_within hjudge hverdict)

/-- Steps that keep the problems where they belong can be taken one after the other. -/
theorem lies_foldl {α : Type} {step : Progress → α → Progress} (xs : List α)
    (hstep : ∀ p, p.LiesAt l → ∀ x, (step p x).LiesAt l) (hp : p.LiesAt l) :
    (xs.foldl step p).LiesAt l :=
  List.foldlRecOn xs step hp fun q hq x _ => hstep q hq x

/-! ## Groups of keywords -/

theorem lies_addIf (hp : p.LiesAt c.location) (b : Bool) (f : Fault) :
    Progress.LiesAt c.location (if b then p.add (c.fault f) else p) := by
  split
  · exact lies_add hp (lies_fault c f)
  · exact hp

/-- One limit on a size. -/
theorem lies_limit (hp : p.LiesAt c.location) (keyword : String) (n : Nat) (fails : Int → Bool) :
    Progress.LiesAt c.location (match c.whole? keyword with
      | some k => if fails k then p.add (c.fault (.size keyword n k)) else p
      | none => p) := by
  split
  · exact lies_addIf hp _ _
  · exact hp

theorem lies_sizes (hp : p.LiesAt c.location) (word : String) (n : Nat) :
    (c.sizes word n p).LiesAt c.location := by
  have hmin := lies_limit hp ("min" ++ word) n fun k => (n : Int) < k
  exact lies_limit hmin ("max" ++ word) n fun k => k < (n : Int)

theorem lies_required (hp : p.LiesAt c.location) (fields : List (String × Json)) :
    (c.required fields p).LiesAt c.location := by
  rw [required]
  split
  · exact hp
  · exact lies_add hp (lies_fault c _)

theorem lies_dependent (hjudge : judge.TellsInPlace) (hp : p.LiesAt c.location)
    (keyword : String) (fields : List (String × Json)) :
    (c.dependent judge keyword fields p).LiesAt c.location := by
  refine lies_foldl _ (fun p hp entry => ?_) hp
  obtain ⟨name, dependency⟩ := entry
  dsimp only
  split
  · exact hp
  · split
    · split
      · exact hp
      · exact lies_add hp (lies_fault c _)
    · split
      · exact hp
      · split
        · exact lies_addAlso hjudge hp _
        · exact hp

theorem lies_field (hjudge : judge.TellsInPlace) (named patterned : List (String × Node))
    {acc : Progress × List String} (hp : acc.1.LiesAt c.location) (f : String × Json) :
    (c.field judge named patterned acc f).1.LiesAt c.location := by
  have hfitting : ∀ fitting : List (String × Node), Progress.LiesAt c.location
      (fitting.foldl (fun p e => c.addWithin judge p e.2 f.1 f.2) acc.1) := fun fitting =>
    lies_foldl fitting (fun p hp e => lies_addWithin hjudge hp e.2 f.1 f.2) hp
  rw [field]
  dsimp only
  split
  · exact hfitting _
  · split
    · exact hfitting _
    · exact hfitting _
    · split
      · exact lies_addWithin hjudge (hfitting _) _ _ _
      · exact hfitting _

/-- What is wrong with names is told at the root, wherever the object is. -/
theorem lies_fieldNames (hjudge : judge.TellsInPlace) (hp : p.LiesAt c.location)
    (fields : List (String × Json)) : (c.fieldNames judge fields p).LiesAt c.location := by
  rw [fieldNames]
  split
  · exact hp
  · refine lies_foldl _ (fun p hp f => ?_) hp
    obtain ⟨name, v⟩ := f
    dsimp only
    split
    · exact hp
    · next hverdict => exact lies_add hp (.ofName (hjudge _ _ _ hverdict))

theorem lies_object (hjudge : judge.TellsInPlace) (hp : p.LiesAt c.location)
    (fields : List (String × Json)) : (c.object judge fields p).LiesAt c.location := by
  have hstart := lies_dependent hjudge (lies_required (lies_sizes hp "Properties" fields.length)
    fields) "dependencies" fields
  have hfields : ∀ named patterned, Progress.LiesAt c.location (fields.foldl
      (c.field judge named patterned) (c.dependent judge "dependencies" fields
        (c.required fields (c.sizes "Properties" fields.length p)), [])).1 := fun named patterned =>
    List.foldlRecOn (motive := fun (acc : Progress × List String) => acc.1.LiesAt c.location)
      fields _ hstart
      fun acc hacc f _ => lies_field hjudge named patterned hacc f
  rw [object]
  refine lies_dependent hjudge (lies_dependent hjudge (lies_fieldNames hjudge ?_ fields) _ _) _ _
  split
  · exact hfields _ _
  · exact lies_add (hfields _ _) (lies_fault c _)

theorem lies_each (hjudge : judge.TellsInPlace) (hp : p.LiesAt c.location) (n : Node)
    (elements : List Json) : (c.each judge n elements p).LiesAt c.location :=
  lies_foldl _ (fun _ hp _ => lies_addWithin hjudge hp n _ _) hp

theorem lies_front (hjudge : judge.TellsInPlace) (hp : p.LiesAt c.location) (schemas : List Node)
    (elements : List Json) : (c.front judge schemas elements p).LiesAt c.location :=
  lies_foldl _ (fun _ hp _ => lies_addWithin hjudge hp _ _ _) hp

theorem lies_olderElements (hjudge : judge.TellsInPlace) (hp : p.LiesAt c.location)
    (elements : List Json) : (c.olderElements judge elements p).LiesAt c.location := by
  rw [olderElements]
  cases c.node.get? "items" with
  | none => exact hp
  | some items =>
      cases items with
      | array schemas =>
          have hfront := lies_front hjudge hp (c.node.children c.library "items") elements
          simp only [Bool.not_true, Bool.false_eq_true, if_false]
          split
          · exact hfront
          · exact hfront
          · split
            · exact hfront
            · exact lies_add hfront (lies_fault c _)
          · split
            · exact lies_each hjudge hfront _ _
            · exact hfront
      | _ =>
          simp only [Bool.not_false, if_true]
          split
          · exact lies_each hjudge hp _ _
          · exact hp

theorem lies_newerElements (hjudge : judge.TellsInPlace) (hp : p.LiesAt c.location)
    (elements : List Json) : (c.newerElements judge elements p).LiesAt c.location := by
  have hfront := lies_front hjudge hp (c.node.children c.library "prefixItems") elements
  rw [newerElements]
  split
  · exact lies_each hjudge hfront _ _
  · exact hfront

/-- Where too few elements are of a kind, the causes are what is wrong with the others. -/
theorem lies_least (hp : p.LiesAt c.location) {causes : List Violation}
    (hcauses : ∀ v ∈ causes, v.LiesAt c.location) (matched : List Nat) :
    Progress.LiesAt c.location (match c.whole? "minContains" with
      | some k =>
        if (matched.length : Int) < k then p.add (c.faultOf (.fewContained k matched) causes)
        else p
      | none => if matched.isEmpty then p.add (c.faultOf .noneContained causes) else p) := by
  split
  · split
    · exact lies_add hp (lies_faultOf _ hcauses)
    · exact hp
  · split
    · exact lies_add hp (lies_faultOf _ hcauses)
    · exact hp

/-- What is wrong with the elements that are not of the kind. -/
theorem lies_others (hjudge : judge.TellsInPlace) (n : Node) (elements : List Json)
    (needed : Bool) :
    ∀ v ∈ (elements.zipIdx.map fun (v, i) =>
        (i, judge (c.within n (toString i) v) needed)).filterMap (fun (i, r) =>
          match r with
          | .ok _ => none
          | .error vs => some (gather (c.location ++ [toString i]) vs)),
      v.LiesAt c.location := by
  intro v hv
  obtain ⟨e, he, hsome⟩ := List.mem_filterMap.mp hv
  obtain ⟨⟨w, i⟩, -, rfl⟩ := List.mem_map.mp he
  dsimp only at hsome
  split at hsome
  · cases hsome
  · next vs hverdict =>
      cases hsome
      exact lies_within hjudge hverdict

theorem lies_containing (hjudge : judge.TellsInPlace) (hp : p.LiesAt c.location)
    (elements : List Json) : (c.containing judge elements p).LiesAt c.location := by
  have hseen : ∀ keep : Nat → Bool, Progress.LiesAt c.location
      (if c.node.draft.age < 2020 then p
        else { p with unseen :=
          { p.unseen with elements := p.unseen.elements.filter keep } }) := by
    intro keep
    split
    · exact hp
    · exact hp
  rw [containing]
  split
  · exact hp
  · next n _ =>
      have hothers := lies_others (c := c) hjudge n elements (!p.unseen.isEmpty)
      dsimp only
      split
      · split
        · exact lies_add (lies_least (hseen _) hothers _) (lies_fault c _)
        · exact lies_least (hseen _) hothers _
      · exact lies_least (hseen _) hothers _

/-- Where no two elements may be the same. -/
theorem lies_unique (hp : p.LiesAt c.location) (elements : List Json) :
    Progress.LiesAt c.location (if !c.node.isOn "uniqueItems" then p
      else match equalPair? elements with
        | .error v => p.add (c.fault (.unknownKind (strangeName v)))
        | .ok (some (i, j)) => p.add (c.fault (.equalElements i j))
        | .ok none => p) := by
  split
  · exact hp
  · split
    · exact lies_add hp (lies_fault c _)
    · exact lies_add hp (lies_fault c _)
    · exact hp

theorem lies_list (hjudge : judge.TellsInPlace) (hp : p.LiesAt c.location)
    (elements : List Json) : (c.list judge elements p).LiesAt c.location := by
  have hunique := lies_unique (lies_sizes hp "Items" elements.length) elements
  rw [list]
  refine lies_containing hjudge ?_ elements
  split
  · exact lies_olderElements hjudge hunique elements
  · exact lies_newerElements hjudge hunique elements

theorem lies_text (hp : p.LiesAt c.location) (runes : List Text.Rune) :
    (c.text runes p).LiesAt c.location := by
  have hsizes := lies_sizes hp "Length" runes.length
  rw [text]
  split
  · split
    · exact hsizes
    · exact lies_add hsizes (lies_fault c _)
  · exact hsizes

/-- One bound of a number. -/
theorem lies_bound (hp : p.LiesAt c.location) (keyword : String) (n : Exact)
    (limit : Option Exact) (fails : Exact → Bool) :
    Progress.LiesAt c.location (match limit with
      | some k => if fails k then p.add (c.fault (.number keyword n k)) else p
      | none => p) := by
  split
  · exact lies_addIf hp _ _
  · exact hp

theorem lies_number (hp : p.LiesAt c.location) (n : Exact) :
    (c.number n p).LiesAt c.location :=
  lies_bound (lies_bound (lies_bound (lies_bound (lies_bound hp _ n _ _) _ n _ _) _ n _ _)
    _ n _ _) _ n _ _

theorem lies_negated (hjudge : judge.TellsInPlace) (hp : p.LiesAt c.location) :
    (c.negated judge p).LiesAt c.location := by
  rw [negated]
  split
  · exact hp
  · next n _ =>
      obtain ⟨q, hq, hfound⟩ | ⟨vs, hvs, -⟩ := also_cases hjudge hp n ""
      · rw [hq]
        exact lies_add hfound (lies_fault c _)
      · rw [hvs]
        exact hp

/-- What has been gathered from several schemas for the same value, the problems found so far and
the causes of one more, lies where the value is. -/
structure Gathered (c : Context) (p : Progress) (causes : List Violation) : Prop where
  found : p.LiesAt c.location
  causes : ∀ v ∈ causes, v.LiesAt c.location

theorem gathered_nil (hp : p.LiesAt c.location) : c.Gathered p [] := ⟨hp, by simp⟩

/-- One more schema leaves the causes as they are, or adds one. -/
theorem Gathered.also_cases {causes : List Violation} (hjudge : judge.TellsInPlace)
    (h : c.Gathered p causes) (n : Node) :
    (∃ q, c.also judge p n "" = .ok q ∧ c.Gathered q causes) ∨
      ∃ vs, c.also judge p n "" = .error vs ∧
        c.Gathered p (causes ++ [gather c.location vs]) := by
  obtain ⟨q, hq, hfound⟩ | ⟨vs, hvs, hfound⟩ := Context.also_cases hjudge h.found n ""
  · exact .inl ⟨q, hq, hfound, h.causes⟩
  · exact .inr ⟨vs, hvs, h.found, List.forall_mem_append.mpr
      ⟨h.causes, List.forall_mem_singleton.mpr (lies_gather hfound)⟩⟩

theorem Gathered.add {causes : List Violation} (h : c.Gathered p causes) (f : Fault) :
    (p.add (c.faultOf f causes)).LiesAt c.location :=
  lies_add h.found (lies_faultOf f h.causes)

theorem gathered_allOf (hjudge : judge.TellsInPlace) (hp : p.LiesAt c.location)
    (schemas : List Node) :
    let acc := schemas.foldl (fun (p, causes) n =>
      match c.also judge p n "" with
      | .ok p => (p, causes)
      | .error vs => (p, causes ++ [gather c.location vs])) (p, [])
    c.Gathered acc.1 acc.2 := by
  refine List.foldlRecOn (motive := fun (acc : Progress × List Violation) =>
    c.Gathered acc.1 acc.2) schemas _ (gathered_nil hp) fun acc h n _ => ?_
  obtain ⟨p, causes⟩ := acc
  dsimp only
  obtain ⟨q, hq, h⟩ | ⟨vs, hvs, h⟩ := h.also_cases hjudge n
  · rw [hq]
    exact h
  · rw [hvs]
    exact h

theorem lies_allOf (hjudge : judge.TellsInPlace) (hp : p.LiesAt c.location) :
    (c.allOf judge p).LiesAt c.location := by
  have hgathered := gathered_allOf hjudge hp (c.node.children c.library "allOf")
  rw [allOf]
  dsimp only
  split
  · exact hgathered.found
  · exact hgathered.add _

theorem gathered_anyOf (hjudge : judge.TellsInPlace) (hp : p.LiesAt c.location)
    (schemas : List Node) :
    let acc := schemas.foldl (fun (p, matched, causes) n =>
      if matched && p.unseen.isEmpty then (p, matched, causes)
      else match c.also judge p n "" with
        | .ok p => (p, true, causes)
        | .error vs => (p, matched, causes ++ [gather c.location vs])) (p, false, [])
    c.Gathered acc.1 acc.2.2 := by
  refine List.foldlRecOn (motive := fun (acc : Progress × Bool × List Violation) =>
    c.Gathered acc.1 acc.2.2) schemas _ (gathered_nil hp) fun acc h n _ => ?_
  obtain ⟨p, matched, causes⟩ := acc
  dsimp only
  split
  · exact h
  · obtain ⟨q, hq, h⟩ | ⟨vs, hvs, h⟩ := h.also_cases hjudge n
    · rw [hq]
      exact h
    · rw [hvs]
      exact h

theorem lies_anyOf (hjudge : judge.TellsInPlace) (hp : p.LiesAt c.location) :
    (c.anyOf judge p).LiesAt c.location := by
  have hgathered := gathered_anyOf hjudge hp (c.node.children c.library "anyOf")
  rw [anyOf]
  dsimp only
  split
  · exact hgathered.found
  · exact hgathered.add _

theorem gathered_oneOf (hjudge : judge.TellsInPlace) (hp : p.LiesAt c.location)
    (schemas : List (Node × Nat)) :
    let acc := schemas.foldl (fun (p, matched, causes) (n, i) =>
      if matched.length ≥ 2 then (p, matched, causes)
      else match c.also judge p n "" with
        | .ok p => (p, matched ++ [i], causes)
        | .error vs => (p, matched, causes ++ [gather c.location vs])) (p, ([] : List Nat), [])
    c.Gathered acc.1 acc.2.2 := by
  refine List.foldlRecOn (motive := fun (acc : Progress × List Nat × List Violation) =>
    c.Gathered acc.1 acc.2.2) schemas _ (gathered_nil hp) fun acc h entry _ => ?_
  obtain ⟨p, matched, causes⟩ := acc
  obtain ⟨n, i⟩ := entry
  dsimp only
  split
  · exact h
  · obtain ⟨q, hq, h⟩ | ⟨vs, hvs, h⟩ := h.also_cases hjudge n
    · rw [hq]
      exact h
    · rw [hvs]
      exact h

theorem lies_oneOf (hjudge : judge.TellsInPlace) (hp : p.LiesAt c.location) :
    (c.oneOf judge p).LiesAt c.location := by
  have hgathered := gathered_oneOf hjudge hp (c.node.children c.library "oneOf").zipIdx
  rw [oneOf]
  dsimp only
  split
  · exact hgathered.found
  · exact hgathered.found
  · exact hgathered.add _
  · exact lies_add hgathered.found (lies_fault c _)

theorem lies_conditional (hjudge : judge.TellsInPlace) (hp : p.LiesAt c.location) :
    (c.conditional judge p).LiesAt c.location := by
  rw [conditional]
  split
  · exact hp
  · next n _ =>
      obtain ⟨q, hq, hfound⟩ | ⟨vs, hvs, -⟩ := also_cases hjudge hp n ""
      · rw [hq]
        dsimp only
        split
        · exact lies_addAlso hjudge hfound _
        · exact hfound
      · rw [hvs]
        dsimp only
        split
        · exact lies_addAlso hjudge hp _
        · exact hp

/-- The fields that no other keyword has looked at. -/
theorem lies_leftFields (hjudge : judge.TellsInPlace) (hp : p.LiesAt c.location) :
    Progress.LiesAt c.location
      (match c.value, c.node.child? c.library "unevaluatedProperties" with
        | .object fields, some n =>
          let q := (fields.filter fun f => p.unseen.fields.contains f.1).foldl
            (fun p (name, v) => c.addWithin judge p n name v) p
          { q with unseen := { q.unseen with fields := [] } }
        | _, _ => p) := by
  split
  · exact lies_foldl _ (fun _ hp _ => lies_addWithin hjudge hp _ _ _) hp
  · exact hp

theorem lies_leftOver (hjudge : judge.TellsInPlace) (hp : p.LiesAt c.location) :
    (c.leftOver judge p).LiesAt c.location := by
  have hfields := lies_leftFields hjudge hp
  rw [leftOver]
  dsimp only
  split
  · exact lies_foldl _ (fun _ hp _ => lies_addWithin hjudge hp _ _ _) hfields
  · exact hfields

theorem lies_byType (hjudge : judge.TellsInPlace) (hp : p.LiesAt c.location) :
    (c.byType judge p).LiesAt c.location := by
  rw [byType]
  split
  · exact lies_object hjudge hp _
  · exact lies_list hjudge hp _
  · split
    · exact lies_text hp _
    · exact lies_number hp _
    · exact hp

/-- A reference, if there is one. -/
theorem lies_reference (hjudge : judge.TellsInPlace) (hp : p.LiesAt c.location)
    (target : Option Node) (keyword : String) :
    Progress.LiesAt c.location (match target with
      | some n => c.addReferred judge p n keyword
      | none => p) := by
  split
  · exact lies_addReferred hjudge hp _ _
  · exact hp

theorem lies_laterReferences (hjudge : judge.TellsInPlace) (hp : p.LiesAt c.location) :
    (c.laterReferences judge p).LiesAt c.location := by
  have hrecursive := lies_reference hjudge hp c.recursive? "$recursiveRef"
  exact lies_reference hjudge hrecursive c.dynamic? "$dynamicRef"

theorem lies_keywordsOf (hjudge : judge.TellsInPlace) (hp : p.LiesAt c.location) :
    (c.keywordsOf judge p).LiesAt c.location :=
  lies_leftOver hjudge (lies_conditional hjudge (lies_oneOf hjudge (lies_anyOf hjudge
    (lies_allOf hjudge (lies_negated hjudge (lies_laterReferences hjudge
      (lies_byType hjudge hp)))))))

theorem lies_close (hp : p.LiesAt l) {vs : List Violation}
    (h : (if p.found.isEmpty then .ok p.unseen else .error p.found : Verdict) = .error vs) :
    ∀ v ∈ vs, v.LiesAt l := by
  split at h
  · cases h
  · cases h
    exact hp

/-- What is wrong with a value lies where the value is, if this holds of what other schemas say. -/
theorem lies_verdict (hjudge : judge.TellsInPlace) {needed : Bool} {vs : List Violation}
    (h : c.verdict judge needed = .error vs) : ∀ v ∈ vs, v.LiesAt c.location := by
  have hfault : ∀ f : Fault, ∀ v ∈ [c.fault f], v.LiesAt c.location := fun f =>
    List.forall_mem_singleton.mpr (lies_fault c f)
  have hstart : Progress.LiesAt c.location { unseen := c.unseen needed } := by
    intro v hv
    cases hv
  have hreferred := lies_reference hjudge hstart (c.node.target? c.library "$ref") "$ref"
  rw [verdict] at h
  split at h
  · cases h
  · cases h
    exact hfault _
  · split at h
    · cases h
      exact hfault _
    · split at h
      · cases h
        exact hfault _
      · refine lies_close ?_ h
        split
        · exact hreferred
        · exact lies_keywordsOf hjudge hreferred

end Context

/-- **A check tells of problems where they are.** -/
theorem check_tellsInPlace (fuel : Nat) : Judge.TellsInPlace (check fuel) := by
  induction fuel with
  | zero =>
      intro c needed vs h
      cases h
  | succ fuel ih =>
      intro c needed vs h
      exact Context.lies_verdict ih h

/-! ## The problems of a value -/

namespace Violation

variable {t v w : Violation} {l : List String}

/-- Whether a violation is about the name of a field. -/
def IsOfName (v : Violation) : Prop :=
  ∃ name causes, v = .node [] (Fault.fieldName name).message causes

theorem IsOfName.prefix_told (h : w.IsOfName) :
    "$: invalid propertyName ".toList <+: w.told.toList := by
  obtain ⟨name, causes, rfl⟩ := h
  have hroot : Yaml.locationText [] ++ ": " ++ "invalid propertyName " =
      "$: invalid propertyName " := by decide
  have htold : (Violation.node [] (Fault.fieldName name).message causes).told =
      "$: invalid propertyName " ++ quote name := by
    rw [← hroot, String.append_assoc]
    rfl
  rw [htold, String.toList_append]
  exact List.prefix_append _ _

theorem LiesAt.of_part (h : v.LiesAt l) (hw : w ∈ v.parts) : w.LiesAt w.location := by
  induction h with
  | inside hplace hcauses ih =>
      rcases mem_parts.mp hw with rfl | ⟨u, hu, hw⟩
      · exact .inside List.prefix_rfl hcauses
      · exact ih u hu hw
  | ofName hcauses ih =>
      rcases mem_parts.mp hw with rfl | ⟨u, hu, hw⟩
      · exact .ofName hcauses
      · exact ih u hu hw

/-- Where nothing is told further inside, everything is told at the place itself. -/
theorem LiesAt.location_eq (h : v.LiesAt l) (hnames : ∀ w ∈ v.parts, ¬w.IsOfName)
    (hlength : ∀ w ∈ v.parts, w.location.length ≤ l.length) : ∀ w ∈ v.parts, w.location = l := by
  induction h with
  | @inside l place m causes hplace hcauses ih =>
      have hself : place = l := (hplace.eq_of_length_le (hlength _ (self_mem_parts _))).symm
      subst hself
      intro w hw
      rcases mem_parts.mp hw with rfl | ⟨u, hu, hw⟩
      · rfl
      · have hbelow : ∀ w ∈ u.parts, w ∈ (node place m causes).parts :=
          fun w hw => mem_parts.mpr (.inr ⟨u, hu, hw⟩)
        exact ih u hu (fun w hw => hnames w (hbelow w hw)) (fun w hw => hlength w (hbelow w hw))
          w hw
  | ofName hcauses ih => exact absurd ⟨_, _, rfl⟩ (hnames _ (self_mem_parts _))

/-- If nothing is about the name of a field, there is a line about the place that is pointed at. -/
theorem LiesAt.exists_end_deepest (h : t.LiesAt l) (hnames : ∀ w ∈ t.parts, ¬w.IsOfName) :
    ∃ w ∈ t.ends, w.location = t.deepest := by
  obtain ⟨v, hv, hplace⟩ := exists_part_deepest t
  obtain ⟨w, hw⟩ := exists_mem_ends v
  obtain ⟨hpart, hend⟩ := mem_ends.mp hw
  have hbelow : ∀ u ∈ v.parts, u ∈ t.parts := fun u hu => mem_parts_trans hv hu
  refine ⟨w, mem_ends.mpr ⟨hbelow w hpart, hend⟩, ?_⟩
  rw [← hplace]
  refine (h.of_part hv).location_eq (fun u hu => hnames u (hbelow u hu)) (fun u hu => ?_) w hpart
  rw [hplace]
  exact length_location_le (hbelow u hu)

/-- The error that tells of a tree of violations. -/
def report (t : Violation) : Yaml.Error :=
  { cause := some (t.listing.head?.getD "")
    path := some (Yaml.Path.ofLocation t.deepest)
    details := t.listing }

/-- Whether the message of an error is about the place that the error points at. -/
def MessageAtPath (t : Violation) (e : Yaml.Error) : Prop :=
  ∃ w ∈ t.ends, e.path = some (Yaml.Path.ofLocation w.location) ∧ e.cause = some w.told

/-- The message is the least line of an end. -/
theorem exists_cause_report (t : Violation) :
    ∃ w ∈ t.ends, t.report.cause = some w.told ∧ ∀ u ∈ t.ends, w.told ≤ u.told := by
  obtain ⟨w, hw, hhead, hleast⟩ := t.head?_listing
  refine ⟨w, hw, ?_, hleast⟩
  rw [report, hhead, Option.getD_some]

/-- The two choices agree exactly if the least line belongs to the place that is pointed at. -/
theorem messageAtPath_report (t : Violation) :
    t.MessageAtPath t.report ↔ ∃ w ∈ t.ends,
      Yaml.Path.ofLocation w.location = Yaml.Path.ofLocation t.deepest ∧
        ∀ u ∈ t.ends, w.told ≤ u.told := by
  obtain ⟨first, hfirst, hcause, hleast⟩ := t.exists_cause_report
  constructor
  · rintro ⟨w, hw, hpath, htold⟩
    have heq : first.told = w.told := Option.some_inj.mp (hcause.symm.trans htold)
    exact ⟨w, hw, (Option.some_inj.mp hpath).symm, fun u hu => heq ▸ hleast u hu⟩
  · rintro ⟨w, hw, hpath, hw'⟩
    have heq : first.told = w.told := le_antisymm (hleast w hw) (hw' first hfirst)
    exact ⟨w, hw, congrArg some hpath.symm, hcause.trans (congrArg some heq)⟩

/-- So they agree where all that is told is told of one place. -/
theorem LiesAt.messageAtPath_report (h : t.LiesAt l) (hnames : ∀ w ∈ t.parts, ¬w.IsOfName)
    (hone : ∀ u ∈ t.ends, ∀ w ∈ t.ends, u.location = w.location) : t.MessageAtPath t.report := by
  obtain ⟨w, hw, hplace⟩ := h.exists_end_deepest hnames
  obtain ⟨first, hfirst, -, hleast⟩ := t.exists_cause_report
  refine t.messageAtPath_report.mpr ⟨first, hfirst, ?_, hleast⟩
  rw [hone first hfirst w hw, hplace]

end Violation

/-- The problems of a value lie in it. -/
theorem Library.lies_problems (lib : Library) (n : Node) (v : Json) :
    ∀ w ∈ lib.problems n v, w.LiesAt [] := by
  rw [problems]
  split
  · simp
  · next vs hcheck => exact check_tellsInPlace _ _ _ vs hcheck

namespace Validator

variable {val : Validator} {v : Json} {e : Yaml.Error} {t : Violation}

theorem lies_violation? (h : val.violation? v = some t) : t.LiesAt [] := by
  rw [violation?] at h
  split at h
  · cases h
  · cases h
    exact .inside List.prefix_rfl (val.library.lies_problems val.node v)

theorem validate_eq_error_iff :
    val.validate v = .error e ↔ ∃ t, val.violation? v = some t ∧ e = t.report := by
  rw [validate]
  cases val.violation? v with
  | none =>
      constructor
      · rintro ⟨⟩
      · rintro ⟨_, ⟨⟩, -⟩
  | some t =>
      constructor
      · rintro ⟨⟩
        exact ⟨t, rfl, rfl⟩
      · rintro ⟨_, ⟨⟩, rfl⟩
        rfl

/-- **What an error says and where it points.**  The path is the first of the longest places in the
tree and the message the first line of the details, so that the message is about the path exactly if
the least line is.  Unless a problem is with the name of a field there is a line about the path, and
the two agree where only one place has problems. -/
theorem validate_points (h : val.validate v = .error e) :
    ∃ t, val.violation? v = some t ∧
      (t.parts.map Violation.location).argmax List.length = some t.deepest ∧
      e.path = some (Yaml.Path.ofLocation t.deepest) ∧
      e.details.Pairwise (· < ·) ∧
      (∀ s, s ∈ e.details ↔ ∃ w ∈ t.ends, w.told = s) ∧
      (∃ w ∈ t.ends, e.cause = some w.told ∧ ∀ u ∈ t.ends, w.told ≤ u.told) ∧
      (t.MessageAtPath e ↔ ∃ w ∈ t.ends,
        Yaml.Path.ofLocation w.location = Yaml.Path.ofLocation t.deepest ∧
          ∀ u ∈ t.ends, w.told ≤ u.told) ∧
      ((∀ w ∈ t.parts, ¬w.IsOfName) →
        (∃ w ∈ t.ends, w.location = t.deepest) ∧
          ((∀ u ∈ t.ends, ∀ w ∈ t.ends, u.location = w.location) → t.MessageAtPath e)) := by
  obtain ⟨t, ht, rfl⟩ := validate_eq_error_iff.mp h
  have hlies := lies_violation? ht
  exact ⟨t, ht, t.argmax_parts, rfl, t.pairwise_listing, fun s => Violation.mem_listing,
    t.exists_cause_report, t.messageAtPath_report, fun hnames =>
      ⟨hlies.exists_end_deepest hnames, hlies.messageAtPath_report hnames⟩⟩

/-- The validator of objects with a text `a` and an object `b`, in which there is a text `c`. -/
def twoTexts : Validator :=
  let text : Json := .object [("type", .string "string")]
  .of (.object [("properties", .object
    [("a", text), ("b", .object [("properties", .object [("c", text)])])])]) ""

theorem validate_points_sample :
    ∃ t e, twoTexts.violation? (.object [("b", .object [("c", .int 1)])]) = some t ∧
      twoTexts.validate (.object [("b", .object [("c", .int 1)])]) = .error e ∧
      e.path = some (Yaml.Path.ofLocation ["b", "c"]) ∧
      e.cause = some "$.b.c: got number, want string" ∧ t.MessageAtPath e := by
  have hevaluated : (twoTexts.violation? (.object [("b", .object [("c", .int 1)])])).map
      (fun t => (t.parts.map Violation.told, t.ends.map fun w => (w.location, w.told))) =
      some (["$: ", "$.b.c: got number, want string"],
        [(["b", "c"], "$.b.c: got number, want string")]) := by
    decide +kernel
  obtain ⟨t, ht, hfacts⟩ := Option.map_eq_some_iff.mp hevaluated
  obtain ⟨hparts, hends⟩ := Prod.mk_inj.mp hfacts
  have hend : ∀ w ∈ t.ends, w.location = ["b", "c"] ∧
      w.told = "$.b.c: got number, want string" := by
    intro w hw
    have hmem := List.mem_map_of_mem (f := fun w : Violation => (w.location, w.told)) hw
    rw [hends] at hmem
    exact Prod.mk_inj.mp (List.mem_singleton.mp hmem)
  have hnames : ∀ w ∈ t.parts, ¬w.IsOfName := by
    intro w hw hname
    have hmem := List.mem_map_of_mem (f := Violation.told) hw
    have hprefix := hname.prefix_told
    rw [hparts] at hmem
    rcases List.mem_pair.mp hmem with htold | htold
    all_goals
      rw [htold] at hprefix
      exact absurd hprefix (by decide)
  have he : twoTexts.validate _ = .error t.report := validate_eq_error_iff.mpr ⟨t, ht, rfl⟩
  obtain ⟨t', ht', -, hpath, -, -, ⟨w, hw, hcause, -⟩, -, hpoints⟩ := validate_points he
  obtain rfl : t = t' := Option.some_inj.mp (ht.symm.trans ht')
  obtain ⟨⟨u, hu, hplace⟩, hagree⟩ := hpoints hnames
  refine ⟨t, t.report, ht, he, ?_, ?_, hagree fun u hu w hw => ?_⟩
  · rw [hpath, ← hplace, (hend u hu).1]
  · rw [hcause, (hend w hw).2]
  · rw [(hend u hu).1, (hend w hw).1]

/-- Two violations: the error tells of `a` and points at `c`. -/
theorem validate_points_elsewhere :
    ∃ t e, twoTexts.violation? (.object [("a", .int 1), ("b", .object [("c", .int 1)])]) = some t ∧
      twoTexts.validate (.object [("a", .int 1), ("b", .object [("c", .int 1)])]) = .error e ∧
      e.path = some (Yaml.Path.ofLocation ["b", "c"]) ∧
      e.cause = some "$.a: got number, want string" ∧ ¬t.MessageAtPath e := by
  have hevaluated : (twoTexts.violation?
        (.object [("a", .int 1), ("b", .object [("c", .int 1)])])).map
      (fun t => (t.deepest, t.ends.map fun w => (w.location, w.told))) =
      some (["b", "c"], [(["a"], "$.a: got number, want string"),
        (["b", "c"], "$.b.c: got number, want string")]) := by
    decide +kernel
  obtain ⟨t, ht, hfacts⟩ := Option.map_eq_some_iff.mp hevaluated
  obtain ⟨hdeepest, hends⟩ := Prod.mk_inj.mp hfacts
  obtain ⟨w, hw, hcause, hleast⟩ := t.exists_cause_report
  have hmem : ∀ {u}, u ∈ t.ends → (u.location, u.told) ∈ [(["a"], "$.a: got number, want string"),
      (["b", "c"], "$.b.c: got number, want string")] := fun hu =>
    hends ▸ List.mem_map_of_mem (f := fun w : Violation => (w.location, w.told)) hu
  have hfirst : w.told = "$.a: got number, want string" := by
    obtain ⟨u, hu, hfact⟩ : ∃ u ∈ t.ends, (u.location, u.told) =
        (["a"], "$.a: got number, want string") :=
      List.mem_map.mp (hends ▸ List.mem_cons_self)
    obtain ⟨-, htold⟩ := Prod.mk_inj.mp hfact
    rcases List.mem_pair.mp (hmem hw) with hfact | hfact
    · exact (Prod.mk_inj.mp hfact).2
    · have hle := hleast u hu
      rw [htold, (Prod.mk_inj.mp hfact).2] at hle
      exact absurd hle (by decide)
  refine ⟨t, t.report, ht, validate_eq_error_iff.mpr ⟨t, ht, rfl⟩, ?_, hcause.trans
    (congrArg some hfirst), ?_⟩
  · rw [Violation.report, hdeepest]
  · rintro ⟨u, hu, hpath, htold⟩
    have hplace : Yaml.Path.ofLocation ["b", "c"] = Yaml.Path.ofLocation u.location :=
      hdeepest ▸ Option.some_inj.mp hpath
    rw [hcause, hfirst] at htold
    rcases List.mem_pair.mp (hmem hu) with hfact | hfact
    · rw [(Prod.mk_inj.mp hfact).1] at hplace
      exact absurd hplace (by decide +kernel)
    · rw [(Prod.mk_inj.mp hfact).2] at htold
      exact absurd htold (by decide)

end Validator

end RuleScan.Schema
