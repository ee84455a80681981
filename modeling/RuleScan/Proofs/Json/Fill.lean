import Mathlib.Data.List.Nodup
import RuleScan.Json.Fill
import RuleScan.Proofs.Json.Roundtrip
import RuleScan.Proofs.Text.Order

/-!
# Filling records

A record is written as an object with one field for each of its parts, in a fixed order, where
parts that hold nothing may be left out.  Filling it from such an object takes the parts one after
the other.

## What is proved

`object_ofFields`: the object is filled `inOrder`, part by part.  `inOrder_part` is one step of it:
a part is filled with what was written for it, or is as it was if nothing was.
-/

namespace RuleScan.Json

theorem texts_ofFields (fields : List (String × Option Json)) :
    (ofFields fields).texts = ofFields (fields.map fun f => (f.1, f.2.map texts)) := by
  rw [ofFields, ofFields, texts, textsFields_eq, List.map_filterMap, List.filterMap_map]
  congr 2
  funext f
  cases h : f.2 <;> simp [h]

namespace Fill

variable {α β : Type}

/-- A value that may have been left out is read onto an old one, and gives a new one. -/
def Gives (fill : Fill β) (v : Option Json) (old new : β) : Prop :=
  match v with
  | none => new = old
  | some v => fill v old = some new

/-! ## Parts one after the other -/

/-- Fills the parts of a record in their order. -/
def inOrder : List (Field α) → List (Option Json) → α → Option α
  | f :: fields, some v :: vs, a => (f.read v a).bind (inOrder fields vs)
  | _ :: fields, none :: vs, a => inOrder fields vs a
  | _, _, a => some a

theorem inOrder_part {get : α → β} {set : α → β → α} (hset : ∀ a, set a (get a) = a)
    {name : String} {fill : Fill β} {v : Option Json} {a : α} {b : β}
    (h : Gives fill v (get a) b) (fields : List (Field α)) (vs : List (Option Json)) :
    inOrder (.part name get set fill :: fields) (v :: vs) a = inOrder fields vs (set a b) := by
  cases v with
  | none =>
      obtain rfl : b = get a := h
      rw [inOrder, hset]
  | some v =>
      have hread : fill v (get a) = some b := h
      simp only [inOrder, Field.part, hread, Option.map_some, Option.bind_some]

theorem named?_of_mem {fields : List (Field α)} (hnodup : (fields.map Field.name).Nodup)
    {f : Field α} (hf : f ∈ fields) : named? fields f.name = some f := by
  have hfind : fields.find? (·.name = f.name) = some f := by
    induction fields with
    | nil => cases hf
    | cons g rest ih =>
        obtain ⟨hg, hrest⟩ := List.nodup_cons.mp hnodup
        rcases List.mem_cons.mp hf with rfl | hf
        · exact List.find?_cons_of_pos (by simp)
        · have hne : g.name ≠ f.name := by
            intro hsame
            rw [hsame] at hg
            exact hg (List.mem_map_of_mem hf)
          rw [List.find?_cons_of_neg (by simpa using hne), ih hrest hf]
  rw [named?, hfind]

theorem object_cons {fields : List (Field α)} (hnodup : (fields.map Field.name).Nodup)
    {f : Field α} (hf : f ∈ fields) (v : Json) (rest : List (String × Json)) (a : α) :
    object fields (.object ((f.name, v) :: rest)) a =
      (f.read v a).bind (object fields (.object rest)) := by
  simp only [object, List.foldlM_cons, named?_of_mem hnodup hf]
  rfl

/-- An object that was written in the order of the parts is filled in this order. -/
theorem object_ofFields {fields : List (Field α)} {names : List String}
    (hnames : fields.map Field.name = names) (hnodup : names.Nodup) (vs : List (Option Json))
    (a : α) : object fields (ofFields (names.zip vs)) a = inOrder fields vs a := by
  subst hnames
  -- The parts that are left are among all parts, and those are what a name is looked up in.
  suffices h : ∀ (left : List (Field α)), (∀ f ∈ left, f ∈ fields) → ∀ (vs : List (Option Json)) a,
      object fields (ofFields ((left.map Field.name).zip vs)) a = inOrder left vs a from
    h fields (fun _ hf => hf) vs a
  intro left
  induction left with
  | nil => exact fun _ vs a => rfl
  | cons f left ih =>
      intro hsub vs a
      obtain ⟨hf, hleft⟩ := List.forall_mem_cons.mp hsub
      cases vs with
      | nil => rfl
      | cons v vs =>
          cases v with
          | none => exact ih hleft vs a
          | some v =>
              have hread : object fields (ofFields (((f :: left).map Field.name).zip
                  (some v :: vs))) a = (f.read v a).bind
                    (object fields (ofFields ((left.map Field.name).zip vs))) :=
                object_cons hnodup hf v _ a
              rw [hread, inOrder, funext (ih hleft vs)]

/-! ## Single values -/

theorem gives_text (s old : String) : Gives text (some (.string s)) old s := rfl

theorem gives_bool (b old : Bool) : Gives bool (some (.bool b)) old b := rfl

theorem gives_int {n : Int} (h : Word.fits n = true) (old : Int) :
    Gives int (some (.int n)) old n := by
  show (if Word.fits n then some n else none) = some n
  rw [if_pos h]

/-- A name that stands for one value only is read as it. -/
theorem gives_word {of : String → β} {name : String} {b : β} (h : of name = b) (old : β) :
    Gives (word of) (some (.string name)) old b :=
  congrArg some h

/-! ## Lists -/

theorem elements_map {γ : Type} {empty : α} {element : Fill α} {write : γ → Json} {done : γ → α}
    {list : List γ} (h : ∀ c ∈ list, element (write c) empty = some (done c)) :
    elements empty element (list.map write) [] = some (list.map done) := by
  induction list with
  | nil => rfl
  | cons c rest ih =>
      obtain ⟨hc, hrest⟩ := List.forall_mem_cons.mp h
      have hfirst : element (write c) (([] : List α).head?.getD empty) = some (done c) := hc
      rw [List.map_cons, elements, hfirst, List.tail_nil, ih hrest]
      rfl

/-- A list that is read where there was none. -/
theorem gives_list {γ : Type} {empty : α} {element : Fill α} {write : γ → Json} {done : γ → α}
    {list : List γ} (h : ∀ c ∈ list, element (write c) empty = some (done c)) :
    Gives (Fill.list empty element) (some (.array (list.map write))) {}
      { list := some (list.map done) } := by
  have hread := elements_map h
  cases list with
  | nil => rfl
  | cons c rest =>
      show (elements empty element ((c :: rest).map write) []).map _ = _
      rw [hread]
      rfl

/-! ## Counts -/

section Counts

variable {κ : Type} [DecidableEq κ] {of : String → κ} {name : κ → String}

/-- Names that have no count yet are put in front, one after the other. -/
theorem foldlM_counts {counts acc : List (κ × Int)} (hof : ∀ c ∈ counts, of (name c.1) = c.1)
    (hfits : ∀ c ∈ counts, Word.fits c.2 = true)
    (hnew : (acc.reverse ++ counts).Pairwise fun a b => a.1 ≠ b.1) :
    (counts.map fun c => (name c.1, Json.int c.2)).foldlM (fun (acc : List (κ × Int)) f => do
      let n ← int f.2 0
      return (of f.1, n) :: acc.filter (·.1 ≠ of f.1)) acc = some (counts.reverse ++ acc) := by
  induction counts generalizing acc with
  | nil => rfl
  | cons c rest ih =>
      obtain ⟨hc, hrest⟩ := List.forall_mem_cons.mp hof
      obtain ⟨hcfits, hrestfits⟩ := List.forall_mem_cons.mp hfits
      have hkept : acc.filter (·.1 ≠ c.1) = acc := by
        refine List.filter_eq_self.mpr fun a ha => decide_eq_true ?_
        exact (List.pairwise_append.mp hnew).2.2 a (List.mem_reverse.mpr ha) c List.mem_cons_self
      have hread : int (.int c.2) 0 = some c.2 := gives_int hcfits 0
      have hnext : ((c :: acc).reverse ++ rest).Pairwise fun a b => a.1 ≠ b.1 := by
        rwa [List.reverse_cons, List.append_assoc]
      rw [List.map_cons, List.foldlM_cons, hread, hc, hkept]
      refine (ih hrest hrestfits hnext).trans ?_
      rw [List.reverse_cons, List.append_assoc]
      rfl

omit [DecidableEq κ] in
/-- Sorting by names that are all different undoes every change of the order. -/
theorem mergeSort_eq_of_perm {l counts : List (κ × Int)} (hperm : l.Perm counts)
    (hsorted : counts.Pairwise fun a b => name a.1 < name b.1) :
    (l.mergeSort fun a b => name a.1 ≤ name b.1) = counts := by
  have hnames : (counts.map fun c => name c.1).Nodup := by
    refine List.pairwise_map.mpr (hsorted.imp fun hlt heq => ?_)
    rw [heq] at hlt
    exact String.lt_irrefl _ hlt
  have hall := (List.mergeSort_perm l fun a b => name a.1 ≤ name b.1).trans hperm
  refine hall.eq_of_pairwise ?_ (Text.pairwise_sorted (fun c : κ × Int => name c.1) l)
    (hsorted.imp fun hlt => String.not_lt.mp (String.lt_asymm hlt))
  intro a b ha hb hab hba
  exact List.inj_on_of_nodup_map hnames (hall.mem_iff.mp ha) hb (String.le_antisymm hab hba)

/-- The counts that are read stand in the order of their names, as they were written. -/
theorem gives_counts {counts : List (κ × Int)} (hof : ∀ c ∈ counts, of (name c.1) = c.1)
    (hfits : ∀ c ∈ counts, Word.fits c.2 = true)
    (hsorted : counts.Pairwise fun a b => name a.1 < name b.1) :
    Gives (Fill.counts of name) (some (.object (counts.map fun c => (name c.1, .int c.2)))) none
      (some counts) := by
  have hkeys : counts.Pairwise fun a b => a.1 ≠ b.1 := by
    refine hsorted.imp fun hlt heq => ?_
    rw [heq] at hlt
    exact String.lt_irrefl _ hlt
  have hread : _ = some (counts.reverse ++ []) := foldlM_counts hof hfits hkeys
  rw [List.append_nil] at hread
  have hsort := mergeSort_eq_of_perm (List.reverse_perm counts) hsorted
  simp only [Gives, Fill.counts, Option.getD_none]
  rw [hread]
  exact congrArg (fun c => some (some c)) hsort

end Counts

end Fill

end RuleScan.Json
