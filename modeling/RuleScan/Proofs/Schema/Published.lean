import Mathlib.Data.List.Sort
import RuleScan.Proofs.Schema.Outline
import RuleScan.Schema.Record

/-!
# Published schema documents

The document of a record has the definitions of the records that it needs, in the order of their
names, and it is looked through for resources before anything is checked against it.

## What is proved

  * `document_eq` — if all known records are needed and already in order, the definitions are theirs;
  * `Sheet.keeps_collect?` — looking through a document leaves it as it is;
  * `Validator.of_eq` — so once its resources are known, a validator is known.

Sorting and looking through are the two steps that evaluation does not get through, or gets through
slowly.  What is left after them is small.
-/

namespace RuleScan.Schema

/-! ## The definitions in a document -/

/-- The schema document of a record, with the definitions of some records as they are listed. -/
def listed (s : Style) (known : List Record) (id : String) (r : Record) : Json :=
  let defs := known.map fun m => (m.name, Json.object (arrange s.order (m.fields s)))
  .object (arrange s.topOrder
    ([("$schema", .string "https://json-schema.org/draft/2020-12/schema")] ++
      noteField "$id" id ++
      (if defs.isEmpty then [] else [("$defs", .object defs)]) ++ r.fields s))

/-- Records that are all needed, and in order, are listed as they are. -/
theorem document_eq {known : List Record} {r : Record}
    (hneeded : ∀ m ∈ known, (needed known known.length r).contains m.name = true)
    (hsorted : known.Pairwise fun a b => decide (a.name ≤ b.name) = true) (s : Style) (id : String) :
    document s known id r = listed s known id r := by
  rw [document, listed]
  simp only [List.filter_eq_self.mpr hneeded, List.mergeSort_of_pairwise hsorted]

/-! ## The resources of a document -/

namespace Sheet

/-- If there is a sheet at all, it is of the same document. -/
def Keeps (s : Sheet) (x : Option Sheet) : Prop :=
  ∀ s', x = some s' → s'.address = s.address ∧ s'.value = s.value

variable {s : Sheet}

theorem keeps_some {s' : Sheet} (haddress : s'.address = s.address) (hvalue : s'.value = s.value) :
    s.Keeps (some s') := by
  rintro _ ⟨⟩
  exact ⟨haddress, hvalue⟩

theorem address_put (s : Sheet) (r : Resource) : (s.put r).address = s.address := by
  rw [put]
  split <;> rfl

theorem value_put (s : Sheet) (r : Resource) : (s.put r).value = s.value := by
  rw [put]
  split <;> rfl

theorem keeps_ite {p : Prop} [Decidable p] {x y : Option Sheet} (hx : s.Keeps x)
    (hy : s.Keeps y) : s.Keeps (if p then x else y) := by
  split
  · exact hx
  · exact hy

theorem keeps_bind {α : Type} {x : Option α} {f : α → Option Sheet} (h : ∀ a, s.Keeps (f a)) :
    s.Keeps (x >>= f) := by
  intro s' hs'
  obtain ⟨a, -, ha⟩ := Option.bind_eq_some_iff.mp hs'
  exact h a s' ha

theorem Keeps.bind {x : Option Sheet} {f : Sheet → Option Sheet} (hx : s.Keeps x)
    (hf : ∀ s₁ : Sheet, s₁.Keeps (f s₁)) : s.Keeps (x >>= f) := by
  intro s' hs'
  obtain ⟨s₁, hs₁, h⟩ := Option.bind_eq_some_iff.mp hs'
  obtain ⟨haddress₁, hvalue₁⟩ := hx s₁ hs₁
  obtain ⟨haddress, hvalue⟩ := hf s₁ s' h
  exact ⟨haddress.trans haddress₁, hvalue.trans hvalue₁⟩

theorem keeps_addResource? (s : Sheet) (r : Resource) : s.Keeps (s.addResource? r) := by
  rw [addResource?]
  split
  · exact keeps_ite (keeps_some rfl rfl) nofun
  · exact keeps_some (address_put s r) (value_put s r)

theorem keeps_foldlM {α : Type} {f : Sheet → α → Option Sheet}
    (hf : ∀ (s : Sheet) a, s.Keeps (f s a)) (l : List α) (s : Sheet) : s.Keeps (l.foldlM f s) := by
  induction l generalizing s with
  | nil => exact keeps_some rfl rfl
  | cons a rest ih =>
      rw [List.foldlM_cons]
      exact (hf s a).bind ih

theorem keeps_put (s : Sheet) (r : Resource) (seen : List (List String)) :
    s.Keeps (some { s.put r with seen }) :=
  keeps_some (address_put s r) (value_put s r)

/-- Looking through a document finds out about its resources, and leaves it as it is. -/
theorem keeps_collect? (fuel : Nat) (s : Sheet) (v : Json) (base : String)
    (pointer : List String) (given : Draft) : s.Keeps (collect? fuel s v base pointer given) := by
  induction fuel generalizing s v base pointer given with
  | zero =>
      rw [collect?]
      refine keeps_ite (keeps_some rfl rfl) ?_
      cases v with
      | bool b => exact keeps_ite (keeps_put s _ _) (keeps_some rfl rfl)
      | _ => exact keeps_some rfl rfl
  | succ fuel ih =>
      rw [collect?]
      refine keeps_ite (keeps_some rfl rfl) ?_
      cases v with
      | object fields =>
          -- The resource is there, or is added; then come its names and what stands below it.
          have hbelow : ∀ (s : Sheet) (base : String) (said : Draft), s.Keeps (do
              let home ← s.byAddress? base
              let names ← anchorsOf? home.draft (.object fields)
              let home ← names.foldlM (fun r a => r.name? pointer a) home
              let s ← (said.inner (.object fields)).foldlM (fun s (x : List String × Json) =>
                collect? fuel s x.2 base (pointer ++ x.1) home.draft) (s.put home)
              return { s with seen := pointer :: s.seen }) := by
            intro s base said
            refine keeps_bind fun home => keeps_bind fun names => keeps_bind fun home => ?_
            refine Keeps.bind (fun s' hs' => ?_) fun s => keeps_some rfl rfl
            have := keeps_foldlM (fun s (x : List String × Json) =>
              ih s x.2 base (pointer ++ x.1) home.draft) _ _ s' hs'
            exact ⟨this.1.trans (address_put s home), this.2.trans (value_put s home)⟩
          refine keeps_bind fun said => keeps_ite ?_ ?_
          · refine keeps_bind fun base => keeps_ite ?_ ?_
            · exact (keeps_some rfl rfl).bind fun s => hbelow s base _
            · exact (keeps_addResource? s _).bind fun s => hbelow s base _
          · refine keeps_bind fun base => keeps_ite ?_ ?_
            · exact (keeps_some rfl rfl).bind fun s => hbelow s base _
            · exact (keeps_addResource? s _).bind fun s => hbelow s base _
      | bool b => exact keeps_ite (keeps_put s _ _) (keeps_some rfl rfl)
      | _ => exact keeps_some rfl rfl

end Sheet

/-- The library of a document with some resources. -/
def libraryOf (schema : Json) (resources : List Resource) : Library :=
  ⟨{ address := Validator.home
     value := schema
     resources
     seen := ((Sheet.make? Validator.home schema).getD default).seen }⟩

/-- A validator for a part of a document whose resources are known. -/
theorem Validator.of_eq {schema : Json} {resources : List Resource} {pointer : String}
    {way : List String}
    (hmake : (Sheet.make? home schema).map Sheet.resources = some resources)
    (hway : (libraryOf schema resources).sheet.resolve? pointer = some ⟨home, way⟩) :
    Validator.of schema pointer =
      ⟨libraryOf schema resources, (libraryOf schema resources).schemaAt way⟩ := by
  have hsheet : (Sheet.make? home schema).getD default = (libraryOf schema resources).sheet := by
    obtain ⟨s, hs, hresources⟩ := Option.map_eq_some_iff.mp hmake
    obtain ⟨haddress, hvalue⟩ := Sheet.keeps_collect? _ _ _ _ _ _ s hs
    obtain ⟨address, value, found, seen⟩ := s
    dsimp only at hresources haddress hvalue
    rw [libraryOf, hs, haddress, hvalue, hresources]
    rfl
  rw [Validator.of, hsheet]
  dsimp only
  rw [hway]
  rfl

end RuleScan.Schema
