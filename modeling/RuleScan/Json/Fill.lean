import RuleScan.Decimal.Read
import RuleScan.Json.Read
import RuleScan.Unicode.Case

/-!
# Filling values from JSON

A filling reads a JSON value onto what is already there: null leaves it, an object fills the
fields it names and leaves the others, so that of two fields with one name the later one counts.
The names of fields are compared without regard to case.  A filling fails on a value of another
kind.  The elements of a list are read onto those that were there, also onto those that a shorter
list has left behind in the meantime.
-/

namespace RuleScan.Json

/-- A list that is read, and the elements of longer lists behind it. -/
structure Slots (α : Type) where
  list : Option (List α) := none
  spare : List α := []
  deriving Repr, Inhabited

/-- Reads a value onto another one. -/
abbrev Fill (α : Type) := Json → α → Option α

namespace Fill

/-- A text. -/
def text : Fill String
  | .null, old => some old
  | .string s, _ => some s
  | _, _ => none

/-- A value written as a text. -/
def word {α : Type} (of : String → α) : Fill α
  | .null, old => some old
  | .string s, _ => some (of s)
  | _, _ => none

/-- An integer of 64 bits. -/
def int : Fill Int
  | .null, old => some old
  | .int n, _ => if Word.fits n then some n else none
  | _, _ => none

/-- A boolean. -/
def bool : Fill Bool
  | .null, old => some old
  | .bool b, _ => some b
  | _, _ => none

/-- Reads elements, beside the older ones. -/
def elements {α : Type} (empty : α) (element : Fill α) : List Json → List α → Option (List α)
  | [], _ => some []
  | v :: vs, olds => do
    let a ← element v (olds.head?.getD empty)
    return a :: (← elements empty element vs olds.tail)

/-- A list.  The elements are read onto those that were there; null makes the list absent, and an
empty list forgets what was there. -/
def list {α : Type} (empty : α) (element : Fill α) : Fill (Slots α)
  | .null, _ => some {}
  | .array [], _ => some { list := some [] }
  | .array vs, old =>
    let olds := old.list.getD [] ++ old.spare
    (elements empty element vs olds).map fun new => ⟨some new, olds.drop new.length⟩
  | _, _ => none

/-- A table of integers by name, in the order of the names; null makes it absent. -/
def counts {κ : Type} [DecidableEq κ] (of : String → κ) (name : κ → String) :
    Fill (Option (List (κ × Int)))
  | .null, _ => some none
  | .object fields, old => do
    let all ← fields.foldlM (fun (acc : List (κ × Int)) f => do
      let n ← int f.2 0
      return (of f.1, n) :: acc.filter (·.1 ≠ of f.1)) (old.getD [])
    return some (all.mergeSort fun a b => name a.1 ≤ name b.1)
  | _, _ => none

/-- One field of an object: its name and how it is read. -/
structure Field (α : Type) where
  name : String
  read : Fill α

/-- A field that is read by the filling of a part. -/
def Field.part {α β : Type} (name : String) (get : α → β) (set : α → β → α) (f : Fill β) : Field α :=
  ⟨name, fun v a => (f v (get a)).map (set a)⟩

/-- The field that a name means: the one so named, or else one that differs in case only. -/
def named? {α : Type} (fields : List (Field α)) (name : String) : Option (Field α) :=
  match fields.find? (·.name = name) with
  | some f => some f
  | none => fields.find? fun f => Unicode.sameFold f.name name

/-- An object; fields that are not known are left out. -/
def object {α : Type} (fields : List (Field α)) : Fill α
  | .null, old => some old
  | .object given, old =>
    given.foldlM (fun a (name, v) =>
      match named? fields name with
      | some f => f.read v a
      | none => some a) old
  | _, _ => none

end Fill

end RuleScan.Json
