import RuleScan.Expr.Format
import RuleScan.Expr.Library
import RuleScan.Expr.Records
import RuleScan.Expr.Syntax

/-!
# Typing scope expressions

Finds the type of an expression.  What cannot be typed is reported with its place, and typing goes
on, so that one run reports every problem.
-/

namespace RuleScan.Expr

/-- A call of `format` with its text and its values written out. -/
structure FormatCall where
  offset : Nat
  text : String
  values : List Expr
  deriving Inhabited

/-- The state of typing: what the variables stand for, the next fresh one, and the problems found
so far, newest first. -/
structure Typing where
  subst : Subst := []
  next : Nat := 0
  issues : List Issue := []
  /-- The types of what stands in lists and maps, by offset. -/
  parts : List (Nat × Ty) := []
  /-- The types of the names that occur. -/
  names : List (String × Ty) := []
  formats : List FormatCall := []
  deriving Inhabited

/-- A step of typing. -/
abbrev Checker := StateM Typing

namespace Checker

/-- A fresh variable. -/
def fresh : Checker Ty := do
  let n := (← get).next
  modify ({ · with next := n + 1 })
  return .var n

/-- Reports a problem. -/
def report (offset : Nat) (message : String) : Checker Unit :=
  modify fun st => { st with issues := ⟨some offset, message⟩ :: st.issues }

/-- Notes the type of what stands in a list or a map. -/
def note (offset : Nat) (t : Ty) : Checker Unit :=
  modify fun st => { st with parts := (offset, t) :: st.parts }

/-- Notes the type of a name. -/
def noteName (name : String) (t : Ty) : Checker Unit :=
  modify fun st => { st with names := (name, t) :: st.names }

/-- Notes a call of `format`. -/
def noteFormat (offset : Nat) (name : String) (receiver : Expr) (args : List Expr) :
    Checker Unit :=
  match name, receiver, args with
  | "format", .const _ (.string text), [.list _ values] =>
    modify fun st => { st with formats := ⟨offset, text, values⟩ :: st.formats }
  | _, _, _ => return

/-- A type with the variables replaced that are known. -/
def resolve (t : Ty) : Checker Ty := do
  let s := (← get).subst
  return s.apply false s.fuel t

/-- A type with every variable replaced. -/
def close (t : Ty) : Checker Ty := do
  let s := (← get).subst
  return s.apply true s.fuel t

/-- Whether a value of one type may stand where another is wanted. -/
def fits (a b : Ty) : Checker Bool := do
  let s := (← get).subst
  match s.assign s.fuel a b with
  | some s => modify ({ · with subst := s }); return true
  | none => return false

/-- Reports a value of the wrong type. -/
def mismatch (offset : Nat) (wanted found : Ty) : Checker Unit :=
  report offset ("expected type '" ++ wanted.message ++ "' but found '" ++ found.message ++ "'")

/-- Reports a name that nothing is known of. -/
def undeclared (offset : Nat) (name : String) : Checker Unit :=
  report offset ("undeclared reference to '" ++ name ++ "' (in container '')")

/-- A signature with fresh variables for its generic parameters. -/
def instantiate (sig : Signature) : Checker (List Ty × Ty) := do
  let names ← sig.generics.mapM fun n => do return (n, ← fresh)
  return (sig.params.map (Signature.instantiate names), Signature.instantiate names sig.result)

/-- Tries the signatures of a function one after the other.  All that fit are taken into account;
results of different types make the call's type `dyn`. -/
def tryAll (method : Bool) (args : List Ty) : List Signature → Option Ty → Checker (Option Ty)
  | [], found => return found
  | sig :: rest, found => do
    if sig.method != method then tryAll method args rest found
    else
      let (params, result) ← instantiate sig
      let s := (← get).subst
      match s.assignAll args params with
      | none => tryAll method args rest found
      | some s =>
        modify ({ · with subst := s })
        let result ← resolve result
        let found := match found with
          | none => result
          | some t => if t ≠ .dyn && t ≠ result then .dyn else t
        tryAll method args rest (some found)

/-- The type of a call whose arguments, the receiver first, have the given types. -/
def call (offset : Nat) (name : String) (sigs : List Signature) (method : Bool)
    (args : List (Nat × Ty)) : Checker Ty := do
  if name = "_&&_" || name = "_||_" then
    let bad ← args.filterM fun (_, t) => do return !(← fits t .bool)
    for (p, t) in bad do mismatch p .bool t
    return if bad.isEmpty then .bool else .error
  match ← tryAll method (args.map (·.2)) sigs none with
  | some t => return t
  | none =>
    let types ← args.mapM fun (_, t) => do return (← close t).message
    let shown := match method, types with
      | true, receiver :: rest => receiver ++ ".(" ++ ", ".intercalate rest ++ ")"
      | _, _ => "(" ++ ", ".intercalate types ++ ")"
    report offset ("found no matching overload for '" ++ plainName name ++ "' applied to '" ++ shown ++ "'")
    return .error

/-- The common type of elements: one that all fit, or `dyn`. -/
def common (so_far : Option Ty) (t : Ty) : Checker Ty := do
  match so_far with
  | none => return t
  | some u => if ← fits u t then return Subst.mostGeneral u t else return .dyn

end Checker

open Checker

/-- Variables in scope, the innermost first. -/
abbrev Scope := List (String × Ty)

/-- The type of a name: a variable, a type used as a value, or a number that has a name. -/
def nameType? (scope : Scope) (name : String) : Option Ty :=
  let name := plainName name
  let bound := (scope.find? (·.1 = name)).map (·.2)
  let named := (namedTypes.find? (·.1 = name)).map fun (_, t) => Ty.type t
  let recorded := (RecordType.ofName? name).map fun r => Ty.type r.ty
  let number := (namedNumbers.find? (·.1 = name)).map fun _ => Ty.int
  let file := if name = "file" then some Ty.string else none
  bound <|> file <|> named <|> recorded <|> number

/-- The type of a constant. -/
def Const.ty : Const → Ty
  | .null => .null
  | .bool _ => .bool
  | .int _ => .int
  | .uint _ => .uint
  | .double _ => .double
  | .string _ => .string
  | .bytes _ => .bytes

mutual

/-- The type of an expression. -/
def check (scope : Scope) : Expr → Checker Ty
  | .const _ c => return c.ty
  | .ident p name =>
    match nameType? scope name with
    | some t => do noteName (plainName name) t; return t
    | none => do undeclared p name; return .error
  | .select p operand field test => do
    let qualified := if test then none else (operand.dottedName?).map (· ++ "." ++ field)
    match qualified.bind fun name => (nameType? scope name).map (plainName name, ·) with
    | some (name, t) => noteName name t; return t
    | none =>
      let t ← resolve (← check scope operand)
      let result ← match t with
        | .map _ v => pure v
        | .record _ => do report p ("undefined field '" ++ field ++ "'"); pure .error
        | .var _ => do let _ ← fits .dyn t; pure .dyn
        | t => do
          unless t.isDynamic do
            report p ("type '" ++ t.message ++ "' does not support field selection")
          pure .dyn
      if test then return .bool else resolve result
  | .call p name none args => do
    let types ← checkAll scope args
    match signatures? name with
    | none => undeclared p name; return .error
    | some sigs => Checker.call p name sigs false types
  | .call p name (some receiver) args => do
    let types ← checkAll scope args
    match (receiver.dottedName?).bind fun r => (signatures? (r ++ "." ++ name)).map (r, ·) with
    | some (r, sigs) => Checker.call p (r ++ "." ++ name) sigs false types
    | none =>
      let t ← check scope receiver
      match signatures? name with
      | none => undeclared p name; return .error
      | some sigs =>
        noteFormat p name receiver args
        Checker.call p name sigs true ((receiver.offset, t) :: types)
  | .list _ elements => do
    match ← checkElements scope elements none with
    | some t => return .list t
    | none => return .list (← fresh)
  | .map _ entries => do
    match ← checkEntries scope entries none with
    | some (k, v) => return .map k v
    | none =>
      let k ← fresh
      let v ← fresh
      return .map k v
  | .fold _ range var acc init goOn step result => do
    let rangeType ← check scope range
    let accType ← check scope init
    let rangeType ← resolve rangeType
    let outer := (acc, accType) :: scope
    let varType ← match rangeType with
      | .list t => pure t
      | .map k _ => pure k
      | .dyn | .error | .var _ => do let _ ← fits .dyn rangeType; pure .dyn
      | t => do
        report range.offset ("expression of type '" ++ t.message ++
          "' cannot be range of a comprehension (must be list, map, or dynamic)")
        pure .error
    let inner := (var, varType) :: outer
    let goOnType ← check inner goOn
    unless ← fits .bool goOnType do mismatch goOn.offset .bool goOnType
    let stepType ← check inner step
    unless ← fits accType stepType do mismatch step.offset accType stepType
    resolve (← check outer result)
  | .record p name fields => do
    match nameType? scope name with
    | none => undeclared p name; return .error
    | some t =>
      let (result, fieldsOf) ← match t with
        | .type t =>
          match RecordType.nameOf? t, t with
          | some known, _ => pure (t, known)
          | none, .record known => pure (t, known)
          | none, t => do
            report p ("'" ++ t.declaredName ++ "' is not a message type")
            pure (.error, plainName name)
        | .metatype => do
          report p "'type' is not a message type"
          pure (.error, plainName name)
        | .error => pure (.error, plainName name)
        | t => do
          report p ("'" ++ t.declaredName ++ "' is not a type")
          pure (.error, plainName name)
      checkFields scope fieldsOf fields
      return result

/-- The types of arguments, with their places. -/
def checkAll (scope : Scope) : List Expr → Checker (List (Nat × Ty))
  | [] => return []
  | e :: rest => do
    let t ← check scope e
    return (e.offset, t) :: (← checkAll scope rest)

/-- The common type of list elements. -/
def checkElements (scope : Scope) : List Expr → Option Ty → Checker (Option Ty)
  | [], found => return found
  | e :: rest, found => do
    let t ← check scope e
    note e.offset t
    checkElements scope rest (some (← common found t))

/-- The common types of the keys and values of a map. -/
def checkEntries (scope : Scope) :
    List (Expr × Expr) → Option (Ty × Ty) → Checker (Option (Ty × Ty))
  | [], found => return found
  | (k, v) :: rest, found => do
    let kt ← check scope k
    note k.offset kt
    let kt ← common (found.map (·.1)) kt
    let vt ← check scope v
    note v.offset vt
    let vt ← common (found.map (·.2)) vt
    checkEntries scope rest (some (kt, vt))

/-- The fields of a record of the named type. -/
def checkFields (scope : Scope) (name : String) : List (Nat × String × Expr) → Checker Unit
  | [] => return
  | (p, field, e) :: rest => do
    let t ← check scope e
    match RecordType.ofName? name with
    | none => report p ("unexpected failed resolution of '" ++ name ++ "'")
    | some r =>
      match r.fields.find? (·.1 = field) with
      | none => report p ("undefined field '" ++ field ++ "'")
      | some (_, wanted) =>
        unless ← fits wanted t do
          report p ("expected type of field '" ++ field ++ "' is '" ++ wanted.message ++
            "' but provided type is '" ++ t.message ++ "'")
    checkFields scope name rest

end

/-- What typing finds out about an expression: its type, and the names that have the type of a
type without being the name of one. -/
structure Typed where
  ty : Ty
  undefinedTypes : List String
  deriving Inhabited

/-- What typing finds out about an expression, or everything that is wrong with it. -/
def typed (e : Expr) : Except (List Issue) Typed :=
  let (t, st) := (check [] e).run {}
  if !st.issues.isEmpty then .error st.issues.reverse
  else
    let close (t : Ty) : Ty := st.subst.apply true st.subst.fuel t
    let typeAt (p : Nat) : Ty := (((st.parts.find? (·.1 = p)).map (·.2)).map close).getD .dyn
    match st.formats.reverse.filterMap fun f => formatIssue? f.offset f.text f.values typeAt with
    | [] =>
      let isNamed (name : String) : Bool := namedTypes.any (·.1 = name)
      let bad := st.names.filter fun (name, t) => (close t).isTypeType && !isNamed name
      .ok ⟨close t, bad.map (·.1)⟩
    | issues => .error issues

end RuleScan.Expr
