/-!
# Types of scope expressions

Expressions are typed before they are evaluated.  `dyn` is the type of values whose type is only
known at evaluation; it agrees with every type.  Empty lists and the parameters of generic
functions are typed with variables, and a substitution says what the variables have been found to
stand for.
-/

namespace RuleScan.Expr

/-- Types. -/
inductive Ty where
  | null
  | bool
  | int
  | uint
  | double
  | string
  | bytes
  | duration
  | timestamp
  | dyn
  /-- The type of an expression that was refused; it agrees with every type. -/
  | error
  /-- The type of a value that may be packed in any way; it agrees with every type. -/
  | any
  | list (element : Ty)
  | map (key value : Ty)
  /-- The type of values of a basic type that may also be null. -/
  | wrapper (of : Ty)
  /-- A record type by its name. -/
  | record (name : String)
  /-- The type of one type used as a value. -/
  | type (of : Ty)
  /-- The type of types. -/
  | metatype
  /-- A variable. -/
  | var (index : Nat)
  /-- A parameter in the signature of a generic function. -/
  | param (name : String)
  deriving Repr, DecidableEq, Inhabited

namespace Ty

/-- A type in a message. -/
def message : Ty → String
  | .null => "null"
  | .bool => "bool"
  | .int => "int"
  | .uint => "uint"
  | .double => "double"
  | .string => "string"
  | .bytes => "bytes"
  | .duration => "duration"
  | .timestamp => "timestamp"
  | .dyn => "dyn"
  | .error => "!error!"
  | .any => "any"
  | .wrapper t => "wrapper(" ++ t.message ++ ")"
  | .record name => name
  | .list t => "list(" ++ t.message ++ ")"
  | .map k v => "map(" ++ k.message ++ ", " ++ v.message ++ ")"
  | .type t => "type(" ++ t.message ++ ")"
  | .metatype => "type"
  | .var n => "_var" ++ toString n
  | .param name => name

/-- A type by its full name. -/
def fullName : Ty → String
  | .null => "null_type"
  | .duration => "google.protobuf.Duration"
  | .timestamp => "google.protobuf.Timestamp"
  | .any => "google.protobuf.Any"
  | .list t => "list(" ++ t.fullName ++ ")"
  | .map k v => "map(" ++ k.fullName ++ ", " ++ v.fullName ++ ")"
  | .type t => "type(" ++ t.fullName ++ ")"
  | t => t.message

/-- Whether a type agrees with every other one. -/
def isDynamic : Ty → Bool
  | .dyn | .error | .any => true
  | _ => false

/-- The name of a type without its parameters. -/
def plainName : Ty → String
  | .list _ => "list"
  | .map _ _ => "map"
  | .type _ | .metatype => "type"
  | .wrapper t => t.plainName
  | t => t.fullName

/-- The name of a type without its parameters, as it is declared. -/
def declaredName : Ty → String
  | .wrapper t => "wrapper(" ++ t.plainName ++ ")"
  | t => t.plainName

/-- Whether a type is that of types. -/
def isTypeType : Ty → Bool
  | .type _ | .metatype => true
  | _ => false

end Ty

/-- What variables stand for. -/
abbrev Subst := List (Nat × Ty)

namespace Subst

/-- What a variable has been found to stand for. -/
def known? (s : Subst) (v : Nat) : Option Ty := (List.find? (·.1 = v) s).map (·.2)

/-- Records what a variable stands for. -/
def add (s : Subst) (v : Nat) (t : Ty) : Subst := (v, t) :: s.filter (·.1 ≠ v)

/-- Replaces variables by what they stand for; with `close`, the others by `dyn`.  A variable never
stands for a type it occurs in, so the replacement comes to an end long before the fuel does. -/
def apply (s : Subst) (close : Bool) : Nat → Ty → Ty
  | 0, t => t
  | fuel + 1, t =>
    match t with
    | .var v =>
      match s.known? v with
      | some t => apply s close fuel t
      | none => if close then .dyn else .var v
    | .list t => .list (apply s close fuel t)
    | .map k v => .map (apply s close fuel k) (apply s close fuel v)
    | .type t => .type (apply s close fuel t)
    | t => t

/-- Enough fuel for any replacement. -/
def fuel (s : Subst) : Nat := 1000 + 50 * s.length

/-- Whether a variable does not occur in a type. -/
def absent (s : Subst) (v : Nat) : Nat → Ty → Bool
  | 0, _ => true
  | fuel + 1, t =>
    match t with
    | .var w =>
      if w = v then false
      else match s.known? w with
        | some t => absent s v fuel t
        | none => true
    | .list t | .type t => absent s v fuel t
    | .map k w => absent s v fuel k && absent s v fuel w
    | _ => true

/-- Whether a type is the other one or says less. -/
def noMoreSpecific : Ty → Ty → Bool
  | .dyn, _ | .any, _ | .var _, _ => true
  | _, .dyn | _, .any | _, .var _ => false
  | .list a, .list b => noMoreSpecific a b
  | .map a b, .map c d => noMoreSpecific a c && noMoreSpecific b d
  | .type _, .type _ | .metatype, .type _ | .type _, .metatype => true
  | a, b => a = b

/-- Of two types that agree, the one that says less. -/
def mostGeneral (a b : Ty) : Ty := if noMoreSpecific a b then a else b

/-- Null agrees only with itself, times, durations, records and wrapped values. -/
def nullable : Ty → Bool
  | .null | .duration | .timestamp | .record _ | .wrapper _ => true
  | _ => false

mutual

/-- Whether a value of the first type may stand where the second is wanted, and what the variables
then stand for. -/
def assign : Nat → Subst → Ty → Ty → Option Subst
  | 0, _, _, _ => none
  | fuel + 1, s, a, b =>
    let back : Option Subst :=
      match a with
      | .var v => (stands fuel s b v).1
      | _ =>
        if a.isDynamic || b.isDynamic then some s
        else match a, b with
          | .null, t | t, .null => if nullable t then some s else none
          | .type _, .type _ | .metatype, .type _ | .type _, .metatype => some s
          | .wrapper x, .wrapper y => if x = y then some s else none
          | .wrapper x, y | y, .wrapper x => if x = y then some s else none
          | .list x, .list y => assign fuel s x y
          | .map k x, .map l y => (assign fuel s k l).bind fun s => assign fuel s x y
          | a, b => if a = b then some s else none
    match b with
    | .var v =>
      match stands fuel s a v with
      | (some s, _) => some s
      | (none, true) => none
      | (none, false) => back
    | _ => back

/-- Whether a variable may stand for a type, and whether something is known of it already. -/
def stands : Nat → Subst → Ty → Nat → Option Subst × Bool
  | 0, _, _, _ => (none, false)
  | fuel + 1, s, t, v =>
    if t = .var v then (some s, true)
    else match s.known? v with
      | some known =>
        if t = known then (some s, true)
        else match assign fuel s t known with
          | some s =>
            let general := mostGeneral t known
            (some (if absent s v s.fuel general && general ≠ .var v then s.add v general else s),
              true)
          | none => (none, true)
      | none => if absent s v s.fuel t then (some (s.add v t), false) else (none, false)

end

/-- Several values for several places. -/
def assignAll (s : Subst) : List Ty → List Ty → Option Subst
  | [], [] => some s
  | a :: as, b :: bs => (assign s.fuel s a b).bind fun s => assignAll s as bs
  | _, _ => none

end Subst

end RuleScan.Expr
