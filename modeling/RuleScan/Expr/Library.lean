import RuleScan.Expr.Typing

/-!
# The functions of scope expressions

The signatures of all operators and functions.  A function may have several signatures; a method
has its receiver as first parameter.
-/

namespace RuleScan.Expr

/-- One way to call a function. -/
structure Signature where
  method : Bool
  params : List Ty
  result : Ty
  deriving Repr, DecidableEq, Inhabited

namespace Signature

/-- A function. -/
def fn (params : List Ty) (result : Ty) : Signature := ⟨false, params, result⟩

/-- A method. -/
def meth (params : List Ty) (result : Ty) : Signature := ⟨true, params, result⟩

/-- The generic parameters that occur in a type. -/
def paramsOf : Ty → List String
  | .param n => [n]
  | .list t | .type t => paramsOf t
  | .map k v => paramsOf k ++ paramsOf v
  | _ => []

/-- The generic parameters of a signature. -/
def generics (s : Signature) : List String :=
  ((s.result :: s.params).flatMap paramsOf).eraseDups

/-- Replaces generic parameters. -/
def instantiate (names : List (String × Ty)) : Ty → Ty
  | .param n => ((names.find? (·.1 = n)).map (·.2)).getD (.param n)
  | .list t => .list (instantiate names t)
  | .map k v => .map (instantiate names k) (instantiate names v)
  | .type t => .type (instantiate names t)
  | t => t

end Signature

open Signature in
/-- Signatures of the operators. -/
def operators : List (String × List Signature) :=
  let a := Ty.param "A"
  let b := Ty.param "B"
  let both (t : Ty) : Signature := fn [t, t] t
  let compare := ([.bool, .int, .uint, .double, .string, .bytes, .timestamp, .duration] :
    List Ty).map fun t => fn [t, t] .bool
  [("_?_:_", [fn [.bool, a, a] a]),
   ("_&&_", [fn [.bool, .bool] .bool]),
   ("_||_", [fn [.bool, .bool] .bool]),
   ("!_", [fn [.bool] .bool]),
   ("@not_strictly_false", [fn [.bool] .bool]),
   ("_==_", [fn [a, a] .bool]),
   ("_!=_", [fn [a, a] .bool]),
   ("_<_", compare), ("_<=_", compare), ("_>_", compare), ("_>=_", compare),
   ("_+_", [both .bytes, both .double, both .duration, fn [.duration, .timestamp] .timestamp,
      fn [.timestamp, .duration] .timestamp, both .int, fn [.list a, .list a] (.list a),
      both .string, both .uint]),
   ("_-_", [both .double, both .duration, both .int, fn [.timestamp, .duration] .timestamp,
      fn [.timestamp, .timestamp] .duration, both .uint]),
   ("_*_", [both .double, both .int, both .uint]),
   ("_/_", [both .double, both .int, both .uint]),
   ("_%_", [both .int, both .uint]),
   ("-_", [fn [.double] .double, fn [.int] .int]),
   ("_[_]", [fn [.list a, .int] a, fn [.map a b, a] b]),
   ("@in", [fn [a, .list a] .bool, fn [a, .map a b] .bool])]

open Signature in
/-- Signatures of the general functions. -/
def generalFunctions : List (String × List Signature) :=
  let a := Ty.param "A"
  let b := Ty.param "B"
  let either (params : List Ty) (result : Ty) : List Signature :=
    [fn params result, meth params result]
  let text := [meth [.string, .string] .bool]
  let convert (sources : List Ty) (t : Ty) : List Signature := sources.map fun s => fn [s] t
  [("size", [.bytes, .list a, .map a b, .string].flatMap fun t => either [t] .int),
   ("type", [fn [a] (.type a)]),
   ("dyn", [fn [a] .dyn]),
   ("bool", convert [.bool, .string] .bool),
   ("bytes", convert [.bytes, .string] .bytes),
   ("double", convert [.double, .int, .string, .uint] .double),
   ("duration", convert [.duration, .int, .string] .duration),
   ("int", convert [.int, .double, .duration, .string, .timestamp, .uint] .int),
   ("string", convert [.string, .bool, .bytes, .double, .duration, .int, .timestamp, .uint]
      .string),
   ("timestamp", convert [.timestamp, .int, .string] .timestamp),
   ("uint", convert [.uint, .double, .int, .string] .uint),
   ("contains", text), ("endsWith", text), ("startsWith", text),
   ("matches", either [.string, .string] .bool)]

open Signature in
/-- Signatures of the functions on texts. -/
def textFunctions : List (String × List Signature) :=
  let s := Ty.string
  [("charAt", [meth [s, .int] s]),
   ("indexOf", [meth [s, s] .int, meth [s, s, .int] .int]),
   ("lastIndexOf", [meth [s, s] .int, meth [s, s, .int] .int]),
   ("join", [meth [.list s] s, meth [.list s, s] s]),
   ("lowerAscii", [meth [s] s]),
   ("upperAscii", [meth [s] s]),
   ("replace", [meth [s, s, s] s, meth [s, s, s, .int] s]),
   ("split", [meth [s, s] (.list s), meth [s, s, .int] (.list s)]),
   ("substring", [meth [s, .int] s, meth [s, .int, .int] s]),
   ("trim", [meth [s] s]),
   ("format", [meth [s, .list .dyn] s]),
   ("strings.quote", [fn [s] s]),
   ("reverse", [meth [s] s, meth [.list (.param "T")] (.list (.param "T"))])]

open Signature in
/-- Signatures of the functions on lists. -/
def listFunctions : List (String × List Signature) :=
  let t := Ty.param "T"
  let ordered : List Ty :=
    [.int, .uint, .double, .bool, .duration, .timestamp, .string, .bytes]
  [("@sortByAssociatedKeys", ordered.map fun k => meth [.list t, .list k] (.list t)),
   ("slice", [meth [.list t, .int, .int] (.list t)]),
   ("flatten", [meth [.list (.list t)] (.list t), meth [.list .dyn, .int] (.list .dyn)]),
   ("sort", ordered.map fun t => meth [.list t] (.list t)),
   ("lists.range", [fn [.int] (.list .int)]),
   ("distinct", [meth [.list t] (.list t)])]

open Signature in
/-- Signatures of the functions on moments and durations. -/
def timeFunctions : List (String × List Signature) :=
  let onMoment : List Signature :=
    [meth [.timestamp] .int, meth [.timestamp, .string] .int]
  ["getFullYear", "getMonth", "getDayOfYear", "getDayOfMonth", "getDate", "getDayOfWeek"].map
      (·, onMoment) ++
    ["getHours", "getMinutes", "getSeconds", "getMilliseconds"].map
      (·, onMoment ++ [meth [.duration] .int])

open Signature in
/-- Signatures of the functions on paths. -/
def pathFunctions : List (String × List Signature) :=
  [("pathBase", [fn [.string] .string]),
   ("pathDir", [fn [.string] .string]),
   ("pathExt", [fn [.string] .string]),
   ("pathMatch", [fn [.string, .string] .bool])]

/-- All signatures. -/
def library : List (String × List Signature) :=
  operators ++ generalFunctions ++ textFunctions ++ listFunctions ++ timeFunctions ++ pathFunctions

/-- A name without the dot that may stand in front of it. -/
def plainName (name : String) : String :=
  if name.toList.head? = some '.' then String.ofList (name.toList.drop 1) else name

/-- The signatures of a function. -/
def signatures? (name : String) : Option (List Signature) :=
  (library.find? (·.1 = plainName name)).map (·.2)

/-- Types that can be named in an expression and are values themselves. -/
def namedTypes : List (String × Ty) :=
  [("bool", .bool), ("int", .int), ("uint", .uint), ("double", .double), ("string", .string),
   ("bytes", .bytes), ("null_type", .null), ("list", .list .dyn), ("map", .map .dyn .dyn),
   ("type", .metatype), ("google.protobuf.Duration", .duration),
   ("google.protobuf.Timestamp", .timestamp),
   ("google.protobuf.Empty", .record "google.protobuf.Empty")]

end RuleScan.Expr
