import RuleScan.Json.Basic

/-!
# Drafts of the schema language

The language of schemas has grown over the years, and a schema may say which draft of it it is
written in.  A draft tells which keywords there are and below which of them further schemas stand.
-/

namespace RuleScan.Schema

/-- A draft of the language. -/
inductive Draft where
  | four
  | six
  | seven
  | of2019
  | of2020
  deriving Repr, DecidableEq, Inhabited

/-- How the schemas below a keyword are arranged. -/
inductive Arrangement where
  /-- The value of the keyword is a schema. -/
  | one
  /-- It is a list of schemas. -/
  | list
  /-- It is an object whose fields are schemas. -/
  | fields
  deriving Repr, DecidableEq, Inhabited

namespace Draft

/-- The number of a draft, by which drafts are ordered. -/
def age : Draft → Nat
  | four => 4
  | six => 6
  | seven => 7
  | of2019 => 2019
  | of2020 => 2020

/-- The keyword that gives a schema its address. -/
def idKeyword : Draft → String
  | four => "id"
  | _ => "$id"

/-- The names of drafts below the site of the language. -/
def names : List (String × Draft) :=
  [("draft-04/schema", four), ("draft-06/schema", six), ("draft-07/schema", seven),
    ("draft/2019-09/schema", of2019), ("draft/2020-12/schema", of2020), ("schema", of2020)]

/-- The site of the language. -/
def sites : List String := ["http://json-schema.org/", "https://json-schema.org/"]

/-- What stands behind the site of the language in an address. -/
def belowSite? (address : String) : Option String :=
  sites.findSome? fun site =>
    if site.toList.isPrefixOf address.toList then
      some (String.ofList (address.toList.drop site.length))
    else none

/-- The draft that an address names; an empty fragment does not count. -/
def ofAddress? (address : String) : Option Draft := do
  let cs := address.toList
  let cs := if cs.getLast? = some '#' then cs.dropLast else cs
  names.lookup (← belowSite? (String.ofList cs))

/-- The address of the schema that describes the schemas of a draft. -/
def address : Draft → String
  | four => "http://json-schema.org/draft-04/schema"
  | six => "http://json-schema.org/draft-06/schema"
  | seven => "http://json-schema.org/draft-07/schema"
  | of2019 => "https://json-schema.org/draft/2019-09/schema"
  | of2020 => "https://json-schema.org/draft/2020-12/schema"

/-- Keywords that came later than the others, with the number of the draft that brought them. -/
def later : List (String × Nat) :=
  [("const", 6), ("contains", 6), ("propertyNames", 6), ("if", 7), ("then", 7), ("else", 7),
    ("$recursiveRef", 2019), ("$recursiveAnchor", 2019), ("minContains", 2019),
    ("maxContains", 2019), ("dependentRequired", 2019), ("dependentSchemas", 2019),
    ("unevaluatedItems", 2019), ("unevaluatedProperties", 2019), ("$dynamicRef", 2020),
    ("$dynamicAnchor", 2020), ("prefixItems", 2020)]

/-- The number of the draft that brought a keyword. -/
def since (keyword : String) : Nat := (later.lookup keyword).getD 4

/-- Where further schemas stand, with the number of the draft from which on they do. -/
def homes : List (String × Arrangement × Nat) :=
  [("definitions", .fields, 4), ("not", .one, 4), ("allOf", .list, 4), ("anyOf", .list, 4),
    ("oneOf", .list, 4), ("properties", .fields, 4), ("additionalProperties", .one, 4),
    ("patternProperties", .fields, 4), ("items", .one, 4), ("items", .list, 4),
    ("additionalItems", .one, 4), ("dependencies", .fields, 4), ("propertyNames", .one, 6),
    ("contains", .one, 6), ("if", .one, 7), ("then", .one, 7), ("else", .one, 7),
    ("$defs", .fields, 2019), ("dependentSchemas", .fields, 2019),
    ("unevaluatedProperties", .one, 2019), ("unevaluatedItems", .one, 2019),
    ("contentSchema", .one, 2019), ("prefixItems", .list, 2020)]

/-- The values below a keyword, each with the steps that lead to it. -/
def below (keyword : String) (how : Arrangement) (v : Json) : List (List String × Json) :=
  match how, v with
  | .one, v => [([keyword], v)]
  | .list, .array elements => elements.zipIdx.map fun (e, i) => ([keyword, toString i], e)
  | .fields, .object fields => fields.map fun (name, f) => ([keyword, name], f)
  | _, _ => []

/-- The schemas that stand in a schema, each with the steps that lead to it. -/
def inner (d : Draft) (v : Json) : List (List String × Json) :=
  homes.flatMap fun (keyword, how, first) =>
    if first ≤ d.age then ((v.field? keyword).map (below keyword how)).getD [] else []

end Draft

end RuleScan.Schema
