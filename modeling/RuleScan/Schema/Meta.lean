import RuleScan.Schema.Sheet

/-!
# The schemas of schemas

Every draft of the language describes its own schemas by a schema.  The two latest split it into
parts by the vocabulary that a part describes.  Only what a schema has to fulfil is kept here; notes
and defaults are left out.
-/

namespace RuleScan.Schema.Meta

/-- A schema that asks for a type. -/
def typed (name : String) (more : List (String × Json)) : Json :=
  .object (("type", .string name) :: more)

/-- A text. -/
def text : Json := typed "string" []

/-- A text in a format. -/
def formatted (format : String) : Json := typed "string" [("format", .string format)]

/-- A number. -/
def number : Json := typed "number" []

/-- A truth value. -/
def flag : Json := typed "boolean" []

/-- A schema that allows all values. -/
def anything : Json := .bool true

/-- One of several schemas. -/
def either (schemas : List Json) : Json := .object [("anyOf", .array schemas)]

/-- The same schema for several fields. -/
def alike (schema : Json) (names : List String) : List (String × Json) := names.map (·, schema)

/-- An object whose fields all fulfil a schema. -/
def mapTo (schema : Json) : Json := typed "object" [("additionalProperties", schema)]

/-- A reference by a keyword. -/
def link (keyword target : String) : Json := .object [(keyword, .string target)]

/-- A list without repetitions. -/
def distinct (more : List (String × Json)) : Json :=
  typed "array" (more ++ [("uniqueItems", .bool true)])

/-- The names of types. -/
def simpleTypes : Json :=
  .object [("enum", Json.strings
    ["array", "boolean", "integer", "null", "number", "object", "string"])]

/-- A list of schemas, of which there is at least one. -/
def schemaList (self : Json) : Json := typed "array" [("minItems", .int 1), ("items", self)]

/-- A whole number that is not negative. -/
def count : Json := typed "integer" [("minimum", .int 0)]

/-- A type or a list of types. -/
def typeChoice (types : Json) : Json :=
  either [types, distinct [("items", types), ("minItems", .int 1)]]

/-- Definitions that all drafts share; `word` is what counts are called. -/
def shared (self : Json) (word : String) (texts : List (String × Json)) : Json :=
  .object [("schemaArray", schemaList self), (word, count),
    (word ++ "Default0", .object [("allOf", .array [link "$ref" ("#/definitions/" ++ word)])]),
    ("simpleTypes", simpleTypes), ("stringArray", distinct (("items", text) :: texts))]

/-- A reference to a definition of the same document. -/
def definition (name : String) : Json := link "$ref" ("#/definitions/" ++ name)

/-- The keywords on sizes. -/
def sizes (word : String) : List (String × Json) :=
  alike (definition word) ["maxLength", "maxItems", "maxProperties"] ++
    alike (definition (word ++ "Default0")) ["minLength", "minItems", "minProperties"]

/-- The fourth draft. -/
def draft4 : Json :=
  let self := link "$ref" "#"
  let word := "positiveInteger"
  let flagOrSelf := either [flag, self]
  typed "object" [
    ("id", .string "http://json-schema.org/draft-04/schema#"),
    ("$schema", .string "http://json-schema.org/draft-04/schema#"),
    ("definitions", shared self word [("minItems", .int 1)]),
    ("properties", .object ([
      ("id", formatted "uriref"), ("$schema", formatted "uri"),
      ("multipleOf", typed "number" [("minimum", .int 0), ("exclusiveMinimum", .bool true)]),
      ("pattern", formatted "regex"), ("items", either [self, definition "schemaArray"]),
      ("required", definition "stringArray"),
      ("dependencies", mapTo (either [self, definition "stringArray"])),
      ("enum", distinct [("minItems", .int 1)]), ("type", typeChoice (definition "simpleTypes")),
      ("not", self)] ++
      alike text ["title", "description", "format"] ++ alike number ["maximum", "minimum"] ++
      alike flag ["exclusiveMaximum", "exclusiveMinimum", "uniqueItems"] ++ sizes word ++
      alike flagOrSelf ["additionalItems", "additionalProperties"] ++
      alike (mapTo self) ["definitions", "properties", "patternProperties"] ++
      alike (definition "schemaArray") ["allOf", "anyOf", "oneOf"])),
    ("dependencies", .object [("exclusiveMaximum", Json.strings ["maximum"]),
      ("exclusiveMinimum", Json.strings ["minimum"])])]

/-- What the sixth and the seventh draft share. -/
def draft67 (address : String) (choice : Json) (more : List (String × Json)) : Json :=
  let self := link "$ref" "#"
  let word := "nonNegativeInteger"
  .object [
    ("$schema", .string address), ("$id", .string address),
    ("definitions", shared self word []),
    ("type", Json.strings ["object", "boolean"]),
    ("properties", .object ([
      ("$schema", formatted "uri"),
      ("multipleOf", typed "number" [("exclusiveMinimum", .int 0)]),
      ("pattern", formatted "regex"), ("items", either [self, definition "schemaArray"]),
      ("uniqueItems", flag), ("required", definition "stringArray"),
      ("dependencies", mapTo (either [self, definition "stringArray"])),
      ("enum", choice), ("type", typeChoice (definition "simpleTypes")),
      ("examples", typed "array" [])] ++
      alike (formatted "uri-reference") ["$id", "$ref"] ++
      alike text ["title", "description", "format"] ++
      alike number ["maximum", "minimum", "exclusiveMaximum", "exclusiveMinimum"] ++ sizes word ++
      alike self ["additionalItems", "additionalProperties", "contains", "propertyNames", "not"] ++
      alike (mapTo self) ["definitions", "properties"] ++
      alike (definition "schemaArray") ["allOf", "anyOf", "oneOf"] ++ more))]

/-- The sixth draft. -/
def draft6 : Json :=
  draft67 "http://json-schema.org/draft-06/schema#" (distinct [("minItems", .int 1)])
    [("patternProperties", mapTo (link "$ref" "#"))]

/-- The seventh draft. -/
def draft7 : Json :=
  let self := link "$ref" "#"
  draft67 "http://json-schema.org/draft-07/schema#" (typed "array" [("items", anything)])
    ([("patternProperties", typed "object" [("additionalProperties", self),
      ("propertyNames", .object [("format", .string "regex")])])] ++
      alike text ["$comment", "contentMediaType", "contentEncoding"] ++
      alike flag ["readOnly", "writeOnly"] ++ alike self ["if", "then", "else"])

/-- A part of a later draft: it names itself, so that the whole can be put in its place. -/
def part (d : Draft) (name : String) (properties : List (String × Json))
    (more : List (String × Json)) : Json :=
  let site := match d with
    | .of2019 => "https://json-schema.org/draft/2019-09/"
    | _ => "https://json-schema.org/draft/2020-12/"
  .object ([("$schema", .string (site ++ "schema")), ("$id", .string (site ++ name)),
    (match d with
      | .of2019 => ("$recursiveAnchor", .bool true)
      | _ => ("$dynamicAnchor", .string "meta")),
    ("type", Json.strings ["object", "boolean"]), ("properties", .object properties)] ++ more)

/-- The reference of a later draft to the whole of itself. -/
def whole : Draft → Json
  | .of2019 => link "$recursiveRef" "#"
  | _ => link "$dynamicRef" "#meta"

/-- A reference to a definition of the same part. -/
def defined (name : String) : Json := link "$ref" ("#/$defs/" ++ name)

/-- Keywords that hold schemas. -/
def applicator (d : Draft) : Json :=
  let self := whole d
  let lists := ["allOf", "anyOf", "oneOf"]
  let singles := ["contains", "additionalProperties", "propertyNames", "if", "then", "else", "not"]
  part d "meta/applicator"
    ([("patternProperties", typed "object" [("additionalProperties", self),
        ("propertyNames", .object [("format", .string "regex")])])] ++
      alike (mapTo self) ["properties", "dependentSchemas"] ++
      match d with
      | .of2019 =>
        [("items", either [self, defined "schemaArray"])] ++
          alike self (singles ++ ["additionalItems", "unevaluatedItems",
            "unevaluatedProperties"]) ++ alike (defined "schemaArray") lists
      | _ => alike self ("items" :: singles) ++ alike (defined "schemaArray") ("prefixItems" :: lists))
    [("$defs", .object [("schemaArray", schemaList self)])]

/-- Keywords that limit values. -/
def validation (d : Draft) : Json :=
  part d "meta/validation"
    ([("type", typeChoice (defined "simpleTypes")), ("enum", typed "array" [("items", anything)]),
      ("multipleOf", typed "number" [("exclusiveMinimum", .int 0)]),
      ("pattern", formatted "regex"), ("uniqueItems", flag),
      ("required", defined "stringArray"), ("dependentRequired", mapTo (defined "stringArray"))] ++
      alike number ["maximum", "minimum", "exclusiveMaximum", "exclusiveMinimum"] ++
      alike (defined "nonNegativeInteger")
        ["maxLength", "maxItems", "maxProperties", "maxContains", "minContains"] ++
      alike (defined "nonNegativeIntegerDefault0") ["minLength", "minItems", "minProperties"])
    [("$defs", .object [("nonNegativeInteger", count),
      ("nonNegativeIntegerDefault0", defined "nonNegativeInteger"),
      ("simpleTypes", simpleTypes), ("stringArray", distinct [("items", text)])])]

/-- Keywords with notes. -/
def notes (d : Draft) : Json :=
  part d "meta/meta-data"
    (alike text ["title", "description"] ++ alike flag ["deprecated", "readOnly", "writeOnly"] ++
      [("examples", typed "array" [("items", anything)])]) []

/-- Keywords on texts that hold other documents. -/
def content (d : Draft) : Json :=
  part d "meta/content"
    (alike text ["contentMediaType", "contentEncoding"] ++ [("contentSchema", whole d)]) []

/-- The whole of a later draft, made of its parts. -/
def assembled (d : Draft) (parts : List String) (more : List (String × Json)) : Json :=
  part d "schema"
    ([("definitions", mapTo (whole d)),
      ("dependencies",
        mapTo (either [whole d, link "$ref" "meta/validation#/$defs/stringArray"]))] ++ more)
    [("allOf", .array (parts.map fun p => link "$ref" ("meta/" ++ p)))]

/-- The keyword that lists vocabularies. -/
def vocabulary (name : Json) : String × Json :=
  ("$vocabulary", typed "object" [("propertyNames", name), ("additionalProperties", flag)])

/-- Keywords on addresses and names in the draft of 2019. -/
def core2019 : Json :=
  part .of2019 "meta/core"
    ([("$id", typed "string" [("format", .string "uri-reference"),
        ("pattern", .string "^[^#]*#?$")]),
      ("$schema", formatted "uri"),
      ("$anchor", typed "string" [("pattern", .string "^[A-Za-z][-A-Za-z0-9.:_]*$")]),
      ("$recursiveAnchor", flag), ("$comment", text), ("$defs", mapTo (whole .of2019)),
      vocabulary (formatted "uri")] ++
      alike (formatted "uri-reference") ["$ref", "$recursiveRef"]) []

/-- Keywords on addresses and names in the draft of 2020. -/
def core2020 : Json :=
  part .of2020 "meta/core"
    ([("$id", .object [("$ref", .string "#/$defs/uriReferenceString"),
        ("pattern", .string "^[^#]*#?$")]),
      ("$schema", defined "uriString"), ("$comment", text), ("$defs", mapTo (whole .of2020)),
      vocabulary (defined "uriString")] ++
      alike (defined "uriReferenceString") ["$ref", "$dynamicRef"] ++
      alike (defined "anchorString") ["$anchor", "$dynamicAnchor"])
    [("$defs", .object [
      ("anchorString", typed "string" [("pattern", .string "^[A-Za-z_][-A-Za-z0-9._]*$")]),
      ("uriString", formatted "uri"), ("uriReferenceString", formatted "uri-reference")])]

/-- The documents by their names below the site of the language. -/
def documents : List (String × Json) :=
  let format (d : Draft) (name : String) : Json := part d name [("format", text)] []
  let whole2020 := assembled .of2020 ["core", "applicator", "unevaluated", "validation",
      "meta-data", "format-annotation", "content"]
    [("$recursiveAnchor", link "$ref" "meta/core#/$defs/anchorString"),
      ("$recursiveRef", link "$ref" "meta/core#/$defs/uriReferenceString")]
  let at2019 (name : String) : String := "draft/2019-09/" ++ name
  let at2020 (name : String) : String := "draft/2020-12/" ++ name
  [("draft-04/schema", draft4), ("draft-06/schema", draft6), ("draft-07/schema", draft7),
    (at2019 "schema", assembled .of2019
      ["core", "applicator", "validation", "meta-data", "format", "content"] []),
    (at2019 "meta/core", core2019), (at2019 "meta/applicator", applicator .of2019),
    (at2019 "meta/validation", validation .of2019), (at2019 "meta/meta-data", notes .of2019),
    (at2019 "meta/format", format .of2019 "meta/format"),
    (at2019 "meta/content", content .of2019),
    ("schema", whole2020), (at2020 "schema", whole2020), (at2020 "meta/core", core2020),
    (at2020 "meta/applicator", applicator .of2020),
    (at2020 "meta/unevaluated", part .of2020 "meta/unevaluated"
      (alike (whole .of2020) ["unevaluatedItems", "unevaluatedProperties"]) []),
    (at2020 "meta/validation", validation .of2020), (at2020 "meta/meta-data", notes .of2020),
    (at2020 "meta/format-annotation", format .of2020 "meta/format-annotation"),
    (at2020 "meta/format-assertion", format .of2020 "meta/format-assertion"),
    (at2020 "meta/content", content .of2020)]

/-- The documents as sheets. -/
def sheets : List (String × Sheet) :=
  documents.filterMap fun (name, v) =>
    (Sheet.make? ("https://json-schema.org/" ++ name) v).map (name, ·)

/-- The document of the language at an address. -/
def sheet? (address : String) : Option Sheet := do
  let s ← sheets.lookup (← Draft.belowSite? address)
  return { s with address }

end RuleScan.Schema.Meta
