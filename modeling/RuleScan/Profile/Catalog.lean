import RuleScan.Disk.Basic
import RuleScan.Profile.Document
import RuleScan.Text.Fuzzy

/-!
# Profiles known by name

The profiles that are always there, and the catalog that knows them.
-/

/-!
## Built-in profiles

The documents of the profiles that are always there, by name.
-/

namespace RuleScan.Profile

/-- Common security mistakes. -/
def securityDocument : String :=
  "name: security
description: Line-level checks for common security mistakes.
version: \"1.0.0\"
rules:
  - id: hardcoded-secret
    description: Credential assigned from a string literal
    severity: critical
    category: security
    cwe: CWE-798
    references:
      - https://cwe.mitre.org/data/definitions/798.html
    match:
      anyOf:
        - kind: regex
          value: '(password|passwd|secret|api_?key|access_?token)\\s*[:=]\\s*[\"''][^\"'']\x7b8,\x7d[\"'']'
          flags: i
    scope:
      exclude: [\"**/*.test.*\", \"**/*_test.go\", \"**/testdata/**\", \"**/fixtures/**\"]
    guidance: Load credentials from the environment or a secret manager.

  - id: private-key-material
    description: Private key committed to the repository
    severity: critical
    category: security
    cwe: CWE-321
    match:
      anyOf:
        - kind: regex
          value: '-----BEGIN (RSA |EC |OPENSSH |DSA )?PRIVATE KEY-----'

  - id: aws-access-key-id
    description: AWS access key ID
    severity: critical
    category: security
    cwe: CWE-798
    match:
      anyOf:
        - kind: regex
          value: '\\b(AKIA|ASIA)[0-9A-Z]\x7b16\x7d\\b'

  - id: dynamic-code-execution
    description: Dynamic code evaluation
    severity: high
    category: security
    cwe: CWE-95
    match:
      anyOf:
        - kind: regex
          value: '\\beval\\s*\\('
        - kind: regex
          value: '\\bnew Function\\s*\\('
    scope:
      include: [\"**/*.js\", \"**/*.jsx\", \"**/*.ts\", \"**/*.tsx\", \"**/*.py\"]

  - id: sql-string-concatenation
    description: SQL statement built by string concatenation or formatting
    severity: high
    category: security
    cwe: CWE-89
    match:
      allOf:
        - kind: regex
          value: '\\b(SELECT|INSERT|UPDATE|DELETE)\\b.+\\b(FROM|INTO|SET|WHERE)\\b'
          flags: i
        - kind: regex
          value: '(\\+\\s*\\w+|\\$\\\x7b|%s|fmt\\.Sprintf|\\.format\\()'
    guidance: Use parameterized queries.

  - id: insecure-tls
    description: TLS certificate verification disabled
    severity: high
    category: security
    cwe: CWE-295
    match:
      anyOf:
        - kind: literal
          value: 'InsecureSkipVerify: true'
        - kind: literal
          value: 'rejectUnauthorized: false'
        - kind: literal
          value: 'verify=False'
        - kind: literal
          value: NODE_TLS_REJECT_UNAUTHORIZED

  - id: weak-hash
    description: Weak hash algorithm
    severity: medium
    category: security
    cwe: CWE-328
    match:
      anyOf:
        - kind: regex
          value: '\\b(md5|sha1)\\b'
          flags: i
    scope:
      exclude: [\"**/*.md\", \"**/*.lock\", \"**/go.sum\", \"**/package-lock.json\"]
"

/-- Escape hatches of the type checker. -/
def typescriptStrictDocument : String :=
  "name: typescript-strict
description: Discourages escapes from the TypeScript type system.
version: \"1.0.0\"
rules:
  - id: no-explicit-any
    description: Explicit any type
    severity: medium
    category: typing
    match:
      anyOf:
        - kind: regex
          value: ':\\s*any\\b'
        - kind: regex
          value: '\\bas any\\b'
        - kind: literal
          value: '<any>'
    scope:
      include: [\"**/*.ts\", \"**/*.tsx\"]
      exclude: [\"**/*.d.ts\"]
    guidance: Use unknown, a generic, or a precise type.

  - id: no-ts-ignore
    description: Type checking suppressed with a comment directive
    severity: high
    category: typing
    match:
      anyOf:
        - kind: literal
          value: '@ts-ignore'
        - kind: literal
          value: '@ts-nocheck'
    scope:
      include: [\"**/*.ts\", \"**/*.tsx\"]
    guidance: Fix the type error, or use @ts-expect-error with an explanation.

  - id: no-non-null-assertion
    description: Non-null assertion operator
    severity: low
    category: typing
    match:
      anyOf:
        - kind: regex
          value: '\\w[\\])]?!\\.'
    scope:
      include: [\"**/*.ts\", \"**/*.tsx\"]

  - id: no-eslint-disable-types
    description: Type-safety lint rules disabled inline
    severity: medium
    category: typing
    match:
      allOf:
        - kind: literal
          value: eslint-disable
        - kind: literal
          value: '@typescript-eslint/no-explicit-any'
    scope:
      include: [\"**/*.ts\", \"**/*.tsx\"]
"

/-- Unfinished work. -/
def zeroPreguicaDocument : String :=
  "name: zero-preguica
description: Flags unfinished, placeholder, and debug-only code left behind.
version: \"1.0.0\"
metadata:
  maintainer: guardrail
rules:
  - id: no-todo-comments
    description: TODO or FIXME comment left in code
    severity: low
    category: maintainability
    match:
      anyOf:
        - kind: regex
          value: '\\b(TODO|FIXME|XXX|HACK)\\b'
    scope:
      exclude: [\"**/*.md\", \"CHANGELOG*\"]
    guidance: Resolve the work item or track it in an issue instead of a comment.

  - id: no-not-implemented
    description: Placeholder implementation that always fails
    severity: high
    category: correctness
    match:
      anyOf:
        - kind: regex
          value: 'throw new Error\\([\"'']not implemented'
          flags: i
        - kind: literal
          value: 'panic(\"not implemented\")'
        - kind: literal
          value: raise NotImplementedError
        - kind: literal
          value: 'unimplemented!('
    guidance: Implement the function or remove it.

  - id: no-console-debug
    description: Debug logging left in source
    severity: medium
    category: maintainability
    match:
      anyOf:
        - kind: regex
          value: 'console\\.(log|debug|trace)\\('
    scope:
      include: [\"**/*.js\", \"**/*.jsx\", \"**/*.ts\", \"**/*.tsx\"]
      exclude: [\"**/*.test.*\", \"**/*.spec.*\", \"scripts/**\"]
    guidance: Use the project logger or remove the statement.

  - id: no-debugger-statement
    description: Debugger statement left in source
    severity: high
    category: correctness
    match:
      anyOf:
        - kind: regex
          value: '^\\s*debugger;?\\s*$'
    scope:
      include: [\"**/*.js\", \"**/*.jsx\", \"**/*.ts\", \"**/*.tsx\"]

  - id: no-empty-catch
    description: Exception swallowed by an empty catch block
    severity: medium
    category: correctness
    match:
      anyOf:
        - kind: regex
          value: 'catch\\s*(\\([^)]*\\))?\\s*\\\x7b\\s*\\\x7d'
        - kind: regex
          value: 'except(\\s+\\w+)?\\s*:\\s*pass\\b'
    guidance: Handle the error, or log it with enough context to debug later.

  - id: no-focused-tests
    description: Focused or skipped test left in the suite
    severity: medium
    category: testing
    match:
      anyOf:
        - kind: regex
          value: '\\b(describe|it|test)\\.(only|skip)\\('
        - kind: regex
          value: '\\b(fdescribe|fit|xdescribe|xit)\\('
    scope:
      include: [\"**/*.test.*\", \"**/*.spec.*\"]
"

/-- The built-in documents by name. -/
def builtinDocuments : List (String × String) :=
  [("security", securityDocument),
    ("typescript-strict", typescriptStrictDocument),
    ("zero-preguica", zeroPreguicaDocument)]

end RuleScan.Profile

/-!
## The catalog of profiles

A catalog knows a fixed set of profiles by name.  A file in the directory for overrides of a
project takes the place of the built-in profile of the same name, but adds no name.
-/

namespace RuleScan

/-- The profiles known by name. -/
structure Catalog where
  /-- The project whose overrides count. -/
  root : String
  /-- The built-in documents by name. -/
  documents : List (String × String) := Profile.builtinDocuments
  deriving Inhabited

/-- Where a project keeps its own versions of profiles. -/
def Catalog.overrideDirectory : String := ".guardrails/profiles"

namespace Catalog

/-- A catalog with built-in documents from files: a file at the top whose name ends in `.yaml`
counts under the name before that. -/
def ofFiles (root : String) (files : List (String × String)) : Catalog :=
  { root
    documents := files.filterMap fun (file, text) =>
      if file.toList.contains '/' then none
      else (Text.stripEnd? ".yaml" file).map (·, text) }

/-- The names of the profiles in order. -/
def names (c : Catalog) : List String := (c.documents.map (·.1)).mergeSort (· ≤ ·)

/-- Whether a name is known. -/
def has (c : Catalog) (name : String) : Bool := c.names.contains name

/-- The file that would take the place of a profile. -/
def overridePath (c : Catalog) (name : String) : String :=
  Path.join [c.root, overrideDirectory, name ++ ".yaml"]

/-- The known names that resemble a name, best first. -/
def suggest (c : Catalog) (name : String) : List String := Text.Fuzzy.find name c.names

end Catalog

/-- Loads the profile in a file. -/
def Profile.loadFile (d : Disk) (path : String) : Except Failure Profile := do
  let content ← (d.readRegular path).mapError (Failure.during · "load profile")
  Profile.load (Text.textOf content) path

/-- What is wrong with the profile in a file, in words. -/
def Profile.complaints (d : Disk) (path : String) : List String :=
  match Profile.loadFile d path with
  | .ok _ => []
  | .error f =>
    match f.profile with
    | some (.invalid _ errors) => errors
    | _ => [f.message]

/-- Loads a profile by name. -/
def Catalog.load (c : Catalog) (d : Disk) (name : String) : Except Failure Profile :=
  match c.documents.find? (·.1 = name) with
  | none => .error (.of .unknownProfile ("unknown profile: " ++ Text.quoted name))
  | some (_, text) =>
    let path := c.overridePath name
    match d.stat path with
    | .ok _ => Profile.loadFile d path
    | .error .notExist => Profile.load text ("builtin:" ++ name)
    | .error f => .error ((f.failure "stat" path).during "stat override")

end RuleScan
