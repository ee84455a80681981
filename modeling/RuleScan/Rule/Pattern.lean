import RuleScan.Regex.Parse
import RuleScan.Regex.Program
import RuleScan.Text.Quoted

/-!
# Patterns

A pattern is a fixed text or a regular expression that is looked for in the lines of a file.
`Pattern` is what a document says; `Matcher` is the pattern made ready for searching, and exists
only for patterns that make sense.
-/

namespace RuleScan

open RuleScan.Text

/-- The kind of a pattern. -/
inductive Pattern.Kind where
  | literal
  | regex
  /-- Any other name; the empty name stands for none given. -/
  | other (name : String)
  deriving Repr, DecidableEq, Inhabited

/-- The name of a kind in documents. -/
def Pattern.Kind.name : Kind → String
  | .literal => "literal"
  | .regex => "regex"
  | .other name => name

/-- The kind of a name. -/
def Pattern.Kind.ofName (name : String) : Kind :=
  if name = "literal" then .literal else if name = "regex" then .regex else .other name

/-- One fixed text or regular expression to look for. -/
structure Pattern where
  kind : Pattern.Kind
  value : String
  flags : String
  deriving Repr, DecidableEq, Inhabited

namespace Pattern

/-- A pattern without a kind is a literal. -/
def withDefaults (p : Pattern) : Pattern :=
  if p.kind = .other "" then { p with kind := .literal } else p

/-- A pattern with the default kind filled in. -/
def make (kind value flags : String) : Pattern := withDefaults ⟨.ofName kind, value, flags⟩

/-- A fixed text. -/
def literal (value : String) : Pattern := ⟨.literal, value, ""⟩

/-- A regular expression. -/
def regex (value : String) : Pattern := ⟨.regex, value, ""⟩

/-- Whether letter case is ignored: only regular expressions can ask for it. -/
def ignoresCase (p : Pattern) : Bool := p.kind = .regex && p.flags.toList.contains 'i'

/-- The pattern in messages. -/
def text (p : Pattern) : String :=
  let front := p.kind.name ++ ":" ++ p.value
  if p.flags.isEmpty then front else front ++ " (" ++ p.flags ++ ")"

/-- Why a pattern cannot be searched for. -/
inductive Error where
  | empty
  | unknownKind (name : String)
  | badRegex (value : String) (cause : Regex.ParseError)
  deriving Repr, DecidableEq, Inhabited

/-- The text of the refusal. -/
def Error.message : Error → String
  | .empty => "empty pattern value"
  | .unknownKind name => "unknown pattern kind: " ++ quoted name
  | .badRegex value cause => "compile regex " ++ quoted value ++ ": " ++ cause.message

end Pattern

/-- A pattern ready for searching. -/
structure Matcher where
  pattern : Pattern
  /-- The program of a regular expression; a literal needs none. -/
  program : Option Regex.Program
  /-- The bytes of a literal. -/
  needle : Bytes
  deriving Inhabited

/-- Makes a pattern ready for searching. -/
def Pattern.compile (p : Pattern) : Except Pattern.Error Matcher :=
  let p := p.withDefaults
  if p.value = "" then .error .empty
  else match p.kind with
    | .literal => .ok ⟨p, none, bytesOf p.value⟩
    | .regex =>
      let expression := if p.ignoresCase then "(?i)" ++ p.value else p.value
      match Regex.parse expression with
      | .error e => .error (.badRegex p.value e)
      | .ok r => .ok ⟨p, some (Regex.compile r), []⟩
    | .other name => .error (.unknownKind name)

/-- The byte column, counted from one, where a line first matches. -/
def Matcher.find? (m : Matcher) (line : Bytes) : Option Nat :=
  match m.program with
  | some p => (Regex.search? p (decode line)).map (· + 1)
  | none => (indexOf? m.needle line).map (· + 1)

end RuleScan
