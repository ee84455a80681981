import RuleScan.Expr.Predicate
import RuleScan.Glob.Compile
import RuleScan.Path
import RuleScan.Text.Quoted

/-!
# Globs and scopes

Sets of globs, and the scopes of rules, which are made of them.
-/

/-!
## Sets of globs

Scopes and exclusions are lists of globs.  A glob that starts with `**/` also matches at the root,
and every glob may match the whole path or only its last element.
-/

namespace RuleScan

/-- Compiled globs, any of which may match. -/
abbrev GlobSet := List Glob

/-- A glob that cannot be read. -/
structure GlobSet.Error where
  glob : String
  cause : Glob.ParseError
  deriving Repr, DecidableEq, Inhabited

/-- The text of the refusal. -/
def GlobSet.Error.message (e : GlobSet.Error) : String :=
  "invalid glob " ++ Text.quoted e.glob ++ ": " ++ e.cause.message

namespace GlobSet

/-- The globs that one written pattern stands for; a blank pattern stands for none. -/
def ofPattern (pattern : String) : Except Error GlobSet :=
  let p := Text.trim pattern
  if p.isEmpty then .ok []
  else
    let compiled (text : String) : Except Error Glob := (Glob.ofText text).mapError (⟨p, ·⟩)
    match p.toList with
    | '*' :: '*' :: '/' :: c :: rest => do
      return [← compiled p, ← compiled (String.ofList (c :: rest))]
    | _ => do return [← compiled p]

/-- Compiles written patterns. -/
def ofPatterns (patterns : List String) : Except Error GlobSet := do
  return (← patterns.mapM ofPattern).flatten

/-- Whether some glob matches a path or its last element. -/
def accepts (set : GlobSet) (file : String) : Bool :=
  set.any fun g => g.accepts file || g.accepts (Path.base file)

end GlobSet

end RuleScan

/-!
## Scopes

A scope narrows the files a rule applies to: by globs of which one has to match, by globs of which
none may match, and by a condition on the path.  A condition that fails puts the file out of
scope.
-/

namespace RuleScan

/-- The files a rule applies to.  A list that is absent differs from an empty one only where two
scopes are compared. -/
structure Scope where
  includes : Option (List String) := none
  excludes : Option (List String) := none
  condition : String := ""
  deriving Repr, DecidableEq, Inhabited

namespace Scope

/-- Whether a scope narrows nothing; no scope narrows nothing either. -/
def isEmpty : Option Scope → Bool
  | none => true
  | some s =>
    (s.includes.getD []).isEmpty && (s.excludes.getD []).isEmpty && s.condition = ""

/-- Why a scope makes no sense. -/
inductive Error where
  | includes (e : GlobSet.Error)
  | excludes (e : GlobSet.Error)
  | condition (e : Predicate.CompileError)
  deriving Inhabited

/-- The text of the refusal. -/
def Error.message : Error → String
  | .includes e => "include: " ++ e.message
  | .excludes e => "exclude: " ++ e.message
  | .condition e => "when: " ++ e.message

/-- A scope made ready for matching. -/
structure Compiled where
  includes : GlobSet := []
  excludes : GlobSet := []
  condition : Option Predicate := none
  deriving Inhabited

/-- Makes a scope ready; no scope matches every file. -/
def compile : Option Scope → Except Error Compiled
  | none => .ok {}
  | some s => do
    let includes ← (GlobSet.ofPatterns (s.includes.getD [])).mapError .includes
    let excludes ← (GlobSet.ofPatterns (s.excludes.getD [])).mapError .excludes
    if s.condition = "" then return { includes, excludes }
    let p ← (Predicate.compile s.condition).mapError .condition
    return { includes, excludes, condition := some p }

/-- Whether a condition holds of a file; without a condition it does. -/
def holds (condition : Option Predicate) (file : String) : Bool :=
  match condition with
  | none => true
  | some p =>
    match p.eval file with
    | .ok b => b
    | .error _ => false

/-- Whether a file is in scope. -/
def Compiled.accepts (s : Compiled) (file : String) : Bool :=
  (s.includes.isEmpty || GlobSet.accepts s.includes file) &&
    !GlobSet.accepts s.excludes file && holds s.condition file

end Scope

end RuleScan
