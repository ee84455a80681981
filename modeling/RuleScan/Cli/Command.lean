import RuleScan.Cli.Flag

/-!
# Commands

The commands of the program, the flags and arguments they take, and how the command is found among
the arguments.  Flags may stand before the command; a flag of which nothing is known there is taken
to have a value.
-/

namespace RuleScan.Cli

/-- What the program can be asked for. -/
inductive Verb where
  | scan
  | validate
  | profiles
  | spec
  | diff
  | schema
  | init
  /-- The help on the commands, and the scripts that complete them. -/
  | help
  | completion
  deriving Repr, DecidableEq, Inhabited

/-- How many arguments a command takes beside its flags. -/
inductive Arity where
  | any
  | none
  | atMost (n : Nat)
  | atLeast (n : Nat)
  | exactly (n : Nat)
  deriving Repr, DecidableEq, Inhabited

namespace Verb

/-- The commands in the order in which they are told of. -/
def all : List Verb :=
  [.scan, .validate, .profiles, .spec, .diff, .schema, .init, .help, .completion]

/-- The name of a command. -/
def name : Verb → String
  | .scan => "scan"
  | .validate => "validate"
  | .profiles => "profiles"
  | .spec => "spec"
  | .diff => "diff"
  | .schema => "schema"
  | .init => "init"
  | .help => "help"
  | .completion => "completion"

/-- The command of a name. -/
def ofName? (name : String) : Option Verb := all.find? (·.name = name)

/-- The arguments of a command. -/
def arity : Verb → Arity
  | .scan | .profiles | .spec => .atMost 1
  | .validate => .atLeast 1
  | .diff => .exactly 2
  | .schema | .init => .none
  | .help | .completion => .any

/-- The flags of a command itself. -/
def ownFlags : Verb → List Flag
  | .scan =>
    [{ name := "profile", letter := some 'p' }, { name := "spec" },
      { name := "files", kind := .texts }, { name := "exclude", kind := .texts },
      { name := "format", letter := some 'f' }, { name := "output", letter := some 'o' },
      { name := "search-cmd" }, { name := "strict-search", kind := .switch },
      { name := "concurrency", kind := .whole }, { name := "timeout" },
      { name := "watch", letter := some 'w', kind := .switch }]
  | .spec => [{ name := "spec" }]
  | .schema => [{ name := "kind", bound := false }]
  | .init => [{ name := "force", kind := .switch, bound := false }]
  | _ => []

end Verb

/-- The flags of all commands. -/
def commonFlags : List Flag :=
  [{ name := "log-level" }, { name := "log-format" }, { name := "config" }]

/-- The flag that asks for help. -/
def helpFlag : Flag := { name := "help", letter := some 'h', kind := .switch, bound := false }

/-- The flags of a command; without one, those of the program itself. -/
def flagsOf (v : Option Verb) : List Flag :=
  (v.map Verb.ownFlags).getD [] ++ commonFlags ++ [helpFlag]

/-- What is wrong with the number of arguments of a command. -/
def Verb.misfit? (v : Verb) (args : List String) : Option UsageError :=
  match v.arity with
  | .any => none
  | .none => args.head?.map fun a => .unknownCommand a (programName ++ " " ++ v.name) []
  | .atMost n => if args.length > n then some (.tooMany n args.length) else none
  | .atLeast n => if args.length < n then some (.tooFew n args.length) else none
  | .exactly n => if args.length ≠ n then some (.wrongNumber n args.length) else none

/-! ## Finding the command -/

/-- Whether an argument before the command is a flag whose value is the next argument. -/
def takesNext (arg : String) : Bool :=
  match arg.toList with
  | '-' :: '-' :: cs => !cs.contains '='
  | ['-', c] => c.toNat < 128 && c ≠ '='
  | _ => false

/-- The arguments before a double dash that are neither flags nor values of flags. -/
def bareArguments : List String → List String
  | [] => []
  | arg :: rest =>
    if arg = "--" then []
    else if takesNext arg then
      match rest with
      | _ :: next :: others => bareArguments (next :: others)
      | _ => []
    else if arg = "" || arg.toList.head? = some '-' then bareArguments rest
    else arg :: bareArguments rest
termination_by args => args.length

/-- The arguments without the first one that is the name of the command. -/
def withoutCommand (name : String) : List String → List String
  | [] => []
  | arg :: rest =>
    if arg = "--" then arg :: rest
    else if takesNext arg then
      match rest with
      | value :: others => arg :: value :: withoutCommand name others
      | [] => [arg]
    else if arg = name then rest
    else arg :: withoutCommand name rest
termination_by args => args.length

/-- The row of distances from texts with one more character to the fronts of another text. -/
def distanceRow (c : UInt8) : List UInt8 → List Nat → Nat → List Nat
  | t :: ts, diagonal :: up :: above, left =>
    let n := if c = t then diagonal else 1 + min (min up left) diagonal
    n :: distanceRow c ts (up :: above) n
  | _, _, _ => []

/-- How many bytes have to be put in, taken out or replaced to turn one text into another. -/
def distance (a b : List UInt8) : Nat :=
  let next (row : List Nat) (c : UInt8) : List Nat :=
    let first := row.headD 0 + 1
    first :: distanceRow c b row first
  (a.foldl next (List.range (b.length + 1))).getLastD 0

/-- The commands with a name like the one that was written. -/
def similarCommands (written : String) : List String :=
  let low := Unicode.lowerText written
  ((Verb.all.filter (· ≠ .help)).map Verb.name).filter fun name =>
    distance (Text.bytesOf low) (Text.bytesOf name) ≤ 2 || low.toList.isPrefixOf name.toList

/-- The command among the arguments and the arguments without it.  Without any command the program
itself is asked. -/
def findCommand (args : List String) : Except UsageError (Option Verb × List String) :=
  match bareArguments args with
  | [] => .ok (none, args)
  | name :: _ =>
    match Verb.ofName? name with
    | some v => .ok (some v, withoutCommand name args)
    | none => .error (.unknownCommand name programName (similarCommands name))

end RuleScan.Cli
