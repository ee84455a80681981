import RuleScan.Failure
import RuleScan.Text.Quoted
import RuleScan.Path

/-!
# Commands

A command line is split into words, the words name a program, and the program answers.
-/

/-!
## The words of a command line

A command line is split at blanks.  Quotes keep blanks together, a backslash takes the next
character as it is, and everything from the first operator of the shell on is dropped.  Nothing is
substituted: back quotes and `$( )` only have to be closed.
-/

namespace RuleScan.Command

/-- How far the splitting has come. -/
structure Splitter where
  words : List String := []
  /-- The word in the making, with its characters in reverse. -/
  current : List Char := []
  /-- Whether there is a word in the making; it may be empty. -/
  started : Bool := false
  escaped : Bool := false
  doubleQuoted : Bool := false
  singleQuoted : Bool := false
  backQuoted : Bool := false
  /-- Inside `$( )`. -/
  nested : Bool := false
  deriving Repr, DecidableEq, Inhabited

namespace Splitter

/-- Whether some quote is still open. -/
def quoted (s : Splitter) : Bool :=
  s.singleQuoted || s.doubleQuoted || s.backQuoted || s.nested

/-- Adds a character to the word in the making. -/
def push (s : Splitter) (c : Char) : Splitter :=
  { s with current := c :: s.current, started := true }

/-- Ends the word in the making. -/
def finish (s : Splitter) : Splitter :=
  if s.started then
    { s with words := String.ofList s.current.reverse :: s.words, current := [], started := false }
  else s

/-- What a character does to the splitting. -/
inductive Step where
  | next (s : Splitter)
  /-- The rest of the line is dropped. -/
  | stop (s : Splitter)
  | refuse
  deriving Inhabited

/-- Whether the word starts with a digit. -/
def startsWithDigit (s : Splitter) : Bool := s.current.getLast?.any Char.isDigit

/-- A character that is neither escaped nor a blank. -/
def mark (s : Splitter) (c : Char) : Step :=
  if c = '`' && !(s.singleQuoted || s.doubleQuoted || s.nested) then
    .next ({ s with backQuoted := !s.backQuoted }.push c)
  else if c = ')' && !(s.singleQuoted || s.doubleQuoted || s.backQuoted) then
    .next ({ s with nested := !s.nested }.push c)
  else if c = '(' && !(s.singleQuoted || s.doubleQuoted || s.backQuoted) then
    if !s.nested && s.current.head? = some '$' then
      .next { s with nested := true, current := c :: s.current }
    else .refuse
  else if c = '"' && !(s.singleQuoted || s.nested) then
    .next { s with doubleQuoted := !s.doubleQuoted, started := s.started || s.doubleQuoted }
  else if c = '\'' && !(s.doubleQuoted || s.nested) then
    .next { s with singleQuoted := !s.singleQuoted, started := s.started || s.singleQuoted }
  else if [';', '&', '|', '<', '>'].contains c && !s.quoted then
    -- a number before `>` names a stream and is no word
    .stop (if c = '>' && s.startsWithDigit then { s with started := false } else s)
  else .next (s.push c)

/-- Takes one character. -/
def step (s : Splitter) (c : Char) : Step :=
  if s.escaped then .next ({ s with escaped := false }.push c)
  else if c = '\\' then
    .next (if s.singleQuoted then { s with current := c :: s.current } else { s with escaped := true })
  else if c = ' ' || c = '\t' || c = '\r' || c = '\n' then
    .next (if s.quoted then { s with current := c :: s.current } else s.finish)
  else s.mark c

/-- Takes all characters. -/
def run (s : Splitter) : List Char → Option Splitter
  | [] => some s
  | c :: rest =>
    match s.step c with
    | .next s => s.run rest
    | .stop s => some s
    | .refuse => none

end Splitter

/-- The words of a line; none if a quote is not closed. -/
def words? (line : String) : Option (List String) :=
  match Splitter.run {} line.toList with
  | none => none
  | some s =>
    if s.escaped || s.quoted then none else some s.finish.words.reverse

end RuleScan.Command

/-!
## Commands

A command is a program with its arguments and the environment it is started from.  The program
itself sees only a few variables of that environment.
-/

namespace RuleScan

/-- A program with its arguments. -/
structure Command where
  name : String
  arguments : List String := []
  /-- The environment as a list of entries `name=value`. -/
  environment : List String := []
  deriving Repr, DecidableEq, Inhabited

namespace Command

/-- The variables that a program may see. -/
def essentialNames : List String := ["PATH", "HOME", "USER", "TERM", "LANG", "SYSTEMROOT"]

/-- The name and value of an entry; an entry without `=` has none. -/
def nameAndValue? (entry : String) : Option (String × String) :=
  (Text.cut? ['='] entry.toList).map fun (name, value) =>
    (String.ofList name, String.ofList value)

/-- The value of a variable: that of the last entry with the name. -/
def lookup? (environment : List String) (name : String) : Option String :=
  (environment.reverse.findSome? fun e =>
    match nameAndValue? e with
    | some (n, value) => if n = name then some value else none
    | none => none)

/-- The environment that the program sees. -/
def visibleEnvironment (c : Command) : List String :=
  (essentialNames.filterMap fun name =>
    (lookup? c.environment name).map fun value => name ++ "=" ++ value).mergeSort (· ≤ ·)

/-- Why a line is no command. -/
inductive ParseError where
  | badLine (line : String)
  | empty
  deriving Repr, DecidableEq, Inhabited

/-- The text of the refusal. -/
def ParseError.message : ParseError → String
  | .badLine line => "parse command " ++ Text.quoted line ++ ": invalid command line string"
  | .empty => "empty command"

/-- The refusal as a failure. -/
def ParseError.failure (e : ParseError) : Failure :=
  match e with
  | .badLine _ => .plain e.message
  | .empty => .of .emptyCommand e.message

/-- Reads a command line. -/
def parse (environment : List String) (line : String) : Except ParseError Command :=
  match words? line with
  | none => .error (.badLine line)
  | some [] => .error .empty
  | some (name :: arguments) => .ok { name, arguments, environment }

/-- The command with more arguments. -/
def append (c : Command) (more : List String) : Command := { c with arguments := c.arguments ++ more }

/-- The command in messages. -/
def text (c : Command) : String := " ".intercalate (c.name :: c.arguments)

end Command

end RuleScan

/-!
## Programs

The programs that commands can start.  A program answers a call by its arguments, or one call
after the other with prepared responses, and keeps a record of its calls.
-/

namespace RuleScan

open RuleScan.Text (Bytes)

/-- What a program prints, and the code it ends with. -/
structure Response where
  stdout : Bytes := []
  stderr : Bytes := []
  exit : Int := 0
  deriving Repr, DecidableEq, Inhabited

/-- A program. -/
structure Program where
  name : String
  /-- The prepared responses, for the calls that are not answered by their arguments. -/
  responses : List Response := []
  /-- The arguments of the calls so far. -/
  calls : List (List String) := []
  /-- The response to a call with given arguments, where it depends on them. -/
  answer? : List String → Option Response := fun _ => none
  /-- What a call with given arguments has printed when it is stopped in the middle; a call for
  which there is nothing is stopped before it starts. -/
  stopped? : List String → Option Response := fun _ => none
  deriving Inhabited

/-- The prepared response to the next call; the last one is repeated. -/
def Program.next (p : Program) : Response :=
  (p.responses[p.calls.length]?).getD (p.responses.getLast?.getD {})

/-- The response to a call. -/
def Program.respond (p : Program) (arguments : List String) : Response :=
  (p.answer? arguments).getD p.next

/-- The programs of a directory. -/
structure Programs where
  directory : String := "/bin"
  programs : List Program := []
  deriving Inhabited

namespace Programs

/-- The program that a name stands for; a name with slashes is a path. -/
def find? (ps : Programs) (workingDirectory name : String) : Option Program :=
  let plain :=
    if name.toList.contains '/' then
      let path := Path.absolute workingDirectory name
      if Path.dir path = ps.directory then Path.base path else ""
    else name
  ps.programs.find? (·.name = plain)

/-- Records a call. -/
def record (ps : Programs) (name : String) (arguments : List String) : Programs :=
  { ps with programs := ps.programs.map fun p =>
      if p.name = name then { p with calls := p.calls ++ [arguments] } else p }

end Programs

end RuleScan
