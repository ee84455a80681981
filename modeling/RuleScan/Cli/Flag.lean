import RuleScan.Decimal.Read
import RuleScan.Settings.Files
import RuleScan.Text.Csv
import RuleScan.Text.Quoted

/-!
# Flags and their values

Integers as they are written on a command line, and the flags that take them.
-/

/-!
## Written integers

Integers as they are written on a command line: with a sign, in the base that their front tells,
with low lines between the digits, and within 64 bits.
-/

namespace RuleScan.Text.Integer

/-- Why a text is no integer. -/
inductive Error where
  | malformed
  | outOfRange
  deriving Repr, DecidableEq, Inhabited

/-- The text of an error. -/
def Error.message (written : String) (e : Error) : String :=
  "strconv.ParseInt: parsing " ++ quoted written ++ ": " ++
    match e with
    | .malformed => "invalid syntax"
    | .outOfRange => "value out of range"

/-- The value of a digit or letter. -/
def digit? (c : Char) : Option Nat :=
  if c.isDigit then some (c.toNat - 48)
  else if c.isAlpha then some (c.toLower.toNat - 87)
  else none

/-- The base that the front of a number tells, and its digits. -/
def based : List Char → Nat × List Char
  | '0' :: c :: d :: rest =>
    if c.toLower = 'b' then (2, d :: rest)
    else if c.toLower = 'o' then (8, d :: rest)
    else if c.toLower = 'x' then (16, d :: rest)
    else (8, c :: d :: rest)
  | '0' :: rest => (8, rest)
  | cs => (10, cs)

/-- Reads digits one after the other; the first mistake counts. -/
def magnitude (base n : Nat) : List Char → Except Error Nat
  | [] => .ok n
  | '_' :: rest => magnitude base n rest
  | c :: rest =>
    match digit? c with
    | none => .error .malformed
    | some d =>
      if d ≥ base then .error .malformed
      else if n * base + d ≥ Word.size then .error .outOfRange
      else magnitude base (n * base + d) rest

/-- Whether low lines stand only between digits; `digit` says whether one precedes. -/
def linesApart (digit : Bool) : List Char → Bool
  | [] => true
  | ['_'] => false
  | '_' :: rest => digit && linesApart false rest
  | _ :: rest => linesApart true rest

/-- Whether the low lines of a number without its sign are where they may be. -/
def linesOk (cs : List Char) : Bool :=
  match cs with
  | '0' :: c :: rest => if "box".contains c.toLower then linesApart true rest else linesApart false cs
  | _ => linesApart false cs

/-- The integer that a text writes. -/
def parse (s : String) : Except Error Int :=
  let (negative, cs) := match s.toList with
    | '-' :: rest => (true, rest)
    | '+' :: rest => (false, rest)
    | cs => (false, cs)
  if cs.isEmpty then .error .malformed
  else
    let (base, digits) := based cs
    match magnitude base 0 digits with
    | .error e => .error e
    | .ok n =>
      if cs.contains '_' && !linesOk cs then .error .malformed
      else if negative then if n > Word.half then .error .outOfRange else .ok (-(n : Int))
      else if n ≥ Word.half then .error .outOfRange
      else .ok n

end RuleScan.Text.Integer

/-!
## Flags

The flags of a command line.  A flag can be set by an argument or, where that is provided for, by a
variable of the environment; an argument hides the variable.  A flag that is set by neither is not
set at all, which is not the same as set to its default.
-/

namespace RuleScan.Cli

/-- What values a flag takes. -/
inductive Flag.Kind where
  | text
  /-- A list; more arguments add to it. -/
  | texts
  | whole
  /-- A flag that is on without a value. -/
  | switch
  deriving Repr, DecidableEq, Inhabited

/-- A flag. -/
structure Flag where
  name : String
  letter : Option Char := none
  kind : Flag.Kind := .text
  /-- Whether a variable of the environment sets it. -/
  bound : Bool := true
  deriving Repr, DecidableEq, Inhabited

/-- The value of a flag. -/
inductive Flag.Value where
  | text (s : String)
  | texts (list : List String)
  | whole (n : Int)
  | switch (on : Bool)
  deriving Repr, DecidableEq, Inhabited

/-- A flag that has been set. -/
structure Flag.Setting where
  name : String
  value : Flag.Value
  /-- Whether it was set by an argument. -/
  byArgument : Bool
  deriving Repr, DecidableEq, Inhabited

/-- The flags that have been set. -/
abbrev Given := List Flag.Setting

/-- What is wrong with a command line. -/
inductive UsageError where
  | badSyntax (written : String)
  | unknownFlag (name : String)
  | unknownLetter (letter : Char) (group : String)
  | missingValue (name : String)
  | missingLetterValue (letter : Char) (group : String)
  | invalidValue (value flag cause : String)
  | unknownCommand (name command : String) (similar : List String)
  | tooMany (limit given : Nat)
  | tooFew (limit given : Nat)
  | wrongNumber (wanted given : Nat)
  deriving Repr, DecidableEq, Inhabited

/-- The text of a mistake. -/
def UsageError.message : UsageError → String
  | .badSyntax written => "bad flag syntax: " ++ written
  | .unknownFlag name => "unknown flag: --" ++ name
  | .unknownLetter letter group =>
    "unknown shorthand flag: " ++ Text.quotedChar letter ++ " in -" ++ group
  | .missingValue name => "flag needs an argument: --" ++ name
  | .missingLetterValue letter group =>
    "flag needs an argument: " ++ Text.quotedChar letter ++ " in -" ++ group
  | .invalidValue value flag cause =>
    "invalid argument " ++ Text.quoted value ++ " for " ++ Text.quoted flag ++ " flag: " ++ cause
  | .unknownCommand name command similar =>
    "unknown command " ++ Text.quoted name ++ " for " ++ Text.quoted command ++
      (if similar.isEmpty then ""
        else "\n\nDid you mean this?\n" ++ String.join (similar.map fun s => "\t" ++ s ++ "\n"))
  | .tooMany limit given =>
    "accepts at most " ++ toString limit ++ " arg(s), received " ++ toString given
  | .tooFew limit given =>
    "requires at least " ++ toString limit ++ " arg(s), only received " ++ toString given
  | .wrongNumber wanted given =>
    "accepts " ++ toString wanted ++ " arg(s), received " ++ toString given

namespace Given

/-- The value of a flag, if it is set. -/
def value? (g : Given) (name : String) : Option Flag.Value :=
  (g.find? (·.name = name)).map Flag.Setting.value

/-- The value of a text flag, if it is set. -/
def text? (g : Given) (name : String) : Option String :=
  match g.value? name with
  | some (.text s) => some s
  | _ => none

/-- The value of a list flag; none if it is not set. -/
def texts (g : Given) (name : String) : List String :=
  match g.value? name with
  | some (.texts list) => list
  | _ => []

/-- The value of a number flag, if it is set. -/
def whole? (g : Given) (name : String) : Option Int :=
  match g.value? name with
  | some (.whole n) => some n
  | _ => none

/-- The value of a switch, if it is set. -/
def switch? (g : Given) (name : String) : Option Bool :=
  match g.value? name with
  | some (.switch on) => some on
  | _ => none

/-- Sets a flag, instead of an earlier setting. -/
def set (g : Given) (s : Flag.Setting) : Given := s :: g.filter (·.name ≠ s.name)

end Given

namespace Flag

/-- The words that turn a switch on and off. -/
def switchValue? (s : String) : Option Bool :=
  if ["1", "t", "T", "TRUE", "true", "True"].contains s then some true
  else if ["0", "f", "F", "FALSE", "false", "False"].contains s then some false
  else none

/-- The values of a written list. -/
def listed (s : String) : Except String (List String) :=
  if s = "" then .ok [] else Text.Csv.record s

/-- The value of a flag as written in an argument, or what is wrong with it; `earlier` is the list
that earlier arguments gave. -/
def read (f : Flag) (earlier : List String) (written : String) : Except String Value :=
  match f.kind with
  | .text => .ok (.text written)
  | .texts => (listed written).map fun list => .texts (earlier ++ list)
  | .whole => (Text.Integer.parse written).mapError (·.message written) |>.map .whole
  | .switch =>
    match switchValue? written with
    | some on => .ok (.switch on)
    | none =>
      .error ("strconv.ParseBool: parsing " ++ Text.quoted written ++ ": invalid syntax")

/-- How a flag is named in messages. -/
def shown (f : Flag) : String :=
  (match f.letter with
    | some c => "-" ++ String.ofList [c] ++ ", "
    | none => "") ++ "--" ++ f.name

/-- Sets a flag by an argument.  A list adds to earlier arguments, but takes the place of what a
variable gave. -/
def set (f : Flag) (g : Given) (written : String) : Except UsageError Given :=
  let earlier := match g.find? (·.name = f.name) with
    | some ⟨_, .texts list, true⟩ => list
    | _ => []
  match f.read earlier written with
  | .ok value => .ok (g.set ⟨f.name, value, true⟩)
  | .error cause => .error (.invalidValue written f.shown cause)

end Flag

/-! ## Arguments -/

/-- The flag that a letter stands for. -/
def letterFlag? (flags : List Flag) (c : Char) : Option Flag :=
  flags.find? (·.letter = some c)

/-- A letter as messages show it: of one outside ASCII only a trace is left. -/
def shownLetter (c : Char) : Char := if c.toNat < 128 then c else '\u00C3'

/-- Sets the flags of a group of letters.  Gives the flag that waits for the next argument as its
value, with its letter, if the group ends with one. -/
def setLetters (flags : List Flag) (g : Given) :
    List Char → Except UsageError (Given × Option (Flag × Char))
  | [] => .ok (g, none)
  | c :: rest =>
    match letterFlag? flags c with
    | none => .error (.unknownLetter (shownLetter c) (String.ofList (c :: rest)))
    | some f =>
      match rest, f.kind with
      | '=' :: d :: value, _ => do return (← f.set g (String.ofList (d :: value)), none)
      | _, .switch => do setLetters flags (← f.set g "true") rest
      | [], _ => .ok (g, some (f, c))
      | _, _ => do return (← f.set g (String.ofList rest), none)

/-- The name and the value of a long flag, written without its dashes. -/
def longParts (cs : List Char) : String × Option String :=
  match Text.cut? ['='] cs with
  | some (name, value) => (String.ofList name, some (String.ofList value))
  | none => (String.ofList cs, none)

/-- Goes through arguments: the flags that are set, and the arguments that are none.  A double dash
ends the flags. -/
def parseFrom (flags : List Flag) (g : Given) :
    List String → Except UsageError (Given × List String)
  | [] => .ok (g, [])
  | arg :: rest =>
    match arg.toList with
    | ['-', '-'] => .ok (g, rest)
    | '-' :: '-' :: cs =>
      if cs.head? = some '-' || cs.head? = some '=' then .error (.badSyntax arg)
      else
        let (name, value) := longParts cs
        match flags.find? (·.name = name) with
        | none => .error (.unknownFlag name)
        | some f =>
          match value, f.kind, rest with
          | some v, _, rest => do parseFrom flags (← f.set g v) rest
          | none, .switch, rest => do parseFrom flags (← f.set g "true") rest
          | none, _, v :: rest => do parseFrom flags (← f.set g v) rest
          | none, _, [] => .error (.missingValue name)
    | '-' :: c :: cs => do
      let (g, waiting) ← setLetters flags g (c :: cs)
      match waiting, rest with
      | none, rest => parseFrom flags g rest
      | some (f, _), v :: rest => do parseFrom flags (← f.set g v) rest
      | some (_, c), [] => .error (.missingLetterValue c (String.ofList [c]))
    | _ => do
      let (g, others) ← parseFrom flags g rest
      return (g, arg :: others)
termination_by args => args.length

/-! ## Variables -/

/-- The name of the program. -/
def programName : String := "guardrail"

/-- The variable that sets a flag. -/
def Flag.variableName (f : Flag) : String :=
  Text.asciiUpper (programName ++ "_" ++ f.name.map fun c => if c = '-' then '_' else c)

/-- The items of a list in a variable. -/
def variableList (s : String) : List String :=
  ((Text.splitWhere (· = ',') s.toList).map fun p => Text.trim (String.ofList p)).filter (· ≠ "")

/-- What a variable sets a flag to; one that cannot be read sets nothing. -/
def Flag.fromVariable? (f : Flag) (written : String) : Option Flag.Setting :=
  match f.kind with
  | .texts => some ⟨f.name, .texts (variableList written), false⟩
  | _ =>
    match f.read [] written with
    | .ok value => some ⟨f.name, value, false⟩
    | .error _ => none

/-- The flags that the environment sets. -/
def fromEnvironment (env : Environment) (flags : List Flag) : Given :=
  flags.filterMap fun f =>
    if f.bound then (env.lookup f.variableName).bind f.fromVariable? else none

/-- The flags that the environment and the arguments set, and the other arguments. -/
def parseArguments (env : Environment) (flags : List Flag) (args : List String) :
    Except UsageError (Given × List String) :=
  parseFrom flags (fromEnvironment env flags) args

end RuleScan.Cli
