import RuleScan.Failure
import RuleScan.Text.Quoted
import RuleScan.Unicode.Case

/-!
# Log records

The names of levels and forms of a log, and the records of things that went wrong without ending
the work.
-/

namespace RuleScan.Log

/-- How important a record is. -/
inductive Level where
  | debug
  | info
  | warn
  | error
  deriving Repr, DecidableEq, Inhabited

/-- The number of a level. -/
def Level.number : Level → Int
  | .debug => -4
  | .info => 0
  | .warn => 4
  | .error => 8

/-- The word for a level in a record. -/
def Level.name : Level → String
  | .debug => "DEBUG"
  | .info => "INFO"
  | .warn => "WARN"
  | .error => "ERROR"

/-- The level that a user names, in any case. -/
def Level.parse (name : String) : Except Failure Level :=
  match Unicode.lowerText name with
  | "debug" => .ok .debug
  | "info" => .ok .info
  | "warn" | "warning" => .ok .warn
  | "error" => .ok .error
  | _ => .error (.of .unknownLogLevel ("unknown log level: " ++ Text.quoted name))

/-- The form of the records of a log. -/
inductive Form where
  | json
  | pairs
  | plain
  deriving Repr, DecidableEq, Inhabited

/-- The name of a form. -/
def Form.name : Form → String
  | .json => "json"
  | .pairs => "logfmt"
  | .plain => "text"

/-- The form that a user names, in any case. -/
def Form.parse (name : String) : Except Failure Form :=
  match Unicode.lowerText name with
  | "json" => .ok .json
  | "logfmt" => .ok .pairs
  | "text" => .ok .plain
  | _ => .error (.of .unknownLogFormat ("unknown log format: " ++ Text.quoted name))

/-- A record of something that went wrong. -/
structure Record where
  message : String
  attributes : List (String × Json) := []
  level : Level := .warn
  deriving Inhabited

end RuleScan.Log
