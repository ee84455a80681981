import RuleScan.Yaml.Value

/-!
# Failures

A failure is a message together with the known causes behind it, so that callers can tell what
happened without reading the message.  A failure that comes from a document also keeps the error
in the document, and one that comes from a profile keeps what is wrong with the profile.
-/

namespace RuleScan

/-- The causes that callers can tell apart. -/
inductive Cause where
  | unknownProfile
  | searchUnavailable
  | canceled
  | deadlineExceeded
  | invalidRule
  | invalidGlob
  | unknownKind
  | emptyPattern
  | unknownSeverity
  | notBool
  | evaluation
  | commandNotFound
  | emptyCommand
  | commandExecution
  | unknownFormat
  | unknownLogLevel
  | unknownLogFormat
  | parse
  | schema
  | unreadableProfile
  | invalidProfile
  | notExist
  /-- A text that is no JSON, or JSON of another shape. -/
  | json
  deriving Repr, DecidableEq, Inhabited

/-- What is wrong with a profile. -/
inductive Profile.Trouble where
  /-- The document cannot be read. -/
  | unreadable (line column : Nat) (source excerpt : String)
  /-- The document can be read but makes no valid profile. -/
  | invalid (source : String) (errors : List String)
  deriving Repr, DecidableEq, Inhabited

/-- A failure. -/
structure Failure where
  message : String
  causes : List Cause := []
  document : Option Yaml.Error := none
  profile : Option Profile.Trouble := none
  deriving Inhabited

namespace Failure

/-- A failure without a known cause. -/
def plain (message : String) : Failure := { message }

/-- A failure with one known cause. -/
def of (cause : Cause) (message : String) : Failure := { message, causes := [cause] }

/-- Says what was being done when the failure arose. -/
def during (f : Failure) (activity : String) : Failure :=
  { f with message := activity ++ ": " ++ f.message }

/-- Adds a cause with its text in front. -/
def under (f : Failure) (cause : Cause) (text : String) : Failure :=
  { f with message := text ++ ": " ++ f.message, causes := cause :: f.causes }

/-- Adds a cause. -/
def because (f : Failure) (cause : Cause) : Failure := { f with causes := cause :: f.causes }

/-- The failure of an error in a document. -/
def ofDocument (e : Yaml.Error) : Failure := { message := e.message, document := some e }

/-- The failure of reading a document. -/
def ofRead : Yaml.ReadError → Failure
  | .empty => plain "EOF"
  | .plain message => plain message
  | .document e => ofDocument e

/-- Several failures at once, one below the other; the first that has something to add beside its
message speaks for all. -/
def join (list : List Failure) : Failure :=
  { message := "\n".intercalate (list.map Failure.message)
    causes := list.flatMap Failure.causes
    document := list.findSome? Failure.document
    profile := list.findSome? Failure.profile }

/-- Whether a cause is behind the failure. -/
def has (f : Failure) (cause : Cause) : Bool := f.causes.contains cause

end Failure

end RuleScan
