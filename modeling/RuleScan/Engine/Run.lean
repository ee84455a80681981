import RuleScan.Command.Basic
import RuleScan.Disk.Basic

/-!
# Runs

A run is a computation that may be interrupted: it looks at a signal from time to time, and from
some moment on the signal says that the run was canceled or that its time is over.  During a run
programs may be started; they keep a record of their calls.
-/

namespace RuleScan

/-- How a run is interrupted. -/
inductive Interruption where
  | canceled
  | expired
  deriving Repr, DecidableEq, Inhabited

/-- The interruption as a failure. -/
def Interruption.failure : Interruption → Failure
  | .canceled => .of .canceled "context canceled"
  | .expired => .of .deadlineExceeded "context deadline exceeded"

/-- Whether and how a run is interrupted, by the moments at which it asks. -/
abbrev Signal := Nat → Option Interruption

namespace Signal

/-- A run that nothing interrupts. -/
def quiet : Signal := fun _ => none

/-- A run that is interrupted before it starts. -/
def stopped (i : Interruption) : Signal := fun _ => some i

end Signal

/-- What changes during a run. -/
structure Run where
  /-- How often the signal has been looked at. -/
  moment : Nat := 0
  programs : Programs := {}
  deriving Inhabited

/-- A step of a run; what changed stays changed when the step fails. -/
abbrev RunM := ExceptT Failure (StateM Run)

namespace RunM

/-- Looks at the signal. -/
def look (signal : Signal) : RunM (Option Interruption) := do
  let r ← get
  set { r with moment := r.moment + 1 }
  return signal r.moment

/-- Fails if the run has been interrupted. -/
def check (signal : Signal) : RunM Unit := do
  match ← look signal with
  | none => return ()
  | some i => throw i.failure

/-- How starting a program can fail: it may not run at all, or it may end with another code
than zero; one that is stopped in the middle ends with the code -1. -/
inductive CommandError where
  | notStarted (f : Failure)
  | exited (response : Response) (f : Failure)
  deriving Inhabited

/-- The failure behind a command. -/
def CommandError.failure : CommandError → Failure
  | .notStarted f => f
  | .exited _ f => f

/-- Starts a program and waits for its end. -/
def exec (signal : Signal) (workingDirectory : String) (c : Command) :
    RunM (Except CommandError Response) := do
  if c.name = "" then
    return .error (.notStarted (.of .emptyCommand "empty command"))
  let r ← get
  match r.programs.find? workingDirectory c.name with
  | none =>
    return .error (.notStarted (.of .commandNotFound ("command not found: " ++ c.name)))
  | some p =>
    match ← look signal with
    | some i =>
      match p.stopped? c.arguments with
      | none => return .error (.notStarted ((i.failure).under .commandExecution "run"))
      | some printed =>
        modify fun r => { r with programs := r.programs.record p.name c.arguments }
        return .error (.exited { printed with exit := -1 }
          (.of .commandExecution "run: signal: killed"))
    | none =>
      let response := p.respond c.arguments
      modify fun r => { r with programs := r.programs.record p.name c.arguments }
      let code := response.exit % 256
      if code = 0 then return .ok response
      else
        return .error (.exited { response with exit := code }
          (.of .commandExecution ("run: exit status " ++ toString code)))

end RunM

end RuleScan
