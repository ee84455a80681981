import RuleScan.Schema.Source.Token

/-!
# Reading piece by piece

A source file is read from its first piece on, with one piece in view.  Where something else is
expected, that is noted and reading goes on behind it, at a piece from which it makes sense again;
of several faults on one line only the first is noted, and after ten of them reading stops.
On the way the comments on types and their members are collected, each before those on what is
inside.
-/

namespace RuleScan.Schema.Source

/-- A fault with the place that is shown for it. -/
structure Complaint where
  spot : Spot
  text : String
  deriving Repr, DecidableEq, Inhabited

/-- The order in which faults are listed. -/
def Complaint.notAfter (a b : Complaint) : Bool :=
  a.spot.isBefore b.spot || (!b.spot.isBefore a.spot && decide (a.text ≤ b.text))

/-- The message for some faults: the first of them, and how many there are besides. -/
def Complaint.message (all : List Complaint) : String :=
  match all.mergeSort Complaint.notAfter with
  | [] => ""
  | first :: others =>
    first.spot.text ++ ": " ++ first.text ++
      if others.isEmpty then "" else " (and " ++ toString others.length ++ " more errors)"

/-- What a comment is about. -/
inductive Remark where
  /-- A definition or a group of them. -/
  | definitions (lead : List String)
  /-- A type. -/
  | type (name : String) (lead : List String)
  /-- A member of a record or an interface. -/
  | member (names : List String) (lead trail : List String)
  deriving Repr, DecidableEq, Inhabited

/-- How far a file has been read. -/
structure Reader where
  /-- The piece in view and those behind it. -/
  pieces : List Led
  origins : Origins
  /-- The place behind the last piece that was read. -/
  past : Place := {}
  /-- The faults, the last one first. -/
  complaints : List Complaint := []
  /-- The comments, the last one first. -/
  remarks : List Remark := []
  /-- One more than the bytes before the piece at which reading was taken up last. -/
  resumed : Nat := 0
  /-- How often it was taken up there. -/
  stuck : Nat := 0
  /-- The depth of brackets in an expression; negative where a block may follow it. -/
  level : Int := 0
  /-- Whether the right side of an assignment is read. -/
  inValue : Bool := false
  deriving Inhabited

/-- A step of reading; it has no result if reading stops. -/
abbrev Read (α : Type) : Type := OptionT (StateM Reader) α

namespace Read

/-- Stops reading. -/
def stop {α : Type} : Read α := OptionT.fail

/-- The piece in view with its comments. -/
def led : Read Led := do return ((← get).pieces.head?).getD default

/-- The piece in view. -/
def here : Read Token := do return (← led).token

/-- Whether the piece in view is a certain mark or keyword. -/
def sees (text : String) : Read Bool := do return (← here).is text

/-- Whether the end of the file is in view. -/
def atEnd : Read Bool := do return (← here).shape = .ended

/-- The place of the piece in view. -/
def place : Read Place := do return (← here).place

/-- Goes on to the next piece.  What is wrong with that one is noted. -/
def next : Read Unit := modify fun r =>
  match r.pieces with
  | p :: q :: rest =>
    { r with
      pieces := q :: rest
      past := p.token.past
      complaints := (q.mistakes.map fun m => ⟨r.origins.spot m.place, m.text⟩).reverse ++
        r.complaints }
  | _ => r

/-- The number of faults after which reading stops. -/
def patience : Nat := 10

/-- Notes a fault at a place. -/
def complain (p : Place) (text : String) : Read Unit := do
  let r ← get
  let spot := r.origins.spot p
  if r.complaints.head?.any fun c => c.spot.line = spot.line then return
  if patience < r.complaints.length then stop
  set { r with complaints := ⟨spot, text⟩ :: r.complaints }

/-- How the piece in view is named in a message. -/
def found (t : Token) : String :=
  match t.shape with
  | .lineEnd => "newline"
  | .ended => "'EOF'"
  | .illegal => "'ILLEGAL'"
  | .name | .text | .number => t.text
  | _ => "'" ++ t.text ++ "'"

/-- Notes that something was expected at a place. -/
def missing (p : Place) (wanted : String) : Read Unit := do
  let t ← here
  let text := "expected " ++ wanted
  complain p (if t.place.offset = p.offset then text ++ ", found " ++ found t else text)

/-- Notes that something was expected at the piece in view. -/
def missingHere (wanted : String) : Read Unit := do missing (← place) wanted

/-! ## Taking up reading again -/

/-- The words that start a statement. -/
def statementWords : List String :=
  ["break", "const", "continue", "defer", "fallthrough", "for", "go", "goto", "if", "return",
    "select", "switch", "type", "var"]

/-- The words that start a definition. -/
def definitionWords : List String := ["import", "const", "type", "var"]

/-- The start of a statement. -/
def startsStatement (t : Token) : Bool := t.isAmong statementWords

/-- The start of a definition. -/
def startsDefinition (t : Token) : Bool := t.isAmong definitionWords

/-- What can follow an expression. -/
def endsExpression (t : Token) : Bool := t.isEnd || t.isAmong [",", ":", ")", "]", "\x7d"]

/-- Goes on to a piece at which reading can be taken up again.  It is taken up at one piece ten
times at most; `fuel` is the number of pieces. -/
def skipTo (good : Token → Bool) : Nat → Read Unit
  | 0 => return
  | fuel + 1 => do
    let t ← here
    if t.shape = .ended then return
    let r ← get
    let position := t.place.offset + 1
    if good t && position = r.resumed && r.stuck < 10 then
      set { r with stuck := r.stuck + 1 }
    else if good t && r.resumed < position then
      set { r with resumed := position, stuck := 0 }
    else
      next
      skipTo good fuel

/-- Goes on to the next piece at which reading can be taken up again. -/
def skip (good : Token → Bool) : Read Unit := do skipTo good ((← get).pieces.length + 1)

/-! ## Single pieces -/

/-- Reads a mark or keyword and gives its place. -/
def expect (text : String) : Read Place := do
  let t ← here
  if !t.is text then missingHere ("'" ++ text ++ "'")
  next
  return t.place

/-- Reads a mark that closes a list.  A line end before it lacks a comma. -/
def expectClosing (text context : String) : Read Place := do
  let t ← here
  if t.shape = .lineEnd then
    complain t.place ("missing ',' before newline in " ++ context)
    next
  expect text

/-- Whether a list goes on: there is a comma, or one is missing. -/
def atComma (context closing : String) : Read Bool := do
  let t ← here
  if t.is "," then return true
  if t.is closing then return false
  let newline := if t.shape = .lineEnd then " before newline" else ""
  complain t.place ("missing ','" ++ newline ++ " in " ++ context)
  return true

/-- Reads the end of a statement, which need not be written before a closing bracket.  Gives the
comment that trails the statement. -/
def expectEnd : Read (List String) := do
  let l ← led
  let t := l.token
  if t.is ")" || t.is "\x7d" then return []
  if t.is ";" then
    next
    return (← led).trail
  if t.is "," then missingHere "';'"
  if t.is "," || t.shape = .lineEnd then
    next
    return l.trail
  missingHere "';'"
  skip startsStatement
  return []

/-- A name and its place. -/
structure Name where
  place : Place
  text : String
  deriving Repr, DecidableEq, Inhabited

/-- Reads a name. -/
def name : Read Name := do
  let t ← here
  if t.shape = .name then
    next
    return ⟨t.place, t.text⟩
  missingHere "'IDENT'"
  next
  return ⟨t.place, "_"⟩

/-! ## Contexts -/

/-- Repeats a step until it has a result; `fuel` bounds the number of steps. -/
def repeated {α β : Type} (step : α → Read (Except α β)) : Nat → α → Read β
  | 0, _ => stop
  | fuel + 1, a => do
    match ← step a with
    | .ok b => return b
    | .error a => repeated step fuel a

/-- Reads inside a bracket. -/
def inside {α : Type} (body : Read α) : Read α := do
  modify fun r => { r with level := r.level + 1 }
  let a ← body
  modify fun r => { r with level := r.level - 1 }
  return a

/-- Reads what a block follows. -/
def beforeBlock {α : Type} (body : Read α) : Read α := do
  let level := (← get).level
  modify fun r => { r with level := -1 }
  let a ← body
  modify fun r => { r with level }
  return a

/-- Reads with the right side of an assignment or without. -/
def asValue {α : Type} (inValue : Bool) (body : Read α) : Read α := do
  let old := (← get).inValue
  modify fun r => { r with inValue }
  let a ← body
  modify fun r => { r with inValue := old }
  return a

/-- Adds a comment. -/
def remark (m : Remark) : Read Unit := modify fun r => { r with remarks := m :: r.remarks }

/-- Adds a comment that is known only when the thing it is about has been read: before the comments
on what is inside. -/
def remarked {α : Type} (body : Read (α × Remark)) : Read α := do
  let before := (← get).remarks
  modify fun r => { r with remarks := [] }
  let (a, m) ← body
  modify fun r => { r with remarks := r.remarks ++ m :: before }
  return a

end Read

end RuleScan.Schema.Source
