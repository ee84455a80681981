import RuleScan.Schema.Source.TypeForm

/-!
# Expressions as they are written

Operands, what can follow them, and the marks that join them by how much they bind.  Expressions
matter to the comments only because types can be defined inside the functions in them.
-/

namespace RuleScan.Schema.Source.Read

variable (g : Grammar)

/-- How much a binary mark binds; zero for other pieces. -/
def binding (mark : String) : Nat :=
  if mark = "||" then 1
  else if mark = "&&" then 2
  else if ["==", "!=", "<", "<=", ">", ">="].contains mark then 3
  else if ["+", "-", "|", "^"].contains mark then 4
  else if ["*", "/", "%", "<<", ">>", "&", "&^"].contains mark then 5
  else 0

/-- A function or its type. -/
def functionTerm : Read Term := do
  let t ← functionType g
  if ← sees "\x7b" then
    inside g.block
    return .other t.first
  return t

/-- An operand. -/
def operand : Read Term := do
  let t ← here
  if t.shape = .name then
    next
    return .name t.place t.text
  else if t.shape = .number || t.shape = .text then
    next
    return .other t.place
  else if t.is "(" then
    next
    let inner ← inside g.value
    discard (expect ")")
    return .parens t.place inner
  else if t.is "func" then functionTerm g
  else
    match ← g.type? with
    | some t => return t
    | none =>
      missingHere "operand"
      skip startsStatement
      return .bad t.place

/-- What stands in square brackets behind a term. -/
def indexed (x : Term) : Read Term := do
  discard (expect "[")
  if ← sees "]" then
    missingHere "operand"
    next
    return .index x.first
  let (colons, gaps) ← inside do
    if !(← sees ":") then discard g.value
    if ← sees ":" then
      repeated (fun (state : List Place × List Place) => do
        let (colons, gaps) := state
        if !(← sees ":") || 2 ≤ colons.length then return .ok (colons, gaps)
        let colon ← place
        next
        if (← sees ":") || (← sees "]") || (← atEnd) then
          return .error (colons ++ [colon], gaps ++ [colon])
        discard g.value
        return .error (colons ++ [colon], gaps)) g.fuel ([], [])
    else
      repeated (fun () => do
        if !(← sees ",") then return .ok ([], [])
        next
        if !(← sees "]") && !(← atEnd) then discard g.type
        return .error ()) g.fuel ()
  discard (expect "]")
  match colons with
  | [] => return .index x.first
  | [first, second] =>
    if gaps.contains first then complain first "middle index required in 3-index slice"
    if gaps.contains second then complain second "final index required in 3-index slice"
    return .other x.first
  | _ => return .other x.first

/-- The arguments of a call. -/
def called (function : Term) : Read Term := do
  discard (expect "(")
  let (arguments, spreads) ← inside (repeated (fun (arguments : List Term) => do
    if (← sees ")") || (← atEnd) then return .ok (arguments, false)
    let arguments := arguments ++ [← g.value]
    let spreads ← sees "..."
    if spreads then next
    if !(← atComma "argument list" ")") then return .ok (arguments, spreads)
    next
    if spreads then return .ok (arguments, true) else return .error arguments) g.fuel [])
  discard (expectClosing ")" "argument list")
  return .call function.first function arguments spreads

/-- An element of a literal, or one side of it. -/
def elementValue : Read Unit := do
  if ← sees "\x7b" then g.elements else discard g.expression

/-- The elements of a literal, with their brackets. -/
def elementList : Read Unit := do
  discard (expect "\x7b")
  inside (repeated (fun () => do
    if (← sees "\x7d") || (← atEnd) then return .ok ()
    elementValue g
    if ← sees ":" then
      next
      elementValue g
    if !(← atComma "composite literal" "\x7d") then return .ok ()
    next
    return .error ()) g.fuel ())
  discard (expectClosing "\x7d" "composite literal")

/-- Whether a bracket behind a term opens the elements of a literal.  Where a block may follow, only
behind the types of lists, maps and records. -/
def opensElements (level : Int) (x : Term) : Bool :=
  match x.bare with
  | .bad _ | .name _ _ | .selection _ | .index _ => 0 ≤ level
  | .container _ => true
  | _ => false

/-- What follows a point. -/
def selected (x : Term) : Read Term := do
  let t ← here
  if t.shape = .name then
    next
    return .selection x.first
  else if t.is "(" then
    next
    let asked ← sees "type"
    if asked then next else discard g.type
    discard (expect ")")
    return if asked then .typeOf x.first else .other x.first
  else
    missingHere "selector or type assertion"
    if !t.is "\x7d" then next
    return .selection x.first

/-- An operand, which may have been read, and all that follows it. -/
def primary (front : Option Term) : Read Term := do
  let x ← match front with
    | some x => pure x
    | none => operand g
  repeated (fun (x : Term) => do
    let t ← here
    if t.is "." then
      next
      return .error (← selected g x)
    else if t.is "[" then return .error (← indexed g x)
    else if t.is "(" then return .error (← called g x)
    else if t.is "\x7b" && opensElements (← get).level x then
      if x.isInParens then
        complain x.bare.first "cannot parenthesize type in composite literal"
      g.elements
      return .error (.other x.first)
    else return .ok x) g.fuel x

/-- Gives an arrow before a channel type to the channel: a channel that sends hands it on to the
type of its values. -/
def arrowed (arrow : Place) : Term → Read Term
  | .channel _ own direction value => do
    if direction = .receive then missing own "'chan'"
    if direction = .send then
      match value with
      | .channel .. => return .channel arrow arrow .receive (← arrowed own value)
      | _ =>
        missing own "channel type"
        return .channel arrow arrow .receive value
    return .channel arrow arrow .receive value
  | _ => return .other arrow

/-- An expression without binary marks. -/
def unaryForm : Read Term := do
  let t ← here
  if t.isAmong ["+", "-", "!", "^", "&"] then
    next
    discard g.unary
    return .other t.place
  else if t.is "~" then
    next
    discard g.unary
    return .based t.place
  else if t.is "<-" then
    next
    arrowed t.place (← g.unary)
  else if t.is "*" then
    next
    discard g.unary
    return .other t.place
  else primary g none

/-- The piece in view as a binary mark.  In a value a single sign of equality is taken for a double
one. -/
def binaryMark : Read String := do
  let t ← here
  if t.shape ≠ .mark then return ""
  if (← get).inValue && t.text = "=" then return "=="
  return t.text

/-- An expression of binary marks that bind at least so much. -/
def binaryForm (front : Option Term) (least : Nat) : Read Term := do
  let x ← match front with
    | some x => pure x
    | none => unaryForm g
  repeated (fun (x : Term) => do
    let mark ← binaryMark
    if binding mark < least then return .ok x
    let p ← expect mark
    let y ← g.binary none (binding mark + 1)
    return .error (.binary p mark x y)) g.fuel x

end RuleScan.Schema.Source.Read
