import RuleScan.Schema.Source.Reader

/-!
# Types in source files

What is known of a type that has been read, and how types are read.
-/

/-!
## Types and expressions

What has been read of a type or an expression, as far as it decides how the pieces behind it are
read: whether a name may be that of a parameter, a bracket that of a literal, an arrow that of a
channel.
-/

namespace RuleScan.Schema.Source

/-- Which way values go through a channel. -/
inductive Direction where
  | both
  | send
  | receive
  deriving Repr, DecidableEq, Inhabited

/-- A type or an expression. -/
inductive Term where
  /-- What could not be read. -/
  | bad (first : Place)
  | name (first : Place) (text : String)
  | parens (first : Place) (inner : Term)
  /-- Something of a package or a value. -/
  | selection (first : Place)
  /-- An element of a list, or a type with arguments. -/
  | index (first : Place)
  /-- The type of lists, maps and records. -/
  | container (first : Place)
  | channel (first arrow : Place) (direction : Direction) (value : Term)
  /-- The type of functions or of methods. -/
  | signature (first : Place)
  /-- The type of any number of arguments. -/
  | spread (first : Place)
  | call (first : Place) (function : Term) (arguments : List Term) (spreads : Bool)
  | binary (place : Place) (mark : String) (left right : Term)
  /-- All types that are based on one. -/
  | based (first : Place)
  /-- The question for the type of a value. -/
  | typeOf (first : Place)
  | other (first : Place)
  deriving Inhabited

namespace Term

/-- The place where a term starts. -/
def first : Term → Place
  | .bad p | .name p _ | .parens p _ | .selection p | .index p | .container p | .channel p _ _ _
  | .signature p | .spread p | .call p _ _ _ | .based p | .typeOf p | .other p => p
  | .binary _ _ left _ => left.first

/-- A term without the brackets around it. -/
def bare : Term → Term
  | .parens _ inner => inner.bare
  | t => t

/-- Whether a term has brackets around it. -/
def isInParens : Term → Bool
  | .parens _ _ => true
  | _ => false

/-- Whether a term can only stand for types. -/
def isTypes : Term → Bool
  | .container _ | .signature _ | .channel _ _ _ _ | .based _ => true
  | .parens _ inner => inner.isTypes
  | .binary _ _ left right => left.isTypes || right.isTypes
  | _ => false

/-- Splits a term into the name of a type parameter and what stands behind it, if it can be written
so.  `sure` says that it is no expression. -/
def splitName (sure : Bool) : Term → Option (Read.Name × Option Term)
  | .name p text => some (⟨p, text⟩, none)
  | .binary p mark left right =>
    if mark = "*" then
      match left with
      | .name q text =>
        if sure || right.isTypes then some (⟨q, text⟩, some (.other p)) else none
      | _ => none
    else if mark = "|" then
      match splitName (sure || right.isTypes) left with
      | some (n, some t) => some (n, some (.binary p mark t right))
      | _ => none
    else none
  | .call _ (.name p text) [argument] spreads =>
    if !spreads && (sure || argument.isTypes) then some (⟨p, text⟩, some argument) else none
  | _ => none

end Term

/-- What a step of reading relies on for what is inside. -/
structure Grammar where
  /-- Bounds the number of elements of a list. -/
  fuel : Nat
  /-- A type, if there is one. -/
  type? : Read (Option Term)
  /-- An expression without binary marks. -/
  unary : Read Term
  /-- An expression of binary marks that bind at least so much, perhaps with its first part. -/
  binary : Option Term → Nat → Read Term
  /-- The elements of a literal, with their brackets. -/
  elements : Read Unit
  /-- A block of statements. -/
  block : Read Unit
  /-- A statement with a condition. -/
  condition : Read Unit
  /-- Any statement. -/
  statement : Read Unit

namespace Grammar

/-- The grammar that reads nothing. -/
def empty : Grammar :=
  { fuel := 0
    type? := Read.stop
    unary := Read.stop
    binary := fun _ _ => Read.stop
    elements := Read.stop
    block := Read.stop
    condition := Read.stop
    statement := Read.stop }

/-- An expression. -/
def expression (g : Grammar) : Read Term := g.binary none 1

/-- An expression on the right side of an assignment. -/
def value (g : Grammar) : Read Term := Read.asValue true g.expression

/-- A type. -/
def type (g : Grammar) : Read Term := do
  match ← g.type? with
  | some t => return t
  | none =>
    let p ← Read.place
    Read.missingHere "type"
    Read.skip Read.endsExpression
    return .bad p

end Grammar

end RuleScan.Schema.Source

/-!
## Types as they are written

Lists, maps, channels, functions, records and interfaces.  The members of records and interfaces
are what the comments are about.
-/

namespace RuleScan.Schema.Source.Read

variable (g : Grammar)

/-- The name of a type, perhaps with that of its package, of which the first name may have been
read. -/
def typeName (front : Option Name) : Read Term := do
  let n ← match front with
    | some n => pure n
    | none => name
  if ← sees "." then
    next
    discard name
    return .selection n.place
  return .name n.place n.text

/-- The arguments of a type. -/
def typeArguments (head : Term) : Read Term := do
  discard (expect "[")
  let none' ← inside (repeated (fun (none' : Bool) => do
    if (← sees "]") || (← atEnd) then return .ok none'
    discard g.type
    if !(← atComma "type argument list" "]") then return .ok false
    next
    return .error false) g.fuel true)
  let closing ← expectClosing "]" "type argument list"
  if none' then missing closing "type argument list"
  return .index head.first

/-- The name of a type, perhaps with arguments. -/
def qualifiedName (front : Option Name) : Read Term := do
  let t ← typeName front
  if ← sees "[" then typeArguments g t else return t

/-- A list type whose first bracket stands at a place; `sized` says that its length has been
read. -/
def listType (first : Place) (sized : Bool) : Read Term := do
  if !sized then
    inside do
      if ← sees "..." then next
      else if !(← sees "]") then discard g.value
  if ← sees "," then
    complain (← place) "unexpected comma; expecting ]"
    next
  discard (expect "]")
  discard g.type
  return .container first

/-- What stands in brackets behind a name: the length of a list, and the name is that of a field or
parameter, or the arguments of a type with that name. -/
def listOrArguments (n : Name) : Read (Option Name × Term) := do
  let first ← expect "["
  let (count, comma) ← if ← sees "]" then pure (0, none) else inside do
    discard g.value
    repeated (fun (count : Nat) => do
      if !(← sees ",") then return .ok (count, none)
      let comma ← place
      next
      if ← sees "]" then return .ok (count, some comma)
      discard g.value
      return .error (count + 1)) g.fuel 1
  discard (expect "]")
  if count = 0 then
    discard g.type
    return (some n, .container first)
  if count = 1 then
    if (← g.type?).isSome then
      if let some comma := comma then complain comma "unexpected comma; expecting ]"
      return (some n, .container first)
  return (none, .index n.place)

/-! ### Records -/

/-- The names of the field at the front that starts with a name; an embedded type has none. -/
def fieldNames : Read (List String) := do
  let n ← name
  let t ← here
  if t.is "." then
    discard (qualifiedName g (some n))
    return []
  if t.shape = .text || t.isEnd || t.is "\x7d" then return []
  let names ← repeated (fun (names : List String) => do
    if !(← sees ",") then return .ok names
    next
    return .error (names ++ [(← name).text])) g.fuel [n.text]
  if names.length = 1 && (← sees "[") then
    let (n, _) ← listOrArguments g n
    return (n.map Name.text).toList
  discard g.type
  return names

/-- An embedded type in brackets, which may not stand there. -/
def bracketedField : Read Unit := do
  complain (← place) "cannot parenthesize embedded type"
  next
  if ← sees "*" then next
  discard (qualifiedName g none)
  if ← sees ")" then next

/-- A field of a record. -/
def field : Read Unit := remarked do
  let l ← led
  let t := l.token
  let names ←
    if t.shape = .name then fieldNames g
    else do
      if t.is "*" then
        next
        if ← sees "(" then
          complain (← place) "cannot parenthesize embedded type"
          next
          discard (qualifiedName g none)
          if ← sees ")" then next
        else discard (qualifiedName g none)
      else if t.is "(" then bracketedField g
      else
        missingHere "field name or embedded type"
        skip endsExpression
      pure []
  if (← here).shape = .text then next
  let trail ← expectEnd
  return ((), .member names l.lead trail)

/-- A record type. -/
def recordType : Read Term := do
  let first ← expect "struct"
  discard (expect "\x7b")
  repeated (fun () => do
    let t ← here
    if t.shape = .name || t.is "*" || t.is "(" then
      field g
      return .error ()
    return .ok ()) g.fuel ()
  discard (expect "\x7d")
  return .container first

/-! ### Sets of types -/

/-- A type, or all types that are based on one. -/
def typeTerm : Read Term := do
  let p ← place
  if ← sees "~" then
    next
    discard g.type
    return .based p
  match ← g.type? with
  | some t => return t
  | none =>
    missingHere "~ term or type"
    skip endsExpression
    return .bad p

/-- Types that a mark joins, of which the first may have been read. -/
def typeTerms (front : Option Term) : Read Term := do
  let t ← match front with
    | some t => pure t
    | none => typeTerm g
  repeated (fun (t : Term) => do
    if !(← sees "|") then return .ok t
    let p ← place
    next
    return .error (.binary p "|" t (← typeTerm g))) g.fuel t

/-! ### Parameters -/

/-- A parameter as it is written: often a type alone, or a name whose type is that of the next
one. -/
structure Parameter where
  name : Option Name
  type : Option Term
  deriving Inhabited

/-- The type of any number of arguments. -/
def spreadType : Read Term := do
  let p ← expect "..."
  discard g.type
  return .spread p

/-- The marks and words with which a type starts. -/
def typeFronts : List String :=
  ["*", "<-", "func", "[", "chan", "map", "struct", "interface", "("]

/-- A parameter; `sets` says that sets of types are allowed. -/
def parameter (front : Option Name) (sets : Bool) : Read Parameter := do
  let joined (p : Parameter) : Read Parameter := do
    match p.type with
    | some t => if sets && (← sees "|") then return { p with type := ← typeTerms g t } else return p
    | none => return p
  let t ← here
  if front.isNone && sets && t.is "~" then return ⟨none, some (← typeTerms g none)⟩
  if front.isSome || t.shape = .name then
    let n ← match front with
      | some n => pure n
      | none => name
    let t ← here
    if t.is "[" then
      let (n, type) ← listOrArguments g n
      joined ⟨n, some type⟩
    else if t.shape = .name || t.isAmong typeFronts then joined ⟨some n, some (← g.type)⟩
    else if t.is "..." then return ⟨some n, some (← spreadType g)⟩
    else if t.is "." then joined ⟨none, some (← qualifiedName g (some n))⟩
    else if sets && t.is "~" then return ⟨some n, some (← typeTerms g none)⟩
    else if sets && t.is "|" then
      return ⟨none, some (← typeTerms g (some (.name n.place n.text)))⟩
    else return ⟨some n, none⟩
  else if t.isAmong typeFronts then joined ⟨none, some (← g.type)⟩
  else if t.is "..." then return ⟨none, some (← spreadType g)⟩
  else
    missingHere "')'"
    skip endsExpression
    return ⟨none, none⟩

/-- Gives every parameter the type of the next one that has one; also the first place at which a
name or a type is missing. -/
def shareTypes : List Parameter → List Parameter × Option Term × Option Place
  | [] => ([], none, none)
  | p :: rest =>
    let (rest, type, wrong) := shareTypes rest
    match p.type, type, p.name with
    | some t, _, none => (p :: rest, some t, some t.first)
    | some t, _, some _ => (p :: rest, some t, wrong)
    | none, some t, _ => ({ p with type := some t } :: rest, some t, wrong)
    | none, none, some n => (p :: rest, none, some n.place)
    | none, none, none => (p :: rest, none, wrong)

/-- Checks that all parameters have a name or none has; `ofTypes` says that they stand for types.
Gives them with their types. -/
def checkNames (ofTypes : Bool) (start : Place) (list : List Parameter) : Read (List Parameter) := do
  let named := (list.filter fun p => p.name.isSome && p.type.isSome).length
  let typed := (list.filter fun p => p.type.isSome).length
  let single := if list.length = 1 then " or invalid array length" else ""
  if named = 0 then
    if ofTypes then
      if typed = 0 then complain (← place) "missing type constraint"
      else complain start ("missing type parameter name" ++ single)
    return list
  else if named = list.length then return list
  else
    let (list, _, wrong) := shareTypes list
    if let some p := wrong then
      if named = typed then
        complain (← place) (if ofTypes then "missing type constraint" else "missing parameter type")
      else
        complain p (if ofTypes then "missing type parameter name" ++ single
          else "missing parameter name")
    return list

/-- Checks that only the last parameter stands for any number of arguments, if one may. -/
def checkSpread (allowed : Bool) : List Parameter → Read Unit
  | [] => return
  | p :: rest => do
    match p.type with
    | some (.spread first) =>
      if !allowed then complain first "invalid use of ..."
      else if !rest.isEmpty then complain first "can only use ... with final parameter"
      else checkSpread allowed rest
    | _ => checkSpread allowed rest

/-- Parameters up to a closing mark; of the first one the name and the type may have been read.
Says whether there are any. -/
def parameterList (name0 : Option Name) (type0 : Option Term) (closing : String) (spreads : Bool) :
    Read Bool := do
  let ofTypes := closing = "]"
  let start := (name0.map Name.place).getD (← place)
  let list ← repeated (fun (state : Option Name × Option Term × List Parameter) => do
    let (name0, type0, list) := state
    if name0.isNone && ((← sees closing) || (← atEnd)) then return .ok list
    let p ← match type0 with
      | some t =>
        pure (Parameter.mk name0 (some (← if ofTypes then typeTerms g (some t) else pure t)))
      | none => parameter g name0 ofTypes
    let list := if p.name.isSome || p.type.isSome then list ++ [p] else list
    if !(← atComma "parameter list" closing) then return .ok list
    next
    return .error (none, none, list)) g.fuel (name0, type0, [])
  if list.isEmpty then return false
  checkSpread spreads (← checkNames ofTypes start list)
  return true

/-- Parameters or results in round brackets. -/
def parameters (result : Bool) : Read Unit := do
  discard (expect "(")
  if !(← sees ")") then discard (parameterList g none none ")" !result)
  discard (expect ")")

/-- Parameters that stand for types, in square brackets; the place where they start, if there are
any. -/
def typeParameters : Read (Option Place) := do
  let first ← expect "["
  let any ← if ← sees "]" then pure false else parameterList g none none "]" false
  let last ← expect "]"
  if any then return some first
  complain last "empty type parameter list"
  return none

/-- The results of a function. -/
def results : Read Unit := do
  if ← sees "(" then parameters g true else discard g.type?

/-- The type of a function. -/
def functionType : Read Term := do
  let first ← expect "func"
  if ← sees "[" then
    if let some p ← typeParameters g then
      complain p "function type must have no type parameters"
  parameters g false
  results g
  return .signature first

/-! ### Interfaces -/

/-- What stands in square brackets behind the name of a method or of an embedded type; says whether
it is a method. -/
def methodBracket : Read Bool := do
  let first ← place
  next
  let t ← inside g.expression
  let more := !(← sees ",") && !(← sees "]")
  match t, more with
  | .name p text, true =>
    discard (parameterList g (some ⟨p, text⟩) none "]" false)
    discard (expect "]")
    complain first "interface method must have no type parameters"
    parameters g false
    results g
    return true
  | _, _ =>
    if ← atComma "type argument list" "]" then
      inside do
        next
        repeated (fun () => do
          if (← sees "]") || (← atEnd) then return .ok ()
          discard g.type
          if !(← atComma "type argument list" "]") then return .ok ()
          next
          return .error ()) g.fuel ()
    discard (expectClosing "]" "type argument list")
    return false

/-- A method or an embedded type: its term, and the name of a method. -/
def method : Read (Term × List String) := do
  let t ← typeName none
  match t with
  | .name p text =>
    if ← sees "[" then
      if ← methodBracket g then return (t, [text]) else return (.index p, [])
    else if ← sees "(" then
      parameters g false
      results g
      return (t, [text])
    else return (t, [])
  | _ => if ← sees "[" then return (← typeArguments g t, []) else return (t, [])

/-- An interface type. -/
def interfaceType : Read Term := do
  let first ← expect "interface"
  discard (expect "\x7b")
  repeated (fun () => do
    let l ← led
    if l.token.shape = .name then
      remarked do
        let (t, names) ← method g
        if names.isEmpty then discard (typeTerms g (some t))
        let trail ← expectEnd
        return ((), .member names l.lead trail)
      return .error ()
    else if l.token.is "~" then
      discard (typeTerms g none)
      discard expectEnd
      return .error ()
    else
      match ← g.type? with
      | some t =>
        discard (typeTerms g (some t))
        discard expectEnd
        return .error ()
      | none => return .ok ()) g.fuel ()
  discard (expect "\x7d")
  return .signature first

/-! ### All types -/

/-- A channel type. -/
def channelType : Read Term := do
  let first ← place
  if ← sees "chan" then
    next
    let arrow ← place
    if ← sees "<-" then
      next
      return .channel first arrow .send (← g.type)
    return .channel first first .both (← g.type)
  discard (expect "<-")
  discard (expect "chan")
  return .channel first first .receive (← g.type)

/-- A type, if one starts here. -/
def typeForm? : Read (Option Term) := do
  let t ← here
  if t.shape = .name then
    let n ← typeName none
    if ← sees "[" then return some (← typeArguments g n) else return some n
  else if t.is "[" then
    next
    return some (← listType g t.place false)
  else if t.is "struct" then return some (← recordType g)
  else if t.is "*" then
    next
    discard g.type
    return some (.other t.place)
  else if t.is "func" then return some (← functionType g)
  else if t.is "interface" then return some (← interfaceType g)
  else if t.is "map" then
    next
    discard (expect "[")
    discard g.type
    discard (expect "]")
    discard g.type
    return some (.container t.place)
  else if t.is "chan" || t.is "<-" then return some (← channelType g)
  else if t.is "(" then
    next
    let inner ← g.type
    discard (expect ")")
    return some (.parens t.place inner)
  else return none

end RuleScan.Schema.Source.Read
