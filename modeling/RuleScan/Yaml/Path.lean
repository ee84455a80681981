import RuleScan.Decimal.Read
import RuleScan.Yaml.Node

/-!
# Paths into a document

A path leads from the root of a document to a node: by the names of fields, the indices of list
elements, all elements at once, or all fields of a name at any depth.  It is written `$.rules[0].id`.
-/

namespace RuleScan.Yaml

/-- One step of a path. -/
inductive Path.Step where
  /-- The field of a name, as it is written: names with a dot or a star stand in quotes. -/
  | child (name : String)
  | index (n : Nat)
  | all
  /-- All fields of a name at any depth. -/
  | anywhere (name : String)
  deriving Repr, DecidableEq, Inhabited

/-- A path from the root. -/
structure Path where
  steps : List Path.Step
  deriving Repr, DecidableEq, Inhabited

namespace Path

/-- The root. -/
def root : Path := ⟨[]⟩

/-- A name as it stands in a path. -/
def quotedName (name : String) : String :=
  let cs := name.toList
  if cs.head? = some '\'' && cs.getLast? = some '\'' then name
  else if cs.contains '.' || cs.contains '*' then
    String.ofList (['\''] ++ cs.flatMap (fun c => if c = '\'' then ['\\', '\''] else [c]) ++ ['\''])
  else name

/-- The field of a name. -/
def child (p : Path) (name : String) : Path := ⟨p.steps ++ [.child (quotedName name)]⟩

/-- The element of an index. -/
def index (p : Path) (n : Nat) : Path := ⟨p.steps ++ [.index n]⟩

/-- The text of a step. -/
def Step.text : Step → String
  | .child name => "." ++ name
  | .index n => "[" ++ toString n ++ "]"
  | .all => "[*]"
  | .anywhere name => ".." ++ name

/-- The text of a path. -/
def text (p : Path) : String := "$" ++ String.join (p.steps.map Step.text)

/-- The length of a name up to the next step; some characters may not stand in a name. -/
def nameLength? (cs : List Char) : Option Nat :=
  let name := cs.takeWhile fun c => c ≠ '.' && c ≠ '['
  if name.isEmpty || name.any (fun c => c = '$' || c = '*' || c = ']') then none
  else some name.length

/-- A name in quotes, from behind the opening one on: the name, how many characters it has with
the closing quote, and how many backslashes were left out.  The character behind a backslash is
part of the name, and the backslash is not. -/
def quotedName? : List Char → Option (List Char × Nat)
  | '\'' :: _ => some ([], 0)
  | '\\' :: c :: rest => (quotedName? rest).map fun (name, n) => (c :: name, n + 1)
  | '\\' :: [] | [] => none
  | c :: rest => (quotedName? rest).map fun (name, n) => (c :: name, n)

/-- The digits of an index or a star, at the front, and the closing bracket behind them. -/
def indexLength? (cs : List Char) : Option Nat :=
  let front := match cs with
    | '*' :: _ => 1
    | _ => 0
  let n := front + ((cs.drop front).takeWhile Char.isDigit).length
  if n > 0 && cs[n]? = some ']' then some n else none

/-- Reads the steps of a path from a place on.  Backslashes that are left out of names also
shorten the text by as many characters, without moving what follows. -/
def readSteps (text : List Char) (fuel place length : Nat) (started : Bool) (acc : List Step) :
    Option (List Step) :=
  match fuel with
  | 0 => none
  | fuel + 1 =>
    if length ≤ place then some acc.reverse
    else match text.drop place with
    | '$' :: _ => readSteps text fuel (place + 1) length true []
    | '.' :: '.' :: rest => do
      let n ← nameLength? rest
      readSteps text fuel (place + 2 + n) text.length started
        (.anywhere (String.ofList (rest.take n)) :: acc)
    | '.' :: '\'' :: rest => do
      let (name, dropped) ← quotedName? rest
      let behind := (rest.drop (name.length + dropped + 1)).head?
      if !started || name.isEmpty || behind.any (fun c => c = '$' || c = '*' || c = ']') then none
      readSteps text fuel (place + 3 + name.length) (text.length - dropped) started
        (.child (quotedName (String.ofList name)) :: acc)
    | '.' :: rest => do
      let n ← nameLength? rest
      if !started then none
      readSteps text fuel (place + 1 + n) text.length started
        (.child (String.ofList (rest.take n)) :: acc)
    | '[' :: rest => do
      let n ← indexLength? rest
      if !started then none
      let step ← if rest.take n = ['*'] then some .all
        else (digitsIn? 10 (rest.take n)).bind fun i => if i < Word.half then some (.index i) else none
      readSteps text fuel (place + 2 + n) text.length started (step :: acc)
    | _ => none

/-- Reads a path. -/
def parse? (text : String) : Option Path :=
  (readSteps text.toList (text.length + 1) 0 text.length false []).map Path.mk

/-- The name of a field without the quotes of a path. -/
def bareName (name : String) : String :=
  let cs := name.toList
  if cs.length > 1 && cs.head? = some '\'' && cs.getLast? = some '\'' then
    String.ofList ((cs.drop 1).dropLast)
  else name

/-- What following a path yields: a node, the place of the nodes found, nothing, or a refusal
because the path does not fit. -/
inductive Found where
  | node (n : Node)
  | several (token : Nat)
  | nothing
  | refused
  deriving Inhabited

/-- The text of the key of an entry as paths see it: quotes that are part of the text count as
quotes around it. -/
def keyName? (tokens : Tokens) (key : Node) : Option String :=
  let value := (tokens[key.token]?.getD default).value
  match value.toList with
  | '"' :: _ => Text.unquoted? value
  | '\'' :: rest =>
    if rest.getLast? = some '\'' then some (String.ofList rest.dropLast) else some value
  | _ => some value

/-- The value of the entry that a name leads to, unless a key before it cannot be read. -/
def entry? (tokens : Tokens) (name : String) : List (Node × Node) → Except Unit (Option Node)
  | [] => .ok none
  | (k, v) :: rest =>
    match keyName? tokens k with
    | none => .error ()
    | some key => if key = name then .ok (some v) else entry? tokens name rest

mutual

/-- Follows steps from a node. -/
def follow (tokens : Tokens) : List Step → Node → Found
  | [], n => .node n
  | .child name :: rest, n =>
    match n with
    | .mapping _ entries =>
      match entry? tokens (bareName name) entries with
      | .ok (some v) => follow tokens rest v
      | .ok none => .nothing
      | .error _ => .refused
    | _ => .refused
  | .index i :: rest, n =>
    match n with
    | .sequence _ elements =>
      match elements[i]? with
      | some v => follow tokens rest v
      | none => .refused
    | _ => .refused
  | .all :: rest, n =>
    match n with
    | .sequence start elements =>
      if followAll tokens rest elements then .several start else .refused
    | _ => .refused
  | .anywhere _ :: _, n => .several n.token

/-- Whether steps can be followed from all nodes. -/
def followAll (tokens : Tokens) (steps : List Step) : List Node → Bool
  | [] => true
  | n :: rest =>
    (match follow tokens steps n with
      | .refused => false
      | _ => true) && followAll tokens steps rest

end

/-- Follows a path in the first document in which it leads anywhere. -/
def find (stream : Stream) (p : Path) : Found :=
  go stream.documents
where
  /-- Looks in one document after the other. -/
  go : List (Option Node) → Found
    | [] => .nothing
    | none :: rest => go rest
    | some (.directive _) :: rest => go rest
    | some n :: rest =>
      match follow stream.tokens p.steps n with
      | .nothing => go rest
      | found => found

/-- The position of the last occurrence of a character. -/
def lastIndexOf? (c : Char) (cs : List Char) : Option Nat :=
  let after := cs.reverse.takeWhile (· ≠ c)
  if after.length = cs.length then none else some (cs.length - after.length - 1)

/-- A key as it is written in a document. -/
def writtenKey (tokens : Tokens) : Node → String
  | .scalar t | .word t =>
    let t := tokens[t]?.getD default
    match t.kind with
    | .doubleQuoted => Text.quoted t.value
    | .singleQuoted => "'" ++ t.value ++ "'"
    | _ => t.value
  | .alias _ name => "*" ++ (tokens[name]?.getD default).value
  | .anchor _ name v => "&" ++ (tokens[name]?.getD default).value ++ " " ++ writtenKey tokens v
  | .tag t v => (tokens[t]?.getD default).value ++ " " ++ writtenKey tokens v
  | .explicit _ v => "? " ++ writtenKey tokens v
  | _ => ""

/-- The key at which a path that ends with a field points, looked up in the map that holds it. -/
def keyToken? (stream : Stream) (p : Path) : Option Nat := do
  let cs := p.text.toList
  let dot ← lastIndexOf? '.' cs
  if let some bracket := lastIndexOf? '[' cs then
    if dot < bracket then none
  let parent ← parse? (String.ofList (cs.take dot))
  let name := String.ofList (cs.drop (dot + 1))
  match find stream parent with
  | .node (.mapping _ entries) =>
    (entries.find? fun (k, _) => writtenKey stream.tokens k = name).map (·.1.token)
  | _ => none

/-- The token a path leads to: the key where there is one, else the node. -/
def token? (stream : Stream) (p : Path) : Option Nat :=
  let found := match find stream p with
    | .node n => some n.token
    | .several t => some t
    | _ => none
  found.map fun t => (keyToken? stream p).getD t

end Path

/-- The path of a place given by names and indices, in which a number is an index. -/
def Path.ofLocation (location : List String) : Path :=
  location.foldl (fun p part =>
    match digitsIn? 10 part.toList with
    | some n => if n < Word.size then p.index n else p.child part
    | none => p.child part) .root

/-- The text of a place given by names and indices. -/
def locationText (location : List String) : String :=
  "$" ++ String.join (location.map fun part =>
    match digitsIn? 10 part.toList with
    | some n => if n < Word.size then "[" ++ part ++ "]" else "." ++ part
    | none => "." ++ part)

end RuleScan.Yaml
