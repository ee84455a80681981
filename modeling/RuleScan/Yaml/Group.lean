import RuleScan.Yaml.Scan

/-!
# Groups of tokens

Tokens that belong together are grouped before the structure of a document is built: a header with
its text, an anchor with its name and value, a tag with its scalar, a key with its mark, and a key
with a value on the same line.
-/

namespace RuleScan.Yaml

/-- The kinds of groups. -/
inductive Group.Kind where
  | block
  | anchorName
  | anchored
  | alias
  | taggedScalar
  | key
  | keyValue
  | directive
  deriving Repr, DecidableEq, Inhabited

/-- A token by its number, or a group. -/
inductive Group where
  | single (token : Nat)
  | many (kind : Group.Kind) (items : List Group)
  deriving Inhabited

/-- A fault in a document, at a token if its place is known; the chain is kept for the lines
around it. -/
structure Fault where
  message : String
  token : Option Nat
  tokens : Tokens
  deriving Inhabited

namespace Group

/-- The first token of a group. -/
def first : Group → Nat
  | .single t => t
  | .many _ [] => 0
  | .many _ (g :: _) => first g

/-- The kind of a group; a single token has none. -/
def kind? : Group → Option Group.Kind
  | .single _ => none
  | .many k _ => some k

/-- The members of a group. -/
def items : Group → List Group
  | .single t => [.single t]
  | .many _ items => items

variable (tokens : Tokens)

/-- The first token of a group. -/
def head (g : Group) : Token := tokens[g.first]?.getD default

/-- The line of a group. -/
def line (g : Group) : Nat := (g.head tokens).pos.line

/-- The column of a group. -/
def column (g : Group) : Nat := (g.head tokens).pos.column

/-- The kind of the first token of a group. -/
def tokenKind (g : Group) : Token.Kind := (g.head tokens).kind

/-- Whether a group is a scalar. -/
def isScalar (g : Group) : Bool :=
  match g.kind? with
  | some .key | some .keyValue => false
  | _ => (g.head tokens).isScalar

/-- Whether a group is an entry of a map, or the key of one. -/
def isEntry (g : Group) : Bool := g.kind? = some .key || g.kind? = some .keyValue

/-- Whether a group starts with the mark of a document's start. -/
def startsDocument (g : Group) : Bool :=
  match g.tokenKind tokens with
  | .documentStart => true
  | _ => false

/-- Whether a group starts with a tag. -/
def isTag (g : Group) : Bool :=
  match g.tokenKind tokens with
  | .tag => true
  | _ => false

/-- Whether a group starts with a mark that is no key. -/
def isNoKey (g : Group) : Bool :=
  match g.tokenKind tokens with
  | .directive | .documentStart | .documentEnd | .comma | .mapStart | .valueMark | .mapEnd
  | .listStart | .entryMark | .listEnd => true
  | _ => false

/-- Whether a group starts with the mark of a list entry. -/
def isEntryMark (g : Group) : Bool := (g.head tokens).isEntryMark

/-- Whether a group opens or closes brackets or divides what is in them. -/
def isFlowMark (g : Group) : Bool :=
  match g.tokenKind tokens with
  | .listStart | .listEnd | .mapStart | .mapEnd | .comma => true
  | _ => false

/-- A fault at a group. -/
def fault (g : Group) (message : String) : Fault := ⟨message, some g.first, tokens⟩

/-- Groups headers with their texts. -/
def withBlocks : List Group → List Group
  | [] => []
  | g :: rest =>
    match g.tokenKind tokens with
    | .literal | .folded =>
      match rest with
      | text :: rest => .many .block [g, text] :: withBlocks rest
      | [] => [.many .block [g]]
    | _ => g :: withBlocks rest

/-- Groups anchors and aliases with their names, and anchors with a scalar on the same line. -/
def withAnchors : List Group → Except Fault (List Group)
  | [] => .ok []
  | g :: rest =>
    match g.tokenKind tokens with
    | .anchor =>
      match rest with
      | [] => .error (g.fault tokens "undefined anchor name")
      | [_] => .error (g.fault tokens "undefined anchor value")
      | name :: value :: rest' =>
        let named := Group.many .anchorName [g, name]
        let sameLine := g.line tokens = value.line tokens
        if sameLine && value.isEntryMark tokens then
          .error (value.fault tokens
            "sequence entries are not allowed after anchor on the same line")
        else if sameLine && value.isScalar tokens then
          (withAnchors rest').map (.many .anchored [named, value] :: ·)
        else (withAnchors (value :: rest')).map (named :: ·)
    | .alias =>
      match rest with
      | [] => .error (g.fault tokens "undefined alias name")
      | name :: rest => (withAnchors rest).map (.many .alias [g, name] :: ·)
    | _ => (withAnchors rest).map (g :: ·)

/-- The tags of scalars. -/
def scalarTags : List String :=
  ["!!int", "!!float", "!!str", "!!binary", "!!timestamp", "!!bool", "!!null"]

/-- Whether a tag and what follows it on the line form one scalar. -/
def tagTakes (g next : Group) : Bool :=
  let value := (g.head tokens).value
  if g.line tokens ≠ next.line tokens || next.kind? = some .anchorName then false
  else if value.toList.take 2 = ['!', '!'] then
    scalarTags.contains value && next.isScalar tokens
  else !next.isFlowMark tokens

/-- Whether a tag asks for the merge key behind it on the line. -/
def wantsMergeKey (g next : Group) : Bool :=
  (g.head tokens).value = "!!merge" && g.line tokens = next.line tokens &&
    next.kind? ≠ some .anchorName

/-- Whether a group is the merge key. -/
def isMergeKey (g : Group) : Bool :=
  match g.tokenKind tokens with
  | .mergeKey => true
  | _ => false

/-- Groups tags with their scalars. -/
def withTags : List Group → Except Fault (List Group)
  | [] => .ok []
  | [g] => .ok [g]
  | g :: next :: rest =>
    if !g.isTag tokens then (withTags (next :: rest)).map (g :: ·)
    else if wantsMergeKey tokens g next then
      if next.isMergeKey tokens then (withTags rest).map (.many .taggedScalar [g, next] :: ·)
      else .error (next.fault tokens "could not find merge key")
    else if tagTakes tokens g next then (withTags rest).map (.many .taggedScalar [g, next] :: ·)
    else (withTags (next :: rest)).map (g :: ·)

/-- Groups anchors with a tagged scalar on the same line. -/
def withTaggedAnchors : List Group → List Group
  | [] => []
  | [g] => [g]
  | g :: next :: rest =>
    if g.kind? = some .anchorName && next.kind? = some .taggedScalar &&
        g.line tokens = next.line tokens then
      .many .anchored [g, next] :: withTaggedAnchors rest
    else g :: withTaggedAnchors (next :: rest)

/-- Groups the key mark with the key that follows it. -/
def withKeyMarks : List Group → Except Fault (List Group)
  | [] => .ok []
  | g :: rest =>
    match g.tokenKind tokens with
    | .keyMark =>
      match rest with
      | [] => .error (g.fault tokens "undefined map key")
      | key :: rest => (withKeyMarks rest).map (.many .key [g, key] :: ·)
    | _ => (withKeyMarks rest).map (g :: ·)

/-- Groups keys with the value marks behind them; `done` holds the groups so far in reverse, and
`marked` tells that the last of them ends with a value mark. -/
def withValueMarks (done : List Group) (marked : Bool) : List Group → Except Fault (List Group)
  | [] => .ok done.reverse
  | g :: rest =>
    match g.tokenKind tokens with
    | .valueMark =>
      match done with
      | [] => .error (g.fault tokens "unexpected key name")
      | key :: before =>
        if marked || key.isNoKey tokens then
          .error (g.fault tokens "found an invalid key for this map")
        else withValueMarks (.many .key [key, g] :: before) true rest
    | _ => withValueMarks (g :: done) false rest

/-- Whether a group can stand as a value in one group with its key. -/
def joinsKey (value : Group) : Bool :=
  value.kind? ≠ some .anchorName &&
    (value.isScalar tokens || value.kind? = some .taggedScalar)

/-- Groups keys with a scalar on the same line. -/
def withValues : List Group → List Group
  | [] => []
  | [g] => [g]
  | g :: value :: rest =>
    if g.kind? = some .key && g.line tokens = value.line tokens && value.joinsKey tokens then
      .many .keyValue [g, value] :: withValues rest
    else g :: withValues (value :: rest)

/-- Takes the groups that stand on a line. -/
def onLine (n : Nat) (groups : List Group) : List Group × List Group :=
  groups.span fun g => g.line tokens = n

/-- Groups a directive with the words on its line; a document has to follow. -/
def withDirectives (fuel : Nat) (groups : List Group) : Except Fault (List Group) :=
  match fuel, groups with
  | 0, _ | _, [] => .ok groups
  | fuel + 1, g :: rest =>
    match g.tokenKind tokens with
    | .directive =>
      match rest with
      | [] => .error (g.fault tokens "undefined directive value")
      | name :: rest =>
        let (values, rest) := onLine tokens (g.line tokens) rest
        if rest.head?.any (·.startsDocument tokens) then
          (withDirectives fuel rest).map (.many .directive (g :: name :: values) :: ·)
        else .error (g.fault tokens "unexpected directive value. document not started")
    | _ => (withDirectives fuel rest).map (g :: ·)

/-- Splits groups into documents.  A document keeps the marks of its start and end.  The mark of a
start belongs to the document behind it; behind two such marks nothing is read any more. -/
def documents (fuel : Nat) (groups : List Group) : Except Fault (List (List Group)) :=
  match fuel with
  | 0 => .ok [groups]
  | fuel + 1 =>
    let isMark (g : Group) : Bool := match g.tokenKind tokens with
      | .documentStart | .documentEnd => true
      | _ => false
    let (body, rest) := groups.span fun g => !isMark g
    match rest with
    | [] => .ok [body]
    | mark :: rest =>
      if mark.startsDocument tokens then
        let done := if body.isEmpty then [] else [body]
        match rest with
        | [] => .ok (done ++ [[mark]])
        | next :: _ =>
          if next.startsDocument tokens then .ok (done ++ [[mark]])
          else if mark.line tokens = next.line tokens &&
              (next.isEntry || next.isEntryMark tokens) then
            .error (next.fault tokens "value cannot be placed after document separator")
          else
            (documents fuel rest).map fun
              | [] => done ++ [[mark]]
              | first :: more => done ++ (mark :: first) :: more
      else
        let done := if body.isEmpty then [] else [body ++ [mark]]
        match rest with
        | [] => .ok done
        | next :: _ =>
          if next.isScalar tokens then .error (next.fault tokens "unexpected end content")
          else (documents fuel rest).map (done ++ ·)

/-- The documents of a stream as groups.  A stretch that is no token is a fault; comments are
left out. -/
def ofTokens : Except Fault (List (List Group)) := do
  let invalid? := (List.range tokens.size).findSome? fun i =>
    match (tokens[i]?.map Token.kind) with
    | some (.invalid reason) => some (i, reason)
    | _ => none
  if let some (i, reason) := invalid? then throw ⟨reason, some i, tokens⟩
  let kept := (List.range tokens.size).filter fun i =>
    match (tokens[i]?.map Token.kind) with
    | some .comment => false
    | _ => true
  let groups := withBlocks tokens (kept.map .single)
  let groups ← withAnchors tokens groups
  let groups := withTaggedAnchors tokens (← withTags tokens groups)
  let groups ← withKeyMarks tokens groups
  let groups ← withValueMarks tokens [] false groups
  let groups := withValues tokens groups
  let groups ← withDirectives tokens (groups.length + 1) groups
  documents tokens (groups.length + 1) groups

end Group

end RuleScan.Yaml
