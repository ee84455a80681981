import RuleScan.Yaml.Group

/-!
# The structure of a YAML document

The nodes of a document refer to tokens by number, so that whatever is said about a node later can
point at its place.  Building the structure may link tokens into the chain that stand for values
that are not written.
-/

namespace RuleScan.Yaml

/-- A node of a document. -/
inductive Node where
  | scalar (token : Nat)
  /-- The word that a token is written as, whatever it looks like. -/
  | word (token : Nat)
  /-- A block text with its header; the text may be missing. -/
  | block (header : Nat) (text : Option Nat)
  /-- The entries of a map, each a key with its value. -/
  | mapping (start : Nat) (entries : List (Node × Node))
  | sequence (start : Nat) (elements : List Node)
  | anchor (start name : Nat) (value : Node)
  | alias (start name : Nat)
  | tag (start : Nat) (value : Node)
  /-- A key behind a key mark. -/
  | explicit (mark : Nat) (key : Node)
  | directive (start : Nat)
  deriving Inhabited

/-- The token that stands for a node. -/
def Node.token : Node → Nat
  | .scalar t | .word t | .block t _ | .mapping t _ | .sequence t _ | .anchor t _ _ | .alias t _
  | .tag t _ | .explicit t _ | .directive t => t

/-- The state of building: the chain of tokens, the keys met so far with their paths, and what
the directives said. -/
structure Building where
  tokens : Tokens
  keys : List (String × Position) := []
  /-- Whether the version has been given. -/
  versioned : Bool := false
  /-- Whether the tags with two exclamation marks have another meaning, so that what they mark is
  taken as it is written. -/
  retagged : Bool := false
  deriving Inhabited

/-- A step of building. -/
abbrev Builder := StateT Building (Except Fault)

namespace Builder

/-- Where the builder stands: the path of the node and whether it is inside brackets. -/
structure Context where
  path : String := "$"
  inBrackets : Bool := false
  deriving Inhabited

/-- The context of the value of a key.  A name that could be mistaken for several steps stands in
quotes. -/
def Context.child (ctx : Context) (name : String) : Context :=
  let cs := name.toList
  let quoted := cs.head? = some '\'' && cs.getLast? = some '\''
  let special := cs.any fun c => ['$', '*', '.', '[', ']'].contains c
  { ctx with path := ctx.path ++ "." ++ if special && !quoted then "'" ++ name ++ "'" else name }

/-- The context of an element of a list. -/
def Context.element (ctx : Context) (i : Nat) : Context :=
  { ctx with path := ctx.path ++ "[" ++ toString i ++ "]" }

/-- Fails at a token. -/
def failAtToken {α : Type} (token : Nat) (message : String) : Builder α := do
  throw ⟨message, some token, (← get).tokens⟩

/-- Fails at a group. -/
def failAt {α : Type} (g : Group) (message : String) : Builder α := failAtToken g.first message

/-- Fails where a document ends too early. -/
def failAtEnd {α : Type} : Builder α := failAtToken 0 "unexpected end of document"

/-- A token by number. -/
def tokenAt (i : Nat) : Builder Token := return (← get).tokens[i]?.getD default

/-- The line and column of a group; nothing left counts as column zero. -/
def place (groups : List Group) : Builder (Nat × Nat) := do
  match groups with
  | [] => return (0, 0)
  | g :: _ =>
    let t ← tokenAt g.first
    return (t.pos.line, t.pos.column)

/-- The kind of the first token of what is left. -/
def nextKind (groups : List Group) : Builder (Option Token.Kind) := do
  match groups with
  | [] => return none
  | g :: _ => return some (← tokenAt g.first).kind

/-- Changes a token. -/
def modifyToken (i : Nat) (f : Token → Token) : Builder Unit :=
  modify fun st => { st with tokens := st.tokens.modify i f }

/-- Makes a token that is not written, some columns behind the token `base`. -/
def tokenAfter (base columns : Nat) (kind : Token.Kind) (value origin : String) : Builder Nat := do
  let t ← tokenAt base
  let n := (← get).tokens.size
  let made : Token := { kind, value, origin, pos := ⟨t.pos.line, t.pos.column + columns⟩ }
  modify fun st => { st with tokens := st.tokens.push made }
  return n

/-- Makes a token for a value that is not written, behind the token `base`. -/
def missingAfter (base columns : Nat) : Builder Nat :=
  tokenAfter base columns .missing "null" " null"

/-- Links a token in before another one. -/
def linkBefore (n before : Nat) : Builder Unit := do
  modifyToken n ({ · with next := some before })
  modifyToken before ({ · with prev := some n })

/-- Links a missing value in before a token. -/
def insertMissing (base before : Nat) : Builder Node := do
  let n ← missingAfter base 1
  linkBefore n before
  return .scalar n

/-- Links a missing value in at the end. -/
def appendMissing (base last : Nat) : Builder Node := do
  let n ← missingAfter base 2
  modifyToken n ({ · with prev := some last })
  modifyToken last ({ · with next := some n })
  return .scalar n

/-- An anchor at the name of which nothing stands. -/
def anchoredMissing (g : Group) : Builder Node := do
  let name := match g.items with
    | [_, n] => n.first
    | _ => g.first
  return .anchor g.first name (.scalar (← missingAfter g.first 1))

/-- The value that a tag of scalars gives where none is written, before the token that stands
there instead. -/
def defaultValue (tag before : Nat) : Builder Node := do
  let (kind, text) : Token.Kind × String := match (← tokenAt tag).value with
    | "!!int" => (.plain (.int 0), "0")
    | "!!float" => (.plain (.float 0), "0")
    | "!!bool" => (.plain (.bool false), "false")
    | "!!null" => (.plain .null, "null")
    | _ => (.plain .text, "")
  let n ← tokenAfter tag 1 kind text text
  linkBefore n before
  return .scalar n

/-- Whether a group starts a map or ends one in brackets. -/
def isMapGroup (g : Group) : Builder Bool := do
  match g with
  | .many _ _ => return g.isEntry
  | .single i =>
    match (← tokenAt i).kind with
    | .mapStart | .mapEnd => return true
    | _ => return false

/-- The text of a key in paths; an alias has none. -/
def keyText : Node → Builder String
  | .explicit _ v | .tag _ v | .anchor _ _ v => keyText v
  | .alias _ _ => return ""
  | n => return (← tokenAt n.token).value

/-- A key must be new in its map and, except in a map in brackets, stand on one line. -/
def registerKey (ctx : Context) (inMap : Bool) (key : Node) : Builder Unit := do
  let t ← tokenAt key.token
  let path := (ctx.child (← keyText key)).path
  if let some (_, p) := (← get).keys.find? (·.1 = path) then
    failAtToken key.token ("mapping key " ++ Text.quoted t.value ++ " already defined at [" ++
      toString p.line ++ ":" ++ toString p.column ++ "]")
  let isText := match t.kind with
    | .plain .text => true
    | _ => false
  let outer (c : Char) : Bool := c = ' ' || c = '\n' || c = '\r'
  let front := t.origin.toList.dropWhile outer
  let body := if ctx.inBrackets && !isText then front else Text.dropEndWhile outer front
  if body.contains '\n' && !inMap then failAtToken key.token "unexpected key name"
  modify fun st => { st with keys := (path, t.pos) :: st.keys }

/-- Nothing but a shallower line may follow a value on the line of its key. -/
def checkAfterValue (ctx : Context) (keyColumn : Nat) (groups : List Group) : Builder Unit := do
  match groups with
  | [] => return
  | g :: _ =>
    let (_, column) ← place groups
    if column ≤ keyColumn then return
    match ctx.inBrackets, ← nextKind groups with
    | true, some .comma | true, some .listEnd => return
    | _, _ => failAt g "value is not allowed in this context. map key-value is pre-defined"

/-- Whether what is left starts with a comma or the end of a map in brackets. -/
def mapDelimiterNext (groups : List Group) : Builder Bool := do
  match ← nextKind groups with
  | some .comma | some .mapEnd => return true
  | _ => return false

/-- A tag behind an anchor may not stand on a line of its own that is not deep enough. -/
def checkAnchored (column : Nat) : Node → Builder Unit
  | .anchor a _ (.tag t _) => do
    let anchor := (← tokenAt a).pos
    let tag := (← tokenAt t).pos
    if anchor.line ≠ tag.line && tag.column ≤ column then
      failAtToken t "tag is not allowed in this context"
  | _ => return

/-- What a directive says.  Only the version and the meaning of tags are known. -/
def directive (g : Group) : Builder Node := do
  let values := g.items.drop 2
  let name := (← tokenAt (((g.items[1]?).map Group.first).getD 0)).value
  match name, values with
  | _, [] => pure ()
  | "YAML", [v] =>
    let version := (← tokenAt v.first).value
    if !(["1.0", "1.1", "1.2", "1.3"].contains version) then
      failAt v ("unknown YAML version " ++ Text.quoted version)
    if (← get).versioned then failAt v "YAML version has already been specified"
    modify ({ · with versioned := true })
  | "YAML", _ => failAt g "unexpected format YAML directive"
  | "TAG", [handle, _] =>
    if (← tokenAt handle.first).value = "!!" then modify ({ · with retagged := true })
  | "TAG", _ => failAt g "unexpected format TAG directive"
  | _, _ => pure ()
  return .directive g.first

mutual

/-- The node at the front of the groups, and the groups behind it. -/
def node (fuel : Nat) (ctx : Context) (groups : List Group) : Builder (Node × List Group) := do
  match fuel, groups with
  | 0, _ | _, [] => failAtEnd
  | fuel + 1, g :: rest =>
    match g.kind? with
    | some .key | some .keyValue => blockMap fuel ctx groups
    | some .directive => return (← directive g, rest)
    | some .anchorName =>
      let name := match g.items with
        | [_, n] => n.first
        | _ => g.first
      if rest.isEmpty then failAt g "could not find anchor value"
      let (value, rest) ← node fuel ctx rest
      return (← anchored g.first name value, rest)
    | some _ => return (← scalar fuel ctx g [], rest)
    | none =>
      match (← tokenAt g.first).kind with
      | .tag => tagged fuel ctx g rest
      | .mapStart => flowMap fuel { ctx with inBrackets := true } g rest [] true
      | .listStart => flowList fuel { ctx with inBrackets := true } g rest [] true
      | .entryMark => blockList fuel ctx g groups []
      | .listEnd => failAt g "could not find '[' character corresponding to ']'"
      | .mapEnd => failAt g "could not find '\x7b' character corresponding to '\x7d'"
      | .valueMark => failAt g "found an invalid key for this map"
      | _ => return (← scalar fuel ctx g [], rest)

/-- An anchor with its value, which is no anchor itself. -/
def anchored (start name : Nat) (value : Node) : Builder Node := do
  match value with
  | .anchor t _ _ => failAtToken t "anchors cannot be used consecutively"
  | _ => return .anchor start name value

/-- The scalar that a group holds; behind a tag that stands alone the groups are needed that
follow. -/
def scalar (fuel : Nat) (ctx : Context) (g : Group) (rest : List Group) : Builder Node := do
  match fuel, g with
  | 0, _ => failAtEnd
  | _, .many .block [header, text] => return .block header.first (some text.first)
  | _, .many .block _ => return .block g.first none
  | _, .many .alias [star, name] => return .alias star.first name.first
  | fuel + 1, .many .anchored [.many _ [mark, name], value] =>
    let (value, _) ← node fuel ctx [value]
    anchored mark.first name.first value
  | fuel + 1, .many .taggedScalar [tag, value] => return (← tagged fuel ctx tag [value]).1
  | _, .many _ _ => failAt g "unexpected scalar value"
  | fuel + 1, .single t =>
    match (← tokenAt t).kind with
    | .plain _ | .singleQuoted | .doubleQuoted | .missing | .mergeKey => return .scalar t
    | .tag =>
      match (← tagged fuel ctx g rest).1 with
      | .tag _ (.mapping _ _) | .tag _ (.sequence _ _) => failAt g "specified not scalar tag"
      | n => return n
    | _ => failAt g "unexpected scalar value type"

/-- The value behind a tag. -/
def tagged (fuel : Nat) (ctx : Context) (g : Group) (rest : List Group) :
    Builder (Node × List Group) := do
  match fuel, rest with
  | 0, _ => failAtEnd
  | _, [] => return (.tag g.first (.scalar (← missingAfter g.first 1)), [])
  | fuel + 1, next :: more =>
    let name := (← tokenAt g.first).value
    let marked (r : Node × List Group) : Node × List Group := (.tag g.first r.1, r.2)
    if (← get).retagged then return (.tag g.first (.word next.first), rest)
    else if name = "!!map" || name = "!!set" then
      if !(← isMapGroup next) then failAt next "could not find map"
      return marked (← node fuel ctx rest)
    else if name = "!!seq" || name = "!!omap" then
      match (← tokenAt next.first).kind with
      | .listStart => return marked (← node fuel ctx rest)
      | _ => return marked (← blockList fuel ctx next rest [])
    else if Group.scalarTags.contains name then
      match (← tokenAt next.first).kind with
      | .comma | .valueMark => return (.tag g.first (← defaultValue g.first next.first), rest)
      | _ => return (.tag g.first (← scalar fuel ctx next more), more)
    else return marked (← node fuel ctx rest)

/-- The key of a group and the token behind which its value stands; `inMap` tells that it stands
in a map in brackets. -/
def keyOf (fuel : Nat) (ctx : Context) (inMap : Bool) (g : Group) : Builder (Node × Nat) := do
  match fuel, g with
  | fuel + 1, .many .key items =>
    let first := (items.head?).getD (.single 0)
    let last := (items.getLast?).getD (.single 0)
    let key ← match (← tokenAt first.first).kind with
      | .keyMark =>
        -- the mark and the key may already be a group of their own
        let key := match first with
          | .many .key [_, key] => key
          | _ => last
        pure (.explicit first.first (← scalar fuel ctx key []))
      | _ => scalar fuel ctx first [last]
    registerKey ctx inMap key
    return (key, last.first)
  | _, _ => failAt g "unexpected map key"

/-- A map whose entries stand in one column. -/
def blockMap (fuel : Nat) (ctx : Context) (groups : List Group) : Builder (Node × List Group) := do
  match fuel, groups with
  | 0, _ | _, [] => failAtEnd
  | fuel + 1, _ :: _ =>
    let (entry, mark, rest) ← blockEntry fuel ctx groups
    let (_, column) ← place groups
    let (entries, rest) ← moreEntries fuel ctx column rest
    return (.mapping mark (entry :: entries), rest)

/-- The further entries of a map in its column. -/
def moreEntries (fuel : Nat) (ctx : Context) (column : Nat) (groups : List Group) :
    Builder (List (Node × Node) × List Group) := do
  match fuel, groups with
  | 0, _ | _, [] => return ([], groups)
  | fuel + 1, g :: rest =>
    let (_, here) ← place groups
    let kind ← nextKind groups
    if here ≠ column then return ([], groups)
    match ctx.inBrackets, kind with
    | true, some .listEnd => return ([], groups)
    | _, _ =>
      if !(← isMapGroup g) then failAt g "non-map value is specified"
      match kind with
      | some .mapEnd => return ([], rest)
      | _ =>
        match g with
        | .single _ => failAt g "unexpected map key"
        | _ =>
          let (entry, _, rest) ← blockEntry fuel ctx groups
          let (entries, rest) ← moreEntries fuel ctx column rest
          return (entry :: entries, rest)

/-- One entry of a map in a block, with the token of its value mark. -/
def blockEntry (fuel : Nat) (ctx : Context) (groups : List Group) :
    Builder ((Node × Node) × Nat × List Group) := do
  match fuel, groups with
  | 0, _ | _, [] => failAtEnd
  | fuel + 1, g :: rest =>
    let (keyLine, keyColumn) ← place groups
    match g with
    | .many .keyValue [keyGroup, value] =>
      let (key, mark) ← keyOf fuel ctx false keyGroup
      let (v, _) ← node fuel (ctx.child (← keyText key)) [value]
      checkAfterValue ctx keyColumn rest
      return ((key, v), mark, rest)
    | _ =>
      let (key, mark) ← keyOf fuel ctx false g
      if let next :: _ := rest then
        let t ← tokenAt next.first
        if t.isEntryMark && t.pos.line = keyLine then
          failAt next "block sequence entries are not allowed in this context"
      let (v, rest) ← blockValue fuel (ctx.child (← keyText key)) key mark rest
      return ((key, v), mark, rest)

/-- The value of a key in a block; it may be missing. -/
def blockValue (fuel : Nat) (ctx : Context) (key : Node) (mark : Nat) (groups : List Group) :
    Builder (Node × List Group) := do
  match fuel, groups with
  | 0, _ => failAtEnd
  | _, [] => return (← appendMissing mark mark, [])
  | fuel + 1, g :: rest =>
    let keyPos := (← tokenAt key.token).pos
    let (line, column) ← place groups
    if column ≠ keyPos.column && line = keyPos.line && g.isEntry then
      failAt g "mapping value is not allowed in this context"
    else if column = keyPos.column && (← isMapGroup g) then
      return (← insertMissing mark g.first, groups)
    else
      let (_, nextColumn) ← place rest
      let nextIsMap ← match rest with
        | next :: _ => isMapGroup next
        | [] => pure false
      let named := line = keyPos.line && g.kind? = some .anchorName
      if named && nextColumn = keyPos.column && nextIsMap then
        return (← anchoredMissing g, rest)
      else if column ≤ keyPos.column && g.kind? = some .anchorName then
        failAt g "anchor is not allowed in this context"
      else if column ≤ keyPos.column && g.isTag (← get).tokens then
        failAt g "tag is not allowed in this context"
      else if column < keyPos.column then return (← insertMissing mark g.first, groups)
      else if named && nextColumn < keyPos.column then return (← anchoredMissing g, rest)
      else
        let (v, rest) ← node fuel ctx groups
        checkAnchored keyPos.column v
        return (v, rest)

/-- A list whose entry marks stand in one column. -/
def blockList (fuel : Nat) (ctx : Context) (start : Group) (groups : List Group)
    (done : List Node) : Builder (Node × List Group) := do
  match fuel, groups with
  | 0, _ | _, [] => return (.sequence start.first done.reverse, groups)
  | fuel + 1, g :: rest =>
    let t ← tokenAt g.first
    let s ← tokenAt start.first
    if g.kind?.isNone && t.isEntryMark && t.pos.column = s.pos.column then
      let (v, rest) ← listValue fuel (ctx.element done.length) start g.first rest
      blockList fuel ctx start rest (v :: done)
    else return (.sequence start.first done.reverse, groups)

/-- The value behind an entry mark; it may be missing. -/
def listValue (fuel : Nat) (ctx : Context) (start : Group) (mark : Nat) (groups : List Group) :
    Builder (Node × List Group) := do
  match fuel, groups with
  | 0, _ => failAtEnd
  | _, [] => return (← appendMissing start.first mark, [])
  | fuel + 1, g :: rest =>
    let s := (← tokenAt start.first).pos
    let (line, column) ← place groups
    let isMark (gs : List Group) : Builder Bool := do
      match gs with
      | .single i :: _ => return (← tokenAt i).isEntryMark
      | _ => return false
    if column = s.column && (← isMark groups) then
      return (← insertMissing start.first g.first, groups)
    else
      let (_, nextColumn) ← place rest
      let named := line = s.line && g.kind? = some .anchorName
      if named && nextColumn = s.column && (← isMark rest) then return (← anchoredMissing g, rest)
      else if column ≤ s.column && g.kind? = some .anchorName then
        failAt g "anchor is not allowed in this sequence context"
      else if column ≤ s.column && g.isTag (← get).tokens then
        failAt g "tag is not allowed in this sequence context"
      else if column < s.column then return (← insertMissing start.first g.first, groups)
      else if named && nextColumn < s.column then return (← anchoredMissing g, rest)
      else
        let (v, rest) ← node fuel ctx groups
        checkAnchored s.column v
        return (v, rest)

/-- A list in brackets, from behind its start on. -/
def flowList (fuel : Nat) (ctx : Context) (start : Group) (groups : List Group) (done : List Node)
    (isFirst : Bool) : Builder (Node × List Group) := do
  match fuel, groups with
  | 0, _ | _, [] => failAt start "sequence end token ']' not found"
  | fuel + 1, g :: rest =>
    let finish (rest : List Group) : Builder (Node × List Group) :=
      return (.sequence start.first done.reverse, rest)
    match ← nextKind groups with
    | some .listEnd => finish rest
    | some .comma =>
      if isFirst then failAt g "expected sequence element, but found ','"
      match rest, ← nextKind rest with
      | [], _ => failAt start "sequence end token ']' not found"
      | _ :: rest', some .listEnd => finish rest'
      | _, _ => flowElement fuel ctx start rest done
    | _ =>
      if !isFirst then failAt g "',' or ']' must be specified"
      flowElement fuel ctx start groups done

/-- One element of a list in brackets, and what follows it. -/
def flowElement (fuel : Nat) (ctx : Context) (start : Group) (groups : List Group)
    (done : List Node) : Builder (Node × List Group) := do
  match fuel with
  | 0 => failAt start "sequence end token ']' not found"
  | fuel + 1 =>
    let (v, rest) ← node fuel (ctx.element done.length) groups
    flowList fuel ctx start rest (v :: done) false

/-- A map in brackets, from behind its start on. -/
def flowMap (fuel : Nat) (ctx : Context) (start : Group) (groups : List Group)
    (done : List (Node × Node)) (isFirst : Bool) : Builder (Node × List Group) := do
  match fuel, groups with
  | 0, _ | _, [] => failAt start "could not find flow mapping end token '\x7d'"
  | fuel + 1, g :: rest =>
    let finish (rest : List Group) : Builder (Node × List Group) :=
      return (.mapping start.first done.reverse, rest)
    match ← nextKind groups with
    | some .mapEnd => finish rest
    | some .comma =>
      match rest, ← nextKind rest with
      | [], _ => failAt g "could not find flow map content"
      | _ :: rest', some .mapEnd => finish rest'
      | _, _ => flowEntry fuel ctx start rest done
    | _ =>
      if !isFirst then failAt g "',' or '\x7d' must be specified"
      flowEntry fuel ctx start groups done

/-- One entry of a map in brackets, and what follows it. -/
def flowEntry (fuel : Nat) (ctx : Context) (start : Group) (groups : List Group)
    (done : List (Node × Node)) : Builder (Node × List Group) := do
  match fuel, groups with
  | 0, _ | _, [] => failAt start "could not find flow mapping end token '\x7d'"
  | fuel + 1, g :: rest =>
    match g with
    | .many .keyValue [keyGroup, value] =>
      let (key, _) ← keyOf fuel ctx true keyGroup
      let (v, _) ← node fuel (ctx.child (← keyText key)) [value]
      flowMap fuel ctx start rest ((key, v) :: done) false
    | .many .key _ =>
      let (key, mark) ← keyOf fuel ctx true g
      if ← mapDelimiterNext rest then
        let v ← insertMissing mark g.first
        flowMap fuel ctx start rest ((key, v) :: done) false
      else if rest.isEmpty then failAtToken mark "could not find map value"
      else
        let (v, rest) ← node fuel (ctx.child (← keyText key)) rest
        flowMap fuel ctx start rest ((key, v) :: done) false
    | _ =>
      if !(← mapDelimiterNext rest) then failAt g "could not find flow map content"
      let key ← scalar fuel ctx g rest
      -- a tag that stands alone has taken the comma behind it for the place of its value
      let tagged := g.kind?.isNone && g.isTag (← get).tokens
      let before := if tagged then ((rest.head?).map Group.first).getD g.first else g.first
      let v ← insertMissing g.first before
      flowMap fuel ctx start (if tagged then rest.drop 1 else rest) ((key, v) :: done) false

end

/-- The node of a document between the marks of its start and its end; nothing may be left behind
it.  The end of a document also ends what its directives said. -/
def document (groups : List Group) : Builder (Option Node) := do
  let tokens := (← get).tokens
  let groups := match groups with
    | g :: rest => if g.startsDocument tokens then rest else groups
    | [] => []
  let isEnd (g : Group) : Bool := match g.tokenKind tokens with
    | .documentEnd => true
    | _ => false
  let ended := groups.getLast?.any isEnd
  let groups := if ended then groups.dropLast else groups
  modify ({ · with keys := [] })
  let found ← if groups.isEmpty then pure none
    else do
      let (n, rest) ← node (16 * groups.length + 32) {} groups
      match rest with
      | [] => pure (some n)
      | g :: _ => failAt g "value is not allowed in this context"
  if ended then modify ({ · with versioned := false, retagged := false })
  return found

end Builder

/-- The documents of a stream with the chain of tokens they refer to.  A document without content
is `none`. -/
structure Stream where
  tokens : Tokens
  documents : List (Option Node)
  deriving Inhabited

/-- Reads the structure of a stream. -/
def parse (source : String) : Except Fault Stream := do
  let tokens := tokenize source
  let groups ← Group.ofTokens tokens
  let (documents, st) ← (groups.mapM Builder.document).run { tokens }
  return ⟨st.tokens, documents⟩

end RuleScan.Yaml
