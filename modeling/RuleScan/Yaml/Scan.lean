import RuleScan.Yaml.Quote

/-!
# Cutting a YAML document into tokens

One function per kind of token; each tells whether it applies by returning a new cursor.  A
character that starts no token is collected as part of a plain scalar.
-/

namespace RuleScan.Yaml.Cursor

/-- Compares the indentation of a line with the last mark when its first character is met. -/
def noteIndent (s : Cursor) (c : Char) : Cursor :=
  if s.atLineStart then
    if isLineEnd c || c = '\t' then s
    else if c = ' ' then { s with indent := s.indent + 1 }
    else
      { s with
        shift := if s.lastMark = 0 then s.shift else if s.lastMark < s.column then .deeper else .back
        atLineStart := false }
  else { s with shift := .inside }

/-- A mark of one character that also ends a collected value. -/
def single (s : Cursor) (c : Char) (kind : Token.Kind) : Cursor :=
  let s := s.flush
  (s.addOrigin c).mark kind (String.singleton c) 1

/-- Whether the cursor is inside brackets. -/
def inBrackets (s : Cursor) : Bool := s.openLists > 0 || s.openMaps > 0

/-- The start of a map or list in brackets. -/
def openBracket? (s : Cursor) (c : Char) : Option Cursor :=
  if s.hasValue && !s.inBrackets then none
  else if c = '[' then
    some { s.single c .listStart with openLists := s.openLists + 1 }
  else some { s.single c .mapStart with openMaps := s.openMaps + 1 }

/-- The end of a map or list in brackets. -/
def closeBracket? (s : Cursor) (c : Char) : Option Cursor :=
  if c = ']' then
    if s.hasValue && s.openLists ≤ 0 then none
    else some { s.single c .listEnd with openLists := s.openLists - 1 }
  else if s.openMaps ≤ 0 then none
  else some { s.single c .mapEnd with openMaps := s.openMaps - 1 }

/-- The number of equal characters ahead. -/
def repeated (s : Cursor) (c : Char) : Nat := (s.rest.takeWhile (· = c)).length

/-- A line that separates documents. -/
def separator? (s : Cursor) (c : Char) (kind : Token.Kind) : Option Cursor :=
  if s.indent ≠ 0 || s.column ≠ 1 || s.repeated c ≠ 3 then none
  else
    let s := s.flush.addOrigins [c, c, c]
    some (s.mark kind (String.ofList [c, c, c]) 3)

/-- The start of a document, which forgets the indentation. -/
def documentStart? (s : Cursor) : Option Cursor :=
  (s.separator? '-' .documentStart).map fun s => { s with lastMark := 0, indent := 0 }

/-- Whether nothing but spaces and colons stands before a colon that ends a key. -/
def colonAhead : List Char → Bool
  | ' ' :: rest => colonAhead rest
  | ':' :: c :: rest => c = ' ' || isLineEnd c || colonAhead (c :: rest)
  | _ => false

/-- Whether `<<` is a key here. -/
def isMergeKey (s : Cursor) : Bool := s.repeated '<' = 2 && colonAhead (s.rest.drop 2)

/-- The merge key. -/
def mergeKey? (s : Cursor) : Option Cursor :=
  if s.isMergeKey then
    some { (s.addOrigins ['<', '<']).mark .mergeKey "<<" 2 with lastMark := s.column }
  else none

/-- A dash that goes on with a plain text on a deeper line. -/
def dashInText? (s : Cursor) : Option Cursor :=
  if s.hasValue && s.shift = .deeper then
    let s := { s with block := some (({ style := .plain } : Block).noteColumn s.column) }
    some (((s.addValue '-').addOrigin '-').advance 1)
  else none

/-- Whether the stretch starts with a tab, perhaps behind a space. -/
def startsWithTab (s : Cursor) : Bool :=
  match s.origin.toList with
  | ' ' :: c :: _ => c = '\t'
  | c :: _ => c = '\t'
  | [] => false

/-- The mark of a list entry. -/
def entryMark? (s : Cursor) : Option Cursor :=
  let fits := match s.following with
    | none => true
    | some c => isBlank c || isLineEnd c || c = '\x00'
  if s.hasValue || !fits then none
  else if s.startsWithTab then
    some ((s.refuse "tab character cannot use as a sequence delimiter").advance 1)
  else some { s.single '-' .entryMark with lastMark := s.column }

/-- The comma between entries in brackets. -/
def comma? (s : Cursor) : Option Cursor :=
  if s.inBrackets then some (s.single ',' .comma) else none

/-- Whether the last token is the mark of a value. -/
def afterValueMark (s : Cursor) : Bool :=
  match s.lastToken? with
  | some t => (match t.kind with
    | .valueMark => true
    | _ => false)
  | none => false

/-- Whether a colon here is the mark of a value. -/
def isValueMark (s : Cursor) : Bool :=
  let ended := match s.following with
    | none => true
    | some c => isBlank c || isLineEnd c
  if s.inDirective || s.inAnchor || s.inAlias then false
  else if s.openMaps ≤ 0 then ended
  else s.following ≠ some '/' && !s.afterValueMark

/-- The mark between a key and its value. -/
def valueMark? (s : Cursor) : Option Cursor :=
  if !s.isValueMark then none
  else if s.startsWithTab && s.value.toList.head? ≠ some '\t' then
    let refused := s.refuse "tab character cannot use as a map key directly"
    some (refused.advance 1)
  else
    let (key, t) := s.cut?
    let t := match key with
      | some key => { t.add key with lastMark := key.pos.column }
      | none =>
        match t.lastToken? with
        | some q => if q.isQuoted then { t with lastMark := q.pos.column } else t
        | none => t
    some (((t.add { kind := .valueMark, value := ":", origin := ":", pos := t.pos }).advance 1).clear)

/-- The options in the header of a block text that make sense. -/
def isBlockOption (option : String) : Bool :=
  let inner := Block.optionBody option
  inner.isEmpty || (inner ≠ ['0'] &&
    match Block.signed? inner with
    | some n => n ≤ 9
    | none => false)

/-- How many characters a header has behind its mark, and whether a pair of characters ends its
line.  At the end of the document the last character counts as the end of the line. -/
def headerLength : List Char → Nat × Bool
  | [] => (0, false)
  | [_] => (0, false)
  | '\r' :: '\n' :: _ => (1, true)
  | c :: rest =>
    if isLineEnd c then (0, false)
    else
      let (n, pair) := headerLength rest
      (n + 1, pair)

/-- The header of a block text. -/
def blockHeader? (s : Cursor) (c : Char) : Option Cursor :=
  if s.hasValue then none
  else
    let start := s
    let s := (s.addOrigin c).pass 1
    let (passed, pair) := headerLength s.rest
    let s := s.addOrigins (s.rest.take (passed + 1))
    let content := s.rest.take (if pair then passed - 1 else passed)
    let value := Text.dropEndWhile (· = ' ') content
    let hash := value.findIdx? (· = '#')
    let option := Text.dropEndWhile isBlank (match hash with
      | some i => if i > 0 then value.take i else value
      | none => value)
    let option := String.ofList option
    if !isBlockOption option then
      let reason := "invalid header option: " ++ Text.quoted option
      some ((s.refuse reason).advance passed)
    else
      let s := if s.column = 1 then { s with lastMark := 1 } else s
      let stretch := s.origin.toList
      let cutAt := match stretch.findIdx? (· = '#') with
        | some i => if i > 0 then some i else none
        | none => none
      let header := match cutAt with
        | some i => stretch.take i
        | none => stretch
      let style : Block.Style := if c = '|' then .literal else .folded
      let kind : Token.Kind := if c = '|' then .literal else .folded
      let s := s.add
        { kind, value := String.singleton c ++ option, origin := String.ofList header,
          pos := start.pos }
      let s := match cutAt with
        | some i =>
          let at' : Position := ⟨s.line, s.column + header.length⟩
          s.add
            { kind := .comment, value := String.ofList (value.drop ((hash.getD 0) + 1)),
              origin := String.ofList (stretch.drop i), pos := at' }
        | none => s
      let s := { s with block := some (Block.start style s.lastMark option), shift := .inside }
      some (s.reset.advance passed).newLine

/-- A tag. -/
def tag? (s : Cursor) : Option Cursor :=
  if s.hasValue || s.inDirective then none
  else
    let s := (s.addOrigin '!').pass 1
    let stops (c : Char) : Bool :=
      c = ' ' || isLineEnd c || c = '\x7b' || c = '\x7d' || (c = ',' && s.inBrackets)
    let body := s.rest.takeWhile fun c => !stops c
    let value := String.ofList ('!' :: body)
    let s := s.addOrigins body
    let token (s : Cursor) : Cursor :=
      s.add { kind := .tag, value, origin := s.originText, pos := s.pos }
    some (match s.rest.drop body.length with
      | [] => (s.advance (body.length)).clear
      | ' ' :: _ => ((token (s.addOrigin ' ')).advance (body.length + 1)).clear
      | ',' :: _ => ((token s).advance body.length).clear
      | c :: _ =>
        if isLineEnd c then ((token (s.addOrigin c)).advance body.length).clear
        else
          let s := (s.addOrigin c).advance (body.length + 1)
          s.refuse ("found invalid tag character: " ++ Text.quotedChar c))

/-- A directive. -/
def directive? (s : Cursor) : Option Cursor :=
  if s.hasValue || s.indent ≠ 0 then none
  else some { s.single '%' .directive with inDirective := true }

/-- The mark of a key. -/
def keyMark? (s : Cursor) : Option Cursor :=
  let fits := match s.following with
    | some c => isBlank c
    | none => false
  if s.hasValue || !fits then none
  else
    let t := s.add { kind := .keyMark, value := "?", origin := "?", pos := s.pos }
    some { (t.advance 1).clear with lastMark := s.column }

/-- An anchor or an alias; its name follows. -/
def reference? (s : Cursor) (c : Char) : Option Cursor :=
  if s.hasValue then none
  else if c = '&' then some { s.single c .anchor with inAnchor := true }
  else some { s.single c .alias with inAlias := true }

/-- A comment up to the end of the line. -/
def comment? (s : Cursor) : Option Cursor :=
  let apart := match s.last with
    | some c => isBlank c || isLineEnd c
    | none => false
  if s.hasValue && !apart then none
  else
    let s := (s.flush.addOrigin '#').pass 1
    let body := s.rest.takeWhile fun c => !isLineEnd c
    let ending := (s.rest.drop body.length).take 1
    let s := s.addOrigins (body ++ ending)
    let s := s.add
      { kind := .comment, value := String.ofList body, origin := s.originText, pos := s.pos }
    some ((s.advance body.length).newLine).clear

/-- Drops the blanks at the end of the stretch and of the value. -/
def dropBlanks (s : Cursor) : Cursor :=
  if s.originSolid < s.origin.size then
    let value := s.collected.toArray
    { s with origin := s.origin.take s.originSolid, value, solid := min s.solid value.size }
  else s

/-- The end of a line: a plain text may go on on the next. -/
def lineEnd (s : Cursor) (c : Char) : Cursor :=
  let s :=
    if !s.value.isEmpty && s.saved.isNone then
      { s with saved := some ⟨s.line, s.column - s.collected.length⟩ }
    else s
  let s := s.dropBlanks
  let (c, s) : Char × Cursor :=
    if c = '\r' && s.following = some '\n' then ('\n', (s.addOrigin '\r').pass 1) else (c, s)
  let s := if s.atLast || s.inAnchor || s.inAlias || s.inDirective then s.flush else s
  let s :=
    if s.hasValue && s.atLineStart then
      if s.value.back? = some ' ' then { s with value := s.value.pop.push '\n' }
      else { s with value := s.value.push '\n' }
    else s.addValue ' '
  (s.addOrigin c).newLine

/-- A space that belongs to the indentation or ends a name. -/
def space? (s : Cursor) : Option Cursor :=
  if s.block.isSome then none
  else if s.atLineStart then some ((s.addOrigin ' ').advance 1)
  else if s.inDirective then some ((s.flush.addOrigin ' ').advance 1)
  else if s.inAnchor || s.inAlias then
    some { s.flush with inAnchor := false, inAlias := false }
  else none

/-- A character that no plain scalar may start with. -/
def reserved? (s : Cursor) (c : Char) : Option Cursor :=
  if s.hasValue then none
  else some (((s.addValue c).addOrigin c).refuse
    (Text.quotedChar c ++ " is a reserved character") |>.advance 1)

/-- A tab. -/
def tab? (s : Cursor) : Option Cursor :=
  if (s.hasValue && s.lastMark = 0) || s.lastMark < s.column then
    some { (s.addOrigin '\t').pass 1 with indent := s.indent + 1 }
  else if s.inBrackets || !s.atLineStart then none
  else some (((s.addValue '\t').addOrigin '\t').refuse
    "found character '\t' that cannot start any token" |>.advance 1)

/-- Joins a line end in a folded text with what follows in a column. -/
def joinFolded (s : Cursor) (b : Block) : Cursor :=
  if b.style = .literal || !b.joining then { s with block := some b }
  else
    let n := s.value.size
    let lastIs (k : Nat) : Bool := n ≥ k && s.value[n - k]? = some '\n'
    let s :=
      if b.here = b.before then
        if lastIs 1 then { s with value := s.value.pop.push ' ' } else s
      else if b.before = 0 && b.lastSolid = s.column then
        if lastIs 1 && lastIs 2 then { s with value := s.value.pop, solid := n - 1 } else s
      else s
    { s with block := some { b with joining := false } }

/-- Adds a space at the start of a line of a block text that lies behind its indentation. -/
def addIndentation (s : Cursor) (b : Block) : Cursor :=
  if b.first = 0 || s.column < b.first then s
  else
    let b := if b.style = .literal then b else { b with joining := false }
    { s with
      block := some b
      value := s.value.push ' '
      solid := s.value.size + 1 }

/-- Refuses a line of a block text that is not as deep as the header says. -/
def refuseIndentation (s : Cursor) : Cursor :=
  (s.refuse "invalid number of indent is specified in the multi-line header").advance 1

/-- One character of a block text. -/
def blockChar (s : Cursor) (b : Block) (c : Char) : Cursor :=
  let (c, s) : Char × Cursor :=
    if c = '\r' && s.following = some '\n' then ('\n', (s.addOrigin '\r').pass 1) else (c, s)
  let s := s.addOrigin c
  if s.atLast then
    let s := if s.atLineStart && c = ' ' then s.addIndentation b else s.addValue c
    if !(b.noteColumn s.column).isDeepEnough then s.refuseIndentation
    else
      let text := String.ofList s.collected
      ((s.add { kind := .plain .text, value := text, origin := s.originText, pos := s.pos }).clear
        ).advance 1
  else if isLineEnd c then
    let s := s.addValue '\n'
    let s := { s with block := some (b.noteLineEnd (s.column - 1)) }.newLine
    if !s.rest.isEmpty && separatorAhead s.rest then
      let text := String.ofList s.collected
      (s.add { kind := .plain .text, value := text, origin := s.originText, pos := s.pos }).clear
    else s
  else if s.atLineStart && c = ' ' then
    (s.addIndentation b).advance 1
  else if s.atLineStart && c = '\t' && b.isIndentation s.column then
    (s.refuse "found a tab character where an indentation space is expected").advance 1
  else if c = '\t' && !b.isIndentation s.column then (s.addBlockValue c).advance 1
  else if b.first = 0 && b.blankWidth > s.column then
    (s.refuse "invalid number of indent is specified after space only").advance 1
  else
    let b := b.noteColumn s.column
    if !b.isDeepEnough then s.refuseIndentation
    else
      let s := if b.first > 1 then { s with lastMark := b.first - 1 } else s
      ((s.joinFolded b).addBlockValue c).advance 1

/-- The token that starts with a character, if one does. -/
def special? (s : Cursor) (c : Char) : Option Cursor :=
  match c with
  | '\x7b' | '[' => s.openBracket? c
  | '\x7d' | ']' => s.closeBracket? c
  | '.' => s.separator? '.' .documentEnd
  | '<' => s.mergeKey?
  | '-' => s.documentStart? <|> s.dashInText? <|> s.entryMark?
  | ',' => s.comma?
  | ':' => s.valueMark?
  | '|' | '>' => s.blockHeader? c
  | '!' => s.tag?
  | '%' => s.directive?
  | '?' => s.keyMark?
  | '&' | '*' => s.reference? c
  | '#' => s.comment?
  | '\'' | '"' => if s.hasValue then none else some (s.quoted c)
  | '\r' | '\n' => some (s.lineEnd c)
  | ' ' => s.space?
  | '@' => s.reserved? c
  | '\t' => s.tab?
  | c => if c.toNat = 0x60 then s.reserved? c else none

/-- Leaves a block text on a line that is not deep enough; a text without any line is empty. -/
def leaveBlock (s : Cursor) : Except Cursor Cursor :=
  match s.lastToken? with
  | none => .ok { s with block := none }
  | some t =>
    if t.pos.column = 1 then .error (s.refuse "could not find multi-line content")
    else
      let isText := match t.kind with
        | .plain .text => true
        | _ => false
      let s := if isText then s
        else s.add { kind := .plain .text, value := "", origin := "", pos := s.pos }
      .ok { s with block := none }

/-- Handles a character outside block texts. -/
def outside (s : Cursor) (c : Char) : Cursor :=
  match s.special? c with
  | some s => s
  | none => ((s.addValue c).addOrigin c).advance 1

/-- Handles the next character. -/
def step (s : Cursor) (c : Char) : Cursor :=
  let s := s.noteIndent c
  let s := if s.shift = .back then s.flush else s
  match s.block with
  | none => s.outside c
  | some b =>
    if s.shift = .back then
      match s.leaveBlock with
      | .error s => s
      | .ok s => s.outside c
    else s.blockChar b c

/-- Handles characters until none is left. -/
def run : Nat → Cursor → Cursor
  | 0, s => s
  | fuel + 1, s =>
    match s.rest with
    | [] => s.flush
    | c :: _ => run fuel (s.step c)

end RuleScan.Yaml.Cursor

namespace RuleScan.Yaml

/-- The tokens of a document. -/
def tokenize (source : String) : Tokens :=
  let cs := source.toList
  let s : Cursor := { rest := cs }
  (Cursor.run (3 * cs.length + 8) s).tokens.linked

/-- A document is cut by its characters.  Where a document is evaluated they are put in its place,
since the kernel is slow to find them in a string. -/
theorem tokenize_of_toList {source : String} {cs : List Char} (h : source.toList = cs) :
    tokenize source = (Cursor.run (3 * cs.length + 8) { rest := cs }).tokens.linked := by
  rw [tokenize, h]

end RuleScan.Yaml
