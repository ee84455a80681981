import RuleScan.Regex.Basic

/-!
# Reading regular expressions

The grammar is the usual one without look-around and back-references.  An expression that cannot
be read is refused with the piece of text that is at fault.
-/

namespace RuleScan.Regex

open RuleScan.Unicode

/-- Why an expression was refused; each carries the text at fault. -/
inductive ParseError where
  | badRange (piece : String)
  | badEscape (piece : String)
  | badGroupName (piece : String)
  | badGroupOption (piece : String)
  | nestedRepeat (piece : String)
  | badRepeatCount (piece : String)
  | noClosingBracket (piece : String)
  | noClosingParen (piece : String)
  | nothingToRepeat (piece : String)
  | trailingBackslash
  | unexpectedParen (piece : String)
  | nestedTooDeep (piece : String)
  deriving Repr, DecidableEq, Inhabited

/-- The sentence for each cause, and the piece it is about. -/
def ParseError.parts : ParseError → String × String
  | .badRange p => ("invalid character class range", p)
  | .badEscape p => ("invalid escape sequence", p)
  | .badGroupName p => ("invalid named capture", p)
  | .badGroupOption p => ("invalid or unsupported Perl syntax", p)
  | .nestedRepeat p => ("invalid nested repetition operator", p)
  | .badRepeatCount p => ("invalid repeat count", p)
  | .noClosingBracket p => ("missing closing ]", p)
  | .noClosingParen p => ("missing closing )", p)
  | .nothingToRepeat p => ("missing argument to repetition operator", p)
  | .trailingBackslash => ("trailing backslash at end of expression", "")
  | .unexpectedParen p => ("unexpected )", p)
  | .nestedTooDeep p => ("expression nests too deeply", p)

/-- The text of a refusal. -/
def ParseError.message (e : ParseError) : String :=
  let (what, piece) := e.parts
  "error parsing regexp: " ++ what ++ ": `" ++ piece ++ "`"

/-- What the options of an expression switch. -/
structure Options where
  ignoreCase : Bool := false
  /-- `^` and `$` also hold at line feeds. -/
  multiLine : Bool := false
  /-- `.` also matches a line feed. -/
  dotAll : Bool := false
  deriving Repr, DecidableEq, Inhabited

/-- The text of `whole` that was consumed when `rest` is left. -/
def consumed (whole rest : List Char) : String :=
  String.ofList (whole.take (whole.length - rest.length))

/-- Some code points as a class part, closed under case when case is ignored. -/
def Options.item (o : Options) (negated : Bool) (ranges : Ranges) : ClassItem :=
  ⟨negated, if o.ignoreCase then closeUnderFold ranges else ranges⟩

/-- A single character of the expression. -/
def Options.literal (o : Options) (c : Nat) : Regex :=
  .one ⟨false, [o.item false [⟨c, c, 1⟩]]⟩

/-! ## Escapes -/

/-- The character classes named by one letter after a backslash. -/
def letterClass? (c : Char) : Option (Bool × Ranges) :=
  let digits : Ranges := [⟨0x30, 0x39, 1⟩]
  let blanks : Ranges := [⟨0x09, 0x0a, 1⟩, ⟨0x0c, 0x0d, 1⟩, ⟨0x20, 0x20, 1⟩]
  let word : Ranges := [⟨0x30, 0x39, 1⟩, ⟨0x41, 0x5a, 1⟩, ⟨0x5f, 0x5f, 1⟩, ⟨0x61, 0x7a, 1⟩]
  match c with
  | 'd' => some (false, digits)
  | 'D' => some (true, digits)
  | 's' => some (false, blanks)
  | 'S' => some (true, blanks)
  | 'w' => some (false, word)
  | 'W' => some (true, word)
  | _ => none

/-- The classes named between `[:` and `:]`. -/
def namedClasses : List (String × Ranges) :=
  [("alnum", [⟨0x30, 0x39, 1⟩, ⟨0x41, 0x5a, 1⟩, ⟨0x61, 0x7a, 1⟩]),
   ("alpha", [⟨0x41, 0x5a, 1⟩, ⟨0x61, 0x7a, 1⟩]),
   ("ascii", [⟨0x00, 0x7f, 1⟩]),
   ("blank", [⟨0x09, 0x09, 1⟩, ⟨0x20, 0x20, 1⟩]),
   ("cntrl", [⟨0x00, 0x1f, 1⟩, ⟨0x7f, 0x7f, 1⟩]),
   ("digit", [⟨0x30, 0x39, 1⟩]),
   ("graph", [⟨0x21, 0x7e, 1⟩]),
   ("lower", [⟨0x61, 0x7a, 1⟩]),
   ("print", [⟨0x20, 0x7e, 1⟩]),
   ("punct", [⟨0x21, 0x2f, 1⟩, ⟨0x3a, 0x40, 1⟩, ⟨0x5b, 0x60, 1⟩, ⟨0x7b, 0x7e, 1⟩]),
   ("space", [⟨0x09, 0x0d, 1⟩, ⟨0x20, 0x20, 1⟩]),
   ("upper", [⟨0x41, 0x5a, 1⟩]),
   ("word", [⟨0x30, 0x39, 1⟩, ⟨0x41, 0x5a, 1⟩, ⟨0x5f, 0x5f, 1⟩, ⟨0x61, 0x7a, 1⟩]),
   ("xdigit", [⟨0x30, 0x39, 1⟩, ⟨0x41, 0x46, 1⟩, ⟨0x61, 0x66, 1⟩])]

/-- Property names are compared without regard to case, blanks, hyphens and underscores. -/
def propertyKey (name : String) : String :=
  String.ofList ((name.toList.filter fun c => c ≠ '_' && c ≠ '-' && c ≠ ' ').map Char.toLower)

/-- The code points of a property: a general category by its short or long name, a script, or
one of the three names for all, the assigned and the ASCII code points. -/
def property? (name : String) : Option (Bool × Ranges) :=
  let key := propertyKey name
  if key = "any" then some (false, [⟨0, 0x10ffff, 1⟩])
  else if key = "assigned" then (category? "Cn").map fun r => (true, r)
  else if key = "ascii" then some (false, [⟨0, 0x7f, 1⟩])
  else
    let short := ["C", "Cc", "Cf", "Cn", "Co", "Cs", "L", "LC", "Ll", "Lm", "Lo", "Lt", "Lu", "M",
      "Mc", "Me", "Mn", "N", "Nd", "Nl", "No", "P", "Pc", "Pd", "Pe", "Pf", "Pi", "Po", "Ps", "S",
      "Sc", "Sk", "Sm", "So", "Z", "Zl", "Zp", "Zs"]
    match short.find? fun n => propertyKey n = key with
    | some n => (category? n).map fun r => (false, r)
    | none =>
      match scripts.find? fun (n, _) => propertyKey n = key with
      | some (_, r) => some (false, r)
      | none =>
        match categoryAliases.find? fun (n, _) => propertyKey n = key with
        | some (_, n) => (category? n).map fun r => (false, r)
        | none => none

/-- The text up to and including the first `stop`, and the rest. -/
def through? (stop : Char) : List Char → Option (List Char × List Char)
  | [] => none
  | c :: rest =>
    if c = stop then some ([c], rest)
    else (through? stop rest).map fun (front, more) => (c :: front, more)

/-- Reads `\pX` or `\p` with a name in braces at the front of `s`, if there is one. -/
def unicodeClass? (o : Options) (s : List Char) :
    Except ParseError (Option (ClassItem × List Char)) :=
  match s with
  | '\\' :: p :: rest =>
    if p ≠ 'p' && p ≠ 'P' then .ok none
    else
      let outer := p = 'P'
      let lookUp (name : List Char) (piece more : List Char) :
          Except ParseError (Option (ClassItem × List Char)) :=
        let (inner, name) := match name with
          | '^' :: n => (true, n)
          | n => (false, n)
        match property? (String.ofList name) with
        | none => .error (.badRange (String.ofList piece))
        | some (flip, ranges) =>
          .ok (some (o.item ((outer != inner) != flip) ranges, more))
      match rest with
      | [] => .error (.badRange (String.ofList s))
      | '\x7b' :: named =>
        match through? '\x7d' named with
        | none => .error (.badRange (String.ofList s))
        | some (front, more) =>
          lookUp (front.take (front.length - 1)) ('\\' :: p :: '\x7b' :: front) more
      | c :: more => lookUp [c] ['\\', p, c] more
  | _ => .ok none

/-- Reads `\d`, `\s`, `\w` or one of their complements at the front of `s`, if there is one. -/
def letterEscape? (o : Options) (s : List Char) : Option (ClassItem × List Char) :=
  match s with
  | '\\' :: c :: rest => (letterClass? c).map fun (neg, ranges) => (o.item neg ranges, rest)
  | _ => none

/-- An octal digit. -/
def octal? (c : Char) : Option Nat :=
  if '0' ≤ c ∧ c ≤ '7' then some (c.toNat - 0x30) else none

/-- Up to `n` further octal digits of a number that starts with `value`. -/
def octalTail : Nat → Nat → List Char → Nat × List Char
  | 0, value, s => (value, s)
  | n + 1, value, s =>
    match s with
    | c :: rest =>
      match octal? c with
      | some d => octalTail n (value * 8 + d) rest
      | none => (value, s)
    | [] => (value, s)

/-- The digits of a hexadecimal escape in braces, up to the closing one.  On failure, what is
left after the character that was not acceptable. -/
def bracedHex : List Char → Nat → Nat → Except (List Char) (Nat × List Char)
  | [], _, _ => .error []
  | c :: rest, value, count =>
    if c = '\x7d' then if count = 0 then .error rest else .ok (value, rest)
    else match hexDigit? c with
      | none => .error rest
      | some d =>
        let value := value * 16 + d
        if value > 0x10ffff then .error rest else bracedHex rest value (count + 1)

/-- An ASCII letter or digit. -/
def isAsciiAlnum (c : Char) : Bool := c.isAlphanum

/-- Reads an escape that stands for one character at the front of `s`. -/
def escape (s : List Char) : Except ParseError (Nat × List Char) :=
  match s.drop 1 with
  | [] => .error .trailingBackslash
  | c :: t =>
    let refuse (rest : List Char) : Except ParseError (Nat × List Char) :=
      .error (.badEscape (consumed s rest))
    match c with
    | 'a' => .ok (0x07, t)
    | 'f' => .ok (0x0c, t)
    | 'n' => .ok (0x0a, t)
    | 'r' => .ok (0x0d, t)
    | 't' => .ok (0x09, t)
    | 'v' => .ok (0x0b, t)
    | 'x' =>
      match t with
      | [] => refuse t
      | '\x7b' :: digits =>
        match bracedHex digits 0 0 with
        | .ok r => .ok r
        | .error rest => refuse rest
      | x :: t =>
        match hexDigit? x, t.head?.bind hexDigit? with
        | some hi, some lo => .ok (hi * 16 + lo, t.drop 1)
        | _, _ => refuse (t.drop 1)
    | _ =>
      match octal? c with
      | some 0 => .ok (octalTail 2 0 t)
      | some d =>
        if (t.head?.bind octal?).isSome then .ok (octalTail 2 d t) else refuse t
      | none =>
        if c.toNat < 0x80 && !isAsciiAlnum c then .ok (c.toNat, t) else refuse t

/-! ## Bracketed classes -/

/-- One character of a bracketed class; `whole` is the text from the opening bracket on. -/
def classChar (s whole : List Char) : Except ParseError (Nat × List Char) :=
  match s with
  | [] => .error (.noClosingBracket (String.ofList whole))
  | '\\' :: _ => escape s
  | c :: rest => .ok (c.toNat, rest)

/-- The text before and after the first `:]`. -/
def cutColonBracket? : List Char → Option (List Char × List Char)
  | [] => none
  | ':' :: ']' :: rest => some ([], rest)
  | c :: rest => (cutColonBracket? rest).map fun (front, more) => (c :: front, more)

/-- Reads a class named between `[:` and `:]` at the front of `s`, if there is one. -/
def namedClass? (o : Options) (s : List Char) :
    Except ParseError (Option (ClassItem × List Char)) :=
  match s with
  | '[' :: ':' :: body =>
    match cutColonBracket? body with
    | none => .ok none
    | some (name, rest) =>
      let (neg, key) := match name with
        | '^' :: n => (true, n)
        | n => (false, n)
      match namedClasses.find? fun (n, _) => n.toList = key with
      | some (_, ranges) => .ok (some (o.item neg ranges, rest))
      | none => .error (.badRange ("[:" ++ String.ofList name ++ ":]"))
  | _ => .ok none

/-- One part of a bracketed class. -/
def classPart (o : Options) (s whole : List Char) :
    Except ParseError (ClassItem × List Char) := do
  if s.length > 2 then
    if let some r ← namedClass? o s then return r
  if let some r ← unicodeClass? o s then return r
  if let some r := letterEscape? o s then return r
  let (lo, rest) ← classChar s whole
  match rest with
  | '-' :: c :: more =>
    if c = ']' then return (o.item false [⟨lo, lo, 1⟩], rest)
    let (hi, after) ← classChar (c :: more) whole
    if hi < lo then throw (.badRange (consumed s after))
    return (o.item false [⟨lo, hi, 1⟩], after)
  | _ => return (o.item false [⟨lo, lo, 1⟩], rest)

/-- The parts of a bracketed class up to its closing bracket, which may also stand first as an
ordinary character.  Every part consumes a character, so the fuel never runs out before the
text does. -/
def classParts (o : Options) (whole : List Char) :
    Nat → Bool → List Char → List ClassItem → Except ParseError (List ClassItem × List Char)
  | 0, _, _, _ => .error (.noClosingBracket (String.ofList whole))
  | fuel + 1, first, s, acc =>
    match s, first with
    | ']' :: rest, false => .ok (acc.reverse, rest)
    | _, _ =>
      match classPart o s whole with
      | .error e => .error e
      | .ok (item, rest) => classParts o whole fuel false rest (item :: acc)

/-- Reads a bracketed class; `s` starts with the opening bracket. -/
def bracketClass (o : Options) (s : List Char) : Except ParseError (CharClass × List Char) := do
  let (neg, body) := match s.drop 1 with
    | '^' :: t => (true, t)
    | t => (false, t)
  let (items, rest) ← classParts o s (s.length + 1) true body []
  return (⟨neg, items⟩, rest)

/-! ## Repetition counts -/

/-- A count: digits without a superfluous leading zero.  A count too large to matter is
`none`. -/
def count? (s : List Char) : Option (Option Nat × List Char) :=
  let digits := s.takeWhile Char.isDigit
  let rest := s.dropWhile Char.isDigit
  match digits with
  | [] => none
  | '0' :: _ :: _ => none
  | _ =>
    if digits.length > 9 then some (none, rest)
    else some (some (digits.foldl (fun n c => n * 10 + (c.toNat - 0x30)) 0), rest)

/-- A counted repetition in braces: its least and greatest count.  `none` for the whole means
that the brace is an ordinary character; a missing least count means a number out of bounds. -/
def counts? (s : List Char) : Option (Option Nat × Option (Option Nat) × List Char) := do
  let '\x7b' :: s := s | none
  let (lo, s) ← count? s
  match s with
  | '\x7d' :: rest => some (lo, some lo, rest)
  | ',' :: '\x7d' :: rest => some (lo, none, rest)
  | ',' :: s =>
    let (hi, s) ← count? s
    match s with
    | '\x7d' :: rest => some (if hi.isNone then none else lo, some hi, rest)
    | _ => none
  | _ => none

/-- The greatest count that may be asked for. -/
def countLimit : Nat := 1000

/-- The bounds of a counted repetition when they are acceptable. -/
def bounds? (lo : Option Nat) (hi : Option (Option Nat)) : Option (Nat × Option Nat) := do
  let lo ← lo
  if lo > countLimit then none
  match hi with
  | none => some (lo, none)
  | some hi =>
    let hi ← hi
    if hi > countLimit || lo > hi then none else some (lo, some hi)

/-! ## Whole expressions -/

/-- A group that has been opened: what came before it, and what to return to behind it. -/
structure Frame where
  capturing : Bool
  options : Options
  alternatives : List Regex
  items : List Regex
  deriving Inhabited

/-- What has been read so far: the open groups, and of the innermost one the finished
alternatives and the items of the current one, both newest first. -/
structure State where
  options : Options
  frames : List Frame := []
  alternatives : List Regex := []
  items : List Regex := []
  /-- Where the last repetition operator began, if it was the last thing read. -/
  lastRepeat : Option (List Char) := none
  deriving Inhabited

namespace State

/-- The innermost group's expression. -/
def body (st : State) : Regex :=
  altAll (seqAll st.items.reverse :: st.alternatives).reverse

/-- Adds an item. -/
def push (st : State) (r : Regex) : State := { st with items := r :: st.items }

/-- Opens a group; the options inside it are `inside`. -/
def openGroup (st : State) (capturing : Bool) (inside : Options) : State :=
  { options := inside
    frames := ⟨capturing, st.options, st.alternatives, st.items⟩ :: st.frames }

/-- Closes the innermost group. -/
def closeGroup? (st : State) : Option State :=
  match st.frames with
  | [] => none
  | f :: frames =>
    let r := if f.capturing then .group st.body else st.body
    some
      { options := f.options, frames := frames
        alternatives := f.alternatives, items := r :: f.items }

/-- Starts the next alternative. -/
def nextAlternative (st : State) : State :=
  { st with alternatives := seqAll st.items.reverse :: st.alternatives, items := [] }

/-- Applies a repetition operator that begins at `before` to the last item.  `after` is what
follows the operator. -/
def repeatLast (st : State) (lo : Nat) (hi : Option Nat) (counted : Bool)
    (before after : List Char) : Except ParseError (State × List Char) := do
  let after := match after with
    | '?' :: rest => rest
    | _ => after
  if let some last := st.lastRepeat then
    throw (.nestedRepeat (consumed last after))
  match st.items with
  | [] => throw (.nothingToRepeat (consumed before after))
  | r :: items =>
    let r := Regex.repeated lo hi r
    if counted && (lo ≥ 2 || hi.any (· ≥ 2)) && !r.repeatsWithin countLimit then
      throw (.badRepeatCount (consumed before after))
    return ({ st with items := r :: items, lastRepeat := some before }, after)

end State

/-- The options of a group after `(?`, up to the colon or closing parenthesis that ends them.
`rest` on failure is what follows the character that was not acceptable. -/
def groupOptions (options : Options) :
    (s : List Char) → (off seen : Bool) → Except (List Char) (Options × Bool × List Char)
  | [], _, _ => .error []
  | c :: rest, off, seen =>
    match c with
    | 'i' => groupOptions { options with ignoreCase := !off } rest off true
    | 'm' => groupOptions { options with multiLine := !off } rest off true
    | 's' => groupOptions { options with dotAll := !off } rest off true
    | 'U' => groupOptions options rest off true
    | '-' => if off then .error rest else groupOptions options rest true false
    | ':' => if off && !seen then .error rest else .ok (options, true, rest)
    | ')' => if off && !seen then .error rest else .ok (options, false, rest)
    | _ => .error rest

/-- A group name consists of ASCII letters, digits and underscores. -/
def isGroupName (name : List Char) : Bool :=
  !name.isEmpty && name.all fun c => c = '_' || isAsciiAlnum c

/-- Reads the group that starts with `(?` at the front of `s`. -/
def specialGroup (st : State) (s : List Char) : Except ParseError (State × List Char) :=
  let named (skip : Nat) : Except ParseError (State × List Char) :=
    match through? '>' s with
    | none => .error (.badGroupName (String.ofList s))
    | some (front, rest) =>
      if isGroupName ((front.drop skip).take (front.length - skip - 1)) then
        .ok (st.openGroup true st.options, rest)
      else .error (.badGroupName (String.ofList front))
  match s with
  | '(' :: '?' :: 'P' :: '<' :: _ :: _ => named 4
  | '(' :: '?' :: '<' :: _ :: _ => named 3
  | _ =>
    match groupOptions st.options (s.drop 2) false false with
    | .error rest => .error (.badGroupOption (consumed s rest))
    | .ok (options, true, rest) => .ok (st.openGroup false options, rest)
    | .ok (options, false, rest) => .ok ({ st with options }, rest)

/-- Adds the characters of a quoted stretch. -/
def pushLiterals (st : State) (cs : List Char) : State :=
  cs.foldl (fun st c => st.push (st.options.literal c.toNat)) st

/-- The text before and after the first `\E`; without one everything is before. -/
def cutQuoteEnd : List Char → List Char × List Char
  | [] => ([], [])
  | '\\' :: 'E' :: rest => ([], rest)
  | c :: rest => let (front, more) := cutQuoteEnd rest; (c :: front, more)

/-- Reads what starts with a backslash at the front of `s`. -/
def backslash (st : State) (s : List Char) : Except ParseError (State × List Char) := do
  match s with
  | '\\' :: 'A' :: rest => return (st.push (.at .textStart), rest)
  | '\\' :: 'b' :: rest => return (st.push (.at .wordEdge), rest)
  | '\\' :: 'B' :: rest => return (st.push (.at .noWordEdge), rest)
  | '\\' :: 'C' :: _ => throw (.badEscape "\\C")
  | '\\' :: 'Q' :: rest =>
    let (quoted, rest) := cutQuoteEnd rest
    return (pushLiterals st quoted, rest)
  | '\\' :: 'z' :: rest => return (st.push (.at .textEnd), rest)
  | _ =>
    if let some (item, rest) ← unicodeClass? st.options s then
      return (st.push (.one ⟨false, [item]⟩), rest)
    if let some (item, rest) := letterEscape? st.options s then
      return (st.push (.one ⟨false, [item]⟩), rest)
    let (c, rest) ← escape s
    return (st.push (st.options.literal c), rest)

/-- Reads one element at the front of `s`, which is not empty. -/
def element (whole : String) (st : State) (c : Char) (rest : List Char) :
    Except ParseError (State × List Char) :=
  let s := c :: rest
  let plain : State := { st with lastRepeat := none }
  match c with
  | '(' =>
    match rest with
    | '?' :: _ => specialGroup plain s
    | _ => .ok (plain.openGroup true plain.options, rest)
  | '|' => .ok (plain.nextAlternative, rest)
  | ')' =>
    match plain.closeGroup? with
    | some st => .ok (st, rest)
    | none => .error (.unexpectedParen whole)
  | '^' => .ok (plain.push (.at (if st.options.multiLine then .lineStart else .textStart)), rest)
  | '$' => .ok (plain.push (.at (if st.options.multiLine then .lineEnd else .textEnd)), rest)
  | '.' =>
    .ok (plain.push (.one (if st.options.dotAll then .any else .anyButNewline)), rest)
  | '[' => do
    let (cls, rest) ← bracketClass st.options s
    return (plain.push (.one cls), rest)
  | '*' => st.repeatLast 0 none false s rest
  | '+' => st.repeatLast 1 none false s rest
  | '?' => st.repeatLast 0 (some 1) false s rest
  | '\x7b' =>
    match counts? s with
    | none => .ok (plain.push (st.options.literal 0x7b), rest)
    | some (lo, hi, after) =>
      match bounds? lo hi with
      | none => .error (.badRepeatCount (consumed s after))
      | some (lo, hi) => st.repeatLast lo hi true s after
  | '\\' => backslash plain s
  | _ => .ok (plain.push (st.options.literal c.toNat), rest)

/-- Reads elements until the text is used up.  Every element consumes a character. -/
def elements (whole : String) : Nat → State → List Char → Except ParseError State
  | 0, st, _ => .ok st
  | _ + 1, st, [] => .ok st
  | fuel + 1, st, c :: rest =>
    match element whole st c rest with
    | .error e => .error e
    | .ok (st, rest) => elements whole fuel st rest

/-- The deepest nesting accepted. -/
def depthLimit : Nat := 1000

/-- Reads an expression. -/
def parse (text : String) : Except ParseError Regex := do
  let cs := text.toList
  let st ← elements text (cs.length + 1) { options := {} } cs
  unless st.frames.isEmpty do throw (.noClosingParen text)
  let r := st.body
  if r.depth > depthLimit then throw (.nestedTooDeep text)
  return r

end RuleScan.Regex
