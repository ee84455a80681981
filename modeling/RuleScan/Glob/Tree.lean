/-!
# Path globs

What a glob is made of, and how its text is read.  `*` stands for any text within one path
segment, `**` for any text at all, `?` for one character, brackets for one character of a list
or range, and braces for a choice.  A brace left open is closed by the end of the text.  A NUL
character ends the glob where a part could begin, and otherwise only the text before it.
-/

namespace RuleScan.Glob

/-- The parts of a glob. -/
inductive Tree where
  /-- Fixed text. -/
  | text (chars : List Char)
  /-- `*`. -/
  | any
  /-- `**`. -/
  | super
  /-- `?`. -/
  | single
  /-- The empty text. -/
  | nothing
  /-- One of some characters, or of all others. -/
  | list (chars : List Char) (negated : Bool)
  /-- One of a range of characters, or of all others. -/
  | range (lo hi : Char) (negated : Bool)
  /-- One part after the other. -/
  | pattern (parts : List Tree)
  /-- A choice. -/
  | anyOf (choices : List Tree)
  deriving Repr, BEq, Inhabited

/-- Why a glob was refused. -/
inductive ParseError where
  | unexpectedEnd
  | noClosingBracket
  | badRange
  | rangeReversed (lo hi : Char)
  | badCharacter
  deriving Repr, DecidableEq, Inhabited

/-- The text of a refusal. -/
def ParseError.message : ParseError → String
  | .unexpectedEnd => "unexpected end of input"
  | .noClosingBracket => "expected close range character"
  | .badRange => "could not parse range"
  | .rangeReversed lo hi =>
    "hi character '" ++ hi.toString ++ "' should be greater than lo '" ++ lo.toString ++ "'"
  | .badCharacter => "could not read rune"

namespace Tree

/-- The character that stands for undecodable bytes; a glob must not contain it. -/
def undecodable : Char := Char.ofNat 0xFFFD

/-- The character that stands for the end of the text. -/
def ending : Char := Char.ofNat 0

/-- Whether nothing can be read at a character. -/
def isUnreadable (c : Char) : Bool := c = undecodable || c = ending

/-- Fixed text up to an unescaped character of `stop` or the end: the text, what is left, and
whether an undecodable character ended it.  A NUL character ends it and is passed over. -/
def takeText (stop : List Char) : List Char → Bool → List Char × List Char × Bool
  | [], _ => ([], [], false)
  | c :: rest, escaped =>
    if c = undecodable then ([], c :: rest, true)
    else if c = ending then ([], rest, false)
    else if !escaped && c = '\\' then takeText stop rest true
    else if !escaped && stop.contains c then ([], c :: rest, false)
    else
      let (more, left, bad) := takeText stop rest false
      (c :: more, left, bad)

/-- A part in brackets, and what follows the closing bracket. -/
def closing (tree : Except ParseError Tree) : List Char → Except ParseError (Tree × List Char)
  | [] => .error .unexpectedEnd
  | c :: rest =>
    if isUnreadable c then .error .unexpectedEnd
    else if c ≠ ']' then .error .noClosingBracket
    else tree.map fun t => (t, rest)

/-- The range or the characters between brackets, and what follows the closing one. -/
def bracketed (negated : Bool) : List Char → Except ParseError (Tree × List Char)
  | [] => .error .unexpectedEnd
  | lo :: '-' :: more =>
    if isUnreadable lo then .error .unexpectedEnd
    else match more with
      | [] => .error .unexpectedEnd
      | hi :: left =>
        if isUnreadable hi then .error .unexpectedEnd
        else
          closing (if hi < lo then .error (.rangeReversed lo hi) else .ok (.range lo hi negated))
            left
  | c :: rest =>
    if isUnreadable c then .error .unexpectedEnd
    else
      let (chars, left, bad) := takeText [']'] (c :: rest) false
      if bad then .error .unexpectedEnd
      else closing (if chars.isEmpty then .error .badRange else .ok (.list chars negated)) left

/-- The part behind an opening bracket, and what follows the closing one. -/
def bracket : List Char → Except ParseError (Tree × List Char)
  | '!' :: rest => bracketed true rest
  | s => bracketed false s

/-- A choice that has been opened: its finished alternatives, newest first, and the parts that
precede it. -/
structure Frame where
  choices : List Tree
  outer : List Tree
  deriving Inhabited

/-- Closes every choice that is still open around the parts of the innermost alternative. -/
def closeAll : List Frame → List Tree → List Tree
  | [], parts => parts
  | f :: frames, parts =>
    closeAll frames (.anyOf (.pattern parts.reverse :: f.choices).reverse :: f.outer)

/-- Reads parts until the text is used up; `parts` holds those of the innermost alternative,
newest first.  Every step consumes a character. -/
def parts : Nat → List Frame → List Tree → List Char → Except ParseError (List Tree)
  | 0, frames, acc, _ => .ok (closeAll frames acc).reverse
  | _ + 1, frames, acc, [] => .ok (closeAll frames acc).reverse
  | fuel + 1, frames, acc, c :: rest =>
    if c = undecodable then .error .badCharacter
    else if c = ending then .ok (closeAll frames acc).reverse
    else match c with
      | '\x7b' => parts fuel (⟨[], acc⟩ :: frames) [] rest
      | '[' =>
        match bracket rest with
        | .error e => .error e
        | .ok (tree, rest) => parts fuel frames (tree :: acc) rest
      | '?' => parts fuel frames (.single :: acc) rest
      | '*' =>
        match rest with
        | '*' :: rest => parts fuel frames (.super :: acc) rest
        | _ => parts fuel frames (.any :: acc) rest
      | _ =>
        match c, frames with
        | ',', f :: outer =>
          parts fuel (⟨.pattern acc.reverse :: f.choices, f.outer⟩ :: outer) [] rest
        | '\x7d', f :: outer =>
          parts fuel outer
            (.anyOf (.pattern acc.reverse :: f.choices).reverse :: f.outer) rest
        | _, _ =>
          let stop := ['?', '*', '[', '\x7b'] ++ if frames.isEmpty then [] else ['\x7d', ',']
          let (chars, left, bad) := takeText stop (c :: rest) false
          if bad then .error .badCharacter
          else parts fuel frames (if chars.isEmpty then acc else .text chars :: acc) left

/-- Reads a glob. -/
def parse (glob : String) : Except ParseError Tree :=
  (parts (glob.length + 1) [] [] glob.toList).map .pattern

end Tree

end RuleScan.Glob
