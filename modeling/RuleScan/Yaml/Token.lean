import RuleScan.Decimal.Read
import RuleScan.Text.Space

/-!
# Scalars and tokens

What a plain word stands for, and the tokens that words are.
-/

/-!
## Plain scalars

Which plain words of a YAML document are null, booleans, numbers or texts, and the values they
stand for.
-/

namespace RuleScan.Yaml

/-- What a plain scalar stands for. -/
inductive Scalar where
  | null
  | bool (b : Bool)
  | int (n : Int)
  | float (x : Float)
  | infinity (negative : Bool)
  | notANumber
  | text
  deriving Inhabited

/-- The words for null. -/
def nullWords : List String := ["null", "Null", "NULL", "~"]

/-- The words for true. -/
def trueWords : List String := ["true", "True", "TRUE"]

/-- The words for false. -/
def falseWords : List String := ["false", "False", "FALSE"]

/-- The value of digits in a base; an empty list has none. -/
def digitsIn? (base : Nat) (ds : List Char) : Option Nat :=
  if ds.isEmpty then none
  else ds.foldlM (fun n d =>
    let v :=
      if '0' ≤ d && d ≤ '9' then d.toNat - 48
      else if 'a' ≤ d && d ≤ 'z' then d.toNat - 87
      else if 'A' ≤ d && d ≤ 'Z' then d.toNat - 55
      else base
    if v < base then some (n * base + v) else none) 0

/-- What becomes of a word that looks like a number. -/
inductive Numeral where
  | scalar (s : Scalar)
  /-- A number too large for 64 bits; as a plain word it stays a text. -/
  | tooLarge
  deriving Inhabited

/-- The value of digits in a base, unless they are too large.  Digits are taken one after the
other, so that what follows a number that is too large already is not looked at. -/
def wordIn? (base : Nat) (n : Nat) : List Char → Option (Option Nat)
  | [] => some (some n)
  | d :: ds =>
    match digitsIn? base [d] with
    | none => none
    | some v => if n * base + v < Word.size then wordIn? base (n * base + v) ds else some none

/-- A whole number in a base: signed if it is negative, else unsigned. -/
def whole? (negative : Bool) (base : Nat) (ds : List Char) : Option Numeral :=
  if ds.isEmpty then none
  else (wordIn? base 0 ds).map fun
    | some n =>
      if !negative then .scalar (.int n)
      else if n ≤ Word.half then .scalar (.int (-(n : Int))) else .tooLarge
    | none => .tooLarge

/-- The number that a word looks like.  Underscores may divide the digits, a base may be given by
`0x`, `0o`, `0b` or a leading zero, and a word with a point is a fraction. -/
def numeral? (word : String) : Option Numeral :=
  let cs := word.toList
  let points := cs.count '.'
  if cs.isEmpty || cs.head? = some '_' || points > 1 then none
  else
    let unsigned := match cs with
      | '+' :: r => r
      | r => r
    let unsigned := match unsigned with
      | '-' :: r => r
      | r => r
    let negative := cs.head? = some '-'
    match unsigned.filter (· ≠ '_') with
    | '0' :: 'x' :: ds => whole? negative 16 ds
    | '0' :: 'o' :: ds => whole? negative 8 ds
    | '0' :: 'b' :: ds => whole? negative 2 ds
    | ds =>
      if points = 1 then
        (Decimal.readDecimal? ds).map fun x =>
          if x.isInf then .tooLarge else .scalar (.float (if negative then -x else x))
      else if ds.head? = some '0' && ds.length > 1 then whole? negative 8 ds
      else whole? negative 10 ds

/-- What a plain word stands for. -/
def Scalar.ofWord (word : String) : Scalar :=
  if nullWords.contains word then .null
  else if trueWords.contains word then .bool true
  else if falseWords.contains word then .bool false
  else if [".inf", ".Inf", ".INF"].contains word then .infinity false
  else if ["-.inf", "-.Inf", "-.INF"].contains word then .infinity true
  else if [".nan", ".NaN", ".NAN"].contains word then .notANumber
  else match numeral? word with
    | some (.scalar s) => s
    | _ => .text

end RuleScan.Yaml

/-!
## Tokens of a YAML document

A document is read as a chain of tokens.  Each token remembers the stretch of the document it was
cut from, with the blanks around it, so that messages can show the lines near it.  The chain is
kept as numbers of the tokens before and after; a token that stands for a missing value may be
linked in later.
-/

namespace RuleScan.Yaml

/-- The kinds of tokens. -/
inductive Token.Kind where
  /-- A plain scalar. -/
  | plain (scalar : Scalar)
  | singleQuoted
  | doubleQuoted
  /-- A value that is not written. -/
  | missing
  /-- The key mark `?`. -/
  | keyMark
  /-- The value mark `:`. -/
  | valueMark
  /-- The merge key `<<`. -/
  | mergeKey
  /-- The entry mark `-`. -/
  | entryMark
  /-- The comma between entries in brackets. -/
  | comma
  | listStart
  | listEnd
  | mapStart
  | mapEnd
  /-- The header of a text whose line ends are kept. -/
  | literal
  /-- The header of a text whose lines are joined. -/
  | folded
  | comment
  | anchor
  | alias
  | tag
  | directive
  | documentStart
  | documentEnd
  /-- A stretch that is no token, with the reason. -/
  | invalid (reason : String)
  deriving Inhabited

/-- A place in a document, counted from one. -/
structure Position where
  line : Nat
  column : Nat
  deriving Repr, DecidableEq, Inhabited

/-- A token. -/
structure Token where
  kind : Token.Kind
  value : String
  /-- The stretch of the document the token was cut from. -/
  origin : String
  pos : Position
  /-- The numbers of the neighbours in the chain. -/
  prev : Option Nat := none
  next : Option Nat := none
  deriving Inhabited

/-- The tokens of a document by number. -/
abbrev Tokens := Array Token

namespace Token

/-- Whether a token is a scalar, or stands for one that follows. -/
def isScalar (t : Token) : Bool :=
  match t.kind with
  | .plain _ | .singleQuoted | .doubleQuoted | .missing | .literal | .folded | .anchor
  | .alias => true
  | _ => false

/-- Whether a token is a quoted text. -/
def isQuoted (t : Token) : Bool :=
  match t.kind with
  | .singleQuoted | .doubleQuoted => true
  | _ => false

/-- Whether a token is the entry mark. -/
def isEntryMark (t : Token) : Bool :=
  match t.kind with
  | .entryMark => true
  | _ => false

end Token

/-- Links every token to its neighbours. -/
def Tokens.linked (tokens : Tokens) : Tokens :=
  tokens.mapIdx fun i t =>
    { t with
      prev := if i = 0 then none else some (i - 1)
      next := if i + 1 < tokens.size then some (i + 1) else none }

end RuleScan.Yaml
