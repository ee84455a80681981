import RuleScan.Text.Utf8

/-!
# Blank space

The code points counted as blank when text is trimmed or split into words, and the usual
operations with them.
-/

namespace RuleScan.Text

/-- A blank code point: the ASCII blanks and line ends, the no-break space, and the space and
line separators of other scripts. -/
def isSpace (c : Char) : Bool :=
  let n := c.toNat
  (0x09 ≤ n && n ≤ 0x0d) || n = 0x20 || n = 0x85 || n = 0xa0 || n = 0x1680 ||
    (0x2000 ≤ n && n ≤ 0x200a) || n = 0x2028 || n = 0x2029 || n = 0x202f || n = 0x205f ||
    n = 0x3000

/-- Drops the characters satisfying `p` from the end of a list. -/
def dropEndWhile (p : Char → Bool) (cs : List Char) : List Char :=
  (cs.reverse.dropWhile p).reverse

/-- Drops the characters satisfying `p` from both ends of a list. -/
def trimWhile (p : Char → Bool) (cs : List Char) : List Char :=
  dropEndWhile p (cs.dropWhile p)

/-- A text without the blanks at its ends. -/
def trim (s : String) : String := String.ofList (trimWhile isSpace s.toList)

/-- Whether a decoded code point is blank. -/
def isSpaceRune (r : Rune) : Bool := isSpace (Char.ofNat r.code)

/-- The number of bytes of the blanks at the front of decoded bytes. -/
def blankWidth (runes : List Rune) : Nat :=
  total ((runes.takeWhile isSpaceRune).map Rune.width)

/-- Bytes without the blanks at their ends. -/
def trimBytes (bs : Bytes) : Bytes :=
  let rest := bs.drop (blankWidth (decode bs))
  rest.take (rest.length - blankWidth (decode rest).reverse)

/-- A text without the given characters at its right end. -/
def trimRight (p : Char → Bool) (s : String) : String := String.ofList (dropEndWhile p s.toList)

/-- A text without the given characters at its left end. -/
def trimLeft (p : Char → Bool) (s : String) : String := String.ofList (s.toList.dropWhile p)

/-- Splits at every character satisfying `p`; the pieces may be empty. -/
def splitWhere (p : Char → Bool) (cs : List Char) : List (List Char) :=
  cs.foldr (fun c acc =>
    if p c then [] :: acc
    else match acc with
      | piece :: more => (c :: piece) :: more
      | [] => [[c]]) [[]]

/-- The words of a text: the longest pieces without blanks. -/
def words (s : String) : List String :=
  ((splitWhere isSpace s.toList).filter (! ·.isEmpty)).map String.ofList

/-- Splits a text at every line feed. -/
def splitLines (s : String) : List String :=
  (splitWhere (· = '\n') s.toList).map String.ofList

/-- The pieces between the occurrences of `sep`; the first `skip` characters still belong to one. -/
def piecesBetween (sep : List Char) : Nat → List Char → List (List Char)
  | _, [] => [[]]
  | skip + 1, _ :: rest => piecesBetween sep skip rest
  | 0, c :: rest =>
    if sep.isPrefixOf (c :: rest) then [] :: piecesBetween sep (sep.length - 1) rest
    else match piecesBetween sep 0 rest with
      | piece :: more => (c :: piece) :: more
      | [] => [[c]]

/-- Splits a text at every occurrence of `sep`, which is not empty. -/
def split (sep s : String) : List String :=
  (piecesBetween sep.toList 0 s.toList).map String.ofList

/-- The text before and after the first occurrence of `sep`. -/
def cut? (sep : List Char) : List Char → Option (List Char × List Char)
  | [] => if sep.isEmpty then some ([], []) else none
  | c :: rest =>
    if sep.isPrefixOf (c :: rest) then some ([], (c :: rest).drop sep.length)
    else (cut? sep rest).map fun (before, after) => (c :: before, after)

/-- Whether `needle` occurs in `hay`. -/
def containsText (needle hay : String) : Bool := (cut? needle.toList hay.toList).isSome

/-- What follows a text at the front. -/
def stripFront? (front s : String) : Option String :=
  if front.toList.isPrefixOf s.toList then some (String.ofList (s.toList.drop front.length))
  else none

/-- What precedes a text at the end. -/
def stripEnd? (ending s : String) : Option String :=
  if ending.toList.isSuffixOf s.toList then
    some (String.ofList (s.toList.take (s.length - ending.length)))
  else none

/-- Upper case for the ASCII letters, all else unchanged. -/
def asciiUpper (s : String) : String := s.map Char.toUpper

/-- Lower case for the ASCII letters, all else unchanged. -/
def asciiLower (s : String) : String := s.map Char.toLower

end RuleScan.Text
