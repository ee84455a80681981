import RuleScan.Text.Utf8

/-!
# Matchers of path globs

A glob is compiled into a matcher that works on the bytes of a path.  A matcher answers two
questions: whether it matches a whole text, and where it first occurs in a text, with the
lengths of the occurrences that begin there.

Rows and trees address the pieces of a text by the number of characters a part is long, so a
character of several bytes is not always seen as one: `?.ts` does not match `é.ts`.  The
definitions below fix what exactly matches.
-/

namespace RuleScan.Glob

open RuleScan.Text

/-- Compiled globs.  Characters are given by their code points. -/
inductive Matcher where
  /-- Exactly this text. -/
  | text (bytes : Bytes)
  /-- Any text without one of the separators. -/
  | any (separators : List Nat)
  /-- Any text. -/
  | super
  /-- One character other than the separators. -/
  | single (separators : List Nat)
  /-- The empty text. -/
  | nothing
  | list (codes : List Nat) (negated : Bool)
  | range (lo hi : Nat) (negated : Bool)
  /-- At least so many characters. -/
  | atLeast (count : Nat)
  /-- At most so many characters. -/
  | atMost (count : Nat)
  /-- Text that contains, or does not contain, the needle. -/
  | holding (needle : Bytes) (negated : Bool)
  | startingWith (front : Bytes)
  | endingWith (back : Bytes)
  | between (front back : Bytes)
  /-- The front, then text without separators. -/
  | thenAny (front : Bytes) (separators : List Nat)
  /-- Text without separators, then the back. -/
  | anyThen (back : Bytes) (separators : List Nat)
  /-- Parts of fixed length, so many characters in all. -/
  | row (length : Nat) (parts : List Matcher)
  /-- All at once. -/
  | everyOf (parts : List Matcher)
  /-- At least one. -/
  | anyOf (choices : List Matcher)
  /-- A part in the middle, with what is left and right of it. -/
  | around (value : Matcher) (left right : Option Matcher)
  deriving Repr, BEq, Inhabited

namespace Matcher

/-! ## Texts as bytes -/

/-- The code points of a text with their byte offsets. -/
def indexed (s : Bytes) : List (Nat × Nat) :=
  go (decode s) 0
where
  /-- Continues at byte offset `i`. -/
  go : List Rune → Nat → List (Nat × Nat)
    | [], _ => []
    | r :: rest, i => (i, r.code) :: go rest (i + r.width)

/-- The number of bytes that encode a code point. -/
def encodedWidth (code : Nat) : Nat :=
  if code < 0x80 then 1 else if code < 0x800 then 2 else if code < 0x10000 then 3 else 4

/-- The bytes of a code point. -/
def encode (code : Nat) : Bytes := bytesOf (String.ofList [Char.ofNat code])

/-- Where the first of the separators occurs that occurs at all. -/
def indexAny? (s : Bytes) (separators : List Nat) : Option Nat :=
  separators.findSome? fun c => indexOf? (encode c) s

/-- The byte offset of the last occurrence of `needle`. -/
def lastIndexOf? (needle s : Bytes) : Option Nat :=
  (List.range (s.length + 1)).reverse.find? fun i => needle.isPrefixOf (s.drop i)

/-- Where the last separator occurs. -/
def lastIndexAny? (s : Bytes) (separators : List Nat) : Option Nat :=
  separators.findSome? fun c => lastIndexOf? (encode c) s

/-- The first code point, U+FFFD for the empty text, and its width. -/
def firstOf (s : Bytes) : Nat × Nat :=
  match s with
  | [] => (replacement, 0)
  | b :: rest => let r := firstRune b rest; (r.code, r.width)

/-- The byte offsets of the characters of a text, and its length. -/
def cutPoints (s : Bytes) : List Nat := (indexed s).map (·.1) ++ [s.length]

/-! ## Length -/

mutual

/-- The number of characters of every text a matcher matches, when that is fixed. -/
def length? : Matcher → Option Nat
  | .text bytes => some (decode bytes).length
  | .single _ | .list _ _ | .range _ _ _ => some 1
  | .nothing => some 0
  | .row length _ => some length
  | .anyOf choices => lengthAll? none choices
  | .everyOf [] => some 0
  | .around value left right => do
    let v ← length? value
    let l ← lengthOption? left
    let r ← lengthOption? right
    return l + v + r
  | _ => none

/-- The common length of some choices, the first of which agree on `common`. -/
def lengthAll? (common : Option Nat) : List Matcher → Option Nat
  | [] => common
  | m :: rest =>
    match common, length? m with
    | none, len => lengthAll? len rest
    | some _, none => none
    | some n, some k => if n = k then lengthAll? (some n) rest else none

/-- The length of a part that may be missing. -/
def lengthOption? : Option Matcher → Option Nat
  | none => some 0
  | some m => length? m

end

/-! ## Whole texts and occurrences -/

/-- The byte offset just past the `count`-th character of a text, taken as one byte past the
character's start; `none` if the text is shorter. -/
def pastCharacters (s : Bytes) (count : Nat) : Option Nat :=
  match (indexed s)[count - 1]? with
  | some (i, _) => some (i + 1)
  | none => none

/-- Merges two ascending lists without repetition. -/
def mergeLengths : List Nat → List Nat → List Nat
  | [], ys => ys
  | xs, [] => xs
  | x :: xs, y :: ys =>
    if x < y then x :: mergeLengths xs (y :: ys)
    else if y < x then y :: mergeLengths (x :: xs) ys
    else x :: mergeLengths xs ys

/-- Every length at which `back` ends in the text after the front, ascending.  Overlapping
occurrences are not counted. -/
def endings (back : Bytes) : Nat → Bytes → List Nat
  | 0, _ => []
  | fuel + 1, s =>
    match lastIndexOf? back s with
    | none => []
    | some i => endings back fuel (s.take i) ++ [i + back.length]

/-- Whether a text splits into a left part, an occurrence and a right part; `find?` gives the
first occurrence in a text.  Occurrences are tried from the byte offset `offset` on, which grows
with every attempt. -/
def splits (find? : Bytes → Option (Nat × List Nat)) (left right : Bytes → Bool) (s : Bytes)
    (limit : Nat) : Nat → Nat → Bool
  | 0, _ => false
  | fuel + 1, offset =>
    if offset < limit then
      match find? ((s.take limit).drop offset) with
      | none => false
      | some (index, lengths) =>
        let place := offset + index
        if left (s.take place) && lengths.reverse.any fun n => right (s.drop (place + n)) then true
        else
          let step := (firstOf (s.drop place)).2
          splits find? left right s limit fuel (place + step)
    else false

/-- Combines the occurrences of several matchers that must all occur at one place: the start,
the offset searched so far and the lengths on which they agree. -/
def agree (s : Bytes) (finders : List (Bytes → Option (Nat × List Nat))) :
    Option (Nat × List Nat) :=
  go finders 0 0 none
where
  /-- `lengths` is what the matchers so far agree on, counted from `index`. -/
  go : List (Bytes → Option (Nat × List Nat)) → Nat → Nat → Option (List Nat) →
      Option (Nat × List Nat)
    | [], index, _, lengths => some (index, lengths.getD [])
    | find? :: rest, index, offset, lengths =>
      match find? (s.drop index) with
      | none => none
      | some (i, found) =>
        let next := i + offset
        match lengths with
        | none => go rest next (offset + i) (some found)
        | some current =>
          let kept := current.flatMap fun ex =>
            found.filter fun n => ex + index = n + next
          if kept.isEmpty then none else go rest next (offset + i) (some kept)

mutual

/-- Whether a matcher matches a whole text. -/
def accepts : Matcher → Bytes → Bool
  | .text bytes, s => s = bytes
  | .any seps, s => (indexAny? s seps).isNone
  | .super, _ => true
  | .single seps, s =>
    let (c, w) := firstOf s
    s.length ≤ w && !seps.contains c
  | .nothing, s => s.isEmpty
  | .list codes negated, s =>
    let (c, w) := firstOf s
    s.length ≤ w && codes.contains c != negated
  | .range lo hi negated, s =>
    let (c, w) := firstOf s
    s.length ≤ w && (decide (lo ≤ c ∧ c ≤ hi)) != negated
  | .atLeast n, s => 0 < (decode s).length && n ≤ (decode s).length
  | .atMost n, s => (decode s).length ≤ n
  | .holding needle negated, s => containsBytes needle s != negated
  | .startingWith front, s => front.isPrefixOf s
  | .endingWith back, s => back.isSuffixOf s
  | .between front back, s => front.isPrefixOf s && back.isSuffixOf s
  | .thenAny front seps, s => front.isPrefixOf s && (indexAny? (s.drop front.length) seps).isNone
  | .anyThen back seps, s =>
    back.isSuffixOf s && (indexAny? (s.take (s.length - back.length)) seps).isNone
  | .row length parts, s => (decode s).length = length && rowMatches parts s
  | .everyOf parts, s => allMatch parts s
  | .anyOf choices, s => anyMatch choices s
  | .around value left right, s =>
    let total := lengthOption? (some (.around value left right))
    if total.any (s.length < ·) then false
    else
      let first := (lengthOption? left).getD 0
      let limit := s.length - (lengthOption? right).getD 0
      splits (occurrence? value) (optionMatches left) (optionMatches right) s limit
        (s.length + 1) first

/-- Whether the parts of a row match one after the other at the front of a text. -/
def rowMatches : List Matcher → Bytes → Bool
  | [], _ => true
  | m :: rest, s =>
    let count := (length? m).getD 0
    match if count = 0 then lastStart s else pastCharacters s count with
    | none => false
    | some n => accepts m (s.take n) && rowMatches rest (s.drop n)
where
  /-- A part without length looks at the text up to the start of its last character. -/
  lastStart (s : Bytes) : Option Nat :=
    some (((indexed s).getLast?.map fun (i, _) => i + 1).getD 1)

/-- Whether every matcher matches. -/
def allMatch : List Matcher → Bytes → Bool
  | [], _ => true
  | m :: rest, s => accepts m s && allMatch rest s

/-- Whether some matcher matches. -/
def anyMatch : List Matcher → Bytes → Bool
  | [], _ => false
  | m :: rest, s => accepts m s || anyMatch rest s

/-- A part that may be missing matches the empty text when it is. -/
def optionMatches : Option Matcher → Bytes → Bool
  | none, s => s.isEmpty
  | some m, s => accepts m s

/-- The first occurrence of a matcher in a text: its byte offset and the lengths of the
occurrences there.  Trees are never looked for inside a text. -/
def occurrence? : Matcher → Bytes → Option (Nat × List Nat)
  | .text bytes, s => (indexOf? bytes s).map fun i => (i, [bytes.length])
  | .any seps, s =>
    match indexAny? s seps with
    | some 0 => some (0, [0])
    | some i => some (0, cutPoints (s.take i))
    | none => some (0, cutPoints s)
  | .super, s => some (0, cutPoints s)
  | .single seps, s =>
    ((indexed s).find? fun (_, c) => !seps.contains c).map fun (i, c) => (i, [encodedWidth c])
  | .nothing, _ => some (0, [0])
  | .list codes negated, s =>
    ((indexed s).find? fun (_, c) => negated != codes.contains c).map fun (i, c) =>
      (i, [encodedWidth c])
  | .range lo hi negated, s =>
    ((indexed s).find? fun (_, c) => negated != decide (lo ≤ c ∧ c ≤ hi)).map fun (i, c) =>
      (i, [encodedWidth c])
  | .atLeast n, s =>
    if s.length < n then none
    else
      let ends := ((indexed s).drop (n - 1)).map fun (i, c) => i + encodedWidth c
      if ends.isEmpty then none else some (0, ends)
  | .atMost n, s =>
    some (0, 0 :: ((indexed s).take n).map fun (i, c) => i + encodedWidth c)
  | .holding needle negated, s =>
    let shift (offset : Nat) (s : Bytes) : Option (Nat × List Nat) :=
      some (0, (cutPoints s).map (offset + ·))
    match indexOf? needle s, negated with
    | none, false => none
    | some i, false =>
      let offset := i + needle.length
      if s.length ≤ offset then some (0, [offset]) else shift offset (s.drop offset)
    | some i, true => shift 0 (s.take i)
    | none, true => shift 0 s
  | .startingWith front, s =>
    (indexOf? front s).map fun i =>
      (i, front.length :: (indexed (s.drop (i + front.length))).map fun (j, c) =>
        front.length + j + encodedWidth c)
  | .endingWith back, s => (indexOf? back s).map fun i => (0, [i + back.length])
  | .between front back, s =>
    match indexOf? front s with
    | none => none
    | some i =>
      if back.isEmpty then some (i, [s.length - i])
      else if s.length ≤ i then none
      else
        let lengths := endings back (s.length + 1) (s.drop i)
        if lengths.isEmpty then none else some (i, lengths)
  | .thenAny front seps, s =>
    (indexOf? front s).map fun i =>
      let rest := s.drop (i + front.length)
      let rest := match indexAny? rest seps with
        | some j => rest.take j
        | none => rest
      (i, front.length :: (indexed rest).map fun (j, c) => front.length + j + encodedWidth c)
  | .anyThen back seps, s =>
    (indexOf? back s).map fun i =>
      let start := match lastIndexAny? (s.take i) seps with
        | some j => j + 1
        | none => 0
      (start, [i + back.length - start])
  | .row length parts, s =>
    ((indexed s).find? fun (i, _) =>
      length ≤ (s.drop i).length && rowMatches parts (s.drop i)).map fun (i, _) => (i, [length])
  | .everyOf parts, s => agree s (finders parts)
  | .anyOf choices, s => anyOccurrence choices s none
  | .around _ _ _, _ => none

/-- The occurrence functions of some matchers. -/
def finders : List Matcher → List (Bytes → Option (Nat × List Nat))
  | [] => []
  | m :: rest => (fun s => occurrence? m s) :: finders rest

/-- The earliest occurrence among some choices; lengths at the same place are merged. -/
def anyOccurrence : List Matcher → Bytes → Option (Nat × List Nat) → Option (Nat × List Nat)
  | [], _, best => best
  | m :: rest, s, best =>
    let best := match occurrence? m s, best with
      | none, best => best
      | some found, none => some found
      | some (i, lengths), some (j, known) =>
        if i < j then some (i, lengths)
        else if j < i then some (j, known)
        else some (j, mergeLengths known lengths)
    anyOccurrence rest s best

end

end Matcher

end RuleScan.Glob
