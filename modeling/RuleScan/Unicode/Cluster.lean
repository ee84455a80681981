import RuleScan.Unicode.Category

/-!
# Characters as readers see them

What a reader takes for one character can be several code points: a letter with marks, a pictograph
with a colour of skin, several pictographs joined to one, a flag of two letters, a syllable of
Hangul.  A text is cut into such clusters by the classes of neighbouring code points.
-/

namespace RuleScan.Unicode

/-- What a code point does at the border to its neighbours. -/
inductive Break where
  | carriageReturn
  | lineFeed
  | control
  /-- A mark that belongs to the code point before it. -/
  | extend
  | joiner
  /-- A mark that takes room of its own and belongs to the code point before it. -/
  | spacing
  /-- Belongs to the code point behind it. -/
  | front
  | flagLetter
  | pictograph
  | leading
  | vowel
  | trailing
  /-- A syllable without a final consonant. -/
  | openSyllable
  | closedSyllable
  | other
  deriving Repr, DecidableEq, Inhabited

/-- Marks that extend a code point although they take room, and modifiers of pictographs. -/
def extendingRanges : Ranges := Ranges.read
  "9be 9d7 b3e b57 bbe bd7 cc0 cc2 cc7-cc8 cca-ccb cd5-cd6 d3e d57 dcf ddf 1715 1734 1b35 1b3b
  1b3d 1b43-1b44 1baa 1bf2-1bf3 200c 302e-302f a953 a9c0 ff9e-ff9f 111c0 11235 1133e 1134d
  11357 113b8 113c2 113c5 113c7-113c9 113cf 114b0 114bd 115af 116b6 11930 1193d 11f41
  16ff0-16ff1 1d165-1d166 1d16d-1d172 1f3fb-1f3ff e0020-e007f"

/-- Marks that take room but start a cluster of their own. -/
def apartRanges : Ranges := Ranges.read
  "102b-102c 1038 1062-1064 1067-106d 1083 1087-108c 108f 109a-109c 1a61 1a63-1a64 aa7b aa7d
  11720-11721"

/-- Code points that belong to the one behind them. -/
def frontRanges : Ranges := Ranges.read
  "600-605 6dd 70f 890-891 8e2 d4e 110bd 110cd 111c2-111c3 113d1 1193f 11941 11a84-11a89 11d46
  11f02"

/-- Code points that are set apart like control characters although they are none. -/
def ignorableRanges : Ranges := Ranges.read
  "2065 fff0-fff8 e0000 e0002-e001f e0080-e00ff e01f0-e0fff"

/-- Pictographs, with the places kept free for more. -/
def pictographRanges : Ranges := Ranges.read
  "a9 ae 203c 2049 2122 2139 2194-2199 21a9-21aa 231a-231b 2328 23cf 23e9-23f3 23f8-23fa 24c2
  25aa-25ab 25b6 25c0 25fb-25fe 2600-2604 260e 2611 2614-2615 2618 261d 2620 2622-2623 2626
  262a 262e-262f 2638-263a 2640 2642 2648-2653 265f-2660 2663 2665-2666 2668 267b 267e-267f
  2692-2697 2699 269b-269c 26a0-26a1 26a7 26aa-26ab 26b0-26b1 26bd-26be 26c4-26c5 26c8
  26ce-26cf 26d1 26d3-26d4 26e9-26ea 26f0-26f5 26f7-26fa 26fd 2702 2705 2708-270d 270f 2712
  2714 2716 271d 2721 2728 2733-2734 2744 2747 274c 274e 2753-2755 2757 2763-2764 2795-2797
  27a1 27b0 27bf 2934-2935 2b05-2b07 2b1b-2b1c 2b50 2b55 3030 303d 3297 3299 1f004 1f02c-1f02f
  1f094-1f09f 1f0af-1f0b0 1f0c0 1f0cf-1f0d0 1f0f6-1f0ff 1f170-1f171 1f17e-1f17f 1f18e
  1f191-1f19a 1f1ae-1f1e5 1f201-1f20f 1f21a 1f22f 1f232-1f23a 1f23c-1f23f 1f249-1f25f
  1f266-1f321 1f324-1f393 1f396-1f397 1f399-1f39b 1f39e-1f3f0 1f3f3-1f3f5 1f3f7-1f3fa
  1f400-1f4fd 1f4ff-1f53d 1f549-1f54e 1f550-1f567 1f56f-1f570 1f573-1f57a 1f587 1f58a-1f58d
  1f590 1f595-1f596 1f5a4-1f5a5 1f5a8 1f5b1-1f5b2 1f5bc 1f5c2-1f5c4 1f5d1-1f5d3 1f5dc-1f5de
  1f5e1 1f5e3 1f5e8 1f5ef 1f5f3 1f5fa-1f64f 1f680-1f6c5 1f6cb-1f6d2 1f6d5-1f6e5 1f6e9
  1f6eb-1f6f0 1f6f3-1f6ff 1f7da-1f7ff 1f80c-1f80f 1f848-1f84f 1f85a-1f85f 1f888-1f88f
  1f8ae-1f8af 1f8bc-1f8bf 1f8c2-1f8cf 1f8d9-1f8ff 1f90c-1f93a 1f93c-1f945 1f947-1f9ff
  1fa58-1fa5f 1fa6e-1faff 1fc00-1fffd"

/-- Whether a code point is in one of some categories. -/
def isIn (names : List String) (code : Nat) : Bool :=
  categories.any fun (name, ranges) => names.contains name && ranges.contains code

/-- The class of a code point. -/
def breakOf (code : Nat) : Break :=
  if code = 0x0d then .carriageReturn
  else if code = 0x0a then .lineFeed
  else if code < 0x20 || (0x7f ≤ code && code < 0xa0) then .control
  else if code < 0xa9 then .other
  else if code = 0x200d then .joiner
  else if 0x1100 ≤ code && code ≤ 0x115f || 0xa960 ≤ code && code ≤ 0xa97c then .leading
  else if 0x1160 ≤ code && code ≤ 0x11a7 || 0xd7b0 ≤ code && code ≤ 0xd7c6 then .vowel
  else if 0x11a8 ≤ code && code ≤ 0x11ff || 0xd7cb ≤ code && code ≤ 0xd7fb then .trailing
  else if 0xac00 ≤ code && code ≤ 0xd7a3 then
    if (code - 0xac00) % 28 = 0 then .openSyllable else .closedSyllable
  else if 0x1f1e6 ≤ code && code ≤ 0x1f1ff then .flagLetter
  else if extendingRanges.contains code || isIn ["Mn", "Me"] code then .extend
  else if frontRanges.contains code then .front
  else if code = 0xe33 || code = 0xeb3 || (isIn ["Mc"] code && !apartRanges.contains code) then
    .spacing
  else if ignorableRanges.contains code || isIn ["Cf", "Zl", "Zp"] code then .control
  else if pictographRanges.contains code then .pictograph
  else .other

/-- Whether two neighbours belong together.  Two pictographs do if they are joined, and two letters
of a flag if the first one has no partner yet. -/
def together (joined paired : Bool) (a b : Break) : Bool :=
  match a, b with
  | .carriageReturn, .lineFeed => true
  | .carriageReturn, _ | .lineFeed, _ | .control, _ => false
  | _, .carriageReturn | _, .lineFeed | _, .control => false
  | .leading, .leading | .leading, .vowel | .leading, .openSyllable | .leading, .closedSyllable =>
    true
  | .openSyllable, .vowel | .openSyllable, .trailing | .vowel, .vowel | .vowel, .trailing => true
  | .closedSyllable, .trailing | .trailing, .trailing => true
  | _, .extend | _, .joiner | _, .spacing => true
  | .front, _ => true
  | .joiner, .pictograph => joined
  | .flagLetter, .flagLetter => !paired
  | _, _ => false

/-- The rest of a cluster after a code point of class `a`: `pictured` says whether a pictograph and
nothing but marks came before, `joined` whether a joiner stands behind such, and `paired` whether
the letter of a flag has its partner. -/
def clusterTail (pictured joined paired : Bool) (a : Break) : List Char → List Char
  | [] => []
  | c :: rest =>
    let b := breakOf c.toNat
    if together joined paired a b then
      c :: clusterTail (b = .pictograph || (pictured && b = .extend)) (pictured && b = .joiner)
        (a = .flagLetter && b = .flagLetter) b rest
    else []

/-- The first cluster of a text that starts with a character. -/
def cluster (c : Char) (rest : List Char) : List Char :=
  let a := breakOf c.toNat
  c :: clusterTail (a = .pictograph) false false a rest

end RuleScan.Unicode
