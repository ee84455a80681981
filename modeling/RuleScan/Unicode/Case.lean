import RuleScan.Unicode.Category
import RuleScan.Unicode.Ranges

/-!
# Upper and lower case

The simple case maps, one code point to one code point.  They are read off the folding table: the
upper-case form is the first upper-case letter that folds like the code point, or else the title-case
one.  A few code points stand apart from the table and are named here.
-/

/-!
## Simple case folding

Two code points are equal without regard to case when they fold to the same code point.  The
table lists the runs of code points that fold to another one; everything else folds to itself.
-/

namespace RuleScan.Unicode

/-- A run of code points `lo, lo + step, ..., hi` that all fold by the same distance. -/
structure FoldRun where
  lo : Nat
  hi : Nat
  step : Nat
  delta : Int
  deriving Repr, DecidableEq

/-- The runs, each written `lo-hi/step:distance` with the distance in decimal. -/
def foldText : String :=
  "41-5a/1:32 b5-b5/1:775 c0-d6/1:32 d8-de/1:32 100-12e/2:1 132-136/2:1 139-147/2:1
  14a-176/2:1 178-178/1:-121 179-17d/2:1 17f-17f/1:-268 181-181/1:210 182-182/1:1
  184-184/1:1 186-186/1:206 187-187/1:1 189-18a/1:205 18b-18b/1:1 18e-18e/1:79 18f-18f/1:202
  190-190/1:203 191-191/1:1 193-193/1:205 194-194/1:207 196-196/1:211 197-197/1:209
  198-198/1:1 19c-19c/1:211 19d-19d/1:213 19f-19f/1:214 1a0-1a4/2:1 1a6-1a6/1:218
  1a7-1a7/1:1 1a9-1a9/1:218 1ac-1ac/1:1 1ae-1ae/1:218 1af-1af/1:1 1b1-1b2/1:217 1b3-1b3/1:1
  1b5-1b5/1:1 1b7-1b7/1:219 1b8-1b8/1:1 1bc-1bc/1:1 1c4-1c4/1:2 1c5-1c5/1:1 1c7-1c7/1:2
  1c8-1c8/1:1 1ca-1ca/1:2 1cb-1db/2:1 1de-1ee/2:1 1f1-1f1/1:2 1f2-1f2/1:1 1f4-1f4/1:1
  1f6-1f6/1:-97 1f7-1f7/1:-56 1f8-21e/2:1 220-220/1:-130 222-232/2:1 23a-23a/1:10795
  23b-23b/1:1 23d-23d/1:-163 23e-23e/1:10792 241-241/1:1 243-243/1:-195 244-244/1:69
  245-245/1:71 246-24e/2:1 345-345/1:116 370-370/1:1 372-372/1:1 376-376/1:1 37f-37f/1:116
  386-386/1:38 388-38a/1:37 38c-38c/1:64 38e-38f/1:63 391-3a1/1:32 3a3-3ab/1:32 3c2-3c2/1:1
  3cf-3cf/1:8 3d0-3d0/1:-30 3d1-3d1/1:-25 3d5-3d5/1:-15 3d6-3d6/1:-22 3d8-3ee/2:1
  3f0-3f0/1:-54 3f1-3f1/1:-48 3f4-3f4/1:-60 3f5-3f5/1:-64 3f7-3f7/1:1 3f9-3f9/1:-7
  3fa-3fa/1:1 3fd-3ff/1:-130 400-40f/1:80 410-42f/1:32 460-480/2:1 48a-4be/2:1 4c0-4c0/1:15
  4c1-4cd/2:1 4d0-52e/2:1 531-556/1:48 10a0-10c5/1:7264 10c7-10c7/1:7264 10cd-10cd/1:7264
  13f8-13fd/1:-8 1c80-1c80/1:-6222 1c81-1c81/1:-6221 1c82-1c82/1:-6212 1c83-1c84/1:-6210
  1c85-1c85/1:-6211 1c86-1c86/1:-6204 1c87-1c87/1:-6180 1c88-1c88/1:35267 1c89-1c89/1:1
  1c90-1cba/1:-3008 1cbd-1cbf/1:-3008 1e00-1e94/2:1 1e9b-1e9b/1:-58 1e9e-1e9e/1:-7615
  1ea0-1efe/2:1 1f08-1f0f/1:-8 1f18-1f1d/1:-8 1f28-1f2f/1:-8 1f38-1f3f/1:-8 1f48-1f4d/1:-8
  1f59-1f5f/2:-8 1f68-1f6f/1:-8 1f88-1f8f/1:-8 1f98-1f9f/1:-8 1fa8-1faf/1:-8 1fb8-1fb9/1:-8
  1fba-1fbb/1:-74 1fbc-1fbc/1:-9 1fbe-1fbe/1:-7173 1fc8-1fcb/1:-86 1fcc-1fcc/1:-9
  1fd8-1fd9/1:-8 1fda-1fdb/1:-100 1fe8-1fe9/1:-8 1fea-1feb/1:-112 1fec-1fec/1:-7
  1ff8-1ff9/1:-128 1ffa-1ffb/1:-126 1ffc-1ffc/1:-9 2126-2126/1:-7517 212a-212a/1:-8383
  212b-212b/1:-8262 2132-2132/1:28 2160-216f/1:16 2183-2183/1:1 24b6-24cf/1:26
  2c00-2c2f/1:48 2c60-2c60/1:1 2c62-2c62/1:-10743 2c63-2c63/1:-3814 2c64-2c64/1:-10727
  2c67-2c6b/2:1 2c6d-2c6d/1:-10780 2c6e-2c6e/1:-10749 2c6f-2c6f/1:-10783 2c70-2c70/1:-10782
  2c72-2c72/1:1 2c75-2c75/1:1 2c7e-2c7f/1:-10815 2c80-2ce2/2:1 2ceb-2ceb/1:1 2ced-2ced/1:1
  2cf2-2cf2/1:1 a640-a66c/2:1 a680-a69a/2:1 a722-a72e/2:1 a732-a76e/2:1 a779-a779/1:1
  a77b-a77b/1:1 a77d-a77d/1:-35332 a77e-a786/2:1 a78b-a78b/1:1 a78d-a78d/1:-42280
  a790-a790/1:1 a792-a792/1:1 a796-a7a8/2:1 a7aa-a7aa/1:-42308 a7ab-a7ab/1:-42319
  a7ac-a7ac/1:-42315 a7ad-a7ad/1:-42305 a7ae-a7ae/1:-42308 a7b0-a7b0/1:-42258
  a7b1-a7b1/1:-42282 a7b2-a7b2/1:-42261 a7b3-a7b3/1:928 a7b4-a7c2/2:1 a7c4-a7c4/1:-48
  a7c5-a7c5/1:-42307 a7c6-a7c6/1:-35384 a7c7-a7c7/1:1 a7c9-a7c9/1:1 a7cb-a7cb/1:-42343
  a7cc-a7ce/2:1 a7d0-a7d0/1:1 a7d2-a7d4/2:1 a7d6-a7d6/1:1 a7d8-a7d8/1:1 a7da-a7da/1:1
  a7dc-a7dc/1:-42561 a7f5-a7f5/1:1 ab70-abbf/1:-38864 ff21-ff3a/1:32 10400-10427/1:40
  104b0-104d3/1:40 10570-10594/2:39 10571-10579/2:39 1057d-10589/2:39 1058d-10591/2:39
  10595-10595/1:39 10c80-10cb2/1:64 10d50-10d65/1:32 118a0-118bf/1:32 16e40-16e5f/1:32
  16ea0-16eb8/1:27 1e900-1e921/1:34"

/-- Reads one run in the notation of `foldText`. -/
def FoldRun.read? (text : String) : Option FoldRun :=
  match text.splitOn ":" with
  | [range, distance] =>
    match Span.read? range, distance.toInt? with
    | some span, some delta => some ⟨span.lo, span.hi, span.step, delta⟩
    | _, _ => none
  | _ => none

/-- The runs, read once. -/
def foldRuns : List FoldRun :=
  (tableEntries foldText).filterMap FoldRun.read?

/-- What a code point folds to. -/
def fold (code : Nat) : Nat :=
  if code < 0x41 then code
  else if code < 0x80 then if code ≤ 0x5a then code + 32 else code
  else
    match foldRuns.find? fun r => r.lo ≤ code && code ≤ r.hi && (code - r.lo) % r.step = 0 with
    | some r => (Int.ofNat code + r.delta).toNat
    | none => code

/-- The code points that fold to `code` by a run of the table. -/
def unfoldings (code : Nat) : List Nat :=
  foldRuns.filterMap fun r =>
    let source := Int.ofNat code - r.delta
    if source < 0 then none
    else
      let c := source.toNat
      if r.lo ≤ c && c ≤ r.hi && (c - r.lo) % r.step = 0 then some c else none

/-- All code points equal to `code` without regard to case, `code` among them. -/
def orbit (code : Nat) : List Nat :=
  let base := fold code
  base :: unfoldings base

end RuleScan.Unicode

namespace RuleScan.Unicode

/-- The least member of a list of code points. -/
def least? : List Nat → Option Nat
  | [] => none
  | c :: rest => some (rest.foldl min c)

/-- The upper-case form of a code point.  The small sharp s has none, and the small i without a
dot shares the one of the other small i. -/
def upper (code : Nat) : Nat :=
  if code < 0x80 then if 0x61 ≤ code && code ≤ 0x7a then code - 32 else code
  else if code = 0x131 then 0x49
  else if code = 0xdf || isUpper code then code
  else
    let same := orbit code
    match least? (same.filter isUpper), least? (same.filter isTitle) with
    | some u, _ | none, some u => u
    | none, none => (least? same).getD code

/-- The lower-case form of a code point.  The dotted capital i loses its dot, the Cherokee letters
fold the other way round, and the iota that combines with a letter has no case of its own. -/
def lower (code : Nat) : Nat :=
  if code < 0x80 then if 0x41 ≤ code && code ≤ 0x5a then code + 32 else code
  else if code = 0x130 then 0x69
  else if code = 0x345 then code
  else if 0x13a0 ≤ code && code ≤ 0x13ef then code + 38864
  else if 0x13f0 ≤ code && code ≤ 0x13f5 then code + 8
  else if isLower code then code
  else fold code

/-- A text in upper case. -/
def upperText (s : String) : String := s.map fun c => Char.ofNat (upper c.toNat)

/-- A text in lower case. -/
def lowerText (s : String) : String := s.map fun c => Char.ofNat (lower c.toNat)

/-- Whether two texts are the same without regard to case. -/
def sameFold (a b : String) : Bool :=
  a.toList.map (fun c => fold c.toNat) == b.toList.map (fun c => fold c.toNat)

/-- The letters that fold to several: the sharp s and the ligatures of Latin letters. -/
def foldings : List (Nat × String) :=
  [(0xdf, "ss"), (0x1e9e, "ss"), (0xfb00, "ff"), (0xfb01, "fi"), (0xfb02, "fl"), (0xfb03, "ffi"),
    (0xfb04, "ffl"), (0xfb05, "st"), (0xfb06, "st")]

/-- A text without regard to case. -/
def foldFully (s : String) : String :=
  String.ofList (s.toList.flatMap fun c =>
    match foldings.lookup c.toNat with
    | some letters => letters.toList
    | none => [Char.ofNat (fold c.toNat)])

end RuleScan.Unicode
