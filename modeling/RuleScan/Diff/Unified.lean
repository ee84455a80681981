import RuleScan.Diff.Common
import RuleScan.Text.Space
import RuleScan.Text.Utf8

/-!
# Differences of texts and entries

The edits between two lists and between two texts, differences as they are shown, and differences
between lists of entries.
-/

/-!
## Edits

An edit replaces a run of items by others.  The edits between two lists replace what lies between
their common items.  Between two texts they are told in bytes: the places are places in the bytes
of the old text, and always such at which a character starts or the text ends.
-/

namespace RuleScan.Diff

/-- The items from `start` to before `stop` are replaced by others. -/
structure Edit (α : Type) where
  start : Nat
  stop : Nat
  lines : List α
  deriving Repr, DecidableEq, Inhabited

namespace Edit

variable {α : Type}

/-- The edit of what lies between two places in the old list and two in the new one. -/
def between? (new : List α) (i x j y : Nat) : Option (Edit α) :=
  if i < x || j < y then some ⟨i, x, (new.take y).drop j⟩ else none

/-- The edits around common items, from a place in each list on. -/
def around (old new : List α) (i j : Nat) : List Pair → List (Edit α)
  | [] => (between? new i old.length j new.length).toList
  | (x, y) :: rest => (between? new i x j y).toList ++ around old new (x + 1) (y + 1) rest

/-- The edits that turn one list into another. -/
def ofLists [DecidableEq α] (old new : List α) : List (Edit α) :=
  around old new 0 0 (common old new)

/-- Applies edits to the items from a place on. -/
def applyFrom (old : List α) (i : Nat) : List (Edit α) → List α
  | [] => old.drop i
  | e :: rest => (old.take e.start).drop i ++ e.lines ++ applyFrom old e.stop rest

/-- The list that edits make of another one. -/
def apply (old : List α) (edits : List (Edit α)) : List α := applyFrom old 0 edits

/-- Whether edits stand one behind the other, from a place on and within a list of some length. -/
def inOrder (length i : Nat) : List (Edit α) → Bool
  | [] => true
  | e :: rest => i ≤ e.start && e.start ≤ e.stop && e.stop ≤ length && inOrder length e.stop rest

end Edit

/-- A replacement in a text: the bytes from `start` to before `stop` give way to other text. -/
structure TextEdit where
  start : Nat
  stop : Nat
  text : String
  deriving Repr, DecidableEq, Inhabited

namespace TextEdit

/-- The replacement as an edit of the bytes. -/
def inBytes (e : TextEdit) : Edit UInt8 := ⟨e.start, e.stop, Text.bytesOf e.text⟩

/-- Whether edits of a text can be applied to it. -/
def fit (text : String) (edits : List TextEdit) : Bool :=
  Edit.inOrder (Text.bytesOf text).length 0 (edits.map inBytes)

/-- An edit of the characters of a text. -/
def ofChars (old : List Char) (e : Edit Char) : TextEdit :=
  { start := (String.ofList (old.take e.start)).utf8ByteSize
    stop := (String.ofList (old.take e.stop)).utf8ByteSize
    text := String.ofList e.lines }

/-- The edits that turn one text into another. -/
def between (old new : String) : List TextEdit :=
  if old = new then []
  else (Edit.ofLists old.toList new.toList).map (ofChars old.toList)

end TextEdit

end RuleScan.Diff

/-!
## Unified diffs

The usual form of a difference between two texts: hunks of changed lines with some unchanged ones
around them.  The edits that are shown start and end where a line does.
-/

namespace RuleScan.Diff

/-- What happens to a line. -/
inductive Mark where
  | kept
  | removed
  | added
  deriving Repr, DecidableEq, Inhabited

/-- The sign in front of a line. -/
def Mark.sign : Mark → String
  | .kept => " "
  | .removed => "-"
  | .added => "+"

/-- A run of changes with the lines around them. -/
structure Hunk where
  oldLine : Int
  newLine : Int
  lines : List (Mark × String)
  deriving Repr, DecidableEq, Inhabited

/-- How many unchanged lines are shown around a change. -/
def contextLines : Nat := 3

/-- The lines of a text, each with its end. -/
def textLines (text : String) : List String :=
  let pieces := Text.splitLines text
  (pieces.dropLast.map (· ++ "\n")) ++ (pieces.getLast?.filter (· ≠ "")).toList

/-- How many lines end at or before a place in the bytes of their text. -/
def linesBefore (place : Nat) : List String → Nat
  | [] => 0
  | line :: rest =>
    if line.utf8ByteSize ≤ place then linesBefore (place - line.utf8ByteSize) rest + 1 else 0

/-- An edit of a text in the lines of the text. -/
def TextEdit.inLines (lines : List String) (e : TextEdit) : Edit String :=
  { start := linesBefore e.start lines
    stop := linesBefore e.stop lines
    lines := textLines e.text }

namespace Hunk

/-- Adds unchanged lines. -/
def keep (h : Hunk) (lines : List String) : Hunk :=
  { h with lines := h.lines ++ lines.map (Mark.kept, ·) }

/-- Adds the lines of an edit. -/
def change (h : Hunk) (old : List String) (e : Edit String) : Hunk :=
  { h with lines := h.lines ++ ((old.take e.stop).drop e.start).map (Mark.removed, ·) ++
      e.lines.map (Mark.added, ·) }

/-- How many lines of one side a hunk covers. -/
def span (h : Hunk) (other : Mark) : Nat := h.lines.countP (·.1 ≠ other)

/-- The place of a hunk on one side. -/
def placeText (line : Int) (count : Nat) : String :=
  if count > 1 then toString line ++ "," ++ toString count
  else if line = 1 && count = 0 then "0,0"
  else toString line

/-- A hunk as text. -/
def text (h : Hunk) : String :=
  "@@ -" ++ placeText h.oldLine (h.span .added) ++ " +" ++
    placeText h.newLine (h.span .removed) ++ " @@\n" ++
    String.join (h.lines.map fun (mark, line) => mark.sign ++ line)

end Hunk

/-- Where the making of hunks stands. -/
structure Making where
  done : List Hunk := []
  current : Option Hunk := none
  /-- The old line behind the last edit. -/
  last : Nat := 0
  /-- The new line that the next hunk is counted from. -/
  newLine : Int := 0

/-- The hunk that an edit opens. -/
def openHunk (old : List String) (start : Nat) (newLine : Int) : Hunk :=
  let before := (old.take start).drop (start - contextLines)
  { oldLine := (start : Int) + 1 - before.length
    newLine := newLine + 1 - before.length
    lines := before.map (Mark.kept, ·) }

/-- Closes a hunk with the lines behind its last edit. -/
def closeHunk (old : List String) (h : Hunk) (last : Nat) : Hunk :=
  h.keep ((old.drop last).take contextLines)

/-- Adds an edit: to the hunk at hand if it is near, else to a new one.  The new line is counted
on over the added lines and, between hunks, over the kept ones. -/
def Making.add (old : List String) (m : Making) (e : Edit String) : Making :=
  let close (h : Hunk) : List Hunk := m.done ++ [closeHunk old h m.last]
  let start (done : List Hunk) : List Hunk × Hunk × Int :=
    let newLine := m.newLine + (e.start - m.last : Int)
    (done, openHunk old e.start newLine, newLine)
  let (done, h, newLine) := match m.current with
    | none => start m.done
    | some h =>
      if e.start ≤ m.last + 2 * contextLines then
        (m.done, h.keep ((old.take e.start).drop m.last), m.newLine)
      else start (close h)
  { done
    current := some (h.change old e)
    last := e.stop
    newLine := newLine + e.lines.length }

/-- The hunks of edits. -/
def hunks (old : List String) (edits : List (Edit String)) : List Hunk :=
  let m := edits.foldl (Making.add old) {}
  m.done ++ (m.current.map fun h => closeHunk old h m.last).toList

/-- The unified diff that shows edits of a text; none if they cannot be applied to it. -/
def unified? (oldLabel newLabel text : String) (edits : List TextEdit) : Option String :=
  if TextEdit.fit text edits then
    let lines := textLines text
    let list := hunks lines (edits.map (·.inLines lines))
    some (if list.isEmpty then ""
      else "--- " ++ oldLabel ++ "\n+++ " ++ newLabel ++ "\n" ++ String.join (list.map Hunk.text))
  else none

/-- What finds the edits between two texts, and what shows them. -/
structure Differ where
  between : String → String → List TextEdit
  unified? (oldLabel newLabel text : String) (edits : List TextEdit) : Option String

/-- The way of this library. -/
def Differ.standard : Differ := { between := TextEdit.between, unified? := Diff.unified? }

end RuleScan.Diff

/-!
## Edits of entries

Entries are compared as a whole: two that are alike in part are not matched by that part.  Each
entry is written as one character for that, the same one on both sides, and the edits of the two
texts that come of it are read as edits of the entries.

The characters are taken from those of four bytes, so that a place in the bytes of such a text says
how many entries are before it.  There are no more of them than `symbolCount`: an entry beyond that
is written as the mark for what is no character, which stands for no entry when it is read.
-/

namespace RuleScan.Diff

/-- The code of the first character that stands for an entry. -/
def symbolBase : Nat := 0x10000

/-- How many entries there are characters for. -/
def symbolCount : Nat := 0x100000

/-- The number of bytes of a character that stands for an entry. -/
def symbolWidth : Nat := 4

/-- The character that stands for the entry of a number. -/
def symbolOf (i : Nat) : Char :=
  if i < symbolCount then Char.ofNat (symbolBase + i) else '\uFFFD'

/-- The entry that a character stands for. -/
def entryOf? (entries : List String) (c : Char) : Option String :=
  if symbolBase ≤ c.toNat then entries[c.toNat - symbolBase]? else none

/-- Writes entries as characters.  `met` are the entries that have a number; one that is not among
them gets the next number. -/
def encode (met : List String) : List String → List Char × List String
  | [] => ([], met)
  | entry :: rest =>
    let met := if entry ∈ met then met else met ++ [entry]
    let (text, all) := encode met rest
    (symbolOf (met.idxOf entry) :: text, all)

/-- Where each of the joined entries starts, from a place on, and where the last one ends. -/
def offsetsFrom (place : Nat) : List String → List Nat
  | [] => [place]
  | entry :: rest => place :: offsetsFrom (place + entry.utf8ByteSize) rest

/-- Where each of the joined entries starts, and where the last one ends. -/
def offsets (entries : List String) : List Nat := offsetsFrom 0 entries

/-- Reads an edit of the characters for entries as an edit of the joined entries. -/
def decodeEdit? (entries : List String) (offsets : List Nat) (e : TextEdit) : Option TextEdit := do
  let added ← e.text.toList.mapM (entryOf? entries)
  let start ← offsets[e.start / symbolWidth]?
  let stop ← offsets[e.stop / symbolWidth]?
  return { start, stop, text := String.join added }

/-- The edits that turn the joined old entries into the joined new ones. -/
def Differ.entryEdits? (d : Differ) (old new : List String) : Option (List TextEdit) :=
  let (oldText, met) := encode [] old
  let (newText, entries) := encode met new
  (d.between (String.ofList oldText) (String.ofList newText)).mapM
    (decodeEdit? entries (offsets old))

end RuleScan.Diff
