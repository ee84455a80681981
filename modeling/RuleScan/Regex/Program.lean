import RuleScan.Regex.Basic
import RuleScan.Text.Utf8

/-!
# Searching with a regular expression

An expression becomes a program of small instructions.  A search runs all ways to match at once,
one code point at a time, and remembers for each where it began; of two ways that stand at the
same instruction only the one that began first is kept.  The time is therefore bounded by the
length of the text times the size of the program.
-/

namespace RuleScan.Regex

open RuleScan.Text

/-- A class with the answers for the ASCII block at hand. -/
structure Tester where
  ascii : Array Bool
  cls : CharClass
  deriving Repr, Inhabited

/-- Prepares a class. -/
def Tester.of (cls : CharClass) : Tester :=
  ⟨((List.range 128).map cls.contains).toArray, cls⟩

/-- Membership in a prepared class. -/
def Tester.contains (t : Tester) (code : Nat) : Bool :=
  if code < 128 then t.ascii.getD code false else t.cls.contains code

/-- The instructions of a program; each names the instructions that may follow it. -/
inductive Inst where
  | consume (tester : Tester) (next : Nat)
  | check (anchor : Anchor) (next : Nat)
  | split (first second : Nat)
  | accept
  deriving Repr, Inhabited

/-- Instructions, and the one a run begins with. -/
structure Program where
  insts : Array Inst
  start : Nat
  deriving Repr, Inhabited

/-- Applies `emit` once for each of `n` copies of an expression that follow one another. -/
def copies (emit : Nat → Array Inst → Array Inst × Nat) :
    Nat → Nat → Array Inst → Array Inst × Nat
  | 0, next, code => (code, next)
  | n + 1, next, code =>
    let (code, entry) := emit next code
    copies emit n entry code

/-- Applies `emit` for up to `n` copies, any number of which may be left out at the end. -/
def optionalCopies (emit : Nat → Array Inst → Array Inst × Nat) (done : Nat) :
    Nat → Nat → Array Inst → Array Inst × Nat
  | 0, entry, code => (code, entry)
  | n + 1, entry, code =>
    let (code, body) := emit entry code
    optionalCopies emit done n code.size (code.push (.split body done))

/-- Appends the instructions of an expression that continues at `next`, and gives the place
where it begins. -/
def emit : Regex → Nat → Array Inst → Array Inst × Nat
  | .empty, next, code => (code, next)
  | .one cls, next, code => (code.push (.consume (Tester.of cls) next), code.size)
  | .at anchor, next, code => (code.push (.check anchor next), code.size)
  | .seq a b, next, code =>
    let (code, middle) := emit b next code
    emit a middle code
  | .alt a b, next, code =>
    let (code, first) := emit a next code
    let (code, second) := emit b next code
    (code.push (.split first second), code.size)
  | .group r, next, code => emit r next code
  | .repeated lo hi r, next, code =>
    match hi with
    | some hi =>
      let (code, entry) := optionalCopies (emit r) next (hi - lo) next code
      copies (emit r) lo entry code
    | none =>
      let loop := code.size
      let (code, body) := emit r loop (code.push .accept)
      copies (emit r) lo loop (code.setIfInBounds loop (.split body next))

/-- The program of an expression. -/
def compile (r : Regex) : Program :=
  let (insts, start) := emit r 0 #[.accept]
  ⟨insts, start⟩

/-- A way to match that is under way: where it stands, and the byte offset where it began. -/
structure Thread where
  place : Nat
  start : Nat
  deriving Repr, Inhabited

/-- The state of one sweep over the threads at a position.  `seen` marks the instructions
already reached at this position. -/
structure Sweep where
  seen : Array Nat
  threads : List Thread := []
  /-- Where the earliest match that has ended here began. -/
  found : Option Nat := none
  deriving Inhabited

/-- Follows the instructions that consume nothing from the places in `stack`, marking what it
reaches with `mark`.  Every step marks an instruction or takes a marked one off the stack. -/
def follow (code : Array Inst) (before after : Option Nat) (mark start : Nat) :
    Nat → List Nat → Sweep → Sweep
  | 0, _, sweep => sweep
  | _ + 1, [], sweep => sweep
  | fuel + 1, place :: stack, sweep =>
    if sweep.seen.getD place mark = mark then follow code before after mark start fuel stack sweep
    else
      let sweep := { sweep with seen := sweep.seen.setIfInBounds place mark }
      match code.getD place .accept with
      | .consume _ _ =>
        follow code before after mark start fuel stack
          { sweep with threads := ⟨place, start⟩ :: sweep.threads }
      | .check anchor next =>
        follow code before after mark start fuel
          (if anchor.holds before after then next :: stack else stack) sweep
      | .split first second =>
        follow code before after mark start fuel (first :: second :: stack) sweep
      | .accept =>
        follow code before after mark start fuel stack
          { sweep with found := sweep.found <|> some start }

/-- Follows every thread in turn, the earliest first, until one of them has matched. -/
def followAll (code : Array Inst) (before after : Option Nat) (mark : Nat) :
    List Thread → Sweep → Sweep
  | [], sweep => sweep
  | t :: rest, sweep =>
    if sweep.found.isSome then sweep
    else
      followAll code before after mark rest
        (follow code before after mark t.start (3 * code.size + 3) [t.place] sweep)

/-- The threads that can consume a code point, moved past it. -/
def advance (code : Array Inst) (c : Nat) (threads : List Thread) : List Thread :=
  threads.filterMap fun t =>
    match code.getD t.place .accept with
    | .consume tester next => if tester.contains c then some ⟨next, t.start⟩ else none
    | _ => none

/-- One position of a search: the threads still worth following, the best start known, and the
marks for the next position.  A thread that began no earlier than a known match is dropped. -/
def position (p : Program) (before after : Option Nat) (mark offset : Nat)
    (threads : List Thread) (best : Option Nat) (seen : Array Nat) :
    List Thread × Option Nat × Array Nat :=
  let fresh : List Thread := if best.isNone then [⟨p.start, offset⟩] else []
  let sweep : Sweep := followAll p.insts before after mark (threads ++ fresh) { seen }
  let best : Option Nat := sweep.found <|> best
  let alive : List Thread := match best with
    | some s => sweep.threads.filter fun t => t.start < s
    | none => sweep.threads
  (alive.reverse, best, sweep.seen)

/-- Runs a search over what is left of the text. -/
def run (p : Program) : List Rune → Option Nat → Nat → Nat → List Thread → Option Nat →
    Array Nat → Option Nat
  | [], before, mark, offset, threads, best, seen =>
    (position p before none mark offset threads best seen).2.1
  | r :: rest, before, mark, offset, threads, best, seen =>
    let (threads, best, seen) := position p before (some r.code) mark offset threads best seen
    if threads.isEmpty && best.isSome then best
    else
      run p rest (some r.code) (mark + 1) (offset + r.width) (advance p.insts r.code threads)
        best seen

/-- The byte offset where the leftmost match begins. -/
def search? (p : Program) (text : List Rune) : Option Nat :=
  run p text none 1 0 [] none (Array.replicate p.insts.size 0)

/-- Whether the program matches somewhere in the text. -/
def isMatch (p : Program) (text : List Rune) : Bool := (search? p text).isSome

end RuleScan.Regex
