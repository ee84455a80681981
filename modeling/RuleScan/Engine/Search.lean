import RuleScan.Decimal.Read
import RuleScan.Disk.Basic
import RuleScan.Engine.Finding
import RuleScan.Engine.Run

/-!
# Searching files

The files that can be searched are read, and patterns are looked for in what was read.
-/

/-!
## Reading the files to search

Files are searched only if they are regular, not too large and not binary.  A reader keeps what it
has read, so that all searches of one evaluation see the same content even if the files change.
-/

namespace RuleScan

open RuleScan.Text (Bytes)

/-- The size above which files are passed over, unless another one is given: 1 MiB. -/
def defaultMaxSize : Int := 1048576

/-- How many bytes are looked at to tell whether a file is binary. -/
def binaryPrefixLength : Nat := 8000

/-- Whether content is binary: a zero byte stands near its start. -/
def isBinary (content : Bytes) : Bool := (content.take binaryPrefixLength).contains 0

/-- How many bytes are asked for when a file is read: one more than the limit.  There is no word
for one more than the greatest word, and then nothing is asked for. -/
def readLength (maxSize : Int) : Nat :=
  if Word.fits (maxSize + 1) then (maxSize + 1).toNat else 0

/-- The content of a file that may be searched. -/
def readable? (maxSize : Int) : Disk.Node → Option Bytes
  | .file content =>
    let got := content.take (readLength maxSize)
    if (content.length : Int) > maxSize || isBinary got then none else some got
  | _ => none

/-- Reads the files under a directory and remembers them. -/
structure FileReader where
  root : String
  maxSize : Int
  seen : List (String × Option Bytes) := []
  deriving Inhabited

namespace FileReader

/-- The limit that a number stands for: without a positive one the default counts. -/
def limit (maxSize : Int) : Int := if maxSize ≤ 0 then defaultMaxSize else maxSize

/-- A reader that has read nothing yet. -/
def make (root : String) (maxSize : Int) : FileReader := { root, maxSize := limit maxSize }

/-- Reads a file from the disk. -/
def load (r : FileReader) (d : Disk) (file : String) : Option Bytes :=
  match d.stat (Path.join [r.root, file]) with
  | .ok n => readable? r.maxSize n
  | .error _ => none

/-- Reads a file, from memory if it has been read before. -/
def read (r : FileReader) (d : Disk) (file : String) : Option Bytes × FileReader :=
  match r.seen.find? (·.1 = file) with
  | some (_, content) => (content, r)
  | none =>
    let content := r.load d file
    (content, { r with seen := (file, content) :: r.seen })

end FileReader

end RuleScan

/-!
## Searching

A search looks for one pattern in some files and gives the lines that match.  It is done here line
by line, or by an external program that prints its matches as records `path NUL line:column:text`.
-/

namespace RuleScan

open RuleScan.Text (Bytes)

/-- What is searched for, and where. -/
structure SearchRequest where
  matcher : Matcher
  paths : List String
  /-- The content of a file that may be searched. -/
  read : String → Option Bytes
  workingDirectory : String := "/"
  deriving Inhabited

/-- A way to search. -/
abbrev Searcher := Signal → SearchRequest → RunM (List Match)

/-- The lines of a content without their ends; an end at the end of the content starts no line. -/
def contentLines (content : Bytes) : List Bytes :=
  let pieces := Text.splitBytes 10 content
  match pieces.reverse with
  | [] :: front => front.reverse
  | _ => pieces

/-- A line without a carriage return at its end. -/
def dropReturn (line : Bytes) : Bytes :=
  if line.getLast? = some 13 then line.dropLast else line

/-- The matches in a content. -/
def searchContent (file : String) (m : Matcher) (content : Bytes) : List Match :=
  ((contentLines content).map dropReturn).zipIdx.filterMap fun (line, i) =>
    (m.find? line).map fun column => ⟨file, line, (i : Int) + 1, column⟩

namespace Searcher

/-- Searches one file after the other; the signal is looked at before each. -/
def nativeFrom (signal : Signal) (q : SearchRequest) : List String → RunM (List Match)
  | [] => return []
  | file :: rest => do
    RunM.check signal
    let here := match q.read file with
      | some content => searchContent file q.matcher content
      | none => []
    return here ++ (← nativeFrom signal q rest)

/-- Searches the contents of the files here. -/
def native : Searcher := fun signal q => nativeFrom signal q q.paths

/-! ### External programs -/

/-- How many files are given to one call of a program. -/
def batchSize : Nat := 512

/-- The pieces of a list, each with at most `n + 1` elements. -/
def batches (n : Nat) : List String → List (List String)
  | [] => []
  | first :: rest => (first :: rest.take n) :: batches n (rest.drop n)
termination_by list => list.length

/-- The bytes before and after the first occurrence of a byte. -/
def cutAt? (b : UInt8) : Bytes → Option (Bytes × Bytes)
  | [] => none
  | x :: rest =>
    if x = b then some ([], rest) else (cutAt? b rest).map fun (before, after) => (x :: before, after)

/-- A whole number in decimal with an optional sign, within 64 bits. -/
def number? (bs : Bytes) : Option Int :=
  let digits := match bs with
    | 43 :: rest => rest
    | 45 :: rest => rest
    | rest => rest
  if digits.isEmpty || digits.any (fun b => b < 48 || b > 57) then none
  else
    let n : Int := digits.foldl (fun n b => n * 10 + (b.toNat - 48)) 0
    let n := if bs.head? = some 45 then -n else n
    if n < -9223372036854775808 || n > 9223372036854775807 then none else some n

/-- The match that a record tells of. -/
def recordMatch? (record : Bytes) : Option Match := do
  let (file, rest) ← cutAt? 0 (dropReturn record)
  let (line, rest) ← cutAt? 58 rest
  let (column, text) ← cutAt? 58 rest
  let line ← number? line
  let column ← number? column
  return ⟨Text.textOf file, text, line, column⟩

/-- The matches that the output of a program tells of. -/
def outputMatches (output : Bytes) : List Match :=
  (Text.splitBytes 10 output).filterMap recordMatch?

/-- The arguments that tell a program what to search for. -/
def searchArguments (p : Pattern) (paths : List String) : List String :=
  ["--null", "--line-number", "--column", "--no-heading", "--with-filename", "--color", "never",
    "--no-messages"] ++
    (if p.kind = .literal then ["--fixed-strings"] else []) ++
    (if p.ignoresCase then ["--ignore-case"] else []) ++
    ["--regexp", p.value, "--"] ++ paths

/-- A search that could not be done. -/
def unavailable (f : Failure) : Failure := f.under .searchUnavailable "search unavailable"

/-- Searches one batch of files with a program.  The code 1 means that nothing was found; with any
other code what was printed still counts. -/
def searchBatch (signal : Signal) (c : Command) (q : SearchRequest) (paths : List String) :
    RunM (List Match) := do
  let outcome ← RunM.exec signal q.workingDirectory
    (c.append (searchArguments q.matcher.pattern paths))
  match outcome with
  | .ok response => return outputMatches response.stdout
  | .error e =>
    RunM.check signal
    match e with
    | .notStarted f => throw (unavailable f)
    | .exited response f =>
      if response.exit = 1 then return []
      else if response.stdout.isEmpty then
        let said := Text.textOf (Text.trimBytes response.stderr)
        throw (unavailable { f with message := f.message ++ ": " ++ said })
      else return outputMatches response.stdout

/-- Searches batch after batch. -/
def searchBatches (signal : Signal) (c : Command) (q : SearchRequest) :
    List (List String) → RunM (List Match)
  | [] => return []
  | b :: rest => do
    let here ← searchBatch signal c q b
    return here ++ (← searchBatches signal c q rest)

/-- Searches with an external program; only files that may be searched are given to it. -/
def external (c : Command) : Searcher := fun signal q =>
  searchBatches signal c q (batches (batchSize - 1) (q.paths.filter fun p => (q.read p).isSome))

/-- The search program that is used when none is named. -/
def defaultProgram : String := "rg"

/-- The search with the program of a command line. -/
def ofLine (environment : List String) (line : String) : Except Failure Command :=
  (Command.parse environment (if line = "" then defaultProgram else line)).mapError fun e =>
    e.failure.during "search command"

end Searcher

end RuleScan
