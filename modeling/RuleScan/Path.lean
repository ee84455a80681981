import RuleScan.Text.Space

/-!
# Slash-separated paths

The usual lexical operations on paths: the last element, everything before it, the extension,
the shortest equivalent path, and the path from one directory to another.  None of them looks at
any file.
-/

namespace RuleScan.Path

/-- The pieces between slashes. -/
def segments (path : String) : List String :=
  (Text.splitWhere (· = '/') path.toList).map String.ofList

/-- Whether a path leads to a directory only: it ends with a slash, or with a dot for the directory
itself. -/
def asksDirectory (path : String) : Bool :=
  (segments path).getLast?.any fun s => s = "" || s = "."

/-- Whether a path starts at the root. -/
def isAbs (path : String) : Bool := path.toList.head? = some '/'

/-- The last element: trailing slashes are ignored, the empty path is `.` and a path of slashes
is `/`. -/
def base (path : String) : String :=
  if path.isEmpty then "."
  else
    let cs := Text.dropEndWhile (· = '/') path.toList
    if cs.isEmpty then "/"
    else String.ofList (cs.reverse.takeWhile (· ≠ '/')).reverse

/-- Folds one segment into the cleaned segments, kept in reverse.  `..` removes the segment before
it; at the root it disappears, and at the front of a relative path it stays. -/
def cleanStep (rooted : Bool) (acc : List String) (segment : String) : List String :=
  if segment = "" || segment = "." then acc
  else if segment = ".." then
    match acc with
    | [] => if rooted then [] else [".."]
    | last :: rest => if last = ".." then ".." :: acc else rest
  else segment :: acc

/-- The segments of the shortest equivalent path. -/
def cleanSegments (path : String) : List String :=
  ((segments path).foldl (cleanStep (isAbs path)) []).reverse

/-- The shortest equivalent path. -/
def clean (path : String) : String :=
  let body := "/".intercalate (cleanSegments path)
  if isAbs path then "/" ++ body
  else if body.isEmpty then "." else body

/-- A path without a `./` in front. -/
def withoutHere (path : String) : String := (Text.stripFront? "./" path).getD path

/-- Everything up to and including the last slash, and what follows it. -/
def split (path : String) : String × String :=
  let file := (path.toList.reverse.takeWhile (· ≠ '/')).reverse
  (String.ofList (path.toList.take (path.length - file.length)), String.ofList file)

/-- All but the last element, cleaned. -/
def dir (path : String) : String := clean (split path).1

/-- The text from the last dot of the last element on. -/
def ext (path : String) : String :=
  let file := (split path).2.toList
  if file.contains '.' then
    String.ofList ('.' :: (file.reverse.takeWhile (· ≠ '.')).reverse)
  else ""

/-- Joins the elements that are not empty and cleans the result. -/
def join (elements : List String) : String :=
  let parts := elements.filter (! ·.isEmpty)
  if parts.isEmpty then "" else clean ("/".intercalate parts)

/-- The length of the longest common front of two lists. -/
def commonLength : List String → List String → Nat
  | a :: as, b :: bs => if a = b then commonLength as bs + 1 else 0
  | _, _ => 0

/-- The path of `target` as seen from the directory `from`, when both are absolute or both are
relative and `from` does not climb out of what is known. -/
def relative? (source target : String) : Option String :=
  if clean source = clean target then some "."
  else if isAbs source != isAbs target then none
  else
    let a := cleanSegments source
    let b := cleanSegments target
    let n := commonLength a b
    let up := a.drop n
    if up.contains ".." then none
    else
      some ("/".intercalate (up.map (fun _ => "..") ++ b.drop n))

/-- The paths of a directory and those above it, given by their names from the innermost on. -/
def directoriesUp : List String → List String
  | [] => ["/"]
  | name :: above => ("/" ++ "/".intercalate (name :: above).reverse) :: directoriesUp above

/-- A full path and those above it. -/
def upward (path : String) : List String := directoriesUp (cleanSegments path).reverse

/-- Makes a path absolute by putting the working directory in front of a relative one. -/
def absolute (workingDir path : String) : String :=
  if isAbs path then clean path else join [workingDir, path]

end RuleScan.Path
