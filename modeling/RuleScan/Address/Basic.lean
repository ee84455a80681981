import RuleScan.Json.Read
import RuleScan.Text.Quoted
import RuleScan.Text.Utf8

/-!
# Addresses

Addresses of machines and of documents.
-/

/-!
## Numeric addresses of machines

An address of the older kind is four decimal numbers with points between them.  One of the newer
kind is eight groups of hexadecimal digits with colons between them; two colons in a row stand for
as many groups of zeros as are missing, and the last two groups may be written as an address of the
older kind.  A refusal quotes the whole text and, where it helps, the part that was not understood.
-/

namespace RuleScan.Address

/-- What is wrong with a text that should be a numeric address. -/
structure Trouble where
  whole : String
  problem : String
  /-- The part that was not understood, where one is told. -/
  part : List Char := []
  deriving Repr, DecidableEq, Inhabited

/-- The text of the refusal. -/
def Trouble.message (t : Trouble) : String :=
  "ParseAddr(" ++ Text.quoted t.whole ++ "): " ++ t.problem ++
    if t.part.isEmpty then "" else " (at " ++ Text.quoted (String.ofList t.part) ++ ")"

/-- Checks four decimal numbers: `place` counts the points passed, `digits` are those of the number
being read, last one first. -/
def fourNumbers (whole : String) (place : Nat) (digits : List Char) :
    List Char → Except Trouble Unit
  | [] =>
    if place < 3 then .error { whole, problem := "IPv4 address too short" } else .ok ()
  | c :: rest =>
    if c.isDigit then
      if digits = ['0'] then
        .error { whole, problem := "IPv4 field has octet with leading zero" }
      else if Json.digitsValue (c :: digits).reverse > 255 then
        .error { whole, problem := "IPv4 field has value >255" }
      else fourNumbers whole place (c :: digits) rest
    else if c = '.' then
      if digits.isEmpty || rest.isEmpty then
        .error { whole, problem := "IPv4 field must have at least one digit", part := c :: rest }
      else if place = 3 then .error { whole, problem := "IPv4 address too long" }
      else fourNumbers whole (place + 1) [] rest
    else .error { whole, problem := "unexpected character", part := c :: rest }

/-- What has been read of an address of groups: how many bytes, and whether there was a gap. -/
structure Groups where
  bytes : Nat
  gap : Bool
  deriving Repr, DecidableEq, Inhabited

/-- Reads groups up to the end; `fuel` bounds their number. -/
def readGroups (whole : String) (fuel : Nat) (g : Groups) (cs : List Char) :
    Except Trouble Groups :=
  let fail (problem : String) (part : List Char) : Except Trouble Groups :=
    .error { whole, problem, part }
  match fuel with
  | 0 => if cs.isEmpty then .ok g else fail "trailing garbage after address" cs
  | fuel + 1 =>
    let digits := cs.takeWhile fun c => (Json.hexValue? c).isSome
    let rest := cs.dropWhile fun c => (Json.hexValue? c).isSome
    if digits.length > 4 then fail "each group must have 4 or fewer digits" cs
    else if digits.isEmpty then
      fail "each colon-separated field must have at least one digit" cs
    else match rest with
      | [] => .ok { g with bytes := g.bytes + 2 }
      | '.' :: _ =>
        if !g.gap && g.bytes ≠ 12 then
          fail "embedded IPv4 address must replace the final 2 fields of the address" cs
        else if g.bytes + 4 > 16 then
          fail "too many hex fields to fit an embedded IPv4 at the end of the address" cs
        else (fourNumbers whole 0 [] cs).map fun _ => { g with bytes := g.bytes + 4 }
      | [':'] => fail "colon must be followed by more characters" rest
      | ':' :: ':' :: more =>
        if g.gap then fail "multiple :: in address" (':' :: more)
        else if more.isEmpty then .ok ⟨g.bytes + 2, true⟩
        else readGroups whole fuel ⟨g.bytes + 2, true⟩ more
      | ':' :: more => readGroups whole fuel { g with bytes := g.bytes + 2 } more
      | rest => fail "unexpected character, want colon" rest

/-- Checks an address of groups without a zone. -/
def groupsOnly (whole : String) (cs : List Char) : Except Trouble Unit :=
  match cs with
  | [':', ':'] => .ok ()
  | cs => do
    let (start, cs) : Groups × List Char := match cs with
      | ':' :: ':' :: rest => (⟨0, true⟩, rest)
      | cs => (⟨0, false⟩, cs)
    let g ← readGroups whole 8 start cs
    if g.bytes < 16 && !g.gap then throw { whole, problem := "address string too short" }
    if g.bytes ≥ 16 && g.gap then
      throw { whole, problem := "the :: must expand to at least one field of zeros" }

/-- The zone behind a percent sign, if there is one, of a text that is an address of either
kind. -/
def numericZone? (whole : String) : Except Trouble (Option String) :=
  let cs := whole.toList
  match cs.find? fun c => c = '.' || c = ':' || c = '%' with
  | some '.' => (fourNumbers whole 0 [] cs).map fun _ => none
  | some ':' =>
    let front := cs.takeWhile (· ≠ '%')
    match cs.dropWhile (· ≠ '%') with
    | ['%'] => .error { whole, problem := "zone must be a non-empty string" }
    | _ :: zone => (groupsOnly whole front).map fun _ => some (String.ofList zone)
    | [] => (groupsOnly whole front).map fun _ => none
  | some _ => .error { whole, problem := "missing IPv6 address" }
  | none => .error { whole, problem := "unable to parse IP" }

end RuleScan.Address

/-!
## Addresses of documents

An address such as `https://a/b/c?d#e` is a scheme, a host with perhaps a user in front, a path, a
query and a fragment, of which any may be missing.  A relative address is resolved against the one
of the document it stands in.  The path is kept as it was written; only when it holds characters
that need an escape is it written anew.
-/

namespace RuleScan.Address

/-- Why a text is no address. -/
inductive Fault where
  | controlCharacter
  | missingScheme
  | colonInFirstSegment
  | missingBracket
  | badPort (port : String)
  | badUser
  | badEscape (text : String)
  | badHostCharacter (text : String)
  | badHost (t : Trouble)
  | notInBrackets
  deriving Repr, DecidableEq, Inhabited

/-- The text of the refusal. -/
def Fault.message : Fault → String
  | .controlCharacter => "net/url: invalid control character in URL"
  | .missingScheme => "missing protocol scheme"
  | .colonInFirstSegment => "first path segment in URL cannot contain colon"
  | .missingBracket => "missing ']' in host"
  | .badPort port => "invalid port " ++ Text.quoted port ++ " after host"
  | .badUser => "net/url: invalid userinfo"
  | .badEscape text => "invalid URL escape " ++ Text.quoted text
  | .badHostCharacter text => "invalid character " ++ Text.quoted text ++ " in host name"
  | .badHost t => "invalid host: " ++ t.message
  | .notInBrackets => "invalid IP-literal"

/-- Letters, digits and the marks that never need an escape. -/
def isUnreserved (c : Char) : Bool := c.isAlphanum || "-_.~".toList.contains c

/-- Characters that a path may hold as they are. -/
def isPathChar (c : Char) : Bool := isUnreserved c || "/$&+,:;=@".toList.contains c

/-- Characters that a written path may hold besides. -/
def isWrittenPathChar (c : Char) : Bool := isPathChar c || "!'()*[]%".toList.contains c

/-- Characters that a host may hold. -/
def isHostChar (c : Char) : Bool := isUnreserved c || "!$&'()*+,;=:[]<>\"".toList.contains c

/-- Characters that may stand before the sign that ends the user. -/
def isUserChar (c : Char) : Bool := c.isAlphanum || "-._:~!$&'()*+,;=%@".toList.contains c

/-- Bytes as text whose characters are the bytes. -/
def byteChars (s : String) : List Char := (Text.bytesOf s).map fun b => Char.ofNat b.toNat

/-- The bytes that a text with escapes stands for; with `inHost` only bytes beyond ASCII and the
percent sign may be escaped, and some characters are refused. -/
def unescape (inHost : Bool) : List Char → Except Fault Text.Bytes
  | '%' :: rest =>
    match rest with
    | a :: b :: rest' =>
      match Json.hexValue? a, Json.hexValue? b with
      | some x, some y =>
        if inHost && x < 8 && (a, b) ≠ ('2', '5') then
          .error (.badEscape (String.ofList ['%', a, b]))
        else (unescape inHost rest').map ((x * 16 + y).toUInt8 :: ·)
      | _, _ => .error (.badEscape (String.ofList ['%', a, b]))
    | short => .error (.badEscape (String.ofList ('%' :: short)))
  | c :: rest =>
    if inHost && c.toNat < 0x80 && !isHostChar c then
      .error (.badHostCharacter (String.singleton c))
    else (unescape inHost rest).map (Text.bytesOf (String.singleton c) ++ ·)
  | [] => .ok []

/-- A text with an escape for every byte whose character is not allowed. -/
def escapeBytes (allowed : Char → Bool) (bs : Text.Bytes) : String :=
  String.join (bs.map fun b =>
    let c := Char.ofNat b.toNat
    if b < 0x80 && allowed c then String.singleton c
    else "%" ++ String.ofList ((Text.hexPadded 2 b.toNat).toList.map Char.toUpper))

/-- The text behind percent escapes. -/
def decoded? (s : String) : Option String :=
  match unescape false s.toList with
  | .ok bs => some (Text.textOf bs)
  | .error _ => none

end RuleScan.Address

namespace RuleScan

/-- An address without its fragment. -/
structure Address where
  scheme : String := ""
  /-- What stands behind the scheme of an address without slashes. -/
  opaquePart : String := ""
  user : Option String := none
  host : String := ""
  /-- Whether a scheme is followed by a path alone. -/
  noHost : Bool := false
  path : String := ""
  query : Option String := none
  deriving Repr, DecidableEq, Inhabited

end RuleScan

namespace RuleScan.Address

/-- The scheme in front of a text and the rest. -/
def cutScheme (cs : List Char) : Except Fault (String × List Char) :=
  let name := cs.takeWhile fun c => c.isAlphanum || "+-.".toList.contains c
  match name, cs.drop name.length with
  | [], ':' :: _ => .error .missingScheme
  | first :: _, ':' :: rest =>
    if first.isAlpha then .ok (String.ofList (name.map Char.toLower), rest) else .ok ("", cs)
  | _, _ => .ok ("", cs)

/-- Whether a text is nothing, or a colon and digits. -/
def isPort : List Char → Bool
  | [] => true
  | ':' :: digits => digits.all Char.isDigit
  | _ => false

/-- Checks the host of an address. -/
def readHost (cs : List Char) : Except Fault String := do
  match cs with
  | '[' :: inner =>
    let back := inner.reverse.dropWhile (· ≠ ']')
    if back.isEmpty then throw .missingBracket
    let name := (back.drop 1).reverse
    let port := inner.drop (name.length + 1)
    if !isPort port then throw (.badPort (String.ofList port))
    let bytes ← unescape true name
    let _ ← unescape true port
    match numericZone? (Text.textOf bytes) with
    | .error t => throw (.badHost t)
    | .ok _ => if !name.contains ':' then throw .notInBrackets
  | cs =>
    let port := cs.dropWhile (· ≠ ':')
    if !isPort port then throw (.badPort (String.ofList port))
    let _ ← unescape true cs
  return String.ofList cs

/-- The user and the host of an address. -/
def readAuthority (cs : List Char) : Except Fault (Option String × String) := do
  let back := cs.reverse
  let host := (back.takeWhile (· ≠ '@')).reverse
  if host.length = cs.length then return (none, ← readHost cs)
  let user := cs.take (cs.length - host.length - 1)
  let host ← readHost host
  if !user.all isUserChar then throw .badUser
  let _ ← unescape false user
  return (some (String.ofList user), host)

/-- The path as it is written in an address. -/
def writtenPath (path : String) : String :=
  if path.toList.all isWrittenPathChar then path
  else match unescape false path.toList with
    | .ok bs => escapeBytes isPathChar bs
    | .error _ => path

/-- Reads an address without a fragment. -/
def read (s : String) : Except Fault Address := do
  if s.toList.any fun c => c.toNat < 0x20 || c.toNat = 0x7f then throw .controlCharacter
  if s = "*" then return { path := "*" }
  let (scheme, rest) ← cutScheme s.toList
  let front := rest.takeWhile (· ≠ '?')
  let query := match rest.drop front.length with
    | _ :: q => some (String.ofList q)
    | [] => none
  let isRooted := front.head? = some '/'
  if !isRooted && scheme ≠ "" then return { scheme, opaquePart := String.ofList front, query }
  if !isRooted && (front.takeWhile (· ≠ '/')).contains ':' then throw .colonInFirstSegment
  let slashes := "//".toList.isPrefixOf front
  if slashes && (scheme ≠ "" || !"///".toList.isPrefixOf front) then
    let authority := (front.drop 2).takeWhile (· ≠ '/')
    let path := (front.drop 2).drop authority.length
    let (user, host) ← readAuthority authority
    let _ ← unescape false path
    return { scheme, user, host, path := writtenPath (String.ofList path), query }
  let _ ← unescape false front
  return { scheme, noHost := scheme ≠ "", path := writtenPath (String.ofList front), query }

/-- The text of an address. -/
def text (a : Address) : String :=
  let scheme := if a.scheme = "" then "" else a.scheme ++ ":"
  let body :=
    if a.opaquePart ≠ "" then a.opaquePart
    else
      let bare := a.noHost && a.host = "" && a.user.isNone
      let slashes := (a.scheme ≠ "" || a.host ≠ "" || a.user.isSome) && !bare &&
        (a.host ≠ "" || a.path ≠ "" || a.user.isSome)
      let user := (a.user.map (· ++ "@")).getD ""
      let gap := a.path ≠ "" && a.path.toList.head? ≠ some '/' && a.host ≠ ""
      (if slashes then "//" else "") ++ user ++ a.host ++ (if gap then "/" else "") ++ a.path
  scheme ++ body ++ (a.query.map ("?" ++ ·)).getD ""

/-- Takes one more part of a path: a point stays where it is, and two go back. -/
def step (parts : List String) (part : String) : List String :=
  if part = "." then parts
  else if part = ".." then parts.dropLast
  else parts ++ [part]

/-- A path seen from another one, without parts that are points. -/
def resolvePath (base reference : String) : String :=
  let full := match reference.toList with
    | [] => base
    | '/' :: _ => reference
    | _ => "/".intercalate ((Text.split "/" base).dropLast ++ [reference])
  if full = "" then ""
  else
    let parts := Text.split "/" full
    let joined := "/".intercalate (parts.foldl step [])
    let last := parts.getLast?.getD ""
    let r := "/" ++ joined ++ if last = "." || last = ".." then "/" else ""
    match r.toList with
    | '/' :: '/' :: rest => String.ofList ('/' :: rest)
    | _ => r

/-- An address seen from another one. -/
def resolve (base reference : Address) : Address :=
  if reference.scheme ≠ "" || reference.host ≠ "" || reference.user.isSome then
    { reference with
      scheme := if reference.scheme = "" then base.scheme else reference.scheme
      path := resolvePath reference.path "" }
  else if reference.path = "" && base.opaquePart ≠ "" then
    { scheme := base.scheme, opaquePart := base.opaquePart
      query := if reference.query.isNone then base.query else reference.query }
  else
    { base with
      opaquePart := base.opaquePart
      path := resolvePath base.path reference.path
      query := if reference.path = "" && reference.query.isNone then base.query
        else reference.query }

/-- A text up to its first `#`, and what follows it. -/
def cutFragment (s : String) : String × String :=
  let front := s.toList.takeWhile (· ≠ '#')
  (String.ofList front, String.ofList (s.toList.drop (front.length + 1)))

/-- The address and the fragment of a reference, seen from an address. -/
def join? (base reference : String) : Option (String × String) := do
  let (front, fragment) := cutFragment reference
  let fragment ← decoded? fragment
  match read base, read front with
  | .ok b, .ok r => some ((b.resolve r).text, fragment)
  | _, _ => none

end RuleScan.Address
