import LayeredCache.Text.Utf8

/-!
# Parts of a URL

A URL names its scheme, then, after two slashes, an authority with optional credentials, a host and
an optional port, then a path and a query. Only schemes without rules of their own are read here:
their hosts are plain names or addresses in brackets.

## Main definitions

* `Url` — the parts.
* `Url.read?` — the parts of a text, if it is a URL.
* `Url.segments` — the path without its dot segments.
* `Url.parameter?` — what a query says of a name.
-/

set_option autoImplicit false

namespace LayeredCache

/-- The parts of a URL. -/
structure Url where
  /-- In lower case. -/
  scheme : String
  /-- The parts before the host: user and, after a colon, password; still encoded. -/
  credentials : Option (List Char) := none
  /-- There is no host without an authority, and none where the authority is empty. -/
  host : Option (List Char) := none
  port : Option Nat := none
  /-- Still encoded. -/
  path : List Char := []
  /-- Still encoded. -/
  query : List Char := []
  deriving DecidableEq, Repr

namespace Url

/-! ## Characters -/

/-- Whether a character is dropped at both ends of a URL. -/
def isMargin (c : Char) : Bool := c ≤ ' '

/-- Whether a character is dropped anywhere in a URL. -/
def isIgnored (c : Char) : Bool := c == '\t' || c == '\n' || c == '\r'

/-- Whether a character may follow the first letter of a scheme. -/
def isSchemeChar (c : Char) : Bool := c.isAlphanum || c == '+' || c == '-' || c == '.'

/-- The characters that no host may have. -/
def hostForbidden : List Char :=
  ['\x00', '\t', '\n', '\r', ' ', '#', '/', ':', '<', '>', '?', '@', '[', '\\', ']', '^', '|']

/-- The value of a hexadecimal digit. -/
def hexDigit? (c : Char) : Option Nat :=
  if '0' ≤ c ∧ c ≤ '9' then some (c.toNat - 48)
  else if 'a' ≤ c ∧ c ≤ 'f' then some (c.toNat - 87)
  else if 'A' ≤ c ∧ c ≤ 'F' then some (c.toNat - 55)
  else none

/-- The characters before the first one of a kind, and those after it if there is one. -/
def splitAt (mark : Char) (cs : List Char) : List Char × Option (List Char) :=
  match cs.span (· != mark) with
  | (before, _ :: after) => (before, some after)
  | (before, []) => (before, none)

/-- The pieces between the characters of a kind. -/
def pieces (mark : Char) (cs : List Char) : List (List Char) :=
  let (piece, more) := cs.foldr (fun c (piece, more) =>
    if c == mark then ([], piece :: more) else (c :: piece, more)) ([], [])
  piece :: more

/-- The bytes that characters stand for: a percent sign and two hexadecimal digits are one byte,
and any other character is itself. -/
def decode : List Char → Bytes
  | '%' :: a :: b :: cs =>
    match hexDigit? a, hexDigit? b with
    | some x, some y => UInt8.ofNat (16 * x + y) :: decode cs
    | _, _ => 0x25 :: decode (a :: b :: cs)
  | c :: cs => (String.singleton c).toUTF8.data.toList ++ decode cs
  | [] => []

/-! ## Hosts -/

/-- Whether characters are a part of an address in dotted notation: a number up to 255 without
leading zeros. -/
def isOctet (cs : List Char) : Bool :=
  !cs.isEmpty && cs.length ≤ 3 && cs.all Char.isDigit && (cs.length == 1 || cs.head? != some '0') &&
    cs.foldl (fun n c => 10 * n + (c.toNat - 48)) 0 ≤ 255

/-- The number of 16-bit groups that a piece between colons stands for: one, or two when it is in
dotted notation. -/
def groupsOf (cs : List Char) : Option Nat :=
  if !cs.isEmpty && cs.length ≤ 4 && cs.all fun c => (hexDigit? c).isSome then some 1
  else if (pieces '.' cs).length == 4 && (pieces '.' cs).all isOctet then some 2
  else none

/-- The number of groups that pieces stand for; only the last of all pieces may be dotted. -/
def groups (mayEndDotted : Bool) : List (List Char) → Option Nat
  | [] => some 0
  | [p] => (groupsOf p).filter fun n => n == 1 || mayEndDotted
  | p :: ps => do
    let n ← (groupsOf p).filter (· == 1)
    let m ← groups mayEndDotted ps
    pure (n + m)

/-- The pieces before and after the first empty piece that two colons in a row leave. -/
def halves (cs : List Char) : List Char × Option (List Char) :=
  match cs with
  | ':' :: ':' :: rest => ([], some rest)
  | c :: rest =>
    let (before, after) := halves rest
    (c :: before, after)
  | [] => ([], none)

/-- The pieces between colons, of which there are none when there are no characters. -/
def colonPieces (cs : List Char) : List (List Char) := if cs.isEmpty then [] else pieces ':' cs

/-- Whether characters are an address of eight groups, of which two colons may replace one or
more. -/
def isGroupAddress (cs : List Char) : Bool :=
  match halves cs with
  | (all, none) => groups true (colonPieces all) == some 8
  | (before, some after) =>
    match groups false (colonPieces before), groups true (colonPieces after) with
    | some n, some m => n + m ≤ 7
    | _, _ => false

/-- Whether characters may be a host: an address in brackets, or a name without forbidden
characters. -/
def isHost (cs : List Char) : Bool :=
  match cs with
  | '[' :: rest => rest.getLast? == some ']' && isGroupAddress rest.dropLast
  | _ => !cs.any hostForbidden.contains

/-- The characters before the first colon that stands in no brackets, and those after it. -/
def splitPort (inBrackets : Bool) : List Char → List Char × Option (List Char)
  | [] => ([], none)
  | c :: cs =>
    if c == ':' && !inBrackets then ([], some cs)
    else
      let inBrackets := if c == '[' then true else if c == ']' then false else inBrackets
      let (host, port) := splitPort inBrackets cs
      (c :: host, port)

/-- The number of a port; no digits stand for the usual port. -/
def port? (cs : List Char) : Option (Option Nat) :=
  if cs.isEmpty then some none
  else if cs.all Char.isDigit then
    let n := cs.foldl (fun n c => min (10 * n + (c.toNat - 48)) 65536) 0
    if n < 65536 then some (some n) else none
  else none

/-- The characters before the last one of a kind, if there is one, and those after it. -/
def splitLast (mark : Char) (cs : List Char) : Option (List Char) × List Char :=
  let (after, before) := cs.reverse.span (· != mark)
  (before.tail?.map List.reverse, after.reverse)

/-- Adds what an authority says to a URL. A host may only be missing where nothing else is said:
there is no port, and neither a user nor a password. -/
def withAuthority (url : Url) (cs : List Char) : Option Url :=
  let (credentials, rest) := splitLast '@' cs
  let (host, port) := splitPort false rest
  if host.isEmpty then
    if port.isNone && (credentials.isNone || credentials == some [':']) then some url else none
  else if isHost host then
    (port? (port.getD [])).map fun port =>
      { url with credentials := credentials, host := some host, port := port }
  else none

/-! ## Reading -/

/-- The parts of a text, if it is a URL. What follows a number sign is no part. -/
def read? (s : String) : Option Url :=
  let trimmed := ((s.toList.dropWhile isMargin).reverse.dropWhile isMargin).reverse
  match splitAt ':' (trimmed.filter fun c => !isIgnored c) with
  | (c :: cs, some rest) =>
    if c.isAlpha && cs.all isSchemeChar then
      let scheme := (String.ofList (c :: cs)).toLower
      let (rest, query) := splitAt '?' (splitAt '#' rest).1
      let url : Url := { scheme := scheme, query := query.getD [] }
      match rest with
      | '/' :: '/' :: rest =>
        let (authority, path) := rest.span (· != '/')
        { url with path := path }.withAuthority authority
      | _ => some { url with path := rest }
    else none
  | _ => none

/-! ## Paths and queries -/

/-- A segment with encoded dots decoded, in order to compare it with dots. -/
def plainDots : List Char → List Char
  | '%' :: '2' :: 'e' :: cs => '.' :: plainDots cs
  | '%' :: '2' :: 'E' :: cs => '.' :: plainDots cs
  | c :: cs => c :: plainDots cs
  | [] => []

/-- Adds a segment to those before it: one dot adds nothing, and two dots take the last one away. -/
def addSegment (done : List (List Char)) (segment : List Char) : List (List Char) :=
  if plainDots segment == ['.'] then done
  else if plainDots segment == ['.', '.'] then done.dropLast
  else done ++ [segment]

/-- The segments of the path without its dot segments, and without empty ones at its ends. -/
def segments (url : Url) : List (List Char) :=
  let all := (pieces '/' (url.path.drop 1)).foldl addSegment []
  ((all.dropWhile List.isEmpty).reverse.dropWhile List.isEmpty).reverse

/-- What characters of a query stand for: a plus sign is a blank, and bytes that are no text are
replaced. -/
def formDecode (cs : List Char) : String :=
  Utf8.mend (decode (cs.map fun c => if c == '+' then ' ' else c))

/-- What a query says of a name; what it says last counts. -/
def parameter? (url : Url) (name : String) : Option String :=
  ((pieces '&' url.query).filterMap fun pair =>
    let (key, value) := splitAt '=' pair
    if !pair.isEmpty && formDecode key == name then some (formDecode (value.getD []))
    else none).getLast?

end Url

end LayeredCache
