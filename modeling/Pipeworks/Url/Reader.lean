/-
Reading addresses as browsers do: blanks around them and line breaks inside do not count, and much
that is not quite right is put right.
-/
import Pipeworks.Url.Basic

namespace Pipeworks.Url

/-! ## Characters -/

/-- A control or a space, which does not count at the ends. -/
def isEdge (c : Char) : Bool := c.toNat ≤ 0x20

/-- A tab or line break, which does not count at all. -/
def isDropped (c : Char) : Bool := c == '\t' || c == '\n' || c == '\r'

/-- The characters of an address that count. -/
def countedChars (s : String) : List Char :=
  let trimmed := ((s.toList.dropWhile isEdge).reverse.dropWhile isEdge).reverse
  trimmed.filter fun c => !isDropped c

/-- A slash; in the common schemes a backslash is one too. -/
def isSlash (common : Bool) (c : Char) : Bool := c == '/' || (common && c == '\\')

/-- Whether the path ends here. -/
def endsPath (c : Char) : Bool := c == '?' || c == '#'

/-! ## Scheme -/

def isSchemeChar (c : Char) : Bool := c.isAlphanum || c == '+' || c == '-' || c == '.'

/-- The scheme and what follows its colon. -/
def scheme? (cs : List Char) : Option (String × List Char) :=
  match cs with
  | [] => none
  | c :: _ =>
    if !c.isAlpha then none else
    match cs.dropWhile isSchemeChar with
    | ':' :: rest => some (String.ofList ((cs.takeWhile isSchemeChar).map Char.toLower), rest)
    | _ => none

/-! ## Path -/

/-- A segment that stands for the place it is in. -/
def isDot (cs : List Char) : Bool :=
  [".", "%2e"].contains (String.ofList (cs.map Char.toLower))

/-- A segment that stands for the place above. -/
def isDoubleDot (cs : List Char) : Bool :=
  ["..", "%2e.", ".%2e", "%2e%2e"].contains (String.ofList (cs.map Char.toLower))

/-- A letter and a colon, which names a drive in a file address. -/
def isDrive : List Char → Bool
  | [c, ':'] => c.isAlpha
  | _ => false

/-- The segments without the last one; a drive stays. -/
def shorten (file : Bool) (segments : List String) : List String :=
  match segments with
  | [s] => if file && isDrive s.toList then segments else []
  | _ => segments.dropLast

/-- A first segment that names a drive, written with a colon. -/
def driveSegment (file : Bool) (before : List String) (segment : List Char) : List Char :=
  match segment with
  | [c, '|'] => if file && before.isEmpty && c.isAlpha then [c, ':'] else segment
  | _ => segment

/-- Adds the parts of a path, which are encoded already, to the segments before them. -/
def takeSegments (file : Bool) (before : List String) : List (List Char) → List String
  | [] => before
  | [last] =>
    if isDoubleDot last then shorten file before ++ [""]
    else if isDot last then before ++ [""]
    else before ++ [String.ofList (driveSegment file before last)]
  | part :: parts =>
    if isDoubleDot part then takeSegments file (shorten file before) parts
    else if isDot part then takeSegments file before parts
    else takeSegments file (before ++ [String.ofList (driveSegment file before part)]) parts

/-- The segments of a path that follows an authority. -/
def pathSegments (common : Bool) (cs : List Char) : List String :=
  match cs with
  | [] => if common then [""] else []
  | c :: rest =>
    let inside := if isSlash common c then rest else cs
    takeSegments false [] ((splitWhere (isSlash common) inside).map (encode inPath))

/-- A drive and a path behind it with a slash between them. -/
def afterDrive (parts : List (List Char)) : List (List Char) :=
  match parts with
  | (c :: ':' :: d :: rest) :: more =>
    if c.isAlpha then [c, ':'] :: (d :: rest) :: more else parts
  | _ => parts

/-- The segments of a file address; empty ones at the front are dropped. -/
def fileSegments (cs : List Char) : List String :=
  let parts := (splitWhere (isSlash true) cs).dropWhile (·.isEmpty)
  match takeSegments true [] ((afterDrive parts).map (encode inPath)) with
  | [] => [""]
  | segments =>
    match segments.dropWhile (·.isEmpty) with
    | [] => [""]
    | segments => segments

/-! ## Query and fragment -/

/-- The query and the fragment, from the place where the path ends. -/
def queryAndFragment (common : Bool) (cs : List Char) : Option String × Option String :=
  let set := if common then inCommonQuery else inQuery
  let fragment : List Char → Option String
    | '#' :: rest => some (encoded inFragment rest)
    | _ => none
  match cs with
  | '?' :: rest =>
    (some (encoded set (rest.takeWhile (· != '#'))), fragment (rest.dropWhile (· != '#')))
  | cs => (none, fragment cs)

/-- An address from its first parts and the text of the others. -/
def withPath (scheme : String) (authority : Option Authority) (path : List Char → Path)
    (cs : List Char) : Url :=
  let (query, fragment) := queryAndFragment (isCommon scheme) (cs.dropWhile fun c => !endsPath c)
  ⟨scheme, authority, path (cs.takeWhile fun c => !endsPath c), query, fragment⟩

/-! ## Authority -/

/-- User and password, from the text before the last at sign. -/
def userInfo (cs : List Char) : String × String :=
  (encoded inUser (cs.takeWhile (· != ':')),
    encoded inUser ((cs.dropWhile (· != ':')).drop 1))

/-- The text of a host up to its port, where brackets hold colons together. -/
def splitHost (common : Bool) (bracket : Bool) : List Char → List Char × List Char
  | [] => ([], [])
  | c :: cs =>
    if (c == ':' && !bracket) || isSlash common c || endsPath c then ([], c :: cs)
    else
      let bracket := if c == '[' then true else if c == ']' then false else bracket
      let (host, rest) := splitHost common bracket cs
      (c :: host, rest)

/-- The port behind its colon; the usual one is left out. -/
def readPort (scheme : String) (cs : List Char) : Except Fault (Option Nat) :=
  if !cs.all Char.isDigit || 65535 < natInBase 10 cs then .error .badPort
  else
    let n := natInBase 10 cs
    .ok (if cs.isEmpty || defaultPort? scheme == some n then none else some n)

/-- The authority behind the double slash, and the path behind it. -/
def readAuthority (scheme : String) (cs : List Char) : Except Fault (Authority × List Char) := do
  let common := isCommon scheme
  let ends (c : Char) : Bool := isSlash common c || endsPath c
  let whole := cs.takeWhile fun c => !ends c
  let rest := cs.dropWhile fun c => !ends c
  let hasAt := whole.contains '@'
  let behind := if hasAt then (whole.reverse.takeWhile (· != '@')).reverse else whole
  let before := if hasAt then whole.take (whole.length - behind.length - 1) else []
  if hasAt && before.isEmpty && behind.isEmpty && !rest.isEmpty then .error .emptyHost else
  let (user, password) := userInfo before
  let (hostText, portText) := splitHost common false behind
  let rest := portText.dropWhile (· != '\\') ++ rest
  let portText := portText.takeWhile (· != '\\')
  if common && hostText.isEmpty then .error .emptyHost else
  let host ← if common then Host.ofCommon hostText else Host.ofOther hostText
  if host.isEmpty && !portText.isEmpty then .error .emptyHost else
  let port ← readPort scheme (portText.drop 1)
  let named := !user.isEmpty || !password.isEmpty
  if host.isEmpty && named then .error .emptyHost else
  .ok (⟨user, password, host, port⟩, rest)

/-! ## Addresses -/

/-- A file address, behind its scheme. -/
def readFile (cs : List Char) : Except Fault Url := do
  let slash (c : Char) : Bool := isSlash true c
  let ends (c : Char) : Bool := slash c || endsPath c
  let path (cs : List Char) : Path := .segments (fileSegments cs)
  let onThisHost (cs : List Char) : Url := withPath "file" (some ⟨"", "", .name "", none⟩) path cs
  match cs with
  | a :: b :: rest =>
    if slash a && slash b then
      let hostText := rest.takeWhile fun c => !ends c
      let drive := match hostText with
        | [c, d] => c.isAlpha && (d == ':' || d == '|')
        | _ => false
      if drive || hostText.isEmpty then .ok (onThisHost rest) else
      let host ← Host.ofCommon hostText
      let behind := rest.dropWhile fun c => !ends c
      let u := onThisHost behind
      let startsWithDrive := match u.path with
        | .segments (s :: _) => isDrive s.toList
        | _ => false
      if host = .name "localhost" || startsWithDrive then .ok u
      else .ok { u with authority := some ⟨"", "", host, none⟩ }
    else .ok (onThisHost cs)
  | _ => .ok (onThisHost cs)

/-- The address of a text. -/
def ofText (s : String) : Except Fault Url :=
  match scheme? (countedChars s) with
  | none => .error .relative
  | some (scheme, rest) =>
    if scheme = "file" then readFile rest
    else if isCommon scheme then do
      let (authority, rest) ← readAuthority scheme (rest.dropWhile (isSlash true))
      .ok (withPath scheme (some authority) (fun cs => .segments (pathSegments true cs)) rest)
    else match rest with
      | '/' :: '/' :: rest => do
        let (authority, rest) ← readAuthority scheme rest
        .ok (withPath scheme (some authority) (fun cs => .segments (pathSegments false cs)) rest)
      | '/' :: _ =>
        .ok (withPath scheme none (fun cs => .segments (pathSegments false cs)) rest)
      | _ => .ok (withPath scheme none (fun cs => .plain (encoded controls cs)) rest)

end Pipeworks.Url
