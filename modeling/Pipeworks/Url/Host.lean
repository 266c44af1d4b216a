/-
Hosts: names, IPv4 addresses in all their spellings, and IPv6 addresses. Names with other characters
than ASCII are written in Punycode, after their letters have been put into lower case.
-/
import Pipeworks.Url.Percent
import Pipeworks.Url.Punycode

namespace Pipeworks.Url

/-- Why a text is no address. -/
inductive Fault where
  | relative
  | emptyHost
  | badPort
  | badName
  | badCharacter
  | badIpv4
  | badIpv6
  deriving DecidableEq

def Fault.message : Fault → String
  | .relative => "relative URL without a base"
  | .emptyHost => "empty host"
  | .badPort => "invalid port number"
  | .badName => "invalid international domain name"
  | .badCharacter => "invalid domain character"
  | .badIpv4 => "invalid IPv4 address"
  | .badIpv6 => "invalid IPv6 address"

inductive Host where
  | name (s : String)
  | ipv4 (n : Nat)
  | ipv6 (pieces : List Nat)
  deriving DecidableEq

/-! ## Parts between separators -/

/-- The parts between the characters that satisfy `p`; one part if there is none. -/
def splitWhere (p : Char → Bool) : List Char → List (List Char)
  | [] => [[]]
  | c :: cs =>
    match splitWhere p cs with
    | [] => [[]]
    | part :: parts => if p c then [] :: part :: parts else (c :: part) :: parts

def natInBase (base : Nat) (cs : List Char) : Nat :=
  cs.foldl (fun n c => n * base + (Hex.digit? c).getD 0) 0

/-! ## IPv4 -/

/-- A number of an IPv4 address: decimal, octal behind a zero, hexadecimal behind `0x`. -/
def ipv4Number? (cs : List Char) : Option Nat :=
  let digitsOf (base : Nat) (ds : List Char) : Option Nat :=
    if ds.all fun c => (Hex.digit? c).any (· < base) then some (natInBase base ds) else none
  match cs with
  | [] => none
  | '0' :: 'x' :: ds => digitsOf 16 ds
  | '0' :: 'X' :: ds => digitsOf 16 ds
  | '0' :: d :: ds => digitsOf 8 (d :: ds)
  | ds => digitsOf 10 ds

/-- The parts of a name without an empty last one. -/
def nameParts (cs : List Char) : List (List Char) :=
  let parts := splitWhere (· == '.') cs
  if parts.getLast? == some [] then parts.dropLast else parts

/-- Whether the last part of a name is a number, which makes the name an IPv4 address. -/
def endsInNumber (cs : List Char) : Bool :=
  match (nameParts cs).getLast? with
  | none => false
  | some last => (!last.isEmpty && last.all Char.isDigit) || (ipv4Number? last).isSome

/-- An IPv4 address of one to four numbers, of which the last one fills up the rest. -/
def ipv4? (cs : List Char) : Option Nat :=
  let parts := nameParts cs
  if 4 < parts.length then none else
  match parts.mapM ipv4Number? with
  | none => none
  | some ns =>
    match ns.getLast? with
    | none => none
    | some last =>
      let front := ns.dropLast
      if front.any (255 < ·) || Nat.pow 256 (4 - front.length) ≤ last then none
      else
        let high := front.foldl (fun n b => n * 256 + b) 0
        some (high * Nat.pow 256 (4 - front.length) + last)

/-! ## IPv6 -/

/-- A piece of an IPv6 address: one to four digits. -/
def piece? (cs : List Char) : Option Nat :=
  if 1 ≤ cs.length ∧ cs.length ≤ 4 ∧ cs.all fun c => (Hex.digit? c).isSome then
    some (natInBase 16 cs)
  else none

/-- The four decimal numbers at the end of an address, as two pieces. -/
def dottedPieces? (cs : List Char) : Option (List Nat) :=
  let number (ds : List Char) : Option Nat :=
    let plain := ds.all Char.isDigit && !ds.isEmpty && (ds.length == 1 || ds.head? != some '0')
    if plain && natInBase 10 ds ≤ 255 then some (natInBase 10 ds) else none
  match (splitWhere (· == '.') cs).mapM number with
  | some [a, b, c, d] => some [a * 256 + b, c * 256 + d]
  | _ => none

/-- The pieces between colons; a dotted address may stand at the end. -/
def pieces? : List (List Char) → Option (List Nat)
  | [] => some []
  | [last] => if last.contains '.' then dottedPieces? last else (piece? last).map ([·])
  | part :: parts =>
    match piece? part, pieces? parts with
    | some n, some ns => some (n :: ns)
    | _, _ => none

/-- The pieces of one side of a double colon. -/
def side? (cs : List Char) : Option (List Nat) :=
  if cs.isEmpty then some [] else pieces? (splitWhere (· == ':') cs)

/-- The texts before and behind the first double colon. -/
def splitDoubleColon : List Char → Option (List Char × List Char)
  | ':' :: ':' :: rest => some ([], rest)
  | c :: cs => (splitDoubleColon cs).map fun (a, b) => (c :: a, b)
  | [] => none

/-- An IPv6 address of eight pieces; a double colon stands for at least one zero. -/
def ipv6? (cs : List Char) : Option (List Nat) :=
  match splitDoubleColon cs with
  | none => (side? cs).filter (·.length == 8)
  | some (before, behind) =>
    match side? before, side? behind with
    | some a, some b =>
      if before.contains '.' || 8 ≤ a.length + b.length then none
      else some (a ++ List.replicate (8 - a.length - b.length) 0 ++ b)
    | _, _ => none

/-- The length of the run of zeros at the front. -/
def zeroRun (ns : List Nat) : Nat := (ns.takeWhile (· == 0)).length

/-- The place and length of the longest run of zeros, the first one of several. -/
def longestRun (ns : List Nat) : Nat × Nat :=
  (List.range ns.length).foldl (fun best i =>
    let n := zeroRun (ns.drop i)
    if best.2 < n then (i, n) else best) (0, 0)

def hexText (ns : List Nat) : String :=
  ":".intercalate (ns.map fun n => String.ofList (Hex.ofNat n))

def ipv6Text (ns : List Nat) : String :=
  let (i, n) := longestRun ns
  if n < 2 then hexText ns else hexText (ns.take i) ++ "::" ++ hexText (ns.drop (i + n))

/-! ## Names -/

/-- A character that no name may hold. -/
def isForbidden (c : Char) : Bool :=
  c.toNat ≤ 0x20 || c.toNat == 0x7F || "%#/:<>?@[\\]^|".toList.contains c

/-- A letter in lower case, and the plain form of a wide one. Only the letters of Latin, Greek and Cyrillic are
covered; those of other scripts, and letters that are decomposed or change into several, stay as they are. -/
def foldChar (c : Char) : Char :=
  let n := c.toNat
  let up (d : Nat) : Char := Char.ofNat (n + d)
  if 65 ≤ n ∧ n ≤ 90 then up 32
  else if 0xC0 ≤ n ∧ n ≤ 0xDE ∧ n ≠ 0xD7 then up 32
  else if 0x100 ≤ n ∧ n ≤ 0x137 ∧ n % 2 = 0 then up 1
  else if 0x139 ≤ n ∧ n ≤ 0x148 ∧ n % 2 = 1 then up 1
  else if 0x14A ≤ n ∧ n ≤ 0x177 ∧ n % 2 = 0 then up 1
  else if 0x391 ≤ n ∧ n ≤ 0x3A9 then up 32
  else if 0x410 ≤ n ∧ n ≤ 0x42F then up 32
  else if 0x400 ≤ n ∧ n ≤ 0x40F then up 80
  else if n = 0x3002 ∨ n = 0xFF0E ∨ n = 0xFF61 then '.'
  else if 0xFF21 ≤ n ∧ n ≤ 0xFF3A then Char.ofNat (n - 0xFF21 + 97)
  else if 0xFF01 ≤ n ∧ n ≤ 0xFF5E then Char.ofNat (n - 0xFEE0)
  else c

/-- A character that leaves no trace in a name. -/
def isIgnored (c : Char) : Bool := c == '\u00AD' || c == '\u200B' || c == '\u2060' || c == '\uFEFF'

/-- A character that no name has in any spelling: a control, or what could not be read. -/
def isUnreadable (c : Char) : Bool := (0x80 ≤ c.toNat && c.toNat < 0xA0) || c == '\uFFFD'

/-- One part of a name in ASCII. A part that is in Punycode already has to be what it would be
written as. -/
def labelAscii? (cs : List Char) : Option (List Char) :=
  if cs.all (·.toNat < 128) then
    match cs with
    | 'x' :: 'n' :: '-' :: '-' :: rest =>
      match Punycode.decode? rest with
      | some decoded =>
        let final := decoded.all fun c => !isUnreadable c && foldChar c == c
        if final && decoded.any (128 ≤ ·.toNat) && Punycode.encode decoded == rest then some cs
        else none
      | none => none
    | _ => some cs
  else some ("xn--".toList ++ Punycode.encode cs)

/-- A name in ASCII, as far as `foldChar` knows its letters. -/
def nameAscii? (cs : List Char) : Option (List Char) :=
  let folded := (cs.filter fun c => !isIgnored c).map foldChar
  if folded.any isUnreadable then none else
  match (splitWhere (· == '.') folded).mapM labelAscii? with
  | none => none
  | some labels =>
    let ascii := ['.'].intercalate labels
    if ascii.any isForbidden then none else some ascii

/-! ## Hosts -/

namespace Host

/-- A host between brackets. -/
def bracketed (cs : List Char) : Except Fault Host :=
  if cs.getLast? == some ']' then
    match ipv6? (cs.drop 1).dropLast with
    | some ns => .ok (.ipv6 ns)
    | none => .error .badIpv6
  else .error .badIpv6

/-- The host of an address with one of the common schemes. -/
def ofCommon (cs : List Char) : Except Fault Host :=
  if cs.head? == some '[' then bracketed cs else
  match (Utf8.decode? (decodeBytes (Utf8.encode cs))).bind nameAscii? with
  | none => .error .badName
  | some [] => .error .emptyHost
  | some ascii =>
    if endsInNumber ascii then
      match ipv4? ascii with
      | some n => .ok (.ipv4 n)
      | none => .error .badIpv4
    else .ok (.name (String.ofList ascii))

/-- A character that the host of no address may hold. -/
def isImpossible (c : Char) : Bool :=
  c == '\x00' || "\t\n\r #/:<>?@[\\]^|".toList.contains c

/-- The host of an address with another scheme. -/
def ofOther (cs : List Char) : Except Fault Host :=
  if cs.head? == some '[' then bracketed cs
  else if cs.any isImpossible then .error .badCharacter
  else .ok (.name (encoded controls cs))

def text : Host → String
  | .name s => s
  | .ipv4 n => ".".intercalate
      ([n / Nat.pow 256 3 % 256, n / Nat.pow 256 2 % 256, n / 256 % 256, n % 256].map toString)
  | .ipv6 ns => "[" ++ ipv6Text ns ++ "]"

def isEmpty : Host → Bool
  | .name s => s.isEmpty
  | _ => false

end Host

end Pipeworks.Url
