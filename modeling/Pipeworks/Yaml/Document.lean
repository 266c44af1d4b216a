/-
The first document of a YAML text, its anchors, and whether the text is well-formed to its end and
holds no other document.
-/
import Pipeworks.Yaml.Node

namespace Pipeworks.Yaml

/-! ## Characters -/

/-- A character that may stand in a YAML text. -/
def isReadable (c : Char) : Bool :=
  let n := c.toNat
  n == 9 || n == 10 || n == 13 || (0x20 ≤ n && n ≤ 0x7E) || n == 0x85 ||
    (0xA0 ≤ n && n ≤ 0xFFFD) || 0x10000 ≤ n

/-- Texts are taken in pieces of so many bytes; nothing of a piece that holds another character is
read. -/
def pieceSize : Nat := 16384

/-- The characters that are read, and whether the text is cut off behind them. `piece` holds the
characters of the current piece, last first, and `before` those of the earlier ones. -/
def readable (before piece : List Char) (size : Nat) : List Char → List Char × Bool
  | [] => ((piece ++ before).reverse, false)
  | c :: cs =>
    let width := (Utf8.encodeChar c).length
    let full := pieceSize < size + width
    let before := if full then piece ++ before else before
    if !isReadable c then (before.reverse, true)
    else if full then readable before [c] width cs
    else readable before (c :: piece) (size + width) cs

def readableText (s : String) : List Char × Bool :=
  match s.toList with
  | '\uFEFF' :: cs => readable [] [] 3 cs
  | cs => readable [] [] 0 cs

/-! ## Documents -/

structure Document where
  /-- The content; none if there is no document at all. -/
  root : Option Node
  /-- Whether nothing but the end follows. -/
  complete : Bool

/-- What the handles of tags stand for unless a directive says otherwise. -/
def commonHandles : List (List Char × Bytes) :=
  [(['!'], Utf8.encode ['!']), (['!', '!'], Utf8.encode "tag:yaml.org,2002:".toList)]

/-- Reads the directives of a document; none if one of them is repeated or not known. -/
def readDirectives (versioned : Bool) (handles : List (List Char × Bytes)) :
    List Token → Option (List (List Char × Bytes) × List Token)
  | .directive (.version major minor) :: ts =>
    if versioned || major != 1 || !(minor == 1 || minor == 2) then none
    else readDirectives true handles ts
  | .directive (.handle h start) :: ts =>
    if (handles.lookup h).isSome then none
    else readDirectives versioned ((h, start) :: handles) ts
  | ts => some (handles, ts)

/-- Whether a token leaves the document before it empty. -/
def endsDocument : Token → Bool
  | .directive _ => true
  | .documentStart => true
  | .documentEnd => true
  | .streamEnd => true
  | _ => false

def passDocumentEnds : List Token → List Token
  | .documentEnd :: ts => passDocumentEnds ts
  | ts => ts

/-- The content of a document. -/
def readContent (handles : List (List Char × Bytes)) (ts : List Token) : Reading :=
  readNode (3 * ts.length + 3) true false ⟨ts, handles ++ commonHandles, []⟩

/-- A document that follows its mark. -/
def readMarked (ts : List Token) : Reading :=
  match readDirectives false [] ts with
  | some (handles, .documentStart :: ts) =>
    match ts with
    | [] => stopped
    | t :: _ =>
      if endsDocument t then (.empty, some ⟨ts, handles, []⟩) else readContent handles ts
  | _ => stopped

def Document.ofTokens (ts : List Token) : Document :=
  let finish (r : Reading) : Document :=
    match r with
    | (n, none) => ⟨some n, false⟩
    | (n, some rest) => ⟨some n, passDocumentEnds rest.tokens == [.streamEnd]⟩
  match ts with
  | [] => ⟨some .broken, false⟩
  | .streamEnd :: _ => ⟨none, true⟩
  | .directive _ :: _ => finish (readMarked ts)
  | .documentStart :: _ => finish (readMarked ts)
  | _ => finish (readContent [] ts)

def Document.ofText (s : String) : Document :=
  let (text, cut) := readableText s
  if cut && text.isEmpty then ⟨some .broken, false⟩ else .ofTokens (tokensOf cut text)

/-- The number of nodes and ends of collections. -/
def Document.size (d : Document) : Nat := d.root.elim 1 Node.size

/-- The node that an alias stands for: the last one with its number. -/
def Document.anchored? (d : Document) : List (Nat × Node) := (d.root.elim [] Node.anchors).reverse

end Pipeworks.Yaml
