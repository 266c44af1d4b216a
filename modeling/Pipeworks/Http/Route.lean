/-
Paths of requests, the patterns that they match, and what is captured.
-/
import Pipeworks.Text.Digits
import Pipeworks.Url.Percent

namespace Pipeworks.Http

/-- The pieces of a text between separators. -/
def splitAt (sep : Char) : List Char → List (List Char)
  | [] => [[]]
  | c :: cs =>
    if c = sep then [] :: splitAt sep cs
    else
      match splitAt sep cs with
      | [] => [[c]]
      | piece :: pieces => (c :: piece) :: pieces

/-- The segments of the path of a target; a query or fragment is no part of it. -/
def pathSegments (target : String) : List String :=
  let path := target.toList.takeWhile fun c => c != '?' && c != '#'
  (splitAt '/' path).map String.ofList

/-- A segment of a pattern. -/
inductive Piece where
  | fixed (text : String)
  /-- Any segment, but at the end of a path no empty one. -/
  | capture

/-- Matches segments with a pattern; answers what was captured, still encoded. -/
def matchPath : List Piece → List String → Option (List String)
  | [], [] => some []
  | .fixed text :: pieces, s :: ss => if s = text then matchPath pieces ss else none
  | [.capture], [s] => if s = "" then none else some [s]
  | .capture :: pieces, s :: ss => (matchPath pieces ss).map (s :: ·)
  | _, _ => none

/-- The text that a captured segment stands for, if it is text. -/
def decodeSegment? (s : String) : Option String := Text.ofBytes? (Url.decode s)

/-! ## Numbers in paths -/

/-- The number that a text stands for, if it has 64 bits. -/
def int64? (s : String) : Option Int64 :=
  let value : Option Int := match s.toList with
    | '-' :: cs => (Text.digitsValue? cs).map fun n => -(n : Int)
    | '+' :: cs => (Text.digitsValue? cs).map fun n => (n : Int)
    | cs => (Text.digitsValue? cs).map fun n => (n : Int)
  (value.filter fun n => Int64.minValue.toInt ≤ n ∧ n ≤ Int64.maxValue.toInt).map Int64.ofInt

end Pipeworks.Http
