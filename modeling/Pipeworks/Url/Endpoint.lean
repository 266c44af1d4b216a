/-
Addresses below a base: segments are added to its path, each encoded so that it stays one segment.
-/
import Pipeworks.Url.Reader

namespace Pipeworks.Url

/-- Why a base and segments make no address. -/
inductive BaseFault where
  /-- The base is no address. -/
  | unreadable (base : String) (f : Fault)
  /-- The base has no path that segments could be added to. -/
  | noPath (base : String)
  deriving DecidableEq

def BaseFault.message : BaseFault → String
  | .unreadable base f => "invalid URL: " ++ base ++ ": " ++ f.message
  | .noPath base => "invalid URL: " ++ base

/-- An address that segments can be added to. -/
def ofBase (base : String) : Except BaseFault Url :=
  match ofText base with
  | .error f => .error (.unreadable base f)
  | .ok u => if u.isHierarchical then .ok u else .error (.noPath base)

/-- The segments without an empty one at the end, unless it is the only one. -/
def withoutEmptyEnd (segments : List String) : List String :=
  if 2 ≤ segments.length ∧ segments.getLast? = some "" then segments.dropLast else segments

/-- The characters of a segment that count. -/
def segmentChars (segment : String) : List Char := segment.toList.filter fun c => !isDropped c

/-- Adds one segment. Those that mean a place and not a name are passed over; the path of a bare host
has an empty segment only, which the first one replaces. -/
def addSegment (scheme : String) (segments : List String) (segment : String) : List String :=
  if segment = "." ∨ segment = ".." then segments
  else
    let set := if isCommon scheme then inCommonSegment else inSegment
    let before := if segments = [""] then [] else segments
    takeSegments (scheme == "file") before [encode set (segmentChars segment)]

/-- The address below `base`. -/
def endpoint (base : Url) (segments : List String) : Except BaseFault Url :=
  match base.path with
  | .plain _ => .error (.noPath base.text)
  | .segments list =>
    .ok { base with
      path := .segments (segments.foldl (addSegment base.scheme) (withoutEmptyEnd list)) }

end Pipeworks.Url
