/-
The start of a text, and texts in which every occurrence of another is replaced.
-/
namespace Pipeworks.Text

/-- What follows a given start. -/
def after? : List Char → List Char → Option (List Char)
  | [], cs => some cs
  | p :: ps, c :: cs => if p = c then after? ps cs else none
  | _ :: _, [] => none

theorem append_of_after? : ∀ {start cs rest : List Char},
    after? start cs = some rest → cs = start ++ rest
  | [], _, _, h => by cases h; rfl
  | p :: ps, c :: cs, rest, h => by
    rw [after?] at h
    split at h
    case isTrue e => subst e; rw [append_of_after? h]; rfl
    case isFalse => cases h
  | _ :: _, [], _, h => by cases h

theorem length_of_after? {start cs rest : List Char} (h : after? start cs = some rest) :
    rest.length + start.length = cs.length := by
  rw [append_of_after? h, List.length_append, Nat.add_comm]

/-- Whether a text starts with another. -/
def startsWith (start s : String) : Bool := (after? start.toList s.toList).isSome

/-- Replaces the occurrences of a text that is not empty, from left to right; they do not overlap. -/
def replaceEach (found new : List Char) : List Char → List Char
  | [] => []
  | c :: cs =>
    if found = [] then c :: cs
    else
      match _h : after? found (c :: cs) with
      | some rest => new ++ replaceEach found new rest
      | none => c :: replaceEach found new cs
termination_by cs => cs.length
decreasing_by
  · have := length_of_after? ‹_›
    have : found.length ≠ 0 := by simpa using ‹¬found = []›
    simp only [List.length_cons] at *
    omega
  · simp

end Pipeworks.Text
