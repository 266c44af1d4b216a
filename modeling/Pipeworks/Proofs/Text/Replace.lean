/-
Texts in which every occurrence of another is replaced. The scan cuts the text where it finds an occurrence and goes on
behind it (`Cut`), so that the text is its pieces with what was found between them, and the result the same pieces with
what is new between them (`exists_cut`). What is found occurs in no piece; where it shares no character with what is
new, it occurs nowhere in the result (`not_infix_replaceEach`).
-/
import Mathlib.Data.List.Infix
import Pipeworks.Text.Blank
import Pipeworks.Text.Start

namespace Pipeworks.Text

/-- The one text occurs in the other. -/
def Occurs (found text : String) : Prop := found.toList <:+: text.toList

instance (found text : String) : Decidable (Occurs found text) := List.decidableInfix _ _

variable {found new front rest cs : List Char} {pieces : List (List Char)} {c : Char}

theorem after?_append (start rest : List Char) : after? start (start ++ rest) = some rest := by
  induction start with
  | nil => rfl
  | cons p ps ih => rw [List.cons_append, after?, if_pos rfl, ih]

theorem not_prefix_of_after? (h : after? found cs = none) : ¬ found <+: cs := by
  rintro ⟨rest, rfl⟩
  rw [after?_append] at h
  cases h

/-! ## Pieces -/

/-- How a text falls into pieces where another occurs in it: each piece but the last ends at the first occurrence, the
rest is cut behind that, and in the last piece there is none. -/
inductive Cut (found : List Char) : List Char → List (List Char) → Prop
  | whole {cs : List Char} : ¬ found <:+: cs → Cut found cs [cs]
  | split {front rest : List Char} {pieces : List (List Char)} : ¬ found <:+: front ++ found.dropLast →
      Cut found rest pieces → Cut found (front ++ found ++ rest) (front :: pieces)

namespace Cut

theorem ne_nil (h : Cut found cs pieces) : pieces ≠ [] := by
  cases h <;> exact List.cons_ne_nil _ _

theorem intercalate_cons (h : Cut found rest pieces) (between front : List Char) :
    between.intercalate (front :: pieces) = front ++ between ++ between.intercalate pieces := by
  obtain ⟨piece, pieces, rfl⟩ := List.exists_cons_of_ne_nil h.ne_nil
  exact List.intercalate_cons_cons

/-- The text is its pieces with the occurrences between them. -/
theorem joined (h : Cut found cs pieces) : cs = found.intercalate pieces := by
  induction h with
  | whole _ => exact List.intercalate_singleton.symm
  | split _ hrest ih => rw [hrest.intercalate_cons, ← ih]

/-- In no piece there is an occurrence. -/
theorem free (h : Cut found cs pieces) : ∀ piece ∈ pieces, ¬ found <:+: piece := by
  induction h with
  | whole hnone => exact fun piece hpiece => List.mem_singleton.1 hpiece ▸ hnone
  | split hfirst _ ih =>
    refine List.forall_mem_cons.2 ⟨fun hfront => hfirst ?_, ih⟩
    exact hfront.trans (List.prefix_append _ _).isInfix

theorem eq_of_not_infix (h : Cut found cs pieces) (hnone : ¬ found <:+: cs) : pieces = [cs] := by
  cases h with
  | whole _ => rfl
  | @split front rest _ _ _ => exact absurd (List.infix_append front found rest) hnone

/-- A character in front of which there is no occurrence belongs to the first piece. -/
theorem cons (h : Cut found cs pieces) (hnone : ¬ found <+: c :: cs) :
    ∃ piece others, pieces = piece :: others ∧ Cut found (c :: cs) ((c :: piece) :: others) := by
  cases h with
  | whole hcs =>
    refine ⟨cs, [], rfl, .whole fun hinfix => ?_⟩
    exact (List.infix_cons_iff.1 hinfix).elim hnone hcs
  | @split front rest others hfirst hrest =>
    have hlater : ¬ found <:+: (c :: front) ++ found.dropLast := by
      intro hinfix
      rcases List.infix_cons_iff.1 hinfix with hstarts | hinfix
      · have hlonger : front ++ found.dropLast <+: front ++ (found ++ rest) :=
          (List.prefix_append_right_inj front).2 ((List.dropLast_prefix found).trans (List.prefix_append _ _))
        rw [← List.append_assoc] at hlonger
        exact hnone (hstarts.trans (List.cons_prefix_cons.2 ⟨rfl, hlonger⟩))
      · exact hfirst hinfix
    exact ⟨front, others, rfl, .split hlater hrest⟩

end Cut

/-- The scan keeps the pieces of a text and puts what is new between them. -/
theorem exists_cut (hfound : found ≠ []) (new cs : List Char) :
    ∃ pieces, Cut found cs pieces ∧ replaceEach found new cs = new.intercalate pieces := by
  have hpos := List.length_pos_of_ne_nil hfound
  have hempty : ¬ found <:+: [] := fun h => hfound (List.infix_nil.1 h)
  fun_induction replaceEach found new cs with
  | case1 => exact ⟨[[]], .whole hempty, rfl⟩
  | case2 c cs hnil => exact absurd hnil hfound
  | case3 c cs _ rest hafter ih =>
    obtain ⟨pieces, hcut, hresult⟩ := ih
    have hshort : ¬ found <:+: [] ++ found.dropLast := fun h => by
      have hlength := h.length_le
      rw [List.nil_append, List.length_dropLast] at hlength
      omega
    refine ⟨[] :: pieces, ?_, ?_⟩
    · rw [append_of_after? hafter]
      exact .split hshort hcut
    · rw [hcut.intercalate_cons, hresult, List.nil_append]
  | case4 c cs _ hafter ih =>
    obtain ⟨pieces, hcut, hresult⟩ := ih
    obtain ⟨piece, others, rfl, hcons⟩ := hcut.cons (not_prefix_of_after? hafter)
    refine ⟨_, hcons, ?_⟩
    rw [hresult]
    cases others <;> simp [List.intercalate_cons_cons]

/-- A text is left as it is if there is nothing to replace in it. -/
theorem replaceEach_absent (hfound : found ≠ []) (hnone : ¬ found <:+: cs) : replaceEach found new cs = cs := by
  obtain ⟨pieces, hcut, hresult⟩ := exists_cut hfound new cs
  rw [hresult, hcut.eq_of_not_infix hnone, List.intercalate_singleton]

/-! ## Seams -/

/-- What does not hold a character lies on one side of it. -/
theorem infix_beside (hc : c ∉ found) (h : found <:+: front ++ c :: rest) : found <:+: front ∨ found <:+: rest := by
  rcases List.infix_append_iff.1 h with h | h | ⟨left, right, rfl, hleft, hright⟩
  · exact .inl h
  · rcases List.infix_cons_iff.1 h with h | h
    · cases found with
      | nil => exact .inl List.nil_infix
      | cons d ds => exact absurd ((List.cons_prefix_cons.1 h).1 ▸ List.mem_cons_self) hc
    · exact .inr h
  · cases right with
    | nil =>
      rw [List.append_nil]
      exact .inl hleft.isInfix
    | cons d ds =>
      have hd := (List.cons_prefix_cons.1 hright).1
      exact absurd (List.mem_append_right left (hd ▸ List.mem_cons_self)) hc

/-- What shares no character with a text lies behind it. -/
theorem infix_behind (hapart : ∀ c ∈ new, c ∉ found) (h : found <:+: new ++ rest) : found <:+: rest := by
  induction new with
  | nil => exact h
  | cons c new ih =>
    refine ih (fun d hd => hapart d (List.mem_cons_of_mem c hd)) ?_
    have hbeside : found <:+: [] ∨ found <:+: new ++ rest := infix_beside (hapart c List.mem_cons_self) h
    rcases hbeside with hnil | hbehind
    · rw [List.infix_nil.1 hnil]
      exact List.nil_infix
    · exact hbehind

/-- What shares no character with a text in between lies on one side of that. -/
theorem infix_around (hnew : new ≠ []) (hapart : ∀ c ∈ new, c ∉ found) (h : found <:+: front ++ new ++ rest) :
    found <:+: front ∨ found <:+: rest := by
  obtain ⟨c, new, rfl⟩ := List.exists_cons_of_ne_nil hnew
  rw [List.append_assoc, List.cons_append] at h
  refine (infix_beside (hapart c List.mem_cons_self) h).imp_right ?_
  exact infix_behind fun d hd => hapart d (List.mem_cons_of_mem c hd)

theorem Cut.not_infix_intercalate (h : Cut found cs pieces) (hnew : new ≠ []) (hapart : ∀ c ∈ new, c ∉ found) :
    ¬ found <:+: new.intercalate pieces := by
  induction h with
  | whole hnone => rwa [List.intercalate_singleton]
  | split hfirst hrest ih =>
    rw [hrest.intercalate_cons]
    intro hinfix
    rcases infix_around hnew hapart hinfix with hfront | hbehind
    · exact hfirst (hfront.trans (List.prefix_append _ _).isInfix)
    · exact ih hbehind

/-- Nothing is left of what is replaced, nor does it arise anew where a piece meets what is put beside it. -/
theorem not_infix_replaceEach (hfound : found ≠ []) (hnew : new ≠ []) (hapart : ∀ c ∈ new, c ∉ found)
    (cs : List Char) : ¬ found <:+: replaceEach found new cs := by
  obtain ⟨pieces, hcut, hresult⟩ := exists_cut hfound new cs
  rw [hresult]
  exact hcut.not_infix_intercalate hnew hapart

/-! ## Blanks -/

theorem trim_within (cs : List Char) : trim cs <:+: cs := by
  unfold trim trimEnd trimStart
  have hstart : cs.dropWhile isBlank <:+ cs := List.dropWhile_suffix _
  have hend : ((cs.dropWhile isBlank).reverse.dropWhile isBlank).reverse <+: cs.dropWhile isBlank := by
    rw [← List.reverse_suffix, List.reverse_reverse]
    exact List.dropWhile_suffix _
  exact hend.isInfix.trans hstart.isInfix

/-- What occurs in a text without the blanks at its ends occurs in the text. -/
theorem Occurs.of_trimmed {found text : String} (h : Occurs found (trimmed text)) : Occurs found text := by
  unfold Occurs trimmed at h
  rw [String.toList_ofList] at h
  exact h.trans (trim_within _)

end Pipeworks.Text
