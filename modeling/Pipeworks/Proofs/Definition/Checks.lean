/-
What is asked of a definition once it is written: of the name, of the image, of each job, and of all of them together.
-/
import Pipeworks.Definition.Reader
import Pipeworks.Proofs.Program.Outcome

namespace Pipeworks.Definition

theorem isBlankText_eq_false {s : String} : Text.isBlankText s = false ↔ ∃ ch ∈ s.toList, Text.isBlank ch = false := by
  simp [Text.isBlankText]

/-- An image that can be named: one word that is no option. -/
structure IsReference (image : String) : Prop where
  nonempty : image ≠ ""
  unbroken : ∀ ch ∈ image.toList, Text.isBlank ch = false
  noOption : image.toList.head? ≠ some '-'

theorem isImage_cons {image : String} {ch : Char} {chars : List Char} (h : image.toList = ch :: chars) :
    isImage image = true ↔ ch ≠ '-' ∧ ∀ other ∈ ch :: chars, Text.isBlank other = false := by
  unfold isImage
  rw [h]
  split
  case h_1 heq =>
    obtain ⟨rfl, -⟩ := List.cons.inj heq
    simp
  case h_2 hoption =>
    have hch : ch ≠ '-' := fun heq => hoption chars (by rw [heq])
    rw [Bool.not_eq_true', List.any_eq_false]
    simp only [Bool.not_eq_true]
    exact ⟨fun hall => ⟨hch, hall⟩, And.right⟩

theorem isReference_iff {image : String} :
    IsReference image ↔ Text.isBlankText image = false ∧ isImage image = true := by
  cases hchars : image.toList with
  | nil =>
    have hempty : image = "" := String.toList_injective hchars
    constructor
    · intro href
      exact absurd hempty href.nonempty
    · rintro ⟨hblank, -⟩
      simp [Text.isBlankText, hchars] at hblank
  | cons ch chars =>
    rw [isImage_cons hchars]
    constructor
    · rintro ⟨-, hunbroken, hoption⟩
      rw [hchars] at hunbroken hoption
      have hch : Text.isBlank ch = false := hunbroken ch List.mem_cons_self
      exact ⟨by simp [Text.isBlankText, hchars, hch], fun heq => hoption (by rw [heq]; rfl), hunbroken⟩
    · rintro ⟨-, hch, hunbroken⟩
      refine ⟨fun hempty => ?_, by rwa [hchars], fun heq => hch ?_⟩
      · rw [hempty] at hchars
        cases hchars
      · rw [hchars] at heq
        exact Option.some.inj heq

/-- What is written makes a definition exactly if every part of it may be as it is, and a command is left to run. -/
theorem check_iff {w : Written} {d : Definition} : w.check = .ok d ↔
    (w.name = d.name ∧ Text.isBlankText d.name = false) ∧ (w.image = d.image ∧ IsReference d.image) ∧
      (w.jobs.mapM fun (key, steps) => readJob key steps) = .ok d.jobs ∧ d.commands ≠ [] := by
  obtain ⟨name, image, entries⟩ := w
  obtain ⟨name', image', jobs⟩ := d
  rw [isReference_iff]
  constructor
  · intro hcheck
    unfold Written.check at hcheck
    split at hcheck
    case isTrue => cases hcheck
    case isFalse hname =>
      split at hcheck
      case isTrue => cases hcheck
      case isFalse himage =>
        split at hcheck
        case isTrue => cases hcheck
        case isFalse href =>
          obtain ⟨found, hfound, hcheck⟩ := bind_eq_ok_iff.1 hcheck
          dsimp only at hcheck
          split at hcheck
          case isTrue => cases hcheck
          case isFalse hcommands =>
            cases hcheck
            exact ⟨⟨rfl, Bool.eq_false_iff.2 hname⟩, ⟨rfl, Bool.eq_false_iff.2 himage, by simpa using href⟩, hfound,
              by simpa using hcommands⟩
  · rintro ⟨⟨rfl, hname⟩, ⟨rfl, himage, href⟩, hjobs, hcommands⟩
    unfold Written.check
    dsimp only at hname himage href hjobs ⊢
    rw [if_neg (by simp [hname]), if_neg (by simp [himage]), if_neg (by simp [href]), hjobs]
    exact if_neg (by simpa using hcommands)

/-- A text holds a definition exactly if it is written there and passes. -/
theorem ofText_eq_ok {source : String} {d : Definition} :
    ofText source = .ok d ↔ ∃ w, Written.ofText source = .ok w ∧ w.check = .ok d := by
  unfold ofText
  cases Written.ofText source <;> simp

theorem commands_ne_nil_of_ofText {source : String} {d : Definition} (h : ofText source = .ok d) : d.commands ≠ [] := by
  obtain ⟨w, -, hcheck⟩ := ofText_eq_ok.1 h
  exact (check_iff.1 hcheck).2.2.2

end Pipeworks.Definition
