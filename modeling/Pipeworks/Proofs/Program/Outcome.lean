/-
Steps that may fail, one after the other: all of them are good, or the first fault is that of the whole. What is made of
the items of a list so relates to them item by item.
-/
import Mathlib.Data.List.Forall2

namespace Pipeworks

variable {ε α β : Type} {x : Except ε α} {f : α → Except ε β} {b : β}

theorem bind_eq_ok_iff : x >>= f = .ok b ↔ ∃ a, x = .ok a ∧ f a = .ok b := by
  cases x with
  | error e => exact ⟨nofun, fun ⟨_, h, _⟩ => nomatch h⟩
  | ok a =>
    refine ⟨fun h => ⟨a, rfl, h⟩, ?_⟩
    rintro ⟨a', ha, h⟩
    cases ha
    exact h

theorem mapM_eq_ok_iff {f : α → Except ε β} {as : List α} {bs : List β} :
    as.mapM f = .ok bs ↔ List.Forall₂ (fun a b => f a = .ok b) as bs := by
  induction as generalizing bs with
  | nil => cases bs <;> simp [pure, Except.pure]
  | cons a as ih =>
    simp only [List.mapM_cons, bind_eq_ok_iff, pure, Except.pure, Except.ok.injEq]
    constructor
    · rintro ⟨b, hb, bs, hbs, rfl⟩
      exact .cons hb (ih.1 hbs)
    · rintro (_ | ⟨hb, hbs⟩)
      exact ⟨_, hb, _, ih.2 hbs, rfl⟩

/-! ## Item by item -/

/-- What relates through something in between, item by item. -/
theorem forall₂_through {α β γ : Type} {R : α → β → Prop} {S : β → γ → Prop} {as : List α} {cs : List γ} :
    (∃ bs, List.Forall₂ R as bs ∧ List.Forall₂ S bs cs) ↔ List.Forall₂ (fun a c => ∃ b, R a b ∧ S b c) as cs := by
  induction as generalizing cs with
  | nil => cases cs <;> simp
  | cons a as ih =>
    cases cs with
    | nil => simp
    | cons c cs =>
      rw [List.forall₂_cons, ← ih]
      constructor
      · rintro ⟨_, ⟨⟩ | ⟨hR, hRs⟩, ⟨⟩ | ⟨hS, hSs⟩⟩
        exact ⟨⟨_, hR, hS⟩, _, hRs, hSs⟩
      · rintro ⟨⟨b, hR, hS⟩, bs, hRs, hSs⟩
        exact ⟨b :: bs, .cons hR hRs, .cons hS hSs⟩

theorem forall₂_and_right {α β : Type} {R : α → β → Prop} {p : β → Prop} {as : List α} {bs : List β} :
    List.Forall₂ (fun a b => R a b ∧ p b) as bs ↔ List.Forall₂ R as bs ∧ ∀ b ∈ bs, p b := by
  induction as generalizing bs with
  | nil => cases bs <;> simp
  | cons a as ih =>
    cases bs with
    | nil => simp
    | cons b bs =>
      simp only [List.forall₂_cons, ih, List.forall_mem_cons]
      tauto

end Pipeworks
