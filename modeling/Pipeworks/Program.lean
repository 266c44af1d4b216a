/-
Programs that ask for answers: the tree of what a program does after every possible answer. Who
answers, and what happens between two questions, is left open, so one program can be run over
memory or a database, be interleaved with others, or be cut off.
-/
namespace Pipeworks

inductive Program (Call : Type) (Answer : Call → Type) (α : Type) where
  | done (a : α)
  | ask (c : Call) (next : Answer c → Program Call Answer α)

namespace Program

variable {Call : Type} {Answer : Call → Type} {α β : Type}

/-- The program that makes one call. -/
def call (c : Call) : Program Call Answer (Answer c) := .ask c .done

/-- Goes on where a program is done. -/
def bind : Program Call Answer α → (α → Program Call Answer β) → Program Call Answer β
  | .done a, f => f a
  | .ask c next, f => .ask c fun answer => (next answer).bind f

instance : Monad (Program Call Answer) where
  pure := .done
  bind := bind

theorem bind_done (a : α) (f : α → Program Call Answer β) : (done a).bind f = f a := rfl

theorem bind_ask (c : Call) (next : Answer c → Program Call Answer α)
    (f : α → Program Call Answer β) :
    (ask c next).bind f = .ask c fun answer => (next answer).bind f := rfl

theorem bind_assoc {γ : Type} (p : Program Call Answer α) (f : α → Program Call Answer β)
    (g : β → Program Call Answer γ) : (p.bind f).bind g = p.bind fun a => (f a).bind g := by
  induction p with
  | done a => rfl
  | ask c next ih => simp only [bind_ask, ih]

/-! ## Running -/

/-- Who answers: each call has an answer and changes a state. -/
abbrev Handler (Call : Type) (Answer : Call → Type) (σ : Type) : Type :=
  (c : Call) → σ → Answer c × σ

/-- Runs a program to its end. -/
def run {σ : Type} (handler : Handler Call Answer σ) : Program Call Answer α → σ → α × σ
  | .done a, s => (a, s)
  | .ask c next, s => (next (handler c s).1).run handler (handler c s).2

theorem run_bind {σ : Type} (handler : Handler Call Answer σ) (p : Program Call Answer α)
    (f : α → Program Call Answer β) (s : σ) :
    (p.bind f).run handler s = (f (p.run handler s).1).run handler (p.run handler s).2 := by
  induction p generalizing s with
  | done a => rfl
  | ask c next ih => exact ih _ _

/-- Replaces every call by a program that finds its answer. -/
def refine {Call' : Type} {Answer' : Call' → Type}
    (f : (c : Call) → Program Call' Answer' (Answer c)) :
    Program Call Answer α → Program Call' Answer' α
  | .done a => .done a
  | .ask c next => (f c).bind fun answer => (next answer).refine f

end Program

end Pipeworks
