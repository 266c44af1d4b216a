/-
The paths through a program: one call after the other, each with an answer that may come of it, up to
the result. What holds of every path holds whoever answers: a run by any handler takes a path, the one
that its trace shows.
-/
import Mathlib.Data.List.Forall2
import Pipeworks.Program

namespace Pipeworks.Program

variable {Call : Type} {Answer : Call → Type} {α β σ : Type}

/-- A call with its answer. -/
structure Event (Call : Type) (Answer : Call → Type) where
  call : Call
  answer : Answer call

/-! ## Paths -/

/-- A path through a program and the result at its end. -/
inductive Path : Program Call Answer α → List (Event Call Answer) → α → Prop
  | done (a : α) : Path (.done a) [] a
  | ask {c : Call} {next : Answer c → Program Call Answer α} (answer : Answer c)
      {es : List (Event Call Answer)} {a : α} :
      Path (next answer) es a → Path (.ask c next) (⟨c, answer⟩ :: es) a

theorem path_done_iff {a b : α} {es : List (Event Call Answer)} :
    Path (.done a : Program Call Answer α) es b ↔ es = [] ∧ b = a := by
  constructor
  · intro h; cases h; exact ⟨rfl, rfl⟩
  · rintro ⟨rfl, rfl⟩; exact .done _

theorem path_ask_iff {c : Call} {next : Answer c → Program Call Answer α} {a : α}
    {es : List (Event Call Answer)} :
    Path (.ask c next) es a ↔ ∃ answer rest, es = ⟨c, answer⟩ :: rest ∧ Path (next answer) rest a := by
  constructor
  · intro h
    cases h with
    | ask answer h => exact ⟨answer, _, rfl, h⟩
  · rintro ⟨answer, rest, rfl, h⟩
    exact .ask answer h

theorem path_call_bind_iff {c : Call} {f : Answer c → Program Call Answer β} {b : β}
    {es : List (Event Call Answer)} :
    Path ((call c).bind f) es b ↔ ∃ answer rest, es = ⟨c, answer⟩ :: rest ∧ Path (f answer) rest b :=
  path_ask_iff

theorem path_bind_iff {p : Program Call Answer α} {f : α → Program Call Answer β} {b : β}
    {es : List (Event Call Answer)} :
    Path (p.bind f) es b ↔ ∃ front back a, es = front ++ back ∧ Path p front a ∧ Path (f a) back b := by
  induction p generalizing es with
  | done a =>
    rw [bind_done]
    constructor
    · intro h; exact ⟨[], es, a, rfl, .done a, h⟩
    · rintro ⟨front, back, a', rfl, hp, hf⟩
      obtain ⟨rfl, rfl⟩ := path_done_iff.1 hp
      exact hf
  | ask c next ih =>
    rw [bind_ask, path_ask_iff]
    constructor
    · rintro ⟨answer, rest, rfl, h⟩
      obtain ⟨front, back, a, rfl, hp, hf⟩ := (ih answer).1 h
      exact ⟨⟨c, answer⟩ :: front, back, a, rfl, .ask answer hp, hf⟩
    · rintro ⟨front, back, a, rfl, hp, hf⟩
      obtain ⟨answer, rest, rfl, hn⟩ := path_ask_iff.1 hp
      exact ⟨answer, rest ++ back, rfl, (ih answer).2 ⟨rest, back, a, rfl, hn, hf⟩⟩

/-! ## Runs -/

/-- The calls of a run with the answers of its handler. -/
def trace (handler : Handler Call Answer σ) : Program Call Answer α → σ → List (Event Call Answer)
  | .done _, _ => []
  | .ask c next, s => ⟨c, (handler c s).1⟩ :: (next (handler c s).1).trace handler (handler c s).2

theorem path_trace (handler : Handler Call Answer σ) (p : Program Call Answer α) (s : σ) :
    Path p (p.trace handler s) (p.run handler s).1 := by
  induction p generalizing s with
  | done a => exact .done a
  | ask c next ih => exact .ask _ (ih _ _)

/-- A program whose every call is replaced runs as if each were answered by what replaces it. -/
theorem run_refine {Call' : Type} {Answer' : Call' → Type} (handler : Handler Call' Answer' σ)
    (f : (c : Call) → Program Call' Answer' (Answer c)) (p : Program Call Answer α) (s : σ) :
    (p.refine f).run handler s = p.run (fun c s => (f c).run handler s) s := by
  induction p generalizing s with
  | done a => rfl
  | ask c next ih => rw [refine, run_bind, run, ih]

/-- Whatever is answered in a run, the handler has answered it, in some state. -/
theorem answer_of_mem_trace {handler : Handler Call Answer σ} {p : Program Call Answer α} {s : σ}
    {e : Event Call Answer} (he : e ∈ p.trace handler s) : ∃ s', e.answer = (handler e.call s').1 := by
  induction p generalizing s with
  | done a => cases he
  | ask c next ih =>
    obtain rfl | he := List.mem_cons.1 he
    · exact ⟨s, rfl⟩
    · exact ih _ he

/-! ## Calls that a program may make -/

/-- Whatever is answered, the program makes no call but those of a kind. -/
def Only (P : Call → Prop) : Program Call Answer α → Prop
  | .done _ => True
  | .ask c next => P c ∧ ∀ answer, Only P (next answer)

theorem Only.mono {P Q : Call → Prop} (hPQ : ∀ c, P c → Q c) {p : Program Call Answer α} (h : p.Only P) :
    p.Only Q := by
  induction p with
  | done a => trivial
  | ask c next ih => exact ⟨hPQ c h.1, fun answer => ih answer (h.2 answer)⟩

theorem Only.bind {P : Call → Prop} {p : Program Call Answer α} {f : α → Program Call Answer β} (h : p.Only P)
    (hf : ∀ a, (f a).Only P) : (p.bind f).Only P := by
  induction p with
  | done a => exact hf a
  | ask c next ih => exact ⟨h.1, fun answer => ih answer (h.2 answer)⟩

/-- The calls that a program may make keep what holds of the state. -/
theorem Only.run_keeps {P : Call → Prop} {handler : Handler Call Answer σ} {inv : σ → Prop} {p : Program Call Answer α}
    (h : p.Only P) (hkeeps : ∀ c, P c → ∀ s, inv s → inv (handler c s).2) {s : σ} (hs : inv s) :
    inv (p.run handler s).2 := by
  induction p generalizing s with
  | done a => exact hs
  | ask c next ih => exact ih _ (h.2 _) (hkeeps c h.1 s hs)

/-- Where the calls that a program may make are answered alike, in states that are alike and stay so, it makes the
same calls and comes to the same result. -/
theorem Only.run_alike {τ : Type} {P : Call → Prop} {handler : Handler Call Answer σ} {handler' : Handler Call Answer τ}
    {like : σ → τ → Prop} {p : Program Call Answer α} (h : p.Only P)
    (hlike : ∀ c, P c → ∀ s t, like s t →
      (handler c s).1 = (handler' c t).1 ∧ like (handler c s).2 (handler' c t).2) {s : σ} {t : τ} (hst : like s t) :
    (p.run handler s).1 = (p.run handler' t).1 ∧ p.trace handler s = p.trace handler' t ∧
      like (p.run handler s).2 (p.run handler' t).2 := by
  induction p generalizing s t with
  | done a => exact ⟨rfl, rfl, hst⟩
  | ask c next ih =>
    obtain ⟨hsame, hafter⟩ := hlike c h.1 s t hst
    obtain ⟨hresult, htrace, hrest⟩ := ih (handler c s).1 (h.2 _) hafter
    refine ⟨?_, ?_, ?_⟩
    · rw [run, run, hresult, hsame]
    · rw [trace, trace, htrace, hsame]
    · rw [run, run, ← hsame]
      exact hrest

/-! ## Answers that are not read -/

/-- Whichever of two answers comes that are alike, the program goes on in the same way. -/
def Ignores (Alike : (c : Call) → Answer c → Answer c → Prop) : Program Call Answer α → Prop
  | .done _ => True
  | .ask c next => (∀ a b, Alike c a b → next a = next b) ∧ ∀ answer, Ignores Alike (next answer)

/-- The same call with an answer that is alike. -/
inductive Event.Swapped (Alike : (c : Call) → Answer c → Answer c → Prop) :
    Event Call Answer → Event Call Answer → Prop
  | mk {c : Call} {a b : Answer c} : Alike c a b → Event.Swapped Alike ⟨c, a⟩ ⟨c, b⟩

variable {Alike : (c : Call) → Answer c → Answer c → Prop}

theorem Ignores.bind {p : Program Call Answer α} {f : α → Program Call Answer β} (h : p.Ignores Alike)
    (hf : ∀ a, (f a).Ignores Alike) : (p.bind f).Ignores Alike := by
  induction p with
  | done a => exact hf a
  | ask c next ih =>
    obtain ⟨hfirst, hrest⟩ := h
    exact ⟨fun a b hab => congrArg (Program.bind · f) (hfirst a b hab), fun answer => ih answer (hrest answer)⟩

/-- Had other answers come that are alike, the program had come to the same result. -/
theorem Ignores.path {p : Program Call Answer α} {es es' : List (Event Call Answer)} {a : α} (h : p.Ignores Alike)
    (hp : Path p es a) (hes : List.Forall₂ (Event.Swapped Alike) es es') : Path p es' a := by
  induction hp generalizing es' with
  | done a =>
    cases hes
    exact .done a
  | ask answer _ ih =>
    obtain ⟨hfirst, hrest⟩ := h
    cases hes with
    | cons halike hes =>
      cases halike with
      | mk hab => exact .ask _ (hfirst _ _ hab ▸ ih (hrest answer) hes)

end Pipeworks.Program
