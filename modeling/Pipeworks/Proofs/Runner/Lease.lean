/-
How long a run lasts. Where reports come back in time and what is done aside takes no time, a run is over after
its time limit and two reports at the latest (`execute_lasts`), and some run takes as long (`elapse_stalled`). So a
lease outlasts all runs exactly if it is longer than that (`outlastsRuns_iff`); it is not enough that it is longer
than the limit, which is what is checked.
-/
import Pipeworks.Proofs.Runner.Section
import Pipeworks.Proofs.Runner.Timeline
import Pipeworks.Settings.Runner
import Pipeworks.Sql.Database

namespace Pipeworks.Runner

variable {σ α β : Type} {collaborators : Collaborators σ} {b b' : Nat}

/-! ## Programs that last so long -/

/-- Whenever it is begun, the program comes to its end within so many milliseconds. -/
def Lasts (collaborators : Collaborators σ) (b : Nat) (p : Run α) : Prop :=
  ∀ (k : Clock) (s : σ), ∃ es a k' s', Elapses collaborators k s p es a k' s' ∧ k.now ≤ k'.now ∧ k'.now ≤ k.now + b

theorem Lasts.done (a : α) : Lasts collaborators b (.done a) :=
  fun k s => ⟨[], a, k, s, .done k s a, Nat.le_refl _, Nat.le_add_right _ _⟩

theorem Lasts.bind {p : Run α} {f : α → Run β} (h : Lasts collaborators b p)
    (hf : ∀ a, Lasts collaborators b' (f a)) : Lasts collaborators (b + b') (p.bind f) := by
  intro k s
  obtain ⟨es, a, k₁, s₁, hp, hle, hwithin⟩ := h k s
  obtain ⟨fs, c, k', s', hq, hle', hwithin'⟩ := hf a k₁ s₁
  exact ⟨es ++ fs, c, k', s', hp.bind hq, by omega, by omega⟩

/-- An action that always comes back within so many milliseconds. -/
def Returns (collaborators : Collaborators σ) (b : Nat) (a : Action) : Prop :=
  ∀ commands now s, ∃ delay answer s', collaborators a commands now s = (some (delay, answer), s') ∧ delay ≤ b

theorem Returns.lasts {a : Action} {f : a.Answer → Run β} (h : Returns collaborators b a)
    (hf : ∀ answer, Lasts collaborators b' (f answer)) : Lasts collaborators (b + b') (act a >>= f) := by
  intro k s
  obtain ⟨delay, answer, s₁, hanswer, hdelay⟩ := h k.commands k.now s
  obtain ⟨es, c, k', s', hrest, hle, hwithin⟩ := hf answer (k.after a (k.now + delay)) s₁
  have hnow : (k.after a (k.now + delay)).now = k.now + delay := rfl
  exact ⟨_, c, k', s', .act hanswer hrest, by omega, by omega⟩

/-! ## The section -/

/-- The limit strikes before a limited action would end later. -/
theorem limitedAnswer_le (deadline now : Nat) (a : Action) (lasting : Lasting a.Answer) :
    (limitedAnswer deadline now a lasting).1 ≤ max now deadline := by
  unfold limitedAnswer
  split
  · exact Nat.le_refl _
  · next delay answer =>
    split
    · exact Nat.le_refl _
    · next hcut =>
      refine Nat.le_trans ?_ (Nat.le_max_right now deadline)
      unfold isCut at hcut
      split at hcut <;> simp only [decide_eq_true_eq] at hcut <;> omega

/-- Whatever its actions do, a section is over when the limit strikes. -/
theorem section_ends (t : Traces) (p : Section α) (k : Clock) (s : σ) (hk : k.now ≤ k.deadline) :
    ∃ es r k' s', Elapses collaborators k s (withinLimit t p) es r k' s' ∧ k.now ≤ k'.now ∧ k'.now ≤ k.deadline := by
  induction p generalizing t k s with
  | done a => exact ⟨[], (some a, t), k, s, .done k s _, Nat.le_refl _, hk⟩
  | ask a next ih =>
    rcases hanswer : collaborators a k.commands k.now s with ⟨lasting, s₁⟩
    rcases htime : limitedAnswer k.deadline k.now a lasting with ⟨time, answer⟩
    have hlow := Elapses.le_limitedAnswer k.deadline k.now a lasting
    have hhigh := limitedAnswer_le k.deadline k.now a lasting
    rw [htime, Nat.max_eq_right hk] at hhigh
    rw [htime] at hlow
    unfold withinLimit
    cases answer with
    | none => exact ⟨_, _, _, _, .limited hanswer htime (.done _ _ _), hlow, hhigh⟩
    | some answer =>
      obtain ⟨es, r, k', s', hrest, hle, hwithin⟩ :=
        ih answer ((t.issued a).answered a answer) (k.after a time) s₁ hhigh
      exact ⟨_, r, k', s', .limited hanswer htime hrest, Nat.le_trans hlow hle, hwithin⟩

theorem section_lasts (limit : Time.Span) (p : Section α) :
    Lasts collaborators (millis limit) ((Program.call (Call.setLimit limit)).bind fun _ => withinLimit {} p) := by
  intro k s
  obtain ⟨es, r, k', s', hsection, hle, hwithin⟩ :=
    section_ends {} p { k with deadline := k.now + millis limit } s (Nat.le_add_right _ _)
  exact ⟨_, r, k', s', .setLimit hsection, hle, hwithin⟩

/-! ## The whole run -/

/-- What a run does besides its section and its reports. -/
def Action.isAside : Action → Bool
  | .clock | .openCheckout _ | .closeCheckout _ | .stop _ | .remove _ | .upload _ _ _ => true
  | _ => false

/-- Every report comes back within its time limit, and what is done aside takes no time. -/
structure Prompt (limit : Time.Span) (collaborators : Collaborators σ) : Prop where
  report : ∀ r, Returns collaborators (limit.nanos / 1000000) (.report r)
  aside : ∀ a, a.isAside → Returns collaborators 0 a

variable {reportLimit : Time.Span}

theorem Prompt.lasts (h : Prompt reportLimit collaborators) {a : Action} {f : a.Answer → Run β}
    (haside : a.isAside) (hf : ∀ answer, Lasts collaborators b (f answer)) :
    Lasts collaborators b (act a >>= f) := by
  have hlasts := (h.aside a haside).lasts hf
  rwa [Nat.zero_add] at hlasts

theorem teardown_lasts (h : Prompt reportLimit collaborators) (container : String) :
    Lasts collaborators 0 (teardown container) := by
  have hstop : Action.isAside (.stop container) := rfl
  have hremove : Action.isAside (.remove container) := rfl
  exact h.lasts hstop fun _ => h.lasts hremove fun _ => .done ()

theorem runInCheckout_lasts (h : Prompt reportLimit collaborators) (limit : Time.Span) (work : Work)
    (unique : String) : Lasts collaborators (millis limit) (runInCheckout limit work unique) := by
  have hopen : Action.isAside (.openCheckout work.pipeline.id) := rfl
  have hclock : Action.isAside .clock := rfl
  refine h.lasts hopen fun directory => ?_
  cases directory with
  | error reason => exact .done _
  | ok directory =>
    have hclose : Action.isAside (.closeCheckout directory) := rfl
    refine h.lasts hclock fun now => ?_
    have hsection : Lasts collaborators (millis limit) _ :=
      section_lasts limit (runSection work directory unique now)
    rw [← Nat.add_zero (millis limit)]
    refine hsection.bind fun outcome => ?_
    have hafter : Lasts collaborators 0 (act (.closeCheckout directory) >>= fun _ =>
        pure (outcome.1.getD (.error (.timeout limit)), outcome.2.transcript)) := h.lasts hclose fun _ => .done _
    dsimp only
    cases outcome.2.container with
    | none => exact hafter
    | some container => exact (teardown_lasts h container).bind fun _ => hafter

/-- A run is over after its limit and two reports at the latest. -/
theorem execute_lasts (h : Prompt reportLimit collaborators) (limit : Time.Span) (work : Work) (unique : String) :
    Lasts collaborators (2 * (reportLimit.nanos / 1000000) + millis limit) (execute limit work unique) := by
  have hclock : Action.isAside .clock := rfl
  have hupload : ∀ content size, Action.isAside (.upload work.pipeline.id content size) := fun _ _ => rfl
  have hsum : 2 * (reportLimit.nanos / 1000000) + millis limit =
      reportLimit.nanos / 1000000 + (millis limit + (reportLimit.nanos / 1000000 + 0)) := by omega
  rw [hsum]
  refine h.lasts hclock fun startedAt => (h.report _).lasts fun _ => ?_
  refine (runInCheckout_lasts h limit work unique).bind fun outcome => ?_
  refine h.lasts (hupload _ _) fun _ => h.lasts hclock fun finishedAt => (h.report _).lasts fun _ => ?_
  exact .done _

/-! ## A run that lasts as long as any -/

/-- Nothing is ever fetched, and each report takes so many milliseconds. -/
def stalled (delay : Nat) (time : Time.Instant) : Collaborators Unit := fun a _ _ _ =>
  match a with
  | .clock => (some (0, time), ())
  | .report _ => (some (delay, .ok ()), ())
  | .openCheckout _ => (some (0, .ok "checkout"), ())
  | .closeCheckout _ => (some (0, .ok ()), ())
  | .fetch _ _ _ _ => (none, ())
  | .pull _ => (some (0, .ok ()), ())
  | .create spec => (some (0, .ok spec.name), ())
  | .start _ => (some (0, .ok ()), ())
  | .exec _ _ => (some (0, .ok ⟨"", 0⟩), ())
  | .stop _ => (some (0, .ok ()), ())
  | .remove _ => (some (0, .ok ()), ())
  | .upload _ _ _ => (some (0, .ok ()), ())

theorem prompt_stalled (reportLimit : Time.Span) (time : Time.Instant) :
    Prompt reportLimit (stalled (reportLimit.nanos / 1000000) time) := by
  constructor
  · intro r commands now s
    exact ⟨_, _, _, rfl, Nat.le_refl _⟩
  · intro a haside commands now s
    cases a <;> first | exact ⟨_, _, _, rfl, Nat.le_refl _⟩ | cases haside

section
variable (delay : Nat) {time : Time.Instant} {work : Work} {k : Clock} (limit : Time.Span) (unique : String)
  (hvalid : work.token.isExpiredAt time = false)

include hvalid

/-- The fetch takes all that is left of the limit. -/
theorem section_stalled (hk : k.deadline = k.now + millis limit) : ∃ es,
    Elapses (stalled delay time) k () (withinLimit {} (runSection work "checkout" unique time)) es (none, {})
      ⟨k.now + millis limit, k.deadline, k.commands⟩ () := by
  have hhangs : stalled delay time (fetching work "checkout") k.commands k.now () = (none, ()) := rfl
  have hlimited : limitedAnswer k.deadline k.now (fetching work "checkout") none = (k.now + millis limit, none) := by
    rw [limitedAnswer, hk, Nat.max_eq_right (Nat.le_add_right _ _)]
  unfold runSection
  rw [hvalid, if_neg Bool.false_ne_true, withinLimit]
  exact ⟨_, .limited hhangs hlimited (.done _ _ _)⟩

theorem runInCheckout_stalled (k : Clock) : ∃ es k',
    Elapses (stalled delay time) k () (runInCheckout limit work unique) es (.error (.timeout limit), []) k' () ∧
      k'.now = k.now + millis limit := by
  obtain ⟨es, hsection⟩ :=
    section_stalled delay (k := ⟨k.now, k.now + millis limit, k.commands⟩) limit unique hvalid rfl
  exact ⟨_, _, .act rfl (.act rfl (.setLimit (hsection.bind (.act rfl (.done _ _ _))))), Nat.add_zero _⟩

theorem elapse_stalled (now : Nat) : ∃ summary,
    elapse (stalled delay time) now 0 0 (execute limit work unique) () =
      (some (summary, now + (2 * delay + millis limit)), ()) := by
  obtain ⟨es, k, hcheckout, hnow⟩ := runInCheckout_stalled delay limit unique hvalid ⟨now + delay, 0, 0⟩
  have hrun : Elapses (stalled delay time) ⟨now, 0, 0⟩ () (execute limit work unique) _ _ _ () :=
    .act rfl (.act rfl (hcheckout.bind (.act rfl (.act rfl (.act rfl (.done _ _ _))))))
  have htime : k.now + delay = now + (2 * delay + millis limit) := by
    rw [hnow]
    show now + delay + millis limit + delay = _
    omega
  exact ⟨_, htime ▸ hrun.elapse⟩

end

/-! ## Leases -/

/-- However long the actions of its section take, a run is over before a lease is that was taken when the run was
begun. -/
def OutlastsRuns (r : Settings.Runner) : Prop :=
  ∀ (σ : Type) (collaborators : Collaborators σ), Prompt r.reportTimeout collaborators →
    ∀ (work : Work) (unique : String) (now : Nat) (s : σ), ∃ summary took s',
      elapse collaborators now 0 0 (execute r.pipelineTimeout work unique) s = (some (summary, now + took), s') ∧
        took * 1000000 < r.queueLease.nanos

/-- How many milliseconds a run can last. -/
def longestRun (r : Settings.Runner) : Nat := 2 * (r.reportTimeout.nanos / 1000000) + millis r.pipelineTimeout

namespace Sample

/-- Work with a token that stays valid. -/
def work : Work := ⟨⟨1, .pending, "c0ffee", "", "", none, none, 1⟩, { accessToken := "secret" }⟩

theorem midnight_valid : Time.Reading.Valid ⟨⟨2024, 1, 1⟩, 0, 0⟩ := by decide

def midnight : Time.Instant := ⟨⟨⟨2024, 1, 1⟩, 0, 0⟩, midnight_valid⟩

/-- A lease that is hardly longer than the time limit of a run. -/
def tight : Settings.Runner where
  runnerId := "runner-1"
  coordinatorUrl := "http://c:8081"
  workspaceDir := "/tmp"
  pipelineTimeout := .ofSeconds 10
  queueLease := .ofSeconds 11

end Sample

theorem not_outlastsRuns {r : Settings.Runner} (h : r.queueLease.nanos ≤ longestRun r * 1000000) :
    ¬ OutlastsRuns r := by
  intro houtlasts
  have hvalid : Sample.work.token.isExpiredAt Sample.midnight = false := rfl
  obtain ⟨summary, took, s', hrun, htook⟩ :=
    houtlasts Unit _ (prompt_stalled r.reportTimeout Sample.midnight) Sample.work "" 0 ()
  obtain ⟨_, hexact⟩ := elapse_stalled (r.reportTimeout.nanos / 1000000) r.pipelineTimeout "" hvalid 0
  rw [hrun] at hexact
  simp only [Prod.mk.injEq, Option.some.injEq] at hexact
  have hlongest : took = longestRun r := by
    unfold longestRun
    omega
  rw [hlongest] at htook
  omega

theorem outlastsRuns_of {r : Settings.Runner} (h : longestRun r * 1000000 < r.queueLease.nanos) : OutlastsRuns r := by
  intro σ collaborators hprompt work unique now s
  obtain ⟨es, summary, k', s', hrun, hle, hwithin⟩ :=
    execute_lasts hprompt r.pipelineTimeout work unique ⟨now, 0, 0⟩ s
  refine ⟨summary, k'.now - now, s', ?_, ?_⟩
  · rw [Nat.add_sub_cancel' hle]
    exact hrun.elapse
  · have hlongest : k'.now - now ≤ longestRun r := Nat.sub_le_of_le_add (Nat.add_comm _ _ ▸ hwithin)
    exact Nat.lt_of_le_of_lt (Nat.mul_le_mul_right _ hlongest) h

/-- A lease has to be longer than the time limit of a run and those of two reports together. -/
theorem outlastsRuns_iff (r : Settings.Runner) : OutlastsRuns r ↔ longestRun r * 1000000 < r.queueLease.nanos := by
  constructor
  · intro h
    by_contra hlong
    exact not_outlastsRuns (Nat.not_lt.1 hlong) h
  · exact outlastsRuns_of

/-- Settings that pass the check need not have a lease that outlasts the runs. -/
theorem validated_lease_too_short : ¬ ∀ r : Settings.Runner, r.validate = .ok () → OutlastsRuns r := by
  intro h
  have hvalid : Sample.tight.validate = .ok () := rfl
  exact not_outlastsRuns (by decide) (h _ hvalid)

end Pipeworks.Runner
