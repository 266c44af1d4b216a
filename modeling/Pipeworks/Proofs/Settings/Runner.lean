/-
The settings of a runner. Whatever the environment, every length of time in them can be counted, and those that pass
the check have a lease that is longer than the time limit (`runner_of_environment`). A lease that is not set is twice
the limit, and refused where that is longer than any span; one that is set is refused for nothing but not being longer
than the limit.
-/
import Mathlib.Data.List.Basic
import Pipeworks.Proofs.Text.Utf8
import Pipeworks.Settings.Runner

namespace Pipeworks.Settings

open Time (Span)

variable {env : Environment} {name : String} {n : Nat} {r : Runner} {f : Fault} {s limit fallback : Span}

/-! ## Numbers -/

theorem number?_le (h : env.number? name = some n) : n ≤ maxNumber := by
  obtain ⟨-, hn⟩ := Option.filter_eq_some_iff.1 h
  exact of_decide_eq_true hn

/-! ## Lengths of time -/

/-- The seconds of the span fit into a number. -/
def Countable (s : Span) : Prop := s.seconds ≤ maxNumber

theorem countable_iff : Countable s ↔ s.nanos ≤ Span.max.nanos := by
  have hmax : maxNumber = 18446744073709551615 := rfl
  have hnanos : Span.max.nanos = 18446744073709551615999999999 := rfl
  unfold Countable Span.seconds
  omega

theorem seconds_ofSeconds (n : Nat) : (Span.ofSeconds n).seconds = n := Nat.mul_div_cancel _ (by decide)

theorem countable_ofSeconds (h : n ≤ maxNumber) : Countable (.ofSeconds n) := by
  unfold Countable
  rwa [seconds_ofSeconds]

/-- A number of seconds is never the longest span, which is almost a second longer. -/
theorem ofSeconds_ne_max (n : Nat) : Span.ofSeconds n ≠ Span.max := by
  intro h
  have hnanos : n * 1000000000 = 18446744073709551615999999999 := congrArg Span.nanos h
  omega

theorem secondsOr_set (h : env.number? name = some n) (fallback : Span) :
    Runner.secondsOr env name fallback = .ofSeconds n := by
  unfold Runner.secondsOr
  rw [h]
  rfl

theorem secondsOr_unset (h : env.number? name = none) (fallback : Span) :
    Runner.secondsOr env name fallback = fallback := by
  unfold Runner.secondsOr
  rw [h]
  rfl

theorem secondsOr_ofSeconds (env : Environment) (name : String) (m : Nat) :
    Runner.secondsOr env name (.ofSeconds m) = .ofSeconds ((env.number? name).getD m) := by
  cases hnumber : env.number? name with
  | none => exact secondsOr_unset hnumber _
  | some n => exact secondsOr_set hnumber _

theorem getD_number?_le {m : Nat} (hm : m ≤ maxNumber) : (env.number? name).getD m ≤ maxNumber := by
  cases hnumber : env.number? name with
  | none => exact hm
  | some n => exact number?_le hnumber

theorem countable_secondsOr (hfallback : Countable fallback) : Countable (Runner.secondsOr env name fallback) := by
  cases hnumber : env.number? name with
  | none => rwa [secondsOr_unset hnumber]
  | some n =>
    rw [secondsOr_set hnumber]
    exact countable_ofSeconds (number?_le hnumber)

/-! ## The lease that is derived -/

theorem leaseFor_fitting (h : 2 * limit.nanos ≤ Span.max.nanos) : leaseFor limit = ⟨2 * limit.nanos⟩ := by
  unfold leaseFor Span.double?
  rw [if_pos h]
  rfl

theorem leaseFor_long (h : Span.max.nanos < 2 * limit.nanos) : leaseFor limit = Span.max := by
  unfold leaseFor Span.double?
  rw [if_neg (Nat.not_le.2 h)]
  rfl

theorem countable_leaseFor (limit : Span) : Countable (leaseFor limit) := by
  rw [countable_iff]
  rcases Nat.lt_or_ge Span.max.nanos (2 * limit.nanos) with hlong | hfits
  · exact Nat.le_of_eq (congrArg Span.nanos (leaseFor_long hlong))
  · rw [leaseFor_fitting hfits]
    exact hfits

/-- Twice a number of seconds is too long from the half of the greatest number on. -/
theorem too_long_iff (n : Nat) : Span.max.nanos < 2 * (Span.ofSeconds n).nanos ↔ maxNumber / 2 < n := by
  have hmax : maxNumber = 18446744073709551615 := rfl
  have hnanos : Span.max.nanos = 18446744073709551615999999999 := rfl
  have hseconds : (Span.ofSeconds n).nanos = n * 1000000000 := rfl
  omega

/-! ## The check -/

/-- What is demanded of settings one by one, and what is reported if it is not met. -/
def demands (r : Runner) : List (Bool × Fault) := [
  (!r.runnerId.isEmpty, .empty "runner_id"),
  (isWeb r.coordinatorUrl, .notWeb "coordinator_url"),
  (r.maxParallel != 0, .zero "max_parallel_pipelines"),
  (r.pipelineTimeout.nanos != 0, .zero "pipeline_timeout"),
  (r.pollInterval.nanos != 0, .zero "poll_interval"),
  (r.queueLease != Span.max, .noLease),
  (decide (r.pipelineTimeout.nanos < r.queueLease.nanos), .shortLease),
  (!Text.isBlankText r.containerRuntime, .empty "container_runtime")]

/-- The first demand that is not met. -/
def firstUnmet : List (Bool × Fault) → Except Fault Unit
  | [] => .ok ()
  | (met, f) :: rest => demand met f >>= fun _ => firstUnmet rest

theorem validate_eq (r : Runner) : r.validate = firstUnmet (demands r) := by
  have hlast : ∀ x : Except Fault Unit, (x >>= fun _ => .ok ()) = x := by rintro (_ | _) <;> rfl
  unfold Runner.validate demands
  simp only [firstUnmet, hlast]

theorem firstUnmet_eq_ok_iff {cs : List (Bool × Fault)} : firstUnmet cs = .ok () ↔ ∀ c ∈ cs, c.1 = true := by
  induction cs with
  | nil => simp [firstUnmet]
  | cons c cs ih =>
    obtain ⟨met, f⟩ := c
    rw [List.forall_mem_cons, ← ih]
    cases met with
    | false => exact ⟨nofun, fun h => nomatch h.1⟩
    | true => exact ⟨fun h => ⟨rfl, h⟩, fun h => h.2⟩

theorem unmet_of_error {cs : List (Bool × Fault)} (h : firstUnmet cs = .error f) : (false, f) ∈ cs := by
  induction cs with
  | nil => cases h
  | cons c cs ih =>
    obtain ⟨met, g⟩ := c
    cases met with
    | false =>
      cases h
      exact List.mem_cons_self
    | true => exact List.mem_cons_of_mem _ (ih h)

theorem accepted_of_validate (h : r.validate = .ok ()) :
    1 ≤ r.maxParallel ∧ 0 < r.pollInterval.nanos ∧ 0 < r.pipelineTimeout.nanos ∧
      r.pipelineTimeout.nanos < r.queueLease.nanos ∧ r.queueLease ≠ Span.max := by
  rw [validate_eq, firstUnmet_eq_ok_iff] at h
  simp only [demands, List.forall_mem_cons, bne_iff_ne, decide_eq_true_eq] at h
  obtain ⟨-, -, hparallel, htimeout, hpoll, hmax, hshort, -⟩ := h
  exact ⟨Nat.pos_of_ne_zero hparallel, Nat.pos_of_ne_zero hpoll, Nat.pos_of_ne_zero htimeout, hshort, hmax⟩

/-- Settings whose lease is the longest span are refused. -/
theorem refused_of_longest (h : r.queueLease = Span.max) : ∃ f, r.validate = .error f := by
  cases hvalid : r.validate with
  | error f => exact ⟨f, rfl⟩
  | ok => exact absurd h (accepted_of_validate hvalid).2.2.2.2

/-- Where a lease is longer than the limit, but not the longest span, it is not the reason of a refusal. -/
theorem not_refused_for_lease (hmax : r.queueLease ≠ Span.max) (hlonger : r.pipelineTimeout.nanos < r.queueLease.nanos) :
    r.validate ≠ .error .noLease ∧ r.validate ≠ .error .shortLease := by
  rw [validate_eq]
  constructor
  · intro h
    have hunmet := unmet_of_error h
    simp [demands, hmax] at hunmet
  · intro h
    have hunmet := unmet_of_error h
    simp [demands, hlonger] at hunmet

/-! ## Settings of an environment -/

/-- What is known of settings that are taken from an environment. -/
structure Sound (env : Environment) (r : Runner) : Prop where
  countable : ∀ s ∈ [r.pipelineTimeout, r.pollInterval, r.queueLease, r.reportTimeout], Countable s
  parallel : r.maxParallel ≤ maxNumber
  /-- The time limit is the one that is set, or an hour. -/
  limit : r.pipelineTimeout = .ofSeconds ((env.number? "PIPELINE_TIMEOUT").getD 3600)
  accepted : r.validate = .ok () → 1 ≤ r.maxParallel ∧ 0 < r.pollInterval.nanos ∧ 0 < r.pipelineTimeout.nanos ∧
    r.pipelineTimeout.nanos < r.queueLease.nanos ∧ r.queueLease ≠ Span.max
  /-- A lease that is not set is twice the limit, if there is a span of that length; else the settings are refused. -/
  derived : env.number? "QUEUE_LEASE" = none →
    if 2 * r.pipelineTimeout.nanos ≤ Span.max.nanos then r.queueLease.nanos = 2 * r.pipelineTimeout.nanos
    else ∃ f, r.validate = .error f
  /-- There is none from the half of the greatest number of seconds on. -/
  tooLong : Span.max.nanos < 2 * r.pipelineTimeout.nanos ↔ maxNumber / 2 < r.pipelineTimeout.seconds
  /-- A lease that is set is kept, and not the reason of a refusal if it is longer than the limit. -/
  explicit : ∀ n, env.number? "QUEUE_LEASE" = some n → r.queueLease = .ofSeconds n ∧
    (r.pipelineTimeout.nanos < r.queueLease.nanos →
      r.validate ≠ .error .noLease ∧ r.validate ≠ .error .shortLease)

/-- The numbers and the lengths of time as they are taken from an environment. -/
theorem taken_of_environment {freshId : String} (h : Runner.ofEnvironment env freshId = .ok r) :
    r.maxParallel = (env.number? "MAX_PARALLEL_PIPELINES").getD 2 ∧
      r.pipelineTimeout = .ofSeconds ((env.number? "PIPELINE_TIMEOUT").getD 3600) ∧
      r.pollInterval = .ofSeconds ((env.number? "QUEUE_POLL_INTERVAL").getD 2) ∧
      r.queueLease = Runner.secondsOr env "QUEUE_LEASE" (leaseFor r.pipelineTimeout) ∧
      r.reportTimeout = .ofSeconds ((env.number? "REPORT_TIMEOUT").getD 30) := by
  unfold Runner.ofEnvironment at h
  split at h
  · cases h
  · cases h
    exact ⟨rfl, secondsOr_ofSeconds _ _ _, secondsOr_ofSeconds _ _ _, rfl, secondsOr_ofSeconds _ _ _⟩

theorem sound_of_environment {freshId : String} (h : Runner.ofEnvironment env freshId = .ok r) : Sound env r := by
  obtain ⟨hparallel, hlimit, hpoll, hlease, hreport⟩ := taken_of_environment h
  refine ⟨?_, ?_, hlimit, accepted_of_validate, ?_, ?_, ?_⟩
  · simp only [List.forall_mem_cons, List.not_mem_nil, false_implies, implies_true, and_true]
    rw [hlimit, hpoll, hlease, hreport]
    exact ⟨countable_ofSeconds (getD_number?_le (by decide)), countable_ofSeconds (getD_number?_le (by decide)),
      countable_secondsOr (countable_leaseFor _), countable_ofSeconds (getD_number?_le (by decide))⟩
  · rw [hparallel]
    exact getD_number?_le (by decide)
  · intro hunset
    rw [secondsOr_unset hunset] at hlease
    split
    case isTrue hfits => rw [hlease, leaseFor_fitting hfits]
    case isFalse hlong => exact refused_of_longest (hlease.trans (leaseFor_long (Nat.not_le.1 hlong)))
  · rw [hlimit, seconds_ofSeconds, too_long_iff]
  · intro n hset
    rw [secondsOr_set hset] at hlease
    exact ⟨hlease, not_refused_for_lease (hlease ▸ ofSeconds_ne_max n)⟩

/-- Settings are taken from every environment that says where the coordinator is, and are sound. -/
theorem runner_of_environment (env : Environment) (freshId : String) :
    env.text? "COORDINATOR_URL" = none ∧ Runner.ofEnvironment env freshId = .error (.notSet "COORDINATOR_URL") ∨
      ∃ r, Runner.ofEnvironment env freshId = .ok r ∧ Sound env r := by
  cases hurl : env.text? "COORDINATOR_URL" with
  | none =>
    refine .inl ⟨rfl, ?_⟩
    unfold Runner.ofEnvironment
    rw [hurl]
  | some url =>
    cases h : Runner.ofEnvironment env freshId with
    | ok r => exact .inr ⟨r, rfl, sound_of_environment h⟩
    | error f =>
      unfold Runner.ofEnvironment at h
      rw [hurl] at h
      cases h

namespace Sample

def environment (timeout : String) : Environment :=
  [("COORDINATOR_URL", Text.bytes "http://c:8081"), ("PIPELINE_TIMEOUT", Text.bytes timeout)]

/-- The lease of a runner with such a time limit, and whether its settings pass the check. -/
def lease (timeout : String) : Option (Span × Except Fault Unit) :=
  match Runner.ofEnvironment (environment timeout) "runner-1" with
  | .ok r => some (r.queueLease, r.validate)
  | .error _ => none

end Sample

-- half of the greatest number is the longest limit that a lease can be derived from
example : Sample.lease "9223372036854775807" = some (.ofSeconds 18446744073709551614, .ok ()) := by decide +kernel

example : Sample.lease "9223372036854775808" = some (Span.max, .error .noLease) := by decide +kernel

end Pipeworks.Settings
