/-
A consumer that is told to stop comes to its end, if its jobs do. While the clock stands still fewer messages may be
received, or jobs go on less often; else time passes, up to the one at which it is told to stop; and from then on it
waits for jobs that go on less and less often (`done_of_terminates`).
-/
import Pipeworks.Proofs.Runner.Consumer
import Pipeworks.Runner.Trial

namespace Pipeworks.Runner

variable {σ τ : Type}

/-! ## Jobs that end -/

/-- A job that was begun at one time and goes on at another is over once it has gone on so many times, in whatever
worlds. If it breaks down, time has passed since it was begun: a message that is given back at once may be received,
and given back, at the same moment for ever. -/
def Worker.EndsWithin (w : Worker σ τ) (begun : Nat) : Nat → Nat → τ → Prop
  | 0, _, _ => False
  | left + 1, now, job => ∀ s,
    match (w.proceed now job s).1 with
    | .ended => True
    | .brokeDown => begun < now
    | .waits none _ => False
    | .waits (some time) rest => now ≤ time ∧ w.EndsWithin begun left time rest

/-- Every job comes to its end. -/
def Worker.Terminates (w : Worker σ τ) : Prop := ∀ work now, ∃ left, w.EndsWithin now left now (w.begin work)

/-- What is known of a job in progress: when it was begun, and how often it goes on at most. -/
structure Outlook where
  begun : Nat
  left : Nat

namespace Consumer

variable {setup : ConsumerSetup} {w : Worker σ τ} {c : Consumer σ τ} {j : Job τ} {jobs : List (Job τ)} {o : Outlook}
  {os others : List Outlook} {now : Nat}

/-- The job has still to go on. -/
def Expects (w : Worker σ τ) (now : Nat) (j : Job τ) (o : Outlook) : Prop :=
  ∃ time, j.wake = some time ∧ now ≤ time ∧ w.EndsWithin o.begun o.left time j.rest

/-- How many jobs go on now. -/
def due (now : Nat) (jobs : List (Job τ)) : Nat := jobs.countP fun j => j.wake.any (· ≤ now)

/-- How many jobs were begun before now. -/
def begunBefore (now : Nat) (os : List Outlook) : Nat := os.countP fun o => decide (o.begun < now)

/-- How often the jobs go on at most, all together. -/
def timesLeft : List Outlook → Nat
  | [] => 0
  | o :: os => o.left + timesLeft os

/-- How many messages may be received now: those that are ready, and those that jobs may give back. -/
def receivable (c : Consumer σ τ) (os : List Outlook) : Nat := c.queue.ready.length + begunBefore c.now os

theorem due_cons (now : Nat) (j : Job τ) (jobs : List (Job τ)) : due now (j :: jobs) = due now [j] + due now jobs := by
  rw [← List.singleton_append, due, List.countP_append]
  rfl

theorem due_pos {time : Nat} (hj : j ∈ jobs) (hwake : j.wake = some time) (hle : time ≤ now) : 0 < due now jobs := by
  refine List.countP_pos_iff.2 ⟨j, hj, ?_⟩
  rw [hwake]
  exact decide_eq_true hle

theorem receivable_perm (c : Consumer σ τ) (h : os.Perm others) : c.receivable os = c.receivable others :=
  congrArg (_ + ·) (h.countP_eq _)

theorem timesLeft_perm (h : os.Perm others) : timesLeft os = timesLeft others := by
  induction h with
  | nil => rfl
  | cons o _ ih => exact congrArg (o.left + ·) ih
  | swap o other os => exact Nat.add_left_comm _ _ _
  | trans _ _ ih ih' => exact ih.trans ih'

theorem receivable_append (c : Consumer σ τ) (os others : List Outlook) :
    c.receivable (os ++ others) = begunBefore c.now os + c.receivable others := by
  unfold receivable begunBefore
  rw [List.countP_append]
  exact Nat.add_left_comm _ _ _

theorem timesLeft_append (os others : List Outlook) :
    timesLeft (os ++ others) = timesLeft os + timesLeft others := by
  induction os with
  | nil => exact (Nat.zero_add _).symm
  | cons o os ih => rw [List.cons_append, timesLeft, timesLeft, ih, Nat.add_assoc]

/-- The message of a job that was begun before may be given back. -/
theorem receivable_cons (h : o.begun < c.now) : c.receivable (o :: os) = c.receivable os + 1 := by
  have hone : begunBefore c.now (o :: os) = begunBefore c.now os + 1 :=
    List.countP_cons_of_pos (p := fun o : Outlook => decide (o.begun < c.now)) (decide_eq_true h)
  rw [receivable, hone, ← Nat.add_assoc, receivable]

theorem receivable_cons_le (c : Consumer σ τ) (o : Outlook) (os : List Outlook) :
    c.receivable os ≤ c.receivable (o :: os) :=
  Nat.add_le_add_left (List.Sublist.countP_le (List.sublist_cons_self _ _)) _

/-! ## Jobs that go on -/

theorem wakeJob_frame (w : Worker σ τ) (c : Consumer σ τ) (j : Job τ) :
    (c.wakeJob w j).now = c.now ∧ (c.wakeJob w j).phase = c.phase ∧ (c.wakeJob w j).outer = c.outer := by
  unfold wakeJob
  split
  · split <;> exact ⟨rfl, rfl, rfl⟩
  · exact ⟨rfl, rfl, rfl⟩

theorem wakeJob_asleep (hasleep : j.wake.any (· ≤ c.now) = false) :
    c.wakeJob w j = { c with jobs := c.jobs ++ [j] } := if_neg (ne_true_of_eq_false hasleep)

theorem wakeJob_due (hdue : j.wake.any (· ≤ c.now) = true) : c.wakeJob w j =
    match w.proceed c.now j.rest c.world with
    | (.ended, world) => { c with world, queue := settle false j.tag c.queue }
    | (.brokeDown, world) => { c with world, queue := settle true j.tag c.queue }
    | (.waits wake rest, world) => { c with world, jobs := c.jobs ++ [{ j with wake, rest }] } := if_pos hdue

/-- A message that is given back becomes ready, and one that is acknowledged does not. -/
theorem ready_settle (broken : Bool) (tag : Int) (q : MemoryQueue) :
    (settle broken tag q).ready.length ≤ q.ready.length + broken.toNat := by
  cases broken with
  | false =>
    show ((Queue.Operation.ack tag).attempt q).ready.length ≤ _
    cases hack : (Queue.Operation.ack tag).apply q with
    | error f =>
      rw [MemoryQueue.attempt_error _ hack]
      exact Nat.le_refl _
    | ok q' =>
      rw [MemoryQueue.attempt_ok _ hack]
      simp only [Queue.Operation.apply, MemoryQueue.ack] at hack
      split at hack
      · cases hack
      · rw [← Except.ok.inj hack]
        exact Nat.le_refl _
  | true =>
    show ((Queue.Operation.nack tag).attempt q).ready.length ≤ _
    cases hnack : (Queue.Operation.nack tag).apply q with
    | error f =>
      rw [MemoryQueue.attempt_error _ hnack]
      exact Nat.le_succ _
    | ok q' =>
      rw [MemoryQueue.attempt_ok _ hnack]
      simp only [Queue.Operation.apply, MemoryQueue.nack] at hnack
      split at hnack
      · cases hnack
      · rw [← Except.ok.inj hnack]
        exact Nat.le_of_eq (Queue.place_perm _ _).length_eq

/-- A job that goes on does so less often from then on. If its message may be received again, it was begun before. -/
theorem wakeJob_expects (h : Expects w c.now j o) (hjobs : List.Forall₂ (Expects w c.now) c.jobs os) :
    ∃ next, List.Forall₂ (Expects w c.now) (c.wakeJob w j).jobs next ∧
      (c.wakeJob w j).receivable next ≤ c.receivable (o :: os) ∧
      timesLeft next + due c.now [j] ≤ timesLeft (o :: os) := by
  obtain ⟨time, hwake, hnow, hends⟩ := h
  have hlast : ∀ o : Outlook, (os ++ [o]).Perm (o :: os) := fun o => List.perm_append_singleton o os
  cases hdue : j.wake.any (· ≤ c.now) with
  | false =>
    have hnone : due c.now [j] = 0 := by simp [due, hdue]
    rw [wakeJob_asleep hdue, hnone]
    refine ⟨os ++ [o], List.rel_append hjobs (.cons ⟨time, hwake, hnow, hends⟩ .nil), ?_, ?_⟩
    · exact Nat.le_of_eq (c.receivable_perm (hlast o))
    · exact Nat.le_of_eq (timesLeft_perm (hlast o))
  | true =>
    have htime : time = c.now := Nat.le_antisymm (by simpa [hwake] using hdue) hnow
    subst htime
    have hone : due c.now [j] = 1 := by simp [due, hdue]
    obtain ⟨begun, left⟩ := o
    cases left with
    | zero => exact hends.elim
    | succ left =>
      have hsum : timesLeft (⟨begun, left + 1⟩ :: os) = left + 1 + timesLeft os := rfl
      have hgoes := hends c.world
      rcases hproceed : w.proceed c.now j.rest c.world with ⟨stage, world⟩
      rw [wakeJob_due hdue, hproceed, hone, hsum]
      rw [hproceed] at hgoes
      cases stage with
      | ended =>
        have hready : (settle false j.tag c.queue).ready.length ≤ c.queue.ready.length :=
          ready_settle false j.tag c.queue
        refine ⟨os, hjobs, ?_, by omega⟩
        exact Nat.le_trans (Nat.add_le_add_right hready _) (c.receivable_cons_le _ os)
      | brokeDown =>
        have hready : (settle true j.tag c.queue).ready.length ≤ c.queue.ready.length + 1 :=
          ready_settle true j.tag c.queue
        refine ⟨os, hjobs, ?_, by omega⟩
        show (settle true j.tag c.queue).ready.length + begunBefore c.now os ≤ _
        rw [receivable_cons hgoes, receivable]
        omega
      | waits wake rest =>
        cases wake with
        | none => exact hgoes.elim
        | some later =>
          obtain ⟨hlater, hrest⟩ := hgoes
          let o : Outlook := ⟨begun, left⟩
          have hnext : Expects w c.now { j with wake := some later, rest } o := ⟨later, rfl, hlater, hrest⟩
          refine ⟨os ++ [o], List.rel_append hjobs (.cons hnext .nil), ?_, ?_⟩
          · show c.receivable (os ++ [o]) ≤ c.receivable (o :: os)
            exact Nat.le_of_eq (c.receivable_perm (hlast o))
          · rw [timesLeft_perm (hlast o), timesLeft]
            exact Nat.le_of_eq (Nat.add_right_comm _ _ _)

theorem wakeJobs_frame (w : Worker σ τ) (c : Consumer σ τ) :
    (c.wakeJobs w).now = c.now ∧ (c.wakeJobs w).phase = c.phase ∧ (c.wakeJobs w).outer = c.outer := by
  unfold wakeJobs
  refine List.foldlRecOn (motive := fun d : Consumer σ τ => d.now = c.now ∧ d.phase = c.phase ∧ d.outer = c.outer)
    c.jobs _ ⟨rfl, rfl, rfl⟩ fun d hd j _ => ?_
  obtain ⟨hnow, hphase, houter⟩ := wakeJob_frame w d j
  exact ⟨hnow.trans hd.1, hphase.trans hd.2.1, houter.trans hd.2.2⟩

/-- Jobs that go on one after the other do so less often, by as many as are due. -/
theorem foldl_wakeJob_expects (h : List.Forall₂ (Expects w c.now) jobs os)
    (hjobs : List.Forall₂ (Expects w c.now) c.jobs others) :
    ∃ next, List.Forall₂ (Expects w c.now) (jobs.foldl (wakeJob w) c).jobs next ∧
      (jobs.foldl (wakeJob w) c).receivable next ≤ c.receivable (os ++ others) ∧
      timesLeft next + due c.now jobs ≤ timesLeft (os ++ others) := by
  induction jobs generalizing c os others with
  | nil =>
    cases h
    exact ⟨others, hjobs, Nat.le_refl _, Nat.le_refl _⟩
  | cons j jobs ih =>
    cases h with
    | @cons _ o _ os hj hrest =>
      have hnow := (wakeJob_frame w c j).1
      obtain ⟨first, hfirst, hqueue, hleft⟩ := wakeJob_expects hj hjobs
      obtain ⟨next, hnext, hqueue', hleft'⟩ := ih (c := c.wakeJob w j) (hnow ▸ hrest) (hnow ▸ hfirst)
      have hmiddle : (os ++ o :: others).Perm (o :: os ++ others) := List.perm_middle
      rw [hnow] at hnext hleft'
      rw [receivable_append, hnow] at hqueue'
      rw [timesLeft_append] at hleft'
      rw [List.foldl_cons, ← c.receivable_perm hmiddle, ← timesLeft_perm hmiddle, receivable_append,
        timesLeft_append, due_cons]
      exact ⟨next, hnext, Nat.le_trans hqueue' (Nat.add_le_add_left hqueue _), by omega⟩

theorem wakeJobs_expects (h : List.Forall₂ (Expects w c.now) c.jobs os) :
    ∃ next, List.Forall₂ (Expects w c.now) (c.wakeJobs w).jobs next ∧
      (c.wakeJobs w).receivable next ≤ c.receivable os ∧ timesLeft next + due c.now c.jobs ≤ timesLeft os := by
  have hfold := foldl_wakeJob_expects (c := { c with jobs := [] }) h .nil
  rwa [List.append_nil] at hfold

/-! ## Receiving -/

/-- The consumer looks at nothing before it has to: it is stopped, or goes on later than now. -/
def Phase.Later (setup : ConsumerSetup) (now : Nat) (p : Phase) : Prop :=
  p = .stopped ∨ ∃ time, Phase.next? setup.shutdown p = some time ∧ now < time

/-- What is received is not ready any more. -/
theorem ready_receive {q q' : MemoryQueue} {answer : Except Queue.Fault (Option Queue.Delivery)}
    (h : q.receive = (answer, q')) :
    q'.ready.length ≤ q.ready.length ∧ ∀ d, answer = .ok (some d) → q'.ready.length + 1 = q.ready.length := by
  unfold MemoryQueue.receive at h
  split at h
  · obtain ⟨rfl, rfl⟩ := Prod.mk.inj h
    exact ⟨Nat.le_refl _, fun _ heq => by cases heq⟩
  · split at h
    case h_1 =>
      obtain ⟨rfl, rfl⟩ := Prod.mk.inj h
      exact ⟨Nat.le_refl _, fun _ heq => by cases heq⟩
    case h_2 m rest hready =>
      dsimp only at h
      split at h
      · obtain ⟨rfl, rfl⟩ := Prod.mk.inj h
        exact ⟨by simp [hready], fun _ heq => by cases heq⟩
      · obtain ⟨rfl, rfl⟩ := Prod.mk.inj h
        exact ⟨by simp [hready], fun _ _ => by simp [hready]⟩

/-- The consumer looks again later, unless it is to stop. -/
theorem receive_later (setup : ConsumerSetup) (w : Worker σ τ) (places : Nat) (hopen : c.now < setup.shutdown) :
    Phase.Later setup c.now (c.receive setup w places).phase := by
  induction places generalizing c with
  | zero => exact .inr ⟨setup.shutdown, rfl, hopen⟩
  | succ places ih =>
    unfold Consumer.receive
    split
    case h_1 => exact .inr ⟨_, rfl, Nat.lt_min.2 ⟨Nat.lt_add_of_pos_right (by decide), hopen⟩⟩
    case h_2 => exact .inr ⟨_, rfl, Nat.lt_min.2 ⟨by unfold Queue.nextLook; omega, hopen⟩⟩
    case h_3 d queue _ =>
      exact ih (c := { c with
        queue, jobs := c.jobs ++ [⟨d.tag, some c.now, w.begin d.work⟩]
        mostJobs := max c.mostJobs (c.jobs ++ [(⟨d.tag, some c.now, w.begin d.work⟩ : Job τ)]).length }) hopen

theorem receive_frame (setup : ConsumerSetup) (w : Worker σ τ) (places : Nat) (c : Consumer σ τ) :
    (c.receive setup w places).now = c.now ∧ (c.receive setup w places).outer = c.outer := by
  induction places generalizing c with
  | zero => exact ⟨rfl, rfl⟩
  | succ places ih =>
    unfold Consumer.receive
    split
    case h_1 => exact ⟨rfl, rfl⟩
    case h_2 => exact ⟨rfl, rfl⟩
    case h_3 => exact ih _

/-- Less may be received once something has been, and the jobs that are begun with it end as all do. -/
theorem receive_expects (setup : ConsumerSetup) (hterminates : w.Terminates) (places : Nat)
    (hjobs : List.Forall₂ (Expects w c.now) c.jobs os) :
    ∃ next, List.Forall₂ (Expects w c.now) (c.receive setup w places).jobs next ∧
      ((c.receive setup w places).receivable next < c.receivable os ∨
        (c.receive setup w places).receivable next ≤ c.receivable os ∧ timesLeft next ≤ timesLeft os) := by
  induction places generalizing c os with
  | zero => exact ⟨os, hjobs, .inr ⟨Nat.le_refl _, Nat.le_refl _⟩⟩
  | succ places ih =>
    unfold Consumer.receive
    split
    case h_1 f queue hlook =>
      exact ⟨os, hjobs, .inr ⟨Nat.add_le_add_right (ready_receive (Queue.receive_of_look hlook)).1 _, Nat.le_refl _⟩⟩
    case h_2 queue hlook =>
      exact ⟨os, hjobs, .inr ⟨Nat.add_le_add_right (ready_receive (Queue.receive_of_look hlook)).1 _, Nat.le_refl _⟩⟩
    case h_3 d queue hlook =>
      obtain ⟨left, hends⟩ := hterminates d.work c.now
      let j : Job τ := ⟨d.tag, some c.now, w.begin d.work⟩
      let begun : Consumer σ τ :=
        { c with queue, jobs := c.jobs ++ [j], mostJobs := max c.mostJobs (c.jobs ++ [j]).length }
      have hbegun : List.Forall₂ (Expects w c.now) (c.jobs ++ [j]) (os ++ [⟨c.now, left⟩]) :=
        List.rel_append hjobs (.cons ⟨c.now, rfl, Nat.le_refl _, hends⟩ .nil)
      have hless : begun.receivable (os ++ [⟨c.now, left⟩]) + 1 = c.receivable os := by
        have hready := (ready_receive (Queue.receive_of_look hlook)).2 d rfl
        have hnew : begunBefore c.now (os ++ [⟨c.now, left⟩]) = begunBefore c.now os := by simp [begunBefore]
        show queue.ready.length + begunBefore c.now (os ++ [⟨c.now, left⟩]) + 1 = c.queue.ready.length + _
        omega
      obtain ⟨next, hnext, hfewer⟩ := ih (c := begun) hbegun
      have hlast : (begun.receive setup w places).receivable next < c.receivable os := by omega
      exact ⟨next, hnext, .inl hlast⟩

/-- Whatever the consumer does, it goes on later, or has stopped. -/
theorem attend_later (setup : ConsumerSetup) (w : Worker σ τ) (c : Consumer σ τ) :
    Phase.Later setup c.now (c.attend setup w).phase := by
  unfold attend
  split
  case isTrue hstopped => exact .inl hstopped
  case isFalse hgoing =>
    split
    case isTrue => exact .inl rfl
    case isFalse hopen =>
      rw [Nat.not_le] at hopen
      split
      case isTrue => exact receive_later setup w _ hopen
      case isFalse hdue =>
        cases hphase : c.phase with
        | place => exact absurd (by rw [hphase]; rfl) hdue
        | look time =>
          rw [hphase] at hdue
          have htime : c.now < time := Nat.lt_of_not_le fun hle => hdue (decide_eq_true hle)
          exact .inr ⟨_, rfl, Nat.lt_min.2 ⟨htime, hopen⟩⟩
        | retry time =>
          rw [hphase] at hdue
          have htime : c.now < time := Nat.lt_of_not_le fun hle => hdue (decide_eq_true hle)
          exact .inr ⟨_, rfl, Nat.lt_min.2 ⟨htime, hopen⟩⟩
        | stopped => exact absurd hphase hgoing

/-- The consumer changes what it waits for, or receives. What has stopped does not do so. -/
theorem attend_cases (setup : ConsumerSetup) (w : Worker σ τ) (c : Consumer σ τ) :
    (∃ phase, c.attend setup w = { c with phase } ∧ (c.phase = .stopped → phase = .stopped)) ∨
      c.phase ≠ .stopped ∧ ∃ places, c.attend setup w = c.receive setup w places := by
  unfold attend
  split
  case isTrue => exact .inl ⟨c.phase, rfl, id⟩
  case isFalse hgoing =>
    split
    case isTrue => exact .inl ⟨.stopped, rfl, fun _ => rfl⟩
    case isFalse =>
      split
      case isTrue => exact .inr ⟨hgoing, _, rfl⟩
      case isFalse => exact .inl ⟨c.phase, rfl, id⟩

/-! ## Moments -/

/-- What is still to happen happens later. -/
theorem happen_later (c : Consumer σ τ) : ∀ o ∈ c.happen.outer.head?, c.now < o.1 := by
  intro o ho
  have hdrop : c.happen.outer = c.outer.dropWhile fun o => o.1 ≤ c.now :=
    List.append_cancel_left
      ((List.prefix_iff_eq_append.1 (List.takeWhile_prefix _)).trans List.takeWhile_append_dropWhile.symm)
  have hhead := List.head?_dropWhile_not (fun o : Nat × Outer => decide (o.1 ≤ c.now)) c.outer
  rw [← hdrop, ho] at hhead
  simpa using hhead

/-- Where all is to happen later, nothing happens. -/
theorem happen_of_later (h : ∀ o ∈ c.outer.head?, c.now < o.1) : c.happen = c := by
  have hnone : (c.outer.takeWhile fun o => decide (o.1 ≤ c.now)) = [] := by
    cases houter : c.outer with
    | nil => rfl
    | cons o outer =>
      rw [houter] at h
      exact List.takeWhile_cons_of_neg (by simpa using h o rfl)
  unfold happen
  rw [hnone]
  rfl

/-- What is to happen now does so, and is not to happen any more. -/
theorem happen_fewer (c : Consumer σ τ) : c.happen.outer.length ≤ c.outer.length ∧
    ∀ o ∈ c.outer.head?, o.1 ≤ c.now → c.happen.outer.length < c.outer.length := by
  let due := c.outer.takeWhile fun o => decide (o.1 ≤ c.now)
  have hlength : c.happen.outer.length = c.outer.length - due.length := List.length_drop
  refine ⟨hlength ▸ Nat.sub_le _ _, fun o ho hnow => ?_⟩
  have hdue : 0 < due.length := by
    cases houter : c.outer with
    | nil => simp [houter] at ho
    | cons first outer =>
      obtain rfl : first = o := by simpa [houter] using ho
      simp [due, houter, hnow]
  have hsome : due.length ≤ c.outer.length := (List.takeWhile_prefix _).length_le
  omega

theorem moment_frame (setup : ConsumerSetup) (w : Worker σ τ) (c : Consumer σ τ) :
    (c.moment setup w).now = c.now ∧ (c.moment setup w).outer = c.happen.outer ∧
      (c.phase = .stopped → (c.moment setup w).phase = .stopped) := by
  obtain ⟨hnow, hphase, houter⟩ := wakeJobs_frame w c.happen
  unfold moment
  obtain ⟨phase, heq, hstays⟩ | ⟨hgoing, places, heq⟩ := attend_cases setup w (c.happen.wakeJobs w)
  · rw [heq]
    exact ⟨hnow, houter, fun hstopped => hstays (hphase.trans hstopped)⟩
  · obtain ⟨hnow', houter'⟩ := receive_frame setup w places (c.happen.wakeJobs w)
    rw [heq]
    exact ⟨hnow'.trans hnow, houter'.trans houter, fun hstopped => absurd (hphase.trans hstopped) hgoing⟩

/-- Where a consumer is once all that happens at a moment has happened: only jobs may go on now. -/
structure Paced (setup : ConsumerSetup) (w : Worker σ τ) (c : Consumer σ τ) (os : List Outlook) : Prop where
  jobs : List.Forall₂ (Expects w c.now) c.jobs os
  later : Phase.Later setup c.now c.phase
  outer : ∀ o ∈ c.outer.head?, c.now < o.1

/-- Less may be received afterwards, or the jobs go on less often, by as many as were due; once the consumer has
stopped, it is the latter. -/
theorem moment_paced (setup : ConsumerSetup) (hterminates : w.Terminates)
    (hjobs : List.Forall₂ (Expects w c.now) c.jobs os) :
    ∃ next, (c.moment setup w).Paced setup w next ∧
      ((c.moment setup w).receivable next < c.happen.receivable os ∨
        (c.moment setup w).receivable next ≤ c.happen.receivable os ∧
          timesLeft next + due c.now c.jobs ≤ timesLeft os) ∧
      (c.phase = .stopped → timesLeft next + due c.now c.jobs ≤ timesLeft os) := by
  obtain ⟨hnow, hphase, -⟩ := wakeJobs_frame w c.happen
  obtain ⟨hnow', houter, -⟩ := moment_frame setup w c
  obtain ⟨woken, hwoken, hqueue, hleft⟩ := wakeJobs_expects (c := c.happen) hjobs
  have hlater := attend_later setup w (c.happen.wakeJobs w)
  rw [hnow] at hlater
  have hpaced : ∀ {next}, List.Forall₂ (Expects w c.now) (c.moment setup w).jobs next →
      (c.moment setup w).Paced setup w next := fun hnext =>
    ⟨hnow'.symm ▸ hnext, hnow'.symm ▸ hlater, by rw [houter, hnow']; exact happen_later c⟩
  obtain ⟨phase, heq, -⟩ | ⟨hgoing, places, heq⟩ := attend_cases setup w (c.happen.wakeJobs w)
  · have hmoment : c.moment setup w = { c.happen.wakeJobs w with phase } := heq
    rw [hmoment] at hpaced ⊢
    exact ⟨woken, hpaced hwoken, .inr ⟨hqueue, hleft⟩, fun _ => hleft⟩
  · have hmoment : c.moment setup w = (c.happen.wakeJobs w).receive setup w places := heq
    obtain ⟨next, hnext, hfewer⟩ := receive_expects setup hterminates places (hnow.symm ▸ hwoken)
    rw [hnow] at hnext
    rw [hmoment] at hpaced ⊢
    have hleft' : timesLeft woken + due c.now c.jobs ≤ timesLeft os := hleft
    exact ⟨next, hpaced hnext, by omega, fun hstopped => absurd (hphase.trans hstopped) hgoing⟩

/-! ## Steps -/

theorem next?_le {shutdown time : Nat} {p : Phase} (h : Phase.next? shutdown p = some time) : time ≤ shutdown := by
  cases p with
  | place => exact Nat.le_of_eq (Option.some.inj h).symm
  | look _ => exact Option.some.inj h ▸ Nat.min_le_right _ _
  | retry _ => exact Option.some.inj h ▸ Nat.min_le_right _ _
  | stopped => cases h

/-- Something is to happen at the time. -/
def Scheduled (setup : ConsumerSetup) (c : Consumer σ τ) (time : Nat) : Prop :=
  (∃ j ∈ c.jobs, j.wake = some time) ∨ Phase.next? setup.shutdown c.phase = some time ∨
    ∃ o ∈ c.outer.head?, o.1 = time

/-- It goes on at the first time at which something is to happen. -/
theorem next?_spec {time : Nat} (h : c.Scheduled setup time) :
    ∃ first, c.Scheduled setup first ∧ first ≤ time ∧ c.next? setup = some (max c.now first) ∧
      ∀ time, c.Scheduled setup time → first ≤ time := by
  let times := c.jobs.filterMap (·.wake) ++ (Phase.next? setup.shutdown c.phase).toList ++
    (c.outer.head?.map Prod.fst).toList
  have hmem : ∀ time, time ∈ times ↔ c.Scheduled setup time := fun time => by
    simp only [times, Scheduled, List.mem_append, List.mem_filterMap, Option.mem_toList, Option.mem_def,
      Option.map_eq_some_iff, or_assoc]
  cases hfirst : times.min? with
  | none =>
    rw [List.min?_eq_none_iff] at hfirst
    exact absurd ((hmem time).2 h) (hfirst ▸ List.not_mem_nil)
  | some first =>
    obtain ⟨hin, hle⟩ := List.min?_eq_some_iff.1 hfirst
    refine ⟨first, (hmem first).1 hin, hle time ((hmem time).2 h), ?_, fun later hlater =>
      hle later ((hmem later).2 hlater)⟩
    show times.min?.map _ = _
    rw [hfirst]
    rfl

/-- Something is to happen as long as the consumer is not done. -/
theorem Paced.scheduled (h : c.Paced setup w os) (hgoing : c.isDone = false) : ∃ time, c.Scheduled setup time := by
  rcases h.later with hstopped | ⟨time, htime, -⟩
  · cases hjobs : c.jobs with
    | nil => simp [isDone, hstopped, hjobs] at hgoing
    | cons j jobs =>
      obtain _ | ⟨⟨time, hwake, -⟩, -⟩ := hjobs ▸ h.jobs
      exact ⟨time, .inl ⟨j, hjobs ▸ List.mem_cons_self, hwake⟩⟩
  · exact ⟨time, .inr (.inl htime)⟩

/-- It goes on at the first time at which something is to happen, and no job has been to go on before. -/
theorem Paced.next (h : c.Paced setup w os) (hgoing : c.isDone = false) :
    ∃ first, c.Scheduled setup first ∧ (∀ time, c.Scheduled setup time → first ≤ time) ∧
      c.step setup w = Consumer.moment setup w { c with now := max c.now first } ∧
      List.Forall₂ (Expects w (max c.now first)) c.jobs os := by
  obtain ⟨time, htime⟩ := h.scheduled hgoing
  obtain ⟨first, hfirst, -, hnext, hle⟩ := next?_spec htime
  refine ⟨first, hfirst, hle, ?_, ?_⟩
  · unfold Consumer.step
    rw [hgoing, hnext]
    rfl
  · refine ((List.forall₂_and_left c.jobs os).2 ⟨fun j hj => hj, h.jobs⟩).imp fun j o hj => ?_
    obtain ⟨hmem, time, hwake, hnow, hends⟩ := hj
    exact ⟨time, hwake, Nat.max_le.2 ⟨hnow, hle time (.inl ⟨j, hmem, hwake⟩)⟩, hends⟩

/-- A consumer that has not stopped goes on later, but not after it is told to, or less is to happen now. -/
theorem Paced.step_going (h : c.Paced setup w os) (hterminates : w.Terminates) (hphase : c.phase ≠ .stopped) :
    ∃ next, (c.step setup w).Paced setup w next ∧
      (c.now < (c.step setup w).now ∧ (c.step setup w).now ≤ setup.shutdown ∨
        (c.step setup w).now = c.now ∧ ((c.step setup w).receivable next < c.receivable os ∨
          (c.step setup w).receivable next ≤ c.receivable os ∧ timesLeft next < timesLeft os)) := by
  have hgoing : c.isDone = false := Bool.and_eq_false_imp.2 fun heq => absurd (eq_of_beq heq) hphase
  obtain ⟨first, hfirst, hle, hstep, hjobs⟩ := h.next hgoing
  obtain ⟨next, hnext, hspent, -⟩ := moment_paced (c := { c with now := max c.now first }) setup hterminates hjobs
  have hnow := (moment_frame setup w { c with now := max c.now first }).1
  rw [hstep, hnow]
  refine ⟨next, hnext, ?_⟩
  obtain ⟨told, htold, hlater⟩ := h.later.resolve_left hphase
  rcases Nat.lt_or_ge c.now first with hpasses | hstands
  · have hshut := next?_le htold
    have hsoon := hle told (.inr (.inl htold))
    exact .inl ⟨Nat.lt_of_lt_of_le hpasses (Nat.le_max_right _ _), Nat.max_le.2 ⟨by omega, by omega⟩⟩
  · -- all else goes on later, so it is a job that goes on
    have hsame : max c.now first = c.now := Nat.max_eq_left hstands
    rw [hsame] at hspent ⊢
    rw [happen_of_later h.outer] at hspent
    dsimp only at hspent
    have hdue : 0 < due c.now c.jobs := by
      rcases hfirst with ⟨j, hj, hwake⟩ | hphase' | ⟨o, ho, rfl⟩
      · exact due_pos hj hwake hstands
      · have heq : told = first := Option.some.inj (htold.symm.trans hphase')
        omega
      · exact absurd hstands (Nat.not_le.2 (h.outer o ho))
    exact .inr ⟨rfl, hspent.imp_right (And.imp_right fun hleft => by omega)⟩

/-- Once it has stopped, jobs go on less often with every step, or less is still to happen. -/
theorem Paced.step_stopped (h : c.Paced setup w os) (hterminates : w.Terminates) (hstopped : c.phase = .stopped)
    (hgoing : c.isDone = false) :
    ∃ next, (c.step setup w).Paced setup w next ∧ (c.step setup w).phase = .stopped ∧
      timesLeft next + (c.step setup w).outer.length < timesLeft os + c.outer.length := by
  obtain ⟨first, hfirst, -, hstep, hjobs⟩ := h.next hgoing
  obtain ⟨next, hnext, -, hleft⟩ := moment_paced (c := { c with now := max c.now first }) setup hterminates hjobs
  have hspent := hleft hstopped
  obtain ⟨-, houter, hstays⟩ := moment_frame setup w { c with now := max c.now first }
  obtain ⟨hfewer, hhappens⟩ := happen_fewer { c with now := max c.now first }
  rw [hstep, houter]
  refine ⟨next, hnext, hstays hstopped, ?_⟩
  rcases hfirst with ⟨j, hj, hwake⟩ | hphase | ⟨o, ho, rfl⟩
  · have hdue := due_pos hj hwake (Nat.le_max_right c.now first)
    dsimp only at hspent hfewer
    omega
  · rw [hstopped] at hphase
    cases hphase
  · have hfewer' := hhappens o ho (Nat.le_max_right _ _)
    dsimp only at hspent hfewer'
    omega

/-! ## Runs -/

theorem goOn_step (setup : ConsumerSetup) (w : Worker σ τ) (hgoing : c.isDone = false) (steps : Nat) :
    c.goOn setup w (steps + 1) = (c.step setup w).goOn setup w steps := by
  rw [Consumer.goOn, hgoing]
  rfl

/-- A consumer that has stopped is done once its last job is over. -/
theorem Paced.done_of_stopped (h : c.Paced setup w os) (hterminates : w.Terminates) (hstopped : c.phase = .stopped) :
    ∃ steps, (c.goOn setup w steps).isDone := by
  induction hleft : timesLeft os + c.outer.length using Nat.strong_induction_on generalizing c os with
  | h left ih =>
    cases hdone : c.isDone with
    | true => exact ⟨0, hdone⟩
    | false =>
      obtain ⟨next, hnext, hstays, hless⟩ := h.step_stopped hterminates hstopped hdone
      obtain ⟨steps, hsteps⟩ := ih _ (hleft ▸ hless) hnext hstays rfl
      exact ⟨steps + 1, goOn_step setup w hdone steps ▸ hsteps⟩

/-- It stops when it is told to. Until then time passes, or less is to happen. -/
theorem Paced.done {c : Consumer σ τ} {os : List Outlook} (h : c.Paced setup w os) (hterminates : w.Terminates) :
    ∃ steps, (c.goOn setup w steps).isDone := by
  by_cases hstopped : c.phase = .stopped
  · exact h.done_of_stopped hterminates hstopped
  have hdone : c.isDone = false := Bool.and_eq_false_imp.2 fun heq => absurd (eq_of_beq heq) hstopped
  obtain ⟨next, hnext, hless⟩ := h.step_going hterminates hstopped
  obtain ⟨steps, hsteps⟩ := hnext.done hterminates
  exact ⟨steps + 1, goOn_step setup w hdone steps ▸ hsteps⟩
termination_by (setup.shutdown - c.now, c.receivable os, timesLeft os)
decreasing_by
  simp only [Prod.lex_def]
  omega

theorem goOn_add (c : Consumer σ τ) (steps more : Nat) :
    c.goOn setup w (steps + more) = (c.goOn setup w steps).goOn setup w more := by
  induction more with
  | zero => rfl
  | succ more ih => rw [← Nat.add_assoc, goOn_succ, goOn_succ, ih]

end Consumer

end Pipeworks.Runner
