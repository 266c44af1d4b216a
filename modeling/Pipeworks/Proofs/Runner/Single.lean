/-
A consumer that one message waits for. Its job is begun at once and goes on at the times it waits for, whatever
the consumer does meanwhile; once it has ended the message is gone for good, and nothing changes any more
(`run_single`).
-/
import Pipeworks.Proofs.Runner.Completion

namespace Pipeworks.Runner

open Queue (Message)

variable {σ τ : Type}

/-! ## Jobs that come to an end -/

/-- A job that goes on at a time comes to its end, going on at one later time after another. -/
inductive Worker.Finishes (w : Worker σ τ) : Nat → τ → σ → σ → Prop
  | ended {now : Nat} {job : τ} {s s' : σ} : w.proceed now job s = (.ended, s') → Finishes w now job s s'
  | waits {now time : Nat} {job rest : τ} {s s₁ s' : σ} :
      w.proceed now job s = (.waits (some time) rest, s₁) → now < time → Finishes w time rest s₁ s' →
      Finishes w now job s s'

theorem Worker.Finishes.congr {w : Worker σ τ} {now : Nat} {job job' : τ} {s s₁ s' : σ}
    (h : w.Finishes now job' s₁ s') (hsame : w.proceed now job s = w.proceed now job' s₁) :
    w.Finishes now job s s' := by
  cases h with
  | ended hended => exact .ended (hsame.trans hended)
  | waits hwaits hlater hrest => exact .waits (hsame.trans hwaits) hlater hrest

namespace Consumer

variable {setup : ConsumerSetup} {w : Worker σ τ} {c : Consumer σ τ} {final : σ} {m : Message} {work : Work}

/-! ## One moment -/

theorem happen_none (hnone : c.outer = []) : c.happen = c :=
  happen_of_later fun o ho => by
    rw [hnone] at ho
    cases ho

/-- A consumer whose queue is empty receives nothing. -/
theorem receive_none (setup : ConsumerSetup) (w : Worker σ τ) (places : Nat) (hup : c.queue.unavailable = false)
    (hready : c.queue.ready = []) : ∃ phase, c.receive setup w places = { c with phase } := by
  have hreceive : c.queue.receive = (.ok none, c.queue) := by
    unfold MemoryQueue.receive
    simp only [hup, hready, Bool.false_eq_true, if_false]
  have hlook : Queue.look c.queue = (none, c.queue) := Queue.look_of_receive hreceive
  cases places with
  | zero => exact ⟨.place, rfl⟩
  | succ places =>
    refine ⟨.look (Queue.nextLook setup.poll c.now), ?_⟩
    unfold receive
    rw [hlook]

/-- It only changes what it waits for, and that for later. -/
theorem attend_none (setup : ConsumerSetup) (w : Worker σ τ) (hup : c.queue.unavailable = false)
    (hready : c.queue.ready = []) :
    ∃ phase, c.attend setup w = { c with phase } ∧ Phase.Later setup c.now phase := by
  have hphase : ∃ phase, c.attend setup w = { c with phase } := by
    unfold attend
    split
    · exact ⟨c.phase, rfl⟩
    · split
      · exact ⟨.stopped, rfl⟩
      · split
        · exact receive_none setup w _ hup hready
        · exact ⟨c.phase, rfl⟩
  obtain ⟨phase, heq⟩ := hphase
  have hlater := attend_later setup w c
  rw [heq] at hlater
  exact ⟨phase, heq, hlater⟩

/-! ## Once the job has ended -/

/-- Nothing is left to do, and the world is as the job has left it. -/
structure Over (final : σ) (c : Consumer σ τ) : Prop where
  outer : c.outer = []
  up : c.queue.unavailable = false
  ready : c.queue.ready = []
  settled : c.queue.inFlight = []
  jobs : c.jobs = []
  world : c.world = final

theorem Over.step (h : c.Over final) : (c.step setup w).Over final := by
  unfold Consumer.step
  split
  · exact h
  · split
    · exact h
    case h_2 now _ =>
      have hawake : wakeJobs w { c with now } = { c with now } := by
        unfold wakeJobs
        simp only [h.jobs, List.foldl_nil]
      obtain ⟨phase, heq, -⟩ := attend_none (c := { c with now }) setup w h.up h.ready
      unfold moment
      rw [happen_none (c := { c with now }) h.outer, hawake, heq]
      exact ⟨h.outer, h.up, h.ready, h.settled, h.jobs, h.world⟩

theorem Over.goOn (h : c.Over final) (steps : Nat) : (c.goOn setup w steps).Over final := by
  induction steps with
  | zero => exact h
  | succ steps ih =>
    rw [goOn_succ]
    exact ih.step

/-! ## While the job is in progress -/

/-- Nothing is left to do but a single job, which goes on at a time. -/
structure Busy (setup : ConsumerSetup) (m : Message) (job : τ) (wake : Nat) (c : Consumer σ τ) : Prop where
  outer : c.outer = []
  up : c.queue.unavailable = false
  ready : c.queue.ready = []
  leased : c.queue.inFlight = [m]
  jobs : c.jobs = [⟨m.tag, some wake, job⟩]
  due : c.now ≤ wake
  later : Phase.Later setup c.now c.phase

variable {job rest : τ} {wake time : Nat} {s : σ}

theorem Busy.going (h : c.Busy setup m job wake) : c.isDone = false := by
  unfold isDone
  rw [h.jobs]
  exact Bool.and_false _

/-- The next moment comes no later than the job has to go on. -/
theorem Busy.next (h : c.Busy setup m job wake) :
    ∃ now, c.next? setup = some now ∧ now ≤ wake ∧ (now = wake ∨ c.now < now) := by
  have hdue := h.due
  unfold next?
  rw [h.jobs, h.outer]
  rcases h.later with hstopped | ⟨time, htime, hlater⟩
  · rw [hstopped]
    refine ⟨max c.now wake, rfl, ?_, .inl ?_⟩ <;> omega
  · rw [htime]
    refine ⟨max c.now (min wake time), rfl, ?_, ?_⟩ <;> omega

/-- Once its job has ended, the message is acknowledged and gone. -/
theorem settle_leased {q : MemoryQueue} (hleased : q.inFlight = [m]) :
    settle false m.tag q = { q with inFlight := [] } := by
  have hfound : q.leased? m.tag = some m := by
    unfold MemoryQueue.leased?
    rw [hleased]
    exact List.find?_cons_of_pos (beq_self_eq_true _)
  have hgone : q.release m.tag = [] := by
    unfold MemoryQueue.release
    rw [hleased]
    exact List.filter_cons_of_neg (by simp [Message.tag])
  have hack : (Queue.Operation.ack m.tag).apply q = .ok { q with inFlight := [] } := by
    show q.ack m.tag = _
    unfold MemoryQueue.ack
    rw [hfound, hgone]
  exact MemoryQueue.attempt_ok _ hack

/-- The job goes on when it is due, and until then only time passes. -/
theorem Busy.step (h : c.Busy setup m job wake) (w : Worker σ τ) :
    ((c.step setup w).Busy setup m job wake ∧ (c.step setup w).world = c.world ∧ c.now < (c.step setup w).now) ∨
    (∀ s, w.proceed wake job c.world = (.ended, s) → (c.step setup w).Over s) ∧
    ∀ time rest s, w.proceed wake job c.world = (.waits (some time) rest, s) → wake < time →
      (c.step setup w).Busy setup m rest time ∧ (c.step setup w).world = s := by
  obtain ⟨now, hnext, hle, hnow⟩ := h.next
  have hstep : c.step setup w = (wakeJob w { c with now, jobs := [] } ⟨m.tag, some wake, job⟩).attend setup w := by
    unfold Consumer.step
    simp only [h.going, hnext, Bool.false_eq_true, if_false]
    unfold moment
    rw [happen_none (c := { c with now }) h.outer]
    unfold wakeJobs
    simp only [h.jobs, List.foldl_cons, List.foldl_nil]
  by_cases hwake : now = wake
  case pos =>
    subst hwake
    -- the job is due, and it ends or goes to sleep again
    refine .inr ⟨fun s hended => ?_, fun time rest s hwaits hlater => ?_⟩
    · have hwoken : wakeJob w { c with now, jobs := [] } ⟨m.tag, some now, job⟩ =
          { c with now, jobs := [], world := s, queue := { c.queue with inFlight := [] } } := by
        unfold wakeJob
        simp only [Option.any_some, Nat.le_refl, decide_true, if_true, hended, settle_leased h.leased]
      obtain ⟨phase, heq, -⟩ := attend_none
        (c := { c with now, jobs := [], world := s, queue := { c.queue with inFlight := [] } }) setup w h.up
        h.ready
      rw [hstep, hwoken, heq]
      exact ⟨h.outer, h.up, h.ready, rfl, rfl, rfl⟩
    · have hwoken : wakeJob w { c with now, jobs := [] } ⟨m.tag, some now, job⟩ =
          { c with now, jobs := [⟨m.tag, some time, rest⟩], world := s } := by
        unfold wakeJob
        simp only [Option.any_some, Nat.le_refl, decide_true, if_true, hwaits, List.nil_append]
      obtain ⟨phase, heq, hphase⟩ := attend_none
        (c := { c with now, jobs := [⟨m.tag, some time, rest⟩], world := s }) setup w h.up h.ready
      rw [hstep, hwoken, heq]
      exact ⟨⟨h.outer, h.up, h.ready, h.leased, rfl, Nat.le_of_lt hlater, hphase⟩, rfl⟩
  case neg =>
    -- it is the consumer that is due, which finds nothing
    have hlater : now < wake := Nat.lt_of_le_of_ne hle hwake
    have hasleep : wakeJob w { c with now, jobs := [] } ⟨m.tag, some wake, job⟩ = { c with now } := by
      unfold wakeJob
      simp only [Option.any_some, decide_eq_false (Nat.not_le.2 hlater), Bool.false_eq_true, if_false,
        List.nil_append]
      rw [← h.jobs]
    obtain ⟨phase, heq, hphase⟩ := attend_none (c := { c with now }) setup w h.up h.ready
    rw [hstep, hasleep, heq]
    exact .inl ⟨⟨h.outer, h.up, h.ready, h.leased, h.jobs, hle, hphase⟩, rfl, hnow.resolve_left hwake⟩

/-- After some steps the job has gone on as it does when it is due. -/
theorem Busy.goOn (h : c.Busy setup m job wake) (w : Worker σ τ) :
    ∃ steps, (∀ s, w.proceed wake job c.world = (.ended, s) → (c.goOn setup w steps).Over s) ∧
      ∀ time rest s, w.proceed wake job c.world = (.waits (some time) rest, s) → wake < time →
        (c.goOn setup w steps).Busy setup m rest time ∧ (c.goOn setup w steps).world = s := by
  have hfirst := goOn_step setup w h.going
  -- the time until it is due gets shorter
  induction hleft : wake - c.now using Nat.strong_induction_on generalizing c with
  | h left ih =>
    obtain ⟨hbusy, hworld, hnow⟩ | hdue := h.step w
    · have hdue := hbusy.due
      obtain ⟨steps, hsteps⟩ := ih _ (by omega) hbusy (goOn_step setup w hbusy.going) rfl
      refine ⟨steps + 1, ?_⟩
      rw [hfirst, ← hworld]
      exact hsteps
    · refine ⟨1, ?_⟩
      rw [hfirst]
      exact hdue

/-- Step by step the job comes to its end. -/
theorem Busy.ends (hfinishes : w.Finishes wake job s final) (h : c.Busy setup m job wake) (hworld : c.world = s) :
    ∃ steps, (c.goOn setup w steps).Over final := by
  induction hfinishes generalizing c with
  | ended hended =>
    obtain ⟨steps, hover, -⟩ := h.goOn w
    exact ⟨steps, hover _ (hworld ▸ hended)⟩
  | waits hwaits hlater _ ih =>
    obtain ⟨steps, -, hbusy⟩ := h.goOn w
    obtain ⟨hbusy, hworld'⟩ := hbusy _ _ _ (hworld ▸ hwaits) hlater
    obtain ⟨more, hover⟩ := ih hbusy hworld'
    exact ⟨steps + more, goOn_add c steps more ▸ hover⟩

/-! ## The whole run -/

/-- The first moment begins the job of the message. -/
theorem busy_moment {q : MemoryQueue} (world : σ) (hup : q.unavailable = false) (hready : q.ready = [m])
    (hleased : q.inFlight = []) (hwork : m.payload = work.payload) (hplaces : 0 < setup.maxParallel)
    (hopen : 0 < setup.shutdown) (w : Worker σ τ) :
    let c := ({ queue := q, world } : Consumer σ τ).moment setup w
    c.Busy setup m.delivered (w.begin work) 0 ∧ c.world = world := by
  obtain ⟨places, hplaces⟩ := Nat.exists_eq_succ_of_ne_zero (Nat.ne_of_gt hplaces)
  have hlook : Queue.look q = (some (.ok _), _) :=
    Queue.look_of_receive (MemoryQueue.receive_oldest hup hready hwork)
  let begun : Consumer σ τ :=
    { queue := { q with ready := [], inFlight := [m.delivered] }, world, jobs := [⟨m.tag, some 0, w.begin work⟩]
      mostJobs := 1 }
  have hmoment : ({ queue := q, world } : Consumer σ τ).moment setup w = begun.receive setup w places := by
    unfold moment
    rw [happen_none rfl]
    unfold attend
    -- it is not stopped, it has not to stop yet, and it may receive
    rw [if_neg (by exact nofun), if_neg (by exact Nat.not_le.2 hopen), if_pos (by rfl)]
    show receive setup w (setup.maxParallel - 0) { queue := q, world } = _
    rw [Nat.sub_zero, hplaces, Nat.succ_eq_add_one, Consumer.receive, hlook, hleased]
    rfl
  obtain ⟨phase, heq⟩ := receive_none (c := begun) setup w places hup rfl
  have hlater := receive_later (c := begun) setup w places hopen
  rw [heq] at hlater
  intro c
  show (Consumer.moment setup w _).Busy setup _ _ _ ∧ (Consumer.moment setup w _).world = _
  rw [hmoment, heq]
  exact ⟨⟨rfl, hup, rfl, rfl, rfl, Nat.le_refl _, hlater⟩, rfl⟩

/-- A message whose job comes to its end is gone after some steps, and the world is as the job has left it. -/
theorem run_single {q : MemoryQueue} {world : σ} (hup : q.unavailable = false) (hready : q.ready = [m])
    (hleased : q.inFlight = []) (hwork : m.payload = work.payload) (hplaces : 0 < setup.maxParallel)
    (hopen : 0 < setup.shutdown) (hfinishes : w.Finishes 0 (w.begin work) world final) :
    ∃ enough, ∀ steps, enough ≤ steps → (Consumer.run setup w steps { queue := q, world }).Over final := by
  obtain ⟨hbusy, hworld⟩ := busy_moment world hup hready hleased hwork hplaces hopen w
  obtain ⟨enough, hover⟩ := hbusy.ends hfinishes hworld
  refine ⟨enough, fun steps hsteps => ?_⟩
  obtain ⟨more, rfl⟩ := Nat.exists_eq_add_of_le hsteps
  unfold run
  rw [goOn_add]
  exact hover.goOn more

end Consumer

end Pipeworks.Runner
