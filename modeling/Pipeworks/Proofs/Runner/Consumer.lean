/-
Runs of a consumer as courses of its pool: whatever happens at a moment, the pool goes on by its events
(`Pooled`). So what is kept in a pool holds of every run, for every worker and whatever others do to the queue.
-/
import Pipeworks.Proofs.Queue.Reader
import Pipeworks.Proofs.Runner.Pool

namespace Pipeworks.Runner

open Queue (Message Delivery Operation)

/-- What others may do to the queue of a consumer. -/
inductive Chance where
  | sent (work : Work)
  /-- The queue fails from now on, or works again. -/
  | unavailable (on : Bool)

def Chance.outer : Chance → Outer
  | .sent work => .operation (.send work)
  | .unavailable on => .operation (.unavailable on)

namespace Phase

/-- Whether a place is taken to receive with. -/
def holds : Phase → Bool
  | .look _ => true
  | _ => false

@[simp]
theorem holds_place : place.holds = false := rfl

@[simp]
theorem holds_look (time : Nat) : (look time).holds := rfl

@[simp]
theorem holds_retry (time : Nat) : (retry time).holds = false := rfl

@[simp]
theorem holds_stopped : stopped.holds = false := rfl

end Phase

variable {σ τ : Type} {setup : ConsumerSetup} {w : Worker σ τ} {max : Nat} {world : σ} {s s' : Pool σ τ}
  {e : Happening} {before : List Happening} {c : Consumer σ τ}

/-! ## Pools that are reached -/

/-- What has happened before may go on so that it leads to the pool. -/
def Reached (w : Worker σ τ) (max : Nat) (world : σ) (before : List Happening) (s : Pool σ τ) : Prop :=
  ∃ more, Reaches w max world (before ++ more) s

theorem Reached.goes (h : Reached w max world before s) (hgoes : Goes w s e s') :
    Reached w max world before s' := by
  obtain ⟨more, hmore⟩ := h
  exact ⟨more ++ [e], List.append_assoc before more [e] ▸ hmore.goes hgoes⟩

theorem Reached.chance (h : Reached w max world before s) (x : Chance) :
    Reached w max world before { s with queue := x.outer.apply s.queue } := by
  cases x with
  | sent work =>
    show Reached w max world before { s with queue := (Operation.send work).attempt s.queue }
    cases hsend : (Operation.send work).apply s.queue with
    | ok queue =>
      rw [MemoryQueue.attempt_ok _ hsend]
      exact h.goes (.sent hsend)
    | error f =>
      rw [MemoryQueue.attempt_error _ hsend]
      exact h.goes (.refused hsend)
  | unavailable on => exact h.goes (.unavailable on)

theorem Reached.chances {due : List (Nat × Outer)} (hdue : ∀ o ∈ due, ∃ x : Chance, o.2 = x.outer)
    (h : Reached w max world before s) :
    Reached w max world before { s with queue := due.foldl (fun q o => o.2.apply q) s.queue } := by
  induction due generalizing s with
  | nil => exact h
  | cons o due ih =>
    obtain ⟨⟨x, hx⟩, hrest⟩ := List.forall_mem_cons.1 hdue
    rw [List.foldl_cons, hx]
    exact ih hrest (h.chance x)

/-- An execution that ends is settled at once. -/
theorem Reached.ended (h : Reached w max world before s) {broken : Bool} {tag : Int} {job : τ} {now : Nat}
    {stage : Stage τ} {next : σ} {front back : List (Int × τ)} (hrunning : s.running = front ++ (tag, job) :: back)
    (hover : s.unsettled = []) (hproceed : w.proceed now job s.world = (stage, next)) (hends : stage.Ends broken) :
    Reached w max world before { s with
      world := next, running := front ++ back
      queue := Consumer.settle broken tag s.queue, free := s.free + 1 } := by
  have hsettled := (h.goes (.ends hrunning hproceed hends)).goes
    (.settles (by rw [hover] : _ = [] ++ (broken, tag) :: []))
  rw [List.nil_append, ← hover] at hsettled
  exact hsettled

/-! ## The pool of a consumer -/

namespace Consumer

def pool (setup : ConsumerSetup) (c : Consumer σ τ) : Pool σ τ where
  queue := c.queue
  world := c.world
  free := setup.maxParallel - c.jobs.length - c.phase.holds.toNat
  waiting := c.phase.holds
  running := c.jobs.map fun j => (j.tag, j.rest)
  stopped := decide (c.phase = .stopped)

/-- The consumer is where its pool may come to, and others only send or cut off the queue. -/
structure Pooled (setup : ConsumerSetup) (w : Worker σ τ) (world : σ) (before : List Happening)
    (c : Consumer σ τ) : Prop where
  reached : Reached w setup.maxParallel world before (c.pool setup)
  fits : c.jobs.length + c.phase.holds.toNat ≤ setup.maxParallel
  most : c.mostJobs ≤ setup.maxParallel
  chances : ∀ o ∈ c.outer, ∃ x : Chance, o.2 = x.outer

theorem Pooled.happen (h : c.Pooled setup w world before) : c.happen.Pooled setup w world before where
  reached := h.reached.chances fun o ho => h.chances o ((List.takeWhile_sublist _).subset ho)
  fits := h.fits
  most := h.most
  chances := fun o ho => h.chances o (List.mem_of_mem_drop ho)

/-- One of the jobs goes on, while others have still to. -/
theorem Pooled.wakeJob {j : Job τ} {later : List (Job τ)}
    (h : Pooled setup w world before { c with jobs := c.jobs ++ j :: later }) :
    Pooled setup w world before { c.wakeJob w j with jobs := (c.wakeJob w j).jobs ++ later } := by
  have hfits := h.fits
  simp only [List.length_append, List.length_cons] at hfits
  have hrunning : (pool setup { c with jobs := c.jobs ++ j :: later }).running =
      (c.jobs.map fun j => (j.tag, j.rest)) ++ (j.tag, j.rest) :: later.map fun j => (j.tag, j.rest) := by
    simp [pool]
  -- the place of a job that ends is free
  have hended : ∀ {broken : Bool} {stage : Stage τ} {next : σ}, w.proceed c.now j.rest c.world = (stage, next) →
      stage.Ends broken → Pooled setup w world before
        { c with world := next, queue := settle broken j.tag c.queue, jobs := c.jobs ++ later } := by
    intro broken stage next hproceed hends
    refine ⟨?_, ?_, h.most, h.chances⟩
    · have hsettled := h.reached.ended hrunning rfl hproceed hends
      have hfree : setup.maxParallel - (c.jobs.length + (later.length + 1)) - c.phase.holds.toNat + 1 =
          setup.maxParallel - (c.jobs.length + later.length) - c.phase.holds.toNat := by omega
      simpa [pool, hfree] using hsettled
    · simp only [List.length_append]
      omega
  unfold Consumer.wakeJob
  split
  case isFalse =>
    have hsame : c.jobs ++ [j] ++ later = c.jobs ++ j :: later := List.append_assoc _ _ _
    exact hsame ▸ h
  case isTrue =>
    split
    case h_1 next hproceed => exact hended hproceed rfl
    case h_2 next hproceed => exact hended hproceed rfl
    case h_3 wake rest next hproceed =>
      have hsame : ∀ k : Job τ, c.jobs ++ [k] ++ later = c.jobs ++ k :: later := fun k => List.append_assoc _ _ _
      refine ⟨?_, ?_, h.most, h.chances⟩
      · have hwent := h.reached.goes (.goesOn hrunning hproceed)
        simpa [pool] using hwent
      · simp only [List.length_append, List.length_cons, List.length_nil]
        omega

theorem Pooled.wakeJobs (h : c.Pooled setup w world before) : (c.wakeJobs w).Pooled setup w world before := by
  have hall : ∀ (later : List (Job τ)) (c : Consumer σ τ),
      Pooled setup w world before { c with jobs := c.jobs ++ later } →
      Pooled setup w world before (later.foldl (Consumer.wakeJob w) c) := by
    intro later
    induction later with
    | nil =>
      intro c h
      rw [List.append_nil] at h
      exact h
    | cons j later ih => exact fun c h => ih _ h.wakeJob
  exact hall c.jobs { c with jobs := [] } h

/-! ## Receiving -/

/-- The pool of a consumer that may take a place. -/
def idle (setup : ConsumerSetup) (c : Consumer σ τ) : Pool σ τ :=
  { c.pool setup with free := setup.maxParallel - c.jobs.length, waiting := false, stopped := false }

/-- The pool of a consumer that has taken a place to receive with. -/
def receiving (setup : ConsumerSetup) (c : Consumer σ τ) : Pool σ τ :=
  { c.pool setup with free := setup.maxParallel - c.jobs.length - 1, waiting := true, stopped := false }

/-- The consumer may receive with so many places. -/
structure Open (setup : ConsumerSetup) (c : Consumer σ τ) (places : Nat) : Prop where
  fits : c.jobs.length + places = setup.maxParallel
  most : c.mostJobs ≤ setup.maxParallel
  chances : ∀ o ∈ c.outer, ∃ x : Chance, o.2 = x.outer

/-- One place is used, and the others are as good as they are without it. -/
theorem Open.receive_with {places : Nat} (ho : c.Open setup (places + 1))
    (h : Reached w setup.maxParallel world before (c.receiving setup))
    (hothers : ∀ {c : Consumer σ τ}, c.Open setup places →
      Reached w setup.maxParallel world before (c.idle setup) →
      (c.receive setup w places).Pooled setup w world before) :
    (c.receive setup w (places + 1)).Pooled setup w world before := by
  have hfits := ho.fits
  have hback : setup.maxParallel - c.jobs.length - 1 + 1 = setup.maxParallel - c.jobs.length := by omega
  unfold Consumer.receive
  split
  case h_1 f queue hlook =>
    -- the place is given back
    refine ⟨?_, ?_, ho.most, ho.chances⟩
    · have hfailed := h.goes (.fails rfl (Queue.receive_of_look hlook))
      simpa [receiving, pool, hback] using hfailed
    · show c.jobs.length + 0 ≤ setup.maxParallel
      omega
  case h_2 queue hlook =>
    -- the place is held until the queue is looked at again
    refine ⟨?_, ?_, ho.most, ho.chances⟩
    · have hfound := h.goes (.finds rfl (Queue.receive_of_look hlook))
      simpa [receiving, pool] using hfound
    · show c.jobs.length + 1 ≤ setup.maxParallel
      omega
  case h_3 d queue hlook =>
    have hlength : (c.jobs ++ [(⟨d.tag, some c.now, w.begin d.work⟩ : Job τ)]).length = c.jobs.length + 1 :=
      List.length_append
    refine hothers ⟨?_, ?_, ho.chances⟩ ?_
    · show (c.jobs ++ _).length + places = setup.maxParallel
      omega
    · refine Nat.max_le.2 ⟨ho.most, ?_⟩
      omega
    · have hreceived := h.goes (.receives rfl (Queue.receive_of_look hlook))
      have hfree : setup.maxParallel - c.jobs.length - 1 = setup.maxParallel - (c.jobs.length + 1) := by omega
      simpa [receiving, idle, pool, hfree] using hreceived

theorem Open.receive {places : Nat} (ho : c.Open setup places)
    (h : Reached w setup.maxParallel world before (c.idle setup)) :
    (c.receive setup w places).Pooled setup w world before := by
  induction places generalizing c with
  | zero =>
    have hfits := ho.fits
    exact ⟨h, Nat.le_of_eq hfits, ho.most, ho.chances⟩
  | succ places ih =>
    have hfits := ho.fits
    refine ho.receive_with (h.goes (.takes rfl rfl ?_)) ih
    show setup.maxParallel - c.jobs.length = setup.maxParallel - c.jobs.length - 1 + 1
    omega

/-! ## Runs -/

theorem Pooled.attend (h : c.Pooled setup w world before) : (c.attend setup w).Pooled setup w world before := by
  have hfits := h.fits
  unfold Consumer.attend
  split
  case isTrue => exact h
  case isFalse hgoing =>
    have hstopped : (c.pool setup).stopped = false := decide_eq_false hgoing
    split
    case isTrue =>
      refine ⟨?_, Nat.le_trans (Nat.le_add_right _ _) h.fits, h.most, h.chances⟩
      have hstops := h.reached.goes (.stops hstopped)
      have hfree : setup.maxParallel - c.jobs.length - c.phase.holds.toNat + c.phase.holds.toNat =
          setup.maxParallel - c.jobs.length := by omega
      simpa [pool, hfree] using hstops
    case isFalse =>
      split
      case isFalse => exact h
      case isTrue hdue =>
        have hopen : c.Open setup (setup.maxParallel - c.jobs.length) := ⟨by omega, h.most, h.chances⟩
        have hreached := h.reached
        cases hphase : c.phase with
        | place =>
          refine hopen.receive ?_
          simpa [pool, idle, hphase] using hreached
        | retry time =>
          refine hopen.receive ?_
          simpa [pool, idle, hphase] using hreached
        | look time =>
          -- it holds a place since it last looked, so there is one
          rw [hphase] at hfits
          obtain ⟨places, hplaces⟩ := Nat.exists_eq_succ_of_ne_zero (n := setup.maxParallel - c.jobs.length)
            (Nat.sub_ne_zero_of_lt hfits)
          rw [hplaces] at hopen ⊢
          refine hopen.receive_with ?_ Open.receive
          simpa [pool, receiving, hphase] using hreached
        | stopped => exact absurd hphase hgoing

theorem Pooled.moment (h : c.Pooled setup w world before) : (c.moment setup w).Pooled setup w world before :=
  h.happen.wakeJobs.attend

theorem Pooled.step (h : c.Pooled setup w world before) : (c.step setup w).Pooled setup w world before := by
  unfold Consumer.step
  split
  · exact h
  · split
    · exact h
    · exact Pooled.moment (c := { c with now := _ }) ⟨h.reached, h.fits, h.most, h.chances⟩

/-- One more step goes last. -/
theorem goOn_succ (setup : ConsumerSetup) (w : Worker σ τ) (steps : Nat) (c : Consumer σ τ) :
    c.goOn setup w (steps + 1) = (c.goOn setup w steps).step setup w := by
  have hdone : ∀ c : Consumer σ τ, c.isDone → c.step setup w = c := fun c hdone => if_pos hdone
  induction steps generalizing c with
  | zero =>
    show (if c.isDone then c else c.step setup w) = c.step setup w
    split
    case isTrue h => exact (hdone c h).symm
    case isFalse => rfl
  | succ steps ih =>
    rw [Consumer.goOn]
    split
    case isTrue h =>
      have hstay : c.goOn setup w (steps + 1) = c := if_pos h
      rw [hstay, hdone c h]
    case isFalse h =>
      have hgo : c.goOn setup w (steps + 1) = (c.step setup w).goOn setup w steps := if_neg h
      rw [ih, hgo]

/-- The consumer of a new queue, before its first moment. -/
def starting (world : σ) (schedule : List (Nat × Chance)) : Consumer σ τ where
  queue := {}
  world := world
  outer := schedule.map fun (time, x) => (time, x.outer)

theorem Pooled.starting (schedule : List (Nat × Chance)) :
    (Consumer.starting world schedule : Consumer σ τ).Pooled setup w world [] where
  reached := ⟨[], .start⟩
  fits := Nat.zero_le _
  most := Nat.zero_le _
  chances := fun o ho => by
    obtain ⟨⟨time, x⟩, -, rfl⟩ := List.mem_map.1 ho
    exact ⟨x, rfl⟩

theorem Pooled.run (schedule : List (Nat × Chance)) (steps : Nat) :
    (Consumer.run setup w steps (.starting world schedule)).Pooled setup w world [] := by
  induction steps with
  | zero => exact (Pooled.starting schedule).moment
  | succ steps ih =>
    unfold Consumer.run
    rw [goOn_succ]
    exact ih.step

end Consumer

end Pipeworks.Runner
