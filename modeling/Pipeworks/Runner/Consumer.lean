/-
A consumer of a queue, which runs at most so many deliveries at a time. It takes a place in the pool
before it receives, so that a busy consumer leaves messages to others; a delivery is acknowledged
when its run has ended, and given back if the run broke down. Once it is told to stop it receives
nothing more and waits for the runs in progress. Time is counted in milliseconds.
-/
import Pipeworks.Queue.Reader

namespace Pipeworks.Runner

/-- Where a job is after it has gone on. -/
inductive Stage (τ : Type) where
  | ended
  /-- It broke down. -/
  | brokeDown
  /-- It goes on at a time; never, if there is none. -/
  | waits (time : Option Nat) (rest : τ)

/-- How jobs begin, and how they go on at a time in a world that they may change. -/
structure Worker (σ τ : Type) where
  begin : Work → τ
  proceed : Nat → τ → σ → Stage τ × σ

/-- A run in progress. -/
structure Job (τ : Type) where
  tag : Int
  /-- When it goes on. -/
  wake : Option Nat
  rest : τ

/-- What a consumer waits for before it receives. -/
inductive Phase where
  /-- A place in the pool. -/
  | place
  /-- The time to look at an empty queue again; a place is taken. -/
  | look (time : Nat)
  /-- The time to try again after a fault. -/
  | retry (time : Nat)
  | stopped
  deriving DecidableEq

/-- The settings of a consumer, and when it is told to stop. -/
structure ConsumerSetup where
  maxParallel : Nat
  poll : Nat
  shutdown : Nat

/-- Milliseconds before it tries again after a fault. -/
def retryDelay : Nat := 5000

/-- What happens to the queue besides. -/
inductive Outer where
  | operation (op : Queue.Operation)
  /-- Another consumer receives a message and keeps it. -/
  | lease

def Outer.apply (q : MemoryQueue) : Outer → MemoryQueue
  | .operation op => op.attempt q
  | .lease => q.receive.2

structure Consumer (σ τ : Type) where
  now : Nat := 0
  queue : MemoryQueue
  world : σ
  phase : Phase := .place
  jobs : List (Job τ) := []
  /-- The most jobs that have been in progress at a time. -/
  mostJobs : Nat := 0
  /-- What is still to happen, by time. -/
  outer : List (Nat × Outer) := []

namespace Consumer

variable {σ τ : Type}

/-- Lets happen what is due. -/
def happen (c : Consumer σ τ) : Consumer σ τ :=
  let due := c.outer.takeWhile fun (time, _) => time ≤ c.now
  { c with
    queue := due.foldl (fun q (_, o) => o.apply q) c.queue
    outer := c.outer.drop due.length }

/-- Settles a delivery whose run has ended; that the queue may not know it any more is no matter. -/
def settle (broken : Bool) (tag : Int) (q : MemoryQueue) : MemoryQueue :=
  ((if broken then Queue.Operation.nack tag else .ack tag)).attempt q

/-- A job that is due goes on. -/
def wakeJob (w : Worker σ τ) (c : Consumer σ τ) (j : Job τ) : Consumer σ τ :=
  if j.wake.any (· ≤ c.now) then
    match w.proceed c.now j.rest c.world with
    | (.ended, world) => { c with world, queue := settle false j.tag c.queue }
    | (.brokeDown, world) => { c with world, queue := settle true j.tag c.queue }
    | (.waits wake rest, world) => { c with world, jobs := c.jobs ++ [{ j with wake, rest }] }
  else { c with jobs := c.jobs ++ [j] }

/-- All jobs that are due go on. -/
def wakeJobs (w : Worker σ τ) (c : Consumer σ τ) : Consumer σ τ :=
  c.jobs.foldl (wakeJob w) { c with jobs := [] }

/-- Receives while there is a place, which are at most so many. -/
def receive (setup : ConsumerSetup) (w : Worker σ τ) : Nat → Consumer σ τ → Consumer σ τ
  | 0, c => { c with phase := .place }
  | places + 1, c =>
    match Queue.look c.queue with
    | (some (.error _), queue) => { c with queue, phase := .retry (c.now + retryDelay) }
    | (none, queue) => { c with queue, phase := .look (Queue.nextLook setup.poll c.now) }
    | (some (.ok d), queue) =>
      let jobs := c.jobs ++ [⟨d.tag, some c.now, w.begin d.work⟩]
      receive setup w places { c with queue, jobs, mostJobs := max c.mostJobs jobs.length }

/-- Whether it is time to receive, as far as the phase goes. -/
def Phase.isDue (now : Nat) : Phase → Bool
  | .place => true
  | .look time => time ≤ now
  | .retry time => time ≤ now
  | .stopped => false

/-- What the consumer does at a moment: it stops, receives or goes on waiting. -/
def attend (setup : ConsumerSetup) (w : Worker σ τ) (c : Consumer σ τ) : Consumer σ τ :=
  if c.phase = .stopped then c
  else if setup.shutdown ≤ c.now then { c with phase := .stopped }
  else if Phase.isDue c.now c.phase then
    receive setup w (setup.maxParallel - c.jobs.length) c
  else c

/-- All that happens at one moment. -/
def moment (setup : ConsumerSetup) (w : Worker σ τ) (c : Consumer σ τ) : Consumer σ τ :=
  (c.happen.wakeJobs w).attend setup w

/-- When the consumer itself goes on. -/
def Phase.next? (shutdown : Nat) : Phase → Option Nat
  | .place => some shutdown
  | .look time => some (min time shutdown)
  | .retry time => some (min time shutdown)
  | .stopped => none

/-- Whether the consumer has stopped and its last run has ended. -/
def isDone (c : Consumer σ τ) : Bool := c.phase == .stopped && c.jobs.isEmpty

/-- The next moment at which something happens. -/
def next? (setup : ConsumerSetup) (c : Consumer σ τ) : Option Nat :=
  let times := c.jobs.filterMap (·.wake) ++ (Phase.next? setup.shutdown c.phase).toList ++
    (c.outer.head?.map Prod.fst).toList
  times.min?.map (max c.now)

/-- Goes on to the next moment, until it is done. -/
def step (setup : ConsumerSetup) (w : Worker σ τ) (c : Consumer σ τ) : Consumer σ τ :=
  if c.isDone then c
  else
    match c.next? setup with
    | none => c
    | some now => { c with now }.moment setup w

/-- Goes on for so many steps at most. -/
def goOn (setup : ConsumerSetup) (w : Worker σ τ) : Nat → Consumer σ τ → Consumer σ τ
  | 0, c => c
  | n + 1, c => if c.isDone then c else goOn setup w n (c.step setup w)

/-- Runs from its first moment, for so many steps at most. -/
def run (setup : ConsumerSetup) (w : Worker σ τ) (steps : Nat) (c : Consumer σ τ) :
    Consumer σ τ :=
  (c.moment setup w).goOn setup w steps

end Consumer

end Pipeworks.Runner
