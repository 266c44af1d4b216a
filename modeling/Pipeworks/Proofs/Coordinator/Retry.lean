/-
A report that is heard once more because the first time ended in a fault of the storage. The second time
makes up for the first, with one exception: where the move of the pipeline was kept, but what is needed to
show the new status could not be read, the second time finds nothing left to do, and the status is never
shown (`retried_report`).
-/
import Pipeworks.Proofs.Coordinator.Convergence

namespace Pipeworks.Coordinator

/-! ## Calls that fail -/

/-- What becomes of the calls to a storage, one after the other: each one goes well or has a fault. All later
ones go well. -/
abbrev Outage : Type := List (Option Storage.Fault)

/-- The answers of a coordinator amid an outage. A call that fails changes nothing. -/
def Memory.handleAmid (outside : Outside) : Program.Handler Call Answer (Outage × Memory)
  | .storage _, (some f :: outage, m) => (.error f, outage, m)
  | .storage c, (none :: outage, m) =>
    ((m.handle outside (.storage c)).1, outage, (m.handle outside (.storage c)).2)
  | c, (outage, m) => ((m.handle outside c).1, outage, (m.handle outside c).2)

/-- The answer of a service, the coordinator after it, and the statuses it asks providers to show. -/
structure Upshot (α : Type) where
  answer : α
  memory : Memory
  shown : List CommitStatus

/-- What a service comes to. -/
def upshot {α : Type} (outside : Outside) (service : Service α) (m : Memory) : Upshot α :=
  ⟨(service.run (Memory.handle outside) m).1, (service.run (Memory.handle outside) m).2,
    shownBy outside service m⟩

/-- What a service comes to amid an outage. -/
def upshotAmid {α : Type} (outside : Outside) (service : Service α) (outage : Outage) (m : Memory) :
    Upshot α :=
  ⟨(service.run (Memory.handleAmid outside) (outage, m)).1,
    (service.run (Memory.handleAmid outside) (outage, m)).2.2,
    (service.trace (Memory.handleAmid outside) (outage, m)).flatMap fun e => e.call.shows⟩

section
variable {α : Type} {outside : Outside} {service : Service α} {m m' m₁ : Memory} {a : α}
  {shown : List CommitStatus}

theorem Carried.upshot (h : Carried outside service m a m' shown) :
    upshot outside service m = ⟨a, m', shown⟩ := by
  unfold Coordinator.upshot
  rw [h.run, h.shown]

/-! ### Calls one by one -/

/-- A call that fails. -/
theorem upshotAmid_fails {c : Storage.Call} (outside : Outside) (next : Storage.Answer c → Service α)
    (f : Storage.Fault) (outage : Outage) (m : Memory) :
    upshotAmid outside (.ask (.storage c) next) (some f :: outage) m =
      upshotAmid outside (next (.error f)) outage m := rfl

/-- A call that goes well. -/
theorem upshotAmid_goes {c : Call} {next : Answer c → Service α} {answer : Answer c} {outage outage' : Outage}
    (hamid : Memory.handleAmid outside c (outage, m) = (answer, outage', m₁)) :
    upshotAmid outside (.ask c next) outage m =
      { upshotAmid outside (next answer) outage' m₁ with
        shown := c.shows ++ (upshotAmid outside (next answer) outage' m₁).shown } := by
  unfold upshotAmid
  simp only [Program.run, Program.trace, hamid, List.flatMap_cons]

theorem handleAmid_goes {c : Storage.Call} {answer : Storage.Answer c}
    (hanswer : m.handle outside (.storage c) = (answer, m₁)) (later : Outage) :
    Memory.handleAmid outside (.storage c) (none :: later, m) = (answer, later, m₁) := by
  rw [Memory.handleAmid, hanswer]

theorem upshot_ask (outside : Outside) (c : Call) (next : Answer c → Service α) (m : Memory) :
    upshot outside (.ask c next) m =
      { upshot outside (next (m.handle outside c).1) (m.handle outside c).2 with
        shown := c.shows ++ (upshot outside (next (m.handle outside c).1) (m.handle outside c).2).shown } :=
  rfl

/-- Whatever is answered, a service makes so many calls to the storage at most. -/
def AtMost : Nat → Service α → Prop
  | _, .done _ => True
  | n, .ask (.storage _) next => ∃ k, n = k + 1 ∧ ∀ answer, AtMost k (next answer)
  | n, .ask (.send _) next => ∀ answer, AtMost n (next answer)
  | n, .ask (.post _ _ _) next => ∀ answer, AtMost n (next answer)
  | n, .ask (.transcript _) next => ∀ answer, AtMost n (next answer)

/-- An outage that spares the calls that a service makes does not matter. -/
theorem upshotAmid_spared {n : Nat} {outage : Outage} (h : AtMost n service)
    (hspared : ∀ o ∈ outage.take n, o = none) :
    upshotAmid outside service outage m = upshot outside service m := by
  induction service generalizing n outage m with
  | done a => rfl
  | ask c next ih =>
    rw [upshot_ask]
    cases c with
    | storage c =>
      obtain ⟨k, rfl, hnext⟩ := h
      cases outage with
      | nil =>
        rw [upshotAmid_goes rfl, ih _ (hnext _) (by simp)]
      | cons o outage =>
        rw [List.take_succ_cons, List.forall_mem_cons] at hspared
        obtain ⟨rfl, hlater⟩ := hspared
        rw [upshotAmid_goes rfl, ih _ (hnext _) hlater]
    | send work => rw [upshotAmid_goes rfl, ih _ (h _) hspared]
    | post provider token status => rw [upshotAmid_goes rfl, ih _ (h _) hspared]
    | transcript id => rw [upshotAmid_goes rfl, ih _ (h _) hspared]

end

/-! ## The calls of a report -/

theorem publish_atMost (setup : Setup) (id : Int64) (status : Status) (description : String) :
    AtMost 1 (publish setup id status description) := by
  refine ⟨0, rfl, fun answer => ?_⟩
  rcases answer with f | info
  · trivial
  cases info with
  | none => trivial
  | some info =>
    dsimp only [Program.bind_done]
    split
    · trivial
    · exact fun _ => trivial

theorem skip_atMost (id : Int64) : AtMost 1 (skip id) := by
  refine ⟨0, rfl, fun answer => ?_⟩
  rcases answer with f | row
  · trivial
  · cases row <;> trivial

/-- A report takes two calls to the storage. -/
theorem hear_atMost (setup : Setup) (r : Report) : AtMost 2 (hear setup r) := by
  cases r with
  | started r =>
    refine ⟨1, rfl, fun answer => ?_⟩
    rcases answer with f | moved
    · trivial
    cases moved with
    | false => exact skip_atMost r.pipelineId
    | true => exact publish_atMost ..
  | output r =>
    refine ⟨1, rfl, fun answer => ?_⟩
    rcases answer with f | row
    · trivial
    cases row with
    | none => trivial
    | some p =>
      refine ⟨0, rfl, fun answer => ?_⟩
      cases answer <;> trivial
  | finished r =>
    refine ⟨1, rfl, fun answer => ?_⟩
    rcases answer with f | moved
    · trivial
    cases moved with
    | false => exact skip_atMost r.pipelineId
    | true => exact publish_atMost ..

section
variable {setup : Setup} {outside : Outside} {m : Memory} {r : Report}

/-- Where the first call fails, nothing has been done. -/
theorem hear_failsFirst (setup : Setup) (outside : Outside) (m : Memory) (r : Report) (f : Storage.Fault)
    (later : Outage) :
    upshotAmid outside (hear setup r) (some f :: later) m = ⟨.error (.storage f), m, []⟩ := by
  cases r with
  | started r => exact upshotAmid_fails ..
  | output r => exact upshotAmid_fails ..
  | finished r => exact upshotAmid_fails ..

/-- A report that asks for a move goes on once the storage has tried it. -/
theorem hear_tried {move : Report.Move} {moved : Bool} {s : MemoryStorage} (hup : m.storage.failing = false)
    (hmove : r.move? = some move)
    (htransition : m.storage.transition r.pipelineId move.status move.time = (moved, s)) (later : Outage) :
    upshotAmid outside (hear setup r) (none :: later) m =
      upshotAmid outside (bif moved then publish setup r.pipelineId move.status move.description
        else skip r.pipelineId) later { m with storage := s } := by
  cases r with
  | started r =>
    cases hmove
    refine (upshotAmid_goes (handleAmid_goes (handle_start hup htransition) later)).trans ?_
    cases moved <;> rfl
  | output r => cases hmove
  | finished r =>
    cases hmove
    refine (upshotAmid_goes (handleAmid_goes (handle_finish hup htransition) later)).trans ?_
    cases moved <;> rfl

/-- Where the second call fails, a move has been kept. -/
theorem hear_failsSecond {move : Report.Move} (hup : m.storage.failing = false) (hmove : r.move? = some move)
    (setup : Setup) (outside : Outside) (f : Storage.Fault) (later : Outage) :
    upshotAmid outside (hear setup r) (none :: some f :: later) m = ⟨.error (.storage f),
      { m with storage := (m.storage.transition r.pipelineId move.status move.time).2 }, []⟩ := by
  rcases htransition : m.storage.transition r.pipelineId move.status move.time with ⟨moved, s⟩
  rw [hear_tried hup hmove htransition]
  cases moved with
  | false => exact upshotAmid_fails ..
  | true => exact upshotAmid_fails ..

/-- Of an output nothing has been kept then. -/
theorem output_failsSecond {p : Pipeline} {r : CommandOutput} (hup : m.storage.failing = false)
    (hrow : m.storage.pipeline? r.pipelineId = some p) (setup : Setup) (outside : Outside) (f : Storage.Fault)
    (later : Outage) :
    upshotAmid outside (hear setup (.output r)) (none :: some f :: later) m = ⟨.error (.storage f), m, []⟩ := by
  have hfind : m.handle outside (.storage (.find r.pipelineId)) = (.ok (some p), m) := by
    rw [Memory.handle_up hup, MemoryStorage.perform, hrow]
  exact (upshotAmid_goes (handleAmid_goes hfind _)).trans (upshotAmid_fails ..)

end

/-! ## Once more -/

/-- A pipeline is not moved twice to the same status. -/
theorem advance?_again {p p' : Pipeline} {next : Status} {t : Time.Instant} (h : p.advance? next t = some p')
    (t' : Time.Instant) : p'.advance? next t' = none := by
  obtain ⟨hmay, rfl⟩ := MemoryStorage.advance?_status h
  have hstays : p'.status.canAdvanceTo p'.status = false := by
    cases hstatus : p'.status <;> simp [hstatus, Status.canAdvanceTo, Status.isTerminal] at hmay ⊢
  simp [Pipeline.advance?, hstays]

/-- The move of a pipeline was kept, but what is needed to show the new status could not be read. -/
def Unshown (outage : Outage) (p : Pipeline) (r : Report) : Prop :=
  ∃ f later, outage = none :: some f :: later ∧ (p.hear r).2 ≠ []

/-- What failed and was done again comes to the same as what is done once. -/
def MadeUp {α : Type} (failed again once : Upshot α) : Prop :=
  again.memory = once.memory ∧ failed.shown ++ again.shown = once.shown

/-- What it comes to that a report failed amid an outage and was heard again, beside what it would have come to
had it been heard once. -/
structure Retried (setup : Setup) (info : Storage.StateChangeInfo) (provider : Provider) (p : Pipeline)
    (m : Memory) (r : Report) (outage : Outage) (failed again once : Upshot (Except ReportFault Unit)) : Prop where
  answer : again.answer = .ok ()
  storage : again.memory.storage = once.memory.storage
  madeUp_iff : MadeUp failed again once ↔ ¬ Unshown outage p r
  /-- Nothing is shown then, where once there would have been the status of the move. -/
  unshown : Unshown outage p r → again.memory.posted = m.posted ∧ failed.shown ++ again.shown = [] ∧
    ∃ move, r.move? = some move ∧ once.shown = [toShow setup info move] ∧
      once.memory.posted = m.posted ++ m.taken provider [toShow setup info move]

section
variable {setup : Setup} {info : Storage.StateChangeInfo} {provider : Provider} {p : Pipeline} {m : Memory}
  {r : Report} {outage : Outage}

/-- Once the storage works, a report about a pipeline that is known is taken in. -/
theorem upshot_known (hknown : Known setup r.pipelineId info provider p m.storage) (outside : Outside) :
    (upshot outside (hear setup r) m).answer = .ok () ∧
      (upshot outside (hear setup r) m).shown = (p.hear r).2.map (toShow setup info) := by
  obtain ⟨s, hcarried, -, -⟩ := hknown.hear outside rfl
  rw [hcarried.upshot]
  exact ⟨rfl, rfl⟩

/-- It is one of the first two calls that failed if a report did. -/
theorem outage_of_fault {f : ReportFault} (hknown : Known setup r.pipelineId info provider p m.storage)
    (outside : Outside) (hfault : (upshotAmid outside (hear setup r) outage m).answer = .error f) :
    ∃ f later, outage = some f :: later ∨ outage = none :: some f :: later := by
  have hharmed : ¬ ∀ o ∈ outage.take 2, o = none := by
    intro hspared
    rw [upshotAmid_spared (hear_atMost setup r) hspared, (upshot_known hknown outside).1] at hfault
    cases hfault
  rcases outage with _ | ⟨_ | f, _ | ⟨_ | f', later⟩⟩
  · simp at hharmed
  · simp at hharmed
  · simp at hharmed
  · exact ⟨f', later, .inr rfl⟩
  · exact ⟨f, [], .inl rfl⟩
  · exact ⟨f, _, .inl rfl⟩
  · exact ⟨f, _, .inl rfl⟩

/-- Where nothing was kept, the second time is the first. -/
theorem retried_unkept {f : ReportFault} (hknown : Known setup r.pipelineId info provider p m.storage)
    (outside : Outside) (hno : ¬ Unshown outage p r)
    (hfailed : upshotAmid outside (hear setup r) outage m = ⟨.error f, m, []⟩) :
    let failed := upshotAmid outside (hear setup r) outage m
    Retried setup info provider p m r outage failed (upshot outside (hear setup r) failed.memory)
      (upshot outside (hear setup r) m) := by
  intro failed
  have hmemory : failed.memory = m := congrArg Upshot.memory hfailed
  have hshown : failed.shown = [] := congrArg Upshot.shown hfailed
  rw [hmemory]
  constructor
  · exact (upshot_known hknown outside).1
  · rfl
  · refine ⟨fun _ => hno, fun _ => ⟨rfl, ?_⟩⟩
    rw [hshown, List.nil_append]
  · exact fun h => absurd h hno

/-- A report that moves its pipeline keeps the move and shows it. -/
theorem upshot_moved {move : Report.Move} {p' : Pipeline}
    (hknown : Known setup r.pipelineId info provider p m.storage) (outside : Outside)
    (hmove : r.move? = some move) (hadvance : p.advance? move.status move.time = some p') :
    upshot outside (hear setup r) m = ⟨.ok (), { m with
      storage := (m.storage.transition r.pipelineId move.status move.time).2
      posted := m.posted ++ m.taken provider [toShow setup info move] }, [toShow setup info move]⟩ := by
  have hmoved := (MemoryStorage.transition_moves hknown.row hadvance).1
  have hknown' := hknown.moved hadvance
  refine (hear_moved hknown.up hmove (Prod.ext hmoved rfl) ?_).upshot
  exact publish_known hknown'.up hknown'.shownAt hknown'.provider move.status move.description

/-- One that cannot move it does nothing. -/
theorem upshot_stuck {move : Report.Move} (hknown : Known setup r.pipelineId info provider p m.storage)
    (outside : Outside) (hmove : r.move? = some move) (hstuck : p.advance? move.status move.time = none) :
    upshot outside (hear setup r) m = ⟨.ok (), m, []⟩ := by
  have hcarried := @hear_unmoved setup outside m r move hknown.up hmove
    (MemoryStorage.transition_stuck hknown.row hstuck)
  rw [hknown.row] at hcarried
  exact hcarried.upshot

/-- A move that was kept and not shown is not made again, and so it is not shown either. -/
theorem retried_moved {move : Report.Move} {p' : Pipeline}
    (hknown : Known setup r.pipelineId info provider p m.storage) (outside : Outside)
    (hmove : r.move? = some move) (hadvance : p.advance? move.status move.time = some p') (f : Storage.Fault)
    (later : Outage) :
    let failed := upshotAmid outside (hear setup r) (none :: some f :: later) m
    Retried setup info provider p m r (none :: some f :: later) failed
      (upshot outside (hear setup r) failed.memory) (upshot outside (hear setup r) m) := by
  intro failed
  have hfailed : failed = _ := hear_failsSecond hknown.up hmove setup outside f later
  have honce := upshot_moved hknown outside hmove hadvance
  have hagain := upshot_stuck
    (m := { m with storage := (m.storage.transition r.pipelineId move.status move.time).2 })
    (hknown.moved hadvance) outside hmove (advance?_again hadvance _)
  have hunshown : Unshown (none :: some f :: later) p r := by
    refine ⟨f, later, rfl, ?_⟩
    simp [Pipeline.hear, hmove, hadvance]
  rw [hfailed, honce, hagain]
  constructor
  · rfl
  · rfl
  · -- the status was to be shown, and has not been
    constructor
    · rintro ⟨-, hshown⟩
      cases hshown
    · exact fun hno => absurd hunshown hno
  · exact fun _ => ⟨rfl, rfl, move, hmove, rfl, rfl⟩

/-- A report that failed and is heard again while the storage works is taken in, and the pipeline and the log
are then as if it had been heard once. So are the statuses shown, unless the move of the pipeline was kept and
could not be shown: then its status is not shown the second time either. -/
theorem retried_report {f : ReportFault} (outside : Outside)
    (hknown : Known setup r.pipelineId info provider p m.storage)
    (hfault : (upshotAmid outside (hear setup r) outage m).answer = .error f) :
    let failed := upshotAmid outside (hear setup r) outage m
    Retried setup info provider p m r outage failed (upshot outside (hear setup r) failed.memory)
      (upshot outside (hear setup r) m) := by
  obtain ⟨f, later, rfl | rfl⟩ := outage_of_fault hknown outside hfault
  · refine retried_unkept hknown outside ?_ (hear_failsFirst setup outside m r f later)
    rintro ⟨f', later', houtage, -⟩
    cases houtage
  cases hmove : r.move? with
  | none =>
    have hnothing : (p.hear r).2 = [] := by simp only [Pipeline.hear, hmove]
    have hno : ¬ Unshown (none :: some f :: later) p r := by
      rintro ⟨_, _, _, h⟩
      exact h hnothing
    cases r with
    | started r => cases hmove
    | output r => exact retried_unkept hknown outside hno (output_failsSecond hknown.up hknown.row ..)
    | finished r => cases hmove
  | some move =>
    cases hadvance : p.advance? move.status move.time with
    | some p' => exact retried_moved hknown outside hmove hadvance f later
    | none =>
      have hnothing : (p.hear r).2 = [] := by simp only [Pipeline.hear, hmove, hadvance]
      have hstuck := MemoryStorage.transition_stuck hknown.row hadvance
      have hno : ¬ Unshown (none :: some f :: later) p r := by
        rintro ⟨_, _, _, h⟩
        exact h hnothing
      refine retried_unkept (f := .storage f) hknown outside hno ?_
      rw [hear_failsSecond hknown.up hmove, hstuck]

end

/-! ### A report that is heard again -/

namespace Sample

/-- The first call to the storage fails. -/
def down : Outage := [some (.database .noConnection)]

/-- The second one does. -/
def hiccup : Outage := [none, some (.database .noConnection)]

def begun : Report := .started ⟨1, noon⟩

/-- What it comes to that a start fails. -/
def failed (outage : Outage) : Upshot (Except ReportFault Unit) :=
  upshotAmid silence (hear plainly begun) outage (Memory.of pushed)

/-- What it comes to that it is heard again. -/
def again (outage : Outage) : Upshot (Except ReportFault Unit) :=
  upshot silence (hear plainly begun) (failed outage).memory

def once : Upshot (Except ReportFault Unit) := upshot silence (hear plainly begun) (Memory.of pushed)

end Sample

/-- The first fault is made up for, the second is not. -/
theorem retried_report_both :
    ∃ info p, Known Sample.plainly 1 info .plain p (Memory.of Sample.pushed).storage ∧
      (Sample.failed Sample.down).answer = .error (.storage (.database .noConnection)) ∧
      Retried Sample.plainly info .plain p (Memory.of Sample.pushed) Sample.begun Sample.down
        (Sample.failed Sample.down) (Sample.again Sample.down) Sample.once ∧
      MadeUp (Sample.failed Sample.down) (Sample.again Sample.down) Sample.once ∧
      (Sample.failed Sample.hiccup).answer = .error (.storage (.database .noConnection)) ∧
      Retried Sample.plainly info .plain p (Memory.of Sample.pushed) Sample.begun Sample.hiccup
        (Sample.failed Sample.hiccup) (Sample.again Sample.hiccup) Sample.once ∧
      ¬ MadeUp (Sample.failed Sample.hiccup) (Sample.again Sample.hiccup) Sample.once := by
  obtain ⟨info, p, hknown⟩ :
      ∃ info p, Known Sample.plainly 1 info .plain p (Memory.of Sample.pushed).storage :=
    ⟨_, _, rfl, rfl, rfl, rfl⟩
  have hdown : (Sample.failed Sample.down).answer = .error (.storage (.database .noConnection)) := rfl
  have hhiccup : (Sample.failed Sample.hiccup).answer = .error (.storage (.database .noConnection)) := rfl
  have hmade := retried_report Sample.silence hknown hdown
  have hlost := retried_report Sample.silence hknown hhiccup
  refine ⟨info, p, hknown, hdown, hmade, hmade.madeUp_iff.2 ?_, hhiccup, hlost, ?_⟩
  · rintro ⟨f, later, houtage, -⟩
    cases houtage
  · rintro ⟨-, hshown⟩
    cases hshown

/-- A start that failed is heard again: the pipeline is running, and nobody is told. -/
theorem status_never_shown :
    (Sample.failed Sample.hiccup).answer = .error (.storage (.database .noConnection)) ∧
      (Sample.again Sample.hiccup).answer = .ok () ∧
      ((Sample.again Sample.hiccup).memory.storage.pipeline? 1).map Pipeline.status = some .running ∧
      (Sample.again Sample.hiccup).memory.posted = [] ∧
      Sample.once.memory.posted.map CommitStatus.status = [.running] :=
  ⟨rfl, rfl, rfl, rfl, rfl⟩

end Pipeworks.Coordinator
