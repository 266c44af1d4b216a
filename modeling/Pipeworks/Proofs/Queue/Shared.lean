/-
The two queues as their consumers share them. In memory all leases run out together, and a message is in
flight while it is leased; in a database each row says when its lease ends. Both keep the laws of a `Lessor`,
so in every history of either a delivery holds its message for as long as nobody settles it late
(`deliveries_guarded`).
-/
import Pipeworks.Proofs.Queue.Database
import Pipeworks.Proofs.Queue.Lease
import Pipeworks.Proofs.Queue.Memory

namespace Pipeworks

namespace Queue

open Broker

/-! ## In memory -/

/-- A queue with how often its leases have run out. -/
structure Aged where
  queue : MemoryQueue := {}
  age : Nat := 0

/-- What happens to a queue besides deliveries and their settlements. -/
inductive Incident where
  | send (work : Work)
  | runOut
  | unavailable (on : Bool)

def Settlement.operation : Settlement → Int → Operation
  | .ack, tag => .ack tag
  | .nack, tag => .nack tag

namespace Aged

def receive (s : Aged) : Except Fault (Option Delivery) × Aged :=
  (s.queue.receive.1, { s with queue := s.queue.receive.2 })

def settle (how : Settlement) (tag : Int) (s : Aged) : Except Fault Unit × Aged :=
  match (how.operation tag).apply s.queue with
  | .ok queue => (.ok (), { s with queue })
  | .error f => (.error f, s)

def happen (s : Aged) : Incident → Aged
  | .send w => { s with queue := (Operation.send w).attempt s.queue }
  | .runOut => ⟨s.queue.redeliver, s.age + 1⟩
  | .unavailable on => { s with queue := s.queue.setUnavailable on }

/-- A message in flight is leased until all leases run out. -/
def lease (s : Aged) (tag : Int) : Option Nat :=
  if tag ∈ s.queue.inFlight.map Message.tag then some s.age else none

variable {s : Aged} {tag : Int} {t : Nat}

theorem lease_eq_some : s.lease tag = some t ↔ tag ∈ s.queue.inFlight.map Message.tag ∧ s.age = t := by
  unfold lease
  split
  case isTrue h => rw [Option.some.injEq, and_iff_right h]
  case isFalse h => exact iff_of_false (fun heq => by cases heq) fun hboth => h hboth.1

theorem lease_congr {s' : Aged} {tag' : Int} (hage : s'.age = s.age)
    (h : tag' ∈ s'.queue.inFlight.map Message.tag ↔ tag' ∈ s.queue.inFlight.map Message.tag) :
    s'.lease tag' = s.lease tag' := by
  simp only [lease, h, hage]

/-- What is settled is no longer in flight, and all the rest still is. -/
theorem settle_cases (h : s.queue.WF) (how : Settlement) (tag : Int) :
    (tag ∉ s.queue.inFlight.map Message.tag ∧ s.settle how tag = (.error (.unknownDelivery tag), s)) ∨
    ∃ queue, (how.operation tag).apply s.queue = .ok queue ∧ s.settle how tag = (.ok (), { s with queue }) ∧
      tag ∈ s.queue.inFlight.map Message.tag ∧
      ∀ tag', tag' ∈ queue.inFlight.map Message.tag ↔ tag' ∈ s.queue.inFlight.map Message.tag ∧ tag' ≠ tag := by
  have hsettles : how.operation tag = .ack tag ∨ how.operation tag = .nack tag := by
    cases how with
    | ack => exact .inl rfl
    | nack => exact .inr rfl
  obtain ⟨hnot, hop⟩ | ⟨m, front, back, queue, rfl, hflight, hop, hrest, honly⟩ :=
    MemoryQueue.settled_cases h hsettles
  · refine .inl ⟨hnot, ?_⟩
    unfold settle
    rw [hop]
  · refine .inr ⟨queue, hop, ?_, ?_, fun tag' => ?_⟩
    · unfold settle
      rw [hop]
    · rw [hflight]
      exact List.mem_map_of_mem (List.mem_append_right _ List.mem_cons_self)
    · have hmiddle : (front ++ m :: back).Perm (m :: (front ++ back)) := List.perm_middle
      rw [hrest, hflight, (hmiddle.map Message.tag).mem_iff, List.map_cons, List.mem_cons]
      constructor
      · exact fun hmem => ⟨.inr hmem, fun heq => honly (heq ▸ hmem)⟩
      · rintro ⟨heq | hmem, hne⟩
        · exact absurd heq hne
        · exact hmem

theorem settle_leased (h : s.queue.WF) (hleased : s.lease tag = some t) (how : Settlement) :
    ∃ queue, (how.operation tag).apply s.queue = .ok queue ∧ s.settle how tag = (.ok (), { s with queue }) ∧
      ∀ tag', tag' ∈ queue.inFlight.map Message.tag ↔ tag' ∈ s.queue.inFlight.map Message.tag ∧ tag' ≠ tag := by
  obtain ⟨hnot, -⟩ | ⟨queue, hop, heq, -, hrest⟩ := settle_cases h how tag
  · exact absurd (lease_eq_some.1 hleased).1 hnot
  · exact ⟨queue, hop, heq, hrest⟩

/-- Nothing is received, and nothing changes, or the message that is ready first, and it is in flight then. -/
theorem receive_cases (h : s.queue.WF) :
    ((s.queue.ready = [] ∨ s.receive.1 = .error .unavailable) ∧ s.receive.2 = s ∧
        ∀ d, s.receive.1 ≠ .ok (some d)) ∨
      ∃ m rest w again, s.queue.ready = m :: rest ∧ s.receive = (.ok (some ⟨m.tag, w, again⟩),
        { s with queue := { s.queue with ready := rest, inFlight := m.delivered :: s.queue.inFlight } }) := by
  unfold receive
  obtain ⟨-, heq⟩ | ⟨-, hready, heq⟩ | ⟨m, rest, w, -, hready, -, heq⟩ := MemoryQueue.receive_cases h
  · rw [heq]
    exact .inl ⟨.inr rfl, rfl, fun d hd => by cases hd⟩
  · rw [heq]
    exact .inl ⟨.inl hready, rfl, fun d hd => by cases hd⟩
  · rw [heq]
    exact .inr ⟨m, rest, w, m.again, hready, rfl⟩

/-- What is ready is not leased. -/
theorem ready_free (h : s.queue.WF) (hready : tag ∈ s.queue.ready.map Message.tag) : s.lease tag ≠ some t := by
  intro hleased
  have htags := h.tags
  rw [MemoryQueue.held, List.map_append, List.nodup_append] at htags
  exact htags.2.2 tag hready tag (lease_eq_some.1 hleased).1 rfl

theorem wf_settle (h : s.queue.WF) (how : Settlement) (tag : Int) : (s.settle how tag).2.queue.WF := by
  obtain ⟨-, heq⟩ | ⟨queue, hop, heq, -⟩ := settle_cases h how tag
  · rw [heq]
    exact h
  · rw [heq]
    exact h.apply hop

/-- Sending leaves what is in flight as it is. -/
theorem send_cases (h : s.queue.WF) (w : Work) :
    (s.happen (.send w)).queue.WF ∧ (s.happen (.send w)).queue.inFlight = s.queue.inFlight := by
  show ((Operation.send w).attempt s.queue).WF ∧ ((Operation.send w).attempt s.queue).inFlight = _
  cases hop : (Operation.send w).apply s.queue with
  | error f =>
    rw [MemoryQueue.attempt_error _ hop]
    exact ⟨h, rfl⟩
  | ok queue =>
    rw [MemoryQueue.attempt_ok _ hop]
    exact ⟨h.apply hop, by rw [MemoryQueue.send_ok h hop]⟩

theorem wf_happen (h : s.queue.WF) (e : Incident) : (s.happen e).queue.WF := by
  cases e with
  | send w => exact (send_cases h w).1
  | runOut => exact h.redeliver
  | unavailable on => exact h.setUnavailable on

/-- Leases last until all run out together. -/
theorem happen_lease (h : s.queue.WF) (e : Incident) : s.age ≤ (s.happen e).age ∧
    ∀ {tag t}, s.lease tag = some t → (s.happen e).age ≤ t → (s.happen e).lease tag = some t := by
  cases e with
  | send w =>
    refine ⟨Nat.le_refl _, fun hleased _ => ?_⟩
    rw [← hleased]
    exact lease_congr rfl (by rw [(send_cases h w).2])
  | runOut =>
    refine ⟨Nat.le_succ _, fun hleased hruns => ?_⟩
    have hage := (lease_eq_some.1 hleased).2
    exact absurd hruns (Nat.not_le.2 (hage ▸ Nat.lt_succ_self s.age))
  | unavailable on => exact ⟨Nat.le_refl _, fun hleased _ => hleased⟩

end Aged

/-- A queue in memory among its consumers. -/
abbrev memoryBroker : Broker Int where
  State := Aged
  Receiver := Unit
  Event := Incident
  start := {}
  now := Aged.age
  term := fun _ => Aged.age
  waiting := fun _ s => s.queue.ready.map Message.tag
  message := id
  receive := fun _ => Aged.receive
  settle := Aged.settle
  happen := fun e s => s.happen e

/-- A message is leased while it is in flight. -/
def memoryLessor : Lessor memoryBroker where
  Sound := fun s : Aged => s.queue.WF
  lease := Aged.lease
  start := .empty
  soundReceive := fun _ h => h.receive
  soundSettle := fun how tag h => Aged.wf_settle h how tag
  soundHappen := fun e h => Aged.wf_happen h e
  waits := fun h hready hleased => absurd hleased (Aged.ready_free h hready)
  received := by
    show ∀ {s : Aged} (r : Unit), s.queue.WF → s.receive.2.age = s.age ∧
      (((s.queue.ready.map Message.tag = [] ∨ s.receive.1 = .error .unavailable) ∧ s.receive.2 = s ∧
          ∀ d, s.receive.1 ≠ .ok (some d)) ∨
        ∃ d, s.receive.1 = .ok (some d) ∧ (s.queue.ready.map Message.tag).head? = some d.tag ∧
          s.receive.2.lease d.tag = some s.age ∧ ∀ tag, tag ≠ d.tag → s.receive.2.lease tag = s.lease tag)
    intro s _ h
    refine ⟨rfl, ?_⟩
    obtain ⟨hwhy, hnothing⟩ | ⟨m, rest, w, again, hready, heq⟩ := Aged.receive_cases h
    · exact .inl ⟨hwhy.imp_left List.map_eq_nil_iff.2, hnothing⟩
    · rw [heq, hready]
      refine .inr ⟨_, rfl, rfl, Aged.lease_eq_some.2 ⟨List.mem_cons_self, rfl⟩, fun tag hother => ?_⟩
      exact Aged.lease_congr rfl (List.mem_cons.trans (or_iff_right hother))
  settles := by
    show ∀ {s : Aged} (how : Settlement) (tag : Int), s.queue.WF → (s.settle how tag).2.age = s.age ∧
      (∀ f, (s.settle how tag).1 = .error f → (s.settle how tag).2 = s) ∧
      ∀ tag', tag' ≠ tag → (s.settle how tag).2.lease tag' = s.lease tag'
    intro s how tag h
    obtain ⟨-, heq⟩ | ⟨queue, -, heq, -, hrest⟩ := Aged.settle_cases h how tag
    · rw [heq]
      exact ⟨rfl, fun _ _ => rfl, fun _ _ => rfl⟩
    · rw [heq]
      exact ⟨rfl, fun f hf => (by cases hf), fun tag' hother =>
        Aged.lease_congr rfl ((hrest tag').trans (and_iff_left hother))⟩
  leased := by
    intro s tag t how h hleased
    obtain ⟨queue, -, heq, -⟩ := Aged.settle_leased h hleased how
    exact congrArg Prod.fst heq
  nacked := by
    show ∀ {s : Aged} {tag : Int} {t : Nat}, s.queue.WF → s.lease tag = some t →
      ∃ _ : Unit, tag ∈ (s.settle .nack tag).2.queue.ready.map Message.tag
    intro s tag t h hleased
    obtain ⟨queue, hop, heq, -⟩ := Aged.settle_leased h hleased .nack
    obtain ⟨m, front, back, rfl, -, rfl⟩ := MemoryQueue.nack_ok h hop
    rw [heq]
    exact ⟨(), List.mem_map_of_mem ((place_perm m s.queue.ready).mem_iff.2 List.mem_cons_self)⟩
  acked := by
    show ∀ {s : Aged} {tag : Int} {t : Nat} (how : Settlement), s.queue.WF → s.lease tag = some t →
      ∃ tag', tag' = tag ∧ ((s.settle .ack tag).2.settle how tag).1 = .error (.unknownDelivery tag')
    intro s tag t how h hleased
    obtain ⟨queue, hop, heq, hrest⟩ := Aged.settle_leased h hleased .ack
    refine ⟨tag, rfl, ?_⟩
    rw [heq]
    obtain ⟨-, hagain⟩ | ⟨-, -, -, hmem, -⟩ := Aged.settle_cases (s := { s with queue }) (h.apply hop) how tag
    · rw [hagain]
    · exact absurd rfl ((hrest tag).1 hmem).2
  happens := fun e h => Aged.happen_lease h e

/-! ## In a database -/

/-- What happens to a database besides. -/
inductive Passing where
  /-- Work is sent to a queue, of the same name or another. -/
  | send (q : DatabaseQueue) (work : Work)
  | time (nanos : Nat)

end Queue

namespace DatabaseQueue

open Queue Sql

/-- What a settlement does in a database. -/
def settle (how : Settlement) (id : Int64) : Session (Except Queue.Fault Unit) :=
  match how with
  | .ack => ack id
  | .nack => nack id

/-- The database after what happens to it besides. -/
def happen (d : Sql.Database) : Passing → Sql.Database
  | .send q w => ((q.send w).run Sql.Database.execute d).2
  | .time nanos => d.later nanos

variable {d : Sql.Database} {id : Int64} {t : Nat} {q : DatabaseQueue}

/-- The lease of what waits has run out. -/
theorem waiting_free (h : d.Rows) (hwaits : id ∈ (q.waiting d).map MessageRow.id) (hleased : d.lease id = some t) :
    t < d.now := by
  obtain ⟨m, hm, rfl⟩ := List.mem_map.1 hwaits
  obtain ⟨hmem, hfree⟩ := List.mem_filter.1 hm
  obtain ⟨n, hn, hlocked⟩ := Sql.Database.lease_eq_some.1 hleased
  rw [h.message?_of_mem hmem] at hn
  cases hn
  have hpast := (Bool.and_eq_true_iff.1 hfree).2
  rw [MessageRow.isFree, hlocked] at hpast
  exact of_decide_eq_true hpast

/-- A settlement succeeds iff the message is there, whoever has leased it. -/
theorem settle_run (how : Settlement) (id : Int64) (d : Sql.Database) :
    (settle how id).run Sql.Database.execute d =
      (if (d.message? id).isSome then .ok () else .error (.unknownDelivery id.toInt),
        match how with
        | .ack => d.without id
        | .nack => d.touch id released) := by
  cases how with
  | ack => exact ack_run id d
  | nack => exact nack_run id d

theorem settle_leased (hleased : d.lease id = some t) (how : Settlement) :
    ((settle how id).run Sql.Database.execute d).1 = .ok () := by
  obtain ⟨m, hm, -⟩ := Sql.Database.lease_eq_some.1 hleased
  rw [settle_run, hm]
  rfl

/-- A settlement that fails changes nothing. -/
theorem settle_error {how : Settlement} {f : Queue.Fault}
    (hfails : ((settle how id).run Sql.Database.execute d).1 = .error f) :
    ((settle how id).run Sql.Database.execute d).2 = d := by
  rw [settle_run] at hfails ⊢
  cases hm : d.message? id with
  | some m =>
    rw [hm] at hfails
    cases hfails
  | none =>
    cases how with
    | ack => exact Sql.Database.without_missing hm
    | nack => exact Sql.Database.touch_missing hm

theorem rows_settle (h : d.Rows) (how : Settlement) (id : Int64) :
    ((settle how id).run Sql.Database.execute d).2.Rows := by
  rw [settle_run]
  cases how with
  | ack => exact h.without
  | nack => exact h.touch released_keeps

theorem lease_settle_other {other : Int64} (how : Settlement) (hother : other ≠ id) :
    ((settle how id).run Sql.Database.execute d).2.lease other = d.lease other := by
  rw [settle_run]
  cases how with
  | ack => exact Sql.Database.lease_congr (Sql.Database.message?_without_other hother)
  | nack => exact Sql.Database.lease_congr (Sql.Database.message?_touch_other released_keeps hother)

/-- A message that is given back waits in its queue. -/
theorem nack_waits (hleased : d.lease id = some t) :
    ∃ q : DatabaseQueue, id ∈ (q.waiting ((settle .nack id).run Sql.Database.execute d).2).map MessageRow.id := by
  obtain ⟨m, hm, -⟩ := Sql.Database.lease_eq_some.1 hleased
  have htouched := Sql.Database.message?_eq_some (Sql.Database.message?_touch_same released_keeps hm)
  rw [settle_run]
  refine ⟨{ name := m.queue, lease := ⟨0⟩ },
    List.mem_map.2 ⟨released m, List.mem_filter.2 ⟨htouched.1, ?_⟩, htouched.2⟩⟩
  rw [Bool.and_eq_true_iff]
  exact ⟨beq_self_eq_true m.queue, rfl⟩

/-- What is removed cannot be settled any more. -/
theorem ack_again (how : Settlement) (id : Int64) (d : Sql.Database) :
    ((settle how id).run Sql.Database.execute ((settle .ack id).run Sql.Database.execute d).2).1 =
      .error (.unknownDelivery id.toInt) := by
  rw [settle_run .ack, settle_run]
  show (if ((d.without id).message? id).isSome then _ else _) = _
  rw [Sql.Database.message?_without_same]
  rfl

theorem rows_happen (h : d.Rows) (e : Passing) : (happen d e).Rows := by
  cases e with
  | send q w => exact rows_send h w
  | time nanos => exact ⟨h.ids, h.numbered, h.last, h.work⟩

/-- Time goes on, and nobody's lease is touched. -/
theorem happen_lease (e : Passing) : d.now ≤ (happen d e).now ∧
    ∀ {id t}, d.lease id = some t → (happen d e).lease id = some t := by
  cases e with
  | send q w =>
    constructor
    · show d.now ≤ ((q.send w).run Sql.Database.execute d).2.now
      obtain ⟨f, heq⟩ | ⟨-, heq⟩ := send_cases q w d <;> rw [heq]
    · intro id t hleased
      obtain ⟨m, hm, hlocked⟩ := Sql.Database.lease_eq_some.1 hleased
      exact Sql.Database.lease_eq_some.2 ⟨m, message?_send w hm, hlocked⟩
  | time nanos => exact ⟨Nat.le_add_right _ _, fun hleased => hleased⟩

end DatabaseQueue

namespace Queue

open Broker

/-- All queues of a database among their consumers. -/
abbrev databaseBroker : Broker Int64 where
  State := Sql.Database
  Receiver := DatabaseQueue
  Event := Passing
  start := {}
  now := Sql.Database.now
  term := fun q d => d.now + q.lease.nanos
  waiting := fun q d => (q.waiting d).map Sql.MessageRow.id
  message := Int64.ofInt
  receive := fun q => q.receive.run Sql.Database.execute
  settle := fun how id => (DatabaseQueue.settle how id).run Sql.Database.execute
  happen := fun e d => DatabaseQueue.happen d e

/-- The row of a message says when its lease ends. -/
def databaseLessor : Lessor databaseBroker where
  Sound := Sql.Database.Rows
  lease := Sql.Database.lease
  start := .empty
  soundReceive := fun _ h => DatabaseQueue.rows_receive h
  soundSettle := fun how id h => DatabaseQueue.rows_settle h how id
  soundHappen := fun e h => DatabaseQueue.rows_happen h e
  waits := fun h hwaits hleased => DatabaseQueue.waiting_free h hwaits hleased
  received := by
    intro d q h
    obtain ⟨hempty, heq⟩ | ⟨m, rest, w, hwaiting, -, heq⟩ := DatabaseQueue.receive_cases h q
    · rw [show databaseBroker.receive q d = _ from heq]
      refine ⟨rfl, .inl ⟨.inl ?_, rfl, fun d hd => by cases hd⟩⟩
      show (q.waiting d).map Sql.MessageRow.id = []
      rw [hempty, List.map_nil]
    · have hm : m ∈ d.tables.messages :=
        (List.mem_filter.1 (show m ∈ q.waiting d from hwaiting ▸ List.mem_cons_self)).1
      have hid : databaseBroker.message m.id.toInt = m.id := Int64.ofInt_toInt m.id
      rw [show databaseBroker.receive q d = _ from heq]
      refine ⟨rfl, .inr ⟨_, rfl, ?_, ?_, fun id hother => ?_⟩⟩
      · show ((q.waiting d).map Sql.MessageRow.id).head? = some (databaseBroker.message m.id.toInt)
        rw [hwaiting, hid]
        rfl
      · show Sql.Database.lease _ (databaseBroker.message m.id.toInt) = _
        rw [hid]
        exact Sql.Database.lease_eq_some.2 ⟨_, Sql.Database.message?_touch_same (DatabaseQueue.delivered_keeps _)
          (h.message?_of_mem hm), rfl⟩
      · rw [show databaseBroker.message _ = m.id from hid] at hother
        exact Sql.Database.lease_congr (Sql.Database.message?_touch_other (DatabaseQueue.delivered_keeps _) hother)
  settles := by
    intro d how id _
    refine ⟨?_, fun f hfails => DatabaseQueue.settle_error hfails, fun other hother =>
      DatabaseQueue.lease_settle_other how hother⟩
    rw [show databaseBroker.settle how id d = _ from DatabaseQueue.settle_run how id d]
    cases how <;> rfl
  leased := fun how _ hleased => DatabaseQueue.settle_leased hleased how
  nacked := fun _ hleased => DatabaseQueue.nack_waits hleased
  acked := fun {d id t} how _ _ => ⟨id.toInt, Int64.ofInt_toInt id, DatabaseQueue.ack_again how id d⟩
  happens := fun e _ =>
    ⟨(DatabaseQueue.happen_lease e).1, fun hleased _ => (DatabaseQueue.happen_lease e).2 hleased⟩

/-! ## Both -/

/-- In memory and in a database, whatever happens, a delivery holds its message until its lease has run out or
the message is settled, be it by an earlier delivery. -/
theorem deliveries_guarded (inMemory : List memoryBroker.Move) (stored : List databaseBroker.Move) :
    Guarded (Broker.History.of inMemory) ∧ Guarded (Broker.History.of stored) :=
  ⟨guarded_of memoryLessor inMemory, guarded_of databaseLessor stored⟩

/-! ### A settlement that comes late -/

/-- What leases would be good for if a settlement touched no delivery but its own: as long as its lease runs, a
delivery that is not settled holds its message. -/
def Exclusive {Tag : Type} {b : Broker Tag} (s : b.History) : Prop :=
  ∀ h ∈ s.handed, h.settled = false → b.now s.queue ≤ h.ends →
    (∀ r d, (b.receive r s.queue).1 = .ok (some d) → b.message d.tag ≠ h.message) ∧
      (b.settle .ack h.message s.queue).1 = .ok ()

namespace Sample

variable (w : Work)

/-! In memory: a single message is ready, or leased, after so many deliveries. -/

def ready (n : UInt32) (age : Nat) : Aged := ⟨⟨1, [⟨1, w.payload, n⟩], [], false⟩, age⟩

def leased (n : UInt32) (age : Nat) : Aged := ⟨⟨1, [], [⟨1, w.payload, n⟩], false⟩, age⟩

theorem receive_ready (n : UInt32) (age : Nat) :
    memoryBroker.receive () (ready w n age) = (.ok (some ⟨1, w, decide (1 < n + 1)⟩), leased w (n + 1) age) := by
  show Aged.receive (ready w n age) = _
  unfold Aged.receive ready
  rw [MemoryQueue.receive_oldest rfl rfl rfl]
  rfl

/-- The message is delivered again after its first lease has run out. -/
def again : List memoryBroker.Move := [.happen (.send w), .receive (), .happen .runOut, .receive ()]

theorem of_again : Broker.History.of (again w) =
    (⟨leased w 2 1, [⟨1, 0, false, false⟩, ⟨1, 1, false, false⟩]⟩ : memoryBroker.History) := by
  have hfirst : Broker.History.after (b := memoryBroker) ⟨ready w 0 0, []⟩ (.receive ()) =
      ⟨leased w 1 0, [⟨1, 0, false, false⟩]⟩ := by
    rw [Broker.History.after_receive, receive_ready]
    rfl
  calc Broker.History.of (again w)
      = ((Broker.History.after (b := memoryBroker) ⟨ready w 0 0, []⟩ (.receive ())).after (.happen .runOut)).after
          (.receive ()) := rfl
    _ = Broker.History.after (b := memoryBroker) ⟨ready w 1 1, [⟨1, 0, false, false⟩]⟩ (.receive ()) := by
        rw [hfirst]
        rfl
    _ = _ := by
        rw [Broker.History.after_receive, receive_ready]
        rfl

/-! In a database: its row, leased up to a time. -/

def queue : DatabaseQueue := { lease := ⟨5⟩ }

def stored (payload : Bytes) (lockedUntil : Option Nat) (n now : Nat) : Sql.Database :=
  { tables := { messages := [⟨1, "work", payload, lockedUntil, n⟩] }, lastMessage := 1, now }

variable {w} {payload : Bytes}

theorem receive_stored (hpayload : payload = Text.bytes w.payload) (lockedUntil : Option Nat) (n now : Nat)
    (hfree : lockedUntil.all (· < now)) :
    ∃ d, databaseBroker.receive queue (stored payload lockedUntil n now) =
      (.ok (some d), stored payload (some (now + 5)) (n + 1) now) ∧ d.tag = 1 := by
  have hrows : (stored payload lockedUntil n now).Rows :=
    ⟨List.nodup_singleton _, List.forall_mem_singleton.2 (show (1 : Int64).toInt ≤ 1 by decide),
      show 1 < Nat.pow 2 63 by decide, List.forall_mem_singleton.2 ⟨w, hpayload⟩⟩
  have hwaiting : queue.waiting (stored payload lockedUntil n now) =
      (stored payload lockedUntil n now).tables.messages := by
    refine List.filter_eq_self.2 (List.forall_mem_singleton.2 ?_)
    rw [Bool.and_eq_true_iff]
    exact ⟨rfl, hfree⟩
  obtain ⟨hempty, -⟩ | ⟨m, rest, w, hfirst, -, heq⟩ := DatabaseQueue.receive_cases hrows queue
  · cases hwaiting.symm.trans hempty
  · cases hwaiting.symm.trans hfirst
    exact ⟨_, heq, rfl⟩

/-- What a message gets that is given back. -/
theorem nack_stored (lockedUntil : Option Nat) (n now : Nat) :
    (databaseBroker.settle .nack 1 (stored payload lockedUntil n now)).2 = stored payload none n now :=
  congrArg Prod.snd (DatabaseQueue.settle_run .nack 1 _)

variable (w) in
def againStored : List databaseBroker.Move :=
  [.happen (.send queue w), .receive queue, .happen (.time 6), .receive queue]

theorem of_againStored (hpayload : payload = Text.bytes w.payload) : Broker.History.of (againStored w) =
    (⟨stored payload (some 11) 2 6, [⟨1, 5, false, false⟩, ⟨1, 11, false, false⟩]⟩ : databaseBroker.History) := by
  obtain ⟨d, hd, htag⟩ := receive_stored hpayload none 0 0 rfl
  obtain ⟨e, he, hetag⟩ := receive_stored hpayload (some 5) 1 6 rfl
  have hsent : DatabaseQueue.happen {} (.send queue w) = stored payload none 0 0 := by
    rw [hpayload]
    obtain ⟨f, heq⟩ | ⟨-, heq⟩ := DatabaseQueue.send_cases queue w {}
    · cases heq
    · exact congrArg Prod.snd heq
  have hfirst : Broker.History.after (b := databaseBroker) ⟨stored payload none 0 0, []⟩ (.receive queue) =
      ⟨stored payload (some 5) 1 0, [⟨1, 5, false, false⟩]⟩ := by
    rw [Broker.History.after_receive, hd]
    show Broker.History.mk _ [⟨Int64.ofInt d.tag, _, _, _⟩] = _
    rw [htag]
    rfl
  calc Broker.History.of (againStored w)
      = ((Broker.History.after (b := databaseBroker) ⟨DatabaseQueue.happen {} (.send queue w), []⟩
          (.receive queue)).after (.happen (.time 6))).after (.receive queue) := rfl
    _ = Broker.History.after (b := databaseBroker) ⟨stored payload (some 5) 1 6, [⟨1, 5, false, false⟩]⟩
          (.receive queue) := by
        rw [hsent, hfirst]
        rfl
    _ = _ := by
        rw [Broker.History.after_receive, he]
        show Broker.History.mk _ [_, ⟨Int64.ofInt e.tag, _, _, _⟩] = _
        rw [hetag]
        rfl

end Sample

/-- The first holder settles a message while the second one's lease runs: given back, it is delivered a third
time; removed, the second holder cannot settle it. -/
theorem late_settlement_not_exclusive :
    (∀ how, ¬ Exclusive (Broker.History.of (Sample.again Sample.work ++ [Broker.Move.settle how 0]))) ∧
      ∀ how, ¬ Exclusive (Broker.History.of (Sample.againStored Sample.work ++ [Broker.Move.settle how 0])) := by
  generalize Sample.work = w
  constructor
  · intro how hexclusive
    rw [Broker.History.of_concat, Sample.of_again] at hexclusive
    obtain ⟨hkept, hsettled⟩ := hexclusive ⟨1, 1, false, true⟩
      (by cases how <;> exact List.mem_cons_of_mem _ List.mem_cons_self) rfl (by cases how <;> exact Nat.le_refl 1)
    -- the second holder finds its message gone, or somebody else is handed it
    cases how with
    | ack => cases hsettled
    | nack => exact hkept () _ (congrArg Prod.fst (Sample.receive_ready w 2 1)) rfl
  · intro how hexclusive
    obtain ⟨payload, hpayload⟩ : ∃ payload, payload = Text.bytes w.payload := ⟨_, rfl⟩
    rw [Broker.History.of_concat, Sample.of_againStored hpayload] at hexclusive
    obtain ⟨hkept, hsettled⟩ := hexclusive ⟨1, 11, false, true⟩
      (by cases how <;> exact List.mem_cons_of_mem _ List.mem_cons_self) rfl
      (by cases how <;> exact Nat.le_of_ble_eq_true rfl)
    cases how with
    | ack => cases hsettled
    | nack =>
      obtain ⟨d, hd, htag⟩ := Sample.receive_stored hpayload none 2 6 rfl
      rw [Broker.History.after_settle (h := ⟨1, 5, false, false⟩) rfl rfl, Sample.nack_stored] at hkept
      exact hkept Sample.queue d (congrArg Prod.fst hd) (congrArg Int64.ofInt htag)

end Queue

end Pipeworks
