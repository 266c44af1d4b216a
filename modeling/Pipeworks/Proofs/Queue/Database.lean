/-
The queue in a database: every message has an id of its own that was given to it once, and carries work
(`Rows`). For each statement that the queue executes it is said what it does to the row of one message, and
that it keeps the rows so.
-/
import Mathlib.Data.List.Nodup
import Pipeworks.Proofs.Pipeline.Wire
import Pipeworks.Queue.Database
import Pipeworks.Sql.Database

namespace Pipeworks

namespace Sql.Database

/-- The row of a message. -/
def message? (d : Database) (id : Int64) : Option MessageRow := d.tables.messages.find? (·.id == id)

/-- Every message has an id of its own, out of those given so far, and carries work. -/
structure Rows (d : Database) : Prop where
  ids : (d.tables.messages.map MessageRow.id).Nodup
  numbered : ∀ m ∈ d.tables.messages, m.id.toInt ≤ d.lastMessage
  last : d.lastMessage < Nat.pow 2 63
  work : ∀ m ∈ d.tables.messages, ∃ w : Work, m.payload = Text.bytes w.payload

variable {d : Database} {id : Int64} {m : MessageRow}

theorem Rows.empty : Rows {} :=
  ⟨List.nodup_nil, List.forall_mem_nil _, by decide, List.forall_mem_nil _⟩

theorem Rows.eq_of_id (h : d.Rows) {n : MessageRow} (hm : m ∈ d.tables.messages) (hn : n ∈ d.tables.messages)
    (heq : n.id = m.id) : n = m :=
  List.inj_on_of_nodup_map h.ids hn hm heq

theorem message?_eq_some (h : d.message? id = some m) : m ∈ d.tables.messages ∧ m.id = id :=
  ⟨List.mem_of_find?_eq_some h, beq_iff_eq.1 (List.find?_some (p := fun n : MessageRow => n.id == id) h)⟩

theorem Rows.message?_of_mem (h : d.Rows) (hm : m ∈ d.tables.messages) : d.message? m.id = some m := by
  cases hfound : d.message? m.id with
  | none => exact absurd (beq_self_eq_true m.id) (List.find?_eq_none.1 hfound m hm)
  | some n =>
    obtain ⟨hn, hid⟩ := message?_eq_some hfound
    rw [h.eq_of_id hm hn hid]

/-- When the lease of a message ends, if it has been given one. -/
def lease (d : Database) (id : Int64) : Option Nat := (d.message? id).bind MessageRow.lockedUntil

theorem lease_eq_some {t : Nat} : d.lease id = some t ↔ ∃ m, d.message? id = some m ∧ m.lockedUntil = some t :=
  Option.bind_eq_some_iff

theorem lease_congr {d' : Database} (h : d'.message? id = d.message? id) : d'.lease id = d.lease id := by
  unfold lease
  rw [h]

/-! ## Changes of one message -/

/-- What a change of its row leaves of a message. -/
structure KeepsMessage (change : MessageRow → MessageRow) : Prop where
  id : ∀ m, (change m).id = m.id
  payload : ∀ m, (change m).payload = m.payload

/-- The database with the row of one message changed. -/
def touch (id : Int64) (change : MessageRow → MessageRow) (d : Database) : Database :=
  { d with tables := { d.tables with
    messages := d.tables.messages.map fun m => if m.id == id then change m else m } }

/-- The database without a message. -/
def without (id : Int64) (d : Database) : Database :=
  { d with tables := { d.tables with messages := d.tables.messages.filter (·.id != id) } }

variable {change : MessageRow → MessageRow}

theorem touched_id (h : KeepsMessage change) (m : MessageRow) :
    (if m.id == id then change m else m).id = m.id := by
  split
  · exact h.id m
  · rfl

theorem Rows.touch (h : d.Rows) (hchange : KeepsMessage change) : (d.touch id change).Rows := by
  refine ⟨?_, fun m hm => ?_, h.last, fun m hm => ?_⟩
  · show ((d.tables.messages.map _).map MessageRow.id).Nodup
    have hids : (MessageRow.id ∘ fun m => if m.id == id then change m else m) = MessageRow.id :=
      funext fun m => touched_id hchange m
    rw [List.map_map, hids]
    exact h.ids
  · obtain ⟨n, hn, rfl⟩ := List.mem_map.1 hm
    rw [touched_id hchange]
    exact h.numbered n hn
  · obtain ⟨n, hn, rfl⟩ := List.mem_map.1 hm
    obtain ⟨w, hw⟩ := h.work n hn
    refine ⟨w, ?_⟩
    split
    · exact (hchange.payload n).trans hw
    · exact hw

theorem Rows.without (h : d.Rows) : (d.without id).Rows :=
  have hkept : (d.without id).tables.messages.Sublist d.tables.messages := List.filter_sublist
  ⟨h.ids.sublist (hkept.map _), fun m hm => h.numbered m (hkept.subset hm), h.last,
    fun m hm => h.work m (hkept.subset hm)⟩

theorem message?_touch (hchange : KeepsMessage change) (id other : Int64) :
    (d.touch id change).message? other = (d.message? other).map fun m => if m.id == id then change m else m := by
  show (d.tables.messages.map _).find? _ = _
  rw [List.find?_map]
  congr 1
  refine congrArg (d.tables.messages.find? ·) (funext fun m => ?_)
  show ((if m.id == id then change m else m).id == other) = (m.id == other)
  rw [touched_id hchange]

theorem message?_touch_same (hchange : KeepsMessage change) (hm : d.message? id = some m) :
    (d.touch id change).message? id = some (change m) := by
  rw [message?_touch hchange, hm, Option.map_some, if_pos (beq_iff_eq.2 (message?_eq_some hm).2)]

theorem message?_touch_other (hchange : KeepsMessage change) {other : Int64} (hother : other ≠ id) :
    (d.touch id change).message? other = d.message? other := by
  rw [message?_touch hchange]
  cases hm : d.message? other with
  | none => rfl
  | some m =>
    have hid : m.id ≠ id := (message?_eq_some hm).2 ▸ hother
    rw [Option.map_some, if_neg (mt beq_iff_eq.1 hid)]

/-- What is not there is not changed, and does not go. -/
theorem touch_missing (hm : d.message? id = none) : d.touch id change = d := by
  have hothers : ∀ m ∈ d.tables.messages, (if m.id == id then change m else m) = m := fun m hmem =>
    if_neg (List.find?_eq_none.1 hm m hmem)
  unfold touch
  rw [List.map_congr_left hothers, List.map_id']

theorem without_missing (hm : d.message? id = none) : d.without id = d := by
  have hothers : ∀ m ∈ d.tables.messages, (m.id != id) = true := fun m hmem =>
    bne_iff_ne.2 (mt beq_iff_eq.2 (List.find?_eq_none.1 hm m hmem))
  unfold without
  rw [List.filter_eq_self.2 hothers]

theorem message?_without_same : (d.without id).message? id = none := by
  refine List.find?_eq_none.2 fun m hm heq => ?_
  have hkept := (List.mem_filter.1 hm).2
  rw [bne, heq] at hkept
  cases hkept

theorem message?_without_other {other : Int64} (hother : other ≠ id) :
    (d.without id).message? other = d.message? other := by
  show (d.tables.messages.filter _).find? _ = _
  rw [List.find?_filter]
  refine congrArg (d.tables.messages.find? ·) (funext fun m => ?_)
  by_cases heq : m.id = other
  · simp [heq, hother]
  · simp [heq]

end Sql.Database

namespace DatabaseQueue

open Queue Sql

variable {d : Sql.Database} {id : Int64} {m : MessageRow} {q : DatabaseQueue}

theorem readPayload_payload (w : Work) : readPayload (Text.bytes w.payload) = .ok w := by
  unfold readPayload
  rw [Json.ofBytes_bytes]
  exact w.ofPayload_payload

theorem readPayload_of {w : Work} {payload : Bytes} (h : payload = Text.bytes w.payload) :
    readPayload payload = .ok w :=
  h ▸ readPayload_payload w

/-! ## Sending -/

/-- Work that is sent is a row under the next id, or there is no id left. -/
theorem send_cases (q : DatabaseQueue) (w : Work) (d : Sql.Database) :
    (∃ f, (q.send w).run Sql.Database.execute d = (.error f, d)) ∨
    d.lastMessage + 1 < Nat.pow 2 63 ∧ (q.send w).run Sql.Database.execute d = (.ok (), { d with
      lastMessage := d.lastMessage + 1
      tables := { d.tables with
        messages := d.tables.messages ++
          [⟨Int64.ofNat (d.lastMessage + 1), q.name, Text.bytes w.payload, none, 0⟩] } }) := by
  unfold send
  rw [Program.run]
  by_cases hleft : d.lastMessage + 1 < Nat.pow 2 63
  · refine .inr ⟨hleft, ?_⟩
    rw [Sql.Database.execute, if_pos hleft]
    rfl
  · refine .inl ⟨.database .exhausted, ?_⟩
    rw [Sql.Database.execute, if_neg hleft]
    rfl

theorem rows_send (h : d.Rows) (w : Work) : ((q.send w).run Sql.Database.execute d).2.Rows := by
  obtain ⟨f, heq⟩ | ⟨hleft, heq⟩ := send_cases q w d
  · rw [heq]
    exact h
  · rw [heq]
    have hid : (Int64.ofNat (d.lastMessage + 1)).toInt = (d.lastMessage + 1 : Nat) :=
      Int64.toInt_ofNat_of_lt hleft
    refine ⟨?_, fun m hm => ?_, hleft, fun m hm => ?_⟩
    · show ((d.tables.messages ++ [_]).map MessageRow.id).Nodup
      rw [List.map_append, List.nodup_append]
      refine ⟨h.ids, List.nodup_singleton _, ?_⟩
      rintro _ hgiven _ hnew rfl
      obtain ⟨n, hn, hsame⟩ := List.mem_map.1 hgiven
      have hnumber := h.numbered n hn
      rw [hsame.trans (List.mem_singleton.1 hnew), hid] at hnumber
      omega
    · rcases List.mem_append.1 hm with hm | hm
      · have hnumber := h.numbered m hm
        show m.id.toInt ≤ (d.lastMessage + 1 : Nat)
        omega
      · rw [List.mem_singleton.1 hm]
        exact Int.le_of_eq hid
    · rcases List.mem_append.1 hm with hm | hm
      · exact h.work m hm
      · exact ⟨w, by rw [List.mem_singleton.1 hm]⟩

/-- A message that is there keeps its row when another is sent. -/
theorem message?_send (w : Work) (hm : d.message? id = some m) :
    ((q.send w).run Sql.Database.execute d).2.message? id = some m := by
  obtain ⟨f, heq⟩ | ⟨-, heq⟩ := send_cases q w d
  · rw [heq]
    exact hm
  · rw [heq]
    show (d.tables.messages ++ [_]).find? (·.id == id) = some m
    rw [List.find?_append, show d.tables.messages.find? (·.id == id) = some m from hm, Option.some_or]

/-! ## Receiving -/

/-- The row of a message after one more delivery. -/
def delivered (expiry : Nat) (m : MessageRow) : MessageRow :=
  { m with lockedUntil := some expiry, deliveries := m.deliveries + 1 }

theorem delivered_keeps (expiry : Nat) : Sql.Database.KeepsMessage (delivered expiry) :=
  ⟨fun _ => rfl, fun _ => rfl⟩

/-- The messages of the queue that may be leased, in the order of their rows. -/
def waiting (q : DatabaseQueue) (d : Sql.Database) : List MessageRow :=
  d.tables.messages.filter fun m => m.queue == q.name && m.isFree d.now

theorem lease_touch (h : d.Rows) (hm : m ∈ d.tables.messages) (expiry : Nat) :
    { d with tables := { d.tables with
      messages := d.tables.messages.map fun n => if n.id == m.id then delivered expiry m else n } } =
      d.touch m.id (delivered expiry) := by
  have hsame : ∀ n ∈ d.tables.messages, (if n.id == m.id then delivered expiry m else n) =
      if n.id == m.id then delivered expiry n else n := by
    intro n hn
    split
    case isTrue heq => rw [h.eq_of_id hm hn (beq_iff_eq.1 heq)]
    case isFalse => rfl
  unfold Sql.Database.touch
  rw [List.map_congr_left hsame]

/-- Nothing is received, or the first message that waits, and it is leased. -/
theorem receive_cases (h : d.Rows) (q : DatabaseQueue) :
    (q.waiting d = [] ∧ q.receive.run Sql.Database.execute d = (.ok none, d)) ∨
    ∃ m rest w, q.waiting d = m :: rest ∧ m.payload = Text.bytes w.payload ∧
      q.receive.run Sql.Database.execute d = (.ok (some ⟨m.id.toInt, w, decide (0 < m.deliveries)⟩),
        d.touch m.id (delivered (d.now + q.lease.nanos))) := by
  have hhead : (q.waiting d).head? = d.tables.messages.find? fun m => m.queue == q.name && m.isFree d.now :=
    List.head?_filter
  unfold receive
  rw [Program.run, Sql.Database.execute, Sql.Database.change, Sql.Tables.leaseMessage, ← hhead]
  cases hwaiting : q.waiting d with
  | nil => exact .inl ⟨rfl, rfl⟩
  | cons m rest =>
    have hm : m ∈ d.tables.messages :=
      (List.mem_filter.1 (show m ∈ q.waiting d from hwaiting ▸ List.mem_cons_self)).1
    obtain ⟨w, hw⟩ := h.work m hm
    refine .inr ⟨m, rest, w, rfl, hw, ?_⟩
    have hread : readMessage (delivered (d.now + q.lease.nanos) m).columns =
        .ok (m.id, m.payload, m.deliveries + 1) := rfl
    have hagain : (1 < m.deliveries + 1) = (0 < m.deliveries) := propext (by omega)
    rw [← lease_touch h hm]
    unfold delivered at hread ⊢
    simp only [List.head?_cons, hread, readPayload_of hw, hagain]
    rfl

theorem rows_receive (h : d.Rows) : (q.receive.run Sql.Database.execute d).2.Rows := by
  obtain ⟨-, heq⟩ | ⟨m, rest, w, -, -, heq⟩ := receive_cases h q
  · rw [heq]
    exact h
  · rw [heq]
    exact h.touch (delivered_keeps _)

/-! ## Settling -/

/-- The row of a message whose lease has been ended. -/
def released (m : MessageRow) : MessageRow := { m with lockedUntil := none }

theorem released_keeps : Sql.Database.KeepsMessage released := ⟨fun _ => rfl, fun _ => rfl⟩

/-- A settlement succeeds iff the message is there, leased or not. -/
theorem settled_count (id : Int64) (d : Sql.Database) :
    settled id (.ok (d.tables.messages.countP (·.id == id))) =
      if (d.message? id).isSome then .ok () else .error (.unknownDelivery id.toInt) := by
  cases hm : d.message? id with
  | none =>
    have hcount : d.tables.messages.countP (·.id == id) = 0 :=
      List.countP_eq_zero.2 (List.find?_eq_none.1 hm)
    rw [hcount]
    rfl
  | some m =>
    obtain ⟨hmem, hid⟩ := Sql.Database.message?_eq_some hm
    have hcount : 0 < d.tables.messages.countP (·.id == id) :=
      List.countP_pos_iff.2 ⟨m, hmem, beq_iff_eq.2 hid⟩
    obtain ⟨n, hn⟩ := Nat.exists_eq_succ_of_ne_zero (Nat.ne_of_gt hcount)
    rw [hn]
    rfl

theorem ack_run (id : Int64) (d : Sql.Database) : (ack id).run Sql.Database.execute d =
    (if (d.message? id).isSome then .ok () else .error (.unknownDelivery id.toInt), d.without id) := by
  rw [← settled_count]
  rfl

theorem nack_run (id : Int64) (d : Sql.Database) : (nack id).run Sql.Database.execute d =
    (if (d.message? id).isSome then .ok () else .error (.unknownDelivery id.toInt), d.touch id released) := by
  rw [← settled_count]
  rfl

end DatabaseQueue

end Pipeworks
