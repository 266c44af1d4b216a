/-
The queue in memory: its messages have numbers that were given to them once, and those that are ready stand
in the order of their numbers (`WF`). For each operation it is said what it may do to a queue, and that it
keeps the numbers and the order; later proofs about queues never open an operation again.
-/
import Mathlib.Data.List.Nodup
import Mathlib.Data.List.Perm.Basic
import Pipeworks.Proofs.Pipeline.Wire
import Pipeworks.Queue.Memory

namespace Pipeworks

namespace Queue

/-- The tag of a delivery of the message. -/
def Message.tag (m : Message) : Int := m.id

/-- What a message is, however often it has been delivered. -/
def Message.content (m : Message) : Nat × String := (m.id, m.payload)

/-- The message after one more delivery. -/
def Message.delivered (m : Message) : Message := { m with deliveries := m.deliveries + 1 }

/-- What the next delivery of the message says: whether there was one before, by the count of them. -/
def Message.again (m : Message) : Bool := decide (1 < m.delivered.deliveries)

/-- The oldest message comes first. -/
def InOrder (ms : List Message) : Prop := ms.Pairwise fun m n => m.id < n.id

/-- The work of the histories that are looked at one by one. -/
def Sample.work : Work :=
  ⟨⟨1, .pending, "c0ffee", "https://example.org/widget.git", "", none, none, 1⟩, { accessToken := "secret" }⟩

theorem tag_inj {m n : Message} : m.tag = n.tag ↔ m.id = n.id := Int.natCast_inj

/-! ## Places -/

variable {m : Message} {ms : List Message}

theorem place_perm (m : Message) (ms : List Message) : (place m ms).Perm (m :: ms) := by
  induction ms with
  | nil => exact .rfl
  | cons n ns ih =>
    unfold place
    split
    · exact .rfl
    · exact (ih.cons n).trans (.swap m n ns)

/-- A message that was sent last goes to the end. -/
theorem place_last (h : ∀ n ∈ ms, n.id < m.id) : place m ms = ms ++ [m] := by
  induction ms with
  | nil => rfl
  | cons n ns ih =>
    obtain ⟨hn, hns⟩ := List.forall_mem_cons.1 h
    rw [place, if_neg (Nat.not_lt.2 (Nat.le_of_lt hn)), ih hns, List.cons_append]

theorem InOrder.place (h : InOrder ms) (hnew : ∀ n ∈ ms, n.id ≠ m.id) : InOrder (place m ms) := by
  induction ms with
  | nil => exact List.pairwise_singleton _ _
  | cons n ns ih =>
    obtain ⟨hn, hns⟩ := List.pairwise_cons.1 h
    obtain ⟨hne, hnews⟩ := List.forall_mem_cons.1 hnew
    unfold Queue.place
    split
    case isTrue hlt =>
      exact List.pairwise_cons.2 ⟨List.forall_mem_cons.2 ⟨hlt, fun k hk => Nat.lt_trans hlt (hn k hk)⟩, h⟩
    case isFalse hge =>
      refine List.pairwise_cons.2 ⟨fun k hk => ?_, ih hns hnews⟩
      rcases List.mem_cons.1 ((place_perm m ns).mem_iff.1 hk) with rfl | hk
      · omega
      · exact hn k hk

/-- A message that is left out may be anywhere. -/
theorem filter_place {p : Message → Bool} (hout : p m = false) : (place m ms).filter p = ms.filter p := by
  induction ms with
  | nil => exact List.filter_cons_of_neg (by rw [hout]; exact Bool.false_ne_true)
  | cons n ns ih =>
    unfold place
    split
    · exact List.filter_cons_of_neg (by rw [hout]; exact Bool.false_ne_true)
    · rw [List.filter_cons, List.filter_cons, ih]

theorem foldl_place_perm (leased ready : List Message) :
    (leased.foldl (fun ready m => place m ready) ready).Perm (leased ++ ready) := by
  induction leased generalizing ready with
  | nil => exact .rfl
  | cons m ms ih =>
    rw [List.foldl_cons, List.cons_append]
    exact (ih _).trans (((place_perm m ready).append_left ms).trans List.perm_middle)

theorem InOrder.foldl_place {leased ready : List Message} (h : InOrder ready)
    (htags : ((leased ++ ready).map Message.tag).Nodup) :
    InOrder (leased.foldl (fun ready m => Queue.place m ready) ready) := by
  induction leased generalizing ready with
  | nil => exact h
  | cons m ms ih =>
    rw [List.cons_append, List.map_cons, List.nodup_cons] at htags
    refine ih (h.place fun n hn heq => ?_) ?_
    · exact htags.1 (List.mem_map.2 ⟨n, List.mem_append_right _ hn, tag_inj.2 heq⟩)
    · have hperm : (ms ++ Queue.place m ready).Perm (m :: (ms ++ ready)) :=
        ((place_perm m ready).append_left ms).trans List.perm_middle
      rw [(hperm.map Message.tag).nodup_iff, List.map_cons, List.nodup_cons]
      exact htags

end Queue

open Queue

namespace MemoryQueue

/-- All messages, those that are ready first. -/
def held (q : MemoryQueue) : List Message := q.ready ++ q.inFlight

/-- The messages that are ready stand in order, and every message has a number of its own that was given
to it and carries work. -/
structure WF (q : MemoryQueue) : Prop where
  inOrder : InOrder q.ready
  tags : (q.held.map Message.tag).Nodup
  numbered : ∀ m ∈ q.held, m.id ≤ q.lastId
  work : ∀ m ∈ q.held, ∃ w : Work, m.payload = w.payload

variable {q q' : MemoryQueue} {tag : Int} {w : Work}

theorem WF.empty : WF {} := ⟨.nil, List.nodup_nil, List.forall_mem_nil _, List.forall_mem_nil _⟩

/-- Messages may be moved, delivered and dropped. -/
theorem WF.of_subperm (h : q.WF)
    (hheld : (q'.held.map Message.content).Subperm (q.held.map Message.content)) (horder : InOrder q'.ready)
    (hlast : q'.lastId = q.lastId) : q'.WF := by
  have hkept : ∀ m ∈ q'.held, ∃ n ∈ q.held, n.content = m.content := fun m hm =>
    List.mem_map.1 (hheld.subset (List.mem_map_of_mem hm))
  refine ⟨horder, ?_, fun m hm => ?_, fun m hm => ?_⟩
  · obtain ⟨contents, hperm, hsub⟩ := hheld
    have htags : ∀ ms : List Message, ms.map Message.tag = (ms.map Message.content).map fun c => (c.1 : Int) := by
      intro ms
      rw [List.map_map]
      rfl
    rw [htags, ← (hperm.map _).nodup_iff]
    exact (htags q.held ▸ h.tags).sublist (hsub.map _)
  · obtain ⟨n, hn, heq⟩ := hkept m hm
    have hid : n.id = m.id := congrArg Prod.fst heq
    rw [hlast, ← hid]
    exact h.numbered n hn
  · obtain ⟨n, hn, heq⟩ := hkept m hm
    obtain ⟨w, hw⟩ := h.work n hn
    exact ⟨w, (congrArg Prod.snd heq).symm.trans hw⟩

/-! ## What each operation does -/

/-- Work that is sent goes to the end under the next number. -/
theorem send_eq (h : q.WF) (hup : q.unavailable = false) (w : Work) :
    q.send w = .ok { q with
      lastId := q.lastId + 1, ready := q.ready ++ [⟨q.lastId + 1, w.payload, 0⟩] } := by
  have hlast : ∀ n ∈ q.ready, n.id < q.lastId + 1 := fun n hn =>
    Nat.lt_succ_of_le (h.numbered n (List.mem_append_left _ hn))
  unfold send
  rw [hup]
  show Except.ok _ = _
  rw [place_last hlast]

theorem send_down (hdown : q.unavailable) (w : Work) : q.send w = .error .unavailable := by
  unfold send
  rw [if_pos hdown]

theorem send_ok (h : q.WF) (hsend : q.send w = .ok q') :
    q' = { q with lastId := q.lastId + 1, ready := q.ready ++ [⟨q.lastId + 1, w.payload, 0⟩] } := by
  have hup : q.unavailable = false := by
    cases hup : q.unavailable with
    | false => rfl
    | true =>
      rw [send_down hup] at hsend
      cases hsend
  rw [send_eq h hup] at hsend
  exact (Except.ok.inj hsend).symm

/-- The message that is sent is held besides those before. -/
theorem send_perm (h : q.WF) (hsend : q.send w = .ok q') :
    q'.held.Perm (⟨q.lastId + 1, w.payload, 0⟩ :: q.held) := by
  obtain rfl := send_ok h hsend
  rw [held, List.append_assoc]
  exact List.perm_middle

theorem leased?_cases (h : q.WF) (tag : Int) :
    (q.leased? tag = none ∧ ∀ m ∈ q.inFlight, m.tag ≠ tag) ∨
    ∃ m front back, q.leased? tag = some m ∧ m.tag = tag ∧ q.inFlight = front ++ m :: back ∧
      q.release tag = front ++ back := by
  cases hleased : q.leased? tag with
  | none =>
    refine .inl ⟨rfl, fun m hm heq => ?_⟩
    have hfound := List.find?_eq_none.1 hleased m hm
    exact hfound (beq_iff_eq.2 heq)
  | some m =>
    have htag : m.tag = tag := by simpa [Message.tag] using List.find?_some hleased
    obtain ⟨front, back, hflight⟩ := List.append_of_mem (List.mem_of_find?_eq_some hleased)
    refine .inr ⟨m, front, back, rfl, htag, hflight, ?_⟩
    -- the others have other numbers, so they stay
    have hothers : ∀ n ∈ front ++ back, n.tag ≠ tag := by
      intro n hn heq
      have htags := h.tags
      rw [held, hflight, List.map_append, List.nodup_append] at htags
      have hmiddle : (front ++ m :: back).Perm (m :: (front ++ back)) := List.perm_middle
      have hown := ((hmiddle.map Message.tag).nodup_iff.1 htags.2.1)
      rw [List.map_cons, List.nodup_cons] at hown
      exact hown.1 (List.mem_map.2 ⟨n, hn, heq.trans htag.symm⟩)
    have hkeep : ∀ n ∈ front ++ back, ((n.id : Int) != tag) = true := fun n hn =>
      bne_iff_ne.2 (hothers n hn)
    have hdrop : ((m.id : Int) != tag) = false := by simpa [Message.tag] using htag
    rw [release, hflight, List.filter_append, List.filter_cons, hdrop]
    simp only [Bool.false_eq_true, if_false]
    rw [← List.filter_append, List.filter_eq_self.2 hkeep]

theorem ack_ok (h : q.WF) (hack : q.ack tag = .ok q') :
    ∃ m front back, m.tag = tag ∧ q.inFlight = front ++ m :: back ∧
      q' = { q with inFlight := front ++ back } := by
  unfold ack at hack
  obtain ⟨hnone, -⟩ | ⟨m, front, back, hleased, htag, hflight, hrelease⟩ := leased?_cases h tag
  · rw [hnone] at hack
    cases hack
  · rw [hleased, hrelease] at hack
    cases hack
    exact ⟨m, front, back, htag, hflight, rfl⟩

theorem nack_ok (h : q.WF) (hnack : q.nack tag = .ok q') :
    ∃ m front back, m.tag = tag ∧ q.inFlight = front ++ m :: back ∧
      q' = { q with inFlight := front ++ back, ready := place m q.ready } := by
  unfold nack at hnack
  obtain ⟨hnone, -⟩ | ⟨m, front, back, hleased, htag, hflight, hrelease⟩ := leased?_cases h tag
  · rw [hnone] at hnack
    cases hnack
  · rw [hleased, hrelease] at hnack
    cases hnack
    exact ⟨m, front, back, htag, hflight, rfl⟩

/-- What is in flight, and only that, can be settled. -/
theorem settled_iff (h : q.WF) (tag : Int) :
    ((∃ q', q.ack tag = .ok q') ↔ tag ∈ q.inFlight.map Message.tag) ∧
      ((∃ q', q.nack tag = .ok q') ↔ tag ∈ q.inFlight.map Message.tag) := by
  unfold ack nack
  obtain ⟨hnone, hothers⟩ | ⟨m, front, back, hleased, htag, hflight, -⟩ := leased?_cases h tag
  · have habsent : tag ∉ q.inFlight.map Message.tag := by
      intro hmem
      obtain ⟨m, hm, heq⟩ := List.mem_map.1 hmem
      exact hothers m hm heq
    have hfails : ¬ ∃ q', Except.error (.unknownDelivery tag) = (.ok q' : Except Fault MemoryQueue) := by
      rintro ⟨q', hq⟩
      cases hq
    rw [hnone]
    exact ⟨iff_of_false hfails habsent, iff_of_false hfails habsent⟩
  · have hpresent : tag ∈ q.inFlight.map Message.tag := by
      rw [hflight]
      exact List.mem_map.2 ⟨m, List.mem_append_right _ List.mem_cons_self, htag⟩
    rw [hleased]
    exact ⟨iff_of_true ⟨_, rfl⟩ hpresent, iff_of_true ⟨_, rfl⟩ hpresent⟩

theorem receive_oldest {m : Message} {rest : List Message} (hup : q.unavailable = false)
    (hready : q.ready = m :: rest) (hw : m.payload = w.payload) :
    q.receive = (.ok (some ⟨m.tag, w, m.again⟩),
      { q with ready := rest, inFlight := m.delivered :: q.inFlight }) := by
  have hread : Work.ofPayload m.payload = .ok w := by rw [hw, Work.ofPayload_payload]
  unfold receive
  simp only [hup, hready, hread, Bool.false_eq_true, if_false]
  rfl

/-- Nothing is received, or the oldest message that is ready, with its work. -/
theorem receive_cases (h : q.WF) :
    (q.unavailable ∧ q.receive = (.error .unavailable, q)) ∨
    (q.unavailable = false ∧ q.ready = [] ∧ q.receive = (.ok none, q)) ∨
    ∃ m rest w, q.unavailable = false ∧ q.ready = m :: rest ∧ m.payload = w.payload ∧
      q.receive = (.ok (some ⟨m.tag, w, m.again⟩),
        { q with ready := rest, inFlight := m.delivered :: q.inFlight }) := by
  cases hup : q.unavailable with
  | true =>
    refine .inl ⟨rfl, ?_⟩
    rw [receive, if_pos hup]
  | false =>
    cases hready : q.ready with
    | nil =>
      refine .inr (.inl ⟨rfl, rfl, ?_⟩)
      rw [receive, hup, hready]
      rfl
    | cons m rest =>
      obtain ⟨w, hw⟩ := h.work m (List.mem_append_left _ (hready ▸ List.mem_cons_self))
      exact .inr (.inr ⟨m, rest, w, rfl, rfl, hw, hup ▸ receive_oldest hup hready hw⟩)

/-- Where nothing is received, nothing changes. -/
theorem receive_nothing (h : q.WF) {answer : Except Fault (Option Delivery)} (hreceive : q.receive = (answer, q'))
    (hnothing : ∀ d, answer ≠ .ok (some d)) : q' = q := by
  obtain ⟨-, heq⟩ | ⟨-, -, heq⟩ | ⟨m, rest, w, -, -, -, heq⟩ := receive_cases h
  · exact congrArg Prod.snd (hreceive.symm.trans heq)
  · exact congrArg Prod.snd (hreceive.symm.trans heq)
  · exact absurd (congrArg Prod.fst (hreceive.symm.trans heq)) (hnothing _)

/-- What is received was the oldest message that was ready. -/
theorem receive_some (h : q.WF) {d : Delivery} (hreceive : q.receive = (.ok (some d), q')) :
    ∃ m rest, q.ready = m :: rest ∧ d = ⟨m.tag, d.work, m.again⟩ ∧ m.payload = d.work.payload ∧
      q' = { q with ready := rest, inFlight := m.delivered :: q.inFlight } := by
  obtain ⟨-, heq⟩ | ⟨-, -, heq⟩ | ⟨m, rest, w, -, hready, hw, heq⟩ := receive_cases h
  · cases hreceive.symm.trans heq
  · cases hreceive.symm.trans heq
  · obtain ⟨hd, rfl⟩ := Prod.mk.inj (hreceive.symm.trans heq)
    cases hd
    exact ⟨m, rest, hready, rfl, hw, rfl⟩

theorem attempt_ok (op : Operation) {q' : MemoryQueue} (hop : op.apply q = .ok q') : op.attempt q = q' := by
  unfold Operation.attempt
  rw [hop]

theorem attempt_error (op : Operation) {f : Fault} (hop : op.apply q = .error f) : op.attempt q = q := by
  unfold Operation.attempt
  rw [hop]

/-- An operation fails only when nothing can be sent, or over a tag of nothing in flight. -/
theorem apply_fault {op : Operation} {f : Fault} (hop : op.apply q = .error f) :
    f = .unavailable ∨ ∃ tag, f = .unknownDelivery tag := by
  cases op with
  | send w =>
    by_cases hdown : q.unavailable
    · rw [Operation.apply, send_down hdown] at hop
      exact .inl (Except.error.inj hop).symm
    · rw [Operation.apply, send, if_neg hdown] at hop
      cases hop
  | ack tag =>
    cases hleased : q.leased? tag with
    | none =>
      rw [Operation.apply, ack, hleased] at hop
      exact .inr ⟨tag, (Except.error.inj hop).symm⟩
    | some m =>
      rw [Operation.apply, ack, hleased] at hop
      cases hop
  | nack tag =>
    cases hleased : q.leased? tag with
    | none =>
      rw [Operation.apply, nack, hleased] at hop
      exact .inr ⟨tag, (Except.error.inj hop).symm⟩
    | some m =>
      rw [Operation.apply, nack, hleased] at hop
      cases hop
  | redeliver => cases hop
  | unavailable on => cases hop

/-! ## What stays -/

theorem WF.send (h : q.WF) (hsend : q.send w = .ok q') : q'.WF := by
  have hperm := send_perm h hsend
  have hmem : ∀ {m}, m ∈ q'.held → m = ⟨q.lastId + 1, w.payload, 0⟩ ∨ m ∈ q.held := fun hm =>
    List.mem_cons.1 (hperm.mem_iff.1 hm)
  have hnew : ∀ m ∈ q.held, m.id < q.lastId + 1 := fun m hm => Nat.lt_succ_of_le (h.numbered m hm)
  constructor
  case inOrder =>
    obtain rfl := send_ok h hsend
    refine List.pairwise_append.2 ⟨h.inOrder, List.pairwise_singleton _ _, fun m hm n hn => ?_⟩
    rw [List.mem_singleton.1 hn]
    exact hnew m (List.mem_append_left _ hm)
  case tags =>
    rw [(hperm.map Message.tag).nodup_iff, List.map_cons, List.nodup_cons]
    refine ⟨fun htag => ?_, h.tags⟩
    obtain ⟨m, hm, heq⟩ := List.mem_map.1 htag
    exact absurd (tag_inj.1 heq) (Nat.ne_of_lt (hnew m hm))
  case numbered =>
    intro m hm
    rw [send_ok h hsend]
    rcases hmem hm with rfl | hm
    · exact Nat.le_refl _
    · exact Nat.le_of_lt (hnew m hm)
  case work =>
    intro m hm
    rcases hmem hm with rfl | hm
    · exact ⟨w, rfl⟩
    · exact h.work m hm

/-- A delivery moves a message and counts it. -/
theorem deliver_perm {m : Message} {rest : List Message} (hready : q.ready = m :: rest) :
    (held { q with ready := rest, inFlight := m.delivered :: q.inFlight }).Perm
      (m.delivered :: (rest ++ q.inFlight)) ∧ q.held = m :: (rest ++ q.inFlight) := by
  rw [held, held, hready]
  exact ⟨List.perm_middle, rfl⟩

theorem WF.deliver (h : q.WF) {m : Message} {rest : List Message} (hready : q.ready = m :: rest) :
    WF { q with ready := rest, inFlight := m.delivered :: q.inFlight } := by
  obtain ⟨hperm, hheld⟩ := deliver_perm hready
  have horder := h.inOrder
  rw [hready] at horder
  refine h.of_subperm (List.Perm.subperm ?_) (List.pairwise_cons.1 horder).2 rfl
  rw [hheld]
  exact hperm.map Message.content

/-- A delivery leaves the same messages behind. -/
theorem receive_perm (h : q.WF) :
    (q.receive.2.held.map Message.content).Perm (q.held.map Message.content) ∧ q.receive.2.lastId = q.lastId := by
  obtain ⟨-, heq⟩ | ⟨-, -, heq⟩ | ⟨m, rest, w, -, hready, -, heq⟩ := receive_cases h
  · rw [heq]
    exact ⟨.rfl, rfl⟩
  · rw [heq]
    exact ⟨.rfl, rfl⟩
  · obtain ⟨hperm, hheld⟩ := deliver_perm hready
    rw [heq, hheld]
    exact ⟨hperm.map Message.content, rfl⟩

theorem WF.receive (h : q.WF) : q.receive.2.WF := by
  obtain ⟨-, heq⟩ | ⟨-, -, heq⟩ | ⟨m, rest, w, -, hready, -, heq⟩ := receive_cases h
  · rw [heq]
    exact h
  · rw [heq]
    exact h
  · rw [heq]
    exact h.deliver hready

theorem others_sublist {m : Message} {front back : List Message} (hflight : q.inFlight = front ++ m :: back) :
    (front ++ back).Sublist q.inFlight := by
  rw [hflight]
  exact (List.sublist_cons_self m back).append_left front

/-- A message in flight is there once, and not ready. -/
theorem WF.only (h : q.WF) {m : Message} {front back : List Message} (hflight : q.inFlight = front ++ m :: back) :
    m.tag ∉ (q.ready ++ (front ++ back)).map Message.tag := by
  have hmiddle : (front ++ m :: back).Perm (m :: (front ++ back)) := List.perm_middle
  have htags := h.tags
  rw [held, hflight, ((hmiddle.append_left q.ready).map Message.tag).nodup_iff,
    (List.perm_middle.map Message.tag).nodup_iff, List.map_cons, List.nodup_cons] at htags
  exact htags.1

/-- A settlement that succeeds takes the message out of those in flight. -/
theorem settled_cases (h : q.WF) {op : Operation} (hsettles : op = .ack tag ∨ op = .nack tag) :
    (tag ∉ q.inFlight.map Message.tag ∧ op.apply q = .error (.unknownDelivery tag)) ∨
    ∃ m front back q', m.tag = tag ∧ q.inFlight = front ++ m :: back ∧ op.apply q = .ok q' ∧
      q'.inFlight = front ++ back ∧ tag ∉ (front ++ back).map Message.tag := by
  obtain ⟨hnone, hothers⟩ | ⟨m, front, back, hleased, htag, hflight, hrelease⟩ := leased?_cases h tag
  · refine .inl ⟨fun hmem => ?_, ?_⟩
    · obtain ⟨m, hm, heq⟩ := List.mem_map.1 hmem
      exact hothers m hm heq
    · rcases hsettles with rfl | rfl
      · rw [Operation.apply, MemoryQueue.ack, hnone]
      · rw [Operation.apply, MemoryQueue.nack, hnone]
  · have honly := h.only hflight
    rw [List.map_append, List.mem_append, not_or, htag] at honly
    rcases hsettles with rfl | rfl
    · refine .inr ⟨m, front, back, { q with inFlight := front ++ back }, htag, hflight, ?_, rfl, honly.2⟩
      rw [Operation.apply, MemoryQueue.ack, hleased, hrelease]
    · refine .inr ⟨m, front, back, { q with inFlight := front ++ back, ready := place m q.ready }, htag, hflight,
        ?_, rfl, honly.2⟩
      rw [Operation.apply, MemoryQueue.nack, hleased, hrelease]

theorem ack_perm {m : Message} {front back : List Message} (hflight : q.inFlight = front ++ m :: back) :
    q.held.Perm (m :: held { q with inFlight := front ++ back }) := by
  have hback : (front ++ m :: back).Perm (m :: (front ++ back)) := List.perm_middle
  rw [held, held, hflight]
  exact (hback.append_left _).trans List.perm_middle

theorem WF.ack (h : q.WF) (hack : q.ack tag = .ok q') : q'.WF := by
  obtain ⟨m, front, back, -, hflight, rfl⟩ := ack_ok h hack
  exact h.of_subperm (((others_sublist hflight).append_left q.ready).map _).subperm h.inOrder rfl

theorem nack_perm {m : Message} {front back : List Message} (hflight : q.inFlight = front ++ m :: back) :
    (place m q.ready ++ (front ++ back)).Perm q.held := by
  rw [held, hflight]
  have hback : (m :: (front ++ back)).Perm (front ++ m :: back) := List.perm_middle.symm
  exact ((place_perm m q.ready).append_right _).trans (List.perm_middle.symm.trans (hback.append_left _))

theorem WF.nack (h : q.WF) (hnack : q.nack tag = .ok q') : q'.WF := by
  obtain ⟨m, front, back, -, hflight, rfl⟩ := nack_ok h hnack
  refine h.of_subperm ((nack_perm hflight).map _).subperm (h.inOrder.place fun n hn heq => ?_) rfl
  exact h.only hflight (List.mem_map.2 ⟨n, List.mem_append_left _ hn, tag_inj.2 heq⟩)

theorem redeliver_perm (q : MemoryQueue) : q.redeliver.held.Perm q.held := by
  unfold redeliver held
  rw [List.append_nil]
  exact (foldl_place_perm _ _).trans List.perm_append_comm

theorem WF.redeliver (h : q.WF) : q.redeliver.WF := by
  refine h.of_subperm ((redeliver_perm q).map _).subperm (h.inOrder.foldl_place ?_) rfl
  have hheld : (q.inFlight ++ q.ready).Perm q.held := List.perm_append_comm
  exact (hheld.map Message.tag).nodup_iff.2 h.tags

theorem WF.setUnavailable (h : q.WF) (on : Bool) : (q.setUnavailable on).WF :=
  ⟨h.inOrder, h.tags, h.numbered, h.work⟩

/-- Every operation keeps the numbers and the order. -/
theorem WF.apply (h : q.WF) {op : Operation} (hop : op.apply q = .ok q') : q'.WF := by
  cases op with
  | send w => exact h.send hop
  | ack tag => exact h.ack hop
  | nack tag => exact h.nack hop
  | redeliver =>
    cases hop
    exact h.redeliver
  | unavailable on =>
    cases hop
    exact h.setUnavailable on

end MemoryQueue

end Pipeworks
