/-
What a new queue does, whatever is done with it (`orderly_of_new`): each message sent is ready, in flight or
settled for good, and only one of these; a receiver gets the oldest one that is ready, with the work sent in it;
and messages that come back go where they were. A `History` keeps what was sent, delivered and settled, and each
action is shown to keep the queue in agreement with it. Whether a message has been delivered before is told by a
count that starts anew after 2 ^ 32 deliveries, and is not told there (`delivered_as_first`).
-/
import Pipeworks.Proofs.Queue.Memory

namespace Pipeworks

namespace Queue

/-! ## Histories -/

/-- What may be done with a queue. -/
inductive Action where
  | receive
  | operation (op : Operation)

/-- The answer to an action, and the queue after it. -/
def Action.perform (a : Action) (q : MemoryQueue) : Except Fault (Option Delivery) × MemoryQueue :=
  match a with
  | .receive => q.receive
  | .operation op =>
    match op.apply q with
    | .ok q' => (.ok none, q')
    | .error f => (.error f, q)

theorem Action.perform_wf (a : Action) {q : MemoryQueue} (h : q.WF) : (a.perform q).2.WF := by
  cases a with
  | receive => exact h.receive
  | operation op =>
    cases hop : op.apply q with
    | ok q' =>
      rw [perform, hop]
      exact h.apply hop
    | error f =>
      rw [perform, hop]
      exact h

/-- A queue and what has happened to it. -/
structure History where
  queue : MemoryQueue := {}
  /-- The work sent, the first one first. -/
  sent : List Work := []
  /-- What was received, the first one first. -/
  delivered : List Delivery := []
  /-- The tags that were acknowledged. -/
  acked : List Int := []

namespace History

/-- Notes an action that was answered without a fault. -/
def note (h : History) (a : Action) (answer : Option Delivery) : History :=
  match a with
  | .receive => { h with delivered := h.delivered ++ answer.toList }
  | .operation (.send w) => { h with sent := h.sent ++ [w] }
  | .operation (.ack tag) => { h with acked := h.acked ++ [tag] }
  | .operation _ => h

def after (h : History) (a : Action) : History :=
  match a.perform h.queue with
  | (.ok answer, q) => { h with queue := q }.note a answer
  | (.error _, q) => { h with queue := q }

/-- The history of a new queue. -/
def of (actions : List Action) : History := actions.foldl after {}

/-- The tags that were received, the first one first. -/
def tags (h : History) : List Int := h.delivered.map (·.tag)

/-- The tags in the order in which they were received for the first time. -/
def firsts (h : History) : List Int := h.tags.eraseDups

/-- How often a tag has been received. -/
def times (h : History) (tag : Int) : Nat := h.tags.count tag

/-- Whoever receives next is told whether the message has been received before. -/
def TellsAgain (h : History) : Prop :=
  ∀ d q, h.queue.receive = (.ok (some d), q) → (d.redelivered = true ↔ d.tag ∈ h.tags)

end History

/-- The first numbers, from one on. -/
def numbers (n : Nat) : List Int := (List.range n).map fun i : Nat => (i : Int) + 1

/-- What is promised about a queue with a history. -/
structure Orderly (h : History) : Prop where
  /-- A message that is sent gets the next number and is ready, after all others. -/
  sends : ∀ w, h.queue.unavailable = false → h.queue.send w = .ok { h.queue with
    lastId := h.sent.length + 1, ready := h.queue.ready ++ [⟨h.sent.length + 1, w.payload, 0⟩] }
  down : h.queue.unavailable →
    (∀ w, h.queue.send w = .error .unavailable) ∧ h.queue.receive = (.error .unavailable, h.queue)
  /-- Each number given is ready, in flight or acknowledged, and it is so once. -/
  kept : (h.queue.ready.map Message.tag ++ h.queue.inFlight.map Message.tag ++ h.acked).Perm
    (numbers h.sent.length)
  /-- What is ready stands in the order of the numbers. -/
  inOrder : InOrder h.queue.ready
  nothing : h.queue.unavailable = false → h.queue.ready = [] → h.queue.receive = (.ok none, h.queue)
  /-- The oldest message that is ready is received, with the work sent in it. It counts as one that has been received
  before unless it was, with this time or without it, a multiple of 2 ^ 32 times. -/
  oldest : ∀ m rest, h.queue.unavailable = false → h.queue.ready = m :: rest →
    (∀ n ∈ rest, m.id < n.id) ∧ ∃ w, h.sent[m.id - 1]? = some w ∧
      h.queue.receive =
        (.ok (some ⟨m.tag, w, decide (¬ 2 ^ 32 ∣ h.times m.tag ∧ ¬ 2 ^ 32 ∣ h.times m.tag + 1)⟩),
          { h.queue with ready := rest, inFlight := m.delivered :: h.queue.inFlight })
  /-- Before its 2 ^ 32nd delivery a message is told to have been received before exactly if it has. -/
  again : (∀ m ∈ h.queue.ready.head?, h.times m.tag + 1 < 2 ^ 32) → h.TellsAgain
  /-- What is in flight, and only that, can be acknowledged or given back. -/
  settled : ∀ tag, ((∃ q, h.queue.ack tag = .ok q) ↔ tag ∈ h.queue.inFlight.map Message.tag) ∧
    ((∃ q, h.queue.nack tag = .ok q) ↔ tag ∈ h.queue.inFlight.map Message.tag)
  /-- A message that is given back is ready again, at its place. -/
  givenBack : ∀ tag q, h.queue.nack tag = .ok q → ∃ m ∈ h.queue.inFlight, m.tag = tag ∧
    q.ready.Perm (m :: h.queue.ready) ∧ InOrder q.ready
  /-- When the leases run out, all is ready again, each message at its place. -/
  runOut : h.queue.redeliver.inFlight = [] ∧
    h.queue.redeliver.ready.Perm (h.queue.inFlight ++ h.queue.ready) ∧ InOrder h.queue.redeliver.ready
  /-- Messages are received for the first time in the order in which they were sent. -/
  firsts : h.firsts = numbers h.firsts.length
  /-- An action that fails leaves the queue as it is, and none fails over a message. -/
  faults : ∀ (a : Action) f q, a.perform h.queue = (.error f, q) → q = h.queue ∧
    (f = .unavailable ∨ ∃ tag, f = .unknownDelivery tag)

/-! ## Numbers -/

theorem mem_numbers {t : Int} {n : Nat} : t ∈ numbers n ↔ 1 ≤ t ∧ t ≤ n := by
  simp only [numbers, List.mem_map, List.mem_range]
  constructor
  · rintro ⟨i, hi, rfl⟩
    omega
  · rintro ⟨hlo, hhi⟩
    exact ⟨t.toNat - 1, by omega, by omega⟩

theorem numbers_succ (n : Nat) : numbers (n + 1) = numbers n ++ [(n : Int) + 1] := by
  rw [numbers, List.range_succ, List.map_append]
  rfl

/-! ## Agreement -/

/-- The queue agrees with its history. -/
structure Accounted (h : History) : Prop where
  wf : h.queue.WF
  last : h.queue.lastId = h.sent.length
  kept : (h.queue.held.map Message.tag ++ h.acked).Perm (numbers h.sent.length)
  payloads : ∀ m ∈ h.queue.held, ∃ w, h.sent[m.id - 1]? = some w ∧ m.payload = w.payload
  counts : ∀ m ∈ h.queue.held, m.deliveries = UInt32.ofNat (h.times m.tag)
  leased : ∀ m ∈ h.queue.inFlight, m.tag ∈ h.firsts
  settled : ∀ t ∈ h.acked, t ∈ h.firsts
  firsts : h.firsts = numbers h.firsts.length
  firstsSent : h.firsts.length ≤ h.sent.length

variable {h h' : History}

theorem Accounted.new : Accounted {} where
  wf := .empty
  last := rfl
  kept := .rfl
  payloads := List.forall_mem_nil _
  counts := List.forall_mem_nil _
  leased := List.forall_mem_nil _
  settled := List.forall_mem_nil _
  firsts := rfl
  firstsSent := Nat.le_refl _

/-- Nothing changes when messages only move. -/
theorem Accounted.moved (ha : Accounted h) (hwf : h'.queue.WF) (hlast : h'.queue.lastId = h.queue.lastId)
    (hsent : h'.sent = h.sent) (hdelivered : h'.delivered = h.delivered)
    (hkept : (h'.queue.held.map Message.tag ++ h'.acked).Perm (h.queue.held.map Message.tag ++ h.acked))
    (hheld : h'.queue.held ⊆ h.queue.held) (hflight : h'.queue.inFlight ⊆ h.queue.inFlight)
    (hsettled : ∀ t ∈ h'.acked, t ∈ h.acked ∨ ∃ m ∈ h.queue.inFlight, m.tag = t) : Accounted h' := by
  have htags : h'.tags = h.tags := by rw [History.tags, hdelivered, History.tags]
  have hfirsts : h'.firsts = h.firsts := by rw [History.firsts, htags, History.firsts]
  constructor
  case wf => exact hwf
  case last => rw [hlast, hsent, ha.last]
  case kept =>
    rw [hsent]
    exact hkept.trans ha.kept
  case payloads =>
    rw [hsent]
    exact fun m hm => ha.payloads m (hheld hm)
  case counts =>
    unfold History.times
    rw [htags]
    exact fun m hm => ha.counts m (hheld hm)
  case leased =>
    rw [hfirsts]
    exact fun m hm => ha.leased m (hflight hm)
  case settled =>
    rw [hfirsts]
    intro t ht
    rcases hsettled t ht with hold | ⟨m, hm, rfl⟩
    · exact ha.settled t hold
    · exact ha.leased m hm
  case firsts => rw [hfirsts, ← ha.firsts]
  case firstsSent =>
    rw [hfirsts, hsent]
    exact ha.firstsSent

theorem Accounted.mem_firsts (ha : Accounted h) {t : Int} : t ∈ h.firsts ↔ 1 ≤ t ∧ t ≤ h.firsts.length := by
  conv_lhs => rw [ha.firsts]
  exact mem_numbers

theorem Accounted.send (ha : Accounted h) {w : Work} {q : MemoryQueue} (hsend : h.queue.send w = .ok q) :
    Accounted { h with queue := q, sent := h.sent ++ [w] } := by
  have hperm := MemoryQueue.send_perm ha.wf hsend
  have hq := MemoryQueue.send_ok ha.wf hsend
  rw [ha.last] at hperm hq
  have hmem : ∀ {m}, m ∈ q.held → m = ⟨h.sent.length + 1, w.payload, 0⟩ ∨ m ∈ h.queue.held := fun hm =>
    List.mem_cons.1 (hperm.mem_iff.1 hm)
  constructor
  case wf => exact ha.wf.send hsend
  case last => rw [hq, List.length_append, List.length_singleton]
  case kept =>
    have hlast : (numbers h.sent.length ++ [(h.sent.length : Int) + 1]).Perm
        (((h.sent.length + 1 : Nat) : Int) :: numbers h.sent.length) := List.perm_append_singleton _ _
    rw [List.length_append, List.length_singleton, numbers_succ]
    exact (((hperm.map Message.tag).append_right _).trans (ha.kept.cons _)).trans hlast.symm
  case payloads =>
    intro m hm
    rcases hmem hm with rfl | hm
    · exact ⟨w, List.getElem?_concat_length, rfl⟩
    · obtain ⟨w', hw', hpayload⟩ := ha.payloads m hm
      exact ⟨w', (List.getElem?_append_left (List.getElem?_eq_some_iff.1 hw').1).trans hw', hpayload⟩
  case counts =>
    intro m hm
    rcases hmem hm with rfl | hm
    · -- what was received has a smaller number
      have hnever : ((h.sent.length + 1 : Nat) : Int) ∉ h.tags := by
        intro hreceived
        have hseen := (ha.mem_firsts.1 (List.mem_eraseDups.2 hreceived)).2
        have hsent := ha.firstsSent
        omega
      exact congrArg UInt32.ofNat (List.count_eq_zero.2 hnever).symm
    · exact ha.counts m hm
  case leased =>
    rw [hq]
    exact ha.leased
  case settled => exact ha.settled
  case firsts => exact ha.firsts
  case firstsSent =>
    rw [List.length_append]
    exact Nat.le_trans ha.firstsSent (Nat.le_add_right _ _)

/-! ## Deliveries -/

/-- A message that has not been received before has the number after the last of those that have. -/
theorem Accounted.next_first (ha : Accounted h) {m : Message} {rest : List Message}
    (hready : h.queue.ready = m :: rest) (hnever : m.tag ∉ h.firsts) : m.tag = h.firsts.length + 1 := by
  have hm : m ∈ h.queue.held := List.mem_append_left _ (hready ▸ List.mem_cons_self)
  obtain ⟨hlo, hhi⟩ := mem_numbers.1 (ha.kept.mem_iff.1 (List.mem_append_left _ (List.mem_map_of_mem hm)))
  have hbeyond : (h.firsts.length : Int) < m.tag := Int.not_le.1 fun hle => hnever (ha.mem_firsts.2 ⟨hlo, hle⟩)
  -- the next number was given as well, and it can only be ready
  have hnext : (h.firsts.length : Int) + 1 ∉ h.firsts := fun hseen => by
    have := (ha.mem_firsts.1 hseen).2
    omega
  have hgiven : (h.firsts.length : Int) + 1 ∈ numbers h.sent.length := mem_numbers.2 ⟨by omega, by omega⟩
  rcases List.mem_append.1 (ha.kept.mem_iff.2 hgiven) with hheld | hacked
  · obtain ⟨n, hn, heq⟩ := List.mem_map.1 hheld
    rcases List.mem_append.1 hn with hn | hn
    · rw [hready] at hn
      rcases List.mem_cons.1 hn with rfl | hn
      · exact heq
      · have horder := ha.wf.inOrder
        rw [hready] at horder
        have hlt := (List.pairwise_cons.1 horder).1 n hn
        simp only [Message.tag] at heq hbeyond ⊢
        omega
    · exact absurd (heq ▸ ha.leased n hn) hnext
  · exact absurd (ha.settled _ hacked) hnext

/-- The tags received for the first time, after one more delivery of the oldest message. -/
theorem Accounted.firsts_deliver (ha : Accounted h) {m : Message} {rest : List Message}
    (hready : h.queue.ready = m :: rest) (htags : h'.tags = h.tags ++ [m.tag]) :
    h'.firsts = numbers h'.firsts.length ∧ h'.firsts.length ≤ h.sent.length := by
  have hm : m ∈ h.queue.held := List.mem_append_left _ (hready ▸ List.mem_cons_self)
  have hfirsts : h'.firsts = h.firsts ++ ([m.tag].removeAll h.tags).eraseDups := by
    rw [History.firsts, htags, List.eraseDups_append, History.firsts]
  by_cases hagain : m.tag ∈ h.tags
  · have hsame : h'.firsts = h.firsts := by simp [hfirsts, List.removeAll, hagain]
    rw [hsame]
    exact ⟨ha.firsts, ha.firstsSent⟩
  · have hone : ([m.tag].removeAll h.tags).eraseDups = [m.tag] := by
      simp [List.removeAll, hagain, List.eraseDups_cons]
    have hnew : h'.firsts = h.firsts ++ [m.tag] := hone ▸ hfirsts
    have hnext := ha.next_first hready (mt List.mem_eraseDups.1 hagain)
    have hgiven := ha.kept.mem_iff.1 (List.mem_append_left _ (List.mem_map_of_mem hm))
    rw [hnew]
    constructor
    · rw [List.length_append, List.length_singleton, numbers_succ, ← ha.firsts, hnext]
    · rw [List.length_append, List.length_singleton]
      have := (mem_numbers.1 hgiven).2
      omega

theorem Accounted.deliver (ha : Accounted h) {m : Message} {rest : List Message}
    {w : Work} (hready : h.queue.ready = m :: rest) (heq : h' = { h with
      queue := { h.queue with ready := rest, inFlight := m.delivered :: h.queue.inFlight }
      delivered := h.delivered ++ [⟨m.tag, w, m.again⟩] }) : Accounted h' := by
  obtain ⟨hperm, hheld⟩ := MemoryQueue.deliver_perm hready
  have hreceived : h'.tags = h.tags ++ [m.tag] := by
    rw [heq, History.tags, List.map_append]
    rfl
  obtain ⟨hfirsts, hlength⟩ := ha.firsts_deliver hready hreceived
  have hseen : ∀ t, t ∈ h'.firsts ↔ t ∈ h.firsts ∨ t = m.tag := by
    intro t
    rw [History.firsts, History.firsts, List.mem_eraseDups, List.mem_eraseDups, hreceived, List.mem_append,
      List.mem_singleton]
  have htags := ha.wf.tags
  have hkept := ha.kept
  have hpayloads := ha.payloads
  have hcounts := ha.counts
  rw [hheld] at htags hkept hpayloads hcounts
  obtain ⟨hm, hothers⟩ := List.forall_mem_cons.1 hpayloads
  subst heq
  constructor
  case wf => exact ha.wf.deliver hready
  case last => exact ha.last
  case kept => exact ((hperm.map Message.tag).append_right _).trans hkept
  case payloads =>
    intro n hn
    rcases List.mem_cons.1 (hperm.mem_iff.1 hn) with rfl | hn
    · exact hm
    · exact hothers n hn
  case counts =>
    intro n hn
    unfold History.times
    rw [hreceived, List.count_append]
    rcases List.mem_cons.1 (hperm.mem_iff.1 hn) with rfl | hn
    · show m.deliveries + 1 = UInt32.ofNat (h.tags.count m.tag + [m.tag].count m.tag)
      rw [hcounts m List.mem_cons_self, List.count_singleton_self, UInt32.ofNat_add]
      rfl
    · -- only the message that is delivered has been received once more
      have hother : m.tag ≠ n.tag := fun heq =>
        (List.nodup_cons.1 htags).1 (heq ▸ List.mem_map_of_mem hn)
      rw [List.count_eq_zero.2 (mt List.mem_singleton.1 hother.symm)]
      exact hcounts n (List.mem_cons_of_mem _ hn)
  case leased =>
    intro n hn
    rw [hseen]
    rcases List.mem_cons.1 hn with rfl | hn
    · exact .inr rfl
    · exact .inl (ha.leased n hn)
  case settled => exact fun t ht => (hseen t).2 (.inl (ha.settled t ht))
  case firsts => exact hfirsts
  case firstsSent => exact hlength

/-! ## Every action -/

/-- An action keeps the queue in agreement with its history. -/
theorem Accounted.after (ha : Accounted h) (a : Action) : Accounted (h.after a) := by
  unfold History.after
  cases a with
  | receive =>
    obtain ⟨-, heq⟩ | ⟨-, -, heq⟩ | ⟨m, rest, w, -, hready, -, heq⟩ := MemoryQueue.receive_cases ha.wf
    · rw [Action.perform, heq]
      exact ha
    · rw [Action.perform, heq]
      simpa [History.note] using ha
    · rw [Action.perform, heq]
      exact ha.deliver hready rfl
  | operation op =>
    cases hop : op.apply h.queue with
    | error f =>
      rw [Action.perform, hop]
      exact ha
    | ok q =>
      rw [Action.perform, hop]
      cases op with
      | send w => exact ha.send hop
      | ack tag =>
        obtain ⟨m, front, back, rfl, hflight, rfl⟩ := MemoryQueue.ack_ok ha.wf hop
        have hothers := MemoryQueue.others_sublist hflight
        refine ha.moved (ha.wf.ack hop) rfl rfl rfl ?_ (hothers.append_left h.queue.ready).subset
          hothers.subset fun t ht => ?_
        · have hperm := (MemoryQueue.ack_perm hflight).map Message.tag
          refine .trans ?_ (hperm.append_right h.acked).symm
          show List.Perm (_ ++ (h.acked ++ [m.tag])) _
          rw [← List.append_assoc]
          exact List.perm_append_singleton _ _
        · rcases List.mem_append.1 ht with hold | hnew
          · exact .inl hold
          · have hm : m ∈ h.queue.inFlight := hflight ▸ List.mem_append_right _ List.mem_cons_self
            exact .inr ⟨m, hm, (List.mem_singleton.1 hnew).symm⟩
      | nack tag =>
        obtain ⟨m, front, back, rfl, hflight, rfl⟩ := MemoryQueue.nack_ok ha.wf hop
        have hperm := MemoryQueue.nack_perm hflight
        exact ha.moved (ha.wf.nack hop) rfl rfl rfl ((hperm.map Message.tag).append_right _)
          hperm.subset (MemoryQueue.others_sublist hflight).subset fun t ht => .inl ht
      | redeliver =>
        cases hop
        have hperm := MemoryQueue.redeliver_perm h.queue
        exact ha.moved ha.wf.redeliver rfl rfl rfl ((hperm.map Message.tag).append_right _) hperm.subset
          (List.nil_subset _) fun t ht => .inl ht
      | unavailable on =>
        cases hop
        exact ha.moved (ha.wf.setUnavailable on) rfl rfl rfl .rfl (List.Subset.refl _) (List.Subset.refl _)
          fun t ht => .inl ht

theorem Accounted.of (actions : List Action) : Accounted (History.of actions) :=
  List.foldlRecOn actions History.after .new fun _ ha a _ => ha.after a

/-! ## What is promised -/

/-- The count of a message goes on as that of its deliveries, but for multiples of 2 ^ 32. -/
theorem Accounted.again_iff (ha : Accounted h) {m : Message} (hm : m ∈ h.queue.held) :
    m.again = true ↔ ¬ 2 ^ 32 ∣ h.times m.tag ∧ ¬ 2 ^ 32 ∣ h.times m.tag + 1 := by
  unfold Message.again Message.delivered
  rw [decide_eq_true_iff, UInt32.lt_iff_toNat_lt, UInt32.toNat_add, ha.counts m hm, UInt32.toNat_ofNat',
    UInt32.toNat_one]
  omega

/-- Short of 2 ^ 32 deliveries the count tells whether there was one. -/
theorem Accounted.again_received (ha : Accounted h) {m : Message} (hm : m ∈ h.queue.held)
    (hfew : h.times m.tag + 1 < 2 ^ 32) : m.again = true ↔ m.tag ∈ h.tags := by
  rw [ha.again_iff hm, ← List.count_pos_iff]
  show _ ↔ 0 < h.times m.tag
  omega

/-- Only work that cannot be sent or received and tags of nothing in flight are faults. -/
theorem Accounted.fault (ha : Accounted h) {a : Action} {f : Fault} {q : MemoryQueue}
    (hfault : a.perform h.queue = (.error f, q)) :
    q = h.queue ∧ (f = .unavailable ∨ ∃ tag, f = .unknownDelivery tag) := by
  cases a with
  | receive =>
    rw [Action.perform] at hfault
    obtain ⟨-, heq⟩ | ⟨-, -, heq⟩ | ⟨m, rest, w, -, -, -, heq⟩ := MemoryQueue.receive_cases ha.wf
    · rw [heq] at hfault
      cases hfault
      exact ⟨rfl, .inl rfl⟩
    · rw [heq] at hfault
      cases hfault
    · rw [heq] at hfault
      cases hfault
  | operation op =>
    cases hop : op.apply h.queue with
    | ok q' =>
      rw [Action.perform, hop] at hfault
      cases hfault
    | error f' =>
      rw [Action.perform, hop] at hfault
      cases hfault
      exact ⟨rfl, MemoryQueue.apply_fault hop⟩

/-- A queue that was new keeps what is promised, whatever is done with it. -/
theorem orderly_of_new (actions : List Action) : Orderly (History.of actions) := by
  have ha := Accounted.of actions
  generalize History.of actions = h at ha
  constructor
  case sends =>
    intro w hup
    rw [MemoryQueue.send_eq ha.wf hup, ha.last]
  case down =>
    intro hdown
    refine ⟨MemoryQueue.send_down hdown, ?_⟩
    unfold MemoryQueue.receive
    rw [if_pos hdown]
  case kept =>
    rw [← List.map_append]
    exact ha.kept
  case inOrder => exact ha.wf.inOrder
  case nothing =>
    intro hup hready
    rw [MemoryQueue.receive, hup, hready]
    rfl
  case oldest =>
    intro m rest hup hready
    have hm : m ∈ h.queue.held := List.mem_append_left _ (hready ▸ List.mem_cons_self)
    have horder := ha.wf.inOrder
    rw [hready] at horder
    obtain ⟨w, hsent, hpayload⟩ := ha.payloads m hm
    have hagain : m.again = decide (¬ 2 ^ 32 ∣ h.times m.tag ∧ ¬ 2 ^ 32 ∣ h.times m.tag + 1) :=
      Bool.eq_iff_iff.2 ((ha.again_iff hm).trans decide_eq_true_iff.symm)
    refine ⟨(List.pairwise_cons.1 horder).1, w, hsent, ?_⟩
    rw [← hagain]
    exact MemoryQueue.receive_oldest hup hready hpayload
  case again =>
    intro hfew d q hreceive
    obtain ⟨m, rest, hready, hd, -, -⟩ := MemoryQueue.receive_some ha.wf hreceive
    rw [hready] at hfew
    have hm : m ∈ h.queue.held := List.mem_append_left _ (hready ▸ List.mem_cons_self)
    rw [hd]
    exact ha.again_received hm (hfew m rfl)
  case settled => exact MemoryQueue.settled_iff ha.wf
  case givenBack =>
    intro tag q hnack
    have horder := (ha.wf.nack hnack).inOrder
    obtain ⟨m, front, back, htag, hflight, rfl⟩ := MemoryQueue.nack_ok ha.wf hnack
    have hm : m ∈ h.queue.inFlight := hflight ▸ List.mem_append_right _ List.mem_cons_self
    exact ⟨m, hm, htag, place_perm m h.queue.ready, horder⟩
  case runOut => exact ⟨rfl, foldl_place_perm _ _, ha.wf.redeliver.inOrder⟩
  case firsts => exact ha.firsts
  case faults => exact fun a f q hfault => ha.fault hfault

/-! ## A message that is given back again and again -/

/-- Work is sent, and received and given back so many times. -/
def givenBack (w : Work) (n : Nat) : List Action :=
  .operation (.send w) :: (List.replicate n [Action.receive, .operation (.nack 1)]).flatten

theorem of_givenBack (w : Work) (n : Nat) :
    (History.of (givenBack w n)).queue = { lastId := 1, ready := [⟨1, w.payload, UInt32.ofNat n⟩] } ∧
      (History.of (givenBack w n)).tags = List.replicate n 1 := by
  induction n with
  | zero => exact ⟨rfl, rfl⟩
  | succ n ih =>
    obtain ⟨hqueue, htags⟩ := ih
    have hround : givenBack w (n + 1) = givenBack w n ++ [.receive, .operation (.nack 1)] := by
      simp [givenBack, List.replicate_succ']
    have hlast : History.of (givenBack w (n + 1)) =
        ((History.of (givenBack w n)).after .receive).after (.operation (.nack 1)) := by
      rw [hround, History.of, List.foldl_append]
      rfl
    generalize History.of (givenBack w n) = h at hqueue htags hlast
    have hreceive : h.queue.receive = (.ok (some ⟨1, w, decide (1 < UInt32.ofNat n + 1)⟩),
        { lastId := 1, inFlight := [⟨1, w.payload, UInt32.ofNat n + 1⟩] }) := by
      rw [hqueue, MemoryQueue.receive_oldest rfl rfl rfl]
      rfl
    have hreceived : h.after .receive = { h with
        queue := { lastId := 1, inFlight := [⟨1, w.payload, UInt32.ofNat n + 1⟩] }
        delivered := h.delivered ++ [⟨1, w, decide (1 < UInt32.ofNat n + 1)⟩] } := by
      rw [History.after, Action.perform, hreceive]
      rfl
    rw [hlast, hreceived, UInt32.ofNat_add, List.replicate_succ', ← htags]
    refine ⟨rfl, ?_⟩
    show List.map _ (h.delivered ++ _) = List.map _ h.delivered ++ _
    rw [List.map_append]
    rfl

/-- A message that has been received 2 ^ 32 - 1 times is received as if it were for the first time. -/
theorem delivered_as_first : ¬ (History.of (givenBack Sample.work (2 ^ 32 - 1))).TellsAgain := by
  intro htells
  obtain ⟨hqueue, htags⟩ := of_givenBack Sample.work (2 ^ 32 - 1)
  have hreceive := MemoryQueue.receive_oldest (w := Sample.work) (congrArg MemoryQueue.unavailable hqueue)
    (congrArg MemoryQueue.ready hqueue) rfl
  have hbefore : (1 : Int) ∈ (History.of (givenBack Sample.work (2 ^ 32 - 1))).tags := by
    rw [htags]
    exact List.mem_replicate.2 ⟨by decide, rfl⟩
  have hagain := (htells _ _ hreceive).2 hbefore
  cases hagain

end Queue

end Pipeworks
