/-
The pool of a consumer, one event at a time. A place is taken before anything is received, a delivery keeps it
until its settlement, and executions go on, end and break down in whatever order they like, while others send
and the queue fails (`Goes`). An invariant over what has happened (`Kept`) says who holds which place and which
lease; what is claimed of deliveries is read off it (`Reaches.orderly`).
-/
import Mathlib.Data.List.Basic
import Pipeworks.Proofs.Queue.Memory
import Pipeworks.Runner.Consumer

namespace Pipeworks.Runner

open Queue (Message Delivery Operation)

/-! ## What happens -/

/-- What happens to a pool and to the queue that it serves. -/
inductive Happening where
  | sent (work : Work)
  /-- Nothing can be sent. -/
  | refused (work : Work)
  | unavailable (on : Bool)
  /-- The consumer takes a place, with which it may receive. -/
  | takes
  /-- It receives, and an execution begins with the place. -/
  | receives (d : Delivery)
  /-- Nothing is ready; the consumer keeps its place. -/
  | finds
  /-- It cannot receive, and gives its place back. -/
  | fails (f : Queue.Fault)
  | goesOn (tag : Int)
  /-- An execution returns or breaks down. -/
  | ends (broken : Bool) (tag : Int)
  /-- The delivery is acknowledged or given back, and its place with it. -/
  | settles (broken : Bool) (tag : Int)
  | stops

/-- A consumer with its pool: executions by the tags of their deliveries. -/
structure Pool (σ τ : Type) where
  queue : MemoryQueue := {}
  world : σ
  free : Nat
  /-- Whether the consumer holds a place to receive with. -/
  waiting : Bool := false
  running : List (Int × τ) := []
  /-- What has ended and is not settled yet, and whether it broke down. -/
  unsettled : List (Bool × Int) := []
  stopped : Bool := false

/-- How a delivery is settled. -/
def settlement (broken : Bool) (tag : Int) : Operation := if broken then .nack tag else .ack tag

/-- Whether a job is over, and how. -/
def Stage.Ends {τ : Type} (broken : Bool) : Stage τ → Prop
  | .ended => broken = false
  | .brokeDown => broken
  | .waits _ _ => False

variable {σ τ : Type} {w : Worker σ τ} {max : Nat} {world : σ} {s s' : Pool σ τ} {e : Happening}
  {es : List Happening} {tag : Int} {broken : Bool}

/-- The next thing that happens, whatever it is. -/
inductive Goes (w : Worker σ τ) (s : Pool σ τ) : Happening → Pool σ τ → Prop
  | sent {work : Work} {queue : MemoryQueue} :
      s.queue.send work = .ok queue → Goes w s (.sent work) { s with queue }
  | refused {work : Work} {f : Queue.Fault} : s.queue.send work = .error f → Goes w s (.refused work) s
  | unavailable (on : Bool) : Goes w s (.unavailable on) { s with queue := s.queue.setUnavailable on }
  | takes {free : Nat} :
      s.stopped = false → s.waiting = false → s.free = free + 1 → Goes w s .takes { s with free, waiting := true }
  | receives {d : Delivery} {queue : MemoryQueue} :
      s.waiting → s.queue.receive = (.ok (some d), queue) →
      Goes w s (.receives d) { s with queue, waiting := false, running := s.running ++ [(d.tag, w.begin d.work)] }
  | finds {queue : MemoryQueue} :
      s.waiting → s.queue.receive = (.ok none, queue) → Goes w s .finds { s with queue }
  | fails {f : Queue.Fault} {queue : MemoryQueue} :
      s.waiting → s.queue.receive = (.error f, queue) →
      Goes w s (.fails f) { s with queue, waiting := false, free := s.free + 1 }
  | goesOn {tag : Int} {job rest : τ} {now : Nat} {wake : Option Nat} {world : σ} {front back : List (Int × τ)} :
      s.running = front ++ (tag, job) :: back → w.proceed now job s.world = (.waits wake rest, world) →
      Goes w s (.goesOn tag) { s with world, running := front ++ (tag, rest) :: back }
  | ends {tag : Int} {broken : Bool} {job : τ} {now : Nat} {stage : Stage τ} {world : σ}
      {front back : List (Int × τ)} :
      s.running = front ++ (tag, job) :: back → w.proceed now job s.world = (stage, world) → stage.Ends broken →
      Goes w s (.ends broken tag)
        { s with world, running := front ++ back, unsettled := s.unsettled ++ [(broken, tag)] }
  | settles {tag : Int} {broken : Bool} {front back : List (Bool × Int)} :
      s.unsettled = front ++ (broken, tag) :: back →
      Goes w s (.settles broken tag)
        { s with queue := (settlement broken tag).attempt s.queue, unsettled := front ++ back, free := s.free + 1 }
  | stops :
      s.stopped = false →
      Goes w s .stops { s with stopped := true, waiting := false, free := s.free + s.waiting.toNat }

/-- What may have happened since a consumer of a new queue was begun, with so many places. -/
inductive Reaches (w : Worker σ τ) (max : Nat) (world : σ) : List Happening → Pool σ τ → Prop
  | start : Reaches w max world [] { world, free := max }
  | goes {es : List Happening} {s s' : Pool σ τ} {e : Happening} :
      Reaches w max world es s → Goes w s e s' → Reaches w max world (es ++ [e]) s'

/-! ## What is noted -/

/-- A point in the life of a delivery. -/
inductive Point where
  | received
  | ended (broken : Bool)
  | settled (broken : Bool)
  deriving DecidableEq

/-- What a happening means for a message. -/
def Happening.mark? (tag : Int) : Happening → Option Point
  | .receives d => if d.tag = tag then some .received else none
  | .ends broken t => if t = tag then some (.ended broken) else none
  | .settles broken t => if t = tag then some (.settled broken) else none
  | _ => none

/-- The lives of the deliveries of a message, one after another. -/
def life (tag : Int) (es : List Happening) : List Point := es.filterMap (Happening.mark? tag)

/-- The whole life of a delivery: one execution, and one settlement that accords with its end. -/
def wholeLife (broken : Bool) : List Point := [.received, .ended broken, .settled broken]

def Happening.work? : Happening → Option Work
  | .sent work => some work
  | _ => none

/-- All messages that were sent, as they were then. -/
def sent (es : List Happening) : List Message :=
  (es.filterMap Happening.work?).mapIdx fun i work => ⟨i + 1, work.payload, 0⟩

/-- Whether a message has never been received. -/
def untouched (es : List Happening) (m : Message) : Bool := decide (.received ∉ life m.tag es)

/-- How the life of the last delivery of a message has begun, as long as it is not lived. -/
inductive Pool.Stands (s : Pool σ τ) (tag : Int) : List Point → Prop
  | away : tag ∉ s.running.map Prod.fst → tag ∉ s.unsettled.map Prod.snd → s.Stands tag []
  | running : tag ∈ s.running.map Prod.fst → s.Stands tag [.received]
  | unsettled {broken : Bool} : (broken, tag) ∈ s.unsettled → s.Stands tag [.received, .ended broken]

/-- How a delivery stands is a matter of its own places in the pool. -/
theorem Pool.Stands.frame {left : List Point} (h : s.Stands tag left)
    (hrunning : tag ∈ s'.running.map Prod.fst ↔ tag ∈ s.running.map Prod.fst)
    (hunsettled : ∀ broken, (broken, tag) ∈ s'.unsettled ↔ (broken, tag) ∈ s.unsettled) :
    s'.Stands tag left := by
  cases h with
  | away hrun hno =>
    refine .away (fun hmem => hrun (hrunning.1 hmem)) fun hmem => ?_
    obtain ⟨⟨broken, t⟩, hstill, rfl⟩ := List.mem_map.1 hmem
    exact hno (List.mem_map.2 ⟨_, (hunsettled broken).1 hstill, rfl⟩)
  | running hrun => exact .running (hrunning.2 hrun)
  | unsettled hmem => exact .unsettled ((hunsettled _).2 hmem)

/-- Whole lives, and how the last one has begun. -/
def Pool.Lives (s : Pool σ τ) (es : List Happening) (tag : Int) : Prop :=
  ∃ (rounds : List Bool) (left : List Point), life tag es = rounds.flatMap wholeLife ++ left ∧ s.Stands tag left

/-- Every place is free, held or taken; what is leased is executed or over; and lives are lived in order. -/
structure Kept (max : Nat) (es : List Happening) (s : Pool σ τ) : Prop where
  places : s.free + s.waiting.toNat + s.running.length + s.unsettled.length = max
  queue : s.queue.WF
  leased : (s.queue.inFlight.map Message.tag).Perm (s.running.map Prod.fst ++ s.unsettled.map Prod.snd)
  numbered : s.queue.lastId = (es.filterMap Happening.work?).length
  ready : s.queue.ready.filter (untouched es) = (sent es).filter (untouched es)
  lives : ∀ tag, s.Lives es tag
  stopped : s.stopped → s.waiting = false

theorem Kept.start : Kept max [] ({ world, free := max } : Pool σ τ) where
  places := rfl
  queue := .empty
  leased := .nil
  numbered := rfl
  ready := rfl
  lives := fun _ => ⟨[], [], rfl, .away List.not_mem_nil List.not_mem_nil⟩
  stopped := nofun

/-! ## One more event -/

theorem life_concat (tag : Int) (es : List Happening) (e : Happening) :
    life tag (es ++ [e]) = life tag es ++ (e.mark? tag).toList := by
  unfold life
  rw [List.filterMap_append, List.filterMap_cons, List.filterMap_nil]
  cases e.mark? tag <;> rfl

theorem untouched_same (hmark : ∀ tag, e.mark? tag ≠ some .received) : untouched (es ++ [e]) = untouched es := by
  funext m
  have hnot : Point.received ∉ (e.mark? m.tag).toList := fun hmem => hmark m.tag (Option.mem_toList.1 hmem)
  simp only [untouched, life_concat, List.mem_append, hnot, or_false]

theorem untouched_marked {mark : Point} (hmark : e.mark? tag = some mark)
    (hothers : ∀ t, t ≠ tag → e.mark? t = none) (hnot : mark ≠ .received) :
    untouched (es ++ [e]) = untouched es := by
  refine untouched_same fun t heq => ?_
  by_cases ht : t = tag
  · rw [ht, hmark] at heq
    exact hnot (Option.some.inj heq)
  · rw [hothers t ht] at heq
    cases heq

theorem sent_same (hwork : e.work? = none) : sent (es ++ [e]) = sent es := by
  simp [sent, List.filterMap_append, hwork]

theorem numbered_same (hwork : e.work? = none) :
    ((es ++ [e]).filterMap Happening.work?).length = (es.filterMap Happening.work?).length := by
  simp [List.filterMap_append, hwork]

/-- What is in a pool is there once. -/
theorem Kept.once (h : Kept max es s) : (s.running.map Prod.fst ++ s.unsettled.map Prod.snd).Nodup := by
  have htags := h.queue.tags
  rw [MemoryQueue.held, List.map_append] at htags
  exact h.leased.nodup_iff.1 (List.nodup_append.1 htags).2.1

theorem Kept.stands_running (h : Kept max es s) (hmem : tag ∈ s.running.map Prod.fst) {left : List Point}
    (hleft : s.Stands tag left) : left = [.received] := by
  cases hleft with
  | away hno _ => exact absurd hmem hno
  | running _ => rfl
  | unsettled hover =>
    exact absurd rfl ((List.nodup_append.1 h.once).2.2 tag hmem tag (List.mem_map.2 ⟨_, hover, rfl⟩))

theorem Kept.stands_unsettled (h : Kept max es s) (hmem : (broken, tag) ∈ s.unsettled) {left : List Point}
    (hleft : s.Stands tag left) : left = [.received, .ended broken] := by
  have htag : tag ∈ s.unsettled.map Prod.snd := List.mem_map.2 ⟨_, hmem, rfl⟩
  cases hleft with
  | away _ hno => exact absurd htag hno
  | running hrun => exact absurd rfl ((List.nodup_append.1 h.once).2.2 tag hrun tag htag)
  | unsettled hover =>
    have honce := (List.nodup_append.1 h.once).2.1
    have heq := List.inj_on_of_nodup_map honce hmem hover rfl
    rw [(Prod.mk.inj heq).1]

theorem Kept.stands_away (h : Kept max es s) (hready : tag ∈ s.queue.ready.map Message.tag) {left : List Point}
    (hleft : s.Stands tag left) : left = [] := by
  have htags := h.queue.tags
  rw [MemoryQueue.held, List.map_append] at htags
  have hno : tag ∉ s.running.map Prod.fst ++ s.unsettled.map Prod.snd := fun hmem =>
    (List.nodup_append.1 htags).2.2 tag hready tag (h.leased.mem_iff.2 hmem) rfl
  cases hleft with
  | away _ _ => rfl
  | running hrun => exact absurd (List.mem_append_left _ hrun) hno
  | unsettled hover => exact absurd (List.mem_append_right _ (List.mem_map.2 ⟨_, hover, rfl⟩)) hno

/-- A message of which a delivery is in the pool was received. -/
theorem Kept.touched (h : Kept max es s) {m : Message}
    (hmem : m.tag ∈ s.running.map Prod.fst ++ s.unsettled.map Prod.snd) : untouched es m = false := by
  obtain ⟨rounds, left, hlife, hleft⟩ := h.lives m.tag
  have hreceived : Point.received ∈ left := by
    cases hleft with
    | away hrun hover => exact absurd hmem (by simp only [List.mem_append, hrun, hover, or_self, not_false_iff])
    | running _ => exact List.mem_cons_self
    | unsettled _ => exact List.mem_cons_self
  have hmark : Point.received ∈ life m.tag es := hlife ▸ List.mem_append_right _ hreceived
  exact decide_eq_false (not_not_intro hmark)

/-- One delivery goes a mark further, and all others stay as they are. -/
theorem Kept.marked (h : Kept max es s) {mark : Point} (hmark : e.mark? tag = some mark)
    (hothers : ∀ t, t ≠ tag → e.mark? t = none) (hstay : ∀ t left, t ≠ tag → s.Stands t left → s'.Stands t left)
    (hown : ∀ left, s.Stands tag left →
      ∃ rounds left', left ++ [mark] = List.flatMap wholeLife rounds ++ left' ∧ s'.Stands tag left') (t : Int) :
    s'.Lives (es ++ [e]) t := by
  obtain ⟨rounds, left, hlife, hleft⟩ := h.lives t
  by_cases ht : t = tag
  · subst ht
    obtain ⟨more, left', heq, hleft'⟩ := hown left hleft
    refine ⟨rounds ++ more, left', ?_, hleft'⟩
    rw [life_concat, hmark, hlife, Option.toList_some, List.append_assoc, heq, List.flatMap_append,
      List.append_assoc]
  · refine ⟨rounds, left, ?_, hstay t left ht hleft⟩
    rw [life_concat, hothers t ht, Option.toList_none, List.append_nil, hlife]

/-- Nothing that has to do with a delivery happens. -/
theorem Kept.quiet (h : Kept max es s) (hmark : ∀ tag, e.mark? tag = none) (hwork : e.work? = none) {on : Bool}
    (hqueue : s'.queue = s.queue.setUnavailable on) (hrunning : s'.running.map Prod.fst = s.running.map Prod.fst)
    (hover : s'.unsettled = s.unsettled) (hplaces : s'.free + s'.waiting.toNat = s.free + s.waiting.toNat)
    (hstopped : s'.stopped → s'.waiting = false) : Kept max (es ++ [e]) s' := by
  have hlength : s'.running.length = s.running.length := by
    rw [← List.length_map Prod.fst, hrunning, List.length_map]
  constructor
  case places => rw [hplaces, hlength, hover, h.places]
  case queue =>
    rw [hqueue]
    exact h.queue.setUnavailable on
  case leased =>
    rw [hqueue, hrunning, hover]
    exact h.leased
  case numbered =>
    rw [hqueue, numbered_same hwork]
    exact h.numbered
  case ready =>
    rw [hqueue, sent_same hwork, untouched_same fun tag heq => by rw [hmark tag] at heq; cases heq]
    exact h.ready
  case lives =>
    intro tag
    obtain ⟨rounds, left, hlife, hleft⟩ := h.lives tag
    refine ⟨rounds, left, ?_, hleft.frame (by rw [hrunning]) fun _ => by rw [hover]⟩
    rw [life_concat, hmark, hlife]
    exact List.append_nil _
  case stopped => exact hstopped

theorem Kept.sent (h : Kept max es s) {work : Work} {queue : MemoryQueue} (hsend : s.queue.send work = .ok queue) :
    Kept max (es ++ [.sent work]) { s with queue } := by
  have hqueue := MemoryQueue.send_ok h.queue hsend
  have huntouched : untouched (es ++ [.sent work]) = untouched es := untouched_same fun tag heq => by cases heq
  have hnumber : ((es ++ [Happening.sent work]).filterMap Happening.work?).length =
      (es.filterMap Happening.work?).length + 1 := by
    simp [List.filterMap_append, Happening.work?]
  have hsent : Runner.sent (es ++ [.sent work]) = Runner.sent es ++ [⟨s.queue.lastId + 1, work.payload, 0⟩] := by
    rw [h.numbered]
    simp [Runner.sent, List.filterMap_append, List.mapIdx_append, Happening.work?]
  constructor
  case places => exact h.places
  case queue => exact h.queue.send hsend
  case leased =>
    rw [hqueue]
    exact h.leased
  case numbered => rw [hnumber, ← h.numbered, hqueue]
  case ready => rw [hsent, huntouched, hqueue, List.filter_append, List.filter_append, h.ready]
  case lives =>
    intro tag
    obtain ⟨rounds, left, hlife, hleft⟩ := h.lives tag
    refine ⟨rounds, left, ?_, hleft.frame .rfl fun _ => .rfl⟩
    rw [life_concat, hlife]
    exact List.append_nil _
  case stopped => exact h.stopped

theorem Kept.receives (h : Kept max es s) {d : Delivery} {queue : MemoryQueue} {job : τ} (hwaiting : s.waiting)
    (hreceive : s.queue.receive = (.ok (some d), queue)) :
    Kept max (es ++ [.receives d]) { s with queue, waiting := false, running := s.running ++ [(d.tag, job)] } := by
  obtain ⟨m, rest, hready, hd, -, rfl⟩ := MemoryQueue.receive_some h.queue hreceive
  have htag : d.tag = m.tag := congrArg Delivery.tag hd
  have hmarked : Happening.mark? m.tag (.receives d) = some .received := if_pos htag
  have hunmarked : ∀ t, t ≠ m.tag → Happening.mark? t (.receives d) = none := fun t ht =>
    if_neg fun heq => ht (heq.symm.trans htag)
  constructor
  case places =>
    have hplaces := h.places
    rw [hwaiting] at hplaces
    simp only [List.length_append, List.length_singleton, Bool.toNat_false, Bool.toNat_true] at hplaces ⊢
    omega
  case queue => exact h.queue.deliver hready
  case leased =>
    show ((m.delivered :: s.queue.inFlight).map Message.tag).Perm
      ((s.running ++ [(d.tag, job)]).map Prod.fst ++ s.unsettled.map Prod.snd)
    rw [List.map_cons, List.map_append, List.append_assoc, htag]
    exact (h.leased.cons m.tag).trans List.perm_middle.symm
  case numbered => exact h.numbered.trans (numbered_same rfl).symm
  case ready =>
    -- what is untouched now is what was, but for the message received
    have hnow : untouched (es ++ [.receives d]) = fun n => decide (n.tag ≠ m.tag) && untouched es n := by
      funext n
      by_cases hn : n.tag = m.tag
      · simp [untouched, life_concat, hn, hmarked]
      · simp [untouched, life_concat, hn, hunmarked n.tag hn]
    calc rest.filter (untouched (es ++ [.receives d]))
        = (m :: rest).filter (untouched (es ++ [.receives d])) := (List.filter_cons_of_neg (by simp [hnow])).symm
      _ = (s.queue.ready.filter (untouched es)).filter (fun n => decide (n.tag ≠ m.tag)) := by
          rw [List.filter_filter, hready, hnow]
      _ = ((Runner.sent es).filter (untouched es)).filter (fun n => decide (n.tag ≠ m.tag)) := by rw [h.ready]
      _ = (Runner.sent (es ++ [.receives d])).filter (untouched (es ++ [.receives d])) := by
          rw [List.filter_filter, sent_same rfl, hnow]
  case lives =>
    refine h.marked hmarked hunmarked (fun t left ht hleft => hleft.frame ?_ fun _ => .rfl)
      fun left hleft => ⟨[], [.received], ?_, ?_⟩
    · simp [htag, ht]
    · have hmem : m.tag ∈ s.queue.ready.map Message.tag := by
        rw [hready]
        exact List.mem_cons_self
      rw [h.stands_away hmem hleft]
      rfl
    · refine .running ?_
      rw [List.map_append, htag]
      exact List.mem_append_right _ List.mem_cons_self
  case stopped => exact fun _ => rfl

theorem Kept.ends (h : Kept max es s) {job : τ} {world : σ} {front back : List (Int × τ)}
    (hrunning : s.running = front ++ (tag, job) :: back) :
    Kept max (es ++ [.ends broken tag])
      { s with world, running := front ++ back, unsettled := s.unsettled ++ [(broken, tag)] } := by
  have hmarked : Happening.mark? tag (.ends broken tag) = some (.ended broken) := if_pos rfl
  have hunmarked : ∀ t, t ≠ tag → Happening.mark? t (.ends broken tag) = none := fun t ht =>
    if_neg fun heq => ht heq.symm
  have hmem : tag ∈ s.running.map Prod.fst := by
    rw [hrunning, List.map_append]
    exact List.mem_append_right _ List.mem_cons_self
  constructor
  case places =>
    have hplaces := h.places
    rw [hrunning] at hplaces
    simp only [List.length_append, List.length_cons, List.length_nil] at hplaces ⊢
    omega
  case queue => exact h.queue
  case leased =>
    refine h.leased.trans ?_
    simp only [hrunning, List.map_append, List.map_cons, List.map_nil, List.append_assoc, List.cons_append]
    refine List.Perm.append_left _ ?_
    rw [← List.append_assoc]
    exact (List.perm_append_singleton tag _).symm
  case numbered => exact h.numbered.trans (numbered_same rfl).symm
  case ready =>
    rw [sent_same rfl, untouched_marked hmarked hunmarked nofun]
    exact h.ready
  case lives =>
    refine h.marked hmarked hunmarked (fun t left ht hleft => hleft.frame ?_ fun _ => ?_)
      fun left hleft => ⟨[], [.received, .ended broken], ?_, ?_⟩
    · simp [hrunning, ht]
    · simp [ht]
    · rw [h.stands_running hmem hleft]
      rfl
    · exact .unsettled (List.mem_append_right _ List.mem_cons_self)
  case stopped => exact h.stopped

/-- A settlement of what is leased succeeds, and it takes the message away or to where it was before. -/
theorem settlement_ok {q : MemoryQueue} (h : q.WF) (broken : Bool) (hmem : tag ∈ q.inFlight.map Message.tag) :
    ∃ m front back q', (settlement broken tag).apply q = .ok q' ∧ m.tag = tag ∧
      q.inFlight = front ++ m :: back ∧ q'.inFlight = front ++ back ∧ q'.lastId = q.lastId ∧
      (q'.ready = q.ready ∨ q'.ready = Queue.place m q.ready) := by
  cases broken with
  | false =>
    obtain ⟨q', hack⟩ := (MemoryQueue.settled_iff h tag).1.2 hmem
    obtain ⟨m, front, back, htag, hflight, rfl⟩ := MemoryQueue.ack_ok h hack
    exact ⟨m, front, back, _, hack, htag, hflight, rfl, rfl, .inl rfl⟩
  | true =>
    obtain ⟨q', hnack⟩ := (MemoryQueue.settled_iff h tag).2.2 hmem
    obtain ⟨m, front, back, htag, hflight, rfl⟩ := MemoryQueue.nack_ok h hnack
    exact ⟨m, front, back, _, hnack, htag, hflight, rfl, rfl, .inr rfl⟩

theorem Kept.mem_leased (h : Kept max es s) (hmem : (broken, tag) ∈ s.unsettled) :
    tag ∈ s.queue.inFlight.map Message.tag :=
  h.leased.mem_iff.2 (List.mem_append_right _ (List.mem_map.2 ⟨_, hmem, rfl⟩))

theorem Kept.settles (h : Kept max es s) {front back : List (Bool × Int)}
    (hover : s.unsettled = front ++ (broken, tag) :: back) :
    Kept max (es ++ [.settles broken tag])
      { s with
        queue := (settlement broken tag).attempt s.queue, unsettled := front ++ back, free := s.free + 1 } := by
  have hmem : (broken, tag) ∈ s.unsettled := hover ▸ List.mem_append_right _ List.mem_cons_self
  obtain ⟨m, older, newer, queue, hop, hm, hflight, hleft, hlast, hready⟩ :=
    settlement_ok h.queue broken (h.mem_leased hmem)
  rw [MemoryQueue.attempt_ok _ hop]
  have hmarked : Happening.mark? tag (.settles broken tag) = some (.settled broken) := if_pos rfl
  have hunmarked : ∀ t, t ≠ tag → Happening.mark? t (.settles broken tag) = none := fun t ht =>
    if_neg fun heq => ht heq.symm
  constructor
  case places =>
    have hplaces := h.places
    rw [hover] at hplaces
    simp only [List.length_append, List.length_cons] at hplaces ⊢
    omega
  case queue => exact h.queue.apply hop
  case leased =>
    -- the tag of the message is taken out of both lists, wherever it stands
    have hleased := h.leased
    rw [hflight, hover, List.map_append, List.map_append, List.map_cons, List.map_cons, hm,
      ← List.append_assoc] at hleased
    have hcancelled := (List.perm_middle.symm.trans (hleased.trans List.perm_middle)).cons_inv
    show (queue.inFlight.map Message.tag).Perm _
    rw [hleft, List.map_append, List.map_append, ← List.append_assoc]
    exact hcancelled
  case numbered => exact hlast.trans (h.numbered.trans (numbered_same rfl).symm)
  case ready =>
    -- a message that is back has been received, so it is none of those that count
    have htouched : untouched es m = false := by
      refine h.touched (List.mem_append_right _ ?_)
      rw [hm]
      exact List.mem_map.2 ⟨_, hmem, rfl⟩
    show queue.ready.filter _ = _
    rw [sent_same rfl, untouched_marked hmarked hunmarked nofun, ← h.ready]
    rcases hready with hready | hready
    · rw [hready]
    · rw [hready, Queue.filter_place htouched]
  case lives =>
    have honce := h.once
    rw [hover, List.map_append, List.map_cons, ← List.append_assoc] at honce
    have hgone := (List.nodup_cons.1 (List.perm_middle.nodup_iff.1 honce)).1
    rw [List.append_assoc, List.mem_append, not_or] at hgone
    refine h.marked hmarked hunmarked (fun t left ht hleft => hleft.frame .rfl fun _ => ?_)
      fun left hleft => ⟨[broken], [], ?_, ?_⟩
    · simp [hover, ht]
    · rw [h.stands_unsettled hmem hleft]
      rfl
    · exact .away hgone.1 (by rw [List.map_append]; exact hgone.2)
  case stopped => exact h.stopped

/-- Whatever happens next, it is kept. -/
theorem Kept.goes (h : Kept max es s) (hgoes : Goes w s e s') : Kept max (es ++ [e]) s' := by
  cases hgoes with
  | sent hsend => exact h.sent hsend
  | refused _ => exact h.quiet (fun _ => rfl) rfl rfl rfl rfl rfl h.stopped
  | unavailable on => exact h.quiet (fun _ => rfl) rfl rfl rfl rfl rfl h.stopped
  | takes hstopped hwaiting hfree =>
    refine h.quiet (fun _ => rfl) rfl rfl rfl rfl ?_ fun hstop => ?_
    · rw [hwaiting, hfree]
      rfl
    · rw [hstopped] at hstop
      cases hstop
  | receives hwaiting hreceive => exact h.receives hwaiting hreceive
  | finds hwaiting hreceive =>
    obtain rfl := MemoryQueue.receive_nothing h.queue hreceive (fun _ heq => by cases heq)
    exact h.quiet (fun _ => rfl) rfl rfl rfl rfl rfl h.stopped
  | fails hwaiting hreceive =>
    obtain rfl := MemoryQueue.receive_nothing h.queue hreceive (fun _ heq => by cases heq)
    refine h.quiet (fun _ => rfl) rfl rfl rfl rfl ?_ fun _ => rfl
    rw [hwaiting]
    rfl
  | goesOn hrunning hproceed =>
    refine h.quiet (fun _ => rfl) rfl rfl ?_ rfl rfl h.stopped
    simp only [hrunning, List.map_append, List.map_cons]
  | ends hrunning hproceed hends => exact h.ends hrunning
  | settles hover => exact h.settles hover
  | stops hstopped =>
    exact h.quiet (fun _ => rfl) rfl rfl rfl rfl rfl fun _ => rfl

theorem Reaches.kept (h : Reaches w max world es s) : Kept max es s := by
  induction h with
  | start => exact .start
  | goes _ hgoes ih => exact ih.goes hgoes

/-! ## What is claimed of deliveries -/

/-- Every message that was received has been executed and settled each time, and no place is taken; what was
never received is ready as it was sent. -/
structure AllSettled (max : Nat) (es : List Happening) (s : Pool σ τ) : Prop where
  free : s.free = max
  unleased : s.queue.inFlight = []
  lived : ∀ tag, ∃ rounds, life tag es = List.flatMap wholeLife rounds
  waiting : s.queue.ready.filter (untouched es) = (sent es).filter (untouched es)

/-- How the deliveries of a consumer stand. -/
structure Orderly (w : Worker σ τ) (max : Nat) (es : List Happening) (s : Pool σ τ) : Prop where
  executions : s.running.length ≤ max
  leases : s.queue.inFlight.length ≤ max
  /-- The deliveries of a message follow one another, and each is executed, ends and is settled in this order,
  once each, as far as it has come. -/
  lives : ∀ tag, s.Lives es tag
  /-- The settlement that is due succeeds. -/
  settles : ∀ {broken tag}, (broken, tag) ∈ s.unsettled → ∃ q, (settlement broken tag).apply s.queue = .ok q
  /-- If nothing can be received, nothing is leased, and all places are free that no delivery keeps. -/
  fails : ∀ {f s'}, Goes w s (.fails f) s' →
    s'.queue = s.queue ∧ s'.waiting = false ∧ s'.free + s.running.length + s.unsettled.length = max
  finished : s.stopped → s.running = [] → s.unsettled = [] → AllSettled max es s

end Pipeworks.Runner
