/-
The coordinator, its queue and any number of runs that take their work from it. Runs go on side by side, break
down and are killed, and leases run out while their runs go on, so the same work may be run twice at a time.
No pipeline is stranded (`no_pipeline_stranded`): one that has not ended has its work in the queue. Every run
reports the end of its pipeline before it acknowledges its work, and only that removes a message.
-/
import Mathlib.Logic.Relation
import Pipeworks.Proofs.Coordinator.Delivery
import Pipeworks.Proofs.Coordinator.Hook
import Pipeworks.Proofs.Coordinator.Report
import Pipeworks.Proofs.Runner.Ending
import Pipeworks.Proofs.Runner.Single
import Pipeworks.Proofs.Runner.Unfinished
import Pipeworks.Runner.Worker

namespace Pipeworks

open Coordinator (Setup Outside Memory HookFault HookOutcome)

/-- A run in progress: what it was given, and what is left of it. -/
structure LiveRun where
  tag : Int
  work : Work
  rest : Runner.Run Runner.RunSummary

structure System where
  memory : Memory
  runs : List LiveRun := []
  /-- The pipelines that deliveries by providers were told to have made. -/
  ingested : List Pipeline := []

namespace System

/-! ## Steps -/

/-- The pipeline that was made of a delivery. -/
def created : Except HookFault HookOutcome → List Pipeline
  | .ok (.created p) => [p]
  | _ => []

/-- What a call of a run may be answered, and the coordinator then. Reports reach the coordinator at once, unless
the limit cuts them off; what all other actions do is left open. -/
inductive MayAnswer (setup : Setup) (outside : Outside) :
    (c : Runner.Call) → Memory → c.Answer → Memory → Prop
  | heard (r : Report) (m : Memory) :
      MayAnswer setup outside (.plain (.report r)) m
        ((Runner.Recipient.coordinator setup outside).report r m).1
        ((Runner.Recipient.coordinator setup outside).report r m).2
  | heardInTime (r : Report) (m : Memory) :
      MayAnswer setup outside (.limited (.report r)) m
        (some ((Runner.Recipient.coordinator setup outside).report r m).1)
        ((Runner.Recipient.coordinator setup outside).report r m).2
  | heardTooLate (r : Report) (m : Memory) :
      MayAnswer setup outside (.limited (.report r)) m none
        ((Runner.Recipient.coordinator setup outside).report r m).2
  | unheard (r : Report) (m : Memory) : MayAnswer setup outside (.limited (.report r)) m none m
  | limitSet (limit : Time.Span) (m : Memory) : MayAnswer setup outside (.setLimit limit) m () m
  | acted (a : Runner.Action) (m : Memory) (answer : a.Answer) (transcripts : Transcript.MemoryStore) :
      (∀ r, a ≠ .report r) → MayAnswer setup outside (.plain a) m answer { m with transcripts }
  | actedInTime (a : Runner.Action) (m : Memory) (answer : Option a.Answer)
      (transcripts : Transcript.MemoryStore) :
      (∀ r, a ≠ .report r) → MayAnswer setup outside (.limited a) m answer { m with transcripts }

/-- The system after something has been done to the queue, with these runs. -/
def requeue (s : System) (q : MemoryQueue) (runs : List LiveRun) : System where
  memory := { s.memory with queue := q }
  runs := runs
  ingested := s.ingested

inductive Step (setup : Setup) (outside : Outside) : System → System → Prop
  /-- A delivery by a provider is taken in. -/
  | ingests {s : System} {answer : Except HookFault HookOutcome} {m : Memory} (name : String)
      (headers : Http.Headers) (body : Bytes) :
      (Coordinator.accept setup name headers body).run (Memory.handle outside) s.memory = (answer, m) →
      Step setup outside s { s with memory := m, ingested := s.ingested ++ created answer }
  /-- The queue goes down or comes back. -/
  | queueTurns {s : System} (on : Bool) :
      Step setup outside s (s.requeue (s.memory.queue.setUnavailable on) s.runs)
  | leasesRunOut {s : System} : Step setup outside s (s.requeue s.memory.queue.redeliver s.runs)
  | receives {s : System} {d : Queue.Delivery} {q : MemoryQueue} (limit : Time.Span) (unique : String) :
      s.memory.queue.receive = (.ok (some d), q) →
      Step setup outside s
        (s.requeue q (s.runs ++ [⟨d.tag, d.work, Runner.execute limit d.work unique⟩]))
  /-- A run makes its next call. -/
  | goesOn {s : System} {front back : List LiveRun} {tag : Int} {work : Work} {c : Runner.Call}
      {next : c.Answer → Runner.Run Runner.RunSummary} {answer : c.Answer} {m : Memory} :
      s.runs = front ++ ⟨tag, work, .ask c next⟩ :: back → MayAnswer setup outside c s.memory answer m →
      Step setup outside s { s with memory := m, runs := front ++ ⟨tag, work, next answer⟩ :: back }
  /-- A run is over, and its work is acknowledged. -/
  | ends {s : System} {front back : List LiveRun} {tag : Int} {work : Work} {summary : Runner.RunSummary} :
      s.runs = front ++ ⟨tag, work, .done summary⟩ :: back →
      Step setup outside s
        (s.requeue (Runner.Consumer.settle false tag s.memory.queue) (front ++ back))
  /-- A run panics, and its work is given back. -/
  | breaksDown {s : System} {front back : List LiveRun} {run : LiveRun} :
      s.runs = front ++ run :: back →
      Step setup outside s
        (s.requeue (Runner.Consumer.settle true run.tag s.memory.queue) (front ++ back))
  /-- A runner is killed, and nobody settles its work. -/
  | killed {s : System} {front back : List LiveRun} {run : LiveRun} :
      s.runs = front ++ run :: back → Step setup outside s { s with runs := front ++ back }

/-! ## What stays true -/

/-- The pipeline is stored and has ended. -/
def EndedAt (s : MemoryStorage) (id : Int64) : Prop :=
  ∃ p, s.pipeline? id = some p ∧ p.status.isTerminal

/-- Work for the pipeline is in the queue, ready or in flight. -/
def WaitsIn (q : MemoryQueue) (p : Pipeline) : Prop :=
  ∃ m ∈ q.held, ∃ token, Work.ofPayload m.payload = .ok ⟨p, token⟩

/-- A run has work that a delivery has sent, and its message, if that is still there, carries this work; it
cannot be done before its pipeline has ended. -/
structure Owned (m : Memory) (ingested : List Pipeline) (run : LiveRun) : Prop where
  number : run.tag ≤ m.queue.lastId
  work : run.work.pipeline ∈ ingested
  carried : ∀ msg ∈ m.queue.held, msg.tag = run.tag → Work.ofPayload msg.payload = .ok run.work
  ends : Runner.MustEnd run.work.pipeline.id run.rest ∨ EndedAt m.storage run.work.pipeline.id

/-- The system is as it should be, where the storage was another before anything was ingested. -/
structure Sound (start : MemoryStorage) (s : System) : Prop where
  wf : s.memory.WF
  up : s.memory.storage.failing = false
  /-- All rows that were not there at the start belong to pipelines that were ingested. -/
  rows : ∀ row ∈ s.memory.storage.pipelines,
    (∃ old, start.pipeline? row.id = some old) ∨ ∃ p ∈ s.ingested, p.id = row.id
  stored : ∀ p ∈ s.ingested, ∃ row, s.memory.storage.pipeline? p.id = some row
  sent : ∀ m ∈ s.memory.queue.held, ∃ w, Work.ofPayload m.payload = .ok w ∧ w.pipeline ∈ s.ingested
  waiting : ∀ p ∈ s.ingested, EndedAt s.memory.storage p.id ∨ WaitsIn s.memory.queue p
  owned : ∀ run ∈ s.runs, Owned s.memory s.ingested run

variable {setup : Setup} {outside : Outside} {start : MemoryStorage} {s s' : System} {q q' : MemoryQueue}
  {m m' : Memory} {id : Int64} {p : Pipeline} {tag : Int} {front back : List LiveRun} {run : LiveRun}

/-! ### The queue -/

theorem WaitsIn.mono (h : WaitsIn q p)
    (hheld : q.held.map Queue.Message.content ⊆ q'.held.map Queue.Message.content) : WaitsIn q' p := by
  obtain ⟨m, hm, token, hw⟩ := h
  obtain ⟨m', hm', hsame⟩ := List.mem_map.1 (hheld (List.mem_map_of_mem hm))
  have hpayload : m'.payload = m.payload := congrArg Prod.snd hsame
  exact ⟨m', hm', token, hpayload ▸ hw⟩

/-- The queue may lose messages of pipelines that have ended, and runs may be dropped. -/
theorem Sound.requeue (h : Sound start s) {runs : List LiveRun} (hwf : q.WF)
    (hlast : q.lastId = s.memory.queue.lastId)
    (hheld : q.held.map Queue.Message.content ⊆ s.memory.queue.held.map Queue.Message.content)
    (hwaiting : ∀ p ∈ s.ingested, WaitsIn s.memory.queue p → EndedAt s.memory.storage p.id ∨ WaitsIn q p)
    (hruns : runs ⊆ s.runs) : Sound start (s.requeue q runs) := by
  have hold : ∀ m ∈ q.held, ∃ m' ∈ s.memory.queue.held, m'.payload = m.payload ∧ m'.tag = m.tag := by
    intro m hm
    obtain ⟨m', hm', hsame⟩ := List.mem_map.1 (hheld (List.mem_map_of_mem hm))
    exact ⟨m', hm', congrArg Prod.snd hsame, Queue.tag_inj.2 (congrArg Prod.fst hsame)⟩
  constructor
  case wf => exact ⟨h.wf.numbered, h.wf.pendingNew, h.wf.logInOrder, hwf⟩
  case up => exact h.up
  case rows => exact h.rows
  case stored => exact h.stored
  case sent =>
    intro m hm
    obtain ⟨m', hm', hpayload, -⟩ := hold m hm
    exact hpayload ▸ h.sent m' hm'
  case waiting => exact fun p hp => (h.waiting p hp).elim .inl (hwaiting p hp)
  case owned =>
    intro run hrun
    have howned := h.owned run (hruns hrun)
    refine ⟨hlast ▸ howned.number, howned.work, fun m hm htag => ?_, howned.ends⟩
    obtain ⟨m', hm', hpayload, hsame⟩ := hold m hm
    exact hpayload ▸ howned.carried m' hm' (hsame.trans htag)

/-- Messages may be moved and delivered. -/
theorem Sound.moved (h : Sound start s) {runs : List LiveRun} (hwf : q.WF)
    (hlast : q.lastId = s.memory.queue.lastId)
    (hheld : (q.held.map Queue.Message.content).Perm (s.memory.queue.held.map Queue.Message.content))
    (hruns : runs ⊆ s.runs) : Sound start (s.requeue q runs) :=
  h.requeue hwf hlast hheld.subset (fun _ _ hwaits => .inr (hwaits.mono hheld.symm.subset)) hruns

/-- A message that is given back is still there. -/
theorem settle_broken (h : q.WF) (tag : Int) :
    (Runner.Consumer.settle true tag q).WF ∧ (Runner.Consumer.settle true tag q).lastId = q.lastId ∧
      (Runner.Consumer.settle true tag q).held.Perm q.held := by
  have hsettle : Runner.Consumer.settle true tag q = (Queue.Operation.nack tag).attempt q := rfl
  rw [hsettle]
  cases hnack : q.nack tag with
  | error f =>
    rw [MemoryQueue.attempt_error (.nack tag) hnack]
    exact ⟨h, rfl, .rfl⟩
  | ok q' =>
    rw [MemoryQueue.attempt_ok (.nack tag) hnack]
    have hwf := h.nack hnack
    obtain ⟨m, front, back, -, hflight, rfl⟩ := MemoryQueue.nack_ok h hnack
    exact ⟨hwf, rfl, MemoryQueue.nack_perm hflight⟩

/-- An acknowledgement removes at most the message of its tag. -/
theorem settle_done (h : q.WF) (tag : Int) :
    Runner.Consumer.settle false tag q = q ∨
    ∃ m, m.tag = tag ∧ (Runner.Consumer.settle false tag q).WF ∧
      (Runner.Consumer.settle false tag q).lastId = q.lastId ∧
      q.held.Perm (m :: (Runner.Consumer.settle false tag q).held) := by
  have hsettle : Runner.Consumer.settle false tag q = (Queue.Operation.ack tag).attempt q := rfl
  rw [hsettle]
  cases hack : q.ack tag with
  | error f => exact .inl (MemoryQueue.attempt_error (.ack tag) hack)
  | ok q' =>
    rw [MemoryQueue.attempt_ok (.ack tag) hack]
    have hwf := h.ack hack
    obtain ⟨m, front, back, htag, hflight, rfl⟩ := MemoryQueue.ack_ok h hack
    exact .inr ⟨m, htag, hwf, rfl, MemoryQueue.ack_perm hflight⟩

/-- An acknowledgement comes after the end of the pipeline, so nothing is lost that anybody waits for. -/
theorem Sound.ended (h : Sound start s) {work : Work} {summary : Runner.RunSummary}
    (howned : Owned s.memory s.ingested ⟨tag, work, .done summary⟩) {runs : List LiveRun}
    (hruns : runs ⊆ s.runs) :
    Sound start (s.requeue (Runner.Consumer.settle false tag s.memory.queue) runs) := by
  have hended : EndedAt s.memory.storage work.pipeline.id := howned.ends.resolve_left fun h => h
  obtain heq | ⟨m, htag, hwf, hlast, hperm⟩ := settle_done h.wf.queue tag
  · rw [heq]
    exact h.moved h.wf.queue rfl .rfl hruns
  · have hgone := howned.carried m (hperm.mem_iff.2 List.mem_cons_self) htag
    refine h.requeue hwf hlast ?_ (fun p _ hwaits => ?_) hruns
    · exact List.map_subset _ fun m' hm' => hperm.mem_iff.2 (List.mem_cons_of_mem _ hm')
    · -- a message that is gone carried the work of this run, so it is its pipeline that has ended
      obtain ⟨m', hm', token, hwork⟩ := hwaits
      rcases List.mem_cons.1 (hperm.mem_iff.1 hm') with rfl | hm'
      · obtain rfl : work = ⟨p, token⟩ := Except.ok.inj (hgone.symm.trans hwork)
        exact .inl hended
      · exact .inr ⟨m', hm', token, hwork⟩

/-- A delivery of a message begins a run with its work. -/
theorem Sound.received (h : Sound start s) {d : Queue.Delivery} (limit : Time.Span) (unique : String)
    (hreceive : s.memory.queue.receive = (.ok (some d), q)) :
    Sound start (s.requeue q (s.runs ++ [⟨d.tag, d.work, Runner.execute limit d.work unique⟩])) := by
  have hsound : Sound start (s.requeue q s.runs) := by
    obtain ⟨hcontent, hlast⟩ := MemoryQueue.receive_perm h.wf.queue
    have hwf := h.wf.queue.receive
    rw [hreceive] at hcontent hlast hwf
    exact h.moved hwf hlast hcontent (List.Subset.refl _)
  obtain ⟨-, heq⟩ | ⟨-, -, heq⟩ | ⟨m, rest, w, -, hready, hpayload, heq⟩ :=
    MemoryQueue.receive_cases h.wf.queue
  · rw [heq] at hreceive
    cases hreceive
  · rw [heq] at hreceive
    cases hreceive
  rw [heq] at hreceive
  cases hreceive
  obtain ⟨hperm, hheld⟩ := MemoryQueue.deliver_perm hready
  have hm : m ∈ s.memory.queue.held := hheld ▸ List.mem_cons_self
  have hread : Work.ofPayload m.payload = .ok w := by rw [hpayload, Work.ofPayload_payload]
  obtain ⟨w', hw', hingested⟩ := h.sent m hm
  obtain rfl : w = w' := Except.ok.inj (hread.symm.trans hw')
  refine ⟨hsound.wf, hsound.up, hsound.rows, hsound.stored, hsound.sent, hsound.waiting, fun run hrun => ?_⟩
  rcases List.mem_append.1 hrun with hrun | hrun
  · exact hsound.owned run hrun
  · rw [List.mem_singleton.1 hrun]
    refine ⟨Int.ofNat_le.2 (h.wf.queue.numbered m hm), hingested, fun m' hm' htag => ?_,
      .inl (Runner.execute_mustEnd limit w unique)⟩
    -- no other message has this number
    rcases List.mem_cons.1 (hperm.mem_iff.1 hm') with rfl | hm'
    · exact hread
    · have htags := h.wf.queue.tags
      rw [hheld, List.map_cons, List.nodup_cons] at htags
      exact absurd (List.mem_map.2 ⟨m', hm', htag⟩) htags.1

/-! ### Deliveries by providers -/

/-- A new pipeline waits in the queue, and nothing else changes for the others. -/
theorem Sound.built (h : Sound start s) {provider : Provider} {push : Push} {r : Repo}
    {shown : List CommitStatus} (hwf : m.WF)
    (hbuilt : Coordinator.Built setup provider push r s.memory p m shown) :
    Sound start { s with memory := m, ingested := s.ingested ++ [p] } := by
  obtain ⟨payload, hread, hlast, hperm⟩ := hbuilt.held
  have hended : ∀ {id}, EndedAt s.memory.storage id → EndedAt m.storage id := by
    rintro id ⟨row, hrow, hterminal⟩
    exact ⟨row, hbuilt.old_row hrow, hterminal⟩
  have hmem : ∀ {msg}, msg ∈ m.queue.held →
      msg = ⟨s.memory.queue.lastId + 1, payload, 0⟩ ∨ msg ∈ s.memory.queue.held := fun hmsg =>
    List.mem_cons.1 (hperm.mem_iff.1 hmsg)
  constructor
  case wf => exact hwf
  case up =>
    rw [hbuilt.storage]
    exact h.up
  case rows =>
    rw [hbuilt.rows]
    intro row hmem
    rcases List.mem_append.1 hmem with hmem | hmem
    · obtain hold | ⟨p', hp', hid⟩ := h.rows row hmem
      · exact .inl hold
      · exact .inr ⟨p', List.mem_append_left _ hp', hid⟩
    · rw [List.mem_singleton.1 hmem]
      exact .inr ⟨p, List.mem_append_right _ (List.mem_singleton_self p), rfl⟩
  case stored =>
    intro p' hp'
    rcases List.mem_append.1 hp' with hp' | hp'
    · obtain ⟨row, hold⟩ := h.stored p' hp'
      exact ⟨row, hbuilt.old_row hold⟩
    · rw [List.mem_singleton.1 hp']
      exact ⟨p, hbuilt.row⟩
  case sent =>
    intro msg hmsg
    rcases hmem hmsg with rfl | hmsg
    · exact ⟨_, hread, List.mem_append_right _ (List.mem_singleton_self p)⟩
    · obtain ⟨w, hw, hingested⟩ := h.sent msg hmsg
      exact ⟨w, hw, List.mem_append_left _ hingested⟩
  case waiting =>
    intro p' hp'
    rcases List.mem_append.1 hp' with hp' | hp'
    · obtain hover | ⟨msg, hmsg, token, hw⟩ := h.waiting p' hp'
      · exact .inl (hended hover)
      · exact .inr ⟨msg, hperm.mem_iff.2 (List.mem_cons_of_mem _ hmsg), token, hw⟩
    · rw [List.mem_singleton.1 hp']
      exact .inr ⟨_, hperm.mem_iff.2 List.mem_cons_self, _, hread⟩
  case owned =>
    intro run hrun
    have howned := h.owned run hrun
    have hnumber := howned.number
    refine ⟨?_, List.mem_append_left _ howned.work, fun msg hmsg htag => ?_, howned.ends.imp_right hended⟩
    · show run.tag ≤ m.queue.lastId
      omega
    · -- the new message has a number of its own
      rcases hmem hmsg with rfl | hmsg
      · simp only [Queue.Message.tag] at htag
        omega
      · exact howned.carried msg hmsg htag

theorem Sound.ingested (h : Sound start s) {answer : Except HookFault HookOutcome} (name : String)
    (headers : Http.Headers) (body : Bytes)
    (hrun : (Coordinator.accept setup name headers body).run (Memory.handle outside) s.memory = (answer, m)) :
    Sound start { s with memory := m, ingested := s.ingested ++ created answer } := by
  have hwf := h.wf.run outside (Coordinator.accept setup name headers body)
  rw [hrun] at hwf
  obtain ⟨answer', m', shown, hcarried, houtcome⟩ :=
    Coordinator.accept_cases h.wf setup outside name headers body
  obtain ⟨rfl, rfl⟩ := Prod.mk.inj (hrun.symm.trans hcarried.run)
  cases houtcome with
  | built _ hbuilt => exact h.built hwf hbuilt
  | @nothing _ n _ hanswer _ =>
    have hcreated : created answer = [] := by
      unfold created
      split
      · exact absurd rfl (hanswer _)
      · rfl
    rw [hcreated, List.append_nil]
    exact ⟨hwf, h.up, h.rows, h.stored, h.sent, h.waiting, fun run hrun =>
      ⟨(h.owned run hrun).number, (h.owned run hrun).work, (h.owned run hrun).carried, (h.owned run hrun).ends⟩⟩

/-! ### Calls of runs -/

/-- A report is heard, and nothing happens to the queue. -/
theorem report_memory (hup : m.storage.failing = false) (setup : Setup) (outside : Outside) (r : Report) :
    ∃ posted, ((Runner.Recipient.coordinator setup outside).report r m).2 =
      { m with storage := m.storage.heard r, posted := posted } := by
  obtain ⟨answer, posted, shown, hcarried⟩ := Coordinator.hear_cases hup setup outside r
  refine ⟨posted, ?_⟩
  show ((Coordinator.hear setup r).run (Memory.handle outside) m).2 = _
  rw [hcarried.run]

/-- What a call of a run leaves as it is: the queue, and the rows that have ended; no row is new, and none is
gone. -/
structure Spared (m m' : Memory) : Prop where
  wf : m'.WF
  up : m'.storage.failing = false
  queue : m'.queue = m.queue
  ids : ∀ row ∈ m'.storage.pipelines, ∃ row' ∈ m.storage.pipelines, row'.id = row.id
  rows : ∀ id row, m.storage.pipeline? id = some row →
    ∃ row', m'.storage.pipeline? id = some row' ∧ (row.status.isTerminal → row' = row)

theorem Spared.report (hwf : m.WF) (hup : m.storage.failing = false) (setup : Setup) (outside : Outside)
    (r : Report) : Spared m ((Runner.Recipient.coordinator setup outside).report r m).2 := by
  have hwf' : ((Runner.Recipient.coordinator setup outside).report r m).2.WF :=
    hwf.run outside (Coordinator.hear setup r)
  obtain ⟨posted, heq⟩ := report_memory hup setup outside r
  rw [heq] at hwf' ⊢
  exact ⟨hwf', (Coordinator.heard_up m.storage r).trans hup, rfl, Coordinator.heard_ids m.storage r,
    fun id row hrow => Coordinator.heard_row hrow r⟩

theorem MayAnswer.spared {c : Runner.Call} {answer : c.Answer} (h : MayAnswer setup outside c m answer m')
    (hwf : m.WF) (hup : m.storage.failing = false) : Spared m m' := by
  have hsame : ∀ transcripts, Spared m { m with transcripts } := fun transcripts =>
    ⟨⟨hwf.numbered, hwf.pendingNew, hwf.logInOrder, hwf.queue⟩, hup, rfl, fun row hrow => ⟨row, hrow, rfl⟩,
      fun id row hrow => ⟨row, hrow, fun _ => rfl⟩⟩
  cases h with
  | heard r => exact .report hwf hup setup outside r
  | heardInTime r => exact .report hwf hup setup outside r
  | heardTooLate r => exact .report hwf hup setup outside r
  | unheard r => exact hsame m.transcripts
  | limitSet limit => exact hsame m.transcripts
  | acted a _ answer transcripts _ => exact hsame transcripts
  | actedInTime a _ answer transcripts _ => exact hsame transcripts

/-- Once a run has reported the end of a pipeline, the pipeline has ended. -/
theorem MayAnswer.ended {c : Runner.Call} {answer : c.Answer} (h : MayAnswer setup outside c m answer m')
    (hup : m.storage.failing = false) (hend : c.IsEnd id) {row : Pipeline}
    (hrow : m.storage.pipeline? id = some row) : EndedAt m'.storage id := by
  obtain ⟨r, rfl, rfl⟩ := hend
  cases h with
  | heard _ _ =>
    obtain ⟨posted, heq⟩ := report_memory hup setup outside (.finished r)
    rw [heq]
    exact Coordinator.heard_finished hrow
  | acted _ _ _ _ hother => exact absurd rfl (hother (.finished r))

/-- A run goes on, and so does the system. -/
theorem Sound.wentOn (h : Sound start s) {work : Work} {c : Runner.Call}
    {next : c.Answer → Runner.Run Runner.RunSummary} {answer : c.Answer}
    (hruns : s.runs = front ++ ⟨tag, work, .ask c next⟩ :: back)
    (hanswer : MayAnswer setup outside c s.memory answer m) :
    Sound start { s with memory := m, runs := front ++ ⟨tag, work, next answer⟩ :: back } := by
  have hspared := hanswer.spared h.wf h.up
  have hended : ∀ {id}, EndedAt s.memory.storage id → EndedAt m.storage id := by
    rintro id ⟨row, hrow, hterminal⟩
    obtain ⟨row', hrow', hsame⟩ := hspared.rows id row hrow
    exact ⟨row', hrow', (hsame hterminal).symm ▸ hterminal⟩
  have hrest : ∀ {run}, Owned s.memory s.ingested run → Owned m s.ingested run := fun {run} howned =>
    ⟨hspared.queue.symm ▸ howned.number, howned.work, hspared.queue.symm ▸ howned.carried,
      howned.ends.imp_right hended⟩
  constructor
  case wf => exact hspared.wf
  case up => exact hspared.up
  case rows =>
    intro row hrow
    obtain ⟨row', hrow', hid⟩ := hspared.ids row hrow
    exact hid ▸ h.rows row' hrow'
  case stored =>
    intro p hp
    obtain ⟨row, hrow⟩ := h.stored p hp
    obtain ⟨row', hrow', -⟩ := hspared.rows p.id row hrow
    exact ⟨row', hrow'⟩
  case sent => exact hspared.queue.symm ▸ h.sent
  case waiting => exact fun p hp => (h.waiting p hp).imp hended fun hwaits => hspared.queue.symm ▸ hwaits
  case owned =>
    intro run hrun
    have hold : ∀ run ∈ front ++ ⟨tag, work, .ask c next⟩ :: back, Owned s.memory s.ingested run :=
      hruns ▸ h.owned
    rcases List.mem_append.1 hrun with hrun | hrun
    · exact hrest (hold run (List.mem_append_left _ hrun))
    rcases List.mem_cons.1 hrun with rfl | hrun
    · have howned := hold _ (List.mem_append_right _ List.mem_cons_self)
      refine ⟨(hrest howned).number, howned.work, (hrest howned).carried, ?_⟩
      -- the call is the report of the end, or the run still has to make it, or the end was there before
      obtain (hend | hnext) | hover := howned.ends
      · obtain ⟨row, hrow⟩ := h.stored _ howned.work
        exact .inr (hanswer.ended h.up hend hrow)
      · exact .inl (hnext answer)
      · exact .inr (hended hover)
    · exact hrest (hold run (List.mem_append_right _ (List.mem_cons_of_mem _ hrun)))

/-! ## No pipeline is stranded -/

theorem dropped_subset (hruns : s.runs = front ++ run :: back) : front ++ back ⊆ s.runs := by
  rw [hruns]
  exact ((List.sublist_cons_self run back).append_left front).subset

theorem Sound.step (h : Sound start s) (hstep : Step setup outside s s') : Sound start s' := by
  cases hstep with
  | ingests name headers body hrun => exact h.ingested name headers body hrun
  | queueTurns on => exact h.moved (h.wf.queue.setUnavailable on) rfl .rfl (List.Subset.refl _)
  | leasesRunOut =>
    exact h.moved h.wf.queue.redeliver rfl ((MemoryQueue.redeliver_perm _).map _) (List.Subset.refl _)
  | receives limit unique hreceive => exact h.received limit unique hreceive
  | goesOn hruns hanswer => exact h.wentOn hruns hanswer
  | ends hruns =>
    exact h.ended (h.owned _ (hruns ▸ List.mem_append_right _ List.mem_cons_self)) (dropped_subset hruns)
  | @breaksDown front back run hruns =>
    obtain ⟨hwf, hlast, hperm⟩ := settle_broken h.wf.queue run.tag
    exact h.moved hwf hlast (hperm.map _) (dropped_subset hruns)
  | killed hruns => exact h.moved h.wf.queue rfl .rfl (dropped_subset hruns)

theorem Sound.steps (h : Sound start s) (hsteps : Relation.ReflTransGen (Step setup outside) s s') :
    Sound start s' := by
  induction hsteps with
  | refl => exact h
  | tail _ hstep ih => exact ih.step hstep

/-- A message is lost only once its pipeline has ended. -/
theorem Sound.lost_ended (h : Sound start s) (hstep : Step setup outside s s') {msg : Queue.Message}
    (hmsg : msg ∈ s.memory.queue.held) :
    (∃ msg' ∈ s'.memory.queue.held, msg'.content = msg.content) ∨
    ∃ w, Work.ofPayload msg.payload = .ok w ∧ EndedAt s.memory.storage w.pipeline.id := by
  have hcontent : msg.content ∈ s.memory.queue.held.map Queue.Message.content := List.mem_map_of_mem hmsg
  cases hstep with
  | @ingests answer m name headers body hrun =>
    obtain ⟨answer', m', shown, hcarried, houtcome⟩ :=
      Coordinator.accept_cases h.wf setup outside name headers body
    obtain ⟨rfl, rfl⟩ := Prod.mk.inj (hrun.symm.trans hcarried.run)
    exact .inl ⟨msg, houtcome.held_subset hmsg, rfl⟩
  | queueTurns on => exact .inl ⟨msg, hmsg, rfl⟩
  | leasesRunOut => exact .inl ⟨msg, (MemoryQueue.redeliver_perm _).mem_iff.2 hmsg, rfl⟩
  | receives limit unique hreceive =>
    have hperm := (MemoryQueue.receive_perm h.wf.queue).1
    rw [hreceive] at hperm
    exact .inl (List.mem_map.1 (hperm.mem_iff.2 hcontent))
  | goesOn hruns hanswer =>
    exact .inl ⟨msg, (hanswer.spared h.wf h.up).queue.symm ▸ hmsg, rfl⟩
  | @ends front back tag work summary hruns =>
    have howned := h.owned _ (hruns ▸ List.mem_append_right _ List.mem_cons_self)
    obtain heq | ⟨m, htag, -, -, hperm⟩ := settle_done h.wf.queue tag
    · exact .inl ⟨msg, heq.symm ▸ hmsg, rfl⟩
    · rcases List.mem_cons.1 (hperm.mem_iff.1 hmsg) with rfl | hmsg'
      · exact .inr ⟨work, howned.carried msg hmsg htag, howned.ends.resolve_left fun h => h⟩
      · exact .inl ⟨msg, hmsg', rfl⟩
  | @breaksDown front back run hruns =>
    obtain ⟨-, -, hperm⟩ := settle_broken h.wf.queue run.tag
    exact .inl ⟨msg, hperm.mem_iff.2 hmsg, rfl⟩
  | killed hruns => exact .inl ⟨msg, hmsg, rfl⟩

/-- The system when nothing has been ingested yet: a coordinator that has been through anything, and a new
queue. -/
def begin (happened : List Coordinator.Happening) : System where
  memory := { Memory.of happened with queue := {} }

theorem Sound.begin (happened : List Coordinator.Happening)
    (hup : (Memory.of happened).storage.failing = false) :
    Sound (Memory.of happened).storage (begin happened) where
  wf :=
    have hwf := Memory.WF.of happened
    ⟨hwf.numbered, hwf.pendingNew, hwf.logInOrder, .empty⟩
  up := hup
  rows row hrow := by
    have hsome : ((Memory.of happened).storage.pipelines.find? (·.id == row.id)).isSome :=
      List.find?_isSome.2 ⟨row, hrow, beq_self_eq_true _⟩
    exact .inl (Option.isSome_iff_exists.1 hsome)
  stored := List.forall_mem_nil _
  sent := List.forall_mem_nil _
  waiting := List.forall_mem_nil _
  owned := List.forall_mem_nil _

/-- Whatever happens in the system, each pipeline that was stored since the beginning and has not ended has its
work in the queue, ready or in flight, and a message is lost only once its pipeline has ended. -/
theorem no_pipeline_stranded (setup : Setup) (outside : Outside) (happened : List Coordinator.Happening)
    (hup : (Memory.of happened).storage.failing = false) (s : System)
    (hsteps : Relation.ReflTransGen (Step setup outside) (begin happened) s) :
    (∀ id row, s.memory.storage.pipeline? id = some row →
      (Memory.of happened).storage.pipeline? id = none → row.status.isTerminal = false →
      ∃ p ∈ s.ingested, p.id = id ∧ WaitsIn s.memory.queue p) ∧
    ∀ s', Step setup outside s s' → ∀ msg ∈ s.memory.queue.held,
      (∃ msg' ∈ s'.memory.queue.held, msg'.content = msg.content) ∨
      ∃ w, Work.ofPayload msg.payload = .ok w ∧ EndedAt s.memory.storage w.pipeline.id := by
  have h := (Sound.begin happened hup).steps hsteps
  refine ⟨fun id row hrow hnew hgoing => ?_, fun s' hstep msg hmsg => h.lost_ended hstep hmsg⟩
  have hid : row.id = id := by simpa using List.find?_some hrow
  obtain ⟨old, hold⟩ | ⟨p, hp, hsame⟩ := h.rows row (List.mem_of_find?_eq_some hrow)
  · rw [hid, hnew] at hold
    cases hold
  · refine ⟨p, hp, hsame.trans hid, (h.waiting p hp).resolve_left ?_⟩
    rintro ⟨row', hrow', hended⟩
    rw [hsame, hid, hrow] at hrow'
    obtain rfl := Option.some.inj hrow'
    rw [hgoing] at hended
    cases hended

/-! ### A push -/

/-- Every call can be answered. -/
theorem exists_answer (setup : Setup) (outside : Outside) (c : Runner.Call) (m : Memory) :
    ∃ answer m', MayAnswer setup outside c m answer m' := by
  cases c with
  | setLimit limit => exact ⟨(), m, .limitSet limit m⟩
  | plain a =>
    by_cases hreport : ∃ r, a = .report r
    · obtain ⟨r, rfl⟩ := hreport
      exact ⟨_, _, .heard r m⟩
    · exact ⟨Runner.struck (.plain a), _, .acted a m _ m.transcripts fun r heq => hreport ⟨r, heq⟩⟩
  | limited a =>
    by_cases hreport : ∃ r, a = .report r
    · obtain ⟨r, rfl⟩ := hreport
      exact ⟨none, m, .unheard r m⟩
    · exact ⟨none, _, .actedInTime a m _ m.transcripts fun r heq => hreport ⟨r, heq⟩⟩

/-- A run can make all its calls, which leave the queue as it is. -/
theorem exists_finished (setup : Setup) (outside : Outside) {work : Work} (rest : Runner.Run Runner.RunSummary)
    (hruns : s.runs = [⟨tag, work, rest⟩]) (hwf : s.memory.WF) (hup : s.memory.storage.failing = false) :
    ∃ m summary, m.queue = s.memory.queue ∧
      Relation.ReflTransGen (Step setup outside) s { s with memory := m, runs := [⟨tag, work, .done summary⟩] } := by
  induction rest generalizing s with
  | done summary =>
    have hsame : { s with runs := [⟨tag, work, .done summary⟩] } = s := by rw [← hruns]
    exact ⟨s.memory, summary, rfl, hsame ▸ .refl⟩
  | ask c next ih =>
    obtain ⟨answer, m, hanswer⟩ := exists_answer setup outside c s.memory
    have hspared := hanswer.spared hwf hup
    have hstep : Step setup outside s { s with memory := m, runs := [⟨tag, work, next answer⟩] } :=
      .goesOn (hruns.trans (List.nil_append [_]).symm) hanswer
    obtain ⟨m', summary, hqueue, hsteps⟩ := ih answer
      (s := { s with memory := m, runs := [⟨tag, work, next answer⟩] }) rfl hspared.wf hspared.up
    exact ⟨m', summary, hqueue.trans hspared.queue, .head hstep hsteps⟩

section
variable {msg : Queue.Message} {w : Work} (hruns : s.runs = []) (hup : s.memory.queue.unavailable = false)
  (hready : s.memory.queue.ready = [msg]) (hflight : s.memory.queue.inFlight = []) (hpayload : msg.payload = w.payload)

include hruns hup hready hflight hpayload

/-- The message that waits is received, and a run begins. -/
theorem received_step (setup : Setup) (outside : Outside) (limit : Time.Span) (unique : String) :
    Step setup outside s (s.requeue { s.memory.queue with ready := [], inFlight := [msg.delivered] }
      [⟨msg.tag, w, Runner.execute limit w unique⟩]) := by
  have hreceive := MemoryQueue.receive_oldest hup hready hpayload
  rw [hflight] at hreceive
  have hstep : Step setup outside s _ := .receives limit unique hreceive
  rwa [hruns] at hstep

/-- The run is killed, and the lease runs out. -/
theorem killed_steps (setup : Setup) (outside : Outside) (limit : Time.Span) :
    Relation.ReflTransGen (Step setup outside) s
      (s.requeue { s.memory.queue with ready := [msg.delivered], inFlight := [] } []) := by
  let leased : MemoryQueue := { s.memory.queue with ready := [], inFlight := [msg.delivered] }
  have hreceived := received_step hruns hup hready hflight hpayload setup outside limit "a"
  have hkilled : Step setup outside (s.requeue leased [⟨msg.tag, w, Runner.execute limit w "a"⟩]) _ :=
    .killed (List.nil_append [_]).symm
  have hback : Step setup outside (s.requeue leased [])
      (s.requeue { s.memory.queue with ready := [msg.delivered], inFlight := [] } []) := .leasesRunOut
  exact .head hreceived (.head hkilled (.single hback))

/-- The run makes all its calls, and its message is acknowledged. -/
theorem finished_steps (hsound : Sound start s) (setup : Setup) (outside : Outside) (limit : Time.Span) :
    ∃ finished settled, Relation.ReflTransGen (Step setup outside) s finished ∧ Step setup outside finished settled ∧
      finished.memory.queue.held = [msg.delivered] ∧ settled.memory.queue.held = [] := by
  let leased : MemoryQueue := { s.memory.queue with ready := [], inFlight := [msg.delivered] }
  have hreceived := received_step hruns hup hready hflight hpayload setup outside limit "b"
  have hafter := hsound.step hreceived
  obtain ⟨m, summary, hqueue, hfinished⟩ :=
    exists_finished setup outside (Runner.execute limit w "b") rfl hafter.wf hafter.up
  refine ⟨_, _, .head hreceived hfinished, .ends (List.nil_append [_]).symm, ?_, ?_⟩
  · show m.queue.held = _
    rw [hqueue]
    rfl
  · show (Runner.Consumer.settle false msg.tag m.queue).held = []
    have hsettled := Runner.Consumer.settle_leased (m := msg.delivered) (q := leased) rfl
    rw [hqueue]
    exact congrArg MemoryQueue.held hsettled

end

namespace Sample

open Coordinator.Sample

/-- What becomes of a push. -/
def taken : Except HookFault HookOutcome × Memory :=
  (Coordinator.accept plainly "fake" headers body).run (Memory.handle silence) (begin registered).memory

def pushed : System :=
  { begin registered with memory := taken.2, ingested := (begin registered).ingested ++ created taken.1 }

theorem pushed_step : Step plainly silence (begin registered) pushed := by
  have hstep : ∀ (s : System) (result : Except HookFault HookOutcome × Memory),
      (Coordinator.accept plainly "fake" headers body).run (Memory.handle silence) s.memory = result →
      Step plainly silence s { s with memory := result.2, ingested := s.ingested ++ created result.1 } :=
    fun s result hrun => .ingests "fake" headers body hrun
  exact hstep (begin registered) taken (by unfold taken; rfl)

/-- The pipeline of the push is pending, and one message waits. -/
theorem exists_pushed : ∃ s, Relation.ReflTransGen (Step plainly silence) (begin registered) s ∧ s.runs = [] ∧
    s.memory.queue.unavailable = false ∧ (∃ msg, s.memory.queue.ready = [msg]) ∧ s.memory.queue.inFlight = [] ∧
    ∃ row, s.memory.storage.pipeline? 1 = some row ∧ row.status.isTerminal = false := by
  have hpending : (pushed.memory.storage.pipeline? 1).map Pipeline.status = some .pending := by decide +kernel
  have hqueue : pushed.memory.queue.ready.length = 1 ∧ pushed.memory.queue.inFlight.length = 0 ∧
    pushed.memory.queue.unavailable = false := by decide +kernel
  obtain ⟨row, hrow, hstatus⟩ := Option.map_eq_some_iff.1 hpending
  obtain ⟨hready, hflight, hup⟩ := hqueue
  exact ⟨pushed, .single pushed_step, rfl, hup, List.length_eq_one_iff.1 hready, List.length_eq_zero_iff.1 hflight,
    row, hrow, by rw [hstatus]; rfl⟩

end Sample

section
open Coordinator.Sample

/-- The run of a push is killed, and its message comes back while the pipeline is pending; it is lost once another run
has ended the pipeline. -/
theorem no_pipeline_stranded_pushed :
    ∃ killed finished settled : System,
      Relation.ReflTransGen (Step plainly silence) (begin registered) killed ∧ killed.runs = [] ∧
      (∃ row, killed.memory.storage.pipeline? 1 = some row ∧ row.status.isTerminal = false ∧
        ∃ p ∈ killed.ingested, p.id = 1 ∧ WaitsIn killed.memory.queue p) ∧
      Relation.ReflTransGen (Step plainly silence) killed finished ∧ Step plainly silence finished settled ∧
      settled.memory.queue.held = [] ∧ ∃ msg ∈ finished.memory.queue.held, ∃ w, Work.ofPayload msg.payload = .ok w ∧
        EndedAt finished.memory.storage w.pipeline.id := by
  obtain ⟨s, hpushed, hruns, hup, ⟨msg, hready⟩, hflight, row, hrow, hgoing⟩ := Sample.exists_pushed
  have hpayload : ∃ w : Work, msg.payload = w.payload := by
    obtain ⟨hdown, -⟩ | ⟨-, hnone, -⟩ | ⟨m, rest, w, -, hready', hpayload, -⟩ :=
      MemoryQueue.receive_cases ((Sound.begin registered rfl).steps hpushed).wf.queue
    · exact absurd hdown (by simp [hup])
    · exact absurd hnone (by simp [hready])
    · exact ⟨w, (List.cons.inj (hready.symm.trans hready')).1 ▸ hpayload⟩
  obtain ⟨w, hpayload⟩ := hpayload
  let killed := s.requeue { s.memory.queue with ready := [msg.delivered], inFlight := [] } []
  have hkilled : Relation.ReflTransGen (Step plainly silence) (begin registered) killed :=
    hpushed.trans (killed_steps hruns hup hready hflight hpayload plainly silence (.ofMillis 1000))
  have hsound := (Sound.begin registered rfl).steps hkilled
  obtain ⟨finished, settled, hfinished, hover, hheld, hgone⟩ :=
    finished_steps (s := killed) rfl hup rfl rfl hpayload hsound plainly silence (.ofMillis 1000)
  have hwaits := (no_pipeline_stranded plainly silence registered rfl killed hkilled).1 1 row hrow rfl hgoing
  have hlost := (no_pipeline_stranded plainly silence registered rfl finished (hkilled.trans hfinished)).2 settled hover
    msg.delivered.delivered (hheld ▸ List.mem_cons_self)
  refine ⟨killed, finished, settled, hkilled, rfl, ⟨row, hrow, hgoing, hwaits⟩, hfinished, hover, hgone,
    _, hheld ▸ List.mem_cons_self, hlost.resolve_left ?_⟩
  rintro ⟨msg', hmsg', -⟩
  rw [hgone] at hmsg'
  cases hmsg'

end

end System

end Pipeworks
