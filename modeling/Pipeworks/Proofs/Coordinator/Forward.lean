/-
Reports only move pipelines forward, however the calls of their services follow one another and whichever
of them fail. The invariant is a ledger (`Ledger`): what was shown of a pipeline and what the services in
flight may still show are together the moves that were made. From it and the course of the pipeline follow
that each status is shown at most once and not before it was kept.
-/
import Pipeworks.Proofs.Coordinator.Ledger

namespace Pipeworks.Coordinator

variable {setup : Setup} {id i : Int64} {s s' : MemoryStorage} {w w' : World}

/-! ## Steps of reports -/

/-- Reports begin, and the services of those that have begun make their calls, any of which may fail. -/
def ReportStep (setup : Setup) : World → World → Prop :=
  Step setup (fun _ t => ∃ r, t = .report r) MayAnswer

/-- The worlds that come of one by steps of reports. -/
def ReportSteps (setup : Setup) : World → World → Prop := Relation.ReflTransGen (ReportStep setup)

theorem answer_effect {c : Storage.Call} {answer : Storage.Answer c} (hc : IsReportCall id c)
    (h : MayAnswer (.storage c) s answer s') : Effect id s s' (gained c answer) := by
  cases h with
  | performed => exact performed_effect hc s
  | failed _ _ f =>
    have hgained : gained c (.error f) = [] := by cases c <;> rfl
    rw [hgained]
    exact .still fun _ => rfl

/-! ## The ledger -/

/-- A service for a report, whatever the storage answers; its credits may be left over where calls fail. -/
def Reporting (x : Account) : Prop :=
  ∃ i, x.1.task.about? = some i ∧ Spends (fun _ _ => True) (fun _ => True) i x.1.rest x.2

/-- The credits of a service for the pipeline. -/
def owedTo (id : Int64) (x : Account) : List Status := if x.1.task.about? = some id then x.2 else []

/-- The row of a pipeline goes with its history, and what was shown of it and what the services in flight
may still show are together the moves that were made. -/
structure Ledger (w : World) (id : Int64) : Prop where
  course : Course (w.history id) (w.storage.pipeline? id)
  balance : Balanced Reporting (owedTo id) w.flights (w.shownOf id) (w.history id).tail

theorem ledger_begins (r : Report) (h : Ledger w id) :
    Ledger { w with flights := w.flights ++ [⟨.report r, hear setup r⟩] } id := by
  have hreporting : Reporting (⟨.report r, hear setup r⟩, []) :=
    ⟨r.pipelineId, rfl, hear_spends r trivial (.inl fun _ => trivial)⟩
  exact ⟨h.course, h.balance.begins hreporting (ite_self _)⟩

section
variable {front back : List Flight} {t : Task}

/-- A service makes a call of the storage. -/
theorem ledger_storage {c : Storage.Call} {next : Storage.Answer c → Service t.Result}
    {answer : Storage.Answer c} (h : Ledger w id)
    (hflights : w.flights = front ++ ⟨t, .ask (.storage c) next⟩ :: back)
    (hanswer : MayAnswer (.storage c) w.storage answer s) :
    Ledger (w.call t (.storage c) answer s (front ++ ⟨t, next answer⟩ :: back)) id := by
  have hbalance := hflights ▸ h.balance
  obtain ⟨_, i, hi, hcall, -⟩ := hbalance.holds_of_flight
  obtain ⟨hcourse, -, htail⟩ := effect_course h.course (answer_effect hcall hanswer)
  refine ⟨by rw [w.history_call]; exact hcourse, ?_⟩
  rw [w.shownOf_call, w.history_call, htail]
  refine hbalance.goes ?_
  rintro credits ⟨i', hi', -, hrest⟩
  obtain rfl : i = i' := Option.some.inj (hi.symm.trans hi')
  refine ⟨gained c answer ++ credits, ⟨i, hi, hrest answer trivial⟩, ?_⟩
  -- a move that is kept is a credit of the service that made it
  by_cases hid : i = id
  · simp only [owedTo, hi, hid, Call.shows, if_true, List.map_nil, List.append_nil, List.append_assoc]
    exact List.perm_append_comm.append_left _
  · simp only [owedTo, hi, hid, Option.some.injEq, if_false, List.append_nil]
    exact .rfl

/-- A service asks a provider to show a status. -/
theorem ledger_post {provider : Provider} {token : Token} {status : CommitStatus}
    {next : Except Provider.Fault Unit → Service t.Result} (answer : Except Provider.Fault Unit)
    (h : Ledger w id)
    (hflights : w.flights = front ++ ⟨t, .ask (.post provider token status) next⟩ :: back) :
    Ledger (w.call t (.post provider token status) answer w.storage
      (front ++ ⟨t, next answer⟩ :: back)) id := by
  have hbalance := hflights ▸ h.balance
  have hsame := note_same h.course rfl
  refine ⟨by rw [w.history_call, hsame]; exact h.course, ?_⟩
  rw [w.shownOf_call, w.history_call, hsame, ← List.append_nil (w.history id).tail]
  refine hbalance.goes ?_
  rintro credits ⟨i, hi, hcredit, hrest⟩
  refine ⟨credits.erase status.status, ⟨i, hi, hrest answer⟩, ?_⟩
  -- the status that is shown was a credit, and is none any more
  by_cases hid : i = id
  · simp only [owedTo, hi, hid, Call.shows, if_true, List.map_cons, List.map_nil, List.append_nil,
      List.append_assoc]
    exact (List.perm_cons_erase hcredit).symm.append_left _
  · simp only [owedTo, hi, hid, Option.some.injEq, if_false, List.append_nil]
    exact .rfl

end

theorem ledger_step (h : Ledger w id) (hstep : ReportStep setup w w') : Ledger w' id := by
  cases hstep with
  | begins t ht =>
    obtain ⟨r, rfl⟩ := ht
    exact ledger_begins r h
  | @calls front back t c next answer s hflights hanswer =>
    cases c with
    | storage c => exact ledger_storage h hflights hanswer
    | post provider token status =>
      cases hanswer
      exact ledger_post answer h hflights
    | send work =>
      obtain ⟨credits, i, -, hno⟩ := (hflights ▸ h.balance).holds_of_flight
      exact hno.elim
    | transcript i =>
      obtain ⟨credits, i, -, hno⟩ := (hflights ▸ h.balance).holds_of_flight
      exact hno.elim

theorem ledger_steps (h : Ledger w id) (hsteps : ReportSteps setup w w') : Ledger w' id := by
  induction hsteps with
  | refl => exact h
  | tail _ hstep ih => exact ledger_step ih hstep

/-! ## Only forward -/

/-- A pipeline that has ended is not moved any more. -/
theorem ended_step {p : Pipeline} (h : Ledger w id) (hrow : w.storage.pipeline? id = some p)
    (hended : p.status.isTerminal) (hstep : ReportStep setup w w') :
    w'.storage.pipeline? id = some p := by
  cases hstep with
  | begins t ht => exact hrow
  | @calls front back t c next answer s hflights hanswer =>
    obtain ⟨credits, i, -, hspends⟩ := (hflights ▸ h.balance).holds_of_flight
    cases c with
    | storage c => exact effect_ended (answer_effect hspends.1 hanswer) hrow hended
    | post provider token status =>
      cases hanswer
      exact hrow
    | send work => exact hspends.elim
    | transcript i => exact hspends.elim

theorem ended_steps {p : Pipeline} (h : Ledger w id) (hrow : w.storage.pipeline? id = some p)
    (hended : p.status.isTerminal) (hsteps : ReportSteps setup w w') :
    w'.storage.pipeline? id = some p := by
  induction hsteps with
  | refl => exact hrow
  | tail hbefore hstep ih => exact ended_step (ledger_steps h hbefore) ih hended hstep

theorem ledger_new (h : ∀ p, s.pipeline? id = some p → p.IsNew) : Ledger { storage := s } id := by
  have hhistory : World.history { storage := s } id = note id [] s := rfl
  cases hrow : s.pipeline? id with
  | none =>
    have hnote : note id [] s = [] := note_same .absent hrow
    refine ⟨?_, [], rfl, List.forall_mem_nil _, ?_⟩
    · rw [hhistory, hnote]
      exact hrow ▸ .absent
    · rw [hhistory, hnote]
      exact .nil
  | some p =>
    have hnote := note_new hrow (h p hrow)
    refine ⟨?_, [], rfl, List.forall_mem_nil _, ?_⟩
    · rw [hhistory, hnote]
      exact hrow ▸ (h p hrow).course
    · rw [hhistory, hnote]
      exact .nil

/-- What a pipeline has gone through, and what providers were asked to show of it. -/
structure Forward (w : World) (id : Int64) : Prop where
  chain : (w.history id).IsChain fun s next => s.canAdvanceTo next
  first : (w.history id).head? = (w.storage.pipeline? id).map fun _ => .pending
  current : (w.history id).getLast? = (w.storage.pipeline? id).map Pipeline.status
  startedAt : ∀ p, w.storage.pipeline? id = some p → (p.startedAt.isSome ↔ .running ∈ w.history id)
  finishedAt : ∀ p, w.storage.pipeline? id = some p → (p.finishedAt.isSome ↔ p.status.isTerminal)
  shownKept : ∀ s ∈ w.shownOf id, s ∈ w.history id ∧ s ≠ .pending
  runningOnce : (w.shownOf id).count .running ≤ 1
  endOnce : (w.shownOf id).countP Status.isTerminal ≤ 1
  endKept : ∀ s ∈ w.shownOf id, s.isTerminal → (w.storage.pipeline? id).map Pipeline.status = some s

theorem Ledger.forward (h : Ledger w id) : Forward w id := by
  obtain ⟨accounts, -, -, hbalance⟩ := h.balance
  have hkept : ∀ s ∈ w.shownOf id, s ∈ (w.history id).tail := fun s hs =>
    hbalance.subset (List.mem_append_left _ hs)
  -- what is still owed only adds to what was shown
  have hcount : ∀ p : Status → Bool, (w.shownOf id).countP p ≤ (w.history id).countP p := by
    intro p
    have htail : (w.history id).tail.countP p ≤ (w.history id).countP p :=
      (List.tail_sublist _).countP_le
    have hboth := hbalance.countP_eq p
    rw [List.countP_append] at hboth
    omega
  refine ⟨h.course.isChain, h.course.head?, h.course.getLast?, fun p hrow => ?_, fun p hrow => ?_,
    fun s hs => ?_, ?_, ?_, fun s hs ht => ?_⟩
  · exact (hrow ▸ h.course).startedAt_isSome
  · exact (hrow ▸ h.course).finishedAt_isSome
  · refine ⟨List.mem_of_mem_tail (hkept s hs), ?_⟩
    rintro rfl
    exact h.course.pending_notMem_tail (hkept _ hs)
  · exact (hcount _).trans h.course.count_running
  · exact (hcount _).trans h.course.countP_terminal
  · exact h.course.eq_of_terminal (List.mem_of_mem_tail (hkept s hs)) ht

/-- Whatever reports come in, in whatever order their calls are made and whichever of them fail, a pipeline
only moves forward, and stays as it is once it has ended. -/
theorem reports_only_advance (setup : Setup) (s : MemoryStorage) (id : Int64)
    (hnew : ∀ p, s.pipeline? id = some p → p.IsNew) (w : World)
    (hsteps : ReportSteps setup { storage := s } w) :
    Forward w id ∧
    ∀ p, w.storage.pipeline? id = some p → p.status.isTerminal →
      ∀ w', ReportSteps setup w w' → w'.storage.pipeline? id = some p := by
  have hledger := ledger_steps (ledger_new hnew) hsteps
  exact ⟨hledger.forward, fun p hrow hended w' hmore => ended_steps hledger hrow hended hmore⟩

/-! ### A schedule -/

namespace Sample

def time : Time.Instant := ⟨⟨⟨2024, 1, 1⟩, 0, 0⟩, by decide⟩

/-- A pipeline that has not been moved. -/
def storage : MemoryStorage where
  lastId := 1
  repos := [⟨1, "fake", 7, "acme", "widget", false⟩]
  pipelines := [⟨1, .pending, "c0ffee", "https://git.example.com/acme/widget.git",
    "https://ci.example.com/pipelines/1", none, none, 1⟩]

/-- Its run ends before it has been shown that it is running. -/
def overtaken : World :=
  [.begin (.started ⟨1, time⟩), .begin (.finished ⟨1, time, .success, none⟩), .turn 0, .turn 1, .turn 1,
    .turn 1, .turn 0, .turn 0].foldl (World.play ⟨{}, [.plain]⟩ fun _ _ => true) { storage }

end Sample

theorem mayAnswer_smooth (c : Call) (s : MemoryStorage) : MayAnswer c s (smooth c s).1 (smooth c s).2 := by
  cases c with
  | storage c => exact .performed c s
  | send work => exact .sent work s _
  | post provider token status => exact .posted provider token status s _
  | transcript id => exact .downloaded id s _

/-- Where the last status is shown first, it is nevertheless kept last. -/
theorem reports_advance_overtaken :
    Sample.overtaken.history 1 = [.pending, .running, .success] ∧
    Sample.overtaken.shownOf 1 = [.success, .running] ∧
    Forward Sample.overtaken 1 :=
  ⟨rfl, rfl, (reports_only_advance ⟨{}, [.plain]⟩ Sample.storage 1
    (fun p hp => by cases hp; exact ⟨rfl, rfl, rfl⟩) Sample.overtaken
    (play_steps (fun _ r _ => ⟨r, rfl⟩) (fun c s _ => mayAnswer_smooth c s) _ _)).1⟩

end Pipeworks.Coordinator
