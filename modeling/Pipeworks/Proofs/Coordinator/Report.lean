/-
What it does to hear a report, where the storage does not fail. A report that moves its pipeline keeps the move
and shows it; one that cannot changes nothing; and an output goes into the log of a pipeline that is known.
-/
import Pipeworks.Proofs.Coordinator.Ledger
import Pipeworks.Proofs.Coordinator.Memory

namespace Pipeworks

/-- A move that a report asks for, and what is said of it. -/
structure Report.Move where
  status : Status
  time : Time.Instant
  description : String

def Report.move? : Report → Option Report.Move
  | .started r => some ⟨.running, r.startedAt, "Pipeline is running"⟩
  | .output _ => none
  | .finished r => some ⟨r.outcome.status, r.finishedAt, Coordinator.Finished.description r⟩

/-- The storage after a report. -/
def MemoryStorage.heard (s : MemoryStorage) : Report → MemoryStorage
  | .started r => (s.transition r.pipelineId .running r.startedAt).2
  | .output r => if (s.pipeline? r.pipelineId).isSome then (s.addLog r.logEntry).2 else s
  | .finished r => (s.transition r.pipelineId r.outcome.status r.finishedAt).2

namespace Coordinator

variable {setup : Setup} {outside : Outside} {m m' : Memory} {id : Int64} {r : Report}

/-! ## Showing a status -/

/-- Of a pipeline whose repository and provider are known, a status is shown. -/
theorem publish_known {info : Storage.StateChangeInfo} {provider : Provider} (hup : m.storage.failing = false)
    (hinfo : m.storage.stateChangeInfo id = some info)
    (hprovider : Provider.ofName? setup.providers info.provider = some provider) (status : Status)
    (description : String) :
    let shown : CommitStatus := ⟨info.owner, info.repoName, info.commit, status, info.url,
      setup.settings.statusContext, description⟩
    Carried outside (publish setup id status description) m (.ok ())
      { m with posted := m.posted ++ m.taken provider [shown] } [shown] := by
  intro shown
  have hask : Memory.handle outside (.storage (.stateChangeInfo id)) m = (.ok (some info), m) := by
    rw [Memory.handle_up hup, MemoryStorage.perform, hinfo]
  refine .ask hask ?_
  dsimp only [Program.bind_done]
  rw [hprovider]
  exact .ask (Memory.handle_post m provider info.token shown) (.done _ _)

theorem publish_cases (hup : m.storage.failing = false) (setup : Setup) (outside : Outside) (id : Int64)
    (status : Status) (description : String) : ∃ answer posted shown,
      Carried outside (publish setup id status description) m answer { m with posted := posted } shown := by
  cases hinfo : m.storage.stateChangeInfo id with
  | none =>
    have hask : Memory.handle outside (.storage (.stateChangeInfo id)) m = (.ok none, m) := by
      rw [Memory.handle_up hup, MemoryStorage.perform, hinfo]
    exact ⟨.error (.pipelineNotFound id), m.posted, [], .ask hask (.done _ _)⟩
  | some info =>
    cases hprovider : Provider.ofName? setup.providers info.provider with
    | none =>
      have hask : Memory.handle outside (.storage (.stateChangeInfo id)) m = (.ok (some info), m) := by
        rw [Memory.handle_up hup, MemoryStorage.perform, hinfo]
      refine ⟨.ok (), m.posted, [], .ask hask ?_⟩
      dsimp only [Program.bind_done]
      rw [hprovider]
      exact .done _ _
    | some provider => exact ⟨_, _, _, publish_known hup hinfo hprovider status description⟩

/-! ## Moves -/

theorem handle_start {t : Time.Instant} {moved : Bool} {s : MemoryStorage} (hup : m.storage.failing = false)
    (htransition : m.storage.transition id .running t = (moved, s)) :
    Memory.handle outside (.storage (.start id t)) m = (.ok moved, { m with storage := s }) := by
  rw [Memory.handle_up hup, MemoryStorage.perform, htransition]

theorem handle_finish {status : Status} {t : Time.Instant} {moved : Bool} {s : MemoryStorage}
    (hup : m.storage.failing = false) (htransition : m.storage.transition id status t = (moved, s)) :
    Memory.handle outside (.storage (.finish id status t)) m = (.ok moved, { m with storage := s }) := by
  rw [Memory.handle_up hup, MemoryStorage.perform, htransition]

/-- A report that moves its pipeline answers as the showing of the status does. -/
theorem hear_moved {move : Report.Move} {s : MemoryStorage} {answer : Except ReportFault Unit}
    {shown : List CommitStatus} (hup : m.storage.failing = false) (hmove : r.move? = some move)
    (htransition : m.storage.transition r.pipelineId move.status move.time = (true, s))
    (hpublish : Carried outside (publish setup r.pipelineId move.status move.description)
      { m with storage := s } answer m' shown) :
    Carried outside (hear setup r) m answer m' shown := by
  cases r with
  | started r =>
    cases hmove
    exact .ask (handle_start hup htransition) hpublish
  | output r => cases hmove
  | finished r =>
    cases hmove
    exact .ask (handle_finish hup htransition) hpublish

/-- A report that cannot move its pipeline changes nothing; it is a fault only if there is no pipeline. -/
theorem hear_unmoved {move : Report.Move} (hup : m.storage.failing = false) (hmove : r.move? = some move)
    (htransition : m.storage.transition r.pipelineId move.status move.time = (false, m.storage)) :
    Carried outside (hear setup r) m
      (match m.storage.pipeline? r.pipelineId with
        | some _ => .ok ()
        | none => .error (.pipelineNotFound r.pipelineId)) m [] := by
  have hskip : Carried outside (skip r.pipelineId) m
      (match m.storage.pipeline? r.pipelineId with
        | some _ => .ok ()
        | none => .error (.pipelineNotFound r.pipelineId)) m [] := by
    refine .ask (Memory.handle_up hup (.find r.pipelineId)) ?_
    dsimp only [MemoryStorage.perform, Program.bind_done]
    cases m.storage.pipeline? r.pipelineId with
    | none => exact .done _ _
    | some p => exact .done _ _
  cases r with
  | started r =>
    cases hmove
    exact .ask (handle_start hup htransition) hskip
  | output r => cases hmove
  | finished r =>
    cases hmove
    exact .ask (handle_finish hup htransition) hskip

/-! ## Outputs -/

theorem hear_unknown {r : CommandOutput} (hup : m.storage.failing = false)
    (hrow : m.storage.pipeline? r.pipelineId = none) :
    Carried outside (hear setup (.output r)) m (.error (.pipelineNotFound r.pipelineId)) m [] := by
  have hask : Memory.handle outside (.storage (.find r.pipelineId)) m = (.ok none, m) := by
    rw [Memory.handle_up hup, MemoryStorage.perform, hrow]
  exact .ask hask (.done _ _)

/-- The output of a pipeline that is known is put into the log. -/
theorem hear_output {r : CommandOutput} {p : Pipeline} (hup : m.storage.failing = false)
    (hrow : m.storage.pipeline? r.pipelineId = some p) :
    Carried outside (hear setup (.output r)) m (.ok ())
      { m with storage := (m.storage.addLog r.logEntry).2 } [] := by
  have hask : Memory.handle outside (.storage (.find r.pipelineId)) m = (.ok (some p), m) := by
    rw [Memory.handle_up hup, MemoryStorage.perform, hrow]
  obtain ⟨added, hadded⟩ := m.storage.addOutput_ok r
  have hadd : Memory.handle outside (.storage (.addLog r.logEntry)) m =
      (.ok added, { m with storage := (m.storage.addLog r.logEntry).2 }) := by
    rw [Memory.handle_up hup, MemoryStorage.perform, hadded]
  exact .ask hask (.ask hadd (.done _ _))

/-! ## Any report -/

theorem hear_moving {move : Report.Move} (hup : m.storage.failing = false) (setup : Setup) (outside : Outside)
    (hmove : r.move? = some move) : ∃ answer posted shown, Carried outside (hear setup r) m answer
      { m with storage := (m.storage.transition r.pipelineId move.status move.time).2, posted := posted }
      shown := by
  obtain ⟨p, p', -, -, hmoved, -, -⟩ | hstill := m.storage.transition_cases r.pipelineId move.status move.time
  · let moved : Memory :=
      { m with storage := (m.storage.transition r.pipelineId move.status move.time).2 }
    have hup' : moved.storage.failing = false := by
      rw [show moved.storage = _ from m.storage.transition_rest r.pipelineId move.status move.time]
      exact hup
    obtain ⟨answer, posted, shown, hpublish⟩ :=
      publish_cases hup' setup outside r.pipelineId move.status move.description
    exact ⟨answer, posted, shown, hear_moved hup hmove (Prod.ext hmoved rfl) hpublish⟩
  · rw [hstill]
    exact ⟨_, m.posted, _, hear_unmoved hup hmove hstill⟩

/-- A report changes the storage as it does, and no more than the statuses that are posted besides. -/
theorem hear_cases (hup : m.storage.failing = false) (setup : Setup) (outside : Outside) (r : Report) :
    ∃ answer posted shown, Carried outside (hear setup r) m answer
      { m with storage := m.storage.heard r, posted := posted } shown := by
  cases r with
  | started r => exact @hear_moving m (.started r) _ hup setup outside rfl
  | finished r => exact @hear_moving m (.finished r) _ hup setup outside rfl
  | output r =>
    cases hrow : m.storage.pipeline? r.pipelineId with
    | none =>
      have hsame : m.storage.heard (.output r) = m.storage := by
        rw [MemoryStorage.heard, hrow]
        rfl
      rw [hsame]
      exact ⟨_, m.posted, _, hear_unknown hup hrow⟩
    | some p =>
      have hadded : m.storage.heard (.output r) = (m.storage.addLog r.logEntry).2 := by
        rw [MemoryStorage.heard, hrow]
        rfl
      rw [hadded]
      exact ⟨_, m.posted, _, hear_output hup hrow⟩

/-! ## Rows -/

variable {s : MemoryStorage} {i : Int64} {p : Pipeline}

theorem heard_output (s : MemoryStorage) (r : CommandOutput) :
    s.heard (.output r) = { s with logs := (s.heard (.output r)).logs } := by
  rw [MemoryStorage.heard]
  split
  · exact s.addLog_rest r.logEntry
  · rfl

theorem heard_up (s : MemoryStorage) (r : Report) : (s.heard r).failing = s.failing := by
  cases r with
  | started r => rw [MemoryStorage.heard, MemoryStorage.transition_rest]
  | output r => rw [heard_output]
  | finished r => rw [MemoryStorage.heard, MemoryStorage.transition_rest]

theorem heard_effect (s : MemoryStorage) (r : Report) : ∃ kept, Effect r.pipelineId s (s.heard r) kept := by
  cases r with
  | started r => exact ⟨_, transition_effect .running r.startedAt⟩
  | finished r => exact ⟨_, transition_effect r.outcome.status r.finishedAt⟩
  | output r =>
    refine ⟨[], .still fun i => ?_⟩
    rw [heard_output]
    rfl

/-- A report makes no row. -/
theorem heard_ids (s : MemoryStorage) (r : Report) :
    ∀ row ∈ (s.heard r).pipelines, ∃ row' ∈ s.pipelines, row'.id = row.id := by
  have htransition : ∀ id next t, ∀ row ∈ (s.transition id next t).2.pipelines,
      ∃ row' ∈ s.pipelines, row'.id = row.id := by
    intro id next t row hrow
    obtain ⟨hlast, hrows⟩ := s.transition_rows id next t
    cases hrows row hrow with
    | kept hold => exact ⟨row, hold, rfl⟩
    | new _ hnext _ => exact absurd (hlast.symm.trans hnext) (Nat.ne_of_lt (Nat.lt_succ_self _))
    | moved hold hadvance => exact ⟨_, hold, (MemoryStorage.advance?_id hadvance).symm⟩
  cases r with
  | started r => exact htransition r.pipelineId .running r.startedAt
  | finished r => exact htransition r.pipelineId r.outcome.status r.finishedAt
  | output r =>
    rw [heard_output]
    exact fun row hrow => ⟨row, hrow, rfl⟩

/-- A row stays, and one that has ended stays as it is. -/
theorem heard_row (hrow : s.pipeline? i = some p) (r : Report) :
    ∃ p', (s.heard r).pipeline? i = some p' ∧ (p.status.isTerminal → p' = p) := by
  obtain ⟨kept, heffect⟩ := heard_effect s r
  by_cases hended : p.status.isTerminal
  · exact ⟨p, effect_ended heffect hrow hended, fun _ => rfl⟩
  · cases heffect with
    | still hrows => exact ⟨p, (hrows i).trans hrow, fun _ => rfl⟩
    | @moved _ p' _ _ _ _ hp' hothers =>
      by_cases hid : i = r.pipelineId
      · exact ⟨p', hid ▸ hp', fun h => absurd h hended⟩
      · exact ⟨p, (hothers i hid).trans hrow, fun _ => rfl⟩

/-- Once its end has been reported, a pipeline has ended. -/
theorem heard_finished {r : Finished} (hrow : s.pipeline? r.pipelineId = some p) :
    ∃ p', (s.heard (.finished r)).pipeline? r.pipelineId = some p' ∧ p'.status.isTerminal := by
  cases hadvance : p.advance? r.outcome.status r.finishedAt with
  | some p' =>
    refine ⟨p', (MemoryStorage.transition_moves hrow hadvance).2, ?_⟩
    rw [(MemoryStorage.advance?_status hadvance).2]
    exact r.outcome.status_isTerminal
  | none =>
    have hstuck := MemoryStorage.transition_stuck hrow hadvance
    refine ⟨p, ?_, ?_⟩
    · show (s.transition r.pipelineId r.outcome.status r.finishedAt).2.pipeline? r.pipelineId = some p
      rw [hstuck]
      exact hrow
    -- a pipeline that has not ended can
    · cases hended : p.status.isTerminal with
      | true => rfl
      | false =>
        unfold Pipeline.advance? at hadvance
        rw [if_pos (Status.canAdvanceTo_terminal hended r.outcome.status_isTerminal)] at hadvance
        cases hadvance

end Coordinator

end Pipeworks
