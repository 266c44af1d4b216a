/-
The reports of one run, heard one after the other, in any order and as often as one likes: the pipeline, its log
and the statuses shown come out the same (`reports_converge`), but for one thing, which the first report that
is no output decides: whether the run was seen running. What becomes of the pipeline is computed without the
storage first (`hearAll`); the storage is then shown to follow.
-/
import Pipeworks.Proofs.Coordinator.Report

namespace Pipeworks

/-! ## Reports of a run -/

/-- All that one run reports. -/
structure RunReports where
  pipelineId : Int64
  startedAt : Time.Instant
  outputs : List CommandOutput
  finishedAt : Time.Instant
  outcome : Outcome
  error : Option FailureSummary

namespace RunReports

def started (run : RunReports) : Report := .started ⟨run.pipelineId, run.startedAt⟩

def finished (run : RunReports) : Report := .finished ⟨run.pipelineId, run.finishedAt, run.outcome, run.error⟩

def all (run : RunReports) : List Report := run.started :: run.outputs.map .output ++ [run.finished]

/-- The move to running. -/
def startMove (run : RunReports) : Report.Move := ⟨.running, run.startedAt, "Pipeline is running"⟩

/-- The move to the last status. -/
def endMove (run : RunReports) : Report.Move :=
  ⟨run.outcome.status, run.finishedAt,
    Coordinator.Finished.description ⟨run.pipelineId, run.finishedAt, run.outcome, run.error⟩⟩

/-- The outputs are those of the run, and no two have the same order. -/
structure WF (run : RunReports) : Prop where
  about : ∀ r ∈ run.outputs, r.pipelineId = run.pipelineId
  orders : (run.outputs.map CommandOutput.order).Nodup

theorem mem_all {run : RunReports} {r : Report} :
    r ∈ run.all ↔ r = run.started ∨ (∃ o ∈ run.outputs, r = .output o) ∨ r = run.finished := by
  simp [all, eq_comm]

theorem WF.about_all {run : RunReports} (h : run.WF) {r : Report} (hr : r ∈ run.all) :
    r.pipelineId = run.pipelineId := by
  obtain rfl | ⟨o, ho, rfl⟩ | rfl := mem_all.1 hr
  · rfl
  · exact h.about o ho
  · rfl

end RunReports

/-- Whether a start is reported before any end. -/
def startedFirst : List Report → Bool
  | [] => false
  | .started _ :: _ => true
  | .output _ :: rs => startedFirst rs
  | .finished _ :: _ => false

/-! ## The pipeline -/

namespace Pipeline

/-- The pipeline after a report, and the move that it made. -/
def hear (p : Pipeline) (r : Report) : Pipeline × List Report.Move :=
  match r.move? with
  | none => (p, [])
  | some move =>
    match p.advance? move.status move.time with
    | none => (p, [])
    | some p' => (p', [move])

/-- The pipeline after some reports, and the moves that they made. -/
def hearAll (p : Pipeline) : List Report → Pipeline × List Report.Move
  | [] => (p, [])
  | r :: rs => (((p.hear r).1.hearAll rs).1, (p.hear r).2 ++ ((p.hear r).1.hearAll rs).2)

/-- The pipeline once its run has been seen running. -/
def begun (p : Pipeline) (run : RunReports) : Pipeline :=
  { p with status := .running, startedAt := some run.startedAt }

/-- The pipeline once its run is over. -/
def ended (p : Pipeline) (run : RunReports) : Pipeline :=
  { p with status := run.outcome.status, finishedAt := some run.finishedAt }

variable {p : Pipeline} {run : RunReports} {rs : List Report}

theorem hearAll_cons (p : Pipeline) (r : Report) (rs : List Report) :
    p.hearAll (r :: rs) = (((p.hear r).1.hearAll rs).1, (p.hear r).2 ++ ((p.hear r).1.hearAll rs).2) := rfl

theorem hear_output (p : Pipeline) (o : CommandOutput) : p.hear (.output o) = (p, []) := rfl

theorem hear_unmoved {r : Report} {move : Report.Move} (hmove : r.move? = some move)
    (hmay : p.status.canAdvanceTo move.status = false) : p.hear r = (p, []) := by
  unfold hear advance?
  simp only [hmove, hmay, Bool.false_eq_true, if_false]

theorem hear_started (hpending : p.status = .pending) : p.hear run.started = (p.begun run, [run.startMove]) := by
  unfold hear advance?
  simp only [RunReports.started, Report.move?, hpending]
  rfl

theorem hear_finished (h : p.status.isTerminal = false) : p.hear run.finished = (p.ended run, [run.endMove]) := by
  have hmay := Status.canAdvanceTo_terminal h run.outcome.status_isTerminal
  have hnext : run.outcome.status ≠ .running := by cases run.outcome <;> nofun
  unfold hear advance?
  simp only [RunReports.finished, Report.move?, hmay, hnext, if_true, if_false]
  rfl

/-- No report moves a pipeline that has ended. -/
theorem hearAll_ended (hended : p.status.isTerminal) (rs : List Report) : p.hearAll rs = (p, []) := by
  induction rs with
  | nil => rfl
  | cons r rs ih =>
    have hr : p.hear r = (p, []) := by
      cases hmove : r.move? with
      | none => simp only [hear, hmove]
      | some move => exact hear_unmoved hmove (Status.canAdvanceTo_of_terminal hended _)
    rw [hearAll_cons, hr, ih]
    rfl

/-- The first end that is reported ends the pipeline. -/
theorem hearAll_finished (h : p.status.isTerminal = false) (rs : List Report) :
    p.hearAll (run.finished :: rs) = (p.ended run, [run.endMove]) := by
  rw [hearAll_cons, hear_finished h, hearAll_ended run.outcome.status_isTerminal]
  rfl

theorem hearAll_running (hrunning : p.status = .running) (hrs : ∀ r ∈ rs, r ∈ run.all)
    (hend : run.finished ∈ rs) : p.hearAll rs = (p.ended run, [run.endMove]) := by
  induction rs with
  | nil => cases hend
  | cons r rs ih =>
    obtain ⟨hr, hothers⟩ := List.forall_mem_cons.1 hrs
    by_cases hlast : r = run.finished
    · rw [hlast]
      exact hearAll_finished (by rw [hrunning]; rfl) rs
    · -- neither a second start nor an output moves a pipeline that is running
      have hstill : p.hear r = (p, []) := by
        obtain rfl | ⟨o, -, rfl⟩ | heq := RunReports.mem_all.1 hr
        · have hmove : run.started.move? = some run.startMove := rfl
          exact hear_unmoved hmove (by rw [hrunning]; rfl)
        · exact hear_output p o
        · exact absurd heq hlast
      rw [hearAll_cons, hstill]
      exact ih hothers ((List.mem_cons.1 hend).resolve_left (Ne.symm hlast))

/-- What becomes of a pipeline that is pending depends only on what is reported first, its start or its
end. -/
theorem hearAll_pending (hpending : p.status = .pending) (hrs : ∀ r ∈ rs, r ∈ run.all)
    (hend : run.finished ∈ rs) :
    p.hearAll rs =
      if startedFirst rs then ((p.begun run).ended run, [run.startMove, run.endMove])
      else (p.ended run, [run.endMove]) := by
  induction rs with
  | nil => cases hend
  | cons r rs ih =>
    obtain ⟨hr, hothers⟩ := List.forall_mem_cons.1 hrs
    obtain rfl | ⟨o, -, rfl⟩ | rfl := RunReports.mem_all.1 hr
    case inl =>
      have hlater : run.finished ∈ rs := (List.mem_cons.1 hend).resolve_left nofun
      have hbegun : (p.begun run).status = .running := rfl
      rw [hearAll_cons, hear_started hpending, hearAll_running hbegun hothers hlater]
      rfl
    case inr.inl =>
      have hlater : run.finished ∈ rs := (List.mem_cons.1 hend).resolve_left nofun
      rw [hearAll_cons, hear_output, ih hothers hlater]
      rfl
    case inr.inr => exact hearAll_finished (by rw [hpending]; rfl) rs

end Pipeline

namespace Coordinator

/-- Hears reports one after the other. -/
def hearAll (setup : Setup) : List Report → Service (List (Except ReportFault Unit))
  | [] => .done []
  | r :: rs => (hear setup r).bind fun answer => (hearAll setup rs).bind fun answers => .done (answer :: answers)

theorem hearAll_cons {setup : Setup} {outside : Outside} {r : Report} {rs : List Report} {m m₁ m' : Memory}
    {answer : Except ReportFault Unit} {answers : List (Except ReportFault Unit)}
    {shown more : List CommitStatus} (h : Carried outside (hear setup r) m answer m₁ shown)
    (hs : Carried outside (hearAll setup rs) m₁ answers m' more) :
    Carried outside (hearAll setup (r :: rs)) m (answer :: answers) m' (shown ++ more) := by
  have hrest := hs.bind (f := fun answers => .done (answer :: answers)) (.done _ _)
  rw [List.append_nil] at hrest
  exact h.bind (f := fun answer => (hearAll setup rs).bind fun answers => .done (answer :: answers)) hrest

/-! ## The coordinator -/

/-- The storage does not fail, and the pipeline, its repository and its provider are known. -/
structure Known (setup : Setup) (id : Int64) (info : Storage.StateChangeInfo) (provider : Provider)
    (p : Pipeline) (s : MemoryStorage) : Prop where
  up : s.failing = false
  row : s.pipeline? id = some p
  shownAt : s.stateChangeInfo id = some info
  provider : Provider.ofName? setup.providers info.provider = some provider

/-- How a move is shown. -/
def toShow (setup : Setup) (info : Storage.StateChangeInfo) (move : Report.Move) : CommitStatus :=
  ⟨info.owner, info.repoName, info.commit, move.status, info.url, setup.settings.statusContext,
    move.description⟩

/-- What reports leave in the log of their pipeline. -/
structure Logged (id : Int64) (rs : List Report) (s s' : MemoryStorage) : Prop where
  inOrder : MemoryStorage.LogInOrder s.logs → MemoryStorage.LogInOrder s'.logs
  kept : s.logsOf id ⊆ s'.logsOf id
  added : ∀ o, .output o ∈ rs → ∃ e ∈ s'.logsOf id, e.order = o.order
  entries : ∀ e ∈ s'.logsOf id, e ∈ s.logsOf id ∨ ∃ o, .output o ∈ rs ∧ e = o.logEntry

theorem Logged.nil {id : Int64} {s : MemoryStorage} : Logged id [] s s :=
  ⟨fun h => h, List.Subset.refl _, nofun, fun _ => .inl⟩

theorem Logged.none {id : Int64} {r : Report} {s s' : MemoryStorage} (hr : ∀ o, r ≠ .output o)
    (hlogs : s'.logs = s.logs) : Logged id [r] s s' := by
  have hsame : s'.logsOf id = s.logsOf id := by rw [MemoryStorage.logsOf, hlogs, MemoryStorage.logsOf]
  refine ⟨fun h => hlogs ▸ h, hsame ▸ List.Subset.refl _, fun o ho => ?_, fun e he => .inl (hsame ▸ he)⟩
  exact absurd (List.mem_singleton.1 ho).symm (hr o)

theorem Logged.output (s : MemoryStorage) (r : CommandOutput) :
    Logged r.pipelineId [.output r] s (s.addLog r.logEntry).2 := by
  obtain ⟨hadded, hentries, hkept⟩ := s.mem_logsOf_addOutput r r.pipelineId
  refine ⟨fun h => h.addLog _, hkept, fun o ho => ?_, fun e he => ?_⟩
  · cases List.mem_singleton.1 ho
    exact hadded
  · exact (hentries e he).imp_right fun heq => ⟨r, List.mem_singleton_self _, heq⟩

theorem Logged.append {id : Int64} {rs rs' : List Report} {s s' s'' : MemoryStorage} (h : Logged id rs s s')
    (h' : Logged id rs' s' s'') : Logged id (rs ++ rs') s s'' := by
  refine ⟨fun hs => h'.inOrder (h.inOrder hs), fun e he => h'.kept (h.kept he), fun o ho => ?_, fun e he => ?_⟩
  · rcases List.mem_append.1 ho with ho | ho
    · obtain ⟨e, he, horder⟩ := h.added o ho
      exact ⟨e, h'.kept he, horder⟩
    · exact h'.added o ho
  · rcases h'.entries e he with he | ⟨o, ho, heq⟩
    · exact (h.entries e he).imp_right fun ⟨o, ho, heq⟩ => ⟨o, List.mem_append_left _ ho, heq⟩
    · exact .inr ⟨o, List.mem_append_right _ ho, heq⟩

section
variable {setup : Setup} {outside : Outside} {id : Int64} {info : Storage.StateChangeInfo} {provider : Provider}
  {p : Pipeline} {s : MemoryStorage} {m : Memory} {r : Report}

/-- What is known of a pipeline stays known when it is moved. -/
theorem Known.moved (h : Known setup id info provider p s) {p' : Pipeline} {move : Report.Move}
    (hadvance : p.advance? move.status move.time = some p') :
    Known setup id info provider p' (s.transition id move.status move.time).2 where
  up := by
    rw [MemoryStorage.transition_rest]
    exact h.up
  row := (MemoryStorage.transition_moves h.row hadvance).2
  shownAt := by
    have hcall : IsReportCall id (.finish id move.status move.time) := rfl
    exact (performed_stateChangeInfo hcall s id).trans h.shownAt
  provider := h.provider

theorem Known.logged (h : Known setup id info provider p s) (e : LogEntry) :
    Known setup id info provider p (s.addLog e).2 where
  up := by
    rw [MemoryStorage.addLog_rest]
    exact h.up
  row := by
    rw [MemoryStorage.addLog_rest]
    exact h.row
  shownAt := by
    have hcall : IsReportCall id (.addLog e) := trivial
    exact (performed_stateChangeInfo hcall s id).trans h.shownAt
  provider := h.provider

/-- The coordinator follows the pipeline through a report. -/
theorem Known.hear (h : Known setup id info provider p m.storage) (outside : Outside) (hr : r.pipelineId = id) :
    let shown := (p.hear r).2.map (toShow setup info)
    ∃ s, Carried outside (Coordinator.hear setup r) m (.ok ())
      { m with storage := s, posted := m.posted ++ m.taken provider shown } shown ∧
      Known setup id info provider (p.hear r).1 s ∧ Logged id [r] m.storage s := by
  subst hr
  have hnone : m.posted ++ m.taken provider [] = m.posted := by rw [m.taken_nil, List.append_nil]
  unfold Pipeline.hear
  cases hmove : r.move? with
  | none =>
    cases r with
    | started r => cases hmove
    | finished r => cases hmove
    | output r =>
      refine ⟨(m.storage.addLog r.logEntry).2, ?_, h.logged r.logEntry, .output m.storage r⟩
      show Carried outside _ m _ { m with storage := _, posted := m.posted ++ m.taken provider [] } []
      rw [hnone]
      exact hear_output h.up h.row
  | some move =>
    have hnoOutput : ∀ o, r ≠ .output o := by
      rintro o rfl
      cases hmove
    dsimp only
    cases hadvance : p.advance? move.status move.time with
    | none =>
      have hcarried := @hear_unmoved setup outside m r move h.up hmove
        (MemoryStorage.transition_stuck h.row hadvance)
      rw [h.row] at hcarried
      refine ⟨m.storage, ?_, h, .none hnoOutput rfl⟩
      show Carried outside _ m _ { m with posted := m.posted ++ m.taken provider [] } []
      rw [hnone]
      exact hcarried
    | some p' =>
      obtain ⟨hmoved, -⟩ := MemoryStorage.transition_moves h.row hadvance
      have hknown := h.moved hadvance
      refine ⟨_, hear_moved h.up hmove (Prod.ext hmoved rfl) ?_, hknown, .none hnoOutput ?_⟩
      · exact publish_known hknown.up hknown.shownAt hknown.provider move.status move.description
      · rw [MemoryStorage.transition_rest]

/-- The coordinator follows the pipeline through all reports. -/
theorem Known.hearAll {rs : List Report} (h : Known setup id info provider p m.storage) (outside : Outside)
    (hrs : ∀ r ∈ rs, r.pipelineId = id) :
    let shown := (p.hearAll rs).2.map (toShow setup info)
    ∃ s, Carried outside (Coordinator.hearAll setup rs) m (rs.map fun _ => .ok ())
      { m with storage := s, posted := m.posted ++ m.taken provider shown } shown ∧
      Known setup id info provider (p.hearAll rs).1 s ∧ Logged id rs m.storage s := by
  induction rs generalizing p m with
  | nil =>
    refine ⟨m.storage, ?_, h, .nil⟩
    show Carried outside _ m [] { m with posted := m.posted ++ m.taken provider [] } []
    rw [m.taken_nil, List.append_nil]
    exact .done _ _
  | cons r rs ih =>
    obtain ⟨hr, hothers⟩ := List.forall_mem_cons.1 hrs
    obtain ⟨s, hcarried, hknown, hlogged⟩ := h.hear outside hr
    obtain ⟨s', hcarried', hknown', hlogged'⟩ :=
      ih (m := { m with
        storage := s, posted := m.posted ++ m.taken provider ((p.hear r).2.map (toShow setup info)) })
        hknown hothers
    refine ⟨s', ?_, hknown', hlogged.append hlogged'⟩
    rw [Pipeline.hearAll_cons, List.map_append, m.taken_append, ← List.append_assoc]
    exact hearAll_cons hcarried hcarried'

/-! ## Convergence -/

/-- In a log that was empty, the outputs of the run are left, in order. -/
theorem Logged.perm {run : RunReports} {rs : List Report} {s' : MemoryStorage}
    (h : Logged run.pipelineId rs s s') (hrun : run.WF) (hrs : ∀ r, r ∈ rs ↔ r ∈ run.all)
    (hempty : s.logsOf run.pipelineId = [])
    (horder : (s'.logsOf run.pipelineId).Pairwise fun e f => e.order < f.order) :
    (s'.logsOf run.pipelineId).Perm (run.outputs.map CommandOutput.logEntry) := by
  have houtput : ∀ {o}, .output o ∈ rs ↔ o ∈ run.outputs := fun {o} => by
    rw [hrs, RunReports.mem_all]
    simp [RunReports.started, RunReports.finished]
  have hentry : ∀ {e}, e ∈ s'.logsOf run.pipelineId → ∃ o ∈ run.outputs, e = o.logEntry := fun {e} he => by
    rcases h.entries e he with hold | ⟨o, ho, heq⟩
    · rw [hempty] at hold
      cases hold
    · exact ⟨o, houtput.1 ho, heq⟩
  have hlogs : (s'.logsOf run.pipelineId).Nodup := horder.imp fun hlt heq => by
    rw [heq, Int32.lt_iff_toInt_lt] at hlt
    exact Int.lt_irrefl _ hlt
  have houtputs : (run.outputs.map CommandOutput.logEntry).Nodup := by
    refine List.Nodup.of_map LogEntry.order ?_
    rw [List.map_map]
    exact hrun.orders
  -- neither has an entry twice, so it is enough that they have the same ones
  rw [List.perm_ext_iff_of_nodup hlogs houtputs]
  intro e
  constructor
  · intro he
    obtain ⟨o, ho, rfl⟩ := hentry he
    exact List.mem_map_of_mem ho
  · intro he
    obtain ⟨o, ho, rfl⟩ := List.mem_map.1 he
    -- the entry of this order is the one of this output, since orders are distinct
    obtain ⟨e, hkept, hsame⟩ := h.added o (houtput.2 ho)
    obtain ⟨o', ho', rfl⟩ := hentry hkept
    obtain rfl : o' = o := List.inj_on_of_nodup_map hrun.orders ho' ho hsame
    exact hkept

/-- What the reports of a run come to. -/
structure Converged (setup : Setup) (info : Storage.StateChangeInfo) (provider : Provider) (run : RunReports)
    (rs : List Report) (p : Pipeline) (m : Memory) (answers : List (Except ReportFault Unit)) (m' : Memory)
    (shown : List CommitStatus) : Prop where
  answers : answers = rs.map fun _ => .ok ()
  row : m'.storage.pipeline? run.pipelineId = some { p with
    status := run.outcome.status
    startedAt := if startedFirst rs then some run.startedAt else none
    finishedAt := some run.finishedAt }
  /-- The log holds the outputs, without NUL characters, in the order of their orders. -/
  logs : (m'.storage.logsOf run.pipelineId).Perm (run.outputs.map CommandOutput.logEntry)
  inOrder : (m'.storage.logsOf run.pipelineId).Pairwise fun e f => e.order < f.order
  announced : shown = ((if startedFirst rs then [run.startMove] else []) ++ [run.endMove]).map (toShow setup info)
  others : m' = { m with storage := m'.storage, posted := m.posted ++ m.taken provider shown }

/-- The reports of a run about a pipeline that is pending and has no log yet, in any order and each as often as
one likes, come to the same, but for what is said of its start. -/
theorem reports_converge (setup : Setup) (outside : Outside) (happened : List Happening) (run : RunReports)
    (rs : List Report) (info : Storage.StateChangeInfo) (provider : Provider) (p : Pipeline) (hrun : run.WF)
    (hknown : Known setup run.pipelineId info provider p (Memory.of happened).storage)
    (hpending : p.status = .pending) (hempty : (Memory.of happened).storage.logsOf run.pipelineId = [])
    (hrs : ∀ r, r ∈ rs ↔ r ∈ run.all) :
    let m := Memory.of happened
    let result := (hearAll setup rs).run (Memory.handle outside) m
    Converged setup info provider run rs p m result.1 result.2 (shownBy outside (hearAll setup rs) m) := by
  intro m result
  have hwf := Memory.WF.of happened
  have hend : run.finished ∈ rs := (hrs _).2 (RunReports.mem_all.2 (.inr (.inr rfl)))
  have hnew : p.startedAt = none := (hwf.pendingNew p (List.mem_of_find?_eq_some hknown.row) hpending).startedAt
  have hmoves := Pipeline.hearAll_pending hpending (fun r hr => (hrs r).1 hr) hend
  obtain ⟨s, hcarried, hrow, hlogged⟩ :=
    hknown.hearAll outside fun r hr => hrun.about_all ((hrs r).1 hr)
  have horder := (hlogged.inOrder hwf.logInOrder).logsOf run.pipelineId
  rw [show result = _ from hcarried.run, hcarried.shown]
  constructor
  case answers => rfl
  case row =>
    refine hrow.row.trans (congrArg some ?_)
    rw [hmoves]
    split
    · rfl
    · rw [← hnew]
      rfl
  case logs => exact hlogged.perm hrun hrs hempty horder
  case inOrder => exact horder
  case announced =>
    rw [hmoves]
    split <;> rfl
  case others => rfl

end

/-! ### A run -/

namespace Sample

/-- A pipeline was made for a repository. -/
def pushed : List Happening :=
  registered ++
    [.call silence (.storage (.create ⟨1, "c0ffee", "https://git.example.com/acme/widget.git", "/pipelines/"⟩))]

def noon : Time.Instant := ⟨⟨⟨2024, 1, 1⟩, 43200, 0⟩, by decide⟩

/-- A run of two commands, the first of which wrote a NUL. -/
def shortRun : RunReports :=
  ⟨1, noon, [⟨1, 0, "make", "a\x00b", 0⟩, ⟨1, 1, "make test", "", 0⟩], noon, .success, none⟩

/-- The end is reported first, the start twice, and the outputs the other way round. -/
def shuffled : List Report :=
  [.output ⟨1, 1, "make test", "", 0⟩, shortRun.finished, shortRun.started,
    .output ⟨1, 0, "make", "a\x00b", 0⟩, shortRun.started]

theorem mem_shuffled (r : Report) : r ∈ shuffled ↔ r ∈ shortRun.all := by
  have hall : ∀ r ∈ shuffled, r ∈ shortRun.all := by decide
  have hback : ∀ r ∈ shortRun.all, r ∈ shuffled := by decide
  exact ⟨hall r, hback r⟩

end Sample

theorem reports_converge_shuffled :
    ∃ p info, (Memory.of Sample.pushed).storage.pipeline? 1 = some p ∧
      let result := (hearAll Sample.plainly Sample.shuffled).run (Memory.handle Sample.silence)
        (Memory.of Sample.pushed)
      Converged Sample.plainly info .plain Sample.shortRun Sample.shuffled p (Memory.of Sample.pushed) result.1
        result.2 (shownBy Sample.silence (hearAll Sample.plainly Sample.shuffled) (Memory.of Sample.pushed)) :=
  ⟨_, _, rfl, reports_converge Sample.plainly Sample.silence Sample.pushed Sample.shortRun Sample.shuffled _ .plain
    _ ⟨by decide, by decide⟩ ⟨rfl, rfl, rfl, rfl⟩ rfl rfl Sample.mem_shuffled⟩

end Coordinator

end Pipeworks
