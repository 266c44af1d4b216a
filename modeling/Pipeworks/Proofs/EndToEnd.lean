/-
One run from end to end. A delivery is taken in and its work queued, a consumer takes the work and runs it, and
the coordinator hears over HTTP what the run reports. If nothing goes wrong but the commands, it is known what is
left of it in the end (`recorded_of_push`): the row of the pipeline, its log and its transcript, the statuses that
were shown, and a queue that is empty again.
-/
import Pipeworks.Proofs.Coordinator.Delivery
import Pipeworks.Proofs.Coordinator.Hook
import Pipeworks.Proofs.Runner.Link

namespace Pipeworks.EndToEnd

open Coordinator (Setup Outside Memory Built Welcome Known Logged accept shownBy toShow)
open Runner (Script Performance Sending Recipient Watched Client Consumer ConsumerSetup Scene Begun executing told
  written)

/-! ## Reports of a script -/

/-- What is reported of a run that goes by a script. -/
def reports (script : Script) (id : Int64) (cmds : List String) : RunReports where
  pipelineId := id
  startedAt := script.time
  outputs := told id 0 (script.executed 0 cmds)
  finishedAt := script.time
  outcome := (script.summary cmds).outcome
  error := (script.summary cmds).error

variable {script : Script} {id : Int64} {cmds : List String} {n : Nat} {xs : List Performance}

theorem told_about (id : Int64) (n : Nat) (xs : List Performance) : ∀ r ∈ told id n xs, r.pipelineId = id := by
  induction xs generalizing n with
  | nil => exact List.forall_mem_nil _
  | cons x xs ih => exact List.forall_mem_cons.2 ⟨rfl, ih (n + 1)⟩

/-- The orders of reports count up, as long as they do not get too great. -/
theorem told_inOrder (id : Int64) (hfew : n + xs.length ≤ Nat.pow 2 31) :
    (∀ r ∈ told id n xs, (n : Int) ≤ r.order.toInt) ∧ (told id n xs).Pairwise fun r r' => r.order < r'.order := by
  induction xs generalizing n with
  | nil => exact ⟨List.forall_mem_nil _, .nil⟩
  | cons x xs ih =>
    rw [List.length_cons] at hfew
    obtain ⟨hle, hinOrder⟩ := ih (n := n + 1) (by omega)
    have hlt : n < Nat.pow 2 31 := by omega
    have hfirst : (Int32.ofNat n).toInt = n := Int32.toInt_ofNat_of_lt hlt
    rw [Runner.told_cons]
    refine ⟨List.forall_mem_cons.2 ⟨Int.le_of_eq hfirst.symm, fun r hr => ?_⟩,
      List.pairwise_cons.2 ⟨fun r hr => Int32.lt_iff_toInt_lt.2 ?_, hinOrder⟩⟩
    · have hnext := hle r hr
      omega
    · have hnext := hle r hr
      show (Int32.ofNat n).toInt < _
      omega

theorem throughFailure_length (xs : List Performance) : (Runner.throughFailure xs).length ≤ xs.length := by
  induction xs with
  | nil => exact Nat.le_refl _
  | cons x xs ih =>
    unfold Runner.throughFailure
    split
    · exact Nat.succ_le_succ ih
    · exact Nat.succ_le_succ (Nat.zero_le _)

theorem executed_length (script : Script) (cmds : List String) :
    (script.executed 0 cmds).length ≤ Nat.pow 2 31 := by
  refine Nat.le_trans (throughFailure_length _) ?_
  unfold Script.performances
  rw [List.length_map, List.length_zipIdx, List.length_take]
  exact Nat.min_le_left _ _

theorem reports_inOrder (script : Script) (id : Int64) (cmds : List String) :
    (reports script id cmds).outputs.Pairwise fun r r' => r.order < r'.order :=
  (told_inOrder id (by rw [Nat.zero_add]; exact executed_length script cmds)).2

theorem reports_wf (script : Script) (id : Int64) (cmds : List String) : (reports script id cmds).WF where
  about := told_about id 0 _
  orders := by
    refine List.pairwise_map.2 ((reports_inOrder script id cmds).imp fun hlt heq => ?_)
    rw [heq] at hlt
    exact Int32.lt_irrefl hlt

/-! ## The pipeline -/

theorem hearAll_outputs (p : Pipeline) (os : List CommandOutput) : p.hearAll (os.map .output) = (p, []) := by
  induction os with
  | nil => rfl
  | cons o os ih =>
    rw [List.map_cons, Pipeline.hearAll_cons, Pipeline.hear_output, ih]
    rfl

/-- What the reports of a run make of a pipeline that is pending, as far as it has not ended. -/
theorem hearAll_begun {p : Pipeline} (hpending : p.status = .pending) (run : RunReports) :
    p.hearAll (run.started :: run.outputs.map .output) = (p.begun run, [run.startMove]) := by
  rw [Pipeline.hearAll_cons, Pipeline.hear_started hpending, hearAll_outputs]
  rfl

/-! ## Before the run -/

/-- A coordinator is as it should be, and there is no log of a pipeline that is not made yet. -/
structure Tidy (m : Memory) : Prop where
  wf : m.WF
  repoIds : (m.storage.repos.map Repo.id).Nodup
  logs : ∀ e ∈ m.storage.logs, e.pipelineId.toInt ≤ m.storage.lastId

/-- Nothing waits in the queue of a coordinator. -/
structure Idle (m : Memory) : Prop extends Tidy m where
  queue : m.queue.held = []

/-- No pipeline has an id that was not given yet. -/
theorem id_le_last {s : MemoryStorage} (h : s.Numbered) {q : Pipeline} (hq : q ∈ s.pipelines) :
    q.id.toInt ≤ s.lastId := by
  obtain ⟨n, hn, hid⟩ := h q hq
  by_cases hsmall : n < 2 ^ 63
  · rw [hid, Int64.toInt_ofNat_of_lt hsmall]
    omega
  · have hlt := Int64.toInt_lt q.id
    omega

/-- A report leaves the repositories and the ids as they are, and logs only what belongs to a pipeline. -/
theorem heard_frame (s : MemoryStorage) (r : Report) :
    (s.heard r).repos = s.repos ∧ (s.heard r).lastId = s.lastId ∧
      ∀ e ∈ (s.heard r).logs, e ∈ s.logs ∨ ∃ row ∈ s.pipelines, row.id = e.pipelineId := by
  have htransition : ∀ id next t, (s.transition id next t).2.repos = s.repos ∧
      (s.transition id next t).2.lastId = s.lastId ∧ (s.transition id next t).2.logs = s.logs := by
    intro id next t
    rw [MemoryStorage.transition_rest]
    exact ⟨rfl, rfl, rfl⟩
  cases r with
  | started r =>
    obtain ⟨hrepos, hlast, hlogs⟩ := htransition r.pipelineId .running r.startedAt
    exact ⟨hrepos, hlast, fun e he => .inl (hlogs ▸ he)⟩
  | finished r =>
    obtain ⟨hrepos, hlast, hlogs⟩ := htransition r.pipelineId r.outcome.status r.finishedAt
    exact ⟨hrepos, hlast, fun e he => .inl (hlogs ▸ he)⟩
  | output r =>
    refine ⟨by rw [Coordinator.heard_output], by rw [Coordinator.heard_output], fun e he => ?_⟩
    cases hrow : s.pipeline? r.pipelineId with
    | none =>
      rw [MemoryStorage.heard, hrow] at he
      exact .inl he
    | some p =>
      rw [MemoryStorage.heard, hrow, Option.isSome_some, if_pos rfl] at he
      obtain hold | hnew := MemoryStorage.mem_logs_perform (c := .addLog r.logEntry) he
      · exact .inl hold
      · cases hnew
        have hid : p.id = r.pipelineId := by simpa using List.find?_some hrow
        exact .inr ⟨p, List.mem_of_find?_eq_some hrow, hid⟩

/-- A report keeps a coordinator as it should be. -/
theorem Tidy.hear {setup : Setup} {outside : Outside} {m m' : Memory} {r : Report}
    {answer : Except Coordinator.ReportFault Unit} {shown : List CommitStatus} (h : Tidy m)
    (hup : m.storage.failing = false)
    (hcarried : Coordinator.Carried outside (Coordinator.hear setup r) m answer m' shown) : Tidy m' := by
  have hwf := h.wf.run outside (Coordinator.hear setup r)
  rw [hcarried.run] at hwf
  obtain ⟨answer', posted, shown', hheard⟩ := Coordinator.hear_cases hup setup outside r
  obtain ⟨-, rfl⟩ := Prod.mk.inj (hcarried.run.symm.trans hheard.run)
  obtain ⟨hrepos, hlast, hlogs⟩ := heard_frame m.storage r
  refine ⟨hwf, ?_, fun e he => ?_⟩
  · show ((m.storage.heard r).repos.map Repo.id).Nodup
    rw [hrepos]
    exact h.repoIds
  · show e.pipelineId.toInt ≤ (m.storage.heard r).lastId
    rw [hlast]
    obtain hold | ⟨row, hrow, hid⟩ := hlogs e he
    · exact h.logs e hold
    · rw [← hid]
      exact id_le_last h.wf.numbered hrow

/-- Whatever a coordinator is sent over HTTP keeps it as it should be, as long as its storage does not fail. -/
theorem Tidy.taken {client : Client} {w : Watched} (h : Tidy w.memory)
    (hup : w.memory.storage.failing = false) (setup : Setup) (outside : Outside) (hreaches : client.Reaches)
    (sent : List Sending) (hfits : ∀ r, .report r ∈ sent → r.Fits) :
    Tidy (sent.foldl (Recipient.overHttp client setup outside).take w).memory := by
  induction sent generalizing w with
  | nil => exact h
  | cons sending sent ih =>
    have hothers : ∀ r, .report r ∈ sent → r.Fits := fun r hr => hfits r (List.mem_cons_of_mem _ hr)
    obtain ⟨m, shown⟩ := w
    rw [List.foldl_cons]
    cases sending with
    | report r =>
      obtain ⟨answer, posted, more, hheard⟩ := Coordinator.hear_cases hup setup outside r
      obtain ⟨told, htake, -⟩ := Runner.report_overHttp hreaches (hfits r List.mem_cons_self) hheard shown
      rw [show (Recipient.overHttp client setup outside).take ⟨m, shown⟩ (.report r) = _ from
        congrArg Prod.snd htake]
      exact ih (h.hear hup hheard) ((Coordinator.heard_up m.storage r).trans hup) hothers
    | transcript id content size =>
      obtain ⟨store, htake, -⟩ := Runner.take_transcript client setup outside m shown id content size
      rw [htake]
      have hwf : Memory.WF { m with transcripts := store } :=
        ⟨h.wf.numbered, h.wf.pendingNew, h.wf.logInOrder, h.wf.queue⟩
      exact ih (w := ⟨{ m with transcripts := store }, shown⟩) ⟨hwf, h.repoIds, h.logs⟩ hup hothers

/-- What is shown of a pipeline of a repository. -/
def announced (setup : Setup) (r : Repo) (p : Pipeline) (status : Status) (description : String) : CommitStatus :=
  ⟨r.owner, r.name, p.commit, status, p.url, setup.settings.statusContext, description⟩

section
variable {setup : Setup} {name : String} {headers : Http.Headers} {body : Bytes} {provider : Provider}
  {push : Push} {r : Repo} {p : Pipeline} {m m₁ : Memory} {shown : List CommitStatus}

/-- What has to be known of a new pipeline is known, and its log is empty. -/
theorem built_known (hidle : Idle m) (hwelcome : Welcome setup name headers body m provider push r)
    (hbuilt : Built setup provider push r m p m₁ shown) :
    Known setup p.id ⟨p.commit, p.url, r.provider, r.owner, r.name, MemoryStorage.ownerToken r.owner⟩ provider p
      m₁.storage ∧ m₁.storage.logsOf p.id = [] := by
  have hstorage := hbuilt.storage
  have hrow := hbuilt.row
  have hregistered := hwelcome.buildable.registered
  have hrepo : m₁.storage.repos.find? (·.id == p.repoId) = some r := by
    rw [hstorage, hbuilt.repo]
    exact MemoryStorage.find?_repo ⟨hidle.repoIds, hidle.wf.numbered⟩ (List.mem_of_find?_eq_some hregistered)
  refine ⟨⟨?_, hrow, ?_, ?_⟩, ?_⟩
  · rw [hstorage]
    exact hwelcome.buildable.up
  · unfold MemoryStorage.stateChangeInfo
    rw [hrow, Option.bind_some, hrepo]
    rfl
  · have hname : provider.name = name := by simpa using List.find?_some hwelcome.known
    have hof : r.provider = provider.name := by
      have hfound := List.find?_some hregistered
      simp only [Bool.and_eq_true, beq_iff_eq] at hfound
      exact hfound.1
    show Provider.ofName? setup.providers r.provider = some provider
    rw [hof, hname]
    exact hwelcome.known
  · rw [hstorage]
    refine List.filter_eq_nil_iff.2 fun e he hsame => ?_
    have hle := hidle.logs e he
    rw [beq_iff_eq.1 hsame, hbuilt.number] at hle
    omega

end

/-! ## After the run -/

/-- The log entries of performances, counted from zero. -/
def entries (id : Int64) (xs : List Performance) : List LogEntry :=
  xs.zipIdx.map fun (x, i) =>
    ⟨id, Int32.ofNat i, withoutNul x.cmd, withoutNul x.result.output, x.result.exitCode⟩

theorem told_entries (id : Int64) (xs : List Performance) :
    (told id 0 xs).map CommandOutput.logEntry = entries id xs := by
  unfold told entries
  rw [List.map_map]
  rfl

/-- The text that performances write. -/
def writtenText (xs : List Performance) : String := String.join (xs.map (·.result.output))

theorem bytes_writtenText (xs : List Performance) : Text.bytes (writtenText xs) = written xs := by
  unfold writtenText written Text.bytes Utf8.encode
  rw [String.toList_join, List.flatMap_map, List.flatMap_assoc]

/-- The log holds the text that was written, without NUL characters. -/
theorem join_entries (id : Int64) (xs : List Performance) :
    String.join ((entries id xs).map LogEntry.output) = withoutNul (writtenText xs) := by
  have houtputs : (entries id xs).map LogEntry.output = xs.map fun x => withoutNul x.result.output := by
    unfold entries
    rw [List.map_map]
    show xs.zipIdx.map ((fun x => withoutNul x.result.output) ∘ Prod.fst) = _
    rw [← List.map_map, List.zipIdx_map_fst]
  rw [houtputs, ← String.toList_inj, String.toList_join, writtenText, withoutNul, String.toList_ofList,
    String.toList_join, List.filter_flatMap, List.flatMap_map, List.flatMap_map]
  exact List.flatMap_congr fun x _ => String.toList_ofList

/-- What is recorded of a pipeline of a repository once its commands have been run as a script says. -/
structure Recorded (setup : Setup) (provider : Provider) (r : Repo) (p : Pipeline) (script : Script)
    (cmds : List String) (before : Memory) (w : Watched) : Prop where
  row : w.memory.storage.pipeline? p.id = some { p with
    status := if script.Succeeds 0 cmds then .success else .error
    startedAt := some script.time
    finishedAt := some script.time }
  /-- The log holds the commands that were executed, in order, and what became of them. -/
  logs : w.memory.storage.logsOf p.id = entries p.id (script.executed 0 cmds)
  transcript : w.memory.transcripts.download p.id = .ok (Text.bytes (writtenText (script.executed 0 cmds)))
  /-- The outputs in the log are the text of the transcript, but for NUL characters. -/
  outputs : String.join ((w.memory.storage.logsOf p.id).map LogEntry.output) =
    withoutNul (writtenText (script.executed 0 cmds))
  shown : w.shown = [
    announced setup r p .pending "Pipeline is queued",
    announced setup r p .running "Pipeline is running",
    announced setup r p (if script.Succeeds 0 cmds then .success else .error)
      (reports script p.id cmds).endMove.description]
  /-- The plain provider keeps them, unless it refuses. -/
  posted : w.memory.posted = before.posted ++ before.taken provider w.shown

section
variable {setup : Setup} {client : Client} {provider : Provider} {r : Repo} {p : Pipeline} {before m : Memory}

theorem sendings_eq (script : Script) (id : Int64) (cmds : List String) :
    let run := reports script id cmds
    let transcript := written (script.executed 0 cmds)
    script.sendings id cmds = (run.started :: run.outputs.map .output).map Sending.report ++
      .transcript id transcript (Transcript.byteCount transcript) :: [run.finished].map Sending.report := by
  intro run transcript
  unfold Script.sendings Runner.commandSendings
  rw [List.map_cons, List.map_map]
  rfl

theorem fits_of_sent (hfits : ∀ r ∈ (reports script id cmds).all, r.Fits) :
    ∀ r, .report r ∈ script.sendings id cmds → r.Fits := by
  intro r hr
  rw [sendings_eq] at hr
  refine hfits r ?_
  rcases List.mem_append.1 hr with hr | hr
  · obtain ⟨r', hr', heq⟩ := List.mem_map.1 hr
    cases heq
    exact List.mem_append_left _ hr'
  · rcases List.mem_cons.1 hr with heq | hr
    · cases heq
    · obtain ⟨r', hr', heq⟩ := List.mem_map.1 hr
      cases heq
      exact List.mem_append_right _ hr'

/-- Once all reports of a run are logged, in whatever order, the log is that of its commands. -/
theorem logs_of_all {s s' : MemoryStorage} (hlogged : Logged id (reports script id cmds).all s s')
    (hinOrder : MemoryStorage.LogInOrder s.logs) (hempty : s.logsOf id = []) :
    s'.logsOf id = entries id (script.executed 0 cmds) := by
  have horder := (hlogged.inOrder hinOrder).logsOf id
  have hmade : ((reports script id cmds).outputs.map CommandOutput.logEntry).Pairwise
      fun e f => e.order < f.order :=
    List.pairwise_map.2 (reports_inOrder script id cmds)
  rw [← told_entries]
  -- two lists that hold the same entries and are in strict order are the same
  refine List.Perm.eq_of_pairwise (fun e f _ _ hef hfe => ?_) horder hmade
    (hlogged.perm (reports_wf script id cmds) (fun _ => .rfl) hempty horder)
  rw [Int32.lt_iff_toInt_lt] at hef hfe
  omega

/-- The coordinator is sent what a run sends. -/
theorem take_sendings (hknown : Known setup p.id
      ⟨p.commit, p.url, r.provider, r.owner, r.name, MemoryStorage.ownerToken r.owner⟩ provider p m.storage)
    (hpending : p.status = .pending) (hinOrder : MemoryStorage.LogInOrder m.storage.logs)
    (hempty : m.storage.logsOf p.id = [])
    (hposted : m.posted =
      before.posted ++ before.taken provider [announced setup r p .pending "Pipeline is queued"])
    (hrefusing : m.refusing = before.refusing) (outside : Outside) (hreaches : client.Reaches)
    (hfits : ∀ r ∈ (reports script p.id cmds).all, r.Fits) :
    Recorded setup provider r p script cmds before
      ((script.sendings p.id cmds).foldl (Recipient.overHttp client setup outside).take
        ⟨m, [announced setup r p .pending "Pipeline is queued"]⟩) := by
  let run := reports script p.id cmds
  let pending := announced setup r p .pending "Pipeline is queued"
  let running := announced setup r p .running "Pipeline is running"
  let take := (Recipient.overHttp client setup outside).take
  have hrun : run.WF := reports_wf script p.id cmds
  have hall : run.all = (run.started :: run.outputs.map .output) ++ [run.finished] := rfl
  rw [hall, List.forall_mem_append] at hfits
  -- until the transcript is sent
  obtain ⟨s₁, htakes, hknown₁, hlogged₁⟩ := Runner.take_reports hknown outside hreaches hfits.1
    (fun r hr => hrun.about_all (hall ▸ List.mem_append_left _ hr)) [pending]
  rw [hearAll_begun hpending] at htakes hknown₁
  let m₁ : Memory := { m with storage := s₁, posted := m.posted ++ m.taken provider [running] }
  have hbegun : ((run.started :: run.outputs.map .output).map Sending.report).foldl take ⟨m, [pending]⟩ =
    ⟨m₁, [pending] ++ [running]⟩ := htakes
  obtain ⟨store, htranscript, hstored⟩ := Runner.take_transcript client setup outside m₁ ([pending] ++ [running])
    p.id (written (script.executed 0 cmds)) (Transcript.byteCount (written (script.executed 0 cmds)))
  -- the end
  obtain ⟨s₂, htakes₂, hknown₂, hlogged₂⟩ := Runner.take_reports (m := { m₁ with transcripts := store }) hknown₁
    outside hreaches hfits.2 (fun r hr => hrun.about_all (hall ▸ List.mem_append_right _ hr))
    ([pending] ++ [running])
  have hended : (p.begun run).hearAll [run.finished] = ((p.begun run).ended run, [run.endMove]) :=
    Pipeline.hearAll_finished rfl []
  rw [hended] at htakes₂ hknown₂
  have hlogs : s₂.logsOf p.id = entries p.id (script.executed 0 cmds) :=
    logs_of_all (hlogged₁.append hlogged₂) hinOrder hempty
  have hstatus : run.outcome.status = if script.Succeeds 0 cmds then .success else .error :=
    script.summary_status cmds
  have htaken : ∀ shown, m.taken provider shown = before.taken provider shown := fun shown => by
    rw [Memory.taken, Memory.taken, hrefusing]
  rw [sendings_eq, List.foldl_append, hbegun, List.foldl_cons, htranscript, htakes₂]
  constructor
  case row =>
    rw [← hstatus]
    exact hknown₂.row
  case logs => exact hlogs
  case transcript =>
    rw [bytes_writtenText]
    exact hstored rfl
  case outputs =>
    show String.join ((s₂.logsOf p.id).map LogEntry.output) = _
    rw [hlogs]
    exact join_entries p.id _
  case shown =>
    rw [← hstatus]
    rfl
  case posted =>
    show m.posted ++ m.taken provider [running] ++ m.taken provider _ = _
    rw [htaken, htaken, hposted, before.taken_append, before.taken_append, List.append_assoc, List.append_assoc,
      List.append_assoc]

end

/-! ## From end to end -/

/-- The only message in the queue carries the work of the new pipeline. -/
theorem built_queue {setup : Setup} {provider : Provider} {push : Push} {r : Repo} {p : Pipeline} {m m₁ : Memory}
    {shown : List CommitStatus} (hidle : Idle m) (hwf : m₁.queue.WF)
    (hbuilt : Built setup provider push r m p m₁ shown) :
    ∃ message : Queue.Message, m₁.queue.ready = [message] ∧ m₁.queue.inFlight = [] ∧
      message.payload = (⟨p, MemoryStorage.ownerToken r.owner⟩ : Work).payload := by
  obtain ⟨payload, hread, hqueue⟩ := hbuilt.queue
  obtain ⟨hready, hleased⟩ := List.append_eq_nil_iff.1 hidle.queue
  let message : Queue.Message := ⟨m.queue.lastId + 1, payload, 0⟩
  have hone : m₁.queue.ready = [message] := by
    rw [hqueue]
    show m.queue.ready ++ [message] = [message]
    rw [hready]
    rfl
  obtain ⟨w, hw⟩ := hwf.work message (List.mem_append_left _ (hone ▸ List.mem_singleton_self _))
  have hsame : payload = w.payload := hw
  rw [hsame, Work.ofPayload_payload] at hread
  refine ⟨message, hone, ?_, ?_⟩
  · rw [hqueue]
    exact hleased
  · rw [← Except.ok.inj hread]
    exact hsame

/-- What a push has made is as it should be. -/
theorem built_tidy {setup : Setup} {provider : Provider} {push : Push} {r : Repo} {p : Pipeline} {m m₁ : Memory}
    {shown : List CommitStatus} (h : Tidy m) (hwf : m₁.WF) (hbuilt : Built setup provider push r m p m₁ shown) :
    Tidy m₁ := by
  refine ⟨hwf, ?_, ?_⟩
  · rw [hbuilt.storage]
    exact h.repoIds
  · rw [hbuilt.storage]
    exact fun e he => Int.le_trans (h.logs e he) (Int.ofNat_le.2 (Nat.le_succ _))

theorem emptied_wf {q : MemoryQueue} (h : q.held = []) : q.WF := by
  obtain ⟨hready, -⟩ := List.append_eq_nil_iff.1 h
  refine ⟨hready ▸ .nil, ?_, ?_, ?_⟩ <;> rw [h]
  · exact List.nodup_nil
  · exact List.forall_mem_nil _
  · exact List.forall_mem_nil _

/-- A push that is answered with a new pipeline is run when a consumer looks into the queue, which is empty but for
its work. If nothing goes wrong but the commands, then after some steps the queue is empty again, it is known what
is recorded of the pipeline, and the coordinator is ready for the next push. -/
theorem recorded_of_push (setup : Setup) (outside : Outside) (m : Memory) (hidle : Idle m) (name : String)
    (headers : Http.Headers) (body : Bytes) (p : Pipeline) (m₁ : Memory)
    (hpush : (accept setup name headers body).run (Memory.handle outside) m = (.ok (.created p), m₁))
    (client : Client) (hreaches : client.Reaches) (script : Script) (d : Definition) (limit : Time.Span)
    (hsmooth : script.Smooth p.commit d limit) (hfits : ∀ r ∈ (reports script p.id d.commands).all, r.Fits)
    (consumer : ConsumerSetup) (hplaces : 0 < consumer.maxParallel) (hopen : 0 < consumer.shutdown)
    (unique : String) :
    ∃ provider r, Provider.ofName? setup.providers name = some provider ∧ r ∈ m.storage.repos ∧ r.id = p.repoId ∧
      ∃ enough, ∀ steps, enough ≤ steps →
        let worker := executing (script.collaborators (Recipient.overHttp client setup outside)) limit unique
        let c := Consumer.run consumer worker steps
          { queue := m₁.queue, world := { world := ⟨m₁, shownBy outside (accept setup name headers body) m⟩ } }
        c.queue.held = [] ∧ c.jobs = [] ∧ Recorded setup provider r p script d.commands m c.world.world ∧
          Idle { c.world.world.memory with queue := c.queue } := by
  obtain ⟨answer, m', shown, hcarried, houtcome⟩ :=
    Coordinator.accept_cases hidle.wf setup outside name headers body
  obtain ⟨rfl, rfl⟩ := Prod.mk.inj (hpush.symm.trans hcarried.run)
  cases houtcome with
  | nothing _ hnot => exact absurd rfl (hnot p)
  | @built provider push r _ _ _ hwelcome hbuilt =>
    have hwf : m₁.WF := by
      have hrun := hidle.wf.run outside (accept setup name headers body)
      rwa [hpush] at hrun
    obtain ⟨hknown, hempty⟩ := built_known hidle hwelcome hbuilt
    obtain ⟨message, hready, hleased, hwork⟩ := built_queue hidle hwf.queue hbuilt
    obtain ⟨payload, -, hqueue⟩ := hbuilt.queue
    have hup : m₁.queue.unavailable = false := by
      rw [hqueue]
      exact hwelcome.buildable.queued
    have hshown : shown = [announced setup r p .pending "Pipeline is queued"] := hbuilt.announced
    have hposted : m₁.posted = m.posted ++ m.taken provider shown := by rw [hbuilt.others]
    have hrefusing : m₁.refusing = m.refusing := by rw [hbuilt.others]
    rw [hcarried.shown, hshown]
    rw [hshown] at hposted
    -- the run, by itself and as the job of the consumer
    let start : Scene Watched := { world := ⟨m₁, [announced setup r p .pending "Pipeline is queued"]⟩ }
    obtain ⟨es, k', s', helapses, hsent⟩ := Runner.smooth_execute (Recipient.overHttp client setup outside)
      ⟨p, MemoryStorage.ownerToken r.owner⟩ unique start hsmooth rfl
    obtain ⟨enough, hover⟩ := Consumer.run_single hup hready hleased hwork hplaces hopen
      (helapses.finishes limit unique)
    have hworld := helapses.world hsmooth.reported hsmooth.store
    rw [hsent] at hworld
    -- what the coordinator makes of it
    have hrecorded := take_sendings hknown hbuilt.isNew.status hwf.logInOrder hempty hposted hrefusing outside
      hreaches hfits
    have htidy := (built_tidy hidle.toTidy hwf hbuilt).taken (w := start.world) hknown.up setup outside hreaches
      (script.sendings p.id d.commands) (fits_of_sent hfits)
    rw [← hworld] at hrecorded htidy
    refine ⟨provider, r, hwelcome.known, List.mem_of_find?_eq_some hwelcome.buildable.registered, hbuilt.repo.symm,
      enough, fun steps hsteps => ?_⟩
    intro worker c
    have hended : c.Over s' := hover steps hsteps
    have hheld : c.queue.held = [] := by
      unfold MemoryQueue.held
      rw [hended.ready, hended.settled]
      rfl
    rw [hended.world]
    refine ⟨hheld, hended.jobs, hrecorded, ⟨⟨?_, htidy.repoIds, htidy.logs⟩, hheld⟩⟩
    exact ⟨htidy.wf.numbered, htidy.wf.pendingNew, htidy.wf.logInOrder, emptied_wf hheld⟩

/-! ### A push whose second command fails -/

namespace Sample

open Coordinator.Sample

def definition : Definition := ⟨"b", "a", [⟨"t", [["make"], ["make test"]]⟩]⟩

def definitionFile : Runner.DefinitionFile :=
  .content (Text.bytes "name: b\nimage: a\njobs: \x7bt: [make, make test]\x7d")

/-- The first command writes a NUL, and the second one fails. -/
def twoCommands : Script where
  fetch _ := ({ delay := 300 }, definitionFile)
  exec n _ := if n = 0 then ({ delay := 20 }, ⟨"a\x00b\n", 0⟩) else ({}, ⟨"no rule\n", 2⟩)
  time := time

def client : Client := ⟨"http://localhost:8081"⟩

/-- What becomes of a push. -/
def answered : Except Coordinator.HookFault Coordinator.HookOutcome × Memory :=
  (accept plainly "fake" headers body).run (Memory.handle silence) (Memory.of registered)

def made : Except Coordinator.HookFault Coordinator.HookOutcome → Option Pipeline
  | .ok (.created p) => some p
  | _ => none

theorem eq_of_made {result : Except Coordinator.HookFault Coordinator.HookOutcome × Memory} {p : Pipeline}
    (h : made result.1 = some p) : result = (.ok (.created p), result.2) := by
  obtain ⟨answer, m⟩ := result
  unfold made at h
  split at h
  case h_1 q hanswer =>
    cases h
    exact congrArg (·, m) hanswer
  case h_2 => cases h

def pipeline : Pipeline :=
  ⟨1, .pending, "c0ffee", "https://git.example.com/acme/widget.git", "http://localhost:8080/pipelines/1", none,
    none, 1⟩

theorem made_answered : made answered.1 = some pipeline := by decide +kernel

theorem answered_created : answered = (.ok (.created pipeline), answered.2) := eq_of_made made_answered

theorem definition_read : definitionFile.read.toOption = some definition := by decide +kernel

theorem idle : Idle (Memory.of registered) := ⟨⟨Memory.WF.of registered, by decide, List.forall_mem_nil _⟩, rfl⟩

/-- The address of a path at the coordinator. -/
def address (last : String) : Url :=
  ⟨"http", some ⟨"", "", .name "localhost", some 8081⟩, .segments ["rpc", "pipeline", last], none, none⟩

theorem reaches : client.Reaches := Client.reaches_of fun path hpath => by
  simp only [List.mem_cons, List.not_mem_nil, or_false] at hpath
  rcases hpath with rfl | rfl | rfl
  · exact ⟨address "started", by decide +kernel, rfl, by decide⟩
  · exact ⟨address "finished", by decide +kernel, rfl, by decide⟩
  · exact ⟨address "output", by decide +kernel, rfl, by decide⟩

theorem smooth : twoCommands.Smooth pipeline.commit definition ⟨60000000000⟩ where
  fetched := ⟨rfl, rfl⟩
  defined := by
    have hread := definition_read
    show definitionFile.read = .ok definition
    cases hfile : definitionFile.read with
    | error f => rw [hfile] at hread; cases hread
    | ok d => rw [hfile] at hread; exact congrArg Except.ok (Option.some.inj hread)
  pulled := ⟨rfl, rfl⟩
  created := ⟨rfl, rfl⟩
  started := ⟨rfl, rfl⟩
  comesBack n cmd _ := by
    unfold twoCommands
    dsimp only
    split <;> exact ⟨rfl, rfl⟩
  stopReturns := rfl
  removeReturns := rfl
  reported _ := rfl
  workspace := rfl
  store := rfl
  fetchedInTime := by decide
  inTime := by decide +kernel

theorem fit : ∀ r ∈ (reports twoCommands pipeline.id definition.commands).all, r.Fits := by
  have hshort : ∀ r ∈ (reports twoCommands pipeline.id definition.commands).all,
      4 * r.toJson.chars.length ≤ Http.maxBody := by decide +kernel
  exact fun r hr => Report.fits_of_chars (hshort r hr)

/-- The consumer after so many steps. -/
def consumed (steps : Nat) : Consumer (Scene Watched) Begun :=
  let recipient := Recipient.overHttp client plainly silence
  Consumer.run ⟨1, 1000, 3600000⟩ (executing (twoCommands.collaborators recipient) ⟨60000000000⟩ "a1") steps
    { queue := answered.2.queue
      world := { world :=
        ⟨answered.2, shownBy silence (accept plainly "fake" headers body) (Memory.of registered)⟩ } }

theorem entries_logged : entries pipeline.id (twoCommands.executed 0 definition.commands) =
    [⟨1, 0, "make", "ab\n", 0⟩, ⟨1, 1, "make test", "no rule\n", 2⟩] := by decide +kernel

theorem text_written : writtenText (twoCommands.executed 0 definition.commands) = "a\x00b\nno rule\n" := by
  decide +kernel

theorem failed : ¬ twoCommands.Succeeds 0 definition.commands := by decide +kernel

end Sample

/-- The pipeline of the push has an error, and its log ends with the command that failed. -/
theorem recorded_of_push_failing :
    Sample.answered = (.ok (.created Sample.pipeline), Sample.answered.2) ∧
    ∃ enough, ∀ steps, enough ≤ steps →
      let c := Sample.consumed steps
      c.queue.held = [] ∧
      c.world.world.memory.storage.logsOf Sample.pipeline.id =
        [⟨1, 0, "make", "ab\n", 0⟩, ⟨1, 1, "make test", "no rule\n", 2⟩] ∧
      c.world.world.memory.transcripts.download Sample.pipeline.id =
        .ok (Text.bytes "a\x00b\nno rule\n") ∧
      c.world.world.shown.map CommitStatus.status = [.pending, .running, .error] := by
  obtain ⟨provider, r, -, -, -, enough, hover⟩ := recorded_of_push _ _ _ Sample.idle "fake"
    Coordinator.Sample.headers Coordinator.Sample.body Sample.pipeline Sample.answered.2 Sample.answered_created
    Sample.client Sample.reaches Sample.twoCommands Sample.definition ⟨60000000000⟩ Sample.smooth Sample.fit
    ⟨1, 1000, 3600000⟩ (by decide) (by decide) "a1"
  refine ⟨Sample.answered_created, enough, fun steps hsteps => ?_⟩
  obtain ⟨hqueue, -, hrecorded, -⟩ := hover steps hsteps
  intro c
  have hlogs := hrecorded.logs
  have htranscript := hrecorded.transcript
  have hshown := hrecorded.shown
  rw [Sample.entries_logged] at hlogs
  rw [Sample.text_written] at htranscript
  rw [if_neg Sample.failed] at hshown
  exact ⟨hqueue, hlogs, htranscript, congrArg (List.map CommitStatus.status) hshown⟩

end Pipeworks.EndToEnd
