/-
Reports that are written are read back, each by the reader of its own path (`Report.read_toJson`).
-/
import Pipeworks.Proofs.Pipeline.Wire

namespace Pipeworks

open Json

theorem Outcome.read_toJson (o : Outcome) : Outcome.read o.toJson.node = .ok o := by
  cases o <;> rfl

theorem FailureCategory.read_toJson (c : FailureCategory) : FailureCategory.read c.toJson.node = .ok c := by
  cases c <;> rfl

/-! ## Starts -/

theorem Started.read_toJson (r : Started) : Started.read r.toJson.node = .ok r := by
  have hnames : ([("pipeline_id", jsonInt64 r.pipelineId), ("started_at", r.startedAt.toJson)].map
      Prod.fst).Nodup := by
    show ["pipeline_id", "started_at"].Nodup
    decide
  have htakes : ∀ m ∈ [("pipeline_id", jsonInt64 r.pipelineId), ("started_at", r.startedAt.toJson)],
      Takes Started.fields m := by
    simp only [List.forall_mem_cons]
    exact ⟨takes_of rfl rfl (int64_node r.pipelineId), takes_of rfl rfl (instant_node r.startedAt),
      List.forall_mem_nil _⟩
  refine record_object hnames htakes ?_
  unfold Started.ofFound
  rw [required_written hnames (v := jsonInt64 r.pipelineId) (by simp) (int64_node r.pipelineId),
    required_written hnames (v := r.startedAt.toJson) (by simp) (instant_node r.startedAt)]
  rfl

/-! ## Ends -/

theorem FailureSummary.read_toJson (s : FailureSummary) : FailureSummary.read s.toJson.node = .ok s := by
  have hnames : ([("category", s.category.toJson), ("message", Value.string s.message)].map
      Prod.fst).Nodup := by
    show ["category", "message"].Nodup
    decide
  have htakes : ∀ m ∈ [("category", s.category.toJson), ("message", Value.string s.message)],
      Takes FailureSummary.fields m := by
    simp only [List.forall_mem_cons]
    exact ⟨takes_of rfl rfl s.category.read_toJson, takes_of rfl rfl (string_node s.message),
      List.forall_mem_nil _⟩
  refine record_object hnames htakes ?_
  unfold FailureSummary.ofFound
  rw [required_written hnames (v := s.category.toJson) (by simp) s.category.read_toJson,
    required_written hnames (v := .string s.message) (by simp) (string_node s.message)]
  rfl

theorem nullable_failureSummary (s : FailureSummary) : nullable FailureSummary.read s.toJson.node = .ok (some s) :=
  nullable_node FailureSummary.read_toJson (fun _ => by simp [FailureSummary.toJson, Value.node]) (some s)

/-- The members of a report of an end; without a failure none is named. -/
def Finished.members (r : Finished) : List (String × Value) :=
  [("pipeline_id", jsonInt64 r.pipelineId), ("finished_at", r.finishedAt.toJson),
    ("outcome", r.outcome.toJson)] ++
  Value.memberIf "error" FailureSummary.toJson r.error

theorem Finished.memberNames (r : Finished) : (r.members.map Prod.fst).Nodup := by
  obtain ⟨id, finishedAt, outcome, error⟩ := r
  cases error <;> simp [Finished.members, Value.memberIf]

theorem Finished.fields_take (r : Finished) : ∀ m ∈ r.members, Takes Finished.fields m := by
  have hid : Takes Finished.fields ("pipeline_id", jsonInt64 r.pipelineId) :=
    takes_of rfl rfl (int64_node _)
  have htime : Takes Finished.fields ("finished_at", r.finishedAt.toJson) := takes_of rfl rfl (instant_node _)
  have houtcome : Takes Finished.fields ("outcome", r.outcome.toJson) :=
    takes_of rfl rfl r.outcome.read_toJson
  have herror : ∀ s : FailureSummary, Takes Finished.fields ("error", s.toJson) := fun s =>
    takes_of rfl rfl (nullable_failureSummary s)
  obtain ⟨id, finishedAt, outcome, error⟩ := r
  cases error <;> simp_all [Finished.members, Value.memberIf]

theorem Finished.ofFound_members (r : Finished) : Finished.ofFound (writtenFields r.members) = .ok r := by
  have hnames := r.memberNames
  have herror : optional (writtenFields r.members) "error" FailureSummary.read = .ok r.error := by
    obtain ⟨id, finishedAt, outcome, _ | error⟩ := r
    · exact optional_leftOut (by simp [Finished.members, Value.memberIf])
    · exact optional_written hnames (by simp [Finished.members, Value.memberIf]) (nullable_failureSummary error)
  unfold Finished.ofFound
  rw [required_written hnames (v := jsonInt64 r.pipelineId) (by simp [Finished.members])
      (int64_node r.pipelineId),
    required_written hnames (v := r.finishedAt.toJson) (by simp [Finished.members]) (instant_node r.finishedAt),
    required_written hnames (v := r.outcome.toJson) (by simp [Finished.members]) r.outcome.read_toJson, herror]
  rfl

theorem Finished.read_toJson (r : Finished) : Finished.read r.toJson.node = .ok r :=
  record_object r.memberNames r.fields_take r.ofFound_members

/-! ## Outputs -/

def CommandOutput.members (r : CommandOutput) : List (String × Value) := [
  ("pipeline_id", jsonInt64 r.pipelineId),
  ("order", jsonInt32 r.order),
  ("cmd", .string r.cmd),
  ("output", .string r.output),
  ("exit_code", jsonInt32 r.exitCode)]

theorem CommandOutput.memberNames (r : CommandOutput) : (r.members.map Prod.fst).Nodup := by
  show ["pipeline_id", "order", "cmd", "output", "exit_code"].Nodup
  decide

theorem CommandOutput.fields_take (r : CommandOutput) : ∀ m ∈ r.members, Takes LogEntry.fields m := by
  simp only [CommandOutput.members, List.forall_mem_cons]
  exact ⟨takes_of rfl rfl (int64_node r.pipelineId), takes_of rfl rfl (int32_node r.order),
    takes_of rfl rfl (string_node r.cmd), takes_of rfl rfl (string_node r.output),
    takes_of rfl rfl (int32_node r.exitCode), List.forall_mem_nil _⟩

/-- Each member of an output is found under its name. -/
theorem CommandOutput.members_found (r : CommandOutput) :
    required (writtenFields r.members) "pipeline_id" int64 = .ok r.pipelineId ∧
      required (writtenFields r.members) "order" int32 = .ok r.order ∧
      required (writtenFields r.members) "cmd" string = .ok r.cmd ∧
      required (writtenFields r.members) "output" string = .ok r.output ∧
      required (writtenFields r.members) "exit_code" int32 = .ok r.exitCode := by
  have hnames := r.memberNames
  exact ⟨required_written hnames (v := jsonInt64 r.pipelineId) (by simp [CommandOutput.members])
      (int64_node r.pipelineId),
    required_written hnames (v := jsonInt32 r.order) (by simp [CommandOutput.members]) (int32_node r.order),
    required_written hnames (v := .string r.cmd) (by simp [CommandOutput.members]) (string_node r.cmd),
    required_written hnames (v := .string r.output) (by simp [CommandOutput.members]) (string_node r.output),
    required_written hnames (v := jsonInt32 r.exitCode) (by simp [CommandOutput.members]) (int32_node r.exitCode)⟩

theorem CommandOutput.ofFound_members (r : CommandOutput) :
    CommandOutput.ofFound (writtenFields r.members) = .ok r := by
  obtain ⟨hid, horder, hcmd, houtput, hexit⟩ := r.members_found
  unfold CommandOutput.ofFound
  rw [hid, horder, hcmd, houtput, hexit]
  rfl

theorem CommandOutput.read_toJson (r : CommandOutput) : CommandOutput.read r.toJson.node = .ok r :=
  record_object r.memberNames r.fields_take r.ofFound_members

/-! ## Any report -/

/-- How the body of a request to the path of the report is read. -/
def Report.reader : Report → Node → Except Fault Report
  | .started _ => fun n => (Started.read n).map .started
  | .output _ => fun n => (CommandOutput.read n).map .output
  | .finished _ => fun n => (Finished.read n).map .finished

theorem Report.read_toJson (r : Report) : r.reader r.toJson.node = .ok r := by
  cases r with
  | started r =>
    show (Started.read r.toJson.node).map Report.started = _
    rw [r.read_toJson]
    rfl
  | output r =>
    show (CommandOutput.read r.toJson.node).map Report.output = _
    rw [r.read_toJson]
    rfl
  | finished r =>
    show (Finished.read r.toJson.node).map Report.finished = _
    rw [r.read_toJson]
    rfl

end Pipeworks
