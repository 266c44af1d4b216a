/-
Whatever goes over the wire is read back as it was written (`wire_round_trip`). What is added here to work and
reports are the entries of a log and the details of a pipeline, whose members stand side by side with the log:
they are kept until the whole object has been read, and then taken for the pipeline.
-/
import Pipeworks.Proofs.Pipeline.Report

namespace Pipeworks

open Json

/-! ## Entries -/

/-- The report of an output that has the members of the entry. -/
def LogEntry.asOutput (e : LogEntry) : CommandOutput := ⟨e.pipelineId, e.order, e.cmd, e.output, e.exitCode⟩

theorem LogEntry.ofFound_members (e : LogEntry) :
    LogEntry.ofFound (writtenFields e.asOutput.members) = .ok e := by
  obtain ⟨hid, horder, hcmd, houtput, hexit⟩ := e.asOutput.members_found
  unfold LogEntry.ofFound
  rw [hid, horder, hcmd, houtput, hexit]
  rfl

theorem LogEntry.read_toJson (e : LogEntry) : LogEntry.read e.toJson.node = .ok e :=
  record_object e.asOutput.memberNames e.asOutput.fields_take e.ofFound_members

/-! ## Details -/

/-- The member can be kept until the whole object has been read. -/
def Kept (m : String × Value) : Prop := m.1 ≠ "logs" ∧ m.2.node.keepable keptDepth

theorem kept_int {name : String} {n : Int} (hname : name ≠ "logs") (hlow : -(2 ^ 63) ≤ n) (hhigh : n < 2 ^ 64) :
    Kept (name, .int n) := by
  refine ⟨hname, ?_⟩
  rw [Value.node, Node.keepable, quantity?_wholeNumeral hlow hhigh]
  rfl

theorem kept_string {name : String} (hname : name ≠ "logs") (s : String) : Kept (name, .string s) := ⟨hname, rfl⟩

theorem kept_instant {name : String} (hname : name ≠ "logs") (t : Option Time.Instant) :
    Kept (name, .optional Time.Instant.toJson t) := by
  cases t with
  | none => exact ⟨hname, rfl⟩
  | some t => exact kept_string hname t.text

theorem Pipeline.members_kept (p : Pipeline) : ∀ m ∈ p.members, Kept m := by
  have hint : ∀ {name} (n : Int64), name ≠ "logs" → Kept (name, jsonInt64 n) := fun n hname =>
    kept_int hname n.le_toInt (Int.lt_trans n.toInt_lt (by decide))
  simp only [Pipeline.members, List.forall_mem_cons]
  exact ⟨hint p.id (by decide), kept_string (by decide) _, kept_string (by decide) _, kept_string (by decide) _,
    kept_string (by decide) _, kept_instant (by decide) _, kept_instant (by decide) _, hint p.repoId (by decide),
    List.forall_mem_nil _⟩

theorem memberNodes_append (ms ns : List (String × Value)) :
    memberNodes (ms ++ ns) = memberNodes ms ++ memberNodes ns := by
  induction ms with
  | nil => rfl
  | cons m ms ih => rw [List.cons_append, memberNodes, memberNodes, ih, List.cons_append]

namespace PipelineDetails

/-- Members that can be kept are kept in their order. -/
theorem collect_kept {ms : List (String × Value)} (hms : ∀ m ∈ ms, Kept m)
    (kept rest : List (Option String × Node)) :
    collect none kept (memberNodes ms ++ rest) = collect none ((memberNodes ms).reverse ++ kept) rest := by
  induction ms generalizing kept with
  | nil => rfl
  | cons m ms ih =>
    obtain ⟨name, v⟩ := m
    obtain ⟨⟨hname, hkeep⟩, hrest⟩ := List.forall_mem_cons.1 hms
    have hstep : collect none kept ((some name, v.node) :: (memberNodes ms ++ rest)) =
        collect none ((some name, v.node) :: kept) (memberNodes ms ++ rest) := by
      rw [collect, if_pos hkeep]
      exact hname
    rw [memberNodes, List.cons_append, hstep, ih hrest, List.reverse_cons, List.append_assoc]
    rfl

/-- The log is read as it comes, and the members of the pipeline are left. -/
theorem collect_written (d : PipelineDetails) :
    collect none [] (memberNodes (d.pipeline.members ++ [("logs", .array (d.logs.map LogEntry.toJson))])) =
      .ok (some d.logs, memberNodes d.pipeline.members) := by
  have hlogs := sequence_node LogEntry.read_toJson d.logs
  rw [memberNodes_append, collect_kept d.pipeline.members_kept, List.append_nil, memberNodes, memberNodes,
    collect, hlogs]
  simp only [Option.isSome_none, Bool.false_eq_true, if_false, within, bind, Except.bind, collect,
    List.reverse_reverse]

theorem read_toJson (d : PipelineDetails) : PipelineDetails.read d.toJson.node = .ok d := by
  have hmembers : Json.members (Pipeline.fields .kept) [] (memberNodes d.pipeline.members) =
      .ok (writtenFields d.pipeline.members) := by
    rw [members_memberNodes d.pipeline.memberNames (fun _ _ => rfl) (d.pipeline.fields_take .kept), List.append_nil]
  rw [PipelineDetails.toJson, Value.node, PipelineDetails.read, collect_written]
  simp only [bind, Except.bind, Bool.not_true, Bool.false_eq_true, if_false, hmembers,
    d.pipeline.ofFound_members .kept]

end PipelineDetails

/-! ## All that goes over the wire -/

/-- The names of the members of a value. -/
def Json.Value.memberNames : Value → List String
  | .object ms => ms.map Prod.fst
  | _ => []

theorem Token.leftOut (t : Token) :
    ("refresh_token" ∈ t.toJson.memberNames ↔ t.refreshToken.isSome) ∧
      ("expiry" ∈ t.toJson.memberNames ↔ t.expiry.isSome) := by
  obtain ⟨access, refresh, type, expiry⟩ := t
  cases refresh <;> cases expiry <;> simp [Token.toJson, Value.memberNames, Value.memberIf]

theorem Finished.leftOut (r : Finished) : "error" ∈ r.toJson.memberNames ↔ r.error.isSome := by
  obtain ⟨id, finishedAt, outcome, error⟩ := r
  cases error <;> simp [Finished.toJson, Value.memberNames, Value.memberIf]

/-- Every value that goes over the wire is read back from what is written of it, whatever its texts, its numbers
and its instants are, and whichever of its optional parts are absent: those of a token and of a report of an end
are left out then. Every instant there is can come out of a text. -/
theorem wire_round_trip :
    (ReadsBack Pipeline.toJson Pipeline.read ∧ ReadsBack LogEntry.toJson LogEntry.read ∧
      ReadsBack PipelineDetails.toJson PipelineDetails.read) ∧
    (ReadsBack Token.toJson Token.read ∧ ReadsBack Work.toJson Work.read) ∧
    (ReadsBack Started.toJson Started.read ∧ ReadsBack Finished.toJson Finished.read ∧
      ReadsBack FailureSummary.toJson FailureSummary.read ∧ ReadsBack CommandOutput.toJson CommandOutput.read) ∧
    (∀ t : Token, ("refresh_token" ∈ t.toJson.memberNames ↔ t.refreshToken.isSome) ∧
      ("expiry" ∈ t.toJson.memberNames ↔ t.expiry.isSome)) ∧
    (∀ r : Finished, "error" ∈ r.toJson.memberNames ↔ r.error.isSome) ∧
    (∀ t : Time.Instant, Time.Instant.ofText? t.text = some t) := by
  refine ⟨⟨?_, ?_, ?_⟩, ⟨?_, ?_⟩, ⟨?_, ?_, ?_, ?_⟩, Token.leftOut, Finished.leftOut, Time.ofText?_text⟩
  · exact readsBack_of_node Pipeline.read_toJson
  · exact readsBack_of_node LogEntry.read_toJson
  · exact readsBack_of_node PipelineDetails.read_toJson
  · exact readsBack_of_node Token.read_toJson
  · exact readsBack_of_node Work.read_toJson
  · exact readsBack_of_node Started.read_toJson
  · exact readsBack_of_node Finished.read_toJson
  · exact readsBack_of_node FailureSummary.read_toJson
  · exact readsBack_of_node CommandOutput.read_toJson

end Pipeworks
