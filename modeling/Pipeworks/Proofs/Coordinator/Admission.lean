/-
What becomes of an output on its way into the log. The report of an output of a pipeline that is stored is
acknowledged and kept if its body is within the limit, and refused before anybody hears it if not
(`output_posted`). Within the limit are the reports whose texts have a sixth of it at most, less a few bytes, and
none that have more bytes than it (`CommandOutput.size_bounds`); what a command writes has no bound.
-/
import Pipeworks.Proofs.Coordinator.Report
import Pipeworks.Proofs.Coordinator.Router
import Pipeworks.Proofs.Json.Size

namespace Pipeworks

/-! ## Sizes -/

theorem Report.fits_iff (r : Report) : r.Fits ↔ r.toJson.size ≤ Http.maxBody := by
  rw [Report.Fits, Json.bytes_text]

theorem int64_size_bounds (n : Int64) : 0 < (jsonInt64 n).size ∧ (jsonInt64 n).size ≤ 20 := by
  have hlow := n.le_toInt
  have hhigh := n.toInt_lt
  exact Json.int_size_bounds 19 (by decide) (by omega)

theorem int32_size_bounds (n : Int32) : 0 < (jsonInt32 n).size ∧ (jsonInt32 n).size ≤ 11 := by
  have hlow := n.le_toInt
  have hhigh := n.toInt_lt
  exact Json.int_size_bounds 10 (by decide) (by omega)

namespace CommandOutput

theorem size_eq (r : CommandOutput) : r.toJson.size = Json.quotedSize r.cmd + Json.quotedSize r.output +
    (jsonInt64 r.pipelineId).size + (jsonInt32 r.order).size + (jsonInt32 r.exitCode).size + 59 := by
  have hkeys : ["pipeline_id", "order", "cmd", "output", "exit_code"].map Json.quotedSize = [11, 5, 3, 6, 9] := by
    decide
  simp only [List.map_cons, List.map_nil, List.cons.injEq] at hkeys
  obtain ⟨hid, horder, hcmd, houtput, hexit, -⟩ := hkeys
  unfold toJson
  simp only [Json.object_size, List.map_cons, List.map_nil, List.sum_cons, List.sum_nil, Json.memberSize, hid, horder,
    hcmd, houtput, hexit, Json.string_size]
  omega

/-- The body has at least all of the two texts, and at most six times as much, besides what does not depend on
them. -/
theorem size_bounds (r : CommandOutput) :
    (Text.bytes r.cmd).length + (Text.bytes r.output).length + 62 ≤ r.toJson.size ∧
      r.toJson.size ≤ 6 * ((Text.bytes r.cmd).length + (Text.bytes r.output).length) + 101 := by
  have hcmd := Json.quotedSize_bounds r.cmd
  have houtput := Json.quotedSize_bounds r.output
  have hid := int64_size_bounds r.pipelineId
  have horder := int32_size_bounds r.order
  have hexit := int32_size_bounds r.exitCode
  rw [r.size_eq]
  omega

theorem fits_of_short {r : CommandOutput}
    (h : 6 * ((Text.bytes r.cmd).length + (Text.bytes r.output).length) + 101 ≤ Http.maxBody) :
    (Report.output r).Fits :=
  (Report.fits_iff _).2 (Nat.le_trans r.size_bounds.2 h)

/-- No report of an output that alone has as many bytes as a body may have is within the limit. -/
theorem not_fits_of_long {r : CommandOutput} (h : Http.maxBody ≤ (Text.bytes r.output).length) :
    ¬ (Report.output r).Fits := by
  intro hfits
  have hsize : r.toJson.size ≤ Http.maxBody := (Report.fits_iff _).1 hfits
  have hbounds := r.size_bounds.1
  omega

end CommandOutput

/-! ## Requests -/

/-- A body that is too long is refused, whatever it says. -/
theorem Http.jsonBody_long {α : Type} {a : Http.Arrival} {read : Json.Node → Except Json.Fault α}
    (hjson : a.headers.declareJson) (hlong : maxBody < a.body.length) : a.jsonBody read = .error .tooLong := by
  unfold Arrival.jsonBody Arrival.limitedBody
  rw [if_pos hjson, if_pos ((longerThan_iff _ _).2 hlong)]
  rfl

namespace Coordinator

open Http (Arrival Refusal)
open MemoryStorage (SameKey placeLog_perm)

variable {setup : Setup} {outside : Outside} {m : Memory} {a : Arrival}

/-- A report that is too long is refused without a call. -/
theorem answerRunner_refused {r : Report} (h : Posts r a) (hlong : ¬ r.Fits) :
    answerRunner setup a = .done Refusal.tooLong.response := by
  have hbody : Http.maxBody < a.body.length := h.body ▸ Nat.lt_of_not_le hlong
  rw [answerRunner_eq h]
  unfold receiveReport
  rw [Http.jsonBody_long h.json hbody]
  rfl

/-! ## Outputs -/

/-- After an output the log has an entry of its order, and nothing else in the storage has changed: the entry was
there before, or it is that of the report. -/
structure Keeps (r : CommandOutput) (s s' : MemoryStorage) : Prop where
  others : s' = { s with logs := s'.logs }
  stored : ∃ e ∈ s'.logsOf r.pipelineId, e.order = r.order
  log : ((∃ e ∈ s.logs, SameKey r.logEntry e) ∧ s'.logs = s.logs) ∨
    ((∀ e ∈ s.logs, ¬ SameKey r.logEntry e) ∧ s'.logs.Perm (r.logEntry :: s.logs))

theorem keeps_addLog (r : CommandOutput) (s : MemoryStorage) : Keeps r s (s.addLog r.logEntry).2 := by
  refine ⟨s.addLog_rest r.logEntry, (s.mem_logsOf_addOutput r r.pipelineId).1, ?_⟩
  obtain ⟨hthere, heq⟩ | ⟨hnew, heq⟩ := s.addOutput_cases r
  · rw [heq]
    exact .inl ⟨hthere, rfl⟩
  · rw [heq]
    exact .inr ⟨hnew, placeLog_perm r.logEntry s.logs⟩

/-- The output of a pipeline that is stored is kept if the body that reports it is within the limit, and lost
if it is not. -/
theorem output_posted {r : CommandOutput} {p : Pipeline} (hup : m.storage.failing = false)
    (hrow : m.storage.pipeline? r.pipelineId = some p) (hposts : Posts (.output r) a) (setup : Setup)
    (outside : Outside) :
    let result := (answerRunner setup a).run (Memory.handle outside) m
    ((Report.output r).Fits → result.1 = { status := 204 } ∧
      ∃ s, Keeps r m.storage s ∧ result.2 = { m with storage := s }) ∧
    (¬ (Report.output r).Fits → result = (Refusal.tooLong.response, m)) := by
  intro result
  constructor
  · intro hfits
    have hheard : Carried outside (hear setup (.output r)) m _ _ _ := hear_output hup hrow
    have hanswered := hheard.bind (f := fun answer => .done (acknowledge answer)) (.done _ _)
    rw [← answerRunner_posted hposts hfits] at hanswered
    have hresult : result = _ := hanswered.run
    rw [hresult]
    exact ⟨rfl, _, keeps_addLog r m.storage, rfl⟩
  · intro hlong
    show (answerRunner setup a).run (Memory.handle outside) m = _
    rw [answerRunner_refused hposts hlong]
    rfl

namespace Sample

def row : Pipeline := ⟨1, .running, "c0ffee", "https://git.example.com/acme/widget.git", "/pipelines/1", none, none, 1⟩

/-- One pipeline, whose log is empty. -/
def running : Memory where
  storage := { lastId := 1, pipelines := [row] }

/-- The request that carries the output. -/
def request (r : CommandOutput) : Arrival where
  method := .post
  target := Report.outputPath
  headers := [(Text.bytes "content-type", Text.bytes "application/json")]
  body := Text.bytes r.toJson.text

theorem posts_request (r : CommandOutput) : Posts (.output r) (request r) where
  method := rfl
  target := rfl
  json := Http.declareJson_contentType
  body := rfl

/-- A few letters with a NUL among them. -/
def few : CommandOutput := ⟨1, 0, "make", "a\x00b", 0⟩

/-- A command that writes so many letters. -/
def many (n : Nat) : CommandOutput := ⟨1, 0, "yes", String.ofList (List.replicate n 'y'), 0⟩

theorem many_bytes (n : Nat) : (Text.bytes (many n).output).length = n := by
  show (Text.bytes (String.ofList (List.replicate n 'y'))).length = n
  rw [Text.bytes, String.toList_ofList, Utf8.length_encode_ascii, List.length_replicate]
  intro c hc
  rw [List.eq_of_mem_replicate hc]
  decide

theorem not_fits_many : ¬ (Report.output (many Http.maxBody)).Fits :=
  CommandOutput.not_fits_of_long (Nat.le_of_eq (many_bytes _).symm)

/-- What becomes of the request. -/
def answered (r : CommandOutput) : Http.Response × Memory :=
  (answerRunner plainly (request r)).run (Memory.handle silence) running

end Sample

/-- Of two outputs of one pipeline the short one is kept, and the other one is not. -/
theorem output_posted_both :
    ((Sample.answered Sample.few).1.status = 204 ∧
      (Sample.answered Sample.few).2.storage.logs = [⟨1, 0, "make", "ab", 0⟩]) ∧
    Sample.answered (Sample.many Http.maxBody) = (Refusal.tooLong.response, Sample.running) := by
  have hup : Sample.running.storage.failing = false := rfl
  have hrow : Sample.running.storage.pipeline? 1 = some Sample.row := rfl
  have hposted (r : CommandOutput) (hid : r.pipelineId = 1) :
      ((Report.output r).Fits → (Sample.answered r).1 = { status := 204 } ∧
        ∃ s, Keeps r Sample.running.storage s ∧ (Sample.answered r).2 = { Sample.running with storage := s }) ∧
      (¬ (Report.output r).Fits → Sample.answered r = (Refusal.tooLong.response, Sample.running)) :=
    output_posted hup (hid ▸ hrow) (Sample.posts_request r) Sample.plainly Sample.silence
  constructor
  · have hshort : (Report.output Sample.few).Fits := CommandOutput.fits_of_short (by decide)
    obtain ⟨hanswer, s, hkeeps, hafter⟩ := (hposted Sample.few rfl).1 hshort
    refine ⟨congrArg Http.Response.status hanswer, ?_⟩
    rcases hkeeps.log with ⟨⟨e, he, -⟩, -⟩ | ⟨-, hlog⟩
    · cases he
    · exact (congrArg (·.storage.logs) hafter).trans (List.perm_singleton.1 hlog)
  · exact (hposted (Sample.many Http.maxBody) rfl).2 Sample.not_fits_many

/-- Not every output of a pipeline that is stored is kept. -/
theorem long_output_lost :
    ¬ ∀ (setup : Setup) (outside : Outside) (m : Memory) (r : CommandOutput) (p : Pipeline) (a : Arrival),
      m.storage.failing = false → m.storage.pipeline? r.pipelineId = some p → Posts (.output r) a →
      let result := (answerRunner setup a).run (Memory.handle outside) m
      result.1.status = 204 ∧ ∃ e ∈ result.2.storage.logsOf r.pipelineId, e.order = r.order := by
  intro h
  obtain ⟨hstatus, -⟩ := h Sample.plainly Sample.silence Sample.running (Sample.many Http.maxBody) Sample.row
    (Sample.request _) rfl rfl (Sample.posts_request _)
  rw [answerRunner_refused (Sample.posts_request _) Sample.not_fits_many] at hstatus
  cases hstatus

end Coordinator

end Pipeworks
