/-
The way from a run to the coordinator. A report is sent as a request, the request is answered by the router, and
the response is what the client hears of it; a report whose body is within the limit does to the coordinator what
it does if it is heard at once (`report_overHttp`).
-/
import Pipeworks.Proofs.Coordinator.Convergence
import Pipeworks.Proofs.Coordinator.Router
import Pipeworks.Proofs.Runner.Script

namespace Pipeworks

/-! ## Requests on their way -/

/-- What a request for an address names as its target: the path with the query. -/
def Url.target (u : Url) : String := u.path.text u.authority.isNone ++ textAfter "?" u.query

namespace Http

def Request.headerLines (r : Request) : Headers :=
  let declared := if r.body.isSome then [("content-type", "application/json")] else []
  (r.headers ++ declared).map fun (name, value) => (Text.bytes name, Text.bytes value)

/-- The request as it comes in. -/
def Request.arrival (r : Request) : Arrival where
  method := r.method
  target := r.url.target
  headers := r.headerLines
  body := (r.body.map fun v => Text.bytes v.text).getD []

/-- The response as it is read by the one who asked. -/
def Response.reply (r : Response) : Reply where
  status := r.status
  body := match r.content with
    | .empty => []
    | .text content => content
    | .json v => Text.bytes v.text

theorem Reply.isSuccess_iff (r : Reply) : r.isSuccess = true ↔ 200 ≤ r.status ∧ r.status < 300 := by
  simp [isSuccess]

end Http

namespace Runner

open Coordinator (Setup Outside Memory Carried Known Logged hear answerRunner acknowledge shownBy toShow)

/-! ## The coordinator at the other end -/

/-- A coordinator, and the statuses that it has asked providers to show. -/
structure Watched where
  memory : Memory
  shown : List CommitStatus := []

/-- The request of every report names the path of its kind. -/
def Client.Reaches (client : Client) : Prop :=
  ∀ r, ∃ url : Url, client.request? r = some ⟨.post, url, [], some r.toJson⟩ ∧ url.target = r.path

theorem Client.reaches_of {client : Client}
    (h : ∀ path ∈ [Report.startedPath, Report.finishedPath, Report.outputPath], ∃ url : Url,
      Url.ofText (client.baseUrl ++ path) = .ok url ∧ url.scheme = "http" ∧ url.target = path) :
    client.Reaches := by
  intro r
  have hpath : r.path ∈ [Report.startedPath, Report.finishedPath, Report.outputPath] := by
    cases r <;> simp [Report.path]
  obtain ⟨url, hurl, hscheme, htarget⟩ := h r.path hpath
  refine ⟨url, ?_, htarget⟩
  unfold Client.request?
  rw [hurl]
  simp [hscheme]

/-- A coordinator that is reported to over HTTP. Transcripts reach its store at once. -/
def Recipient.overHttp (client : Client) (setup : Setup) (outside : Outside) : Recipient Watched where
  report r w :=
    let service := fun request : Http.Request => answerRunner setup request.arrival
    match client.request? r with
    | none => (.error ClientFault.requestFailed.message, w)
    | some request =>
      let (response, memory) := (service request).run (Memory.handle outside) w.memory
      ((client.send (fun _ => some response.reply) r).mapError ClientFault.message,
        ⟨memory, w.shown ++ shownBy outside (service request) w.memory⟩)
  upload id content size w :=
    match w.memory.transcripts.upload id content size with
    | .ok transcripts => (.ok (), { w with memory := { w.memory with transcripts } })
    | .error f => (.error f, w)

variable {client : Client} {setup : Setup} {outside : Outside} {m m' : Memory} {more : List CommitStatus}

theorem posts_arrival (url : Url) (r : Report) (htarget : url.target = r.path) :
    Coordinator.Posts r (Http.Request.arrival ⟨.post, url, [], some r.toJson⟩) where
  method := rfl
  target := htarget
  json := Http.declareJson_contentType
  body := rfl

/-- A report that gets through does what it does if it is heard at once, and the one who reports is told whether it
was heard without fault. -/
theorem report_overHttp (hreaches : client.Reaches) {r : Report} (hfits : r.Fits)
    {answer : Except Coordinator.ReportFault Unit} (h : Carried outside (hear setup r) m answer m' more)
    (shown : List CommitStatus) :
    ∃ told, (Recipient.overHttp client setup outside).report r ⟨m, shown⟩ = (told, ⟨m', shown ++ more⟩) ∧
      (told = .ok () ↔ answer = .ok ()) := by
  obtain ⟨url, hrequest, htarget⟩ := hreaches r
  have hanswered : Carried outside (answerRunner setup (Http.Request.arrival ⟨.post, url, [], some r.toJson⟩)) m
      (acknowledge answer) m' more := by
    rw [Coordinator.answerRunner_posted (posts_arrival url r htarget) hfits]
    have hdone := h.bind (f := fun answer => .done (acknowledge answer)) (.done _ _)
    rwa [List.append_nil] at hdone
  refine ⟨(client.send (fun _ => some (acknowledge answer).reply) r).mapError ClientFault.message, ?_, ?_⟩
  · show (match client.request? r with | none => _ | some request => _ : Except String Unit × Watched) = _
    rw [hrequest]
    dsimp only
    rw [hanswered.run, hanswered.shown]
  · -- of the response the client heeds the status only
    have hreply : (acknowledge answer).reply.isSuccess = true ↔ answer = .ok () :=
      (Http.Reply.isSuccess_iff _).trans (Coordinator.acknowledge_isSuccess answer)
    rw [← hreply]
    unfold Client.send
    rw [hrequest]
    show Except.mapError _ (if (acknowledge answer).reply.isSuccess then _ else _) = _ ↔ _
    split
    case isTrue hsuccess => exact iff_of_true rfl hsuccess
    case isFalse hrefused => exact iff_of_false nofun hrefused

/-! ## What a run sends -/

variable {id : Int64} {info : Storage.StateChangeInfo} {provider : Provider} {p : Pipeline} {rs : List Report}

/-- The coordinator follows the pipeline through the reports that it is sent. -/
theorem take_reports (h : Known setup id info provider p m.storage) (outside : Outside)
    (hreaches : client.Reaches) (hfits : ∀ r ∈ rs, r.Fits) (hrs : ∀ r ∈ rs, r.pipelineId = id)
    (shown : List CommitStatus) :
    let more := (p.hearAll rs).2.map (toShow setup info)
    ∃ s, (rs.map Sending.report).foldl (Recipient.overHttp client setup outside).take ⟨m, shown⟩ =
        ⟨{ m with storage := s, posted := m.posted ++ m.taken provider more }, shown ++ more⟩ ∧
      Known setup id info provider (p.hearAll rs).1 s ∧ Logged id rs m.storage s := by
  induction rs generalizing p m shown with
  | nil =>
    refine ⟨m.storage, ?_, h, .nil⟩
    show (⟨m, shown⟩ : Watched) = ⟨{ m with posted := m.posted ++ m.taken provider [] }, shown ++ []⟩
    rw [m.taken_nil, List.append_nil, List.append_nil]
  | cons r rs ih =>
    obtain ⟨hfit, hfits⟩ := List.forall_mem_cons.1 hfits
    obtain ⟨hr, hrs⟩ := List.forall_mem_cons.1 hrs
    obtain ⟨s, hcarried, hknown, hlogged⟩ := h.hear outside hr
    obtain ⟨told, htake, -⟩ := report_overHttp hreaches hfit hcarried shown
    obtain ⟨s', htakes, hknown', hlogged'⟩ :=
      ih (m := { m with
        storage := s, posted := m.posted ++ m.taken provider ((p.hear r).2.map (toShow setup info)) })
        hknown hfits hrs (shown ++ (p.hear r).2.map (toShow setup info))
    refine ⟨s', ?_, hknown', hlogged.append hlogged'⟩
    rw [Pipeline.hearAll_cons, List.map_append, m.taken_append, ← List.append_assoc, ← List.append_assoc,
      List.map_cons, List.foldl_cons]
    show (rs.map Sending.report).foldl _ ((Recipient.overHttp client setup outside).report r ⟨m, shown⟩).2 = _
    rw [htake]
    exact htakes

/-- A transcript is stored if its size is the announced one, and nothing else changes. -/
theorem take_transcript (client : Client) (setup : Setup) (outside : Outside) (m : Memory)
    (shown : List CommitStatus) (id : Int64) (content : Bytes) (size : UInt64) :
    ∃ store, (Recipient.overHttp client setup outside).take ⟨m, shown⟩ (.transcript id content size) =
        ⟨{ m with transcripts := store }, shown⟩ ∧ (Transcript.byteCount content = size → store.download id = .ok content) := by
  unfold Recipient.take Recipient.overHttp Transcript.MemoryStore.upload
  dsimp only
  by_cases hsize : Transcript.byteCount content = size
  · rw [if_pos hsize]
    exact ⟨_, rfl, fun _ => by simp [Transcript.MemoryStore.download]⟩
  · rw [if_neg hsize]
    exact ⟨m.transcripts, rfl, fun h => absurd h hsize⟩

end Runner

end Pipeworks
