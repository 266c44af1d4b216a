/-
What a runner says of a failure in its own words stays with the coordinator: requests that differ in no more than the
raw messages of failed runs are answered alike, and the same is kept, queued and shown (`messages_confined`). The
message is read with the report and then has no part in what is done (`hear_unsaid`), so the services of two such
requests are one program, whatever the state in which they come.
-/
import Pipeworks.Proofs.Coordinator.Convergence
import Pipeworks.Proofs.Coordinator.Router

namespace Pipeworks

open Http (Arrival Response)

/-- The report without the words of its failure: the category stays, if there is one. -/
def Finished.unsaid (r : Finished) : Finished :=
  { r with error := r.error.map fun summary => { summary with message := "" } }

/-- What is left of a report: the pipeline, the time, the outcome, and the category of a failure. -/
theorem Finished.unsaid_eq_iff {r r' : Finished} :
    r.unsaid = r'.unsaid ↔ r.pipelineId = r'.pipelineId ∧ r.finishedAt = r'.finishedAt ∧ r.outcome = r'.outcome ∧
      r.error.map (·.category) = r'.error.map (·.category) := by
  obtain ⟨id, finishedAt, outcome, error⟩ := r
  obtain ⟨id', finishedAt', outcome', error'⟩ := r'
  cases error <;> cases error' <;> simp [unsaid]

theorem Json.Document.read_map {α β : Type} {read : Json.Node → Except Json.Fault α} {d : Json.Document} {a : α}
    (h : d.read read = .ok a) (f : α → β) : (d.read fun n => (read n).map f) = .ok (f a) := by
  unfold Json.Document.read at h ⊢
  dsimp only
  cases hread : read d.root with
  | error fault =>
    rw [hread] at h
    cases h
  | ok b =>
    rw [hread] at h
    cases hcomplete : d.complete with
    | false =>
      rw [hcomplete] at h
      cases h
    | true =>
      rw [hcomplete] at h
      cases h
      rfl

namespace Coordinator

variable {setup : Setup} {outside : Outside} {m : Memory} {a a' : Arrival} {r r' : Finished}

/-! ## Reports -/

/-- A provider is told the category of a failure, if there is one, and nothing else of it. -/
theorem description_unsaid (r : Finished) : Finished.description r.unsaid = Finished.description r := by
  obtain ⟨id, finishedAt, outcome, error⟩ := r
  cases outcome <;> cases error <;> rfl

/-- A report does what it would do without the words of its failure. -/
theorem hear_unsaid (setup : Setup) (r : Finished) : hear setup (.finished r.unsaid) = hear setup (.finished r) := by
  show finished setup r.unsaid = finished setup r
  refine congrArg (storage (.finish r.pipelineId r.outcome.status r.finishedAt)).bind (funext fun answer => ?_)
  rcases answer with f | (_ | _)
  · rfl
  · rfl
  · exact congrArg (publish setup r.pipelineId r.outcome.status) (description_unsaid r)

/-! ## Requests -/

/-- The request is one to report how a run ended, and its body is within the limit and reads as the report, in whatever
way it is written. Of a body that does not, a refusal may tell how far it was read. -/
structure Reports (r : Finished) (a : Arrival) : Prop where
  path : Http.pathSegments a.target = Http.pathSegments Report.finishedPath
  fits : a.body.length ≤ Http.maxBody
  body : (Json.Document.ofBytes a.body).read Finished.read = .ok r

/-- The path of the reports leads nowhere for the public. -/
theorem answerPublic_finishedPath (h : Http.pathSegments a.target = Http.pathSegments Report.finishedPath) :
    answerPublic setup a = .done { status := 404 } := by
  have hfinished : Http.pathSegments Report.finishedPath = ["", "rpc", "pipeline", "finished"] := by decide
  unfold answerPublic answer
  rw [h, hfinished]
  simp [publicRoutes, healthRoute, Route.find?, Http.matchPath]
  rfl

theorem Reports.jsonBody (h : Reports r a) :
    a.jsonBody (Report.finished r).reader =
      if a.headers.declareJson then .ok (.finished r) else .error .notJson := by
  have hread : (Json.Document.ofBytes a.body).read (Report.finished r).reader = .ok (.finished r) :=
    Json.Document.read_map h.body Report.finished
  unfold Arrival.jsonBody
  rw [Http.limitedBody_of_fits h.fits]
  simp only [bind, Except.bind, hread]

/-- A report is heard if it is declared as JSON, and refused else. -/
theorem Reports.receiveReport (h : Reports r a) (setup : Setup) :
    Coordinator.receiveReport setup a (Report.finished r).reader =
      if a.headers.declareJson then (hear setup (.finished r)).bind fun answer => .done (acknowledge answer)
      else .done Http.Refusal.notJson.response := by
  unfold Coordinator.receiveReport
  rw [h.jsonBody]
  cases a.headers.declareJson with
  | false => rfl
  | true =>
    refine congrArg (hear setup (.finished r)).bind (funext fun answer => ?_)
    cases answer <;> rfl

theorem Reports.answerRunner (h : Reports r a) (setup : Setup) :
    Coordinator.answerRunner setup a =
      Endpoint.respond (.post (Coordinator.receiveReport setup a (Report.finished r).reader)) a.method := by
  unfold Coordinator.answerRunner answer
  rw [h.path, show Report.finishedPath = (Report.finished r).path from rfl, find?_reportRoutes]

/-- Whom a request comes from. -/
inductive Side where
  | anyone
  | runner

structure Request where
  side : Side
  arrival : Arrival

/-- Answers a request. -/
def serve (setup : Setup) (q : Request) : Service Response :=
  match q.side with
  | .anyone => answerPublic setup q.arrival
  | .runner => answerRunner setup q.arrival

/-- Two requests are the same, or report how a run ended and differ in the words of its failure only, and in headers
that go with them, such as the length. -/
inductive SameButMessage : Request → Request → Prop
  | same (q : Request) : SameButMessage q q
  | finished {side : Side} {a a' : Arrival} {r r' : Finished} (hmethod : a.method = a'.method)
      (hjson : a.headers.declareJson = a'.headers.declareJson) (h : Reports r a) (h' : Reports r' a')
      (hsame : r.unsaid = r'.unsaid) : SameButMessage ⟨side, a⟩ ⟨side, a'⟩

/-- Two requests that differ in the words of a failure only are the same to the coordinator. -/
theorem SameButMessage.serve {q q' : Request} (h : SameButMessage q q') (setup : Setup) :
    Coordinator.serve setup q = Coordinator.serve setup q' := by
  cases h with
  | same => rfl
  | @finished side a a' r r' hmethod hjson h h' hsame =>
    cases side with
    | anyone =>
      show answerPublic setup a = answerPublic setup a'
      rw [answerPublic_finishedPath h.path, answerPublic_finishedPath h'.path]
    | runner =>
      show answerRunner setup a = answerRunner setup a'
      have hheard : hear setup (.finished r) = hear setup (.finished r') := by
        rw [← hear_unsaid setup r, hsame, hear_unsaid]
      rw [h.answerRunner, h'.answerRunner, h.receiveReport, h'.receiveReport, hheard, hjson, hmethod]

/-- The request of a runner that reports how a run ended is such a request. -/
theorem Posts.reports (h : Posts (.finished r) a) (hfits : (Report.finished r).Fits) : Reports r a where
  path := congrArg Http.pathSegments h.target
  fits := h.body ▸ hfits
  body := h.body ▸ (Json.readsBack_of_node Finished.read_toJson r).2

/-! ## One request after the other -/

/-- Answers requests one after the other. -/
def serveAll (setup : Setup) : List Request → Service (List Response)
  | [] => .done []
  | q :: qs => (serve setup q).bind fun response => (serveAll setup qs).bind fun rest => .done (response :: rest)

theorem serveAll_same {qs qs' : List Request} (h : List.Forall₂ SameButMessage qs qs') (setup : Setup) :
    serveAll setup qs = serveAll setup qs' := by
  induction h with
  | nil => rfl
  | cons hfirst _ ih => rw [serveAll, serveAll, hfirst.serve, ih]

/-- What is seen of a coordinator that answers requests: the answers, the statuses that it gave to providers, and what
it has kept. -/
structure Seen where
  answers : List Response
  posts : List (Program.Event Call Answer)
  pipelines : List Pipeline
  logs : List LogEntry
  queue : MemoryQueue
  memory : Memory

def seen (setup : Setup) (outside : Outside) (m : Memory) (qs : List Request) : Seen :=
  let (answers, after) := (serveAll setup qs).run (Memory.handle outside) m
  { answers
    posts := postedBy outside (serveAll setup qs) m
    pipelines := after.storage.pipelines
    logs := after.storage.logs
    queue := after.queue
    memory := after }

/-- Nothing is seen of the words in which runners tell of failures, whatever the coordinator has been through. -/
theorem messages_confined (setup : Setup) (outside : Outside) (m : Memory) {qs qs' : List Request}
    (h : List.Forall₂ SameButMessage qs qs') : seen setup outside m qs = seen setup outside m qs' := by
  unfold seen
  rw [serveAll_same h]

namespace Sample

/-- A run was too slow, and it is told in some words. -/
def tooSlow (message : String) : Finished :=
  ⟨1, noon, .failure, some ⟨.timeout, message⟩⟩

/-- The request that reports the end. -/
def posting (r : Finished) : Arrival where
  method := .post
  target := Report.finishedPath
  headers := [(Text.bytes "content-type", Text.bytes "application/json"),
    (Text.bytes "content-length", Text.bytes (toString (Text.bytes r.toJson.text).length))]
  body := Text.bytes r.toJson.text

/-- The first header declares the body, whatever length the other tells. -/
theorem declareJson_posting (r : Finished) : (posting r).headers.declareJson := by
  have hname : Http.hasName "content-type" (Text.bytes "content-type", Text.bytes "application/json") := by
    decide +kernel
  have hfirst : ∀ others, Http.Headers.text? "content-type"
      ((Text.bytes "content-type", Text.bytes "application/json") :: others) =
        if (Text.bytes "application/json").all Http.isVisible then Text.ofBytes? (Text.bytes "application/json")
        else none := by
    intro others
    unfold Http.Headers.text? Http.Headers.first?
    rw [List.find?_cons_of_pos hname]
    rfl
  have hjson := Http.declareJson_contentType
  unfold Http.Headers.declareJson at hjson ⊢
  rw [hfirst] at hjson
  show (Option.bind (Http.Headers.text? "content-type" (_ :: _)) _).any _ = true
  rw [hfirst]
  exact hjson

theorem posts_posting (r : Finished) : Posts (.finished r) (posting r) where
  method := rfl
  target := rfl
  json := declareJson_posting r
  body := rfl

/-- A runner reports the end, and then someone looks at the pipeline. -/
def reportedAndShown (message : String) : List Request :=
  [⟨.runner, posting (tooSlow message)⟩, ⟨.anyone, ⟨.get, "/pipelines/1", [], []⟩⟩]

theorem reportedAndShown_same {message message' : String} (hfits : (Report.finished (tooSlow message)).Fits)
    (hfits' : (Report.finished (tooSlow message')).Fits) :
    List.Forall₂ SameButMessage (reportedAndShown message) (reportedAndShown message') :=
  .cons (.finished rfl ((declareJson_posting _).trans (declareJson_posting _).symm) ((posts_posting _).reports hfits) ((posts_posting _).reports hfits')
    (Finished.unsaid_eq_iff.2 ⟨rfl, rfl, rfl, rfl⟩))
    (.cons (.same _) .nil)

theorem fits_few : (Report.finished (tooSlow "step 3 ran for 61 s")).Fits :=
  Report.fits_of_chars (by decide +kernel)

theorem fits_none : (Report.finished (tooSlow "")).Fits := Report.fits_of_chars (by decide +kernel)

end Sample

theorem messages_confined_tooSlow :
    List.Forall₂ SameButMessage (Sample.reportedAndShown "step 3 ran for 61 s") (Sample.reportedAndShown "") ∧
      seen Sample.plainly Sample.silence (Memory.of Sample.pushed) (Sample.reportedAndShown "step 3 ran for 61 s") =
        seen Sample.plainly Sample.silence (Memory.of Sample.pushed) (Sample.reportedAndShown "") :=
  have hsame := Sample.reportedAndShown_same Sample.fits_few Sample.fits_none
  ⟨hsame, messages_confined Sample.plainly Sample.silence (Memory.of Sample.pushed) hsame⟩

end Coordinator

end Pipeworks
