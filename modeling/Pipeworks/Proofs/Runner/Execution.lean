/-
The ways of an execution from its first report to its last, whoever answers and whatever the answers
are: `InCheckout` for the part with a checkout and `Executed` for the whole. The paths of an execution are
just these ways (`executed_of_path`, `path_of_executed`), and every run takes one (`executed_trace`).
-/
import Pipeworks.Proofs.Runner.Section

namespace Pipeworks.Runner

open Program (Path path_done_iff path_call_bind_iff path_bind_iff)

variable {α : Type} {es : Journal}

theorem path_act_bind {a : Action} {f : a.Answer → Run α} {r : α} :
    Path (act a >>= f) es r ↔ ∃ answer rest, es = ⟨.plain a, answer⟩ :: rest ∧ Path (f answer) rest r :=
  path_call_bind_iff

/-! ## The checkout -/

/-- The calls up to the section that has a limit. -/
def entering (limit : Time.Span) (id : Int64) (directory : String) (now : Time.Instant) : Journal :=
  [⟨.plain (.openCheckout id), (.ok directory : Except String String)⟩, ⟨.plain .clock, now⟩, ⟨.setLimit limit, ()⟩]

/-- The ways to run work in a checkout: the calls, the result and the transcript. The container that may
exist is stopped and removed before the checkout is closed. -/
inductive InCheckout (limit : Time.Span) (work : Work) (unique : String) :
    Journal → Except RunFault Unit → Bytes → Prop
  | noCheckout (reason : String) :
      InCheckout limit work unique [⟨.plain (.openCheckout work.pipeline.id), .error reason⟩]
        (.error (.noCheckout reason)) []
  | noContainer (directory : String) (now : Time.Instant) (closed : Except String Unit) {es : Journal}
      {r : Option (Except RunFault Unit)} {t : Traces} :
      Path (withinLimit {} (runSection work directory unique now)) es (r, t) → t.container = none →
      InCheckout limit work unique
        (entering limit work.pipeline.id directory now ++
          (es ++ [⟨.plain (.closeCheckout directory), closed⟩]))
        (r.getD (.error (.timeout limit))) t.transcript
  | tornDown (directory : String) (now : Time.Instant) (stopped removed closed : Except String Unit)
      {es : Journal} {r : Option (Except RunFault Unit)} {t : Traces} {container : String} :
      Path (withinLimit {} (runSection work directory unique now)) es (r, t) →
      t.container = some container →
      InCheckout limit work unique
        (entering limit work.pipeline.id directory now ++ (es ++ [⟨.plain (.stop container), stopped⟩,
          ⟨.plain (.remove container), removed⟩, ⟨.plain (.closeCheckout directory), closed⟩]))
        (r.getD (.error (.timeout limit))) t.transcript

theorem inCheckout_of_path {limit : Time.Span} {work : Work} {unique : String}
    {r : Except RunFault Unit} {transcript : Bytes}
    (h : Path (runInCheckout limit work unique) es (r, transcript)) :
    InCheckout limit work unique es r transcript := by
  obtain ⟨opened, rest, rfl, hopened⟩ := path_act_bind.1 h
  cases opened with
  | error reason =>
    obtain ⟨rfl, hr⟩ := path_done_iff.1 hopened
    cases hr
    exact .noCheckout reason
  | ok directory =>
    obtain ⟨now, rest, rfl, hnow⟩ := path_act_bind.1 hopened
    obtain ⟨⟨⟩, rest, rfl, hlimit⟩ := path_call_bind_iff.1 hnow
    obtain ⟨front, back, ⟨result, traces⟩, rfl, hs, hback⟩ := path_bind_iff.1 hlimit
    dsimp only at hback
    split at hback
    case h_1 container hc =>
      obtain ⟨stopped, rest, rfl, hstop⟩ := path_act_bind.1 hback
      obtain ⟨removed, rest, rfl, hremove⟩ := path_act_bind.1 hstop
      obtain ⟨closed, rest, rfl, hclose⟩ := path_act_bind.1 hremove
      obtain ⟨rfl, hr⟩ := path_done_iff.1 hclose
      cases hr
      exact .tornDown directory now stopped removed closed hs hc
    case h_2 hc =>
      obtain ⟨closed, rest, rfl, hclose⟩ := path_act_bind.1 hback
      obtain ⟨rfl, hr⟩ := path_done_iff.1 hclose
      cases hr
      exact .noContainer directory now closed hs hc

theorem path_of_inCheckout {limit : Time.Span} {work : Work} {unique : String}
    {r : Except RunFault Unit} {transcript : Bytes} (h : InCheckout limit work unique es r transcript) :
    Path (runInCheckout limit work unique) es (r, transcript) := by
  refine path_act_bind.2 ?_
  cases h with
  | noCheckout reason => exact ⟨.error reason, [], rfl, .done _⟩
  | @noContainer directory now closed es r t hs hc =>
    refine ⟨.ok directory, _, rfl, path_act_bind.2 ⟨now, _, rfl, path_call_bind_iff.2 ⟨(), _, rfl,
      path_bind_iff.2 ⟨es, _, _, rfl, hs, ?_⟩⟩⟩⟩
    simp only [hc]
    exact path_act_bind.2 ⟨closed, [], rfl, .done _⟩
  | @tornDown directory now stopped removed closed es r t container hs hc =>
    refine ⟨.ok directory, _, rfl, path_act_bind.2 ⟨now, _, rfl, path_call_bind_iff.2 ⟨(), _, rfl,
      path_bind_iff.2 ⟨es, _, _, rfl, hs, ?_⟩⟩⟩⟩
    simp only [hc]
    exact path_act_bind.2 ⟨stopped, _, rfl, path_act_bind.2 ⟨removed, _, rfl,
      path_act_bind.2 ⟨closed, [], rfl, .done _⟩⟩⟩

/-! ## The whole execution -/

/-- The calls before the checkout. -/
def opening (id : Int64) (startedAt : Time.Instant) (started : Except String Unit) : Journal :=
  [⟨.plain .clock, startedAt⟩, ⟨.plain (.report (.started ⟨id, startedAt⟩)), started⟩]

/-- The calls after the checkout. -/
def closing (id : Int64) (transcript : Bytes) (uploaded : Except Transcript.Fault Unit)
    (finishedAt : Time.Instant) (summary : RunSummary) (finished : Except String Unit) : Journal :=
  [⟨.plain (.upload id transcript (Transcript.byteCount transcript)), uploaded⟩, ⟨.plain .clock, finishedAt⟩,
    ⟨.plain (.report (.finished ⟨id, finishedAt, summary.outcome, summary.error⟩)), finished⟩]

/-- The ways of an execution: the calls and the summary. -/
inductive Executed (limit : Time.Span) (work : Work) (unique : String) : Journal → RunSummary → Prop
  | mk (startedAt finishedAt : Time.Instant) (started finished : Except String Unit)
      (uploaded : Except Transcript.Fault Unit) {es : Journal} {r : Except RunFault Unit}
      {transcript : Bytes} :
      InCheckout limit work unique es r transcript →
      Executed limit work unique
        (opening work.pipeline.id startedAt started ++ (es ++
          closing work.pipeline.id transcript uploaded finishedAt (RunSummary.ofResult r) finished))
        (RunSummary.ofResult r)

theorem executed_of_path {limit : Time.Span} {work : Work} {unique : String} {summary : RunSummary}
    (h : Path (execute limit work unique) es summary) : Executed limit work unique es summary := by
  obtain ⟨startedAt, rest, rfl, hclock⟩ := path_act_bind.1 h
  obtain ⟨started, rest, rfl, hstarted⟩ := path_act_bind.1 hclock
  obtain ⟨front, back, ⟨r, transcript⟩, rfl, hcheckout, hback⟩ := path_bind_iff.1 hstarted
  obtain ⟨uploaded, rest, rfl, hupload⟩ := path_act_bind.1 hback
  obtain ⟨finishedAt, rest, rfl, hend⟩ := path_act_bind.1 hupload
  obtain ⟨finished, rest, rfl, hfinished⟩ := path_act_bind.1 hend
  obtain ⟨rfl, rfl⟩ := path_done_iff.1 hfinished
  exact .mk startedAt finishedAt started finished uploaded (inCheckout_of_path hcheckout)

theorem path_of_executed {limit : Time.Span} {work : Work} {unique : String} {summary : RunSummary}
    (h : Executed limit work unique es summary) : Path (execute limit work unique) es summary := by
  cases h with
  | @mk startedAt finishedAt started finished uploaded es r transcript hc =>
    exact path_act_bind.2 ⟨startedAt, _, rfl, path_act_bind.2 ⟨started, _, rfl,
      path_bind_iff.2 ⟨es, _, _, rfl, path_of_inCheckout hc, path_act_bind.2 ⟨uploaded, _, rfl,
        path_act_bind.2 ⟨finishedAt, _, rfl, path_act_bind.2 ⟨finished, [], rfl, .done _⟩⟩⟩⟩⟩⟩

theorem executed_trace (limit : Time.Span) (work : Work) (unique : String) {σ : Type}
    (world : Program.Handler Call Call.Answer σ) (s : σ) :
    Executed limit work unique ((execute limit work unique).trace world s)
      ((execute limit work unique).run world s).1 :=
  executed_of_path (Program.path_trace world _ s)

end Pipeworks.Runner
