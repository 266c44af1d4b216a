/-
What the time limit does to a run: it cuts, and nothing else. A section is followed as it would go without a limit
(`unlimited`), call by call with the time at which each is begun and the time at which it ends. Within the limit it
goes the same way up to the call during which the limit strikes (`section_cut`); what follows the section is done in
either case (`limit_only_cuts`).
-/
import Pipeworks.Proofs.Runner.Cleanup
import Pipeworks.Proofs.Runner.Lease

namespace Pipeworks.Runner

variable {σ α : Type} {collaborators : Collaborators σ}

/-! ## Sections without a limit -/

/-- A call of a section: when it is begun, after how long it returns, and with what. -/
structure TimedCall where
  action : Action
  start : Nat
  lasting : Lasting action.Answer

namespace TimedCall

/-- When it ends, if it does. -/
def ending (c : TimedCall) : Option Nat := c.lasting.map fun (delay, _) => c.start + delay

/-- What it has answered before a time. -/
def answer (time : Nat) (c : TimedCall) : Option c.action.Answer :=
  (c.lasting.filter fun (delay, _) => c.start + delay < time).map Prod.snd

/-- What is seen of it if the limit strikes at a time. -/
def event (time : Nat) (c : TimedCall) : Program.Event Call Call.Answer := ⟨.limited c.action, c.answer time⟩

/-- What a command has written that ended before a time. -/
def output (time : Nat) (c : TimedCall) : Bytes :=
  match c.action, c.answer time with
  | .exec _ _, some (.ok result) => Text.bytes result.output
  | _, _ => []

/-- What a container is called that is asked for. -/
def container? (time : Nat) (c : TimedCall) : Option String :=
  match c.action, c.answer time with
  | .create spec, answer => some (createdName spec answer)
  | _, _ => none

section
variable {a : Action} {start time delay : Nat} {answer : a.Answer}

theorem answer_early (h : start + delay < time) :
    TimedCall.answer time ⟨a, start, some (delay, answer)⟩ = some answer := by
  rw [TimedCall.answer, Option.filter_some, if_pos (decide_eq_true h)]
  rfl

theorem answer_late (h : time ≤ start + delay) : TimedCall.answer time ⟨a, start, some (delay, answer)⟩ = none := by
  have hlate : ¬ start + delay < time := Nat.not_lt.2 h
  simp only [TimedCall.answer, Option.filter_some, hlate, decide_false, Bool.false_eq_true, if_false, Option.map_none]

end

end TimedCall

/-- The calls of a section, and its result with the time at which it is over, unless some call never returns. -/
structure Course (α : Type) where
  calls : List TimedCall
  result : Option (α × Nat)

/-- The section as it goes without a limit. -/
def unlimited (collaborators : Collaborators σ) (now commands : Nat) : Section α → σ → Course α
  | .done a, _ => ⟨[], some (a, now)⟩
  | .ask a next, s =>
    match collaborators a commands now s with
    | (none, _) => ⟨[⟨a, now, none⟩], none⟩
    | (some (delay, answer), s) =>
      let rest := unlimited collaborators (now + delay) (commands + a.commands) (next answer) s
      ⟨⟨a, now, some (delay, answer)⟩ :: rest.calls, rest.result⟩

section
variable {now commands : Nat} {p : Section α} {s : σ}

theorem le_start {c : TimedCall} (h : c ∈ (unlimited collaborators now commands p s).calls) : now ≤ c.start := by
  induction p generalizing now commands s with
  | done a => cases h
  | ask a next ih =>
    rw [unlimited] at h
    rcases hanswer : collaborators a commands now s with ⟨_ | ⟨delay, answer⟩, s₁⟩
    · rw [hanswer] at h
      rw [List.mem_singleton.1 h]
    · rw [hanswer] at h
      rcases List.mem_cons.1 h with rfl | h
      · exact Nat.le_refl _
      · have hrest := ih answer h
        omega

theorem start_le_end {a : α} {time : Nat}
    (hresult : (unlimited collaborators now commands p s).result = some (a, time)) :
    now ≤ time ∧ ∀ c ∈ (unlimited collaborators now commands p s).calls, c.start ≤ time := by
  induction p generalizing now commands s with
  | done b =>
    cases hresult
    exact ⟨Nat.le_refl _, List.forall_mem_nil _⟩
  | ask b next ih =>
    rw [unlimited] at hresult ⊢
    rcases hanswer : collaborators b commands now s with ⟨_ | ⟨delay, answer⟩, s₁⟩
    · rw [hanswer] at hresult
      cases hresult
    · rw [hanswer] at hresult
      obtain ⟨hnow, hstart⟩ := ih answer hresult
      refine ⟨by omega, ?_⟩
      intro c hc
      rcases List.mem_cons.1 hc with rfl | hc
      · show now ≤ time
        omega
      · exact hstart c hc

end

/-! ## Sections within a limit -/

namespace Course

/-- The result, if the section is over before a time. -/
def resultBefore (time : Nat) (c : Course α) : Option α :=
  (c.result.filter fun (_, ended) => ended < time).map Prod.fst

/-- The calls that are made if the limit strikes at a time: all of them where the section is over before, and else
those that are begun before. -/
def callsBefore (time : Nat) (c : Course α) : List TimedCall :=
  match c.resultBefore time with
  | some _ => c.calls
  | none => c.calls.filter fun call => call.start < time

theorem resultBefore_cons {time : Nat} {call : TimedCall} {c : Course α} :
    Course.resultBefore time ⟨call :: c.calls, c.result⟩ = c.resultBefore time := rfl

end Course

section
variable {now commands : Nat} {p : Section α} {s : σ}

theorem callsBefore_unlimited (time : Nat) :
    (unlimited collaborators now commands p s).callsBefore time =
      (unlimited collaborators now commands p s).calls.filter fun call => call.start < time := by
  rw [Course.callsBefore, Course.resultBefore]
  rcases hresult : (unlimited collaborators now commands p s).result with _ | ⟨a, ended⟩
  · rfl
  by_cases hended : ended < time
  · obtain ⟨-, hstart⟩ := start_le_end hresult
    have hall : ∀ call ∈ (unlimited collaborators now commands p s).calls, decide (call.start < time) = true := by
      intro call hcall
      have hle := hstart call hcall
      simp only [decide_eq_true_eq]
      omega
    simp only [Option.filter_some, hended, decide_true, if_true, Option.map_some, List.filter_eq_self.2 hall]
  · simp only [Option.filter_some, hended, decide_false, Bool.false_eq_true, if_false, Option.map_none]

/-- No action of a section is answered before it is begun. -/
theorem resultBefore_late {time : Nat} (h : time ≤ now) :
    (unlimited collaborators now commands p s).resultBefore time = none := by
  rw [Course.resultBefore]
  rcases hresult : (unlimited collaborators now commands p s).result with _ | ⟨a, ended⟩
  · rfl
  · have hended : ¬ ended < time := by
      have hnow := (start_le_end hresult).1
      omega
    simp only [Option.filter_some, hended, decide_false, Bool.false_eq_true, if_false, Option.map_none]

/-- Nor is any begun before the section is. -/
theorem calls_late {time : Nat} (h : time ≤ now) :
    ((unlimited collaborators now commands p s).calls.filter fun call => call.start < time) = [] := by
  refine List.filter_eq_nil_iff.2 fun call hcall => ?_
  have hstart := le_start hcall
  simp only [decide_eq_true_eq]
  omega

end

section
variable {k : Clock} {s s₁ : σ} {a : Action} {delay : Nat} {answer : a.Answer}

theorem isCut_early {deadline time : Nat} (h : time < deadline) : isCut deadline time a answer = false := by
  unfold isCut
  split <;> simp only [decide_eq_false_iff_not] <;> omega

/-- A limited action that would end later does not answer. -/
theorem limitedAnswer_late {deadline now : Nat} (h : deadline < now + delay) :
    limitedAnswer deadline now a (some (delay, answer)) = (max now deadline, none) := by
  have hcut : isCut deadline (now + delay) a answer = true := by
    unfold isCut
    split <;> simp only [decide_eq_true_eq]
    · exact Nat.le_of_lt h
    · exact h
  rw [limitedAnswer, if_pos hcut]

/-- An action of a section during which the limit strikes. -/
theorem Elapses.cutOff {t : Traces} {next : a.Answer → Section α} {lasting : Lasting a.Answer} {time : Nat}
    (hanswer : collaborators a k.commands k.now s = (lasting, s₁))
    (htime : limitedAnswer k.deadline k.now a lasting = (time, none)) :
    Elapses collaborators k s (withinLimit t (.ask a next)) [⟨.limited a, none⟩] (none, t.issued a)
      (k.after a time) s₁ := by
  unfold withinLimit
  exact .limited hanswer htime (.done _ _ _)

end

/-- Within a limit a section makes the calls that it makes before without one, each with its answer if that comes
before, and has its result if it is over before. -/
theorem section_cut {k : Clock} {s : σ} {p : Section α} (t : Traces) (hk : k.now < k.deadline)
    (hends : ∀ c ∈ (unlimited collaborators k.now k.commands p s).calls, c.ending ≠ some k.deadline) :
    let course := unlimited collaborators k.now k.commands p s
    let es := (course.callsBefore k.deadline).map (TimedCall.event k.deadline)
    ∃ k' s', Elapses collaborators k s (withinLimit t p) es (course.resultBefore k.deadline, t.after es) k' s' := by
  simp only [callsBefore_unlimited]
  induction p generalizing k s t with
  | done a =>
    have hresult : Course.resultBefore k.deadline ⟨[], some (a, k.now)⟩ = some a := by
      simp [Course.resultBefore, hk]
    rw [unlimited, hresult]
    exact ⟨k, s, .done k s _⟩
  | ask a next ih =>
    rw [unlimited] at hends ⊢
    rcases hanswer : collaborators a k.commands k.now s with ⟨_ | ⟨delay, answer⟩, s₁⟩
    -- the call never returns, and so the limit strikes during it
    · simp only [hk, List.filter_cons_of_pos, decide_true, List.filter_nil, List.map_cons, List.map_nil]
      exact ⟨_, s₁, .cutOff hanswer rfl⟩
    rw [hanswer] at hends
    obtain ⟨hfirst, hrest⟩ := List.forall_mem_cons.1 hends
    simp only [hk, List.filter_cons_of_pos, decide_true, List.map_cons]
    rcases Nat.lt_trichotomy (k.now + delay) k.deadline with hearly | hjust | hlate
    -- it ends before the limit strikes, and the section goes on
    · obtain ⟨k', s', hgoes⟩ :=
        ih answer (k := k.after a (k.now + delay)) ((t.issued a).answered a answer) hearly hrest
      rw [TimedCall.event, TimedCall.answer_early hearly]
      exact ⟨k', s', .within hanswer (isCut_early hearly) hgoes⟩
    · exact absurd (congrArg some hjust) hfirst
    -- the limit strikes during it, and every further call would be begun later
    · have hafter : k.deadline ≤ k.now + delay := Nat.le_of_lt hlate
      rw [TimedCall.event, TimedCall.answer_late hafter, calls_late hafter, Course.resultBefore_cons,
        resultBefore_late hafter]
      exact ⟨_, s₁, .cutOff hanswer (limitedAnswer_late hlate)⟩

/-! ## What a section leaves -/

theorem after_event (t : Traces) (time : Nat) (c : TimedCall) (es : Journal) :
    t.after (c.event time :: es) =
      Traces.after ⟨(c.container? time).or t.container, t.transcript ++ c.output time⟩ es := by
  obtain ⟨a, start, lasting⟩ := c
  simp only [TimedCall.event, TimedCall.container?, TimedCall.output]
  generalize TimedCall.answer time ⟨a, start, lasting⟩ = answer
  cases a with
  | create spec => rcases answer with _ | _ | name <;> simp [Traces.after, Traces.issued, Traces.answered, createdName]
  | exec container cmd => rcases answer with _ | _ | result <;> simp [Traces.after, Traces.issued, Traces.answered]
  | _ => cases answer <;> simp [Traces.after, Traces.issued, Traces.answered]

/-- Calls leave all that was written before the limit struck, and the container that was asked for last. -/
theorem after_events (t : Traces) (time : Nat) (calls : List TimedCall) :
    t.after (calls.map (TimedCall.event time)) =
      ⟨(calls.filterMap (TimedCall.container? time)).getLast?.or t.container,
        t.transcript ++ calls.flatMap (TimedCall.output time)⟩ := by
  induction calls generalizing t with
  | nil => simp [Traces.after]
  | cons c rest ih =>
    rw [List.map_cons, after_event, ih]
    cases hc : c.container? time with
    | none => simp [hc]
    | some container => simp [hc, List.getLast?_cons]

/-- A command that is begun too late writes nothing. -/
theorem output_late {time : Nat} {c : TimedCall} (h : time ≤ c.start) : c.output time = [] := by
  have hanswer : c.answer time = none := by
    obtain ⟨a, start, _ | ⟨delay, answer⟩⟩ := c
    · rfl
    · exact TimedCall.answer_late (Nat.le_add_right_of_le h)
  rw [TimedCall.output, hanswer]
  cases c.action <;> rfl

theorem output_callsBefore {time : Nat} (calls : List TimedCall) :
    (calls.filter fun call => call.start < time).flatMap (TimedCall.output time) =
      calls.flatMap (TimedCall.output time) := by
  induction calls with
  | nil => rfl
  | cons c rest ih =>
    by_cases hc : c.start < time
    · rw [List.filter_cons_of_pos (by simpa using hc), List.flatMap_cons, List.flatMap_cons, ih]
    · rw [List.filter_cons_of_neg (by simpa using hc), List.flatMap_cons, output_late (Nat.not_lt.1 hc), ih]
      rfl

/-! ## The run around the section -/

/-- The run up to its section: answers the checkout and the time, or why there is no checkout. -/
def enter (work : Work) : Run (Except String (String × Time.Instant)) := do
  let id := work.pipeline.id
  let startedAt ← act .clock
  let _ ← act (.report (.started ⟨id, startedAt⟩))
  match ← act (.openCheckout id) with
  | .error reason => pure (.error reason)
  | .ok directory =>
    let now ← act .clock
    pure (.ok (directory, now))

/-- What a run does last: it stores its transcript and reports how it ended. -/
def conclude (work : Work) (result : Except RunFault Unit) (transcript : Bytes) : Run RunSummary := do
  let id := work.pipeline.id
  let _ ← act (.upload id transcript (Transcript.byteCount transcript))
  let summary := RunSummary.ofResult result
  let finishedAt ← act .clock
  let _ ← act (.report (.finished ⟨id, finishedAt, summary.outcome, summary.error⟩))
  pure summary

/-- The run from the end of its section on, of which there are a result, unless the limit struck, and traces. -/
def leave (limit : Time.Span) (work : Work) (directory : String) (result : Option (Except RunFault Unit))
    (traces : Traces) : Run RunSummary := do
  match traces.container with
  | some container => teardown container
  | none => pure ()
  let _ ← act (.closeCheckout directory)
  conclude work (result.getD (.error (.timeout limit))) traces.transcript

theorem execute_eq (limit : Time.Span) (work : Work) (unique : String) :
    execute limit work unique = (enter work).bind fun
      | .error reason => conclude work (.error (.noCheckout reason)) []
      | .ok (directory, now) => (Program.call (Call.setLimit limit)).bind fun _ =>
        (withinLimit {} (runSection work directory unique now)).bind fun (result, traces) =>
          leave limit work directory result traces := by
  unfold execute enter
  refine congrArg (Program.ask _) (funext fun startedAt => ?_)
  refine congrArg (Program.ask _) (funext fun _ => ?_)
  refine congrArg (Program.ask _) (funext fun opened => ?_)
  cases opened with
  | error reason => rfl
  | ok directory =>
    refine congrArg (Program.ask _) (funext fun now => ?_)
    refine congrArg (Program.ask _) (funext fun _ => ?_)
    refine (Program.bind_assoc (withinLimit {} _) _ _).trans (congrArg (Program.bind _) ?_)
    refine funext fun ⟨result, traces⟩ => ?_
    unfold leave
    dsimp only
    cases traces.container <;> rfl

/-! ## The whole run -/

/-- What a run waits for however long it takes. -/
def Action.isAwaited : Action → Bool
  | .report (.output _) => false
  | .report _ => true
  | a => a.isAside

/-- Whatever a run waits for comes back. -/
def Attended (collaborators : Collaborators σ) : Prop :=
  ∀ a : Action, a.isAwaited → ∀ commands now s, ∃ delay answer s',
    collaborators a commands now s = (some (delay, answer), s')

/-- A container is stopped and removed, if there is one. -/
def TornDown : Option String → Journal → Prop
  | none, es => es = []
  | some container, es =>
    ∃ stopped removed, es = [⟨.plain (.stop container), stopped⟩, ⟨.plain (.remove container), removed⟩]

section
variable (hattended : Attended collaborators)

include hattended

theorem Attended.act {a : Action} (ha : a.isAwaited) (k : Clock) (s : σ) :
    ∃ answer k' s', ∀ {f : a.Answer → Run α} {es : Journal} {b : α} {k'' : Clock} {s'' : σ},
      Elapses collaborators k' s' (f answer) es b k'' s'' →
      Elapses collaborators k s (Runner.act a >>= f) (⟨.plain a, answer⟩ :: es) b k'' s'' := by
  obtain ⟨delay, answer, s', hanswer⟩ := hattended a ha k.commands k.now s
  exact ⟨answer, k.after a (k.now + delay), s', fun hrest => .act hanswer hrest⟩

theorem conclude_elapses (work : Work) (result : Except RunFault Unit) (transcript : Bytes) (k : Clock) (s : σ) :
    ∃ uploaded finishedAt finished k' s',
      Elapses collaborators k s (conclude work result transcript)
        (closing work.pipeline.id transcript uploaded finishedAt (.ofResult result) finished) (.ofResult result)
        k' s' := by
  obtain ⟨uploaded, k₁, s₁, hupload⟩ :=
    Attended.act (α := RunSummary) hattended (a := .upload work.pipeline.id transcript (Transcript.byteCount transcript)) rfl k s
  obtain ⟨finishedAt, k₂, s₂, hclock⟩ := Attended.act (α := RunSummary) hattended (a := .clock) rfl k₁ s₁
  let summary := RunSummary.ofResult result
  obtain ⟨finished, k₃, s₃, hreport⟩ := Attended.act (α := RunSummary) hattended
    (a := .report (.finished ⟨work.pipeline.id, finishedAt, summary.outcome, summary.error⟩)) rfl k₂ s₂
  exact ⟨uploaded, finishedAt, finished, k₃, s₃, hupload (hclock (hreport (.done _ _ _)))⟩

theorem leave_elapses (limit : Time.Span) (work : Work) (directory : String) (result : Option (Except RunFault Unit))
    (traces : Traces) (k : Clock) (s : σ) :
    let summary := RunSummary.ofResult (result.getD (.error (.timeout limit)))
    ∃ down closed uploaded finishedAt finished k' s',
      TornDown traces.container down ∧
      Elapses collaborators k s (leave limit work directory result traces)
        (down ++ ⟨.plain (.closeCheckout directory), closed⟩ ::
          closing work.pipeline.id traces.transcript uploaded finishedAt summary finished) summary k' s' := by
  intro summary
  unfold leave
  cases traces.container with
  | none =>
    obtain ⟨closed, k₁, s₁, hclose⟩ :=
      Attended.act (α := RunSummary) hattended (a := .closeCheckout directory) rfl k s
    obtain ⟨uploaded, finishedAt, finished, k', s', hend⟩ :=
      conclude_elapses hattended work (result.getD (.error (.timeout limit))) traces.transcript k₁ s₁
    exact ⟨[], closed, uploaded, finishedAt, finished, k', s', rfl, hclose hend⟩
  | some container =>
    obtain ⟨stopped, k₁, s₁, hstop⟩ := Attended.act (α := RunSummary) hattended (a := .stop container) rfl k s
    obtain ⟨removed, k₂, s₂, hremove⟩ := Attended.act (α := RunSummary) hattended (a := .remove container) rfl k₁ s₁
    obtain ⟨closed, k₃, s₃, hclose⟩ :=
      Attended.act (α := RunSummary) hattended (a := .closeCheckout directory) rfl k₂ s₂
    obtain ⟨uploaded, finishedAt, finished, k', s', hend⟩ :=
      conclude_elapses hattended work (result.getD (.error (.timeout limit))) traces.transcript k₃ s₃
    exact ⟨_, closed, uploaded, finishedAt, finished, k', s', ⟨stopped, removed, rfl⟩,
      hstop (hremove (hclose hend))⟩

end

/-- The limit only cuts. Let a section go as it would without a limit, and no call of it end just when the limit
strikes. If it is over before, the run makes the same calls and has the same result. If not, the run makes the calls
that are begun before, and its result is that it timed out. In either case the transcript is what those commands
have written that ended before; the container is removed, if one was asked for, the transcript is stored, and the end
is reported. -/
theorem limit_only_cuts {limit : Time.Span} {work : Work} {unique directory : String} {now : Time.Instant}
    {k k₁ : Clock} {s s₁ : σ} {opened : Journal} (hattended : Attended collaborators) (hlimit : 0 < limit.nanos)
    (hbegun : Elapses collaborators k s (enter work) opened (.ok (directory, now)) k₁ s₁)
    (hends : ∀ c ∈ (unlimited collaborators k₁.now k₁.commands (runSection work directory unique now) s₁).calls,
      c.ending ≠ some (k₁.now + millis limit)) :
    let course := unlimited collaborators k₁.now k₁.commands (runSection work directory unique now) s₁
    let deadline := k₁.now + millis limit
    let calls := course.callsBefore deadline
    let transcript := course.calls.flatMap (TimedCall.output deadline)
    let summary := RunSummary.ofResult ((course.resultBefore deadline).getD (.error (.timeout limit)))
    ∃ down closed uploaded finishedAt finished k' s',
      TornDown (calls.filterMap (TimedCall.container? deadline)).getLast? down ∧
      Elapses collaborators k s (execute limit work unique)
        (opened ++ ⟨.setLimit limit, ()⟩ :: (calls.map (TimedCall.event deadline) ++
          (down ++ ⟨.plain (.closeCheckout directory), closed⟩ ::
            closing work.pipeline.id transcript uploaded finishedAt summary finished))) summary k' s' := by
  intro course deadline calls transcript summary
  have hpositive : k₁.now < k₁.now + millis limit := by
    unfold millis
    omega
  obtain ⟨k₂, s₂, hsection⟩ :=
    section_cut (k := { k₁ with deadline := k₁.now + millis limit }) {} hpositive hends
  have htraces : Traces.after {} (calls.map (TimedCall.event deadline)) =
      ⟨(calls.filterMap (TimedCall.container? deadline)).getLast?, transcript⟩ := by
    rw [after_events]
    simp [calls, course, transcript, callsBefore_unlimited, output_callsBefore]
  obtain ⟨down, closed, uploaded, finishedAt, finished, k', s', hdown, hleave⟩ :=
    leave_elapses hattended limit work directory (course.resultBefore deadline)
      ⟨(calls.filterMap (TimedCall.container? deadline)).getLast?, transcript⟩ k₂ s₂
  refine ⟨down, closed, uploaded, finishedAt, finished, k', s', hdown, ?_⟩
  rw [execute_eq]
  refine hbegun.bind (.setLimit (hsection.bind ?_))
  have hafter : Traces.after {} ((course.callsBefore (k₁.now + millis limit)).map
      (TimedCall.event (k₁.now + millis limit))) = _ := htraces
  dsimp only
  rw [hafter]
  exact hleave

namespace Sample

def twoSteps : Definition := ⟨"b", "a", [⟨"t", [["make"], ["make test"]]⟩]⟩

def twoStepsFile : DefinitionFile := .content (Text.bytes "name: b\nimage: a\njobs: \x7bt: [make, make test]\x7d")

theorem twoSteps_read : twoStepsFile.read = .ok twoSteps := by
  have hread : twoStepsFile.read.toOption = some twoSteps := by decide +kernel
  cases hfile : twoStepsFile.read with
  | error f => rw [hfile] at hread; cases hread
  | ok d => rw [hfile] at hread; exact congrArg Except.ok (Option.some.inj hread)

/-- A fetch that takes a while, a command of 20 ms, and one of 40 ms that fails. -/
def unhurried : Collaborators Unit := fun a commands now s =>
  match a with
  | .fetch _ _ _ _ => (some (300, .ok twoStepsFile), ())
  | .exec _ _ => (some (if commands = 0 then (20, .ok ⟨"ab\n", 0⟩) else (40, .ok ⟨"no rule\n", 2⟩)), ())
  | a => stalled 0 midnight a commands now s

theorem attended : Attended unhurried := by
  rintro a - commands now s
  cases a <;> exact ⟨_, _, _, rfl⟩

theorem entered : Elapses unhurried ⟨0, 0, 0⟩ () (enter work)
    (opening 1 midnight (.ok ()) ++ [⟨.plain (.openCheckout 1), (.ok "checkout" : Except String String)⟩, ⟨.plain .clock, midnight⟩])
    (.ok ("checkout", midnight)) ⟨0, 0, 0⟩ () :=
  .act rfl (.act rfl (.act rfl (.act rfl (.done _ _ _))))

/-- The section without a limit. -/
def course : Course (Except RunFault Unit) :=
  let spec := containerOf work "checkout" "a1" twoSteps
  ⟨[⟨fetching work "checkout", 0, some (300, .ok twoStepsFile)⟩, ⟨.pull "a", 300, some (0, .ok ())⟩,
    ⟨.create spec, 300, some (0, .ok spec.name)⟩, ⟨.start spec.name, 300, some (0, .ok ())⟩,
    ⟨.exec spec.name "make", 300, some (20, .ok ⟨"ab\n", 0⟩)⟩,
    ⟨.report (.output ⟨1, 0, "make", "ab\n", 0⟩), 320, some (0, .ok ())⟩,
    ⟨.exec spec.name "make test", 320, some (40, .ok ⟨"no rule\n", 2⟩)⟩,
    ⟨.report (.output ⟨1, 1, "make test", "no rule\n", 2⟩), 360, some (0, .ok ())⟩],
    some (.error (.commandFailed 1 "make test" 2), 360)⟩

theorem unlimited_course : unlimited unhurried 0 0 (runSection work "checkout" "a1" midnight) () = course := by
  have hvalid : work.token.isExpiredAt midnight = false := rfl
  unfold runSection
  rw [hvalid, if_neg Bool.false_ne_true, unlimited]
  simp only [unhurried, twoSteps_read]
  rfl

end Sample

/-- A limit that strikes during the second command leaves what the first has written; one that strikes later leaves
the run as it is. -/
theorem limit_only_cuts_second_command :
    (∃ es k' s', Elapses Sample.unhurried ⟨0, 0, 0⟩ () (execute (.ofMillis 340) Sample.work "a1") es
        ⟨.failure, some ⟨.timeout, "pipeline timed out after 340ms"⟩⟩ k' s' ∧
      (∃ size uploaded, ⟨.plain (.upload 1 (Text.bytes "ab\n") size), uploaded⟩ ∈ es) ∧
      ∃ removed, ⟨.plain (.remove "kiln-1-a1"), removed⟩ ∈ es) ∧
    ∃ es k' s', Elapses Sample.unhurried ⟨0, 0, 0⟩ () (execute (.ofMillis 400) Sample.work "a1") es
        ⟨.failure, some ⟨.execution, "command 1 \x60make test\x60 exited with code 2"⟩⟩ k' s' ∧
      ∃ size uploaded, ⟨.plain (.upload 1 (Text.bytes "ab\nno rule\n") size), uploaded⟩ ∈ es := by
  have hcourse : unlimited Sample.unhurried (Clock.now ⟨0, 0, 0⟩) (Clock.commands ⟨0, 0, 0⟩)
    (runSection Sample.work "checkout" "a1" Sample.midnight) () = Sample.course := Sample.unlimited_course
  constructor
  · have hlimit : 0 < (Time.Span.ofMillis 340).nanos := by decide
    have hends : ∀ c ∈ Sample.course.calls, c.ending ≠ some (Clock.now ⟨0, 0, 0⟩ + millis (.ofMillis 340)) := by decide
    have hcuts := limit_only_cuts Sample.attended hlimit Sample.entered (hcourse ▸ hends)
    have hdeadline : Clock.now ⟨0, 0, 0⟩ + millis (.ofMillis 340) = 340 := rfl
    have hcontainer : ((Sample.course.callsBefore 340).filterMap (TimedCall.container? 340)).getLast? =
      some "kiln-1-a1" := by decide +kernel
    have hwritten : Sample.course.calls.flatMap (TimedCall.output 340) = Text.bytes "ab\n" := by decide +kernel
    have hresult : Sample.course.resultBefore 340 = none := rfl
    have hsummary : RunSummary.ofResult (.error (.timeout (.ofMillis 340))) =
      ⟨.failure, some ⟨.timeout, "pipeline timed out after 340ms"⟩⟩ := by decide +kernel
    simp only [hcourse, hdeadline, hcontainer, hwritten, hresult, Option.getD_none, hsummary] at hcuts
    obtain ⟨-, closed, uploaded, finishedAt, finished, k', s', ⟨stopped, removed, rfl⟩, hrun⟩ := hcuts
    refine ⟨_, k', s', hrun, ⟨Transcript.byteCount (Text.bytes "ab\n"), uploaded, ?_⟩, ⟨removed, ?_⟩⟩
    · simp [closing, Sample.work]
    · simp
  · have hlimit : 0 < (Time.Span.ofMillis 400).nanos := by decide
    have hends : ∀ c ∈ Sample.course.calls, c.ending ≠ some (Clock.now ⟨0, 0, 0⟩ + millis (.ofMillis 400)) := by decide
    have hcuts := limit_only_cuts Sample.attended hlimit Sample.entered (hcourse ▸ hends)
    have hdeadline : Clock.now ⟨0, 0, 0⟩ + millis (.ofMillis 400) = 400 := rfl
    have hwritten : Sample.course.calls.flatMap (TimedCall.output 400) = Text.bytes "ab\nno rule\n" := by
      decide +kernel
    have hresult : Sample.course.resultBefore 400 = some (.error (.commandFailed 1 "make test" 2)) := rfl
    have hsummary : RunSummary.ofResult (.error (.commandFailed 1 "make test" 2)) =
      ⟨.failure, some ⟨.execution, "command 1 \x60make test\x60 exited with code 2"⟩⟩ := by decide +kernel
    simp only [hcourse, hdeadline, hwritten, hresult, Option.getD_some, hsummary] at hcuts
    obtain ⟨down, closed, uploaded, finishedAt, finished, k', s', -, hrun⟩ := hcuts
    refine ⟨_, k', s', hrun, Transcript.byteCount (Text.bytes "ab\nno rule\n"), uploaded, ?_⟩
    simp [closing, Sample.work]

end Pipeworks.Runner
