/-
The same work is run again and again: runs are killed anywhere and begun anew, side by side, while their
reports reach the coordinator, of whose calls any may fail. What is recorded of the pipeline is told by some
run (`recorded_of_redelivery`). The log keeps the first report about each command and the status the first end
that was told, so the two may come from different runs; they are as of one run if all runs agree.
-/
import Mathlib.Logic.Relation
import Pipeworks.Proofs.Coordinator.Forward
import Pipeworks.Proofs.Coordinator.Memory
import Pipeworks.Proofs.Runner.Unfinished
import Pipeworks.Proofs.Storage.Log

namespace Pipeworks.Redelivery

open Coordinator (Setup World Flight)
open Runner (Journal FailFast)

/-! ## Runs and the coordinator -/

/-- A run of the work: the calls it has made, and what is left of it. -/
structure Attempt where
  journal : Journal := []
  rest : Runner.Run Runner.RunSummary

structure State where
  world : World
  attempts : List Attempt := []

/-- A report reaches the coordinator. -/
def arrived (setup : Setup) (r : Report) (w : World) : World :=
  { w with flights := w.flights ++ [⟨.report r, Coordinator.hear setup r⟩] }

inductive Step (setup : Setup) (work : Work) : State → State → Prop
  /-- The work is delivered, for the first time or again. -/
  | delivered {s : State} (limit : Time.Span) (unique : String) :
      Step setup work s { s with attempts := s.attempts ++ [⟨[], Runner.execute limit work unique⟩] }
  /-- A run makes its next call, whatever comes of it. One that is killed makes no more. -/
  | goesOn {s : State} {front back : List Attempt} {es : Journal} {c : Runner.Call}
      {next : c.Answer → Runner.Run Runner.RunSummary} (answer : c.Answer) :
      s.attempts = front ++ ⟨es, .ask c next⟩ :: back →
      Step setup work s { s with attempts := front ++ ⟨es ++ [⟨c, answer⟩], next answer⟩ :: back }
  /-- The next call of a run is a report, and it reaches the coordinator. -/
  | reports {s : State} {front back : List Attempt} {es : Journal} {c : Runner.Call}
      {next : c.Answer → Runner.Run Runner.RunSummary} {r : Report} (answer : c.Answer) :
      s.attempts = front ++ ⟨es, .ask c next⟩ :: back → c.report? = some r →
      Step setup work s
        ⟨arrived setup r s.world, front ++ ⟨es ++ [⟨c, answer⟩], next answer⟩ :: back⟩
  /-- The coordinator goes on, with these reports and with what does not concern the pipeline. -/
  | serves {s : State} {w : World} :
      Coordinator.Step setup (fun _ t => t.about? ≠ some work.pipeline.id) Coordinator.MayAnswer s.world w →
      Step setup work s { s with world := w }

/-! ## What is recorded -/

/-- A run has made the report. -/
def Reported (attempts : List Attempt) (r : Report) : Prop := ∃ a ∈ attempts, r ∈ a.journal.reports

/-- The runs fetch the same commands, and a command fails in all of them or in none. -/
structure Agree (attempts : List Attempt) : Prop where
  commands : ∀ a ∈ attempts, ∀ b ∈ attempts, ∀ cmds cmds', a.journal.declared = some cmds →
    b.journal.declared = some cmds' → cmds = cmds'
  results : ∀ r r', Reported attempts (.output r) → Reported attempts (.output r') → r.order = r'.order →
    r.exitCode = 0 → r'.exitCode = 0

/-- The record of a pipeline is one that a single run can leave. -/
structure Consistent (id : Int64) (s : MemoryStorage) : Prop where
  oneFailed : (s.logsOf id).countP (fun e => e.exitCode != 0) ≤ 1
  nothingAfter : ∀ e ∈ s.logsOf id, ∀ f ∈ s.logsOf id, e.exitCode ≠ 0 → f.order ≤ e.order
  success : ∀ p ∈ s.pipelines, p.id = id → p.status = .success → ∀ e ∈ s.logsOf id, e.exitCode = 0

/-- What the record of a pipeline says of the runs. -/
structure Recorded (id : Int64) (attempts : List Attempt) (s : MemoryStorage) : Prop where
  /-- Each run by itself stops at the first command that fails. -/
  runs : ∀ a ∈ attempts, FailFast id a.journal
  entries : ∀ e ∈ s.logsOf id, ∃ r, Reported attempts (.output r) ∧ e = r.logEntry
  inOrder : (s.logsOf id).Pairwise fun e f => e.order < f.order
  /-- Where the pipeline has succeeded, so has a run, with all commands. -/
  success : ∀ p ∈ s.pipelines, p.id = id → p.status = .success → ∃ a ∈ attempts, a.journal.ToldAll
  consistent : Agree attempts → Consistent id s

/-! ## Calls that runs account for -/

section
variable {setup : Setup} {work : Work} {id : Int64} {attempts : List Attempt} {s s' : State}
  {front back : List Attempt} {es : Journal} {c : Runner.Call} {next : c.Answer → Runner.Run Runner.RunSummary}

/-- An entry or a success of the pipeline that a call would keep was told by a run. -/
def Backed (id : Int64) (attempts : List Attempt) : Coordinator.Call → Prop
  | .storage (.addLog e) => e.pipelineId = id → ∃ r, Reported attempts (.output r) ∧ e = r.logEntry
  | .storage (.finish i status _) =>
    i = id → status = .success → ∃ r, Reported attempts (.finished r) ∧ r.outcome = .success
  | _ => True

theorem Backed.mono {attempts' : List Attempt} (h : ∀ r, Reported attempts r → Reported attempts' r) :
    ∀ c, Backed id attempts c → Backed id attempts' c := by
  intro c hc
  cases c with
  | storage c =>
    cases c with
    | addLog e =>
      intro hid
      obtain ⟨r, hr, heq⟩ := hc hid
      exact ⟨r, h _ hr, heq⟩
    | finish i status t =>
      intro hid hstatus
      obtain ⟨r, hr, houtcome⟩ := hc hid hstatus
      exact ⟨r, h _ hr, houtcome⟩
    | _ => trivial
  | _ => trivial

theorem publish_backed (i : Int64) (status : Status) (description : String) :
    (Coordinator.publish setup i status description).Only (Backed id attempts) := by
  refine ⟨trivial, fun answer => ?_⟩
  rcases answer with f | (_ | info)
  · trivial
  · trivial
  · dsimp only [Program.bind_done]
    split
    · trivial
    · exact ⟨trivial, fun _ => trivial⟩

theorem skip_backed (i : Int64) : (Coordinator.skip i).Only (Backed id attempts) := by
  refine ⟨trivial, fun answer => ?_⟩
  rcases answer with f | (_ | p) <;> trivial

/-- What is heard of a run, or of another pipeline, is accounted for. -/
theorem hear_backed (r : Report) (hr : r.pipelineId = id → Reported attempts r) :
    (Coordinator.hear setup r).Only (Backed id attempts) := by
  cases r with
  | started r =>
    refine ⟨trivial, fun answer => ?_⟩
    rcases answer with f | (_ | _)
    · trivial
    · exact skip_backed _
    · exact publish_backed _ _ _
  | output r =>
    refine ⟨trivial, fun answer => ?_⟩
    rcases answer with f | (_ | p)
    · trivial
    · trivial
    · refine ⟨fun hid => ⟨r, hr hid, rfl⟩, fun answer => ?_⟩
      rcases answer with f | added <;> trivial
  | finished r =>
    refine ⟨fun hid hstatus => ⟨r, hr hid, ?_⟩, fun answer => ?_⟩
    · cases houtcome : r.outcome with
      | success => rfl
      | failure =>
        rw [houtcome] at hstatus
        cases hstatus
    · rcases answer with f | (_ | _)
      · trivial
      · exact skip_backed _
      · exact publish_backed _ _ _

/-- A delivery by a provider keeps no entry and no success. -/
theorem accept_backed (name : String) (headers : Http.Headers) (body : Bytes) :
    (Coordinator.accept setup name headers body).Only (Backed id attempts) := by
  unfold Coordinator.accept
  split
  · trivial
  split
  case isFalse => trivial
  split
  any_goals trivial
  refine ⟨trivial, fun answer => ?_⟩
  rcases answer with f | (_ | info)
  · trivial
  · trivial
  dsimp only [Program.bind_done]
  split
  · trivial
  refine ⟨trivial, fun answer => ?_⟩
  rcases answer with f | p
  · trivial
  refine ⟨trivial, fun answer => ?_⟩
  rcases answer with f | _
  · exact ⟨trivial, fun _ => trivial⟩
  · exact ⟨trivial, fun _ => trivial⟩

/-! ## Every step -/

/-- What is kept, and what the services in flight may keep, was told by runs of the work. -/
structure Told (work : Work) (s : State) : Prop where
  underway : ∀ a ∈ s.attempts, ∃ limit unique, Runner.Underway (Runner.execute limit work unique) a.journal a.rest
  flights : ∀ f ∈ s.world.flights, f.rest.Only (Backed work.pipeline.id s.attempts)
  inOrder : MemoryStorage.LogInOrder s.world.storage.logs
  entries : ∀ e ∈ s.world.storage.logs, e.pipelineId = work.pipeline.id →
    ∃ r, Reported s.attempts (.output r) ∧ e = r.logEntry
  success : ∀ p ∈ s.world.storage.pipelines, p.id = work.pipeline.id → p.status = .success →
    ∃ r, Reported s.attempts (.finished r) ∧ r.outcome = .success

/-- A storage in which nothing is recorded of the pipeline. -/
structure Blank (id : Int64) (s : MemoryStorage) : Prop where
  inOrder : MemoryStorage.LogInOrder s.logs
  noEntry : ∀ e ∈ s.logs, e.pipelineId ≠ id
  noSuccess : ∀ p ∈ s.pipelines, p.id = id → p.status ≠ .success

theorem Told.start {storage : MemoryStorage} (h : Blank work.pipeline.id storage) :
    Told work { world := { storage } } where
  underway := List.forall_mem_nil _
  flights := List.forall_mem_nil _
  inOrder := h.inOrder
  entries := fun e he hid => absurd hid (h.noEntry e he)
  success := fun p hp hid hsuccess => absurd hsuccess (h.noSuccess p hp hid)

/-- Runs may go on, and more may begin. -/
theorem Told.mono {attempts : List Attempt} (h : Told work s)
    (hunderway : ∀ a ∈ attempts, ∃ limit unique,
      Runner.Underway (Runner.execute limit work unique) a.journal a.rest)
    (hmore : ∀ r, Reported s.attempts r → Reported attempts r) : Told work { s with attempts } where
  underway := hunderway
  flights := fun f hf => (h.flights f hf).mono (Backed.mono hmore)
  inOrder := h.inOrder
  entries := fun e he hid => by
    obtain ⟨r, hr, heq⟩ := h.entries e he hid
    exact ⟨r, hmore _ hr, heq⟩
  success := fun p hp hid hsuccess => by
    obtain ⟨r, hr, houtcome⟩ := h.success p hp hid hsuccess
    exact ⟨r, hmore _ hr, houtcome⟩

theorem Told.delivered (h : Told work s) (limit : Time.Span) (unique : String) :
    Told work { s with attempts := s.attempts ++ [⟨[], Runner.execute limit work unique⟩] } := by
  refine h.mono (fun a ha => ?_) fun r ⟨a, ha, hr⟩ => ⟨a, List.mem_append_left _ ha, hr⟩
  rcases List.mem_append.1 ha with ha | ha
  · exact h.underway a ha
  · rw [List.mem_singleton.1 ha]
    -- a run that has made no call yet
    exact ⟨limit, unique, .start _⟩

/-- A run has made its next call, and with it the report that the call may be. -/
theorem Told.goesOn (h : Told work s) (hattempts : s.attempts = front ++ ⟨es, .ask c next⟩ :: back)
    (answer : c.Answer) :
    Told work { s with attempts := front ++ ⟨es ++ [⟨c, answer⟩], next answer⟩ :: back } ∧
      ∀ r, c.report? = some r → Reported (front ++ ⟨es ++ [⟨c, answer⟩], next answer⟩ :: back) r := by
  have hold := h.underway
  rw [hattempts, List.forall_mem_append, List.forall_mem_cons] at hold
  obtain ⟨hfront, ⟨limit, unique, hrest⟩, hback⟩ := hold
  refine ⟨h.mono ?_ fun r ⟨a, ha, hr⟩ => ?_, fun r hr => ?_⟩
  · exact List.forall_mem_append.2
      ⟨hfront, List.forall_mem_cons.2 ⟨⟨limit, unique, hrest.goes answer⟩, hback⟩⟩
  · rw [hattempts] at ha
    rcases List.mem_append.1 ha with ha | ha
    · exact ⟨a, List.mem_append_left _ ha, hr⟩
    rcases List.mem_cons.1 ha with rfl | ha
    · refine ⟨_, List.mem_append_right _ List.mem_cons_self, ?_⟩
      rw [Journal.reports_append]
      exact List.mem_append_left _ hr
    · exact ⟨a, List.mem_append_right _ (List.mem_cons_of_mem _ ha), hr⟩
  · refine ⟨_, List.mem_append_right _ List.mem_cons_self, ?_⟩
    rw [Journal.reports_append]
    exact List.mem_append_right _ (List.mem_filterMap.2 ⟨_, List.mem_singleton_self _, hr⟩)

/-- A report reaches the coordinator, about another pipeline or made by a run. -/
theorem Told.begins {t : Coordinator.Task} (h : Told work s)
    (ht : ∀ r, t = .report r → r.pipelineId = work.pipeline.id → Reported s.attempts r) :
    Told work { s with world := { s.world with flights := s.world.flights ++ [⟨t, t.service setup⟩] } } := by
  refine ⟨h.underway, fun f hf => ?_, h.inOrder, h.entries, h.success⟩
  rcases List.mem_append.1 hf with hf | hf
  · exact h.flights f hf
  · rw [List.mem_singleton.1 hf]
    cases t with
    | delivery provider headers body => exact accept_backed provider headers body
    | report r => exact hear_backed r (ht r rfl)

/-- What a storage keeps through a call that is accounted for was told by runs of the work. -/
theorem Told.performs (h : Told work s) {c : Storage.Call} (hc : Backed work.pipeline.id s.attempts (.storage c))
    {w : World} (hw : w.storage = (s.world.storage.perform c).2)
    (hflights : ∀ f ∈ w.flights, f.rest.Only (Backed work.pipeline.id s.attempts)) :
    Told work { s with world := w } := by
  refine ⟨h.underway, hflights, ?_, fun e he hid => ?_, fun p hp hid hsuccess => ?_⟩
  · rw [hw]
    exact h.inOrder.perform c
  · rw [hw] at he
    obtain he | rfl := MemoryStorage.mem_logs_perform he
    · exact h.entries e he hid
    · exact hc hid
  · rw [hw] at hp
    obtain hp | ⟨t, rfl⟩ := MemoryStorage.perform_success _ c hp hsuccess
    · exact h.success p hp hid hsuccess
    · exact hc hid rfl

/-- A service makes a call that is accounted for. -/
theorem Told.calls {c : Coordinator.Call} {answer : Coordinator.Answer c} {w : World} (h : Told work s)
    (hbacked : Backed work.pipeline.id s.attempts c)
    (hanswer : Coordinator.MayAnswer c s.world.storage answer w.storage)
    (hflights : ∀ f ∈ w.flights, f.rest.Only (Backed work.pipeline.id s.attempts)) :
    Told work { s with world := w } := by
  have hsame : w.storage = s.world.storage → Told work { s with world := w } := fun heq =>
    ⟨h.underway, hflights, heq ▸ h.inOrder, heq ▸ h.entries, heq ▸ h.success⟩
  generalize hw : w.storage = storage at hanswer
  cases hanswer with
  | performed c => exact h.performs hbacked hw hflights
  | failed c _ f => exact hsame hw
  | sent => exact hsame hw
  | posted => exact hsame hw
  | downloaded => exact hsame hw

theorem Told.step (h : Told work s) (hstep : Step setup work s s') : Told work s' := by
  cases hstep with
  | delivered limit unique => exact h.delivered limit unique
  | goesOn answer hattempts => exact (h.goesOn hattempts answer).1
  | @reports front back es c next r answer hattempts hr =>
    obtain ⟨htold, hreported⟩ := h.goesOn hattempts answer
    exact htold.begins (t := .report r) fun r' heq _ => by cases heq; exact hreported r hr
  | serves hserves =>
    cases hserves with
    | begins t ht => exact h.begins fun r heq hid => absurd (by rw [heq]; exact congrArg some hid) ht
    | @calls front back t c next answer storage hflights hanswer =>
      have hbacked := h.flights
      rw [hflights, List.forall_mem_append, List.forall_mem_cons] at hbacked
      obtain ⟨hfront, ⟨hcall, hrest⟩, hback⟩ := hbacked
      exact h.calls hcall hanswer
        (List.forall_mem_append.2 ⟨hfront, List.forall_mem_cons.2 ⟨hrest answer, hback⟩⟩)

theorem Told.steps {s₀ : State} (h : Told work s₀) (hsteps : Relation.ReflTransGen (Step setup work) s₀ s) :
    Told work s := by
  induction hsteps with
  | refl => exact h
  | tail _ hstep ih => exact ih.step hstep

/-! ## The record -/

theorem mem_outputs {es : Journal} {r : CommandOutput} : r ∈ es.outputs ↔ .output r ∈ es.reports := by
  unfold Journal.outputs
  rw [List.mem_filterMap]
  constructor
  · rintro ⟨r', hr', heq⟩
    cases r' with
    | output o => exact Option.some.inj heq ▸ hr'
    | _ => cases heq
  · exact fun hr => ⟨_, hr, rfl⟩

/-- A report about a command has the place among those of its run that its order says, and the commands of the
run are more. -/
theorem Reported.place (hruns : ∀ a ∈ attempts, FailFast id a.journal) {r : CommandOutput}
    (hr : Reported attempts (.output r)) : ∃ a ∈ attempts, ∃ i : Nat, a.journal.outputs[i]? = some r ∧
      r.order.toInt = i ∧ ∃ cmds, a.journal.declared = some cmds ∧ i < cmds.length := by
  obtain ⟨a, ha, hr⟩ := hr
  obtain ⟨i, hi⟩ := List.mem_iff_getElem?.1 (mem_outputs.2 hr)
  obtain ⟨horder, hdeclared⟩ := (hruns a ha).inOrder i r hi
  exact ⟨a, ha, i, hi, horder, hdeclared⟩

/-- Of reports with the same place, in whichever runs, either all tell a failure or none does. -/
theorem Agree.same_place (h : Agree attempts) (hruns : ∀ a ∈ attempts, FailFast id a.journal) {a : Attempt}
    (ha : a ∈ attempts) {i : Nat} {o r : CommandOutput} (ho : a.journal.outputs[i]? = some o)
    (hr : Reported attempts (.output r)) (horder : r.order.toInt = i) : o.exitCode = 0 ↔ r.exitCode = 0 := by
  have ho' : Reported attempts (.output o) := ⟨a, ha, mem_outputs.1 (List.mem_of_getElem? ho)⟩
  have hsame : o.order = r.order := Int32.toInt_inj.1 (((hruns a ha).inOrder i o ho).1.trans horder.symm)
  exact ⟨h.results o r ho' hr hsame, h.results r o hr ho' hsame.symm⟩

/-- No run that agrees gets past a command that failed in another. -/
theorem Agree.nothing_after (h : Agree attempts) (hruns : ∀ a ∈ attempts, FailFast id a.journal)
    {r r' : CommandOutput} (hr : Reported attempts (.output r)) (hr' : Reported attempts (.output r'))
    (hfailed : r.exitCode ≠ 0) : r'.order ≤ r.order := by
  obtain ⟨-, -, i, -, hi, -⟩ := hr.place hruns
  obtain ⟨b, hb, j, hj, horder, -⟩ := hr'.place hruns
  rw [Int32.le_iff_toInt_le, hi, horder]
  refine Int.not_lt.1 fun hlt => ?_
  -- or else the run of the later report has told of the earlier command too, and that it failed
  have hmore := (List.getElem?_eq_some_iff.1 hj).1
  have hbefore : i < b.journal.outputs.length := by omega
  have ho := List.getElem?_eq_getElem hbefore
  have hlast := (hruns b hb).last i _ ho (mt (h.same_place hruns hb ho hr hi).1 hfailed)
  omega

/-- What has succeeded in one run fails in none that agrees. -/
theorem Agree.succeeded (h : Agree attempts) (hruns : ∀ a ∈ attempts, FailFast id a.journal) {a : Attempt}
    (ha : a ∈ attempts) (hall : a.journal.ToldAll) {r : CommandOutput} (hr : Reported attempts (.output r)) :
    r.exitCode = 0 := by
  obtain ⟨b, hb, i, -, hi, cmds, hcmds, hlt⟩ := hr.place hruns
  obtain ⟨cmds', hcmds', hlength⟩ := hall.all
  obtain rfl := h.commands a ha b hb cmds' cmds hcmds' hcmds
  have ho := List.getElem?_eq_getElem (hlength.symm ▸ hlt : i < a.journal.outputs.length)
  exact (h.same_place hruns ha ho hr hi).1 (hall.succeeded _ (List.mem_of_getElem? ho))

theorem countP_le_one {α : Type} {p : α → Bool} {l : List α}
    (h : l.Pairwise fun a b => ¬ (p a = true ∧ p b = true)) : l.countP p ≤ 1 := by
  rw [List.countP_eq_length_filter]
  have hfilter : (l.filter p).Pairwise fun _ _ => False := by
    refine (h.filter p).imp_of_mem fun ha hb hnot => ?_
    exact hnot ⟨(List.mem_filter.1 ha).2, (List.mem_filter.1 hb).2⟩
  match l.filter p, hfilter with
  | [], _ => exact Nat.zero_le 1
  | [_], _ => exact Nat.le_refl 1
  | _ :: _ :: _, hpair => exact ((List.pairwise_cons.1 hpair).1 _ List.mem_cons_self).elim

theorem Told.recorded (h : Told work s) : Recorded work.pipeline.id s.attempts s.world.storage := by
  have hruns : ∀ a ∈ s.attempts, FailFast work.pipeline.id a.journal := by
    intro a ha
    obtain ⟨limit, unique, hrest⟩ := h.underway a ha
    exact Runner.failFast_of_underway hrest
  have hentries : ∀ e ∈ s.world.storage.logsOf work.pipeline.id,
      ∃ r, Reported s.attempts (.output r) ∧ e = r.logEntry := by
    intro e he
    obtain ⟨he, hid⟩ := MemoryStorage.mem_logsOf.1 he
    exact h.entries e he hid
  have hsuccess : ∀ p ∈ s.world.storage.pipelines, p.id = work.pipeline.id → p.status = .success →
      ∃ a ∈ s.attempts, a.journal.ToldAll := by
    intro p hp hid hstatus
    obtain ⟨r, ⟨a, ha, hr⟩, houtcome⟩ := h.success p hp hid hstatus
    exact ⟨a, ha, (hruns a ha).success r hr houtcome⟩
  have hinOrder := h.inOrder.logsOf work.pipeline.id
  refine ⟨hruns, hentries, hinOrder, hsuccess, fun hagree => ?_⟩
  have hnothing : ∀ e ∈ s.world.storage.logsOf work.pipeline.id, ∀ f ∈ s.world.storage.logsOf work.pipeline.id,
      e.exitCode ≠ 0 → f.order ≤ e.order := by
    intro e he f hf hfailed
    obtain ⟨r, hr, rfl⟩ := hentries e he
    obtain ⟨r', hr', rfl⟩ := hentries f hf
    exact hagree.nothing_after hruns hr hr' hfailed
  constructor
  case oneFailed =>
    -- of two entries the one with the greater order would come after a failure
    refine countP_le_one (hinOrder.imp_of_mem fun {e f} he hf hlt hboth => ?_)
    have hle := hnothing e he f hf (bne_iff_ne.1 hboth.1)
    rw [Int32.le_iff_toInt_le] at hle
    rw [Int32.lt_iff_toInt_lt] at hlt
    omega
  case nothingAfter => exact hnothing
  case success =>
    intro p hp hid hstatus e he
    obtain ⟨a, ha, hall⟩ := hsuccess p hp hid hstatus
    obtain ⟨r, hr, rfl⟩ := hentries e he
    exact hagree.succeeded hruns ha hall hr

/-- However often the work is run, wherever runs are killed and however their reports come in: what is recorded
of the pipeline was told by runs, and it is as of one run if all of them agree. -/
theorem recorded_of_redelivery (setup : Setup) (work : Work) (storage : MemoryStorage)
    (hblank : Blank work.pipeline.id storage) (s : State)
    (hsteps : Relation.ReflTransGen (Step setup work) { world := { storage } } s) :
    Recorded work.pipeline.id s.attempts s.world.storage :=
  ((Told.start hblank).steps hsteps).recorded

/-! ### Two runs -/

/-- What happens next: the work is delivered, a run makes a call and a report arrives, or a service in flight
makes its next call. -/
inductive Move where
  | deliver
  | act (k : Nat) (answers : (c : Runner.Call) → c.Answer)
  | turn (n : Nat)

/-- A run makes its next call, and a report arrives at once. -/
def State.act (setup : Setup) (s : State) (k : Nat) (answers : (c : Runner.Call) → c.Answer) : State :=
  match s.attempts[k]? with
  | some ⟨es, .ask c next⟩ =>
    let attempts := s.attempts.set k ⟨es ++ [⟨c, answers c⟩], next (answers c)⟩
    match c.report? with
    | some r => ⟨arrived setup r s.world, attempts⟩
    | none => { s with attempts }
  | _ => s

/-- The state after a move, if it may be made, or else the same. -/
def State.play (setup : Setup) (work : Work) (s : State) : Move → State
  | .deliver => { s with attempts := s.attempts ++ [⟨[], Runner.execute ⟨60000000000⟩ work "a1"⟩] }
  | .act k answers => s.act setup k answers
  | .turn n => { s with world := s.world.play setup (fun _ _ => false) (.turn n) }

theorem act_step (s : State) (k : Nat) (answers : (c : Runner.Call) → c.Answer) :
    Relation.ReflTransGen (Step setup work) s (s.act setup k answers) := by
  unfold State.act
  split
  case h_1 es c next hattempt =>
    obtain ⟨hk, hget⟩ := List.getElem?_eq_some_iff.1 hattempt
    have hattempts : s.attempts = s.attempts.take k ++ ⟨es, .ask c next⟩ :: s.attempts.drop (k + 1) := by
      rw [← hget, List.getElem_cons_drop, List.take_append_drop]
    dsimp only
    rw [List.set_eq_take_append_cons_drop, if_pos hk]
    split
    case h_1 r hr => exact .single (.reports (answers c) hattempts hr)
    case h_2 => exact .single (.goesOn (answers c) hattempts)
  case h_2 => exact .refl

theorem play_step (s : State) (m : Move) : Relation.ReflTransGen (Step setup work) s (s.play setup work m) := by
  cases m with
  | deliver => exact .single (.delivered _ _)
  | act k answers => exact act_step s k answers
  | turn n =>
    have hsteps : Relation.ReflTransGen (Coordinator.Step setup (fun _ t => t.about? ≠ some work.pipeline.id)
        Coordinator.MayAnswer) s.world (s.world.play setup (fun _ _ => false) (.turn n)) :=
      Coordinator.play_step (fun _ _ h => by cases h) (fun c s _ => Coordinator.mayAnswer_smooth c s) s.world _
    exact hsteps.lift (p := Step setup work) (fun w => { s with world := w }) fun w w' hserves =>
      Step.serves (s := { s with world := w }) hserves

theorem play_steps (s : State) (ms : List Move) :
    Relation.ReflTransGen (Step setup work) s (ms.foldl (State.play setup work) s) := by
  induction ms generalizing s with
  | nil => exact .refl
  | cons m ms ih => exact (play_step s m).trans (ih _)

end

namespace Sample

open Coordinator.Sample (time storage plainly)

def work : Work :=
  ⟨⟨1, .pending, "c0ffee", "https://git.example.com/acme/widget.git", "https://ci.example.com/pipelines/1", none,
    none, 1⟩, { accessToken := "secret" }⟩

/-- All goes well, and commands have the exit code. -/
def answers (code : Int32) : (c : Runner.Call) → c.Answer
  | .plain a => answer a
  | .setLimit _ => ()
  | .limited a => some (answer a)
where
  answer : (a : Runner.Action) → a.Answer
    | .clock => time
    | .report _ => .ok ()
    | .openCheckout _ => .ok "checkout"
    | .closeCheckout _ => .ok ()
    | .fetch _ _ _ _ => .ok (.content (Text.bytes "name: b\nimage: a\njobs: \x7bt: [make, test]\x7d"))
    | .pull _ => .ok ()
    | .create spec => .ok spec.name
    | .start _ => .ok ()
    | .exec _ _ => .ok ⟨"done", code⟩
    | .stop _ => .ok ()
    | .remove _ => .ok ()
    | .upload _ _ _ => .ok ()

/-- So many calls of a run. -/
def acts (k : Nat) (code : Int32) (n : Nat) : List Move := List.replicate n (.act k (answers code))

open Move in
/-- The first run is killed after it has told that its first command ended with the exit code; the second one goes
well to its end. Each report is dealt with before the next call. -/
def moves (code : Int32) : List Move :=
  [deliver] ++ acts 0 code 2 ++ [turn 0, turn 0, turn 0] ++ acts 0 code 9 ++ [turn 1, turn 1] ++
    [deliver] ++ acts 1 0 2 ++ [turn 2, turn 2] ++ acts 1 0 9 ++ [turn 3, turn 3] ++ acts 1 0 2 ++
    [turn 4, turn 4] ++ acts 1 0 6 ++ [turn 5, turn 5, turn 5]

def after (code : Int32) : State := (moves code).foldl (State.play plainly work) { world := { storage } }

theorem after_steps (code : Int32) :
    Relation.ReflTransGen (Step plainly work) { world := { storage } } (after code) := play_steps _ _

/-- The orders and exit codes in the log, the pipelines with their statuses, the commands that each run has
fetched, and the exit codes that it has told. -/
def view (s : State) :
    List (Int32 × Int32) × List (Int64 × Status) × List (Option (List String)) × List (List Int32) :=
  ((s.world.storage.logsOf 1).map fun e => (e.order, e.exitCode),
    s.world.storage.pipelines.map fun p => (p.id, p.status), s.attempts.map fun a => a.journal.declared,
    s.attempts.map fun a => a.journal.outputs.map CommandOutput.exitCode)

theorem view_agreed : view (after 0) =
    ([(0, 0), (1, 0)], [(1, .success)], [some ["make", "test"], some ["make", "test"]], [[0], [0, 0]]) := by
  decide +kernel

theorem view_mixed : view (after 1) =
    ([(0, 1), (1, 0)], [(1, .success)], [some ["make", "test"], some ["make", "test"]], [[1], [0, 0]]) := by
  decide +kernel

end Sample

/-- Where a second run does what the first one did, the record is as of one run. -/
theorem recorded_of_redelivery_agreed :
    Blank 1 Coordinator.Sample.storage ∧
    Recorded 1 (Sample.after 0).attempts (Sample.after 0).world.storage ∧
    Consistent 1 (Sample.after 0).world.storage := by
  have hblank : Blank 1 Coordinator.Sample.storage := ⟨.nil, List.forall_mem_nil _, by decide⟩
  have hrecorded := recorded_of_redelivery Coordinator.Sample.plainly Sample.work Coordinator.Sample.storage hblank
    (Sample.after 0) (Sample.after_steps 0)
  have hview := Sample.view_agreed
  unfold Sample.view at hview
  simp only [Prod.mk.injEq] at hview
  obtain ⟨-, -, hdeclared, hcodes⟩ := hview
  have hcommands : ∀ a ∈ (Sample.after 0).attempts, a.journal.declared = some ["make", "test"] := by
    intro a ha
    have hmem := List.mem_map_of_mem (f := fun a : Attempt => a.journal.declared) ha
    rw [hdeclared] at hmem
    simpa using hmem
  have hsucceeded : ∀ a ∈ (Sample.after 0).attempts, ∀ r ∈ a.journal.outputs, r.exitCode = 0 := by
    intro a ha r hr
    have hmem := List.mem_map_of_mem (f := fun a : Attempt => a.journal.outputs.map CommandOutput.exitCode) ha
    rw [hcodes] at hmem
    have hcode := List.mem_map_of_mem (f := CommandOutput.exitCode) hr
    simp only [List.mem_cons, List.not_mem_nil, or_false] at hmem
    rcases hmem with heq | heq
    · rw [heq] at hcode
      simpa using hcode
    · rw [heq] at hcode
      simpa using hcode
  refine ⟨hblank, hrecorded, hrecorded.consistent ⟨fun a ha b hb cmds cmds' hcmds hcmds' => ?_, ?_⟩⟩
  · rw [hcommands a ha] at hcmds
    rw [hcommands b hb, hcmds] at hcmds'
    exact Option.some.inj hcmds'
  · rintro r r' - ⟨a, ha, hr'⟩ - -
    exact hsucceeded a ha r' (mem_outputs.2 hr')

/-- A command fails in the first run and succeeds in the second, of the same definition: the pipeline has
succeeded, and its log holds the failure and what came after it. -/
theorem mixed_record :
    Sample.view (Sample.after 1) =
      ([(0, 1), (1, 0)], [(1, .success)], [some ["make", "test"], some ["make", "test"]], [[1], [0, 0]]) ∧
    ¬ ∀ s, Relation.ReflTransGen (Step Coordinator.Sample.plainly Sample.work)
      { world := { storage := Coordinator.Sample.storage } } s → Consistent 1 s.world.storage := by
  refine ⟨Sample.view_mixed, fun h => ?_⟩
  have hconsistent := h _ (Sample.after_steps 1)
  have hview := Sample.view_mixed
  unfold Sample.view at hview
  simp only [Prod.mk.injEq] at hview
  obtain ⟨hlog, hrows, -⟩ := hview
  obtain ⟨e, he, hentry⟩ := List.mem_map.1 (hlog ▸ List.mem_cons_self)
  obtain ⟨p, hp, hrow⟩ := List.mem_map.1 (hrows ▸ List.mem_cons_self)
  have hfailed : e.exitCode = 1 := congrArg Prod.snd hentry
  have hzero := hconsistent.success p hp (congrArg Prod.fst hrow) (congrArg Prod.snd hrow) e he
  rw [hfailed] at hzero
  cases hzero

end Pipeworks.Redelivery
