/-
Telling is best effort: whether reports arrive and whether the transcript is stored makes no difference to a run. Two
runs whose reporters and stores take as long as one another, and succeed or fail as they like, ask for the same at the
same times and come to the same result; only the times in their reports may differ, as their clocks may
(`telling_best_effort`). The programs of the two runs are not the same, since they have read different times; they are
followed side by side (`Twin`).
-/
import Pipeworks.Proofs.Runner.Limit
import Pipeworks.Proofs.Runner.Unread

namespace Pipeworks

/-- The reports are the same, but the times in them may differ. -/
inductive Report.SameButTime : Report → Report → Prop
  | started (id : Int64) (time time' : Time.Instant) : SameButTime (.started ⟨id, time⟩) (.started ⟨id, time'⟩)
  | output (r : CommandOutput) : SameButTime (.output r) (.output r)
  | finished (id : Int64) (time time' : Time.Instant) (outcome : Outcome) (error : Option FailureSummary) :
      SameButTime (.finished ⟨id, time, outcome, error⟩) (.finished ⟨id, time', outcome, error⟩)

namespace Runner

open Program (Ignores Only)

/-- The actions are the same, but the times in reports may differ. -/
inductive Action.SameButTime : Action → Action → Prop
  | same (a : Action) : SameButTime a a
  | report {r r' : Report} (h : r.SameButTime r') : SameButTime (.report r) (.report r')

/-! ## Reporter, store and clock -/

/-- Those that have no part in the work itself: who hears the reports, where the transcript goes, and the clock. -/
inductive Outlet where
  | reporter
  | store
  | clock
  deriving DecidableEq

def Action.outlet? : Action → Option Outlet
  | .report _ => some .reporter
  | .upload _ _ _ => some .store
  | .clock => some .clock
  | _ => none

def Action.isLook (a : Action) : Bool := a.outlet? == some .clock

theorem Action.SameButTime.outlet? {a a' : Action} (h : a.SameButTime a') : a.outlet? = a'.outlet? := by
  cases h <;> rfl

/-- The same is asked for at the same times, but for the times in reports. -/
def SameAsked (es es' : List (Nat × Action)) : Prop :=
  List.Forall₂ (fun x y => x.1 = y.1 ∧ x.2.SameButTime y.2) es es'

theorem SameAsked.outlets {es es' : List (Nat × Action)} (h : SameAsked es es') :
    es.filterMap (·.2.outlet?) = es'.filterMap (·.2.outlet?) := by
  induction h with
  | nil => rfl
  | cons hfirst _ ih => rw [List.filterMap_cons, List.filterMap_cons, hfirst.2.outlet?, ih]

/-- How long the n-th call takes; none if it never returns. -/
abbrev Pace : Type := Outlet → Nat → Option Nat

/-- What the n-th call answers. -/
structure Replies where
  report : Nat → Except String Unit
  upload : Nat → Except Transcript.Fault Unit
  clock : Nat → Time.Instant

/-- Where a run takes place: whatever state the others are in, and all that the run has asked for, and when. -/
structure Room (σ : Type) where
  others : σ
  asked : List (Nat × Action) := []

namespace Room

variable {σ : Type}

def note (now : Nat) (a : Action) (s : Room σ) : Room σ := { s with asked := s.asked ++ [(now, a)] }

/-- How often an outlet has been called. -/
def calls (s : Room σ) (o : Outlet) : Nat := (s.asked.filterMap (·.2.outlet?)).count o

theorem calls_note (now : Nat) (a : Action) (s : Room σ) (o : Outlet) :
    (s.note now a).calls o = s.calls o + if a.outlet? = some o then 1 else 0 := by
  unfold calls note
  rw [List.filterMap_append, List.count_append, List.filterMap_cons, List.filterMap_nil]
  cases a.outlet? with
  | none => rfl
  | some o' => simp [List.count_singleton]

/-- What becomes of the next call to an outlet. -/
def next {α : Type} (pace : Pace) (o : Outlet) (answers : Nat → α) (s : Room σ) : Lasting α :=
  (pace o (s.calls o)).map fun delay => (delay, answers (s.calls o))

end Room

/-- A reporter, a store and a clock beside any others. -/
def beside {σ : Type} (pace : Pace) (replies : Replies) (others : Collaborators σ) : Collaborators (Room σ) :=
  fun a commands now s =>
    match a with
    | .report r => (s.next pace .reporter replies.report, s.note now (.report r))
    | .upload id transcript size => (s.next pace .store replies.upload, s.note now (.upload id transcript size))
    | .clock => (s.next pace .clock replies.clock, s.note now .clock)
    | a =>
      let (answer, rest) := others a commands now s.others
      (answer, { s.note now a with others := rest })

/-! ## Two rooms -/

variable {σ α β : Type} {pace : Pace} {replies replies' : Replies} {others : Collaborators σ} {n : Nat}
  {s s' : Room σ} {a a' : Action}

theorem beside_others (ha : a.outlet? = none) (commands now : Nat) (s : Room σ) :
    beside pace replies others a commands now s = ((others a commands now s.others).1,
      { s.note now a with others := (others a commands now s.others).2 }) := by
  cases a <;> first | rfl | cases ha

/-- The same has been asked for, the others are in the same state, and the clock has been read so often. -/
structure Room.Like (n : Nat) (s s' : Room σ) : Prop where
  others : s.others = s'.others
  asked : SameAsked s.asked s'.asked
  looks : s.calls .clock = n

namespace Room.Like

theorem calls (h : Like n s s') (o : Outlet) : s.calls o = s'.calls o := by
  rw [Room.calls, Room.calls, h.asked.outlets]

/-- The next call takes as long in both. -/
theorem next (h : Like n s s') (pace : Pace) {γ : Type} (o : Outlet) (answers answers' : Nat → γ) :
    Option.Rel (fun x y => x.1 = y.1) (s.next pace o answers) (s'.next pace o answers') := by
  unfold Room.next
  rw [h.calls]
  cases pace o (s'.calls o) with
  | none => exact .none
  | some delay => exact .some rfl

theorem note (h : Like n s s') (now : Nat) (ha : a.SameButTime a') (hlook : a.isLook = false) :
    Like n (s.note now a) (s'.note now a') where
  others := h.others
  asked := List.rel_append h.asked (.cons ⟨rfl, ha⟩ .nil)
  looks := by
    have hother : ¬ a.outlet? = some .clock := by simpa [Action.isLook] using hlook
    rw [calls_note, if_neg hother, h.looks, Nat.add_zero]

theorem look (h : Like n s s') (now : Nat) : Like (n + 1) (s.note now .clock) (s'.note now .clock) where
  others := h.others
  asked := List.rel_append h.asked (.cons ⟨rfl, .same _⟩ .nil)
  looks := by rw [calls_note, if_pos (by rfl), h.looks]

/-- Whatever is done but a look at the clock takes as long in both, and is answered the same, unless the answer is not
read. -/
theorem act (h : Like n s s') (pace : Pace) (replies replies' : Replies) (others : Collaborators σ)
    (commands now : Nat) (ha : a.isLook = false) :
    Option.Rel (fun x y => x.1 = y.1 ∧ a.Alike x.2 y.2) (beside pace replies others a commands now s).1
        (beside pace replies' others a commands now s').1 ∧
      Like n (beside pace replies others a commands now s).2 (beside pace replies' others a commands now s').2 := by
  cases houtlet : a.outlet? with
  | none =>
    have hnoted := h.note now (.same a) ha
    rw [beside_others houtlet, beside_others houtlet, h.others]
    refine ⟨?_, rfl, hnoted.asked, hnoted.looks⟩
    dsimp only
    cases (others a commands now s'.others).1 with
    | none => exact .none
    | some answer => exact .some ⟨rfl, .inr rfl⟩
  | some o =>
    -- what an outlet answers is not read, but for the clock
    have hunread : ∀ {l l' : Lasting a.Answer}, a.isUnread → Option.Rel (fun x y => x.1 = y.1) l l' →
        Option.Rel (fun x y => x.1 = y.1 ∧ a.Alike x.2 y.2) l l' := by
      intro l l' hunread hl
      cases hl with
      | none => exact .none
      | some hdelay => exact .some ⟨hdelay, .inl hunread⟩
    cases a with
    | report r => exact ⟨hunread rfl (h.next pace .reporter _ _), h.note now (.same _) rfl⟩
    | upload id transcript size => exact ⟨hunread rfl (h.next pace .store _ _), h.note now (.same _) rfl⟩
    | clock => cases ha
    | _ => cases houtlet

end Room.Like

/-- Answers that come at the same time and are alike are in time or late both. -/
theorem limitedAnswer_alike {lasting lasting' : Lasting a.Answer}
    (h : Option.Rel (fun x y => x.1 = y.1 ∧ a.Alike x.2 y.2) lasting lasting') (deadline now : Nat) :
    (limitedAnswer deadline now a lasting).1 = (limitedAnswer deadline now a lasting').1 ∧
      Option.Rel a.Alike (limitedAnswer deadline now a lasting).2 (limitedAnswer deadline now a lasting').2 := by
  cases h with
  | none => exact ⟨rfl, .none⟩
  | @some x y hxy =>
    obtain ⟨delay, answer⟩ := x
    obtain ⟨delay', answer'⟩ := y
    obtain ⟨rfl, halike⟩ := hxy
    -- of all actions only a fetch is cut off by its answer, and that is read
    have hcut : isCut deadline (now + delay) a answer = isCut deadline (now + delay) a answer' := by
      rcases halike with hunread | rfl
      · cases a <;> first | rfl | cases hunread
      · rfl
    unfold limitedAnswer
    dsimp only
    rw [hcut]
    split
    · exact ⟨rfl, .none⟩
    · exact ⟨rfl, .some halike⟩

/-! ## Two runs -/

/-- The runs ask for the same, but for the times in reports, and go on alike if they are answered alike; at the n-th
look their clocks show the times given. -/
inductive Twin (replies replies' : Replies) : Nat → Run α → Run α → Prop
  | done (n : Nat) (a : α) : Twin replies replies' n (.done a) (.done a)
  | setLimit {n : Nat} {limit : Time.Span} {next next' : Unit → Run α} :
      Twin replies replies' n (next ()) (next' ()) →
      Twin replies replies' n (.ask (.setLimit limit) next) (.ask (.setLimit limit) next')
  | clock {n : Nat} {next next' : Time.Instant → Run α} :
      Twin replies replies' (n + 1) (next (replies.clock n)) (next' (replies'.clock n)) →
      Twin replies replies' n (.ask (.plain .clock) next) (.ask (.plain .clock) next')
  | report {n : Nat} {r r' : Report} {next next' : Except String Unit → Run α} : r.SameButTime r' →
      (∀ x y, Twin replies replies' n (next x) (next' y)) →
      Twin replies replies' n (.ask (.plain (.report r)) next) (.ask (.plain (.report r')) next')
  | plain {n : Nat} {a : Action} {next next' : a.Answer → Run α} : a.isLook = false →
      (∀ x y, a.Alike x y → Twin replies replies' n (next x) (next' y)) →
      Twin replies replies' n (.ask (.plain a) next) (.ask (.plain a) next')
  | limited {n : Nat} {a : Action} {next next' : Option a.Answer → Run α} : a.isLook = false →
      (∀ x y, Option.Rel a.Alike x y → Twin replies replies' n (next x) (next' y)) →
      Twin replies replies' n (.ask (.limited a) next) (.ask (.limited a) next')

namespace Twin

theorem bind {p p' : Run α} {f f' : α → Run β} (h : Twin replies replies' n p p')
    (hf : ∀ m a, Twin replies replies' m (f a) (f' a)) : Twin replies replies' n (p.bind f) (p'.bind f') := by
  induction h with
  | done n a => exact hf n a
  | setLimit _ ih => exact .setLimit ih
  | clock _ ih => exact .clock ih
  | report hr _ ih => exact .report hr ih
  | plain ha _ ih => exact .plain ha ih
  | limited ha _ ih => exact .limited ha ih

/-- Twins come to the same result at the same time, and leave rooms that are alike. -/
theorem elapse {p p' : Run α} (h : Twin replies replies' n p p') (hs : Room.Like n s s') (pace : Pace)
    (others : Collaborators σ) (now deadline commands : Nat) :
    (elapse (beside pace replies others) now deadline commands p s).1 =
        (elapse (beside pace replies' others) now deadline commands p' s').1 ∧
      ∃ m, Room.Like m (elapse (beside pace replies others) now deadline commands p s).2
        (elapse (beside pace replies' others) now deadline commands p' s').2 := by
  induction h generalizing s s' now deadline commands with
  | done n a => exact ⟨rfl, n, hs⟩
  | setLimit _ ih => exact ih hs _ _ _
  | @clock n next next' _ ih =>
    have hlooked := hs.look now
    have hlooks : s'.calls .clock = n := (hs.calls .clock).symm.trans hs.looks
    rw [Runner.elapse, Runner.elapse]
    simp only [beside, Room.next, hs.looks, hlooks]
    cases pace .clock n with
    | none => exact ⟨rfl, n + 1, hlooked⟩
    | some delay => exact ih hlooked _ _ _
  | @report n r r' next next' hr _ ih =>
    have hnoted := hs.note now (.report hr) rfl
    have hanswer := hs.next pace .reporter replies.report replies'.report
    rw [Runner.elapse, Runner.elapse]
    simp only [beside]
    generalize s.next pace .reporter replies.report = lasting at hanswer ⊢
    generalize s'.next pace .reporter replies'.report = lasting' at hanswer ⊢
    cases hanswer with
    | none => exact ⟨rfl, n, hnoted⟩
    | @some x y hdelay =>
      obtain ⟨delay, answer⟩ := x
      obtain ⟨_, answer'⟩ := y
      obtain rfl := hdelay
      exact ih answer answer' hnoted _ _ _
  | @plain n a next next' ha _ ih =>
    obtain ⟨hanswer, hafter⟩ := hs.act pace replies replies' others commands now ha
    rw [Runner.elapse, Runner.elapse]
    generalize beside pace replies others a commands now s = left at hanswer hafter ⊢
    generalize beside pace replies' others a commands now s' = right at hanswer hafter ⊢
    obtain ⟨lasting, s₁⟩ := left
    obtain ⟨lasting', s₁'⟩ := right
    cases hanswer with
    | none => exact ⟨rfl, n, hafter⟩
    | @some x y hxy =>
      obtain ⟨delay, answer⟩ := x
      obtain ⟨_, answer'⟩ := y
      obtain ⟨rfl, halike⟩ := hxy
      exact ih answer answer' halike hafter _ _ _
  | @limited n a next next' ha _ ih =>
    obtain ⟨hanswer, hafter⟩ := hs.act pace replies replies' others commands now ha
    obtain ⟨htime, halike⟩ := limitedAnswer_alike hanswer deadline now
    rw [Runner.elapse, Runner.elapse]
    dsimp only
    rw [htime]
    exact ih _ _ halike hafter _ _ _

end Twin

/-! ## The section -/

theorem runCommands_only (id : Int64) (container : String) (n : Nat) (cmds : List String) :
    (runCommands id container n cmds).Only (·.isLook = false) := by
  induction cmds generalizing n with
  | nil => trivial
  | cons cmd cmds ih =>
    unfold runCommands
    split
    · refine ⟨rfl, fun ran => ?_⟩
      cases ran with
      | error message => trivial
      | ok result =>
        refine ⟨rfl, fun _ => ?_⟩
        dsimp only [Program.bind_done]
        split
        · exact ih (n + 1)
        · trivial
    · trivial

theorem provide_only (spec : ContainerSpec) : (provide spec).Only (·.isLook = false) := by
  refine ⟨rfl, fun pulled => ?_⟩
  cases pulled with
  | error message => trivial
  | ok =>
    refine ⟨rfl, fun created => ?_⟩
    cases created with
    | error message => trivial
    | ok name =>
      refine ⟨rfl, fun started => ?_⟩
      cases started <;> trivial

/-- The section does not look at the clock. -/
theorem runSection_only (work : Work) (directory unique : String) (now : Time.Instant) :
    (runSection work directory unique now).Only (·.isLook = false) := by
  unfold runSection
  split
  · trivial
  refine ⟨rfl, fun fetched => ?_⟩
  cases fetched with
  | error message => trivial
  | ok file =>
    dsimp only
    split
    · trivial
    · refine (provide_only _).bind fun provided => ?_
      cases provided with
      | error f => trivial
      | ok container => exact runCommands_only _ _ _ _

/-- Of the time it is told the section reads whether the credential is valid then. -/
theorem runSection_eq {work : Work} {time time' : Time.Instant}
    (h : work.token.isExpiredAt time = work.token.isExpiredAt time') (directory unique : String) :
    runSection work directory unique time = runSection work directory unique time' := by
  unfold runSection
  rw [h]

namespace Twin

/-- A section that reads nothing but what is answered alike is its own twin. -/
theorem withinLimit {p : Section α} (hreads : p.Ignores Action.Alike) (hcalls : p.Only (·.isLook = false)) (t : Traces)
    (n : Nat) : Twin replies replies' n (Runner.withinLimit t p) (Runner.withinLimit t p) := by
  have hwithin := withinLimit_ignores hreads t
  induction p generalizing t with
  | done a => exact .done n _
  | ask a next ih =>
    unfold Runner.withinLimit at hwithin ⊢
    refine .limited hcalls.1 fun x y hxy => ?_
    have hsame := hwithin.1 x y hxy
    dsimp only at hsame
    rw [hsame]
    cases y with
    | none => exact .done n _
    | some answer => exact ih answer (hreads.2 answer) (hcalls.2 answer) _ (hwithin.2 (some answer))

theorem act {a : Action} {f f' : a.Answer → Run α} (ha : a.isLook = false)
    (h : ∀ x y, a.Alike x y → Twin replies replies' n (f x) (f' y)) :
    Twin replies replies' n (Runner.act a >>= f) (Runner.act a >>= f') :=
  .plain ha h

theorem conclude (work : Work) (result : Except RunFault Unit) (transcript : Bytes) :
    Twin replies replies' n (Runner.conclude work result transcript) (Runner.conclude work result transcript) :=
  act rfl fun _ _ _ => .clock (.report (.finished _ _ _ _ _) fun _ _ => .done _ _)

theorem leave (limit : Time.Span) (work : Work) (directory : String) (result : Option (Except RunFault Unit))
    (traces : Traces) :
    Twin replies replies' n (Runner.leave limit work directory result traces)
      (Runner.leave limit work directory result traces) := by
  unfold Runner.leave
  cases traces.container with
  | none => exact act rfl fun _ _ _ => conclude _ _ _
  | some container =>
    exact act rfl fun _ _ _ => act rfl fun _ _ _ => act rfl fun _ _ _ => conclude _ _ _

theorem execute {work : Work}
    (hexpiry : work.token.isExpiredAt (replies.clock 1) = work.token.isExpiredAt (replies'.clock 1))
    (limit : Time.Span) (unique : String) :
    Twin replies replies' 0 (Runner.execute limit work unique) (Runner.execute limit work unique) := by
  rw [execute_eq]
  unfold enter
  refine .clock (.report (.started _ _ _) fun _ _ => act rfl fun opened opened' halike => ?_)
  obtain rfl : opened = opened' := halike.resolve_left Bool.false_ne_true
  cases opened with
  | error reason => exact conclude _ _ _
  | ok directory =>
    refine .clock (.setLimit ?_)
    rw [runSection_eq hexpiry]
    exact (withinLimit (runSection_ignores _ _ _ _) (runSection_only _ _ _ _) _ _).bind fun m (result, traces) =>
      leave _ _ _ _ _

end Twin

/-! ## Any two runs -/

/-- The runs come to the same result at the same time, if they come to one, and have asked for the same at the same
times, but for the times in reports; the others are left in the same state. -/
structure SameRun (x y : Option (RunSummary × Nat) × Room σ) : Prop where
  result : x.1 = y.1
  asked : SameAsked x.2.asked y.2.asked
  others : x.2.others = y.2.others

/-- Whatever those do who fetch and run containers, and however long it takes to report and to store the transcript, a
run is the same whether that succeeds or not. The clocks of two runs may differ too, if the credential is expired at
the beginning of both or of neither. -/
theorem telling_best_effort (limit : Time.Span) (work : Work) (unique : String) (others : Collaborators σ)
    (pace : Pace) (replies replies' : Replies)
    (hexpiry : work.token.isExpiredAt (replies.clock 1) = work.token.isExpiredAt (replies'.clock 1)) (now : Nat)
    (s : σ) :
    SameRun (elapse (beside pace replies others) now 0 0 (execute limit work unique) ⟨s, []⟩)
      (elapse (beside pace replies' others) now 0 0 (execute limit work unique) ⟨s, []⟩) := by
  have hstart : Room.Like 0 (⟨s, []⟩ : Room σ) ⟨s, []⟩ := ⟨rfl, .nil, rfl⟩
  obtain ⟨hresult, m, hafter⟩ := (Twin.execute hexpiry limit unique).elapse hstart pace others now 0 0
  exact ⟨hresult, hafter.asked, hafter.others⟩

namespace Sample

/-- Every call takes 5 ms. -/
def brisk : Pace := fun _ _ => some 5

def received : Replies := ⟨fun _ => .ok (), fun _ => .ok (), fun _ => midnight⟩

/-- Every other report gets lost, and the transcript as well. -/
def lost : Replies :=
  ⟨fun n => if n % 2 = 0 then .error "connection refused" else .ok (), fun _ => .error .io, fun _ => midnight⟩

/-- What becomes of a run of two commands. -/
def told (replies : Replies) : Option (RunSummary × Nat) × Room Unit :=
  elapse (beside brisk replies unhurried) 0 0 0 (execute (.ofMillis 400) work "a1") ⟨(), []⟩

end Sample

theorem telling_best_effort_lost :
    Sample.work.token.isExpiredAt (Sample.received.clock 1) = Sample.work.token.isExpiredAt (Sample.lost.clock 1) ∧
      SameRun (Sample.told Sample.received) (Sample.told Sample.lost) ∧
      (Sample.told Sample.lost).1.map (·.1.outcome) = some .failure ∧
      (Sample.told Sample.lost).2.calls .reporter = 4 :=
  ⟨rfl, telling_best_effort (.ofMillis 400) Sample.work "a1" Sample.unhurried Sample.brisk Sample.received Sample.lost
    rfl 0 (), by decide +kernel, by decide +kernel⟩

end Runner

end Pipeworks
