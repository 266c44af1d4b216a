/-
Pipelines do not influence each other: what becomes of one pipeline and its log, what the reports about it are answered
and which statuses are posted for it is the same as if no report about another had been heard
(`pipelines_independent`). The coordinator that has heard all reports is followed beside one that has only heard those
about the one pipeline (`Beside`): its log has entries of other pipelines besides, and its rows may differ but for one.
No report posts a status of another pipeline than its own (`hear_posts`).
-/
import Pipeworks.Proofs.Coordinator.CommandLog

namespace Pipeworks

/-! ## The storage -/

/-- A storage is like another as far as one pipeline goes; entries of other pipelines have been placed in its log. -/
structure MemoryStorage.Beside (id : Int64) (s t : MemoryStorage) : Prop where
  failing : s.failing = t.failing
  repos : s.repos = t.repos
  row : s.pipeline? id = t.pipeline? id
  logs : ∃ es : List LogEntry, (∀ e ∈ es, e.pipelineId ≠ id) ∧
    s.logs = es.foldl (fun fs e => placeLog e fs) t.logs

namespace MemoryStorage

variable {s t : MemoryStorage} {id : Int64} {e : LogEntry}

theorem Beside.refl (id : Int64) (s : MemoryStorage) : Beside id s s :=
  ⟨rfl, rfl, rfl, [], List.forall_mem_nil _, rfl⟩

theorem foldl_placeLog_comm {es : List LogEntry} (hes : ∀ f ∈ es, f.pipelineId ≠ e.pipelineId) (fs : List LogEntry) :
    placeLog e (es.foldl (fun fs e => placeLog e fs) fs) =
      es.foldl (fun fs e => placeLog e fs) (placeLog e fs) := by
  induction es generalizing fs with
  | nil => rfl
  | cons f es ih =>
    obtain ⟨hf, hothers⟩ := List.forall_mem_cons.1 hes
    rw [List.foldl_cons, List.foldl_cons, ih hothers, placeLog_comm hf.symm]

theorem Beside.logsOf (h : Beside id s t) : s.logsOf id = t.logsOf id := by
  obtain ⟨es, hes, hlogs⟩ := h.logs
  unfold MemoryStorage.logsOf
  rw [hlogs]
  clear hlogs
  generalize t.logs = fs
  induction es generalizing fs with
  | nil => rfl
  | cons e es ih =>
    obtain ⟨he, hothers⟩ := List.forall_mem_cons.1 hes
    rw [List.foldl_cons, ih hothers, filter_placeLog_other he]

/-! ### Calls about the pipeline -/

theorem transition_none {next : Status} {time : Time.Instant} (hrow : s.pipeline? id = none) :
    s.transition id next time = (false, s) := by
  unfold transition
  rw [hrow]
  rfl

/-- A move is made in both or in neither. -/
theorem Beside.transition (h : Beside id s t) (next : Status) (time : Time.Instant) :
    (s.transition id next time).1 = (t.transition id next time).1 ∧
      Beside id (s.transition id next time).2 (t.transition id next time).2 := by
  have hrest : (s.transition id next time).2.pipeline? id = (t.transition id next time).2.pipeline? id →
      Beside id (s.transition id next time).2 (t.transition id next time).2 := fun hrow => by
    rw [transition_rest s, transition_rest t] at *
    exact ⟨h.failing, h.repos, hrow, h.logs⟩
  cases hrow : t.pipeline? id with
  | none =>
    rw [transition_none hrow, transition_none (h.row.trans hrow)]
    exact ⟨rfl, h⟩
  | some p =>
    cases hadvance : p.advance? next time with
    | none =>
      rw [transition_stuck hrow hadvance, transition_stuck (h.row.trans hrow) hadvance]
      exact ⟨rfl, h⟩
    | some p' =>
      obtain ⟨hmoved, hp'⟩ := transition_moves hrow hadvance
      obtain ⟨hmoved', hp''⟩ := transition_moves (h.row.trans hrow) hadvance
      exact ⟨hmoved'.trans hmoved.symm, hrest (hp''.trans hp'.symm)⟩

/-- There is an entry in the same place in both or in neither. -/
theorem Beside.key_iff (h : Beside id s t) (he : e.pipelineId = id) :
    (∃ f ∈ s.logs, SameKey e f) ↔ ∃ f ∈ t.logs, SameKey e f := by
  have hmem : ∀ f, f.pipelineId = id → (f ∈ s.logs ↔ f ∈ t.logs) := fun f hf => by
    have hs : f ∈ s.logsOf id ↔ f ∈ t.logsOf id := by rw [h.logsOf]
    rwa [mem_logsOf, mem_logsOf, and_iff_left hf, and_iff_left hf] at hs
  constructor
  · rintro ⟨f, hf, hsame⟩
    exact ⟨f, (hmem f (hsame.1.trans he)).1 hf, hsame⟩
  · rintro ⟨f, hf, hsame⟩
    exact ⟨f, (hmem f (hsame.1.trans he)).2 hf, hsame⟩

/-- An entry is refused, there already, or placed, in both alike. -/
theorem Beside.addLog (h : Beside id s t) (he : e.pipelineId = id) :
    (s.addLog e).1 = (t.addLog e).1 ∧ Beside id (s.addLog e).2 (t.addLog e).2 := by
  have hkey : (s.logs.any fun f => f.pipelineId == e.pipelineId && f.order == e.order) =
      t.logs.any fun f => f.pipelineId == e.pipelineId && f.order == e.order := by
    rw [Bool.eq_iff_iff]
    simpa [SameKey] using h.key_iff he
  obtain ⟨es, hes, hlogs⟩ := h.logs
  unfold MemoryStorage.addLog
  rw [hkey]
  split
  · exact ⟨rfl, h⟩
  · split
    · exact ⟨rfl, h⟩
    · refine ⟨rfl, h.failing, h.repos, h.row, es, hes, ?_⟩
      show placeLog e s.logs = _
      rw [hlogs, foldl_placeLog_comm (he.symm ▸ hes)]

/-! ### Calls about other pipelines -/

theorem Beside.transition_other (h : Beside id s t) {i : Int64} (hne : i ≠ id) (next : Status) (time : Time.Instant) :
    Beside id (s.transition i next time).2 t := by
  obtain ⟨p, p', -, -, -, -, hothers⟩ | hstill := s.transition_cases i next time
  · have hrow := (hothers id hne.symm).trans h.row
    rw [transition_rest] at hrow ⊢
    exact ⟨h.failing, h.repos, hrow, h.logs⟩
  · rw [hstill]
    exact h

theorem Beside.addLog_other (h : Beside id s t) (hne : e.pipelineId ≠ id) : Beside id (s.addLog e).2 t := by
  obtain ⟨-, heq⟩ | ⟨-, heq⟩ | ⟨-, heq⟩ := s.addLog_cases e
  · rw [heq]
    exact h
  · rw [heq]
    exact h
  · rw [heq]
    obtain ⟨es, hes, hlogs⟩ := h.logs
    refine ⟨h.failing, h.repos, h.row, es ++ [e], ?_, ?_⟩
    · exact List.forall_mem_append.2 ⟨hes, List.forall_mem_singleton.2 hne⟩
    · show placeLog e s.logs = _
      rw [List.foldl_append, hlogs]
      rfl

end MemoryStorage

namespace Coordinator

variable {setup : Setup} {outside : Outside} {m n : Memory} {id : Int64} {rs : List Report}

/-! ## Calls that a report makes -/

/-- The call is about a pipeline, if it is not about a provider. -/
def Concerns (id : Int64) : Call → Prop
  | .storage (.start i _) => i = id
  | .storage (.finish i _ _) => i = id
  | .storage (.find i) => i = id
  | .storage (.stateChangeInfo i) => i = id
  | .storage (.addLog e) => e.pipelineId = id
  | .post _ _ _ => True
  | _ => False

theorem publish_concerns (setup : Setup) (id : Int64) (status : Status) (description : String) :
    (publish setup id status description).Only (Concerns id) := by
  refine ⟨rfl, fun answer => ?_⟩
  rcases answer with f | (_ | info)
  · trivial
  · trivial
  · dsimp only [Program.bind_done]
    split
    · trivial
    · exact ⟨trivial, fun _ => trivial⟩

theorem skip_concerns (id : Int64) : (skip id).Only (Concerns id) := by
  refine ⟨rfl, fun answer => ?_⟩
  rcases answer with f | (_ | p) <;> trivial

/-- A report makes no call about another pipeline than its own. -/
theorem hear_concerns (setup : Setup) (r : Report) : (hear setup r).Only (Concerns r.pipelineId) := by
  cases r with
  | started r =>
    refine ⟨rfl, fun answer => ?_⟩
    rcases answer with f | (_ | _)
    · trivial
    · exact skip_concerns r.pipelineId
    · exact publish_concerns setup r.pipelineId .running _
  | output r =>
    refine ⟨rfl, fun answer => ?_⟩
    rcases answer with f | (_ | p)
    · trivial
    · trivial
    · refine ⟨rfl, fun answer => ?_⟩
      rcases answer with f | added <;> trivial
  | finished r =>
    refine ⟨rfl, fun answer => ?_⟩
    rcases answer with f | (_ | _)
    · trivial
    · exact skip_concerns r.pipelineId
    · exact publish_concerns setup r.pipelineId r.outcome.status _

theorem Concerns.isReportCall {c : Storage.Call} (h : Concerns id (.storage c)) : IsReportCall id c := by
  cases c with
  | start i time => exact h
  | finish i status time => exact h
  | find i => trivial
  | stateChangeInfo i => trivial
  | addLog e => trivial
  | create new => exact h.elim
  | delete i => exact h.elim
  | creationInfo provider i => exact h.elim
  | logs i => exact h.elim

theorem handle_stateChangeInfo (outside : Outside) {i : Int64} {c : Call} (hc : Concerns i c) (m : Memory)
    (id : Int64) : (Memory.handle outside c m).2.storage.stateChangeInfo id = m.storage.stateChangeInfo id := by
  cases c with
  | storage c =>
    cases hdown : m.storage.failing with
    | true => rw [Memory.handle_down hdown]
    | false =>
      rw [Memory.handle_up hdown]
      exact performed_stateChangeInfo (Concerns.isReportCall hc) m.storage id
  | post provider token status => rw [Memory.handle_post]
  | send work => exact hc.elim
  | transcript i => exact hc.elim

/-- What is needed to show a status stays as it is, for every pipeline, whatever is reported. -/
theorem hear_stateChangeInfo (setup : Setup) (outside : Outside) (m : Memory) (r : Report) (id : Int64) :
    ((hear setup r).run (Memory.handle outside) m).2.storage.stateChangeInfo id = m.storage.stateChangeInfo id := by
  let known (n : Memory) : Prop := n.storage.stateChangeInfo id = m.storage.stateChangeInfo id
  have hrun : known ((hear setup r).run (Memory.handle outside) m).2 :=
    (hear_concerns setup r).run_keeps (fun _ hc n hn => (handle_stateChangeInfo outside hc n id).trans hn) rfl
  exact hrun

/-! ## The coordinator -/

/-- A coordinator is like another as far as one pipeline goes. -/
structure Beside (id : Int64) (m n : Memory) : Prop where
  storage : m.storage.Beside id n.storage
  refusing : m.refusing = n.refusing

theorem Beside.refl (id : Int64) (m : Memory) : Beside id m m := ⟨.refl id m.storage, rfl⟩

/-- A call about the pipeline is answered alike. -/
theorem Beside.handle (outside : Outside) {c : Call} (hc : Concerns id c) (m n : Memory) (h : Beside id m n) :
    (Memory.handle outside c m).1 = (Memory.handle outside c n).1 ∧
      Beside id (Memory.handle outside c m).2 (Memory.handle outside c n).2 := by
  cases c with
  | storage c =>
    cases hdown : n.storage.failing with
    | true =>
      rw [Memory.handle_down hdown, Memory.handle_down (h.storage.failing.trans hdown)]
      exact ⟨rfl, h⟩
    | false =>
      rw [Memory.handle_up hdown, Memory.handle_up (h.storage.failing.trans hdown)]
      cases c with
      | start i time =>
        obtain rfl := hc
        obtain ⟨hmoved, hafter⟩ := h.storage.transition .running time
        exact ⟨congrArg Except.ok hmoved, hafter, h.refusing⟩
      | finish i status time =>
        obtain rfl := hc
        obtain ⟨hmoved, hafter⟩ := h.storage.transition status time
        exact ⟨congrArg Except.ok hmoved, hafter, h.refusing⟩
      | find i =>
        obtain rfl := hc
        exact ⟨congrArg Except.ok h.storage.row, h⟩
      | stateChangeInfo i =>
        obtain rfl := hc
        refine ⟨congrArg Except.ok ?_, h⟩
        unfold MemoryStorage.stateChangeInfo
        rw [h.storage.row, h.storage.repos]
      | addLog e =>
        obtain ⟨hadded, hafter⟩ := h.storage.addLog hc
        exact ⟨hadded, hafter, h.refusing⟩
      | create new => exact hc.elim
      | delete i => exact hc.elim
      | creationInfo provider i => exact hc.elim
      | logs i => exact hc.elim
  | post provider token status =>
    rw [Memory.handle_post, Memory.handle_post]
    refine ⟨?_, h.storage, h.refusing⟩
    unfold Memory.post
    rw [h.refusing]
    cases provider with
    | plain => cases n.refusing <;> rfl
    | github => rfl
    | gitlab => rfl
  | send work => exact hc.elim
  | transcript i => exact hc.elim

/-- A call about another pipeline changes nothing for this one. -/
theorem Beside.handle_other (outside : Outside) {i : Int64} (hne : i ≠ id) {c : Call} (hc : Concerns i c)
    (m : Memory) (h : Beside id m n) : Beside id (Memory.handle outside c m).2 n := by
  cases c with
  | storage c =>
    cases hdown : m.storage.failing with
    | true =>
      rw [Memory.handle_down hdown]
      exact h
    | false =>
      rw [Memory.handle_up hdown]
      cases c with
      | start j time =>
        obtain rfl := hc
        exact ⟨h.storage.transition_other hne .running time, h.refusing⟩
      | finish j status time =>
        obtain rfl := hc
        exact ⟨h.storage.transition_other hne status time, h.refusing⟩
      | find j => exact h
      | stateChangeInfo j => exact h
      | addLog e =>
        have he : e.pipelineId ≠ id := fun heq => hne (hc.symm.trans heq)
        exact ⟨h.storage.addLog_other he, h.refusing⟩
      | create new => exact hc.elim
      | delete j => exact hc.elim
      | creationInfo provider j => exact hc.elim
      | logs j => exact hc.elim
  | post provider token status =>
    rw [Memory.handle_post]
    exact ⟨h.storage, h.refusing⟩
  | send work => exact hc.elim
  | transcript j => exact hc.elim

/-! ## What is posted -/

/-- The call shows a status of a pipeline of which this is known, in the name of its repository. -/
def Call.PostsFor (info : Storage.StateChangeInfo) : Call → Prop
  | .post _ token status => token = info.token ∧ status.owner = info.owner ∧ status.repo = info.repoName ∧
      status.commit = info.commit ∧ status.targetUrl = info.url
  | _ => False

theorem postedBy_storage {α : Type} (outside : Outside) (c : Storage.Call) (next : Storage.Answer c → Service α)
    (m : Memory) : postedBy outside (.ask (.storage c) next) m =
      postedBy outside (next (Memory.handle outside (.storage c) m).1) (Memory.handle outside (.storage c) m).2 := rfl

theorem publish_posts (setup : Setup) (outside : Outside) (m : Memory) (id : Int64) (status : Status)
    (description : String) : ∀ e ∈ postedBy outside (publish setup id status description) m,
      ∃ info, m.storage.stateChangeInfo id = some info ∧ e.call.PostsFor info := by
  intro e he
  change e ∈ postedBy outside (.ask (.storage (.stateChangeInfo id)) _) m at he
  rw [postedBy_storage] at he
  cases hdown : m.storage.failing with
  | true =>
    rw [Memory.handle_down hdown] at he
    cases he
  | false =>
    rw [Memory.handle_up hdown] at he
    dsimp only [MemoryStorage.perform] at he
    cases hinfo : m.storage.stateChangeInfo id with
    | none =>
      rw [hinfo] at he
      cases he
    | some info =>
      rw [hinfo] at he
      dsimp only [Program.bind_done] at he
      refine ⟨info, rfl, ?_⟩
      split at he
      · cases he
      · obtain rfl := List.mem_singleton.1 he
        exact ⟨rfl, rfl, rfl, rfl, rfl⟩

theorem skip_posts (outside : Outside) (m : Memory) (id : Int64) : postedBy outside (skip id) m = [] := by
  change postedBy outside (.ask (.storage (.find id)) _) m = []
  rw [postedBy_storage]
  generalize Memory.handle outside (.storage (.find id)) m = asked
  obtain ⟨answer, m'⟩ := asked
  rcases answer with f | (_ | p) <;> rfl

theorem output_posts (outside : Outside) (m : Memory) (r : CommandOutput) :
    postedBy outside (commandOutput r) m = [] := by
  change postedBy outside (.ask (.storage (.find r.pipelineId)) _) m = []
  rw [postedBy_storage]
  generalize Memory.handle outside (.storage (.find r.pipelineId)) m = asked
  obtain ⟨answer, m'⟩ := asked
  rcases answer with f | (_ | p)
  · rfl
  · rfl
  · change postedBy outside (.ask (.storage (.addLog r.logEntry)) _) m' = []
    rw [postedBy_storage]
    generalize Memory.handle outside (.storage (.addLog r.logEntry)) m' = added
    obtain ⟨answer, m''⟩ := added
    rcases answer with f | added <;> rfl

/-- A report that tries a move posts, if it posts, a status of its pipeline as it was known before. -/
theorem move_posts (setup : Setup) {c : Storage.Call} (hcall : Concerns id (.storage c))
    {next : Storage.Answer c → Service (Except ReportFault Unit)}
    (hnext : ∀ answer, (∃ a, next answer = .done a) ∨ next answer = skip id ∨
      ∃ status description, next answer = publish setup id status description) (outside : Outside) (m : Memory) :
    ∀ e ∈ postedBy outside (.ask (.storage c) next) m,
      ∃ info, m.storage.stateChangeInfo id = some info ∧ e.call.PostsFor info := by
  intro e he
  have hknown := handle_stateChangeInfo outside hcall m id
  rw [postedBy_storage] at he
  rw [← hknown]
  rcases hnext (Memory.handle outside (.storage c) m).1 with ⟨a, hdone⟩ | hskip | ⟨status, description, hpublish⟩
  · rw [hdone] at he
    cases he
  · rw [hskip, skip_posts] at he
    cases he
  · rw [hpublish] at he
    exact publish_posts setup outside _ id status description e he

/-- Whatever is posted when a report is heard is a status of the pipeline that the report is about. -/
theorem hear_posts (setup : Setup) (outside : Outside) (m : Memory) (r : Report) :
    ∀ e ∈ postedBy outside (hear setup r) m,
      ∃ info, m.storage.stateChangeInfo r.pipelineId = some info ∧ e.call.PostsFor info := by
  cases r with
  | started r =>
    have hcall : Concerns r.pipelineId (.storage (.start r.pipelineId r.startedAt)) := rfl
    refine move_posts setup hcall (fun answer => ?_) outside m
    rcases answer with f | (_ | _)
    · exact .inl ⟨_, rfl⟩
    · exact .inr (.inl rfl)
    · exact .inr (.inr ⟨_, _, rfl⟩)
  | output r =>
    intro e he
    change e ∈ postedBy outside (commandOutput r) m at he
    rw [output_posts] at he
    cases he
  | finished r =>
    have hcall : Concerns r.pipelineId (.storage (.finish r.pipelineId r.outcome.status r.finishedAt)) := rfl
    refine move_posts setup hcall (fun answer => ?_) outside m
    rcases answer with f | (_ | _)
    · exact .inl ⟨_, rfl⟩
    · exact .inr (.inl rfl)
    · exact .inr (.inr ⟨_, _, rfl⟩)

/-! ## Reports one after the other -/

/-- A report that was heard, what it was answered, and the statuses that were given to providers for it, with what
these answered. -/
structure Hearing where
  report : Report
  answer : Except ReportFault Unit
  posts : List (Program.Event Call Answer)

/-- What comes of hearing a report. -/
def hearing (setup : Setup) (outside : Outside) (m : Memory) (r : Report) : Hearing where
  report := r
  answer := ((hear setup r).run (Memory.handle outside) m).1
  posts := postedBy outside (hear setup r) m

/-- What comes of hearing reports one after the other. -/
def hearings (setup : Setup) (outside : Outside) : Memory → List Report → List Hearing
  | _, [] => []
  | m, r :: rs =>
    hearing setup outside m r :: hearings setup outside ((hear setup r).run (Memory.handle outside) m).2 rs

/-- The reports about a pipeline. -/
def reportsAbout (id : Int64) (rs : List Report) : List Report := rs.filter (·.pipelineId == id)

/-- What is seen of a pipeline: its row, its log, and what came of the reports about it. -/
structure View where
  row : Option Pipeline
  log : List LogEntry
  hearings : List Hearing

/-- What is seen of a pipeline once reports have been heard. -/
def view (setup : Setup) (outside : Outside) (m : Memory) (rs : List Report) (id : Int64) : View where
  row := (afterHearing setup outside m rs).storage.pipeline? id
  log := (afterHearing setup outside m rs).storage.logsOf id
  hearings := (hearings setup outside m rs).filter (·.report.pipelineId == id)

/-- A report about the pipeline is answered alike, and the same is posted. -/
theorem Beside.hear (h : Beside id m n) (setup : Setup) (outside : Outside) {r : Report} (hr : r.pipelineId = id) :
    hearing setup outside m r = hearing setup outside n r ∧
      Beside id ((Coordinator.hear setup r).run (Memory.handle outside) m).2
        ((Coordinator.hear setup r).run (Memory.handle outside) n).2 := by
  subst hr
  obtain ⟨hanswer, htrace, hafter⟩ :=
    (hear_concerns setup r).run_alike (fun _ hc m n h => Beside.handle outside hc m n h) h
  refine ⟨?_, hafter⟩
  unfold hearing postedBy
  rw [hanswer, htrace]

/-- A report about another pipeline leaves this one as it is. -/
theorem Beside.hear_other (h : Beside id m n) (setup : Setup) (outside : Outside) {r : Report}
    (hr : r.pipelineId ≠ id) : Beside id ((Coordinator.hear setup r).run (Memory.handle outside) m).2 n :=
  (hear_concerns setup r).run_keeps (fun _ hc m h => Beside.handle_other outside hr hc m h) h

/-- Hearing all reports goes beside hearing only those about the pipeline. -/
theorem Beside.hearings (h : Beside id m n) (setup : Setup) (outside : Outside) (rs : List Report) :
    (Coordinator.hearings setup outside m rs).filter (·.report.pipelineId == id) =
      (Coordinator.hearings setup outside n (reportsAbout id rs)).filter (·.report.pipelineId == id) ∧
    Beside id (afterHearing setup outside m rs) (afterHearing setup outside n (reportsAbout id rs)) := by
  induction rs generalizing m n with
  | nil => exact ⟨rfl, h⟩
  | cons r rs ih =>
    by_cases hr : r.pipelineId = id
    · have hmine : (r.pipelineId == id) = true := beq_iff_eq.2 hr
      have hown : reportsAbout id (r :: rs) = r :: reportsAbout id rs := by
        rw [reportsAbout, List.filter_cons, if_pos hmine, reportsAbout]
      have habout : ((hearing setup outside n r).report.pipelineId == id) = true := hmine
      obtain ⟨hsame, hafter⟩ := h.hear setup outside hr
      obtain ⟨hrest, hend⟩ := ih hafter
      rw [hown, Coordinator.hearings, Coordinator.hearings, hsame, List.filter_cons, List.filter_cons,
        if_pos habout, if_pos habout, hrest, afterHearing_cons, afterHearing_cons]
      exact ⟨rfl, hend⟩
    · have hother : ¬ (r.pipelineId == id) = true := fun heq => hr (beq_iff_eq.1 heq)
      have hown : reportsAbout id (r :: rs) = reportsAbout id rs := by
        rw [reportsAbout, List.filter_cons, if_neg hother, reportsAbout]
      have hapart : ¬ ((hearing setup outside m r).report.pipelineId == id) = true := hother
      obtain ⟨hrest, hend⟩ := ih (h.hear_other setup outside hr)
      rw [hown, Coordinator.hearings, List.filter_cons, if_neg hapart, afterHearing_cons]
      exact ⟨hrest, hend⟩

/-- Whatever is posted for a report is a status of the pipeline that the report is about. -/
theorem hearings_posts (setup : Setup) (outside : Outside) (m : Memory) (rs : List Report) :
    ∀ h ∈ hearings setup outside m rs, ∀ e ∈ h.posts,
      ∃ info, m.storage.stateChangeInfo h.report.pipelineId = some info ∧ e.call.PostsFor info := by
  induction rs generalizing m with
  | nil => exact List.forall_mem_nil _
  | cons r rs ih =>
    intro h hh e he
    rcases List.mem_cons.1 hh with rfl | hlater
    · exact hear_posts setup outside m r e he
    · obtain ⟨info, hinfo, hposts⟩ := ih _ h hlater e he
      rw [hear_stateChangeInfo] at hinfo
      exact ⟨info, hinfo, hposts⟩

/-- Whatever the storage holds, and whether it or the providers fail, what is seen of a pipeline after any reports is
what is seen of it when only those about it are heard, and no other report posts a status of it. So reports about
different pipelines may change places. -/
theorem pipelines_independent (setup : Setup) (outside : Outside) (m : Memory) (rs : List Report) :
    (∀ id, view setup outside m rs id = view setup outside m (reportsAbout id rs) id) ∧
    (∀ h ∈ hearings setup outside m rs, ∀ e ∈ h.posts,
      ∃ info, m.storage.stateChangeInfo h.report.pipelineId = some info ∧ e.call.PostsFor info) ∧
    ∀ rs', (∀ id, reportsAbout id rs' = reportsAbout id rs) →
      ∀ id, view setup outside m rs' id = view setup outside m rs id := by
  have hown : ∀ rs id, view setup outside m rs id = view setup outside m (reportsAbout id rs) id := by
    intro rs id
    obtain ⟨hheard, hbeside⟩ := (Beside.refl id m).hearings setup outside rs
    unfold view
    rw [hheard, hbeside.storage.row, hbeside.storage.logsOf]
  refine ⟨hown rs, hearings_posts setup outside m rs, fun rs' hsame id => ?_⟩
  rw [hown rs' id, hsame id, ← hown rs id]

namespace Sample

/-- Two pipelines were made for a repository. -/
def pushedTwice : List Happening :=
  pushed ++ [.call silence (.storage (.create ⟨1, "f00d", "https://git.example.com/acme/widget.git", "/pipelines/"⟩))]

def ofFirst : List Report := [.started ⟨1, noon⟩, .output ⟨1, 0, "make", "", 0⟩, .finished ⟨1, noon, .success, none⟩]

def ofSecond : List Report := [.started ⟨2, noon⟩, .finished ⟨2, noon, .failure, some ⟨.timeout, "too slow"⟩⟩]

/-- The reports about both pipelines by turns. -/
def byTurns : List Report :=
  [.started ⟨2, noon⟩, .started ⟨1, noon⟩, .output ⟨1, 0, "make", "", 0⟩,
    .finished ⟨2, noon, .failure, some ⟨.timeout, "too slow"⟩⟩, .finished ⟨1, noon, .success, none⟩]

theorem reportsAbout_byTurns (id : Int64) : reportsAbout id byTurns = reportsAbout id (ofFirst ++ ofSecond) := by
  by_cases hfirst : id = 1
  · subst hfirst
    decide
  · by_cases hsecond : id = 2
    · subst hsecond
      decide
    · have hnone : ∀ rs : List Report, (∀ r ∈ rs, r.pipelineId = 1 ∨ r.pipelineId = 2) → reportsAbout id rs = [] :=
        fun rs hrs => List.filter_eq_nil_iff.2 fun r hr heq => by
          obtain rfl := beq_iff_eq.1 heq
          exact (hrs r hr).elim hfirst hsecond
      rw [hnone byTurns (by decide), hnone (ofFirst ++ ofSecond) (by decide)]

end Sample

theorem pipelines_independent_reordered :
    (∀ id, reportsAbout id Sample.byTurns = reportsAbout id (Sample.ofFirst ++ Sample.ofSecond)) ∧
      ∀ id, view Sample.plainly Sample.silence (Memory.of Sample.pushedTwice) Sample.byTurns id =
        view Sample.plainly Sample.silence (Memory.of Sample.pushedTwice) (Sample.ofFirst ++ Sample.ofSecond) id :=
  ⟨Sample.reportsAbout_byTurns,
    (pipelines_independent Sample.plainly Sample.silence (Memory.of Sample.pushedTwice)
      (Sample.ofFirst ++ Sample.ofSecond)).2.2 Sample.byTurns Sample.reportsAbout_byTurns⟩

end Coordinator

end Pipeworks
