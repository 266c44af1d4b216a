/-
What a delivery by a provider leaves behind: all that belongs to a new pipeline if it is a genuine push that
nothing stands in the way of, and else nothing (`accept_all_or_nothing`). A pipeline that was kept and whose work
cannot be queued is the only one that is to be undone, and then its removal leaves what was there before.
-/
import Pipeworks.Proofs.Coordinator.Memory

namespace Pipeworks.Coordinator

/-- Nothing stands in the way of a pipeline for a push to a repository. -/
structure Buildable (m : Memory) (provider : Provider) (push : Push) (r : Repo) : Prop where
  up : m.storage.failing = false
  registered : m.storage.repo? provider.name push.providerRepoId = some r
  current : r.archived = false
  idLeft : m.storage.lastId + 1 < Nat.pow 2 63
  queued : m.queue.unavailable = false

/-- The delivery is a genuine push, for which a pipeline can be made. -/
structure Welcome (setup : Setup) (name : String) (headers : Http.Headers) (body : Bytes) (m : Memory)
    (provider : Provider) (push : Push) (r : Repo) : Prop where
  known : Provider.ofName? setup.providers name = some provider
  genuine : provider.verify headers body setup.settings.webhookSecret
  event : provider.event headers body = .ok (.push push)
  buildable : Buildable m provider push r

/-- All that belongs to a pipeline that is made of a push to a repository. -/
structure Built (setup : Setup) (provider : Provider) (push : Push) (r : Repo) (m : Memory) (p : Pipeline)
    (m' : Memory) (shown : List CommitStatus) : Prop where
  /-- The pipeline gets the next id, and no pipeline has had one as great. -/
  number : p.id.toInt = m.storage.lastId + 1
  newest : ∀ q ∈ m.storage.pipelines, q.id.toInt < p.id.toInt
  isNew : p.IsNew
  commit : p.commit = push.commit
  repo : p.repoId = r.id
  storage : m'.storage = { m.storage with
    lastId := m.storage.lastId + 1, pipelines := m.storage.pipelines ++ [p] }
  /-- One message is ready besides those before, and its work can be read. -/
  queue : ∃ payload, Work.ofPayload payload = .ok ⟨p, MemoryStorage.ownerToken r.owner⟩ ∧
    m'.queue = { m.queue with
      lastId := m.queue.lastId + 1, ready := m.queue.ready ++ [⟨m.queue.lastId + 1, payload, 0⟩] }
  announced : shown = [⟨r.owner, r.name, p.commit, .pending, p.url, setup.settings.statusContext,
    "Pipeline is queued"⟩]
  others : m' = { m with
    storage := m'.storage, queue := m'.queue, posted := m.posted ++ m.taken provider shown }

/-- What a delivery leaves behind, by its answer: all of a pipeline that is answered if the delivery is welcome,
or else nothing, although an id may have been given away. -/
inductive Outcome (setup : Setup) (name : String) (headers : Http.Headers) (body : Bytes) (m : Memory) :
    Except HookFault HookOutcome → Memory → List CommitStatus → Prop
  | built {provider : Provider} {push : Push} {r : Repo} {p : Pipeline} {m' : Memory}
      {shown : List CommitStatus} :
      Welcome setup name headers body m provider push r → Built setup provider push r m p m' shown →
      Outcome setup name headers body m (.ok (.created p)) m' shown
  | nothing {answer : Except HookFault HookOutcome} {n : Nat} :
      (∀ provider push r, ¬ Welcome setup name headers body m provider push r) →
      (∀ p, answer ≠ .ok (.created p)) → m.storage.lastId ≤ n →
      Outcome setup name headers body m answer { m with storage := { m.storage with lastId := n } } []

variable {setup : Setup} {outside : Outside} {m : Memory} {provider : Provider} {push : Push} {r : Repo}
  {info : Storage.CreationInfo} {p : Pipeline}

/-! ## A new pipeline -/

section
variable {m' : Memory} {shown : List CommitStatus}

theorem Built.rows (h : Built setup provider push r m p m' shown) :
    m'.storage.pipelines = m.storage.pipelines ++ [p] := by
  rw [h.storage]

theorem Built.row (h : Built setup provider push r m p m' shown) : m'.storage.pipeline? p.id = some p := by
  have hnone : m.storage.pipelines.find? (·.id == p.id) = none := List.find?_eq_none.2 fun q hq hid =>
    Int.ne_of_lt (h.newest q hq) (congrArg Int64.toInt (beq_iff_eq.1 hid))
  unfold MemoryStorage.pipeline?
  rw [h.rows, List.find?_append, hnone]
  simp

/-- The rows that were there stay as they were. -/
theorem Built.old_row (h : Built setup provider push r m p m' shown) {id : Int64} {row : Pipeline}
    (hrow : m.storage.pipeline? id = some row) : m'.storage.pipeline? id = some row := by
  unfold MemoryStorage.pipeline? at hrow ⊢
  rw [h.rows, List.find?_append, hrow]
  rfl

/-- One message has come, with the next number and the work of the pipeline. -/
theorem Built.held (h : Built setup provider push r m p m' shown) :
    ∃ payload, Work.ofPayload payload = .ok ⟨p, MemoryStorage.ownerToken r.owner⟩ ∧
      m'.queue.lastId = m.queue.lastId + 1 ∧
      m'.queue.held.Perm (⟨m.queue.lastId + 1, payload, 0⟩ :: m.queue.held) := by
  obtain ⟨payload, hread, hqueue⟩ := h.queue
  refine ⟨payload, hread, ?_, ?_⟩
  · rw [hqueue]
  · rw [hqueue, MemoryQueue.held, List.append_assoc]
    exact List.perm_middle

end

/-- No message is lost over a delivery. -/
theorem Outcome.held_subset {name : String} {headers : Http.Headers} {body : Bytes}
    {answer : Except HookFault HookOutcome} {m' : Memory} {shown : List CommitStatus}
    (h : Outcome setup name headers body m answer m' shown) : m.queue.held ⊆ m'.queue.held := by
  cases h with
  | nothing => exact List.Subset.refl _
  | built _ hbuilt =>
    obtain ⟨payload, -, -, hperm⟩ := hbuilt.held
    exact fun message hmessage => hperm.mem_iff.2 (List.mem_cons_of_mem _ hmessage)

/-! ## Sending the work -/

theorem dispatch_sent {q : MemoryQueue} (hsend : m.queue.send ⟨p, info.token⟩ = .ok q) :
    let status : CommitStatus := ⟨info.owner, info.repoName, p.commit, .pending, p.url,
      setup.settings.statusContext, "Pipeline is queued"⟩
    Carried outside (dispatch setup provider info p) m (.ok (.created p))
      { m with queue := q, posted := m.posted ++ m.taken provider [status] } [status] := by
  intro status
  exact .ask (Memory.handle_sent hsend) (.ask (Memory.handle_post _ provider info.token status) (.done _ _))

/-- A pipeline whose work cannot be queued is removed. -/
theorem dispatch_unsent {f : Queue.Fault} {others : List Pipeline} (hup : m.storage.failing = false)
    (hsend : m.queue.send ⟨p, info.token⟩ = .error f)
    (hothers : m.storage.pipelines.filter (·.id != p.id) = others) :
    Carried outside (dispatch setup provider info p) m (.error (.dispatch f))
      { m with storage := { m.storage with pipelines := others } } [] := by
  subst hothers
  exact .ask (Memory.handle_unsent hsend) (.ask (Memory.handle_up hup (.delete p.id)) (.done _ _))

/-! ## Making a pipeline -/

theorem handle_creationInfo (hup : m.storage.failing = false) (name : String) (id : Int64) :
    Memory.handle outside (.storage (.creationInfo name id)) m =
      (.ok ((m.storage.repo? name id).map fun r =>
        ⟨r.id, r.owner, r.name, r.archived, MemoryStorage.ownerToken r.owner⟩), m) :=
  Memory.handle_up hup _

theorem handle_created {new : Storage.NewPipeline} {s : MemoryStorage} (hup : m.storage.failing = false)
    (hinsert : m.storage.insert new = some (p, s)) :
    Memory.handle outside (.storage (.create new)) m = (.ok p, { m with storage := s }) := by
  simp only [Memory.handle_up hup, MemoryStorage.perform, hinsert]

theorem handle_exhausted {new : Storage.NewPipeline} (hup : m.storage.failing = false)
    (hinsert : m.storage.insert new = none) :
    Memory.handle outside (.storage (.create new)) m = (.error (.database .exhausted), m) := by
  simp only [Memory.handle_up hup, MemoryStorage.perform, hinsert]

/-- The removal of a new pipeline leaves those before it. -/
theorem filter_new {new : Storage.NewPipeline} {s s' : MemoryStorage} (h : s.Numbered)
    (hinsert : s.insert new = some (p, s')) : s'.pipelines.filter (·.id != p.id) = s.pipelines := by
  have hlt := h.lt_new hinsert
  obtain ⟨-, -, rfl⟩ := MemoryStorage.insert_eq hinsert
  have hkeep : ∀ q ∈ s.pipelines, (q.id != p.id) = true := fun q hq =>
    bne_iff_ne.2 fun heq => Int.ne_of_lt (hlt q hq) (congrArg Int64.toInt heq)
  simp [List.filter_append, List.filter_eq_self.2 hkeep]

/-- The work of a new pipeline is queued, and its status is shown. -/
theorem dispatch_built (h : m.WF) (outside : Outside) {s : MemoryStorage}
    (hbuildable : Buildable m provider push r)
    (hinsert : m.storage.insert ⟨r.id, push.commit, push.cloneUrl, setup.settings.pipelineUrlBase⟩ =
      some (p, s)) :
    ∃ m' shown, Carried outside (dispatch setup provider
      ⟨r.id, r.owner, r.name, r.archived, MemoryStorage.ownerToken r.owner⟩ p) { m with storage := s }
        (.ok (.created p)) m' shown ∧ Built setup provider push r m p m' shown := by
  have hnumber := MemoryStorage.insert_number hinsert
  have hnewest := h.numbered.lt_new hinsert
  obtain ⟨-, hp, rfl⟩ := MemoryStorage.insert_eq hinsert
  have hsend := MemoryQueue.send_eq h.queue hbuildable.queued ⟨p, MemoryStorage.ownerToken r.owner⟩
  refine ⟨_, _, dispatch_sent hsend, ?_⟩
  constructor
  case number => exact hnumber
  case newest => exact hnewest
  case isNew =>
    rw [hp]
    exact ⟨rfl, rfl, rfl⟩
  case commit => rw [hp]
  case repo => rw [hp]
  case storage => rfl
  case queue => exact ⟨_, Work.ofPayload_payload _, rfl⟩
  case announced => rfl
  case others => rfl

/-- A push that nothing stands in the way of leaves all that belongs to a pipeline behind. -/
theorem build_built (h : m.WF) (setup : Setup) (outside : Outside) (hbuildable : Buildable m provider push r) :
    ∃ p m' shown, Carried outside (build setup provider push) m (.ok (.created p)) m' shown ∧
      Built setup provider push r m p m' shown := by
  have hinfo := @handle_creationInfo outside m hbuildable.up provider.name push.providerRepoId
  rw [hbuildable.registered, Option.map_some] at hinfo
  obtain ⟨p, s, hinsert⟩ := MemoryStorage.insert_some
    ⟨r.id, push.commit, push.cloneUrl, setup.settings.pipelineUrlBase⟩ hbuildable.idLeft
  obtain ⟨m', shown, hsent, hbuilt⟩ := dispatch_built h outside hbuildable hinsert
  rw [hbuildable.current] at hinfo hsent
  exact ⟨p, m', shown, .ask hinfo (.ask (handle_created hbuildable.up hinsert) hsent), hbuilt⟩

/-- A push that something stands in the way of leaves nothing behind. -/
theorem build_unbuilt (h : m.WF) (setup : Setup) (outside : Outside)
    (hunbuildable : ∀ r, ¬ Buildable m provider push r) :
    ∃ f n, m.storage.lastId ≤ n ∧ Carried outside (build setup provider push) m (.error f)
      { m with storage := { m.storage with lastId := n } } [] := by
  cases hup : m.storage.failing with
  | true => exact ⟨_, _, Nat.le_refl _, .ask (Memory.handle_down hup _) (.done _ _)⟩
  | false =>
    have hinfo := @handle_creationInfo outside m hup provider.name push.providerRepoId
    cases hrepo : m.storage.repo? provider.name push.providerRepoId with
    | none =>
      rw [hrepo] at hinfo
      exact ⟨_, _, Nat.le_refl _, .ask hinfo (.done _ _)⟩
    | some r =>
      rw [hrepo, Option.map_some] at hinfo
      cases harchived : r.archived with
      | true =>
        rw [harchived] at hinfo
        exact ⟨_, _, Nat.le_refl _, .ask hinfo (.done _ _)⟩
      | false =>
        rw [harchived] at hinfo
        -- the row may be refused only because no ids are left
        cases hinsert : m.storage.insert ⟨r.id, push.commit, push.cloneUrl, setup.settings.pipelineUrlBase⟩ with
        | none => exact ⟨_, _, Nat.le_refl _, .ask hinfo (.ask (handle_exhausted hup hinsert) (.done _ _))⟩
        | some created =>
          obtain ⟨p, s⟩ := created
          have hcreated := @handle_created outside m p _ s hup hinsert
          have hkept := filter_new h.numbered hinsert
          obtain ⟨hleft, -, rfl⟩ := MemoryStorage.insert_eq hinsert
          cases hqueue : m.queue.unavailable with
          | true =>
            have hsend := MemoryQueue.send_down hqueue ⟨p, MemoryStorage.ownerToken r.owner⟩
            exact ⟨_, _, Nat.le_succ _, .ask hinfo (.ask hcreated (dispatch_unsent hup hsend hkept))⟩
          | false => exact absurd ⟨hup, hrepo, harchived, hleft, hqueue⟩ (hunbuildable r)

/-! ## Deliveries -/

section
variable {name : String} {headers : Http.Headers} {body : Bytes}

theorem accept_welcome (h : m.WF) (outside : Outside)
    (hwelcome : Welcome setup name headers body m provider push r) :
    ∃ p m' shown, Carried outside (accept setup name headers body) m (.ok (.created p)) m' shown ∧
      Built setup provider push r m p m' shown := by
  unfold accept
  rw [hwelcome.known]
  dsimp only
  rw [if_pos hwelcome.genuine, hwelcome.event]
  exact build_built h setup outside hwelcome.buildable

theorem accept_unwelcome (h : m.WF) (outside : Outside)
    (hunwelcome : ∀ provider push r, ¬ Welcome setup name headers body m provider push r) :
    ∃ answer n, (∀ p, answer ≠ .ok (.created p)) ∧ m.storage.lastId ≤ n ∧
      Carried outside (accept setup name headers body) m answer
        { m with storage := { m.storage with lastId := n } } [] := by
  have hnothing : ∀ answer : Except HookFault HookOutcome, (∀ p, answer ≠ .ok (.created p)) →
      ∃ answer' n, (∀ p, answer' ≠ .ok (.created p)) ∧ m.storage.lastId ≤ n ∧
        Carried outside (.done answer) m answer' { m with storage := { m.storage with lastId := n } } [] :=
    fun answer hanswer => ⟨answer, m.storage.lastId, hanswer, Nat.le_refl _, .done _ _⟩
  unfold accept
  cases hprovider : Provider.ofName? setup.providers name with
  | none => exact hnothing (.error (.unknownProvider name)) fun _ h => by cases h
  | some provider =>
    dsimp only
    by_cases hverify : provider.verify headers body setup.settings.webhookSecret
    · rw [if_pos hverify]
      cases hevent : provider.event headers body with
      | error f => exact hnothing (.error (.invalidPayload f)) fun _ h => by cases h
      | ok event =>
        cases event with
        | ping => exact hnothing (.ok .ping) fun _ h => by cases h
        | ignored reason => exact hnothing (.ok (.ignored reason)) fun _ h => by cases h
        | unsupported event => exact hnothing (.error (.unsupported event)) fun _ h => by cases h
        | push push =>
          obtain ⟨f, n, hn, hcarried⟩ := build_unbuilt h setup outside fun r hbuildable =>
            hunwelcome provider push r ⟨hprovider, hverify, hevent, hbuildable⟩
          exact ⟨.error f, n, fun _ h => (by cases h), hn, hcarried⟩
    · rw [if_neg hverify]
      exact hnothing (.error .invalidSignature) fun _ h => by cases h

end

theorem accept_cases (h : m.WF) (setup : Setup) (outside : Outside) (name : String) (headers : Http.Headers)
    (body : Bytes) : ∃ answer m' shown, Carried outside (accept setup name headers body) m answer m' shown ∧
      Outcome setup name headers body m answer m' shown := by
  by_cases hwelcome : ∃ provider push r, Welcome setup name headers body m provider push r
  · obtain ⟨provider, push, r, hwelcome⟩ := hwelcome
    obtain ⟨p, m', shown, hcarried, hbuilt⟩ := accept_welcome h outside hwelcome
    exact ⟨_, m', shown, hcarried, .built hwelcome hbuilt⟩
  · have hunwelcome : ∀ provider push r, ¬ Welcome setup name headers body m provider push r :=
      fun provider push r h => hwelcome ⟨provider, push, r, h⟩
    obtain ⟨answer, n, hanswer, hn, hcarried⟩ := accept_unwelcome h outside hunwelcome
    exact ⟨answer, _, [], hcarried, .nothing hunwelcome hanswer hn⟩

/-- Whatever a coordinator has been through, a delivery leaves all that belongs to a new pipeline behind if it is
welcome, and answers so, and else nothing. The id of the pipeline is greater than all that were ever given, also to
pipelines that are gone; and a delivery that is not genuine is told no more than that. -/
theorem accept_all_or_nothing (setup : Setup) (outside : Outside) (happened : List Happening) (name : String)
    (headers : Http.Headers) (body : Bytes) :
    let m := Memory.of happened
    let service := accept setup name headers body
    let result := service.run (Memory.handle outside) m
    Outcome setup name headers body m result.1 result.2 (shownBy outside service m) ∧
    (∀ p, result.1 = .ok (.created p) → ∀ before, before <+: happened →
      ∀ q ∈ (Memory.of before).storage.pipelines, q.id.toInt < p.id.toInt) ∧
    ∀ provider, Provider.ofName? setup.providers name = some provider →
      provider.verify headers body setup.settings.webhookSecret = false →
      result.1 = .error .invalidSignature := by
  intro m service result
  obtain ⟨answer, m', shown, hcarried, houtcome⟩ :=
    accept_cases (Memory.WF.of happened) setup outside name headers body
  have hresult : result = (answer, m') := hcarried.run
  refine ⟨?_, fun p hcreated before hbefore => ?_, fun provider hprovider hverify => ?_⟩
  · rw [hresult, hcarried.shown]
    exact houtcome
  · rw [hresult] at hcreated
    cases houtcome with
    | nothing _ hanswer _ => exact absurd hcreated (hanswer p)
    | built _ hbuilt =>
      cases hcreated
      exact (Memory.WF.of before).numbered.lt_next (Memory.lastId_of hbefore) hbuilt.number
  · have hservice : service = .done (.error .invalidSignature) := by
      show accept setup name headers body = _
      unfold accept
      simp only [hprovider, hverify, Bool.false_eq_true, if_false]
      rfl
    show (service.run (Memory.handle outside) m).1 = _
    rw [hservice]
    rfl

end Pipeworks.Coordinator
