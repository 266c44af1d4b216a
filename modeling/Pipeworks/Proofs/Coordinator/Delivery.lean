/-
One delivery that makes a pipeline, and the reports about it that begin once its work is in the queue, where
every call goes well. When all services are done, each status that the pipeline has had was shown once. In
which order they were shown is another matter: the delivery shows that the pipeline is pending only after
the work is in the queue, and keeping a status and showing it are two calls.
-/
import Pipeworks.Proofs.Coordinator.Forward
import Pipeworks.Proofs.Storage.Memory

namespace Pipeworks.Coordinator

variable {setup : Setup} {id i : Int64} {s s' : MemoryStorage} {w w' : World}

/-! ## Steps -/

/-- A report may begin once the work of its pipeline is in the queue. -/
def MayReport (w : World) (t : Task) : Prop :=
  ∃ r work, t = .report r ∧ work ∈ w.queued ∧ work.pipeline.id = r.pipelineId

/-- Nothing fails. -/
def GoesWell (c : Call) (s : MemoryStorage) (answer : Answer c) (s' : MemoryStorage) : Prop :=
  answer = (smooth c s).1 ∧ s' = (smooth c s).2 ∧ c.isOk answer

def DeliveryStep (setup : Setup) : World → World → Prop := Step setup MayReport GoesWell

def DeliverySteps (setup : Setup) : World → World → Prop := Relation.ReflTransGen (DeliveryStep setup)

/-- Every service is done. -/
def World.Completed (w : World) : Prop := ∀ f ∈ w.flights, ∃ a, f.rest = .done a

def Flight.isDone (f : Flight) : Bool :=
  match f.rest with
  | .done _ => true
  | .ask _ _ => false

theorem completed_of_isDone (h : w.flights.all Flight.isDone) : w.Completed := by
  intro f hf
  have hdone := List.all_eq_true.1 h f hf
  unfold Flight.isDone at hdone
  cases hrest : f.rest with
  | done a => exact ⟨a, rfl⟩
  | ask c next =>
    rw [hrest] at hdone
    cases hdone

/-- The statuses that providers were asked to show, in order. -/
def World.statuses (w : World) : List Status := w.shown.map fun x => x.2.status

/-- Where one service is in flight and no work is queued, only that service can go on. -/
theorem alone_step {t : Task} {c : Call} {next : Answer c → Service t.Result}
    (hflights : w.flights = [⟨t, .ask c next⟩]) (hqueued : w.queued = [])
    (hstep : DeliveryStep setup w w') :
    c.isOk (smooth c w.storage).1 ∧
      w' = w.call t c (smooth c w.storage).1 (smooth c w.storage).2 [⟨t, next (smooth c w.storage).1⟩] := by
  cases hstep with
  | begins t' ht =>
    obtain ⟨r, work, -, hwork, -⟩ := ht
    rw [hqueued] at hwork
    cases hwork
  | @calls front back t' c' next' answer s hflights' hanswer =>
    rw [hflights] at hflights'
    obtain ⟨rfl, hback⟩ | ⟨-, hback⟩ := List.singleton_eq_append_iff.1 hflights'
    · cases hback
      obtain ⟨rfl, rfl, hok⟩ := hanswer
      exact ⟨hok, rfl⟩
    · cases hback

/-! ## Once the work is in the queue -/

/-- What a storage may answer that holds what is needed to show the pipeline. -/
def MaySay (id : Int64) (info : Storage.StateChangeInfo) (c : Storage.Call) (answer : Storage.Answer c) :
    Prop :=
  ∃ s : MemoryStorage, s.stateChangeInfo id = some info ∧ (s.perform c).1 = answer

/-- A service that ends with all its credits spent. -/
def Spent (id : Int64) (info : Storage.StateChangeInfo) (x : Account) : Prop :=
  Spends (MaySay id info) (· = []) id x.1.rest x.2

/-- The work is in the queue: all that was shown of its pipeline and all that is still owed are together
the statuses that it has had. -/
structure Open (setup : Setup) (work : Work) (info : Storage.StateChangeInfo) (w : World) : Prop where
  queued : w.queued = [work]
  shownAt : w.storage.stateChangeInfo work.pipeline.id = some info
  provider : ∃ provider, Provider.ofName? setup.providers info.provider = some provider
  course : Course (w.history work.pipeline.id) (w.storage.pipeline? work.pipeline.id)
  balance : Balanced (Spent work.pipeline.id info) Prod.snd w.flights w.statuses
    (w.history work.pipeline.id)

variable {work : Work} {info : Storage.StateChangeInfo}

theorem statuses_call (w : World) (t : Task) (c : Call) (answer : Answer c) (s : MemoryStorage)
    (flights : List Flight) :
    (w.call t c answer s flights).statuses = w.statuses ++ c.shows.map CommitStatus.status := by
  unfold World.statuses World.call
  rw [List.map_append, List.map_map]
  rfl

theorem open_begins (r : Report) (hr : r.pipelineId = work.pipeline.id) (h : Open setup work info w) :
    Open setup work info { w with flights := w.flights ++ [⟨.report r, hear setup r⟩] } := by
  obtain ⟨provider, hprovider⟩ := h.provider
  have hspent : Spent work.pipeline.id info (⟨.report r, hear setup r⟩, []) := by
    unfold Spent
    rw [← hr]
    refine hear_spends r rfl (.inr fun answer hanswer => ?_)
    obtain ⟨s, hs, rfl⟩ := hanswer
    exact ⟨info, provider, by rw [hr] at *; exact congrArg Except.ok hs, hprovider⟩
  exact ⟨h.queued, h.shownAt, h.provider, h.course, h.balance.begins hspent rfl⟩

section
variable {front back : List Flight} {t : Task}

theorem open_storage {c : Storage.Call} {next : Storage.Answer c → Service t.Result}
    (h : Open setup work info w) (hflights : w.flights = front ++ ⟨t, .ask (.storage c) next⟩ :: back) :
    Open setup work info (w.call t (.storage c) (w.storage.perform c).1 (w.storage.perform c).2
      (front ++ ⟨t, next (w.storage.perform c).1⟩ :: back)) := by
  have hbalance := hflights ▸ h.balance
  obtain ⟨_, hcall, -⟩ := hbalance.holds_of_flight
  obtain ⟨hcourse, hhistory, -⟩ := effect_course h.course (performed_effect hcall w.storage)
  refine ⟨by simpa [World.call, Call.queues] using h.queued,
    (performed_stateChangeInfo hcall w.storage _).trans h.shownAt, h.provider,
    by rw [w.history_call]; exact hcourse, ?_⟩
  rw [statuses_call, w.history_call, hhistory, if_pos rfl]
  refine hbalance.goes ?_
  rintro credits ⟨-, hrest⟩
  refine ⟨gained c (w.storage.perform c).1 ++ credits, hrest _ ⟨w.storage, h.shownAt, rfl⟩, ?_⟩
  simp only [Call.shows, List.map_nil, List.append_nil, List.append_assoc]
  exact List.perm_append_comm.append_left _

theorem open_post {provider : Provider} {token : Token} {status : CommitStatus}
    {next : Except Provider.Fault Unit → Service t.Result} (h : Open setup work info w)
    (hflights : w.flights = front ++ ⟨t, .ask (.post provider token status) next⟩ :: back) :
    Open setup work info (w.call t (.post provider token status) (.ok ()) w.storage
      (front ++ ⟨t, next (.ok ())⟩ :: back)) := by
  have hbalance := hflights ▸ h.balance
  have hsame := note_same h.course rfl
  refine ⟨by simpa [World.call, Call.queues] using h.queued, h.shownAt, h.provider,
    by rw [w.history_call, hsame]; exact h.course, ?_⟩
  rw [statuses_call, w.history_call, hsame, ← List.append_nil (w.history _)]
  refine hbalance.goes ?_
  rintro credits ⟨hcredit, hrest⟩
  refine ⟨credits.erase status.status, hrest _, ?_⟩
  simp only [Call.shows, List.map_cons, List.map_nil, List.append_nil, List.append_assoc]
  exact (List.perm_cons_erase hcredit).symm.append_left _

end

theorem open_step (h : Open setup work info w) (hstep : DeliveryStep setup w w') :
    Open setup work info w' := by
  cases hstep with
  | begins t ht =>
    obtain ⟨r, work', rfl, hwork, hid⟩ := ht
    rw [h.queued, List.mem_singleton] at hwork
    exact open_begins r (hwork ▸ hid.symm) h
  | @calls front back t c next answer s hflights hanswer =>
    obtain ⟨credits, hspends⟩ := (hflights ▸ h.balance).holds_of_flight
    obtain ⟨rfl, rfl, -⟩ := hanswer
    cases c with
    | storage c => exact open_storage h hflights
    | post provider token status => exact open_post h hflights
    | send work => exact hspends.elim
    | transcript i => exact hspends.elim

/-! ## Before the work is in the queue -/

/-- The creation of a pipeline, once its repository was found. -/
def createAndDispatch (setup : Setup) (provider : Provider) (push : Push) (info : Storage.CreationInfo) :
    Service (Except HookFault HookOutcome) :=
  .ask (.storage (.create ⟨info.repoId, push.commit, push.cloneUrl, setup.settings.pipelineUrlBase⟩)) fun
    | .error f => .done (.error (.storage f))
    | .ok p => dispatch setup provider info p

theorem build_eq (setup : Setup) (provider : Provider) (push : Push) :
    build setup provider push = .ask (.storage (.creationInfo provider.name push.providerRepoId)) fun
      | .error f => .done (.error (.storage f))
      | .ok none => .done (.error (.unknownRepo push.providerRepoId))
      | .ok (some info) =>
        if info.archived then .done (.error (.archivedRepo push.providerRepoId))
        else createAndDispatch setup provider push info := rfl

section
variable (setup) (name : String) (headers : Http.Headers) (body : Bytes)

/-- The delivery is alone, and nothing was kept, queued or shown yet. -/
structure Alone (w : World) (p : Service (Except HookFault HookOutcome)) : Prop where
  flights : w.flights = [⟨.delivery name headers body, p⟩]
  queued : w.queued = []
  shown : w.shown = []
  past : ∀ m ∈ w.past, m = w.storage
  ids : w.storage.WF

/-- Where a delivery is before its work is queued: it is over, it looks up the repository, it creates the
pipeline, or it is about to queue the work. -/
inductive Early (w : World) : Prop
  | ended : w.Completed → w.queued = [] → Early w
  | looking {provider : Provider} {push : Push} :
      Alone name headers body w (build setup provider push) →
      Provider.ofName? setup.providers provider.name = some provider → Early w
  | creating {provider : Provider} {push : Push} {info : Storage.CreationInfo} {r : Repo} :
      Alone name headers body w (createAndDispatch setup provider push info) →
      Provider.ofName? setup.providers provider.name = some provider →
      r ∈ w.storage.repos → r.provider = provider.name → r.id = info.repoId → Early w
  | sending {provider : Provider} {info : Storage.CreationInfo} {shownAt : Storage.StateChangeInfo}
      {p : Pipeline} :
      w.flights = [⟨.delivery name headers body, dispatch setup provider info p⟩] → w.queued = [] →
      w.shown = [] → w.storage.pipeline? p.id = some p → p.IsNew → w.history p.id = [.pending] →
      w.storage.stateChangeInfo p.id = some shownAt →
      Provider.ofName? setup.providers shownAt.provider = some provider → Early w

variable {setup name headers body}

/-- Nothing goes on where all is done and no work is queued. -/
theorem no_step (hdone : w.Completed) (hqueued : w.queued = []) (hstep : DeliveryStep setup w w') :
    False := by
  cases hstep with
  | begins t ht =>
    obtain ⟨r, work, -, hwork, -⟩ := ht
    rw [hqueued] at hwork
    cases hwork
  | calls hflights hanswer =>
    obtain ⟨a, ha⟩ := hdone _ (hflights ▸ List.mem_append_right _ List.mem_cons_self)
    cases ha

/-- The service is done, and has queued nothing. -/
theorem early_over {t : Task} {c : Call} {answer : Answer c} {a : t.Result} (hqueued : w.queued = [])
    (hnone : c.queues answer = []) :
    Early setup name headers body (w.call t c answer s [⟨t, .done a⟩]) := by
  refine .ended (fun f hf => ?_) ?_
  · obtain rfl := List.mem_singleton.1 hf
    exact ⟨a, rfl⟩
  · show w.queued ++ c.queues answer = []
    rw [hqueued, hnone]
    rfl

theorem looking_step {provider : Provider} {push : Push}
    (h : Alone name headers body w (build setup provider push))
    (hprovider : Provider.ofName? setup.providers provider.name = some provider)
    (hstep : DeliveryStep setup w w') : Early setup name headers body w' := by
  obtain ⟨-, rfl⟩ := alone_step (build_eq setup provider push ▸ h.flights) h.queued hstep
  have hanswer : (smooth (.storage (.creationInfo provider.name push.providerRepoId)) w.storage).1 =
      .ok (w.storage.creationInfo provider.name push.providerRepoId) := rfl
  rw [hanswer]
  cases hinfo : w.storage.creationInfo provider.name push.providerRepoId with
  | none => exact early_over h.queued rfl
  | some info =>
    dsimp only
    split
    case isTrue => exact early_over h.queued rfl
    case isFalse =>
      obtain ⟨r, hr, hname, hid⟩ := MemoryStorage.mem_of_creationInfo hinfo
      refine @Early.creating setup name headers body _ provider push info r ⟨rfl, ?_, ?_, ?_, h.ids⟩
        hprovider hr hname hid
      · simp [World.call, Call.queues, h.queued]
      · simp [World.call, Call.shows, h.shown]
      · intro m hm
        rcases List.mem_append.1 hm with hm | hm
        · exact h.past m hm
        · exact List.mem_singleton.1 hm

theorem creating_step {provider : Provider} {push : Push} {info : Storage.CreationInfo} {r : Repo}
    (h : Alone name headers body w (createAndDispatch setup provider push info))
    (hprovider : Provider.ofName? setup.providers provider.name = some provider)
    (hr : r ∈ w.storage.repos) (hname : r.provider = provider.name) (hid : r.id = info.repoId)
    (hstep : DeliveryStep setup w w') : Early setup name headers body w' := by
  obtain ⟨-, rfl⟩ := alone_step h.flights h.queued hstep
  cases hinsert : w.storage.insert ⟨info.repoId, push.commit, push.cloneUrl,
      setup.settings.pipelineUrlBase⟩ with
  | none =>
    have hsmooth : smooth (.storage (.create ⟨info.repoId, push.commit, push.cloneUrl,
        setup.settings.pipelineUrlBase⟩)) w.storage = (.error (.database .exhausted), w.storage) := by
      simp only [smooth, MemoryStorage.perform, hinsert]
    rw [hsmooth]
    exact early_over h.queued rfl
  | some created =>
    obtain ⟨p, s⟩ := created
    have hsmooth : smooth (.storage (.create ⟨info.repoId, push.commit, push.cloneUrl,
        setup.settings.pipelineUrlBase⟩)) w.storage = (.ok p, s) := by
      simp only [smooth, MemoryStorage.perform, hinsert]
    rw [hsmooth]
    obtain ⟨hnone, hrow, hnew, -, -⟩ := MemoryStorage.insert_new h.ids hinsert
    obtain ⟨shownAt, hinfo, hat⟩ := MemoryStorage.stateChangeInfo_insert h.ids hinsert hr hid
    refine .sending rfl ?_ ?_ hrow hnew ?_ hinfo (by rw [hat, hname]; exact hprovider)
    · simp [World.call, Call.queues, h.queued]
    · simp [World.call, Call.shows, h.shown]
    -- its id is new, so nothing was noted of it before
    · have habsent : w.history p.id = [] := by
        refine foldl_note_absent fun m hm => ?_
        rcases List.mem_append.1 hm with hm | hm
        · rw [h.past m hm, hnone]
        · rw [List.mem_singleton.1 hm, hnone]
      rw [w.history_call, habsent]
      exact note_new hrow hnew

theorem sending_step {provider : Provider} {info : Storage.CreationInfo}
    {shownAt : Storage.StateChangeInfo} {p : Pipeline}
    (hflights : w.flights = [⟨.delivery name headers body, dispatch setup provider info p⟩])
    (hqueued : w.queued = []) (hshown : w.shown = []) (hrow : w.storage.pipeline? p.id = some p)
    (hnew : p.IsNew) (hhistory : w.history p.id = [.pending])
    (hinfo : w.storage.stateChangeInfo p.id = some shownAt)
    (hprovider : Provider.ofName? setup.providers shownAt.provider = some provider)
    (hstep : DeliveryStep setup w w') : Open setup ⟨p, info.token⟩ shownAt w' := by
  obtain ⟨-, rfl⟩ := alone_step hflights hqueued hstep
  have hcourse : Course (w.history p.id) (w.storage.pipeline? p.id) := by
    rw [hhistory, hrow]
    exact hnew.course
  have hsame := note_same hcourse rfl
  refine ⟨?_, hinfo, ⟨provider, hprovider⟩, ?_, [(_, [.pending])], rfl, ?_, ?_⟩
  · show w.queued ++ [_] = [_]
    rw [hqueued]
    rfl
  · rw [w.history_call]
    show Course (note p.id (w.history p.id) w.storage) (w.storage.pipeline? p.id)
    rw [hsame]
    exact hcourse
  · intro x hx
    rw [List.mem_singleton.1 hx]
    exact ⟨List.mem_singleton_self _, fun _ => rfl⟩
  · rw [statuses_call, w.history_call]
    show (w.statuses ++ [] ++ [Status.pending]).Perm (note p.id (w.history p.id) w.storage)
    rw [hsame, hhistory]
    unfold World.statuses
    rw [hshown]
    exact .rfl

/-- The start of a delivery. -/
def delivered (setup : Setup) (s : MemoryStorage) (name : String) (headers : Http.Headers) (body : Bytes) :
    World where
  storage := s
  flights := [⟨.delivery name headers body, accept setup name headers body⟩]

theorem early_delivered (hids : s.WF) :
    Early setup name headers body (delivered setup s name headers body) := by
  have hover : ∀ a, accept setup name headers body = .done a →
      Early setup name headers body (delivered setup s name headers body) := by
    intro a ha
    refine .ended (fun f hf => ?_) rfl
    obtain rfl := List.mem_singleton.1 hf
    exact ⟨a, ha⟩
  cases hprovider : Provider.ofName? setup.providers name with
  | none => exact hover _ (by simp only [accept, hprovider]; rfl)
  | some provider =>
    have hname : provider.name = name := by
      simpa using List.find?_some hprovider
    by_cases hverify : provider.verify headers body setup.settings.webhookSecret
    case neg => exact hover _ (by simp only [accept, hprovider, hverify]; rfl)
    cases hevent : provider.event headers body with
    | error f => exact hover _ (by simp only [accept, hprovider, hverify, hevent, if_true]; rfl)
    | ok event =>
      cases event with
      | ping => exact hover _ (by simp only [accept, hprovider, hverify, hevent, if_true]; rfl)
      | ignored reason => exact hover _ (by simp only [accept, hprovider, hverify, hevent, if_true]; rfl)
      | unsupported event => exact hover _ (by simp only [accept, hprovider, hverify, hevent, if_true]; rfl)
      | push push =>
        have haccept : accept setup name headers body = build setup provider push := by
          simp only [accept, hprovider, hverify, hevent, if_true]
        have halone : Alone name headers body (delivered setup s name headers body)
            (build setup provider push) :=
          ⟨by rw [← haccept]; rfl, rfl, rfl, List.forall_mem_nil _, hids⟩
        exact .looking halone (by rw [hname]; exact hprovider)

/-- A delivery and the reports about its pipeline, at any time. -/
theorem early_or_open (hids : s.WF) (hsteps : DeliverySteps setup (delivered setup s name headers body) w) :
    Early setup name headers body w ∨ ∃ work info, Open setup work info w := by
  induction hsteps with
  | refl => exact .inl (early_delivered hids)
  | tail _ hstep ih =>
    rcases ih with hearly | ⟨work, info, hopen⟩
    · cases hearly with
      | ended hdone hqueued => exact (no_step hdone hqueued hstep).elim
      | looking h hprovider => exact .inl (looking_step h hprovider hstep)
      | creating h hprovider hr hname hid => exact .inl (creating_step h hprovider hr hname hid hstep)
      -- sending the work is what lets reports begin
      | sending hflights hqueued hshown hrow hnew hhistory hinfo hprovider =>
        exact .inr ⟨_, _, sending_step hflights hqueued hshown hrow hnew hhistory hinfo hprovider hstep⟩
    · exact .inr ⟨work, info, open_step hopen hstep⟩

end

/-! ## What was shown in the end -/

theorem open_completed {work : Work} {info : Storage.StateChangeInfo} (h : Open setup work info w)
    (hdone : w.Completed) : w.statuses.Perm (w.history work.pipeline.id) := by
  obtain ⟨accounts, haccounts, hspent, hbalance⟩ := h.balance
  have howed : accounts.flatMap Prod.snd = [] := by
    refine List.flatMap_eq_nil_iff.2 fun x hx => ?_
    obtain ⟨a, ha⟩ := hdone x.1 (haccounts ▸ List.mem_map_of_mem hx)
    have hspends := hspent x hx
    unfold Spent at hspends
    rw [ha] at hspends
    exact hspends
  rwa [howed, List.append_nil] at hbalance

theorem idxOf_lt_idxOf_last {front : List Status} {a b : Status} (h : (front ++ [a]).Nodup)
    (hb : b ∈ front) : (front ++ [a]).idxOf b < (front ++ [a]).idxOf a := by
  have hnot : a ∉ front := by
    rw [List.nodup_append] at h
    exact fun hmem => h.2.2 a hmem a (List.mem_singleton_self a) rfl
  have hlt := List.idxOf_lt_length_iff.2 hb
  rw [List.idxOf_append_of_mem hb, List.idxOf_append_of_notMem hnot]
  omega

/-- The last of a list without duplicates comes after all others. -/
theorem getLast?_eq_some_iff_idxOf {l : List Status} {a : Status} (hl : l.Nodup) (ha : a ∈ l) :
    l.getLast? = some a ↔ ∀ b ∈ l, b ≠ a → l.idxOf b < l.idxOf a := by
  constructor
  · intro hlast b hb hne
    obtain ⟨front, rfl⟩ := List.getLast?_eq_some_iff.1 hlast
    exact idxOf_lt_idxOf_last hl (by simpa [hne] using hb)
  · intro hbefore
    obtain ⟨front, c, rfl⟩ : ∃ front c, l = front ++ [c] :=
      (List.eq_nil_or_concat' l).resolve_left (List.ne_nil_of_mem ha)
    by_cases hc : c = a
    · rw [hc, List.getLast?_concat]
    · have hfront : a ∈ front := by simpa [Ne.symm hc] using ha
      have hlt := idxOf_lt_idxOf_last hl hfront
      have hgt := hbefore c (by simp) hc
      omega

/-- Where all has gone well and all services are done, each status of the pipeline was shown once; the one
in which it ended was shown last exactly if the others were shown before it. -/
theorem delivered_statuses (setup : Setup) (s : MemoryStorage) (hids : s.WF) (name : String)
    (headers : Http.Headers) (body : Bytes) (w : World)
    (hsteps : DeliverySteps setup (delivered setup s name headers body) w) (hdone : w.Completed) :
    ∀ work ∈ w.queued, w.queued = [work] ∧ w.statuses.Perm (w.history work.pipeline.id) ∧
      ∀ p, w.storage.pipeline? work.pipeline.id = some p → p.status.isTerminal →
        (w.statuses.getLast? = some p.status ↔
          ∀ status ∈ w.history work.pipeline.id, status ≠ p.status →
            w.statuses.idxOf status < w.statuses.idxOf p.status) := by
  intro work hwork
  rcases early_or_open hids hsteps with hearly | ⟨work', info, hopen⟩
  · have hqueued : w.queued = [] := by
      cases hearly with
      | ended _ hqueued => exact hqueued
      | looking h _ => exact h.queued
      | creating h _ _ _ _ => exact h.queued
      | sending _ hqueued _ _ _ _ _ _ => exact hqueued
    rw [hqueued] at hwork
    cases hwork
  · obtain rfl : work = work' := by
      rw [hopen.queued] at hwork
      exact List.mem_singleton.1 hwork
    have hperm := open_completed hopen hdone
    refine ⟨hopen.queued, hperm, fun p hrow hended => ?_⟩
    have hlast : p.status ∈ w.history work.pipeline.id := by
      have hget := hopen.course.getLast?
      rw [hrow, Option.map_some] at hget
      exact List.mem_of_getLast? hget
    rw [getLast?_eq_some_iff_idxOf (hperm.nodup_iff.2 hopen.course.nodup) (hperm.mem_iff.2 hlast)]
    simp only [hperm.mem_iff]

/-! ### A schedule -/

namespace Sample

/-- A repository without pipelines. -/
def known : MemoryStorage where
  repos := [⟨1, "fake", 7, "acme", "widget", false⟩]

def headers : Http.Headers :=
  [(Text.bytes "x-fake-secret", []), (Text.bytes "x-fake-event", Text.bytes "push")]

def body : Bytes := Text.bytes "\x7b\"repo_id\": 7, \"commit\": \"c0ffee\"\x7d"

def mayBegin (w : World) (r : Report) : Bool := w.queued.any fun work => work.pipeline.id == r.pipelineId

/-- A run that is over before the delivery shows that its pipeline is pending. -/
def late : World :=
  [.turn 0, .turn 0, .turn 0, .begin (.started ⟨1, time⟩), .turn 1, .turn 1, .turn 1,
    .begin (.finished ⟨1, time, .success, none⟩), .turn 2, .turn 2, .turn 2, .turn 0].foldl
    (World.play ⟨{}, [.plain]⟩ mayBegin) (delivered ⟨{}, [.plain]⟩ known "fake" headers body)

theorem known_ids : known.WF := ⟨by decide, List.forall_mem_nil _⟩

theorem late_steps :
    DeliverySteps ⟨{}, [.plain]⟩ (delivered ⟨{}, [.plain]⟩ known "fake" headers body) late := by
  refine play_steps (fun w r hmay => ?_) (fun c s hok => ⟨rfl, rfl, hok⟩) _ _
  obtain ⟨work, hwork, hid⟩ := List.any_eq_true.1 hmay
  exact ⟨r, work, rfl, hwork, by simpa using hid⟩

theorem late_completed : late.Completed := completed_of_isDone (by decide +kernel)

end Sample

theorem delivered_statuses_late :
    Sample.late.queued.length = 1 ∧
    ∀ work ∈ Sample.late.queued, Sample.late.statuses.Perm (Sample.late.history work.pipeline.id) :=
  ⟨by decide +kernel, fun work hwork => (delivered_statuses _ _ Sample.known_ids _ _ _ _ Sample.late_steps
    Sample.late_completed work hwork).2.1⟩

/-- The work is taken, and the run is over, before the delivery goes on: that the pipeline is pending is
shown last. -/
theorem stale_status_shown_last :
    ¬ ∀ (setup : Setup) (s : MemoryStorage) (name : String) (headers : Http.Headers) (body : Bytes)
      (w : World), s.WF → DeliverySteps setup (delivered setup s name headers body) w → w.Completed →
      ∀ work ∈ w.queued, ∀ p, w.storage.pipeline? work.pipeline.id = some p → p.status.isTerminal →
        w.statuses.getLast? = some p.status := by
  intro h
  have hqueued : Sample.late.queued.map (·.pipeline.id) = [1] := by decide +kernel
  have hrow : (Sample.late.storage.pipeline? 1).map Pipeline.status = some .success := by decide +kernel
  have hstatuses : Sample.late.statuses = [.running, .success, .pending] := by decide +kernel
  obtain ⟨work, hwork, hid⟩ : ∃ work ∈ Sample.late.queued, work.pipeline.id = 1 :=
    List.mem_map.1 (hqueued ▸ List.mem_singleton_self 1)
  obtain ⟨p, hp, hstatus⟩ := Option.map_eq_some_iff.1 hrow
  have hlast := h _ _ _ _ _ _ Sample.known_ids Sample.late_steps Sample.late_completed work hwork p
    (hid ▸ hp) (hstatus ▸ rfl)
  rw [hstatuses, hstatus] at hlast
  cases hlast

end Pipeworks.Coordinator
