/-
A coordinator in memory, which carries out one service after the other. What a service answers, what it
leaves behind and which statuses it asks providers to show is said together (`Carried`), call by call. Whatever
a coordinator has been through, the ids of its pipelines and the messages in its queue are as they should
be (`WF`).
-/
import Pipeworks.Coordinator.Memory
import Pipeworks.Proofs.Coordinator.Interleaving
import Pipeworks.Proofs.Program.Path
import Pipeworks.Proofs.Queue.History
import Pipeworks.Proofs.Storage.Log

namespace Pipeworks.Coordinator

/-! ## Services -/

/-- The statuses that a service asks providers to show, in order. -/
def shownBy {α : Type} (outside : Outside) (service : Service α) (m : Memory) : List CommitStatus :=
  (service.trace (Memory.handle outside) m).flatMap fun e => e.call.shows

/-- The call gives a status to a provider. -/
def Call.isPost : Call → Bool
  | .post _ _ _ => true
  | _ => false

/-- What a service gives to providers, in order, and what they answer. -/
def postedBy {α : Type} (outside : Outside) (service : Service α) (m : Memory) : List (Program.Event Call Answer) :=
  (service.trace (Memory.handle outside) m).filter (·.call.isPost)

/-- The answer of a service, the coordinator after it, and the statuses it asks providers to show. -/
structure Carried {α : Type} (outside : Outside) (service : Service α) (m : Memory) (a : α) (m' : Memory)
    (shown : List CommitStatus) : Prop where
  run : service.run (Memory.handle outside) m = (a, m')
  shown : shownBy outside service m = shown

namespace Carried

variable {α β : Type} {outside : Outside} {m m₁ m' : Memory} {shown more : List CommitStatus}

theorem done (a : α) (m : Memory) : Carried outside (.done a) m a m [] := ⟨rfl, rfl⟩

theorem ask {c : Call} {next : Answer c → Service α} {answer : Answer c} {a : α}
    (hanswer : Memory.handle outside c m = (answer, m₁))
    (hnext : Carried outside (next answer) m₁ a m' shown) :
    Carried outside (.ask c next) m a m' (c.shows ++ shown) := by
  constructor
  · show (next (Memory.handle outside c m).1).run _ (Memory.handle outside c m).2 = _
    rw [hanswer]
    exact hnext.run
  · show c.shows ++ shownBy outside (next (Memory.handle outside c m).1) (Memory.handle outside c m).2 = _
    rw [hanswer, hnext.shown]

theorem bind {service : Service α} {f : α → Service β} {a : α} {b : β}
    (h : Carried outside service m a m₁ shown) (hf : Carried outside (f a) m₁ b m' more) :
    Carried outside (service.bind f) m b m' (shown ++ more) := by
  induction service generalizing m shown with
  | done a' =>
    obtain ⟨hrun, rfl⟩ := h
    cases hrun
    exact hf
  | ask c next ih =>
    obtain ⟨hrun, rfl⟩ := h
    have hnext := ih (Memory.handle outside c m).1 ⟨hrun, rfl⟩
    exact (List.append_assoc c.shows _ more).symm ▸ ask rfl hnext

end Carried

/-! ## Calls -/

namespace Memory

variable {outside : Outside} {m : Memory}

theorem handle_up (hup : m.storage.failing = false) (c : Storage.Call) :
    handle outside (.storage c) m =
      ((m.storage.perform c).1, { m with storage := (m.storage.perform c).2 }) := by
  unfold handle MemoryStorage.handle
  simp only [hup, Bool.false_eq_true, if_false]

theorem handle_down (hdown : m.storage.failing) (c : Storage.Call) :
    handle outside (.storage c) m = (.error (.database .noConnection), m) := by
  unfold handle MemoryStorage.handle
  simp only [hdown, if_true]

theorem handle_sent {w : Work} {q : MemoryQueue} (hsend : m.queue.send w = .ok q) :
    handle outside (.send w) m = (.ok (), { m with queue := q }) := by
  simp only [handle, hsend]

theorem handle_unsent {w : Work} {f : Queue.Fault} (hsend : m.queue.send w = .error f) :
    handle outside (.send w) m = (.error f, m) := by
  simp only [handle, hsend]

/-- Of the statuses that a provider is asked to show, those that are kept: the plain provider keeps them, unless
it refuses. -/
def taken (m : Memory) (provider : Provider) (shown : List CommitStatus) : List CommitStatus :=
  if provider = .plain ∧ m.refusing = false then shown else []

theorem taken_nil (m : Memory) (provider : Provider) : m.taken provider [] = [] := ite_self _

theorem taken_append (m : Memory) (provider : Provider) (shown more : List CommitStatus) :
    m.taken provider (shown ++ more) = m.taken provider shown ++ m.taken provider more := by
  unfold taken
  split <;> rfl

theorem handle_post (m : Memory) (provider : Provider) (token : Token) (status : CommitStatus) :
    handle outside (.post provider token status) m = ((m.post outside provider token status).1,
      { m with posted := m.posted ++ m.taken provider [status] }) := by
  obtain ⟨storage, queue, transcripts, posted, refusing⟩ := m
  cases provider with
  | plain => cases refusing <;> simp [handle, post, taken]
  | github => simp [handle, post, taken]
  | gitlab => simp [handle, post, taken]

/-! ## What stays -/

/-- The pipelines have ids that were given to them, those that are pending have not been moved, the log
stands in order, and the queue is as it should be. -/
structure WF (m : Memory) : Prop where
  numbered : m.storage.Numbered
  pendingNew : m.storage.PendingNew
  logInOrder : MemoryStorage.LogInOrder m.storage.logs
  queue : m.queue.WF

theorem WF.new : WF {} := ⟨List.forall_mem_nil _, List.forall_mem_nil _, .nil, .empty⟩

/-- Every call of a service keeps the coordinator as it should be. -/
theorem WF.handle (h : m.WF) (outside : Outside) (c : Call) : (m.handle outside c).2.WF := by
  cases c with
  | storage c =>
    cases hup : m.storage.failing with
    | true =>
      rw [handle_down hup]
      exact h
    | false =>
      rw [handle_up hup]
      exact ⟨h.numbered.perform c, h.pendingNew.perform c, h.logInOrder.perform c, h.queue⟩
  | send work =>
    cases hsend : m.queue.send work with
    | error f =>
      rw [handle_unsent hsend]
      exact h
    | ok q =>
      rw [handle_sent hsend]
      exact ⟨h.numbered, h.pendingNew, h.logInOrder, h.queue.send hsend⟩
  | post provider token status =>
    rw [handle_post]
    exact ⟨h.numbered, h.pendingNew, h.logInOrder, h.queue⟩
  | transcript id => exact h

theorem WF.run {α : Type} (h : m.WF) (outside : Outside) (service : Service α) :
    (service.run (Memory.handle outside) m).2.WF := by
  induction service generalizing m with
  | done a => exact h
  | ask c next ih => exact ih _ (h.handle outside c)

end Memory

/-! ## What a coordinator has been through -/

/-- What may happen to a coordinator in memory: the calls that services make, and what is done to its
storage and its queue by others. What the providers and the transcripts are like is left open. -/
inductive Happening where
  | call (outside : Outside) (c : Call)
  | registered (provider : String) (providerRepoId : Int64) (owner name : String) (archived : Bool)
  | failing (on : Bool)
  | queue (a : Queue.Action)
  | elsewhere (transcripts : Transcript.MemoryStore) (posted : List CommitStatus) (refusing : Bool)

namespace Memory

def after (m : Memory) : Happening → Memory
  | .call outside c => (handle outside c m).2
  | .registered provider providerRepoId owner name archived =>
    { m with storage := (m.storage.addRepo provider providerRepoId owner name archived).2 }
  | .failing on => { m with storage := { m.storage with failing := on } }
  | .queue a => { m with queue := (a.perform m.queue).2 }
  | .elsewhere transcripts posted refusing => { m with transcripts, posted, refusing }

/-- A coordinator that was new before all that has happened. -/
def of (happened : List Happening) : Memory := happened.foldl after {}

theorem WF.after {m : Memory} (h : m.WF) (happening : Happening) : (m.after happening).WF := by
  cases happening with
  | call outside c => exact h.handle outside c
  | registered provider providerRepoId owner name archived =>
    unfold Memory.after MemoryStorage.addRepo
    dsimp only
    split <;> exact ⟨h.numbered, h.pendingNew, h.logInOrder, h.queue⟩
  | failing on => exact ⟨h.numbered, h.pendingNew, h.logInOrder, h.queue⟩
  | queue a => exact ⟨h.numbered, h.pendingNew, h.logInOrder, a.perform_wf h.queue⟩
  | elsewhere transcripts posted refusing => exact ⟨h.numbered, h.pendingNew, h.logInOrder, h.queue⟩

theorem WF.of (happened : List Happening) : (of happened).WF :=
  List.foldlRecOn happened Memory.after .new fun _ h happening _ => h.after happening

theorem lastId_handle (m : Memory) (outside : Outside) (c : Call) :
    m.storage.lastId ≤ (m.handle outside c).2.storage.lastId := by
  cases c with
  | storage c =>
    cases hup : m.storage.failing with
    | true => exact Nat.le_of_eq (by rw [handle_down hup])
    | false =>
      rw [handle_up hup]
      exact (m.storage.perform_rows c).1
  | send work =>
    cases hsend : m.queue.send work with
    | error f => exact Nat.le_of_eq (by rw [handle_unsent hsend])
    | ok q => exact Nat.le_of_eq (by rw [handle_sent hsend])
  | post provider token status => exact Nat.le_of_eq (by rw [handle_post])
  | transcript id => exact Nat.le_refl _

theorem lastId_after (m : Memory) (happening : Happening) :
    m.storage.lastId ≤ (m.after happening).storage.lastId := by
  cases happening with
  | call outside c => exact m.lastId_handle outside c
  | registered provider providerRepoId owner name archived =>
    unfold Memory.after MemoryStorage.addRepo
    dsimp only
    split <;> exact Nat.le_refl _
  | failing on => exact Nat.le_refl _
  | queue a => exact Nat.le_refl _
  | elsewhere transcripts posted refusing => exact Nat.le_refl _

/-- No id that was given is given again. -/
theorem lastId_of {before happened : List Happening} (h : before <+: happened) :
    (of before).storage.lastId ≤ (of happened).storage.lastId := by
  obtain ⟨since, rfl⟩ := h
  rw [of, of, List.foldl_append]
  generalize before.foldl after {} = m
  induction since generalizing m with
  | nil => exact Nat.le_refl _
  | cons happening since ih => exact Nat.le_trans (m.lastId_after happening) (ih _)

end Memory

namespace Sample

def plainly : Setup := ⟨{}, [.plain]⟩

def nobody : Url := ⟨"http", none, .plain "", none, none⟩

/-- No request gets through. -/
def silence : Outside := ⟨⟨nobody, nobody⟩, fun _ => none⟩

/-- A repository is known to a new coordinator. -/
def registered : List Happening := [.registered "fake" 7 "acme" "widget" false]

end Sample

end Pipeworks.Coordinator
