/-
Services that are carried out side by side over one storage. A step begins a service or makes one call of
one of them, so the calls of any number of services follow one another in any order. What has been in the
storage, what was queued and which statuses the providers were asked to show is remembered.
-/
import Mathlib.Logic.Relation
import Pipeworks.Coordinator.Hook
import Pipeworks.Coordinator.Report
import Pipeworks.Proofs.Storage.Course
import Pipeworks.Storage.Memory

namespace Pipeworks.Coordinator

/-! ## Worlds -/

/-- What a service is carried out for. -/
inductive Task where
  | delivery (provider : String) (headers : Http.Headers) (body : Bytes)
  | report (r : Report)

abbrev Task.Result : Task → Type
  | .delivery _ _ _ => Except HookFault HookOutcome
  | .report _ => Except ReportFault Unit

/-- The pipeline that a report is about. -/
def Task.about? : Task → Option Int64
  | .delivery _ _ _ => none
  | .report r => some r.pipelineId

def Task.service (setup : Setup) : (t : Task) → Service t.Result
  | .delivery provider headers body => accept setup provider headers body
  | .report r => hear setup r

/-- A service that has been begun, and what is left of it. -/
structure Flight where
  task : Task
  rest : Service task.Result

structure World where
  storage : MemoryStorage
  /-- What the storage was before each call, the earliest first. -/
  past : List MemoryStorage := []
  flights : List Flight := []
  /-- The work that was put into the queue, in order. -/
  queued : List Work := []
  /-- The statuses that providers were asked to show, in order, and for what. -/
  shown : List (Task × CommitStatus) := []

/-! ## Steps -/

/-- What a call may be answered, and what is in the storage then: every call may fail. -/
inductive MayAnswer : (c : Call) → MemoryStorage → Answer c → MemoryStorage → Prop
  | performed (c : Storage.Call) (s : MemoryStorage) :
      MayAnswer (.storage c) s (s.perform c).1 (s.perform c).2
  | failed (c : Storage.Call) (s : MemoryStorage) (f : Storage.Fault) :
      MayAnswer (.storage c) s (.error f) s
  | sent (work : Work) (s : MemoryStorage) (answer : Except Queue.Fault Unit) :
      MayAnswer (.send work) s answer s
  | posted (provider : Provider) (token : Token) (status : CommitStatus) (s : MemoryStorage)
      (answer : Except Provider.Fault Unit) : MayAnswer (.post provider token status) s answer s
  | downloaded (id : Int64) (s : MemoryStorage) (answer : Except Transcript.Fault Bytes) :
      MayAnswer (.transcript id) s answer s

/-- The answer where everything goes well. -/
def Call.isOk : (c : Call) → Answer c → Bool
  | .storage _, answer => answer.isOk
  | .send _, answer => answer.isOk
  | .post _ _ _, answer => answer.isOk
  | .transcript _, answer => answer.isOk

/-- The work that is in the queue since a call. -/
def Call.queues : (c : Call) → Answer c → List Work
  | .send work, .ok () => [work]
  | _, _ => []

/-- The status that a call asks a provider to show. -/
def Call.shows : Call → List CommitStatus
  | .post _ _ status => [status]
  | _ => []

/-- The world after a call for a task. -/
def World.call (w : World) (t : Task) (c : Call) (answer : Answer c) (s : MemoryStorage)
    (flights : List Flight) : World where
  storage := s
  past := w.past ++ [w.storage]
  flights := flights
  queued := w.queued ++ c.queues answer
  shown := w.shown ++ c.shows.map fun status => (t, status)

/-- A service is begun, or one that has been begun makes its next call. -/
inductive Step (setup : Setup) (mayBegin : World → Task → Prop)
    (answers : (c : Call) → MemoryStorage → Answer c → MemoryStorage → Prop) : World → World → Prop
  | begins {w : World} (t : Task) :
      mayBegin w t →
      Step setup mayBegin answers w { w with flights := w.flights ++ [⟨t, t.service setup⟩] }
  | calls {w : World} {front back : List Flight} {t : Task} {c : Call}
      {next : Answer c → Service t.Result} {answer : Answer c} {s : MemoryStorage} :
      w.flights = front ++ ⟨t, .ask c next⟩ :: back → answers c w.storage answer s →
      Step setup mayBegin answers w (w.call t c answer s (front ++ ⟨t, next answer⟩ :: back))

/-! ## Schedules -/

/-- The answers of a storage that does not fail, and of a queue and providers that take everything. -/
def smooth : Program.Handler Call Answer MemoryStorage
  | .storage c, s => s.perform c
  | .send _, s => (.ok (), s)
  | .post _ _ _, s => (.ok (), s)
  | .transcript _, s => (.ok [], s)

/-- What happens next: a report begins, or a service in flight makes its next call. -/
inductive Move where
  | begin (r : Report)
  | turn (n : Nat)

/-- The world after a move, if it may be made and goes well, or else the same. -/
def World.play (setup : Setup) (may : World → Report → Bool) (w : World) : Move → World
  | .begin r =>
    if may w r then { w with flights := w.flights ++ [⟨.report r, hear setup r⟩] } else w
  | .turn n =>
    match w.flights[n]? with
    | some ⟨t, .ask c next⟩ =>
      let (answer, s) := smooth c w.storage
      if c.isOk answer then w.call t c answer s (w.flights.set n ⟨t, next answer⟩) else w
    | _ => w

section
variable {setup : Setup} {mayBegin : World → Task → Prop} {may : World → Report → Bool}
  {answers : (c : Call) → MemoryStorage → Answer c → MemoryStorage → Prop}

theorem play_step (hbegin : ∀ w r, may w r → mayBegin w (.report r))
    (hanswers : ∀ c s, c.isOk (smooth c s).1 → answers c s (smooth c s).1 (smooth c s).2)
    (w : World) (m : Move) :
    Relation.ReflTransGen (Step setup mayBegin answers) w (w.play setup may m) := by
  unfold World.play
  split
  case h_1 r =>
    split
    case isTrue hmay => exact .single (.begins (.report r) (hbegin w r hmay))
    case isFalse => exact .refl
  case h_2 n =>
    split
    case h_1 t c next hflight =>
      dsimp only
      split
      case isTrue hok =>
        obtain ⟨hn, hget⟩ := List.getElem?_eq_some_iff.1 hflight
        have hflights : w.flights = w.flights.take n ++ ⟨t, .ask c next⟩ :: w.flights.drop (n + 1) := by
          rw [← hget, List.getElem_cons_drop, List.take_append_drop]
        rw [List.set_eq_take_append_cons_drop, if_pos hn]
        exact .single (.calls hflights (hanswers c w.storage hok))
      case isFalse => exact .refl
    case h_2 => exact .refl

theorem play_steps (hbegin : ∀ w r, may w r → mayBegin w (.report r))
    (hanswers : ∀ c s, c.isOk (smooth c s).1 → answers c s (smooth c s).1 (smooth c s).2)
    (w : World) (ms : List Move) :
    Relation.ReflTransGen (Step setup mayBegin answers) w (ms.foldl (World.play setup may) w) := by
  induction ms generalizing w with
  | nil => exact .refl
  | cons m ms ih => exact (play_step hbegin hanswers w m).trans (ih _)

end

/-! ## Histories -/

/-- Notes the status of a pipeline in its history, unless it is the same as before. -/
def note (id : Int64) (hist : List Status) (s : MemoryStorage) : List Status :=
  match s.pipeline? id with
  | none => hist
  | some p => if hist.getLast? = some p.status then hist else hist ++ [p.status]

namespace World

/-- The statuses that a pipeline has had, the earliest first. -/
def history (w : World) (id : Int64) : List Status := (w.past ++ [w.storage]).foldl (note id) []

/-- The statuses that providers were asked to show for reports about a pipeline, in order. -/
def shownOf (w : World) (id : Int64) : List Status :=
  (w.shown.filter fun x => x.1.about? = some id).map fun x => x.2.status

theorem shownOf_call (w : World) (id : Int64) (t : Task) (c : Call) (answer : Answer c)
    (s : MemoryStorage) (flights : List Flight) :
    (w.call t c answer s flights).shownOf id =
      w.shownOf id ++ if t.about? = some id then c.shows.map CommitStatus.status else [] := by
  unfold shownOf call
  rw [List.filter_append, List.map_append]
  by_cases ht : t.about? = some id
  · simp [ht, List.filter_map, Function.comp_def]
  · simp [ht, List.filter_map, Function.comp_def]

theorem history_call (w : World) (id : Int64) (t : Task) (c : Call) (answer : Answer c)
    (s : MemoryStorage) (flights : List Flight) :
    (w.call t c answer s flights).history id = note id (w.history id) s := by
  show ((w.past ++ [w.storage]) ++ [s]).foldl (note id) [] = _
  rw [List.foldl_append]
  rfl

end World

variable {id : Int64} {hist : List Status} {s : MemoryStorage}

/-- A pipeline that was in no storage has no history. -/
theorem foldl_note_absent {ss : List MemoryStorage} (h : ∀ s ∈ ss, s.pipeline? id = none) :
    ss.foldl (note id) hist = hist := by
  induction ss generalizing hist with
  | nil => rfl
  | cons s ss ih =>
    have hs : note id hist s = hist := by
      unfold note
      rw [h s List.mem_cons_self]
    rw [List.foldl_cons, hs]
    exact ih fun s' hs' => h s' (List.mem_cons_of_mem _ hs')

theorem note_new {p : Pipeline} (hrow : s.pipeline? id = some p) (hnew : p.IsNew) :
    note id [] s = [.pending] := by
  unfold note
  rw [hrow]
  show [p.status] = [.pending]
  rw [hnew.status]

theorem note_same {row : Option Pipeline} (h : Course hist row) (hrow : s.pipeline? id = row) :
    note id hist s = hist := by
  unfold note
  rw [hrow]
  cases row with
  | none => rfl
  | some p => exact if_pos h.getLast?

theorem note_moved {p p' : Pipeline} {next : Status} {t : Time.Instant} (h : Course hist (some p))
    (hadvance : p.advance? next t = some p') (hrow : s.pipeline? id = some p') :
    note id hist s = hist ++ [next] := by
  have hlast := (h.advance hadvance).getLast?
  rw [List.getLast?_concat, Option.map_some] at hlast
  have hstatus : p'.status = next := (Option.some.inj hlast).symm
  -- no status may be followed by itself, so the move is noted
  have hne : p.status ≠ next := by
    rintro rfl
    unfold Pipeline.advance? at hadvance
    cases hp : p.status <;> rw [hp] at hadvance <;> cases hadvance
  unfold note
  simp only [hrow, h.getLast?, hstatus, Option.map_some, Option.some.injEq, hne, if_false]

end Pipeworks.Coordinator
