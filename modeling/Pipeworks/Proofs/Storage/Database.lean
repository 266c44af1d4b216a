/-
The pipelines in a database and in memory are one machine. A statement that moves a pipeline finds its row
by the name of its status, among the names of those before the next; the memory asks whether the status may
advance (`mayMove_row`). So the two answer alike whatever is done to pipelines, and stay alike (`Mirrors`),
call after call: what holds of a program over memory holds of it over a database.
-/
import Pipeworks.Proofs.Program.Path
import Pipeworks.Proofs.Storage.Memory
import Pipeworks.Sql.Database
import Pipeworks.Storage.Database

namespace Pipeworks

open Storage

/-! ## Rows -/

theorem Status.ofName?_name (s : Status) : ofName? s.name = some s := by cases s <;> rfl

theorem Status.name_injective : Function.Injective Status.name := fun s s' h =>
  Option.some.inj (by rw [← s.ofName?_name, ← s'.ofName?_name, h])

/-- The row in which a pipeline is kept. -/
def Pipeline.row (p : Pipeline) : Sql.PipelineRow :=
  ⟨p.id, p.repoId, p.status.name, p.commit, p.cloneUrl, p.url, p.startedAt, p.finishedAt⟩

/-- What is kept is read back. -/
theorem Storage.readPipeline_row (p : Pipeline) : readPipeline p.row.columns = .ok p := by
  have hread : p.row.columns.read = .ok p.row := rfl
  unfold readPipeline
  rw [hread]
  dsimp only [Pipeline.row]
  rw [Status.ofName?_name]

theorem Storage.contains_allowedNames (s next : Status) :
    (allowedNames next).contains s.name = s.canAdvanceTo next := by
  rw [Bool.eq_iff_iff, List.contains_iff_mem, allowedNames,
    List.mem_map_of_injective Status.name_injective, Status.mem_predecessors]

/-- Whether a statement that moves a pipeline changes the row. -/
def Storage.mayMove (id : Int64) (next : Status) (r : Sql.PipelineRow) : Bool :=
  r.id == id && (allowedNames next).contains r.status

theorem Storage.mayMove_row {id : Int64} {next : Status} {p : Pipeline} :
    mayMove id next p.row ↔ p.id = id ∧ p.status.canAdvanceTo next := by
  show (p.id == id && (allowedNames next).contains p.status.name) = true ↔ _
  rw [contains_allowedNames, Bool.and_eq_true, beq_iff_eq]

theorem Pipeline.advance?_isSome (p : Pipeline) (next : Status) (t : Time.Instant) :
    (p.advance? next t).isSome = p.status.canAdvanceTo next := by
  unfold advance?
  cases p.status.canAdvanceTo next <;> rfl

theorem Pipeline.advance?_eq_none {p : Pipeline} {next : Status} {t : Time.Instant} :
    p.advance? next t = none ↔ p.status.canAdvanceTo next = false := by
  rw [← p.advance?_isSome next t, Option.isSome_eq_false_iff, Option.isNone_iff_eq_none]

/-- The row of a pipeline that is started. -/
def Storage.startedRow (t : Time.Instant) (r : Sql.PipelineRow) : Sql.PipelineRow :=
  { r with status := Status.running.name, startedAt := some t }

/-- The row of a pipeline that is finished. -/
def Storage.finishedRow (status : Status) (t : Time.Instant) (r : Sql.PipelineRow) : Sql.PipelineRow :=
  { r with status := status.name, finishedAt := some t }

theorem Storage.startedRow_row {p p' : Pipeline} {t : Time.Instant} (h : p.advance? .running t = some p') :
    startedRow t p.row = p'.row := by
  unfold Pipeline.advance? at h
  split at h
  case isTrue => cases h; rfl
  case isFalse => cases h

/-- The memory takes the time for that of a start only if the next status is running. -/
theorem Storage.finishedRow_row {p p' : Pipeline} {next : Status} {t : Time.Instant} (hlast : next.isTerminal)
    (h : p.advance? next t = some p') : finishedRow next t p.row = p'.row := by
  have hnext : next ≠ .running := by rintro rfl; cases hlast
  unfold Pipeline.advance? at h
  rw [if_neg hnext] at h
  split at h
  case isTrue => cases h; rfl
  case isFalse => cases h

/-! ## Two storages -/

/-- A database and a memory that keep the same pipelines, in whatever order, under ids of which none is still
to be given. -/
structure Mirrors (d : Sql.Database) (s : MemoryStorage) : Prop where
  rows : d.tables.pipelines.Perm (s.pipelines.map Pipeline.row)
  last : d.lastPipeline = s.lastId
  ids : (s.pipelines.map Pipeline.id).Nodup
  given : ∀ p ∈ s.pipelines, p.id.toInt ≤ s.lastId
  up : s.failing = false

/-- What a call does over a database. -/
def Storage.overDatabase : Program.Handler Call Answer Sql.Database := fun c d =>
  (inDatabase c).run Sql.Database.execute d

namespace Mirrors

variable {d : Sql.Database} {s : MemoryStorage} {id : Int64} {p : Pipeline}

theorem handle_eq (h : Mirrors d s) (c : Call) : MemoryStorage.handle c s = MemoryStorage.perform c s := by
  unfold MemoryStorage.handle
  rw [h.up]
  rfl

theorem pipeline?_iff (h : Mirrors d s) : s.pipeline? id = some p ↔ p ∈ s.pipelines ∧ p.id = id := by
  unfold MemoryStorage.pipeline?
  rw [← Option.mem_toList, ← MemoryStorage.filter_ident h.ids, List.mem_filter, beq_iff_eq]

/-- The rows of an id are those of the pipeline that has it. -/
theorem rows_filter (h : Mirrors d s) (id : Int64) :
    d.tables.pipelines.filter (·.id == id) = (s.pipeline? id).toList.map Pipeline.row := by
  have hperm : (d.tables.pipelines.filter (·.id == id)).Perm ((s.pipeline? id).toList.map Pipeline.row) := by
    have hfilter := h.rows.filter (·.id == id)
    rw [List.filter_map] at hfilter
    exact MemoryStorage.filter_ident h.ids id ▸ hfilter
  cases hfound : s.pipeline? id with
  | none =>
    rw [hfound] at hperm
    exact List.perm_nil.1 hperm
  | some p =>
    rw [hfound] at hperm
    exact List.perm_singleton.1 hperm

theorem forall_rows (h : Mirrors d s) {P : Sql.PipelineRow → Prop} :
    (∀ r ∈ d.tables.pipelines, P r) ↔ ∀ p ∈ s.pipelines, P p.row :=
  (forall_congr' fun _ => imp_congr h.rows.mem_iff Iff.rfl).trans List.forall_mem_map

/-! ### Looking for a pipeline -/

theorem find_run (h : Mirrors d s) (id : Int64) : overDatabase (.find id) d = (.ok (s.pipeline? id), d) := by
  show ((readFirst readPipeline ((d.tables.pipelines.filter (·.id == id)).map Sql.PipelineRow.columns)), d) = _
  rw [h.rows_filter]
  cases s.pipeline? id with
  | none => rfl
  | some p =>
    show ((readPipeline p.row.columns).map some, d) = _
    rw [readPipeline_row]
    rfl

/-! ### Removing one -/

theorem delete_alike (h : Mirrors d s) (id : Int64) :
    (overDatabase (.delete id) d).1 = (MemoryStorage.perform (.delete id) s).1 ∧
      Mirrors (overDatabase (.delete id) d).2 (MemoryStorage.perform (.delete id) s).2 := by
  refine ⟨?_, ?_, h.last, ?_, fun p hp => h.given p (List.mem_of_mem_filter hp), h.up⟩
  · show Except.ok (decide (0 < d.tables.pipelines.countP (·.id == id))) = Except.ok (s.pipeline? id).isSome
    rw [List.countP_eq_length_filter, h.rows_filter]
    cases s.pipeline? id <;> rfl
  · show (d.tables.pipelines.filter (·.id != id)).Perm ((s.pipelines.filter (·.id != id)).map Pipeline.row)
    have hfilter := h.rows.filter (·.id != id)
    rwa [List.filter_map] at hfilter
  · exact h.ids.sublist (List.filter_sublist.map _)

/-! ### Moving one -/

/-- Where the memory moves nothing, a statement changes no row. -/
theorem not_mayMove (h : Mirrors d s) {next : Status} {t : Time.Instant}
    (hstuck : (s.pipeline? id).bind (·.advance? next t) = none) : ∀ r ∈ d.tables.pipelines, ¬mayMove id next r :=
  h.forall_rows.2 fun p hp hmay => by
    obtain ⟨hid, hadvance⟩ := mayMove_row.1 hmay
    rw [h.pipeline?_iff.2 ⟨hp, hid⟩, Option.bind_some, Pipeline.advance?_eq_none, hadvance] at hstuck
    cases hstuck

theorem replaced_ids {p' : Pipeline} (hid : p'.id = id) (ps : List Pipeline) :
    (ps.map fun q => if q.id = id then p' else q).map Pipeline.id = ps.map Pipeline.id := by
  rw [List.map_map]
  refine List.map_congr_left fun q _ => ?_
  show (if q.id = id then p' else q).id = q.id
  split
  case isTrue hq => rw [hid, hq]
  case isFalse => rfl

/-- The row that a statement changes is that of the pipeline, since no other has its id. -/
theorem moved_rows (h : Mirrors d s) {p' : Pipeline} {next : Status} {t : Time.Instant}
    {change : Sql.PipelineRow → Sql.PipelineRow} (hfound : s.pipeline? id = some p)
    (hadvance : p.advance? next t = some p') (hchange : change p.row = p'.row) :
    (s.pipelines.map Pipeline.row).map (fun r => if mayMove id next r then change r else r) =
      (s.pipelines.map fun q => if q.id = id then p' else q).map Pipeline.row := by
  rw [List.map_map, List.map_map]
  refine List.map_congr_left fun q hq => ?_
  show (if mayMove id next q.row then change q.row else q.row) = (if q.id = id then p' else q).row
  by_cases hid : q.id = id
  · obtain rfl : q = p := Option.some.inj ((h.pipeline?_iff.2 ⟨hq, hid⟩).symm.trans hfound)
    have hmay : mayMove id next q.row := mayMove_row.2 ⟨hid, (MemoryStorage.advance?_status hadvance).1⟩
    rw [if_pos hmay, if_pos hid, hchange]
  · rw [if_neg fun hmay => hid (mayMove_row.1 hmay).1, if_neg hid]

/-- A statement moves a pipeline as the memory does, if it makes of its row that of the moved pipeline. -/
theorem moved_alike (h : Mirrors d s) (id : Int64) (next : Status) (t : Time.Instant)
    (change : Sql.PipelineRow → Sql.PipelineRow)
    (hchange : ∀ p p' : Pipeline, p.advance? next t = some p' → change p.row = p'.row) :
    decide (0 < (d.tables.updatePipelines (mayMove id next) change).1) = (s.transition id next t).1 ∧
      Mirrors { d with tables := (d.tables.updatePipelines (mayMove id next) change).2 }
        (s.transition id next t).2 := by
  unfold Sql.Tables.updatePipelines MemoryStorage.transition
  split
  case h_1 hstuck =>
    have hnone := h.not_mayMove hstuck
    refine ⟨decide_eq_false ?_, ?_, h.last, h.ids, h.given, h.up⟩
    · rw [List.countP_eq_zero.2 hnone]
      exact Nat.lt_irrefl 0
    · dsimp only
      rw [List.map_congr_left fun r hr => if_neg (hnone r hr), List.map_id']
      exact h.rows
  case h_2 p' hmoved =>
    obtain ⟨p, hfound, hadvance⟩ := Option.bind_eq_some_iff.1 hmoved
    obtain ⟨hp, hid⟩ := h.pipeline?_iff.1 hfound
    have hmay : mayMove id next p.row := mayMove_row.2 ⟨hid, (MemoryStorage.advance?_status hadvance).1⟩
    have hids := replaced_ids ((MemoryStorage.advance?_id hadvance).trans hid) s.pipelines
    refine ⟨decide_eq_true ?_, ?_, h.last, ?_, ?_, h.up⟩
    · exact List.countP_pos_iff.2 ⟨p.row, h.rows.mem_iff.2 (List.mem_map_of_mem hp), hmay⟩
    · exact h.moved_rows hfound hadvance (hchange p p' hadvance) ▸ h.rows.map _
    · exact hids ▸ h.ids
    · intro q hq
      obtain ⟨r, hr, hrid⟩ := List.mem_map.1 (hids ▸ List.mem_map_of_mem hq)
      exact hrid ▸ h.given r hr

theorem start_alike (h : Mirrors d s) (id : Int64) (t : Time.Instant) :
    (overDatabase (.start id t) d).1 = (MemoryStorage.perform (.start id t) s).1 ∧
      Mirrors (overDatabase (.start id t) d).2 (MemoryStorage.perform (.start id t) s).2 := by
  obtain ⟨hmoved, hafter⟩ := h.moved_alike id .running t (startedRow t) fun _ _ => startedRow_row
  exact ⟨congrArg Except.ok hmoved, hafter⟩

theorem finish_alike (h : Mirrors d s) (id : Int64) {status : Status} (hlast : status.isTerminal)
    (t : Time.Instant) :
    (overDatabase (.finish id status t) d).1 = (MemoryStorage.perform (.finish id status t) s).1 ∧
      Mirrors (overDatabase (.finish id status t) d).2 (MemoryStorage.perform (.finish id status t) s).2 := by
  obtain ⟨hmoved, hafter⟩ := h.moved_alike id status t (finishedRow status t) fun _ _ => finishedRow_row hlast
  exact ⟨congrArg Except.ok hmoved, hafter⟩

/-! ### Creating one -/

/-- The pipeline that is created under a number. -/
def created (new : NewPipeline) (n : Nat) : Pipeline :=
  ⟨Int64.ofNat n, .pending, new.commit, new.cloneUrl, new.urlBase ++ toString n, none, none, new.repoId⟩

/-- The address is set by a second statement, which finds the new row only. -/
theorem create_run (new : NewPipeline) (hleft : d.lastPipeline + 1 < Nat.pow 2 63)
    (hnew : ∀ r ∈ d.tables.pipelines, r.id ≠ Int64.ofNat (d.lastPipeline + 1)) :
    overDatabase (.create new) d = (.ok (created new (d.lastPipeline + 1)), { d with
      saved := none
      lastPipeline := d.lastPipeline + 1
      tables := { d.tables with
        pipelines := d.tables.pipelines ++ [(created new (d.lastPipeline + 1)).row] } }) := by
  have hurl : toString (Int64.ofNat (d.lastPipeline + 1)).toInt = toString (d.lastPipeline + 1) := by
    rw [Int64.toInt_ofNat_of_lt hleft]
    rfl
  have hother : ∀ url : String, d.tables.pipelines.map (fun r =>
      if r.id == Int64.ofNat (d.lastPipeline + 1) then { r with url } else r) = d.tables.pipelines := fun url => by
    rw [List.map_congr_left fun r hr => if_neg (mt beq_iff_eq.1 (hnew r hr)), List.map_id']
  simp only [overDatabase, inDatabase, createPipeline, Program.run, Sql.Database.execute, if_pos hleft,
    Sql.Database.change, Sql.Tables.updatePipelines, List.map_append, hother, hurl]
  simp [created, Pipeline.row]

theorem create_full (new : NewPipeline) (hfull : ¬d.lastPipeline + 1 < Nat.pow 2 63) :
    overDatabase (.create new) d = (.error (.database .exhausted), { d with saved := none }) := by
  simp only [overDatabase, inDatabase, createPipeline, Program.run, Sql.Database.execute, if_neg hfull, abandon]
  rfl

theorem create_alike (h : Mirrors d s) (new : NewPipeline) :
    (overDatabase (.create new) d).1 = (MemoryStorage.perform (.create new) s).1 ∧
      Mirrors (overDatabase (.create new) d).2 (MemoryStorage.perform (.create new) s).2 := by
  unfold MemoryStorage.perform MemoryStorage.insert
  dsimp only
  rw [← h.last]
  by_cases hleft : d.lastPipeline + 1 < Nat.pow 2 63
  case neg =>
    rw [create_full new hleft, if_neg hleft]
    exact ⟨rfl, h.rows, h.last, h.ids, h.given, h.up⟩
  case pos =>
    have hnumber : (Int64.ofNat (d.lastPipeline + 1)).toInt = d.lastPipeline + 1 := Int64.toInt_ofNat_of_lt hleft
    have hnew : ∀ p ∈ s.pipelines, p.id ≠ Int64.ofNat (d.lastPipeline + 1) := fun p hp heq => by
      have hgiven := h.given p hp
      rw [heq, hnumber, h.last] at hgiven
      omega
    rw [create_run new hleft (h.forall_rows.2 hnew), if_pos hleft]
    refine ⟨rfl, ?_, rfl, ?_, ?_, h.up⟩
    · show (d.tables.pipelines ++ [_]).Perm ((s.pipelines ++ [_]).map Pipeline.row)
      rw [List.map_append]
      exact h.rows.append_right _
    · show ((s.pipelines ++ [_]).map Pipeline.id).Nodup
      rw [List.map_append]
      refine List.nodup_append.2 ⟨h.ids, List.nodup_singleton _, ?_⟩
      rintro _ hold _ hmem rfl
      obtain ⟨p, hp, hid⟩ := List.mem_map.1 hold
      exact hnew p hp (hid.trans (List.mem_singleton.1 hmem))
    · intro p hp
      rcases List.mem_append.1 hp with hp | hp
      · exact Int.le_trans (h.given p hp) (by rw [h.last]; exact Int.ofNat_le.2 (Nat.le_succ _))
      · rw [List.mem_singleton.1 hp]
        exact Int.le_of_eq hnumber

end Mirrors

/-! ## One call after the other -/

/-- Whether a call creates, removes, moves or looks for a pipeline; a finish has to name a last status. -/
def Storage.Call.onPipelines : Call → Bool
  | .create _ => true
  | .delete _ => true
  | .find _ => true
  | .start _ _ => true
  | .finish _ status _ => status.isTerminal
  | .creationInfo _ _ => false
  | .stateChangeInfo _ => false
  | .addLog _ => false
  | .logs _ => false

namespace Mirrors

variable {d : Sql.Database} {s : MemoryStorage}

/-- Each call is answered alike, and the two stay alike. -/
theorem call_alike (h : Mirrors d s) (c : Call) (hc : c.onPipelines) :
    (overDatabase c d).1 = (MemoryStorage.handle c s).1 ∧
      Mirrors (overDatabase c d).2 (MemoryStorage.handle c s).2 := by
  rw [h.handle_eq]
  cases c with
  | create new => exact h.create_alike new
  | delete id => exact h.delete_alike id
  | find id =>
    rw [h.find_run]
    exact ⟨rfl, h⟩
  | start id t => exact h.start_alike id t
  | finish id status t => exact h.finish_alike id hc t
  | creationInfo provider id => cases hc
  | stateChangeInfo id => cases hc
  | addLog e => cases hc
  | logs id => cases hc

/-- What a program comes to over the memory it comes to over the database, whatever it asks next. -/
theorem run_alike {α : Type} (h : Mirrors d s) {p : Program Call Answer α} (hp : p.Only (·.onPipelines)) :
    ((p.refine inDatabase).run Sql.Database.execute d).1 = (p.run MemoryStorage.handle s).1 ∧
      Mirrors ((p.refine inDatabase).run Sql.Database.execute d).2 (p.run MemoryStorage.handle s).2 := by
  rw [Program.run_refine]
  have hcall : ∀ c : Call, c.onPipelines → ∀ d s, Mirrors d s →
      (overDatabase c d).1 = (MemoryStorage.handle c s).1 ∧
        Mirrors (overDatabase c d).2 (MemoryStorage.handle c s).2 := fun c hc _ _ hlike => hlike.call_alike c hc
  obtain ⟨hresult, -, hafter⟩ := hp.run_alike hcall h
  exact ⟨hresult, hafter⟩

end Mirrors

/-- Makes one call after the other, and shows how each was answered. -/
def Storage.inTurn : List Call → Program Call Answer (List (Program.Event Call Answer))
  | [] => .done []
  | c :: cs => .ask c fun answer => (inTurn cs).bind fun es => .done (⟨c, answer⟩ :: es)

theorem Storage.only_inTurn {P : Call → Prop} {calls : List Call} (h : ∀ c ∈ calls, P c) :
    (inTurn calls).Only P := by
  induction calls with
  | nil => trivial
  | cons c cs ih =>
    obtain ⟨hc, hcs⟩ := List.forall_mem_cons.1 h
    exact ⟨hc, fun _ => (ih hcs).bind fun _ => trivial⟩

namespace Mirrors

variable {d : Sql.Database} {s : MemoryStorage}

/-- Whatever is done to the pipelines, in whatever order, the statements of the database answer what the memory
answers; and afterwards the database has every pipeline in the status and with the times that the memory has. -/
theorem answers_alike (h : Mirrors d s) {calls : List Call} (hcalls : ∀ c ∈ calls, c.onPipelines) :
    (((inTurn calls).refine inDatabase).run Sql.Database.execute d).1 =
        ((inTurn calls).run MemoryStorage.handle s).1 ∧
      (((inTurn calls).refine inDatabase).run Sql.Database.execute d).2.tables.pipelines.Perm
        (((inTurn calls).run MemoryStorage.handle s).2.pipelines.map Pipeline.row) ∧
      ∀ id, (overDatabase (.find id) (((inTurn calls).refine inDatabase).run Sql.Database.execute d).2).1 =
        .ok (((inTurn calls).run MemoryStorage.handle s).2.pipeline? id) := by
  obtain ⟨hanswers, hafter⟩ := h.run_alike (only_inTurn hcalls)
  exact ⟨hanswers, hafter.rows, fun id => congrArg Prod.fst (hafter.find_run id)⟩

namespace Sample

def time (hour : Fin 24) : Time.Instant := ⟨⟨⟨2024, 1, 1⟩, 3600 * hour, 0⟩, by revert hour; decide⟩

def running : Pipeline := ⟨1, .running, "c0ffee", "https://git.example.com/w.git", "/1", some (time 1), none, 7⟩

def waiting : Pipeline := ⟨2, .pending, "facade", "https://git.example.com/w.git", "/2", none, none, 7⟩

def memory : MemoryStorage := { lastId := 2, pipelines := [running, waiting] }

def database : Sql.Database := { lastPipeline := 2, tables := { pipelines := [waiting.row, running.row] } }

/-- Reports that come twice, too late or for no pipeline. -/
def calls : List Call := [.start 2 (time 2), .finish 1 .success (time 3), .start 1 (time 4), .finish 9 .error (time 4),
  .create ⟨7, "decade", "https://git.example.com/w.git", "/"⟩, .finish 3 .error (time 5), .finish 3 .success (time 6)]

/-- Whether a report has moved its pipeline. -/
def moved : Program.Event Call Answer → Option Bool
  | ⟨.start _ _, .ok moved⟩ => some moved
  | ⟨.finish _ _ _, .ok moved⟩ => some moved
  | _ => none

end Sample

theorem answers_alike_reordered :
    Mirrors Sample.database Sample.memory ∧ (∀ c ∈ Sample.calls, c.onPipelines) ∧
      (((inTurn Sample.calls).refine inDatabase).run Sql.Database.execute Sample.database).1.filterMap Sample.moved =
        [true, true, false, false, true, false] := by
  have h : Mirrors Sample.database Sample.memory :=
    ⟨.swap _ _ _, rfl, by decide, by decide, rfl⟩
  have hcalls : ∀ c ∈ Sample.calls, c.onPipelines := by decide
  refine ⟨h, hcalls, ?_⟩
  rw [(h.answers_alike hcalls).1]
  decide +kernel

-- A finish in a status that is not the last would set the time of the end, where the memory sets that of the start.
example :
    (overDatabase (.find 2) (overDatabase (.finish 2 .running (Sample.time 2)) Sample.database).2).1 =
        .ok (some { Sample.waiting with status := .running, finishedAt := some (Sample.time 2) }) ∧
      (MemoryStorage.perform (.finish 2 .running (Sample.time 2)) Sample.memory).2.pipeline? 2 =
        some { Sample.waiting with status := .running, startedAt := some (Sample.time 2) } := ⟨rfl, rfl⟩

end Mirrors

end Pipeworks
