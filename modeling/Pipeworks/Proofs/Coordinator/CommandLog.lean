/-
The log of commands, whatever is reported about which pipelines and in whatever order. Of all outputs of one pipeline
and one order the first is kept, without its NUL characters, and stays as it is; an output of a pipeline that is not
known is refused; no output does anything else; and a log is listed in the order of its orders
(`outputs_append_only`). The log is seen through the entry at each place (`MemoryStorage.entryAt?`), and the storage is
followed from report to report.
-/
import Pipeworks.Proofs.Coordinator.Convergence

namespace Pipeworks

/-- The entry is what the output says, without the NUL characters. -/
structure LogEntry.Transcribes (e : LogEntry) (r : CommandOutput) : Prop where
  pipelineId : e.pipelineId = r.pipelineId
  order : e.order = r.order
  exitCode : e.exitCode = r.exitCode
  cmd : e.cmd.toList = r.cmd.toList.filter (· ≠ '\x00')
  output : e.output.toList = r.output.toList.filter (· ≠ '\x00')

theorem toList_withoutNul (text : String) : (withoutNul text).toList = text.toList.filter (· ≠ '\x00') := by
  unfold withoutNul
  rw [String.toList_ofList]
  refine List.filter_congr fun c _ => ?_
  rw [Bool.eq_iff_iff]
  simp

theorem CommandOutput.logEntry_transcribes (r : CommandOutput) : r.logEntry.Transcribes r :=
  ⟨rfl, rfl, rfl, toList_withoutNul r.cmd, toList_withoutNul r.output⟩

/-- The entry that a report makes at a place. -/
def Report.entryAt? (id : Int64) (order : Int32) : Report → Option LogEntry
  | .output r => if r.pipelineId = id ∧ r.order = order then some r.logEntry else none
  | _ => none

namespace Coordinator

variable {s : MemoryStorage} {r : Report} {rs : List Report} {id : Int64} {order : Int32}

/-! ## The storage from report to report -/

/-- No report makes a pipeline known or unknown. -/
theorem heard_known (s : MemoryStorage) (r : Report) (id : Int64) :
    ((s.heard r).pipeline? id).isSome = (s.pipeline? id).isSome := by
  obtain ⟨kept, heffect⟩ := heard_effect s r
  cases heffect with
  | still hrows => rw [hrows id]
  | moved hp _ hp' hothers =>
    by_cases hid : id = r.pipelineId
    · rw [hid, hp, hp']
      rfl
    · rw [hothers id hid]

/-- The log at a place after a report: what was there stays, and else the report may make an entry. -/
theorem entryAt?_heard (s : MemoryStorage) (r : Report) (id : Int64) (order : Int32) :
    (s.heard r).entryAt? id order =
      (s.entryAt? id order).or (if (s.pipeline? id).isSome then r.entryAt? id order else none) := by
  have htransition : ∀ i next t, (s.transition i next t).2.entryAt? id order = s.entryAt? id order := fun i next t => by
    rw [MemoryStorage.transition_rest]
    rfl
  cases r with
  | started r => simp [MemoryStorage.heard, htransition, Report.entryAt?]
  | finished r => simp [MemoryStorage.heard, htransition, Report.entryAt?]
  | output r =>
    rw [MemoryStorage.heard, Report.entryAt?]
    by_cases hknown : (s.pipeline? r.pipelineId).isSome
    · rw [if_pos hknown, MemoryStorage.entryAt?_addOutput]
      by_cases hplace : r.pipelineId = id ∧ r.order = order
      · rw [← hplace.1, if_pos hknown]
      · rw [if_neg hplace, ite_self]
    · rw [if_neg hknown]
      by_cases hplace : r.pipelineId = id ∧ r.order = order
      · rw [← hplace.1, if_neg hknown, Option.or_none]
      · rw [if_neg hplace, ite_self, Option.or_none]

theorem heardAll_up (s : MemoryStorage) (rs : List Report) :
    (rs.foldl MemoryStorage.heard s).failing = s.failing := by
  induction rs generalizing s with
  | nil => rfl
  | cons r rs ih => exact (ih (s.heard r)).trans (heard_up s r)

/-- The first entry that is made at a place stays there. -/
theorem entryAt?_heardAll (s : MemoryStorage) (rs : List Report) (id : Int64) (order : Int32) :
    (rs.foldl MemoryStorage.heard s).entryAt? id order =
      (s.entryAt? id order).or (if (s.pipeline? id).isSome then rs.findSome? (Report.entryAt? id order) else none) := by
  induction rs generalizing s with
  | nil => simp
  | cons r rs ih =>
    have hstep := ih (s.heard r)
    rw [entryAt?_heard, heard_known, Option.or_assoc] at hstep
    rw [List.foldl_cons, hstep, List.findSome?_cons]
    by_cases hknown : (s.pipeline? id).isSome
    · rw [if_pos hknown, if_pos hknown, if_pos hknown]
      cases r.entryAt? id order <;> rfl
    · rw [if_neg hknown, if_neg hknown, if_neg hknown]
      rfl

/-! ## The coordinator from report to report -/

variable {setup : Setup} {outside : Outside} {m : Memory}

/-- The coordinator once it has heard some reports. -/
def afterHearing (setup : Setup) (outside : Outside) (m : Memory) (rs : List Report) : Memory :=
  ((hearAll setup rs).run (Memory.handle outside) m).2

theorem afterHearing_cons (setup : Setup) (outside : Outside) (m : Memory) (r : Report) (rs : List Report) :
    afterHearing setup outside m (r :: rs) =
      afterHearing setup outside ((hear setup r).run (Memory.handle outside) m).2 rs := by
  unfold afterHearing
  rw [hearAll, Program.run_bind, Program.run_bind]
  rfl

theorem afterHearing_append (setup : Setup) (outside : Outside) (m : Memory) (rs later : List Report) :
    afterHearing setup outside m (rs ++ later) =
      afterHearing setup outside (afterHearing setup outside m rs) later := by
  induction rs generalizing m with
  | nil => rfl
  | cons r rs ih => rw [List.cons_append, afterHearing_cons, ih, ← afterHearing_cons]

/-- What is heard changes the storage as it does, and no more than the statuses that are posted besides. -/
theorem afterHearing_cases (hup : m.storage.failing = false) (setup : Setup) (outside : Outside) (rs : List Report) :
    ∃ posted, afterHearing setup outside m rs =
      { m with storage := rs.foldl MemoryStorage.heard m.storage, posted := posted } := by
  induction rs generalizing m with
  | nil => exact ⟨m.posted, rfl⟩
  | cons r rs ih =>
    obtain ⟨answer, posted, shown, hcarried⟩ := hear_cases hup setup outside r
    have hstill : (m.storage.heard r).failing = false := (heard_up m.storage r).trans hup
    obtain ⟨posted', hrest⟩ := ih (m := { m with storage := m.storage.heard r, posted := posted }) hstill
    refine ⟨posted', ?_⟩
    rw [afterHearing_cons, hcarried.run]
    exact hrest

theorem storage_afterHearing (hup : m.storage.failing = false) (setup : Setup) (outside : Outside) (rs : List Report) :
    (afterHearing setup outside m rs).storage = rs.foldl MemoryStorage.heard m.storage := by
  obtain ⟨posted, hafter⟩ := afterHearing_cases hup setup outside rs
  rw [hafter]

/-- What is said of an output: all is well, unless there is no such pipeline. -/
def outputAnswer (m : Memory) (r : CommandOutput) : Except ReportFault Unit :=
  match m.storage.pipeline? r.pipelineId with
  | some _ => .ok ()
  | none => .error (.pipelineNotFound r.pipelineId)

/-- An output is answered by whether its pipeline is known, shows nothing, and touches only the log, and not even that
if the pipeline is not known. -/
theorem hear_output_log (hup : m.storage.failing = false) (setup : Setup) (outside : Outside) (r : CommandOutput) :
    ∃ logs, Carried outside (hear setup (.output r)) m (outputAnswer m r)
        { m with storage := { m.storage with logs := logs } } [] ∧
      (m.storage.pipeline? r.pipelineId = none → logs = m.storage.logs) := by
  unfold outputAnswer
  cases hrow : m.storage.pipeline? r.pipelineId with
  | none => exact ⟨m.storage.logs, hear_unknown hup hrow, fun _ => rfl⟩
  | some p =>
    have hcarried := @hear_output setup outside m r p hup hrow
    rw [m.storage.addLog_rest r.logEntry] at hcarried
    exact ⟨_, hcarried, nofun⟩

/-! ## The log under any reports -/

/-- What can be relied on about the log, whatever has been reported. -/
structure AppendOnly (setup : Setup) (outside : Outside) (m : Memory) (rs : List Report) : Prop where
  /-- An output of a pipeline that is stored is acknowledged, and one of another is refused and leaves everything as
  it is. Neither shows a status, or touches more than the log. -/
  heard : ∀ before r later, rs = before ++ .output r :: later →
    let since := afterHearing setup outside m before
    ∃ logs, Carried outside (hear setup (.output r)) since (outputAnswer since r)
        { since with storage := { since.storage with logs := logs } } [] ∧
      (since.storage.pipeline? r.pipelineId = none → logs = since.storage.logs)
  /-- At each place there is the entry that has always been there, or else that of the first output. -/
  first : ∀ id order, (afterHearing setup outside m rs).storage.entryAt? id order =
    (m.storage.entryAt? id order).or
      (if (m.storage.pipeline? id).isSome then rs.findSome? (Report.entryAt? id order) else none)
  /-- The entry of an output is what it says, without NUL characters. -/
  stripped : ∀ r, .output r ∈ rs → r.logEntry.Transcribes r
  /-- Whatever is reported later, an entry stays, and stays the same. -/
  kept : ∀ later id order e, (afterHearing setup outside m rs).storage.entryAt? id order = some e →
    (afterHearing setup outside m (rs ++ later)).storage.entryAt? id order = some e
  /-- The log of a pipeline is listed by order; it is the stretch of all entries that have its id. -/
  listed : ∀ id, ∃ logs,
    Memory.handle outside (.storage (.logs id)) (afterHearing setup outside m rs) =
      (.ok logs, afterHearing setup outside m rs) ∧
    logs = MemoryStorage.stretch id (afterHearing setup outside m rs).storage.logs ∧
    logs.Pairwise (fun e f => e.order < f.order) ∧
    ∀ e, e ∈ logs ↔ e.pipelineId = id ∧ (afterHearing setup outside m rs).storage.entryAt? id e.order = some e

/-- Whatever a coordinator has been through, and whatever is reported to it then, the log is only ever added to, and
the first output of each order is the one that counts. -/
theorem outputs_append_only (setup : Setup) (outside : Outside) (happened : List Happening) (rs : List Report)
    (hup : (Memory.of happened).storage.failing = false) :
    AppendOnly setup outside (Memory.of happened) rs := by
  have hentry : ∀ rs id order, (afterHearing setup outside (Memory.of happened) rs).storage.entryAt? id order =
      ((Memory.of happened).storage.entryAt? id order).or
        (if ((Memory.of happened).storage.pipeline? id).isSome then rs.findSome? (Report.entryAt? id order)
          else none) := fun rs id order => by
    rw [storage_afterHearing hup, entryAt?_heardAll]
  constructor
  case heard =>
    intro before r later _ since
    have hstill : since.storage.failing = false := by
      rw [storage_afterHearing hup, heardAll_up, hup]
    exact hear_output_log hstill setup outside r
  case first => exact hentry rs
  case stripped => exact fun r _ => r.logEntry_transcribes
  case kept =>
    intro later id order e he
    -- what is found among the entries so far is found before any that come later
    rw [afterHearing_append]
    have hstill : (afterHearing setup outside (Memory.of happened) rs).storage.failing = false := by
      rw [storage_afterHearing hup, heardAll_up, hup]
    rw [storage_afterHearing hstill, entryAt?_heardAll, he]
    rfl
  case listed =>
    intro id
    have hstill : (afterHearing setup outside (Memory.of happened) rs).storage.failing = false := by
      rw [storage_afterHearing hup, heardAll_up, hup]
    have hwf : (afterHearing setup outside (Memory.of happened) rs).WF := (Memory.WF.of happened).run outside _
    refine ⟨_, Memory.handle_up hstill (.logs id), MemoryStorage.logsOf_eq_stretch _ id, hwf.logInOrder.logsOf id,
      fun e => ?_⟩
    rw [MemoryStorage.mem_logsOf, MemoryStorage.entryAt?_eq_some_iff hwf.logInOrder]
    constructor
    · rintro ⟨he, hid⟩
      exact ⟨hid, he, hid, rfl⟩
    · rintro ⟨hid, he, -, -⟩
      exact ⟨he, hid⟩

namespace Sample

/-- Outputs of two orders, one of them twice, and one of a pipeline that is not known. -/
def outputs : List Report :=
  [.output ⟨1, 3, "make\x00", "a\x00b", 0⟩, .output ⟨1, -2, "env", "", 0⟩, .output ⟨9, 0, "make", "", 0⟩,
    .output ⟨1, 3, "again", "c", 1⟩]

end Sample

theorem outputs_append_only_twice :
    (Memory.of Sample.pushed).storage.failing = false ∧
      AppendOnly Sample.plainly Sample.silence (Memory.of Sample.pushed) Sample.outputs ∧
      (afterHearing Sample.plainly Sample.silence (Memory.of Sample.pushed) Sample.outputs).storage.logs =
        [⟨1, -2, "env", "", 0⟩, ⟨1, 3, "make", "ab", 0⟩] :=
  ⟨rfl, outputs_append_only Sample.plainly Sample.silence Sample.pushed Sample.outputs rfl, by decide +kernel⟩

end Coordinator

end Pipeworks
