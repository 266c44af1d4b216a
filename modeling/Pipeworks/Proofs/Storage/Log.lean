/-
The log in memory: an entry is kept at its place unless it has a NUL or there is one of its order already, and
so the entries stand in order.
-/
import Mathlib.Data.List.Perm.Basic
import Pipeworks.Pipeline.Report
import Pipeworks.Proofs.Storage.Memory

namespace Pipeworks.MemoryStorage

open Storage

variable {s s' : MemoryStorage} {e f : LogEntry} {es : List LogEntry} {id : Int64}

/-! ## Places -/

theorem logBefore_iff : logBefore e f ↔ e.pipelineId.toInt < f.pipelineId.toInt ∨
    (e.pipelineId.toInt = f.pipelineId.toInt ∧ e.order.toInt < f.order.toInt) := by
  simp only [logBefore, Bool.or_eq_true, Bool.and_eq_true, decide_eq_true_eq, beq_iff_eq,
    Int64.lt_iff_toInt_lt, Int32.lt_iff_toInt_lt, Int64.toInt_inj]

/-- Two entries have the same place. -/
def SameKey (e f : LogEntry) : Prop := f.pipelineId = e.pipelineId ∧ f.order = e.order

/-- The entries of the log stand in order. -/
def LogInOrder (es : List LogEntry) : Prop := es.Pairwise fun e f => logBefore e f

theorem placeLog_perm (e : LogEntry) (es : List LogEntry) : (placeLog e es).Perm (e :: es) := by
  induction es with
  | nil => exact .rfl
  | cons f fs ih =>
    unfold placeLog
    split
    · exact .rfl
    · exact (ih.cons f).trans (.swap e f fs)

theorem LogInOrder.place (h : LogInOrder es) (hnew : ∀ f ∈ es, ¬ SameKey e f) : LogInOrder (placeLog e es) := by
  induction es with
  | nil => exact List.pairwise_singleton _ _
  | cons f fs ih =>
    obtain ⟨hf, hfs⟩ := List.pairwise_cons.1 h
    obtain ⟨hne, hnews⟩ := List.forall_mem_cons.1 hnew
    unfold placeLog
    split
    case isTrue hbefore =>
      refine List.pairwise_cons.2 ⟨List.forall_mem_cons.2 ⟨hbefore, fun g hg => ?_⟩, h⟩
      have hafter := hf g hg
      rw [logBefore_iff] at hbefore hafter ⊢
      omega
    case isFalse hafter =>
      refine List.pairwise_cons.2 ⟨fun g hg => ?_, ih hfs hnews⟩
      rcases List.mem_cons.1 ((placeLog_perm e fs).mem_iff.1 hg) with rfl | hg
      · rw [logBefore_iff] at hafter ⊢
        rw [SameKey, ← Int64.toInt_inj, ← Int32.toInt_inj] at hne
        omega
      · exact hf g hg

/-! ## Keeping an entry -/

/-- An entry is refused, there already, or kept at its place. -/
theorem addLog_cases (s : MemoryStorage) (e : LogEntry) :
    ((holdsNul e.cmd || holdsNul e.output) ∧ s.addLog e = (.error (.corrupt nulReason), s)) ∨
    ((∃ f ∈ s.logs, SameKey e f) ∧ s.addLog e = (.ok false, s)) ∨
    ((∀ f ∈ s.logs, ¬ SameKey e f) ∧ s.addLog e = (.ok true, { s with logs := placeLog e s.logs })) := by
  unfold addLog
  by_cases hnul : holdsNul e.cmd || holdsNul e.output
  · rw [if_pos hnul]
    exact .inl ⟨hnul, rfl⟩
  · rw [if_neg hnul]
    by_cases hkey : s.logs.any fun f => f.pipelineId == e.pipelineId && f.order == e.order
    · rw [if_pos hkey]
      obtain ⟨f, hf, hsame⟩ := List.any_eq_true.1 hkey
      exact .inr (.inl ⟨⟨f, hf, by simpa [SameKey] using hsame⟩, rfl⟩)
    · rw [if_neg hkey]
      refine .inr (.inr ⟨fun f hf hsame => hkey (List.any_eq_true.2 ⟨f, hf, ?_⟩), rfl⟩)
      simpa [SameKey] using hsame

theorem LogInOrder.addLog (h : LogInOrder s.logs) (e : LogEntry) : LogInOrder (s.addLog e).2.logs := by
  obtain ⟨-, heq⟩ | ⟨-, heq⟩ | ⟨hnew, heq⟩ := s.addLog_cases e
  · rw [heq]
    exact h
  · rw [heq]
    exact h
  · rw [heq]
    exact h.place hnew

/-- No call but one touches the log. -/
theorem perform_logs (s : MemoryStorage) (c : Call) :
    (s.perform c).2.logs = s.logs ∨ ∃ e, c = .addLog e := by
  have htransition : ∀ id next t, (s.transition id next t).2.logs = s.logs := fun id next t => by
    rw [transition_rest]
  cases c with
  | create new =>
    cases hinsert : s.insert new with
    | none => simp only [MemoryStorage.perform, hinsert, true_or]
    | some created =>
      simp only [MemoryStorage.perform, hinsert]
      rw [(insert_eq hinsert).2.2]
      exact .inl rfl
  | start id t => exact .inl (htransition id .running t)
  | finish id status t => exact .inl (htransition id status t)
  | addLog e => exact .inr ⟨e, rfl⟩
  | delete id => exact .inl rfl
  | find id => exact .inl rfl
  | creationInfo provider id => exact .inl rfl
  | stateChangeInfo id => exact .inl rfl
  | logs id => exact .inl rfl

/-- No call disturbs the order. -/
theorem LogInOrder.perform (h : LogInOrder s.logs) (c : Call) : LogInOrder (s.perform c).2.logs := by
  obtain hsame | ⟨e, rfl⟩ := s.perform_logs c
  · rw [hsame]
    exact h
  · exact h.addLog e

/-- What is in the log after a call was there before, or the call has put it there. -/
theorem mem_logs_perform {c : Call} (hf : f ∈ (s.perform c).2.logs) : f ∈ s.logs ∨ c = .addLog f := by
  obtain hsame | ⟨e, rfl⟩ := s.perform_logs c
  · exact .inl (hsame ▸ hf)
  · have hadded : f ∈ (s.addLog e).2.logs := hf
    obtain ⟨-, heq⟩ | ⟨-, heq⟩ | ⟨-, heq⟩ := s.addLog_cases e
    · rw [heq] at hadded
      exact .inl hadded
    · rw [heq] at hadded
      exact .inl hadded
    · rw [heq] at hadded
      obtain rfl | hold := List.mem_cons.1 ((placeLog_perm e s.logs).mem_iff.1 hadded)
      · exact .inr rfl
      · exact .inl hold

/-! ## The log of one pipeline -/

/-- The entries of one pipeline stand in the order of their orders. -/
theorem LogInOrder.logsOf (h : LogInOrder s.logs) (id : Int64) :
    (s.logsOf id).Pairwise fun e f => e.order < f.order := by
  refine (h.filter fun e => e.pipelineId == id).imp_of_mem fun {e f} he hf hbefore => ?_
  have hid : e.pipelineId = id := beq_iff_eq.1 (List.mem_filter.1 he).2
  have hid' : f.pipelineId = id := beq_iff_eq.1 (List.mem_filter.1 hf).2
  rw [logBefore_iff, hid, hid'] at hbefore
  rw [Int32.lt_iff_toInt_lt]
  omega

theorem mem_logsOf : f ∈ s.logsOf id ↔ f ∈ s.logs ∧ f.pipelineId = id := by
  simp [MemoryStorage.logsOf]

/-! ## Outputs -/

theorem holdsNul_withoutNul (text : String) : holdsNul (withoutNul text) = false := by
  simp [holdsNul, withoutNul]

/-- The entry of an output holds no NUL, so it is there already or kept. -/
theorem addOutput_cases (s : MemoryStorage) (r : CommandOutput) :
    ((∃ f ∈ s.logs, SameKey r.logEntry f) ∧ s.addLog r.logEntry = (.ok false, s)) ∨
    ((∀ f ∈ s.logs, ¬ SameKey r.logEntry f) ∧
      s.addLog r.logEntry = (.ok true, { s with logs := placeLog r.logEntry s.logs })) := by
  obtain ⟨hnul, -⟩ | hkept := s.addLog_cases r.logEntry
  · simp only [CommandOutput.logEntry, holdsNul_withoutNul, Bool.or_false, Bool.false_eq_true] at hnul
  · exact hkept

theorem addOutput_ok (s : MemoryStorage) (r : CommandOutput) : ∃ added, (s.addLog r.logEntry).1 = .ok added := by
  obtain ⟨-, heq⟩ | ⟨-, heq⟩ := s.addOutput_cases r
  · rw [heq]
    exact ⟨_, rfl⟩
  · rw [heq]
    exact ⟨_, rfl⟩

/-- From an output on there is an entry of its order in the log of its pipeline; nothing else is new there, and
nothing is gone. -/
theorem mem_logsOf_addOutput (s : MemoryStorage) (r : CommandOutput) (id : Int64) :
    (∃ f ∈ (s.addLog r.logEntry).2.logsOf r.pipelineId, f.order = r.order) ∧
    (∀ f ∈ (s.addLog r.logEntry).2.logsOf id, f ∈ s.logsOf id ∨ f = r.logEntry) ∧
    s.logsOf id ⊆ (s.addLog r.logEntry).2.logsOf id := by
  obtain ⟨⟨f, hf, hsame⟩, heq⟩ | ⟨hnew, heq⟩ := s.addOutput_cases r
  · rw [heq]
    exact ⟨⟨f, mem_logsOf.2 ⟨hf, hsame.1⟩, hsame.2⟩, fun _ => .inl, List.Subset.refl _⟩
  · have hmem : ∀ f, f ∈ placeLog r.logEntry s.logs ↔ f = r.logEntry ∨ f ∈ s.logs := fun f =>
      (placeLog_perm r.logEntry s.logs).mem_iff.trans List.mem_cons
    rw [heq]
    refine ⟨⟨r.logEntry, mem_logsOf.2 ⟨(hmem _).2 (.inl rfl), rfl⟩, rfl⟩, fun f hf => ?_, fun f hf => ?_⟩
    · obtain ⟨hf, hid⟩ := mem_logsOf.1 hf
      exact ((hmem f).1 hf).symm.imp_left fun hold => mem_logsOf.2 ⟨hold, hid⟩
    · obtain ⟨hf, hid⟩ := mem_logsOf.1 hf
      exact mem_logsOf.2 ⟨(hmem f).2 (.inr hf), hid⟩

/-! ## Entries of different pipelines -/

/-- Entries of different pipelines come to stand in the same places, whichever is placed first. -/
theorem placeLog_comm (hne : e.pipelineId ≠ f.pipelineId) (es : List LogEntry) :
    placeLog e (placeLog f es) = placeLog f (placeLog e es) := by
  have hids : e.pipelineId.toInt ≠ f.pipelineId.toInt := fun h => hne (Int64.toInt_inj.1 h)
  have hboth : logBefore e f → ¬ logBefore f e := fun h h' => by
    rw [logBefore_iff] at h h'
    omega
  have heither : ¬ logBefore e f → logBefore f e := fun h => by
    rw [logBefore_iff] at h ⊢
    omega
  induction es with
  | nil =>
    by_cases hef : logBefore e f
    · simp [placeLog, hef, hboth hef]
    · simp [placeLog, hef, heither hef]
  | cons g gs ih =>
    by_cases heg : logBefore e g
    · by_cases hfg : logBefore f g
      · by_cases hef : logBefore e f
        · simp [placeLog, heg, hfg, hef, hboth hef]
        · simp [placeLog, heg, hfg, hef, heither hef]
      · have hfe : ¬ logBefore f e := by
          rw [logBefore_iff] at heg hfg ⊢
          omega
        simp [placeLog, heg, hfg, hfe]
    · by_cases hfg : logBefore f g
      · have hef : ¬ logBefore e f := by
          rw [logBefore_iff] at heg hfg ⊢
          omega
        simp [placeLog, heg, hfg, hef]
      · simp [placeLog, heg, hfg, ih]

theorem filter_placeLog_other (hne : e.pipelineId ≠ id) (es : List LogEntry) :
    (placeLog e es).filter (·.pipelineId == id) = es.filter (·.pipelineId == id) := by
  induction es with
  | nil => simp [placeLog, hne]
  | cons f fs ih =>
    unfold placeLog
    split
    · rw [List.filter_cons_of_neg (by simpa using hne)]
    · rw [List.filter_cons, List.filter_cons, ih]

/-! ## One entry -/

/-- The entry of a pipeline that has a certain order. -/
def entryAt? (s : MemoryStorage) (id : Int64) (order : Int32) : Option LogEntry :=
  s.logs.find? fun e => e.pipelineId == id && e.order == order

theorem SameKey.not_before (h : SameKey e f) : ¬ logBefore e f := by
  rw [logBefore_iff, h.1, h.2]
  omega

/-- Two entries of the log that have the same place are one. -/
theorem LogInOrder.unique (h : LogInOrder es) (he : e ∈ es) (hf : f ∈ es) (hsame : SameKey e f) : e = f := by
  induction es with
  | nil => cases he
  | cons g gs ih =>
    obtain ⟨hfirst, hrest⟩ := List.pairwise_cons.1 h
    rcases List.mem_cons.1 he with rfl | he'
    · rcases List.mem_cons.1 hf with rfl | hf'
      · rfl
      · exact absurd (hfirst f hf') hsame.not_before
    · rcases List.mem_cons.1 hf with rfl | hf'
      · have hback : SameKey f e := ⟨hsame.1.symm, hsame.2.symm⟩
        exact absurd (hfirst e he') hback.not_before
      · exact ih hrest he' hf'

theorem entryAt?_eq_some_iff (h : LogInOrder s.logs) {order : Int32} :
    s.entryAt? id order = some e ↔ e ∈ s.logs ∧ e.pipelineId = id ∧ e.order = order := by
  constructor
  · intro hfound
    have hkey := List.find?_some hfound
    simp only [Bool.and_eq_true, beq_iff_eq] at hkey
    exact ⟨List.mem_of_find?_eq_some hfound, hkey⟩
  · rintro ⟨he, rfl, rfl⟩
    cases hfound : s.entryAt? e.pipelineId e.order with
    | none =>
      have habsent := List.find?_eq_none.1 hfound e he
      simp at habsent
    | some f =>
      have hkey := List.find?_some hfound
      simp only [Bool.and_eq_true, beq_iff_eq] at hkey
      rw [h.unique he (List.mem_of_find?_eq_some hfound) hkey]

/-- What is looked for and is not the new entry is found as before. -/
theorem find?_placeLog_other {p : LogEntry → Bool} (he : p e = false) (es : List LogEntry) :
    (placeLog e es).find? p = es.find? p := by
  induction es with
  | nil => simp [placeLog, he]
  | cons f fs ih =>
    unfold placeLog
    split
    · rw [List.find?_cons_of_neg (by simp [he])]
    · rw [List.find?_cons, List.find?_cons, ih]

/-- What was not there before is found once it has been put in its place. -/
theorem find?_placeLog_new {p : LogEntry → Bool} (he : p e) (hnew : es.find? p = none) :
    (placeLog e es).find? p = some e := by
  induction es with
  | nil => simp [placeLog, he]
  | cons f fs ih =>
    rw [List.find?_eq_none, List.forall_mem_cons] at hnew
    unfold placeLog
    split
    · rw [List.find?_cons_of_pos he]
    · rw [List.find?_cons_of_neg hnew.1]
      exact ih (List.find?_eq_none.2 hnew.2)

/-- An output has the entry of its order made, unless there is one. -/
theorem entryAt?_addOutput (s : MemoryStorage) (r : CommandOutput) (id : Int64) (order : Int32) :
    (s.addLog r.logEntry).2.entryAt? id order =
      (s.entryAt? id order).or (if r.pipelineId = id ∧ r.order = order then some r.logEntry else none) := by
  obtain ⟨⟨f, hf, hsame⟩, heq⟩ | ⟨hnew, heq⟩ := s.addOutput_cases r
  · rw [heq]
    split
    case isTrue hplace =>
      obtain ⟨rfl, rfl⟩ := hplace
      obtain ⟨g, hg⟩ : ∃ g, s.entryAt? r.pipelineId r.order = some g := by
        refine Option.isSome_iff_exists.1 (List.find?_isSome.2 ⟨f, hf, ?_⟩)
        simpa [SameKey, CommandOutput.logEntry] using hsame
      rw [hg]
      rfl
    case isFalse => exact (Option.or_none).symm
  · rw [heq]
    show (placeLog r.logEntry s.logs).find? _ = _
    split
    case isTrue hplace =>
      obtain ⟨rfl, rfl⟩ := hplace
      have habsent : s.entryAt? r.pipelineId r.order = none := by
        refine List.find?_eq_none.2 fun f hf hkey => hnew f hf ?_
        simpa [SameKey, CommandOutput.logEntry] using hkey
      rw [habsent, find?_placeLog_new (by simp [CommandOutput.logEntry]) habsent]
      rfl
    case isFalse hplace =>
      rw [find?_placeLog_other (by simpa [CommandOutput.logEntry] using hplace), Option.or_none]
      rfl

/-! ## A stretch of the log -/

/-- The entries from the lowest to the highest order that one of the pipeline can have, with both ends. -/
def stretch (id : Int64) (es : List LogEntry) : List LogEntry :=
  let lowest : LogEntry := ⟨id, Int32.minValue, "", "", 0⟩
  let highest : LogEntry := ⟨id, Int32.maxValue, "", "", 0⟩
  es.filter fun e => !logBefore e lowest && !logBefore highest e

/-- Between these ends there is no entry of another pipeline, and none of this one lies beyond them. -/
theorem logsOf_eq_stretch (s : MemoryStorage) (id : Int64) : s.logsOf id = stretch id s.logs := by
  refine List.filter_congr fun e _ => ?_
  have hlow := Int32.minValue_le_toInt e.order
  have hhigh := Int32.toInt_le e.order
  rw [Int32.toInt_minValue] at hlow
  rw [Int32.toInt_maxValue] at hhigh
  rw [Bool.eq_iff_iff]
  simp only [beq_iff_eq, Bool.and_eq_true, Bool.not_eq_true', ← Bool.not_eq_true, logBefore_iff,
    ← Int64.toInt_inj]
  rw [Int32.toInt_minValue, Int32.toInt_maxValue]
  omega

end Pipeworks.MemoryStorage
