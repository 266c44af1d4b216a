/-
The course of a pipeline: the statuses it has had, in order, and what its row says of them. There are only
four courses that a stored pipeline can have taken, and only a move makes one longer. What is claimed of a
history of statuses is then read off the four.
-/
import Mathlib.Data.List.Chain
import Pipeworks.Storage.Memory

namespace Pipeworks

theorem Status.canAdvanceTo_of_terminal {s : Status} (h : s.isTerminal) (next : Status) :
    s.canAdvanceTo next = false := by
  cases s with
  | pending => cases h
  | running => cases h
  | success => rfl
  | error => rfl

theorem Status.canAdvanceTo_terminal {s next : Status} (hs : s.isTerminal = false) (h : next.isTerminal) :
    s.canAdvanceTo next := by
  cases s <;> cases next <;> simp_all [Status.isTerminal, Status.canAdvanceTo]

theorem Status.terminal_cases {s : Status} (h : s.isTerminal) : s = .success ∨ s = .error := by
  cases s with
  | pending => cases h
  | running => cases h
  | success => exact .inl rfl
  | error => exact .inr rfl

/-! ## Courses -/

/-- A pipeline that has not been moved yet. -/
structure Pipeline.IsNew (p : Pipeline) : Prop where
  status : p.status = .pending
  startedAt : p.startedAt = none
  finishedAt : p.finishedAt = none

/-- The statuses that a pipeline has had, and its row. -/
inductive Course : List Status → Option Pipeline → Prop
  | absent : Course [] none
  | pending {p : Pipeline} :
      p.status = .pending → p.startedAt = none → p.finishedAt = none → Course [.pending] (some p)
  | running {p : Pipeline} :
      p.status = .running → p.startedAt.isSome → p.finishedAt = none →
      Course [.pending, .running] (some p)
  | unseen {p : Pipeline} :
      p.status.isTerminal → p.startedAt = none → p.finishedAt.isSome →
      Course [.pending, p.status] (some p)
  | ended {p : Pipeline} :
      p.status.isTerminal → p.startedAt.isSome → p.finishedAt.isSome →
      Course [.pending, .running, p.status] (some p)

theorem Pipeline.IsNew.course {p : Pipeline} (h : p.IsNew) : Course [.pending] (some p) :=
  .pending h.status h.startedAt h.finishedAt

namespace Course

variable {hist : List Status} {row : Option Pipeline} {p p' : Pipeline} {next : Status} {t : Time.Instant}

theorem advance (h : Course hist (some p)) (hp : p.advance? next t = some p') :
    Course (hist ++ [next]) (some p') := by
  unfold Pipeline.advance? at hp
  split at hp
  case isFalse => cases hp
  case isTrue hmay =>
    cases hp
    cases h with
    | pending hst hs hf =>
      rw [hst] at hmay
      cases next with
      | pending => cases hmay
      | running => exact .running rfl rfl hf
      | success => exact @unseen { p with status := .success, finishedAt := some t } rfl hs rfl
      | error => exact @unseen { p with status := .error, finishedAt := some t } rfl hs rfl
    | running hst hs hf =>
      rw [hst] at hmay
      cases next with
      | pending => cases hmay
      | running => cases hmay
      | success => exact @ended { p with status := .success, finishedAt := some t } rfl hs rfl
      | error => exact @ended { p with status := .error, finishedAt := some t } rfl hs rfl
    | unseen hst hs hf =>
      rw [Status.canAdvanceTo_of_terminal hst] at hmay
      cases hmay
    | ended hst hs hf =>
      rw [Status.canAdvanceTo_of_terminal hst] at hmay
      cases hmay

/-- A history is a chain of moves that are allowed. -/
theorem isChain (h : Course hist row) : hist.IsChain fun s next => s.canAdvanceTo next := by
  cases h with
  | absent => exact .nil
  | pending hst hs hf => exact .singleton _
  | running hst hs hf => exact .cons_cons rfl (.singleton _)
  | unseen hst hs hf =>
    exact .cons_cons (Status.canAdvanceTo_terminal rfl hst) (.singleton _)
  | ended hst hs hf =>
    exact .cons_cons rfl (.cons_cons (Status.canAdvanceTo_terminal rfl hst) (.singleton _))

theorem head? (h : Course hist row) : hist.head? = row.map fun _ => .pending := by
  cases h <;> rfl

theorem ne_nil (h : Course hist (some p)) : hist ≠ [] := by
  rintro rfl
  cases h.head?

theorem getLast? (h : Course hist row) : hist.getLast? = row.map Pipeline.status := by
  cases h with
  | absent => rfl
  | pending hst hs hf => simp [hst]
  | running hst hs hf => simp [hst]
  | unseen hst hs hf => rfl
  | ended hst hs hf => rfl

theorem startedAt_isSome (h : Course hist (some p)) : p.startedAt.isSome ↔ .running ∈ hist := by
  cases h with
  | pending hst hs hf => simp [hs]
  | running hst hs hf => simp [hs]
  | unseen hst hs hf =>
    rcases Status.terminal_cases hst with h | h <;> simp [h, hs]
  | ended hst hs hf => simp [hs]

theorem finishedAt_isSome (h : Course hist (some p)) : p.finishedAt.isSome ↔ p.status.isTerminal := by
  cases h with
  | pending hst hs hf => simp [hst, hf, Status.isTerminal]
  | running hst hs hf => simp [hst, hf, Status.isTerminal]
  | unseen hst hs hf => simp [hst, hf]
  | ended hst hs hf => simp [hst, hf]

/-- All histories that there are. -/
def histories : List (List Status) :=
  [[], [.pending], [.pending, .running], [.pending, .success], [.pending, .error],
    [.pending, .running, .success], [.pending, .running, .error]]

theorem mem_histories (h : Course hist row) : hist ∈ histories := by
  cases h with
  | absent => decide
  | pending hst hs hf => decide
  | running hst hs hf => decide
  | unseen hst hs hf => rcases Status.terminal_cases hst with h | h <;> rw [h] <;> decide
  | ended hst hs hf => rcases Status.terminal_cases hst with h | h <;> rw [h] <;> decide

theorem nodup (h : Course hist row) : hist.Nodup := by
  have hall : ∀ hist ∈ histories, hist.Nodup := by decide
  exact hall hist h.mem_histories

theorem pending_notMem_tail (h : Course hist row) : .pending ∉ hist.tail := by
  have hall : ∀ hist ∈ histories, .pending ∉ hist.tail := by decide
  exact hall hist h.mem_histories

theorem count_running (h : Course hist row) : hist.count .running ≤ 1 :=
  List.nodup_iff_count.1 h.nodup _

theorem countP_terminal (h : Course hist row) : hist.countP Status.isTerminal ≤ 1 := by
  have hall : ∀ hist ∈ histories, hist.countP Status.isTerminal ≤ 1 := by decide
  exact hall hist h.mem_histories

/-- A last status that a pipeline has had is the one it has. -/
theorem eq_of_terminal (h : Course hist row) {s : Status} (hs : s ∈ hist) (ht : s.isTerminal) :
    row.map Pipeline.status = some s := by
  have hpending : s ≠ .pending := by rintro rfl; cases ht
  have hrunning : s ≠ .running := by rintro rfl; cases ht
  cases h with
  | absent => cases hs
  | pending hst _ hf => exact absurd (List.mem_singleton.1 hs) hpending
  | running hst _ hf => simp [hpending, hrunning] at hs
  | unseen hst _ hf => simpa [hpending, eq_comm] using hs
  | ended hst _ hf => simpa [hpending, hrunning, eq_comm] using hs

end Course

/-! ## Moves -/

namespace MemoryStorage

variable {s : MemoryStorage} {id : Int64} {next : Status} {t : Time.Instant}

theorem advance?_id {p p' : Pipeline} (h : p.advance? next t = some p') : p'.id = p.id := by
  unfold Pipeline.advance? at h
  split at h
  · cases h
    split <;> rfl
  · cases h

theorem advance?_status {p p' : Pipeline} (h : p.advance? next t = some p') :
    p.status.canAdvanceTo next ∧ p'.status = next := by
  unfold Pipeline.advance? at h
  split at h
  case isTrue hmay =>
    cases h
    split <;> exact ⟨hmay, rfl⟩
  case isFalse => cases h

/-- A move leaves what is needed to show the status. -/
theorem advance?_fields {p p' : Pipeline} (h : p.advance? next t = some p') :
    p'.commit = p.commit ∧ p'.url = p.url ∧ p'.repoId = p.repoId := by
  unfold Pipeline.advance? at h
  split at h
  · cases h
    split <;> exact ⟨rfl, rfl, rfl⟩
  · cases h

theorem find?_replace {p p' : Pipeline} (ps : List Pipeline) (hp : ps.find? (·.id == id) = some p)
    (hid : p'.id = id) : (ps.map fun q => if q.id = id then p' else q).find? (·.id == id) = some p' := by
  induction ps with
  | nil => cases hp
  | cons q ps ih =>
    by_cases hq : q.id = id
    · simp [hq, hid]
    · rw [List.find?_cons_of_neg (by simpa using hq)] at hp
      simp [hq, ih hp]

theorem find?_replace_ne {p' : Pipeline} {id' : Int64} (ps : List Pipeline) (hid : p'.id = id)
    (hne : id' ≠ id) : (ps.map fun q => if q.id = id then p' else q).find? (·.id == id') =
      ps.find? (·.id == id') := by
  induction ps with
  | nil => rfl
  | cons q ps ih =>
    by_cases hq : q.id = id
    · have hne' : p'.id ≠ id' := by rw [hid]; exact hne.symm
      have hneq : q.id ≠ id' := by rw [hq]; exact hne.symm
      rw [List.map_cons, if_pos hq, List.find?_cons_of_neg (by simpa using hne'),
        List.find?_cons_of_neg (by simpa using hneq), ih]
    · rw [List.map_cons, if_neg hq, List.find?_cons, List.find?_cons, ih]

theorem transition_stuck {p : Pipeline} (hrow : s.pipeline? id = some p) (hstuck : p.advance? next t = none) :
    s.transition id next t = (false, s) := by
  unfold transition
  rw [hrow, Option.bind_some, hstuck]

theorem transition_moves {p p' : Pipeline} (hrow : s.pipeline? id = some p)
    (hadvance : p.advance? next t = some p') :
    (s.transition id next t).1 = true ∧ (s.transition id next t).2.pipeline? id = some p' := by
  have hid : p.id = id := by simpa using List.find?_some hrow
  unfold transition
  rw [hrow, Option.bind_some, hadvance]
  exact ⟨rfl, find?_replace _ hrow ((advance?_id hadvance).trans hid)⟩

/-- A move finds its pipeline and takes it there, and leaves all others; or it changes nothing. -/
theorem transition_cases (s : MemoryStorage) (id : Int64) (next : Status) (t : Time.Instant) :
    (∃ p p', s.pipeline? id = some p ∧ p.advance? next t = some p' ∧
      (s.transition id next t).1 = true ∧ (s.transition id next t).2.pipeline? id = some p' ∧
      ∀ id' ≠ id, (s.transition id next t).2.pipeline? id' = s.pipeline? id') ∨
    s.transition id next t = (false, s) := by
  unfold transition
  split
  case h_1 => exact .inr rfl
  case h_2 p' hmoved =>
    obtain ⟨p, hp, hadvance⟩ := Option.bind_eq_some_iff.1 hmoved
    have hid : p'.id = id := by
      rw [advance?_id hadvance]
      simpa using List.find?_some hp
    exact .inl ⟨p, p', hp, hadvance, rfl, find?_replace _ hp hid,
      fun id' hne => find?_replace_ne _ hid hne⟩

end MemoryStorage

end Pipeworks
