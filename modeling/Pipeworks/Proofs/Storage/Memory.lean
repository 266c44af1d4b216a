/-
The storage in memory: its ids are given once (`WF`), and no call changes that. So a new pipeline is found
under an id that none had before, and what is needed to show its status is found by the repository for
which it was created.
-/
import Mathlib.Data.List.Nodup
import Pipeworks.Proofs.Storage.Course

namespace Pipeworks.MemoryStorage

open Storage

/-- Every pipeline has an id that was given to it. -/
def Numbered (s : MemoryStorage) : Prop := ∀ p ∈ s.pipelines, ∃ n, n ≤ s.lastId ∧ p.id = Int64.ofNat n

/-- No two repositories have the same id, and every pipeline has an id that was given to it. -/
structure WF (s : MemoryStorage) : Prop where
  repoIds : (s.repos.map Repo.id).Nodup
  numbered : ∀ p ∈ s.pipelines, ∃ n, n ≤ s.lastId ∧ p.id = Int64.ofNat n

variable {s s' : MemoryStorage} {new : NewPipeline} {p : Pipeline}

theorem WF.empty : WF {} := ⟨List.nodup_nil, List.forall_mem_nil _⟩

/-- A new pipeline gets the next id, as long as there is one. -/
theorem insert_eq (hinsert : s.insert new = some (p, s')) :
    s.lastId + 1 < Nat.pow 2 63 ∧
      p = ⟨Int64.ofNat (s.lastId + 1), .pending, new.commit, new.cloneUrl,
        new.urlBase ++ toString (s.lastId + 1), none, none, new.repoId⟩ ∧
      s' = { s with lastId := s.lastId + 1, pipelines := s.pipelines ++ [p] } := by
  unfold insert at hinsert
  dsimp only at hinsert
  split at hinsert
  case isFalse => cases hinsert
  case isTrue hn =>
    cases hinsert
    exact ⟨hn, rfl, rfl⟩

theorem insert_some (new : NewPipeline) (h : s.lastId + 1 < Nat.pow 2 63) :
    ∃ p s', s.insert new = some (p, s') := by
  unfold insert
  dsimp only
  rw [if_pos h]
  exact ⟨_, _, rfl⟩

/-- A move leaves all but the rows. -/
theorem transition_rest (s : MemoryStorage) (id : Int64) (next : Status) (t : Time.Instant) :
    (s.transition id next t).2 = { s with pipelines := (s.transition id next t).2.pipelines } := by
  unfold transition
  split <;> rfl

/-- An entry leaves all but the log. -/
theorem addLog_rest (s : MemoryStorage) (e : LogEntry) :
    (s.addLog e).2 = { s with logs := (s.addLog e).2.logs } := by
  unfold addLog
  split
  · rfl
  · split <;> rfl

/-! ## Rows -/

/-- What a row can be after a call: it was there, it is new under the next id, or it was moved. -/
inductive RowAfter (s s' : MemoryStorage) (p : Pipeline) : Prop
  | kept : p ∈ s.pipelines → RowAfter s s' p
  | new : p.IsNew → s'.lastId = s.lastId + 1 → p.id = Int64.ofNat (s.lastId + 1) → RowAfter s s' p
  | moved {q : Pipeline} {next : Status} {t : Time.Instant} :
      q ∈ s.pipelines → q.advance? next t = some p → RowAfter s s' p

theorem transition_rows (s : MemoryStorage) (id : Int64) (next : Status) (t : Time.Instant) :
    (s.transition id next t).2.lastId = s.lastId ∧
      ∀ p ∈ (s.transition id next t).2.pipelines, RowAfter s (s.transition id next t).2 p := by
  unfold transition
  split
  case h_1 => exact ⟨rfl, fun p hp => .kept hp⟩
  case h_2 p hmoved =>
    obtain ⟨q, hq, hadvance⟩ := Option.bind_eq_some_iff.1 hmoved
    refine ⟨rfl, fun r hr => ?_⟩
    obtain ⟨r', hr', rfl⟩ := List.mem_map.1 hr
    split
    case isTrue => exact .moved (List.mem_of_find?_eq_some hq) hadvance
    case isFalse => exact .kept hr'

theorem perform_rows (s : MemoryStorage) (c : Call) :
    s.lastId ≤ (s.perform c).2.lastId ∧ ∀ p ∈ (s.perform c).2.pipelines, RowAfter s (s.perform c).2 p := by
  have hsame : s.lastId ≤ s.lastId ∧ ∀ p ∈ s.pipelines, RowAfter s s p := ⟨Nat.le_refl _, fun p hp => .kept hp⟩
  have htransition : ∀ id next t, s.lastId ≤ (s.transition id next t).2.lastId ∧
      ∀ p ∈ (s.transition id next t).2.pipelines, RowAfter s (s.transition id next t).2 p := fun id next t =>
    ⟨Nat.le_of_eq (s.transition_rows id next t).1.symm, (s.transition_rows id next t).2⟩
  cases c with
  | create new =>
    cases hinsert : s.insert new with
    | none =>
      simp only [perform, hinsert]
      exact hsame
    | some created =>
      simp only [perform, hinsert]
      obtain ⟨-, hp, hs⟩ := insert_eq hinsert
      rw [hs]
      refine ⟨Nat.le_succ _, fun q hq => ?_⟩
      rcases List.mem_append.1 hq with hq | hq
      · exact .kept hq
      · rw [List.mem_singleton.1 hq, hp]
        exact .new ⟨rfl, rfl, rfl⟩ rfl rfl
  | delete id => exact ⟨Nat.le_refl _, fun p hp => .kept (List.mem_of_mem_filter hp)⟩
  | start id t => exact htransition id .running t
  | finish id status t => exact htransition id status t
  | addLog e =>
    show s.lastId ≤ (s.addLog e).2.lastId ∧ ∀ p ∈ (s.addLog e).2.pipelines, RowAfter s (s.addLog e).2 p
    rw [addLog_rest]
    exact ⟨Nat.le_refl _, fun p hp => .kept hp⟩
  | find id => exact hsame
  | creationInfo provider id => exact hsame
  | stateChangeInfo id => exact hsame
  | logs id => exact hsame

/-- A pipeline is in a status after a move if it was there before or has been moved there. -/
theorem transition_status (s : MemoryStorage) (id : Int64) (next : Status) (t : Time.Instant) :
    ∀ p ∈ (s.transition id next t).2.pipelines, p ∈ s.pipelines ∨ p.id = id ∧ p.status = next := by
  unfold transition
  split
  case h_1 => exact fun p hp => .inl hp
  case h_2 p hmoved =>
    obtain ⟨q, hq, hadvance⟩ := Option.bind_eq_some_iff.1 hmoved
    intro r hr
    obtain ⟨r', hr', rfl⟩ := List.mem_map.1 hr
    split
    case isTrue =>
      have hid : (q.id == id) = true := List.find?_some (p := fun p : Pipeline => p.id == id) hq
      exact .inr ⟨(advance?_id hadvance).trans (beq_iff_eq.1 hid), (advance?_status hadvance).2⟩
    case isFalse => exact .inl hr'

/-- No call but one brings a pipeline to its success. -/
theorem perform_success (s : MemoryStorage) (c : Call) {p : Pipeline} (hp : p ∈ (s.perform c).2.pipelines)
    (hsuccess : p.status = .success) : p ∈ s.pipelines ∨ ∃ t, c = .finish p.id .success t := by
  cases c with
  | create new =>
    cases hinsert : s.insert new with
    | none =>
      simp only [perform, hinsert] at hp
      exact .inl hp
    | some created =>
      simp only [perform, hinsert] at hp
      obtain ⟨-, hnew, hs⟩ := insert_eq hinsert
      rw [hs] at hp
      rcases List.mem_append.1 hp with hp | hp
      · exact .inl hp
      · rw [List.mem_singleton.1 hp, hnew] at hsuccess
        cases hsuccess
  | delete id => exact .inl (List.mem_of_mem_filter hp)
  | start id t =>
    obtain hp | ⟨-, hrunning⟩ := s.transition_status id .running t p hp
    · exact .inl hp
    · rw [hrunning] at hsuccess
      cases hsuccess
  | finish id status t =>
    obtain hp | ⟨hid, hstatus⟩ := s.transition_status id status t p hp
    · exact .inl hp
    · exact .inr ⟨t, by rw [hid, ← hsuccess, hstatus]⟩
  | addLog e =>
    have hrest : (s.addLog e).2.pipelines = s.pipelines := by rw [addLog_rest]
    exact .inl (hrest ▸ hp)
  | find id => exact .inl hp
  | creationInfo provider id => exact .inl hp
  | stateChangeInfo id => exact .inl hp
  | logs id => exact .inl hp

/-- Every call keeps the ids as they should be. -/
theorem Numbered.perform (h : s.Numbered) (c : Call) : (s.perform c).2.Numbered := by
  obtain ⟨hlast, hrows⟩ := s.perform_rows c
  intro p hp
  cases hrows p hp with
  | kept hp =>
    obtain ⟨n, hn, hid⟩ := h p hp
    exact ⟨n, Nat.le_trans hn hlast, hid⟩
  | new _ hnext hid => exact ⟨_, Nat.le_of_eq hnext.symm, hid⟩
  | moved hq hadvance =>
    obtain ⟨n, hn, hid⟩ := h _ hq
    exact ⟨n, Nat.le_trans hn hlast, (advance?_id hadvance).trans hid⟩

/-- A pipeline that is pending has not been moved yet. -/
def PendingNew (s : MemoryStorage) : Prop := ∀ p ∈ s.pipelines, p.status = .pending → p.IsNew

theorem PendingNew.perform (h : s.PendingNew) (c : Call) : (s.perform c).2.PendingNew := by
  intro p hp hpending
  cases (s.perform_rows c).2 p hp with
  | kept hp => exact h p hp hpending
  | new hnew _ _ => exact hnew
  | @moved q next t hq hadvance =>
    -- no pipeline is moved back to pending
    obtain ⟨hmay, hnext⟩ := advance?_status hadvance
    rw [← hnext, hpending] at hmay
    cases hq : q.status <;> rw [hq] at hmay <;> cases hmay

/-- No call changes the repositories. -/
theorem perform_repos (s : MemoryStorage) (c : Call) : (s.perform c).2.repos = s.repos := by
  have htransition : ∀ id next t, (s.transition id next t).2.repos = s.repos := fun id next t => by
    rw [transition_rest]
  cases c with
  | create new =>
    cases hinsert : s.insert new with
    | none => simp only [MemoryStorage.perform, hinsert]
    | some created =>
      simp only [MemoryStorage.perform, hinsert]
      rw [(insert_eq hinsert).2.2]
  | start id t => exact htransition id .running t
  | finish id status t => exact htransition id status t
  | addLog e =>
    show (s.addLog e).2.repos = s.repos
    rw [addLog_rest]
  | delete id => rfl
  | find id => rfl
  | creationInfo provider id => rfl
  | stateChangeInfo id => rfl
  | logs id => rfl

theorem WF.perform (h : s.WF) (c : Call) : (s.perform c).2.WF :=
  ⟨(s.perform_repos c).symm ▸ h.repoIds, Numbered.perform h.numbered c⟩

/-! ## New pipelines -/

theorem insert_number (hinsert : s.insert new = some (p, s')) : p.id.toInt = s.lastId + 1 := by
  obtain ⟨hn, rfl, -⟩ := insert_eq hinsert
  exact Int64.toInt_ofNat_of_lt hn

/-- An id that comes after all that were given is greater: none of them has wrapped around. -/
theorem Numbered.lt_next (h : s.Numbered) {id : Int64} {last : Nat} (hlast : s.lastId ≤ last)
    (hid : id.toInt = last + 1) : ∀ q ∈ s.pipelines, q.id.toInt < id.toInt := by
  intro q hq
  obtain ⟨n, hn, hqid⟩ := h q hq
  have hbound : id.toInt < 2 ^ 63 := Int64.toInt_lt id
  have hsmall : n < 2 ^ 63 := by omega
  rw [hqid, Int64.toInt_ofNat_of_lt hsmall]
  omega

theorem Numbered.lt_new (h : s.Numbered) (hinsert : s.insert new = some (p, s')) :
    ∀ q ∈ s.pipelines, q.id.toInt < p.id.toInt :=
  h.lt_next (Nat.le_refl _) (insert_number hinsert)

/-- A new pipeline is the only one of its id. -/
theorem insert_new (h : s.WF) (hinsert : s.insert new = some (p, s')) :
    s.pipeline? p.id = none ∧ s'.pipeline? p.id = some p ∧ p.IsNew ∧ p.repoId = new.repoId ∧
      s'.repos = s.repos := by
  have hnone : s.pipeline? p.id = none := List.find?_eq_none.2 fun q hq hid =>
    Int.ne_of_lt (Numbered.lt_new h.numbered hinsert q hq) (congrArg Int64.toInt (beq_iff_eq.1 hid))
  obtain ⟨-, rfl, rfl⟩ := insert_eq hinsert
  refine ⟨hnone, ?_, ⟨rfl, rfl, rfl⟩, rfl, rfl⟩
  unfold pipeline? at hnone ⊢
  rw [List.find?_append, hnone]
  simp

/-! ## What is needed to show a status -/

/-- Where ids are given once, all that have an id are the first that has it. -/
theorem filter_ident {α : Type} {ident : α → Int64} {as : List α} (hids : (as.map ident).Nodup) (id : Int64) :
    as.filter (ident · == id) = (as.find? (ident · == id)).toList := by
  induction as with
  | nil => rfl
  | cons a as ih =>
    rw [List.map_cons, List.nodup_cons] at hids
    by_cases ha : ident a = id
    · have hrest : as.filter (ident · == id) = [] := List.filter_eq_nil_iff.2 fun b hb hid =>
        hids.1 (ha.trans (beq_iff_eq.1 hid).symm ▸ List.mem_map_of_mem hb)
      rw [List.filter_cons_of_pos (by simpa using ha), List.find?_cons_of_pos (by simpa using ha), hrest]
      rfl
    · rw [List.filter_cons_of_neg (by simpa using ha), List.find?_cons_of_neg (by simpa using ha), ih hids.2]

theorem find?_repo (h : s.WF) {r : Repo} (hr : r ∈ s.repos) : s.repos.find? (·.id == r.id) = some r := by
  rw [← Option.mem_toList, ← filter_ident h.repoIds, List.mem_filter]
  exact ⟨hr, beq_self_eq_true r.id⟩

theorem mem_of_creationInfo {provider : String} {providerRepoId : Int64} {info : CreationInfo}
    (h : s.creationInfo provider providerRepoId = some info) :
    ∃ r ∈ s.repos, r.provider = provider ∧ r.id = info.repoId := by
  obtain ⟨r, hr, rfl⟩ := Option.map_eq_some_iff.1 h
  refine ⟨r, List.mem_of_find?_eq_some hr, ?_, rfl⟩
  have hfound := List.find?_some hr
  simp only [Bool.and_eq_true, beq_iff_eq] at hfound
  exact hfound.1

/-- The status of a new pipeline is shown at the provider of its repository. -/
theorem stateChangeInfo_insert (h : s.WF) (hinsert : s.insert new = some (p, s')) {r : Repo}
    (hr : r ∈ s.repos) (hid : r.id = new.repoId) :
    ∃ info, s'.stateChangeInfo p.id = some info ∧ info.provider = r.provider := by
  obtain ⟨-, hrow, -, hrepo, hrepos⟩ := insert_new h hinsert
  unfold stateChangeInfo
  rw [hrow, Option.bind_some, hrepos, hrepo, ← hid, find?_repo h hr]
  exact ⟨_, rfl, rfl⟩

end Pipeworks.MemoryStorage
