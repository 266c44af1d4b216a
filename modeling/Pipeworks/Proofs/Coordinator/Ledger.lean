/-
The ledger of services that are carried out side by side: a service gains a credit when it moves its
pipeline and spends it when it asks a provider to show the status (`Spends`). Which answers it gets, and
whether credits may be left over at the end, is left open, so the ledger serves where calls fail and where
they all succeed. Over all services in flight, what was shown and what is owed are what was kept (`Balanced`),
and that stays so when one of them goes on.
-/
import Pipeworks.Proofs.Coordinator.Interleaving
import Pipeworks.Proofs.Storage.Memory

namespace Pipeworks.Coordinator

/-! ## Spending -/

/-- A call that a report about a pipeline may make of the storage. -/
def IsReportCall (id : Int64) : Storage.Call → Prop
  | .start i _ => i = id
  | .finish i _ _ => i = id
  | .find _ => True
  | .stateChangeInfo _ => True
  | .addLog _ => True
  | _ => False

/-- The status in which a pipeline is since a call. -/
def gained : (c : Storage.Call) → Storage.Answer c → List Status
  | .start _ _, .ok true => [.running]
  | .finish _ status _, .ok true => [status]
  | _, _ => []

section
variable (may : (c : Storage.Call) → Storage.Answer c → Prop) (settled : List Status → Prop)

/-- A service that only makes the calls of a report and spends a credit each time it asks a provider to
show a status, as long as the storage answers what it may. -/
def Spends {α : Type} (id : Int64) : Service α → List Status → Prop
  | .done _, credits => settled credits
  | .ask (.storage c) next, credits =>
    IsReportCall id c ∧ ∀ answer, may c answer → Spends id (next answer) (gained c answer ++ credits)
  | .ask (.post _ _ status) next, credits =>
    status.status ∈ credits ∧ ∀ answer, Spends id (next answer) (credits.erase status.status)
  | .ask _ _, _ => False

variable {may settled} {setup : Setup} {id : Int64}

/-- Credits may be left over, or else the storage always tells what is needed to show a status. -/
def Showable (may : (c : Storage.Call) → Storage.Answer c → Prop) (settled : List Status → Prop)
    (setup : Setup) (id : Int64) : Prop :=
  (∀ credits, settled credits) ∨
  ∀ answer, may (.stateChangeInfo id) answer → ∃ info provider, answer = .ok (some info) ∧
    Provider.ofName? setup.providers info.provider = some provider

theorem publish_spends (status : Status) (description : String) (hnil : settled [])
    (hshow : Showable may settled setup id) :
    Spends may settled id (publish setup id status description) [status] := by
  refine ⟨trivial, fun answer hanswer => ?_⟩
  have hposted : settled ([status].erase status) := by rwa [List.erase_cons_head]
  rcases hshow with hleft | hshow
  · rcases answer with f | (_ | info)
    · exact hleft _
    · exact hleft _
    · dsimp only [Program.bind_done, gained, List.nil_append]
      split
      · exact hleft _
      · exact ⟨List.mem_singleton_self status, fun _ => hposted⟩
  · obtain ⟨info, provider, rfl, hprovider⟩ := hshow answer hanswer
    dsimp only [Program.bind_done, gained, List.nil_append]
    rw [hprovider]
    exact ⟨List.mem_singleton_self status, fun _ => hposted⟩

theorem skip_spends (hnil : settled []) : Spends may settled id (skip id) [] := by
  refine ⟨trivial, fun answer _ => ?_⟩
  rcases answer with f | (_ | p)
  · exact hnil
  · exact hnil
  · exact hnil

/-- A report has no credit to begin with. -/
theorem hear_spends (r : Report) (hnil : settled []) (hshow : Showable may settled setup r.pipelineId) :
    Spends may settled r.pipelineId (hear setup r) [] := by
  cases r with
  | started r =>
    refine ⟨rfl, fun answer _ => ?_⟩
    rcases answer with f | (_ | _)
    · exact hnil
    · exact skip_spends hnil
    · exact publish_spends .running _ hnil hshow
  | output r =>
    refine ⟨trivial, fun answer _ => ?_⟩
    rcases answer with f | (_ | p)
    · exact hnil
    · exact hnil
    · refine ⟨trivial, fun answer _ => ?_⟩
      rcases answer with f | added
      · exact hnil
      · exact hnil
  | finished r =>
    refine ⟨rfl, fun answer _ => ?_⟩
    rcases answer with f | (_ | _)
    · exact hnil
    · exact skip_spends hnil
    · exact publish_spends r.outcome.status _ hnil hshow

end

/-! ## What a call does to the rows -/

/-- What becomes of the rows when a report about a pipeline makes a call: nothing, or its pipeline is
moved. -/
inductive Effect (id : Int64) (s s' : MemoryStorage) : List Status → Prop
  | still : (∀ i, s'.pipeline? i = s.pipeline? i) → Effect id s s' []
  | moved {p p' : Pipeline} {next : Status} {t : Time.Instant} :
      s.pipeline? id = some p → p.advance? next t = some p' → s'.pipeline? id = some p' →
      (∀ i ≠ id, s'.pipeline? i = s.pipeline? i) → Effect id s s' [next]

variable {id i : Int64} {s s' : MemoryStorage}

theorem transition_effect (next : Status) (t : Time.Instant) :
    Effect id s (s.transition id next t).2 (if (s.transition id next t).1 then [next] else []) := by
  obtain ⟨p, p', hp, hadvance, hmoved, hp', hothers⟩ | hstill := s.transition_cases id next t
  · rw [hmoved]
    exact .moved hp hadvance hp' hothers
  · rw [hstill]
    exact .still fun _ => rfl

theorem performed_effect {c : Storage.Call} (hc : IsReportCall id c) (s : MemoryStorage) :
    Effect id s (s.perform c).2 (gained c (s.perform c).1) := by
  cases c with
  | start i t =>
    obtain rfl := hc
    have hgained : gained (.start i t) (s.perform (.start i t)).1 =
        if (s.transition i .running t).1 then [.running] else [] := by
      show gained (.start i t) (.ok (s.transition i .running t).1) = _
      cases (s.transition i .running t).1 <;> rfl
    rw [hgained]
    exact transition_effect .running t
  | finish i status t =>
    obtain rfl := hc
    have hgained : gained (.finish i status t) (s.perform (.finish i status t)).1 =
        if (s.transition i status t).1 then [status] else [] := by
      show gained (.finish i status t) (.ok (s.transition i status t).1) = _
      cases (s.transition i status t).1 <;> rfl
    rw [hgained]
    exact transition_effect status t
  | find i => exact .still fun _ => rfl
  | stateChangeInfo i => exact .still fun _ => rfl
  | addLog e =>
    refine .still fun i => ?_
    show (s.addLog e).2.pipeline? i = s.pipeline? i
    unfold MemoryStorage.addLog
    split
    · rfl
    · split <;> rfl
  | create new => exact hc.elim
  | delete i => exact hc.elim
  | creationInfo provider i => exact hc.elim
  | logs i => exact hc.elim

/-- The calls of a report change nothing that is needed to show a status. -/
theorem performed_stateChangeInfo {c : Storage.Call} (hc : IsReportCall i c) (s : MemoryStorage)
    (id : Int64) : (s.perform c).2.stateChangeInfo id = s.stateChangeInfo id := by
  have hrepos := s.perform_repos c
  have heffect := performed_effect hc s
  generalize gained c (s.perform c).1 = kept at heffect
  unfold MemoryStorage.stateChangeInfo
  cases heffect with
  | still hrows => rw [hrows, hrepos]
  | @moved p p' next t hp hadvance hp' hothers =>
    by_cases hid : id = i
    · subst hid
      obtain ⟨hcommit, hurl, hrepo⟩ := MemoryStorage.advance?_fields hadvance
      rw [hp, hp', hrepos, Option.bind_some, Option.bind_some, hcommit, hurl, hrepo]
    · rw [hothers id hid, hrepos]

/-- A call leaves a course behind, longer by what was gained for the pipeline. -/
theorem effect_course {hist kept : List Status} (h : Course hist (s.pipeline? id))
    (he : Effect i s s' kept) :
    Course (note id hist s') (s'.pipeline? id) ∧
    note id hist s' = hist ++ (if i = id then kept else []) ∧
    (note id hist s').tail = hist.tail ++ if i = id then kept else [] := by
  have hsame : s'.pipeline? id = s.pipeline? id →
      Course (note id hist s') (s'.pipeline? id) ∧ note id hist s' = hist := by
    intro hrow
    rw [note_same h hrow, hrow]
    exact ⟨h, rfl⟩
  cases he with
  | still hrows =>
    obtain ⟨hcourse, hnote⟩ := hsame (hrows id)
    exact ⟨hcourse, by simp [hnote], by simp [hnote]⟩
  | @moved p p' next t hp hadvance hp' hothers =>
    by_cases hid : i = id
    · subst hid
      rw [hp] at h
      rw [note_moved h hadvance hp', hp', if_pos rfl]
      exact ⟨h.advance hadvance, rfl, List.tail_append_of_ne_nil h.ne_nil⟩
    · obtain ⟨hcourse, hnote⟩ := hsame (hothers id (Ne.symm hid))
      exact ⟨hcourse, by simp [hnote, hid], by simp [hnote, hid]⟩

/-- No call moves a pipeline that has ended. -/
theorem effect_ended {kept : List Status} {p : Pipeline} (he : Effect i s s' kept)
    (hrow : s.pipeline? id = some p) (hended : p.status.isTerminal) : s'.pipeline? id = some p := by
  cases he with
  | still hrows => rw [hrows, hrow]
  | moved hp hadvance hp' hothers =>
    by_cases hid : id = i
    · subst hid
      rw [hrow] at hp
      obtain rfl := Option.some.inj hp
      unfold Pipeline.advance? at hadvance
      rw [Status.canAdvanceTo_of_terminal hended] at hadvance
      cases hadvance
    · rw [hothers id hid, hrow]

/-! ## Accounts -/

/-- A service in flight with its credits. -/
abbrev Account : Type := Flight × List Status

/-- The services in flight have accounts that hold, and what was shown and what is owed in the accounts are
together all that was kept. -/
def Balanced (holds : Account → Prop) (owed : Account → List Status) (flights : List Flight)
    (shown kept : List Status) : Prop :=
  ∃ accounts : List Account, flights = accounts.map Prod.fst ∧ (∀ x ∈ accounts, holds x) ∧
    (shown ++ accounts.flatMap owed).Perm kept

namespace Balanced

variable {holds : Account → Prop} {owed : Account → List Status} {flights front back : List Flight}
  {shown shown' kept more : List Status} {f f' : Flight}

theorem holds_of_flight (h : Balanced holds owed (front ++ f :: back) shown kept) :
    ∃ credits, holds (f, credits) := by
  obtain ⟨accounts, hflights, hholds, -⟩ := h
  have hf : f ∈ accounts.map Prod.fst := hflights ▸ List.mem_append_right _ List.mem_cons_self
  obtain ⟨⟨f, credits⟩, hx, rfl⟩ := List.mem_map.1 hf
  exact ⟨credits, hholds _ hx⟩

/-- A service begins that owes nothing. -/
theorem begins {x : Account} (h : Balanced holds owed flights shown kept) (hx : holds x)
    (howed : owed x = []) : Balanced holds owed (flights ++ [x.1]) shown kept := by
  obtain ⟨accounts, rfl, hholds, hbalance⟩ := h
  refine ⟨accounts ++ [x], by simp, fun y hy => ?_, ?_⟩
  · rcases List.mem_append.1 hy with hy | hy
    · exact hholds y hy
    · exact List.mem_singleton.1 hy ▸ hx
  · simpa [howed] using hbalance

/-- A service goes on: if what is shown, owed and kept with its account balances, so does the whole. -/
theorem goes (h : Balanced holds owed (front ++ f :: back) shown kept)
    (hgoes : ∀ credits, holds (f, credits) → ∃ credits', holds (f', credits') ∧
      (shown' ++ owed (f', credits')).Perm (shown ++ owed (f, credits) ++ more)) :
    Balanced holds owed (front ++ f' :: back) shown' (kept ++ more) := by
  obtain ⟨accounts, hflights, hholds, hbalance⟩ := h
  obtain ⟨before, rest, rfl, rfl, hrest⟩ := List.map_eq_append_iff.1 hflights.symm
  obtain ⟨⟨f, credits⟩, after, rfl, rfl, rfl⟩ := List.map_eq_cons_iff.1 hrest
  obtain ⟨credits', hholds', hone⟩ :=
    hgoes credits (hholds _ (List.mem_append_right _ List.mem_cons_self))
  refine ⟨before ++ (f', credits') :: after, by simp, fun y hy => ?_, ?_⟩
  · rcases List.mem_append.1 hy with hy | hy
    · exact hholds y (List.mem_append_left _ hy)
    rcases List.mem_cons.1 hy with rfl | hy
    · exact hholds'
    · exact hholds y (List.mem_append_right _ (List.mem_cons_of_mem _ hy))
  -- the accounts before and after it stand as they are, so the counts of each status still agree
  · rw [List.perm_iff_count] at hbalance hone ⊢
    intro status
    have hall := hbalance status
    have hthis := hone status
    simp only [List.flatMap_append, List.flatMap_cons, List.count_append] at hall hthis ⊢
    omega

end Balanced

end Pipeworks.Coordinator
