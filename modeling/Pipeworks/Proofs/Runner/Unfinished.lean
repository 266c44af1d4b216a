/-
Runs that are killed: what the calls that a run has made so far say of its commands, wherever it was stopped
(`failFast_of_underway`). A run that was stopped can be thought to its end, the limit striking at once; what
holds of whole executions then holds of the calls that were made.
-/
import Pipeworks.Proofs.Runner.Reports

namespace Pipeworks.Runner

open Program (Path path_ask_iff)

variable {α : Type} {id : Int64} {whole rest : Run α} {es fs : Journal}

/-! ## Runs in the middle -/

/-- The calls so far, of which the rest of the run goes on. -/
def Underway (whole : Run α) (es : Journal) (rest : Run α) : Prop :=
  ∀ fs a, Path rest fs a → Path whole (es ++ fs) a

theorem Underway.start (whole : Run α) : Underway whole [] whole := fun _ _ h => h

theorem Underway.goes {c : Call} {next : c.Answer → Run α} (h : Underway whole es (.ask c next))
    (answer : c.Answer) : Underway whole (es ++ [⟨c, answer⟩]) (next answer) := by
  intro fs a hpath
  rw [List.append_assoc]
  exact h _ a (path_ask_iff.2 ⟨answer, fs, rfl, hpath⟩)

/-! ## Ends of runs that were stopped -/

/-- Nothing is done, and the limit strikes as soon as there is one. -/
def struck : (c : Call) → c.Answer
  | .plain .clock => ⟨⟨⟨1970, 1, 1⟩, 0, 0⟩, by decide⟩
  | .plain (.report _) => .error ""
  | .plain (.openCheckout _) => .error ""
  | .plain (.closeCheckout _) => .error ""
  | .plain (.fetch _ _ _ _) => .error ""
  | .plain (.pull _) => .error ""
  | .plain (.create _) => .error ""
  | .plain (.start _) => .error ""
  | .plain (.exec _ _) => .error ""
  | .plain (.stop _) => .error ""
  | .plain (.remove _) => .error ""
  | .plain (.upload _ _ _) => .error .io
  | .setLimit _ => ()
  | .limited _ => none

/-- A run comes to an end in which no definition is fetched. -/
theorem exists_end (p : Run α) : ∃ fs a, Path p fs a ∧ ∀ e ∈ fs, definition? e = none := by
  induction p with
  | done a => exact ⟨[], a, .done a, List.forall_mem_nil _⟩
  | ask c next ih =>
    obtain ⟨fs, a, hpath, hnone⟩ := ih (struck c)
    refine ⟨⟨c, struck c⟩ :: fs, a, .ask _ hpath, List.forall_mem_cons.2 ⟨?_, hnone⟩⟩
    cases c with
    | plain a => rfl
    | setLimit limit => rfl
    | limited a => cases a <;> rfl

/-! ## What the reports say -/

/-- All commands of the definition have been told about, and none has failed. -/
structure Journal.ToldAll (es : Journal) : Prop where
  all : ∃ cmds, Journal.declared es = some cmds ∧ (Journal.outputs es).length = cmds.length
  succeeded : ∀ o ∈ Journal.outputs es, o.exitCode = 0

/-- The reports so far fit together: those about commands follow the definition in order, nothing follows a
command that failed, and a success is told only when all commands have been told about and none has failed. -/
structure FailFast (id : Int64) (es : Journal) : Prop where
  about : ∀ r ∈ Journal.reports es, r.pipelineId = id
  inOrder : ∀ (i : Nat) (r : CommandOutput), (Journal.outputs es)[i]? = some r →
    r.order.toInt = i ∧ ∃ cmds, Journal.declared es = some cmds ∧ i < cmds.length
  last : ∀ (i : Nat) (r : CommandOutput), (Journal.outputs es)[i]? = some r → r.exitCode ≠ 0 →
    (Journal.outputs es).length = i + 1
  success : ∀ r, .finished r ∈ Journal.reports es → r.outcome = .success → Journal.ToldAll es

variable {n : Nat} {cmds : List String}

/-- Only the last command that was run may have failed. -/
theorem CommandLaw.succeeded_before (h : CommandLaw id n cmds es) :
    (Journal.commandRuns es).Pairwise fun c _ => c.succeeded := by
  refine (List.pairwise_filterMap).2 (h.failFast.imp fun {e e'} hends c hc c' hc' => ?_)
  cases hfailed : c.succeeded with
  | true => rfl
  | false =>
    have hnone := hends (by simp [endsCommands, hc, hfailed])
    rw [hnone] at hc'
    cases hc'

theorem CommandLaw.last_failed (h : CommandLaw id n cmds es) {i : Nat} {r : CommandOutput}
    (hr : (Journal.outputs es)[i]? = some r) (hfailed : r.exitCode ≠ 0) :
    (Journal.outputs es).length = i + 1 := by
  obtain ⟨hi, -⟩ := List.getElem?_eq_some_iff.1 hr
  refine Nat.le_antisymm (Nat.not_lt.1 fun hnext => ?_) hi
  -- another report would be about another command
  obtain ⟨cmd, result, -, hrun, hrep, -⟩ := h.reports i r hr
  obtain ⟨cmd', result', -, hrun', -⟩ := h.reports (i + 1) _ (List.getElem?_eq_getElem hnext)
  obtain ⟨hlt, hget⟩ := List.getElem?_eq_some_iff.1 hrun
  obtain ⟨hlt', -⟩ := List.getElem?_eq_some_iff.1 hrun'
  have hsucceeded := List.pairwise_iff_getElem.1 h.succeeded_before i (i + 1) hlt hlt' (Nat.lt_succ_self i)
  rw [hget] at hsucceeded
  rw [hrep] at hfailed
  exact hfailed (beq_iff_eq.1 hsucceeded)

/-- Where all commands came back with exit code 0, each is told about so. -/
theorem CommandLaw.all_reported (h : CommandLaw id n cmds es)
    (hsucceeded : ∀ c ∈ Journal.commandRuns es, c.succeeded) :
    (Journal.outputs es).length = (Journal.commandRuns es).length ∧ ∀ o ∈ Journal.outputs es, o.exitCode = 0 := by
  have hback : ∀ c ∈ Journal.commandRuns es, ∃ cmd result, c = ⟨cmd, some (.ok result)⟩ ∧ result.exitCode = 0 := by
    intro c hc
    have hok := hsucceeded c hc
    obtain ⟨cmd, _ | _ | result⟩ := c
    · cases hok
    · cases hok
    · exact ⟨cmd, result, rfl, beq_iff_eq.1 hok⟩
  refine ⟨Nat.le_antisymm (Nat.not_lt.1 fun hlt => ?_) (Nat.not_lt.1 fun hlt => ?_), fun o ho => ?_⟩
  · obtain ⟨cmd, result, -, hrun, -⟩ := h.reports _ _ (List.getElem?_eq_getElem hlt)
    exact absurd (List.getElem?_eq_some_iff.1 hrun).1 (Nat.lt_irrefl _)
  · obtain ⟨cmd, result, hc, -⟩ := hback _ (List.getElem_mem hlt)
    have hrun : (Journal.commandRuns es)[(Journal.outputs es).length]? = some ⟨cmd, some (.ok result)⟩ := by
      rw [List.getElem?_eq_getElem hlt, hc]
    exact absurd (List.getElem?_eq_some_iff.1 (h.reported _ cmd result hrun)).1 (Nat.lt_irrefl _)
  · obtain ⟨i, hi⟩ := List.mem_iff_getElem?.1 ho
    obtain ⟨cmd, result, -, hrun, hrep, -⟩ := h.reports i o hi
    obtain ⟨cmd', result', hc, hzero⟩ := hback _ (List.mem_of_getElem? hrun)
    cases hc
    rw [hrep]
    exact hzero

/-- The reports of an execution are about its pipeline. -/
theorem ReportLaw.about {summary : RunSummary} (h : ReportLaw id es summary) :
    ∀ r ∈ Journal.reports es, r.pipelineId = id := by
  have houtputs : ∀ o ∈ Journal.outputs es, o.pipelineId = id := by
    intro o ho
    obtain ⟨i, hi⟩ := List.mem_iff_getElem?.1 ho
    obtain ⟨cmd, result, -, -, hrep, -⟩ := h.commands.reports i o hi
    rw [hrep]
    rfl
  obtain ⟨startedAt, finishedAt, started, finished, body, hes, hbody⟩ := h.brackets
  have hreports : Journal.reports es = .started ⟨id, startedAt⟩ :: (Journal.reports body ++
      [.finished ⟨id, finishedAt, summary.outcome, summary.error⟩]) := by
    rw [hes]
    exact congrArg (Report.started ⟨id, startedAt⟩ :: ·) (Journal.reports_append body _)
  rw [hreports, hbody]
  refine List.forall_mem_cons.2 ⟨rfl, fun r hr => ?_⟩
  rcases List.mem_append.1 hr with hr | hr
  · obtain ⟨o, ho, rfl⟩ := List.mem_map.1 hr
    exact houtputs o ho
  · rw [List.mem_singleton.1 hr]
    rfl

/-- The end is told by the last call and by no call before it. -/
theorem ReportLaw.end_last {summary : RunSummary} (h : ReportLaw id es summary) {front back : Journal}
    {c : Call} {answer : c.Answer} {r : Finished} (hc : c.report? = some (.finished r))
    (hes : es = front ++ ⟨c, answer⟩ :: back) : back = [] ∧ r.outcome = summary.outcome := by
  obtain ⟨startedAt, finishedAt, started, finished, body, hbrackets, hbody⟩ := h.brackets
  obtain rfl | ⟨back, e, rfl⟩ := List.eq_nil_or_concat back
  · have hlast := congrArg List.getLast? (hes.symm.trans hbrackets)
    rw [List.getLast?_concat, ← List.cons_append, ← List.cons_append, List.getLast?_concat] at hlast
    cases hlast
    cases hc
    exact ⟨rfl, rfl⟩
  · -- before the last call only the start and commands are told
    have hinit := congrArg List.dropLast (hes.symm.trans hbrackets)
    rw [List.concat_eq_append, ← List.cons_append, ← List.append_assoc, List.dropLast_concat, ← List.cons_append,
      ← List.cons_append, List.dropLast_concat] at hinit
    have hmem : (⟨c, answer⟩ : Program.Event Call Call.Answer) ∈
        ⟨.plain .clock, startedAt⟩ :: ⟨.plain (.report (.started ⟨id, startedAt⟩)), started⟩ :: body :=
      hinit ▸ List.mem_append_right _ List.mem_cons_self
    rcases List.mem_cons.1 hmem with heq | hmem
    · cases heq
      cases hc
    rcases List.mem_cons.1 hmem with heq | hmem
    · cases heq
      cases hc
    have htold : Report.finished r ∈ Journal.reports body := List.mem_filterMap.2 ⟨_, hmem, hc⟩
    rw [hbody] at htold
    obtain ⟨o, -, heq⟩ := List.mem_map.1 htold
    cases heq

theorem ReportLaw.told_all {summary : RunSummary} (h : ReportLaw id es summary)
    (hsuccess : summary.outcome = .success) : Journal.ToldAll es := by
  have hall : Journal.AllSucceeded es := by
    refine Classical.byContradiction fun hnot => ?_
    obtain ⟨f, hf⟩ := h.failure hnot
    rw [hf] at hsuccess
    cases hsuccess
  obtain ⟨hlength, hzero⟩ := h.commands.all_reported hall.succeeded
  exact ⟨⟨_, hall.all, by rw [hlength, List.length_map]⟩, hzero⟩

/-! ## Wherever a run is stopped -/

theorem failFast_of_underway {limit : Time.Span} {work : Work} {unique : String} {rest : Run RunSummary}
    (h : Underway (execute limit work unique) es rest) : FailFast work.pipeline.id es := by
  obtain ⟨fs, summary, hpath, hnone⟩ := exists_end rest
  have hlaw := executed_law (executed_of_path (h fs summary hpath))
  have hdeclared : Journal.declared (es ++ fs) = Journal.declared es := by
    have hfs : fs.findSome? definition? = none := List.findSome?_eq_none_iff.2 hnone
    unfold Journal.declared Journal.definition?
    rw [List.findSome?_append, hfs, Option.or_none]
  have hgrows : ∀ {i : Nat} {r : CommandOutput}, (Journal.outputs es)[i]? = some r →
      (Journal.outputs (es ++ fs))[i]? = some r := by
    intro i r hr
    rw [Journal.outputs_append, List.getElem?_append_left (List.getElem?_eq_some_iff.1 hr).1]
    exact hr
  constructor
  case about =>
    intro r hr
    exact hlaw.about r (by rw [Journal.reports_append]; exact List.mem_append_left _ hr)
  case inOrder =>
    intro i r hr
    obtain ⟨cmd, result, hcmd, -, -, horder⟩ := hlaw.commands.reports i r (hgrows hr)
    rw [hdeclared] at hcmd
    cases hfetched : Journal.declared es with
    | none =>
      rw [hfetched] at hcmd
      cases hcmd
    | some cmds =>
      rw [hfetched] at hcmd
      exact ⟨by omega, cmds, rfl, (List.getElem?_eq_some_iff.1 hcmd).1⟩
  case last =>
    intro i r hr hfailed
    have hlength := hlaw.commands.last_failed (hgrows hr) hfailed
    rw [Journal.outputs_append, List.length_append] at hlength
    have hi := (List.getElem?_eq_some_iff.1 hr).1
    omega
  case success =>
    intro r hr hsuccess
    obtain ⟨⟨c, answer⟩, he, hc⟩ := List.mem_filterMap.1 hr
    obtain ⟨front, back, rfl⟩ := List.append_of_mem he
    -- the run was over when it told its success
    obtain ⟨hback, houtcome⟩ := hlaw.end_last hc (List.append_assoc front _ fs)
    obtain ⟨-, rfl⟩ := List.append_eq_nil_iff.1 hback
    have htold := hlaw.told_all (houtcome.symm.trans hsuccess)
    rwa [List.append_nil] at htold

end Pipeworks.Runner
