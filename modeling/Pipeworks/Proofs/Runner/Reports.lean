/-
The law of the reports of an execution: the first report tells that the run has started, the last one how
it ended, and those between them tell about the commands. `CommandLaw` is the law of the commands and of
the reports about them: they follow the definition in order, each command that came back is told about in
the report of its order, and nothing is run after a command that failed or after the limit struck. It
holds of every way of the commands by induction on them, and it stays where calls are added that have to
do with neither.
-/
import Pipeworks.Proofs.Definition.Checks
import Pipeworks.Proofs.Runner.Execution

namespace Pipeworks.Runner

variable {id : Int64} {n : Nat} {cmd : String} {cmds : List String} {es fs front back : Journal}

/-! ## The law of commands -/

/-- The report about a command. -/
def outputOf (id : Int64) (n : Nat) (cmd : String) (result : ExecOutput) : CommandOutput :=
  ⟨id, Int32.ofNat n, cmd, result.output, result.exitCode⟩

/-- The law of commands of which the first has the given order. -/
structure CommandLaw (id : Int64) (n : Nat) (cmds : List String) (es : Journal) : Prop where
  inOrder : (Journal.commandRuns es).map CommandRun.cmd <+: cmds
  reports : ∀ (i : Nat) (r : CommandOutput), (Journal.outputs es)[i]? = some r → ∃ cmd result,
    cmds[i]? = some cmd ∧ (Journal.commandRuns es)[i]? = some ⟨cmd, some (.ok result)⟩ ∧
    r = outputOf id (n + i) cmd result ∧ r.order.toInt = n + i
  reported : ∀ (i : Nat) (cmd : String) (result : ExecOutput),
    (Journal.commandRuns es)[i]? = some ⟨cmd, some (.ok result)⟩ →
    (Journal.outputs es)[i]? = some (outputOf id (n + i) cmd result)
  failFast : es.Pairwise fun e e' => endsCommands e → commandRun? e' = none

/-! ### Calls that have to do with no command -/

/-- An event that has to do with no command. -/
def IsQuiet (e : Program.Event Call Call.Answer) : Prop :=
  commandRun? e = none ∧ e.call.report?.bind output? = none

theorem commandRuns_quiet (h : ∀ e ∈ es, IsQuiet e) : Journal.commandRuns es = [] :=
  List.filterMap_eq_nil_iff.2 fun e he => (h e he).1

theorem outputs_quiet (h : ∀ e ∈ es, IsQuiet e) : Journal.outputs es = [] := by
  unfold Journal.outputs Journal.reports
  rw [List.filterMap_filterMap]
  exact List.filterMap_eq_nil_iff.2 fun e he => (h e he).2

theorem CommandLaw.of_quiet (h : ∀ e ∈ es, IsQuiet e) : CommandLaw id n cmds es := by
  refine ⟨?_, ?_, ?_, ?_⟩
  · rw [commandRuns_quiet h]
    exact List.nil_prefix
  · intro i r hr
    rw [outputs_quiet h] at hr
    cases hr
  · intro i cmd result hr
    rw [commandRuns_quiet h] at hr
    cases hr
  · exact List.pairwise_of_forall_mem_list fun _ _ e' he' _ => (h e' he').1

theorem isCutOff_around (es : Journal) (hf : ∀ e ∈ front, isCutOff e = false)
    (hb : ∀ e ∈ back, isCutOff e = false) :
    Journal.isCutOff (front ++ (es ++ back)) = Journal.isCutOff es := by
  have hfront : front.any isCutOff = false := List.any_eq_false.2 fun e he => by simp [hf e he]
  have hback : back.any isCutOff = false := List.any_eq_false.2 fun e he => by simp [hb e he]
  unfold Journal.isCutOff
  rw [List.any_append, List.any_append, hfront, hback, Bool.false_or, Bool.or_false]

/-- Quiet calls before and after change nothing, if the limit does not strike in those before. -/
theorem CommandLaw.extend (h : CommandLaw id n cmds es) (hf : ∀ e ∈ front, IsQuiet e)
    (hc : ∀ e ∈ front, isCutOff e = false) (hb : ∀ e ∈ back, IsQuiet e) :
    CommandLaw id n cmds (front ++ (es ++ back)) := by
  have hruns : Journal.commandRuns (front ++ (es ++ back)) = Journal.commandRuns es := by
    simp [commandRuns_quiet hf, commandRuns_quiet hb]
  have houts : Journal.outputs (front ++ (es ++ back)) = Journal.outputs es := by
    simp [outputs_quiet hf, outputs_quiet hb]
  have hends : ∀ e ∈ front, endsCommands e = false := by
    intro e he
    simp [endsCommands, (hf e he).1, hc e he]
  refine ⟨hruns ▸ h.inOrder, ?_, ?_, ?_⟩
  · rw [hruns, houts]; exact h.reports
  · rw [hruns, houts]; exact h.reported
  -- no command ends in front, and none is run at the back
  · rw [List.pairwise_append, List.pairwise_append]
    refine ⟨List.pairwise_of_forall_mem_list fun e he _ _ hend => ?_,
      ⟨h.failFast, List.pairwise_of_forall_mem_list fun _ _ e' he' _ => (hb e' he').1,
        fun _ _ e' he' _ => (hb e' he').1⟩, fun e he _ _ hend => ?_⟩
    · rw [hends e he] at hend
      cases hend
    · rw [hends e he] at hend
      cases hend

/-! ### One command after the other -/

section
variable {container : String} {result : ExecOutput} {told : CommandOutput}

theorem commandRuns_told {answer : Option (Except String Unit)} :
    Journal.commandRuns (⟨.limited (.exec container cmd), some (.ok result)⟩ ::
      ⟨.limited (.report (.output told)), answer⟩ :: es) =
      ⟨cmd, some (.ok result)⟩ :: Journal.commandRuns es := rfl

theorem isCutOff_told {answer : Except String Unit} :
    Journal.isCutOff (⟨.limited (.exec container cmd), some (.ok result)⟩ ::
      ⟨.limited (.report (.output told)), some answer⟩ :: es) = Journal.isCutOff es := rfl

end

/-- A command that did not come back. -/
theorem CommandLaw.unfinished {container : String} {result : Option (Except String ExecOutput)}
    (hr : ∀ output, result ≠ some (.ok output)) :
    CommandLaw id n (cmd :: cmds) [⟨.limited (.exec container cmd), result⟩] := by
  refine ⟨⟨cmds, rfl⟩, fun i r h => ?_, fun i cmd' output h => ?_, List.pairwise_singleton _ _⟩
  · cases h
  · cases i with
    | zero => cases h; exact absurd rfl (hr output)
    | succ i => cases h

/-- A command that came back, its report, and what there is after it. -/
theorem CommandLaw.cons {container : String} {result : ExecOutput}
    {answer : Option (Except String Unit)} (hn : n < Nat.pow 2 31)
    (hend : result.exitCode ≠ 0 ∨ answer = none → es = []) (h : CommandLaw id (n + 1) cmds es) :
    CommandLaw id n (cmd :: cmds)
      (⟨.limited (.exec container cmd), some (.ok result)⟩ ::
        ⟨.limited (.report (.output (outputOf id n cmd result))), answer⟩ :: es) := by
  refine ⟨List.cons_prefix_cons.2 ⟨rfl, h.inOrder⟩, fun i r hr => ?_, fun i cmd' output hr => ?_, ?_⟩
  · cases i with
    | zero =>
      cases hr
      exact ⟨cmd, result, rfl, rfl, rfl, Int32.toInt_ofNat_of_lt hn⟩
    | succ i =>
      obtain ⟨cmd', output, hcmd, hrun, hrep, horder⟩ := h.reports i r hr
      have hi : n + 1 + i = n + (i + 1) := by omega
      exact ⟨cmd', output, hcmd, hrun, hi ▸ hrep, by omega⟩
  · cases i with
    | zero => cases hr; rfl
    | succ i =>
      have hi : n + 1 + i = n + (i + 1) := by omega
      exact hi ▸ h.reported i cmd' output hr
  · refine List.pairwise_cons.2 ⟨fun e' he' hends => ?_,
      List.pairwise_cons.2 ⟨fun e' he' hends => ?_, h.failFast⟩⟩
    -- a command that failed is followed by its report only
    · rcases List.mem_cons.1 he' with rfl | he'
      · rfl
      · have hz : result.exitCode ≠ 0 := by
          simpa [endsCommands, isCutOff, commandRun?, CommandRun.succeeded] using hends
        rw [hend (.inl hz)] at he'
        cases he'
    -- a report ends the commands only if the limit strikes while it is made
    · have ha : answer = none := by
        cases answer with
        | none => rfl
        | some _ => cases hends
      rw [hend (.inr ha)] at he'
      cases he'

theorem commands_law {container : String} {r : Option (Except RunFault Unit)}
    (h : Commands id container n cmds es r) : CommandLaw id n cmds es := by
  have hnil : ∀ n cmds, CommandLaw id n cmds [] := fun n cmds =>
    .of_quiet fun _ he => absurd he List.not_mem_nil
  induction h with
  | finished n => exact hnil n []
  | tooMany hn => exact hnil _ _
  | cutOff hn => exact .unfinished (by simp)
  | broken message hn => exact .unfinished (by simp)
  | unreported result hn => exact .cons hn (fun _ => rfl) (hnil _ _)
  | failed result reported hn hz => exact .cons hn (fun _ => rfl) (hnil _ _)
  | succeeded result reported hn hz hc ih => exact .cons hn (by simp [hz]) ih

theorem commands_reports {container : String} {r : Option (Except RunFault Unit)}
    (h : Commands id container n cmds es r) :
    Journal.reports es = (Journal.outputs es).map .output := by
  induction h with
  | succeeded result reported hn hz hc ih => exact congrArg (_ :: ·) ih
  | _ => rfl

/-- All commands are run and succeed exactly if that is the result. -/
theorem commands_ok_iff {container : String} {r : Option (Except RunFault Unit)}
    (h : Commands id container n cmds es r) :
    r = some (.ok ()) ↔ (Journal.commandRuns es).map CommandRun.cmd = cmds ∧
      (∀ c ∈ Journal.commandRuns es, c.succeeded) ∧ Journal.isCutOff es = false := by
  induction h with
  | finished n => simp [Journal.commandRuns, Journal.isCutOff]
  | tooMany hn => simp [Journal.commandRuns]
  | cutOff hn => simp [Journal.isCutOff, isCutOff]
  | broken message hn => simp [Journal.commandRuns, commandRun?, CommandRun.succeeded]
  | unreported result hn => simp [Journal.isCutOff, isCutOff]
  | failed result reported hn hz =>
    simp [Journal.commandRuns, commandRun?, CommandRun.succeeded, hz]
  | @succeeded n cmd cmds result reported es r hn hz hc ih =>
    have hsucceeded : CommandRun.succeeded ⟨cmd, some (.ok result)⟩ = true := by
      simp [CommandRun.succeeded, hz]
    rw [commandRuns_told, isCutOff_told, ih, List.map_cons, List.cons.injEq, List.forall_mem_cons]
    simp only [hsucceeded, true_and]

/-! ## Commands and the calls around them -/

/-- An event that is no command and no report. -/
def IsSilent (e : Program.Event Call Call.Answer) : Prop :=
  commandRun? e = none ∧ e.call.report? = none

theorem IsSilent.isQuiet {e : Program.Event Call Call.Answer} (h : IsSilent e) : IsQuiet e :=
  ⟨h.1, by rw [h.2]; rfl⟩

theorem reports_silent (h : ∀ e ∈ es, IsSilent e) : Journal.reports es = [] :=
  List.filterMap_eq_nil_iff.2 fun e he => (h e he).2

/-- The commands of a run amid calls that have to do with none; or else there are none, and the run
has failed. -/
inductive Split (id : Int64) : Journal → Option (Except RunFault Unit) → Prop
  | silent {es : Journal} {r : Option (Except RunFault Unit)} :
      (∀ e ∈ es, IsSilent e) → r ≠ some (.ok ()) → Split id es r
  | commands {front es back : Journal} {r : Option (Except RunFault Unit)} {d : Definition}
      {container : String} :
      (∀ e ∈ front, IsSilent e ∧ isCutOff e = false) → (∀ e ∈ back, IsSilent e ∧ isCutOff e = false) →
      Journal.definition? (front ++ (es ++ back)) = some d →
      Commands id container 0 d.commands es r → Split id (front ++ (es ++ back)) r

theorem Split.extend {r : Option (Except RunFault Unit)} (h : Split id es r)
    (hf : ∀ e ∈ front, IsSilent e ∧ isCutOff e = false ∧ definition? e = none)
    (hb : ∀ e ∈ back, IsSilent e ∧ isCutOff e = false) : Split id (front ++ (es ++ back)) r := by
  cases h with
  | silent hs hr =>
    refine .silent (fun e he => ?_) hr
    rcases List.mem_append.1 he with he | he
    · exact (hf e he).1
    rcases List.mem_append.1 he with he | he
    · exact hs e he
    · exact (hb e he).1
  | @commands front' es back' r d container hfront hback hd hc =>
    have hassoc : front ++ (front' ++ (es ++ back') ++ back) =
        (front ++ front') ++ (es ++ (back' ++ back)) := by simp
    have hnone : List.findSome? definition? front = none :=
      List.findSome?_eq_none_iff.2 fun e he => (hf e he).2.2
    rw [hassoc]
    refine .commands (fun e he => ?_) (fun e he => ?_) ?_ hc
    · rcases List.mem_append.1 he with he | he
      · exact ⟨(hf e he).1, (hf e he).2.1⟩
      · exact hfront e he
    · rcases List.mem_append.1 he with he | he
      · exact hback e he
      · exact hb e he
    · rw [← hassoc, Journal.definition?, List.findSome?_append, hnone, List.findSome?_append]
      unfold Journal.definition? at hd
      rw [hd]
      rfl

theorem provided_silent {spec : ContainerSpec} {r : Option (Except RunFault String)}
    (h : Provided spec es r) : ∀ e ∈ es, IsSilent e := by
  cases h <;> simp [IsSilent, commandRun?, Call.report?, Call.action?, Action.report?]

theorem provided_uncut {spec : ContainerSpec} {r : Except RunFault String}
    (h : Provided spec es (some r)) : ∀ e ∈ es, isCutOff e = false := by
  cases h <;> simp [isCutOff]

theorem split_of_sectioned {work : Work} {directory unique : String} {now : Time.Instant}
    {r : Option (Except RunFault Unit)} (h : Sectioned work directory unique now es r) :
    Split work.pipeline.id es r := by
  have hfetch : ∀ answer, IsSilent ⟨.limited (fetching work directory), answer⟩ := fun _ => ⟨rfl, rfl⟩
  cases h with
  | expired hx => exact .silent (by simp) (by simp)
  | fetchCutOff hx => exact .silent (by simpa using hfetch none) (by simp)
  | fetchFailed message hx => exact .silent (by simpa using hfetch _) (by simp)
  | undefined hx hf => exact .silent (by simpa using hfetch _) (by simp)
  | unprovided hx hd hp =>
    exact .silent (List.forall_mem_cons.2 ⟨hfetch _, provided_silent hp⟩) (by simp)
  | provisionFailed hx hd hp =>
    exact .silent (List.forall_mem_cons.2 ⟨hfetch _, provided_silent hp⟩) (by simp)
  | @ran file d ps fs container r hx hd hp hc =>
    have hsilent : ∀ e ∈ ⟨.limited (fetching work directory), some (.ok file)⟩ :: ps,
        IsSilent e ∧ isCutOff e = false :=
      List.forall_mem_cons.2
        ⟨⟨hfetch _, rfl⟩, fun e he => ⟨provided_silent hp e he, provided_uncut hp e he⟩⟩
    have hdef : definition? ⟨.limited (fetching work directory), some (.ok file)⟩ = some d := by
      simp only [definition?, fetching, hd, Except.toOption]
    have hsplit := Split.commands hsilent (List.forall_mem_nil _)
      (by rw [Journal.definition?, List.cons_append, List.findSome?_cons, hdef]) hc
    simpa using hsplit

theorem entering_silent {limit : Time.Span} {directory : String} {now : Time.Instant} :
    ∀ e ∈ entering limit id directory now, IsSilent e ∧ isCutOff e = false ∧ definition? e = none := by
  simp [entering, IsSilent, commandRun?, isCutOff, definition?, Call.report?, Call.action?,
    Action.report?]

theorem split_of_inCheckout {limit : Time.Span} {work : Work} {unique : String}
    {r : Except RunFault Unit} {transcript : Bytes}
    (h : InCheckout limit work unique es r transcript) :
    ∃ ran, Split work.pipeline.id es ran ∧ (r = .ok () ↔ ran = some (.ok ())) := by
  have hgetD : ∀ ran : Option (Except RunFault Unit),
      ran.getD (.error (.timeout limit)) = .ok () ↔ ran = some (.ok ()) := by
    intro ran
    cases ran <;> simp
  cases h with
  | noCheckout =>
    refine ⟨none, .silent (fun e he => ?_) (by simp), by simp⟩
    rw [List.mem_singleton.1 he]
    exact ⟨rfl, rfl⟩
  | @noContainer directory now closed es ran t hs hn =>
    refine ⟨ran, (split_of_sectioned (sectioned_of_path hs)).extend (fun e he => ?_) (fun e he => ?_),
      hgetD ran⟩
    · exact entering_silent e he
    · rw [List.mem_singleton.1 he]
      exact ⟨⟨rfl, rfl⟩, rfl⟩
  | @tornDown directory now stopped removed closed es ran t container hs hn =>
    refine ⟨ran, (split_of_sectioned (sectioned_of_path hs)).extend (fun e he => ?_) (fun e he => ?_),
      hgetD ran⟩
    · exact entering_silent e he
    · simp only [List.mem_cons, List.not_mem_nil, or_false] at he
      rcases he with rfl | rfl | rfl <;> exact ⟨⟨rfl, rfl⟩, rfl⟩

/-! ## All commands -/

/-- The commands that the definition declares, if one was fetched. -/
def Journal.declared (es : Journal) : Option (List String) :=
  (Journal.definition? es).map Definition.commands

/-- All commands of the definition were run and succeeded, and the limit did not strike. -/
structure Journal.AllSucceeded (es : Journal) : Prop where
  all : Journal.declared es = some ((Journal.commandRuns es).map CommandRun.cmd)
  succeeded : ∀ c ∈ Journal.commandRuns es, c.succeeded
  inTime : Journal.isCutOff es = false

theorem commands_ne_nil_of_read {file : DefinitionFile} {d : Definition} (h : file.read = .ok d) :
    d.commands ≠ [] := by
  unfold DefinitionFile.read at h
  split at h
  · cases h
  · cases h
  · cases h
  split at h
  · cases h
  split at h
  · cases h
  split at h
  · cases h
  case h_2 d' hd =>
    cases h
    exact Definition.commands_ne_nil_of_ofText hd

/-- A definition that was fetched declares commands. -/
theorem declared_ne_nil (es : Journal) : Journal.declared es ≠ some [] := by
  intro h
  obtain ⟨d, hd, hnil⟩ := Option.map_eq_some_iff.1 h
  obtain ⟨e, he, hfetched⟩ := List.exists_of_findSome?_eq_some hd
  unfold Runner.definition? at hfetched
  split at hfetched
  case h_1 _ _ _ _ file =>
    cases hread : file.read with
    | error f =>
      rw [hread] at hfetched
      cases hfetched
    | ok d' =>
      rw [hread] at hfetched
      cases hfetched
      exact commands_ne_nil_of_read hread hnil
  case h_2 => cases hfetched

theorem Split.law {r : Option (Except RunFault Unit)} (h : Split id es r) :
    CommandLaw id 0 ((Journal.declared es).getD []) es ∧
    Journal.reports es = (Journal.outputs es).map .output ∧
    (r = some (.ok ()) ↔ Journal.AllSucceeded es) := by
  cases h with
  | silent hs hr =>
    have hq : ∀ e ∈ es, IsQuiet e := fun e he => (hs e he).isQuiet
    refine ⟨.of_quiet hq, ?_, fun h => absurd h hr, fun h => ?_⟩
    · rw [reports_silent hs, outputs_quiet hq]
      rfl
    · have hall := h.all
      rw [commandRuns_quiet hq] at hall
      exact absurd hall (declared_ne_nil es)
  | @commands front fs back r d container hf hb hd hc =>
    have hqf : ∀ e ∈ front, IsQuiet e := fun e he => (hf e he).1.isQuiet
    have hqb : ∀ e ∈ back, IsQuiet e := fun e he => (hb e he).1.isQuiet
    have hdeclared : Journal.declared (front ++ (fs ++ back)) = some d.commands := by
      rw [Journal.declared, hd]
      rfl
    have hruns : Journal.commandRuns (front ++ (fs ++ back)) = Journal.commandRuns fs := by
      simp [commandRuns_quiet hqf, commandRuns_quiet hqb]
    have hcut : Journal.isCutOff (front ++ (fs ++ back)) = Journal.isCutOff fs :=
      isCutOff_around fs (fun e he => (hf e he).2) fun e he => (hb e he).2
    refine ⟨?_, ?_, ?_⟩
    · rw [hdeclared]
      exact (commands_law hc).extend hqf (fun e he => (hf e he).2) hqb
    · rw [Journal.reports_append, Journal.reports_append, reports_silent fun e he => (hf e he).1,
        reports_silent fun e he => (hb e he).1, commands_reports hc]
      simp [outputs_quiet hqf, outputs_quiet hqb]
    · rw [commands_ok_iff hc]
      constructor
      · rintro ⟨hcmds, hsucceeded, hin⟩
        exact ⟨by rw [hdeclared, hruns, hcmds], by rwa [hruns], by rwa [hcut]⟩
      · rintro ⟨hall, hsucceeded, hin⟩
        rw [hdeclared, hruns] at hall
        exact ⟨(Option.some.inj hall).symm, hruns ▸ hsucceeded, hcut ▸ hin⟩

/-! ## The law of reports -/

/-- The law of the reports of an execution that ends with a summary: the first call but the clock tells
that the run has started and the last call tells the summary, with reports about commands between them. -/
structure ReportLaw (id : Int64) (es : Journal) (summary : RunSummary) : Prop where
  brackets : ∃ startedAt finishedAt started finished body,
    es = ⟨.plain .clock, startedAt⟩ :: ⟨.plain (.report (.started ⟨id, startedAt⟩)), started⟩ ::
      (body ++ [⟨.plain (.report (.finished ⟨id, finishedAt, summary.outcome, summary.error⟩)),
        finished⟩]) ∧
    Journal.reports body = (Journal.outputs es).map .output
  commands : CommandLaw id 0 ((Journal.declared es).getD []) es
  success : Journal.AllSucceeded es → summary = ⟨.success, none⟩
  failure : ¬ Journal.AllSucceeded es → ∃ f, summary = ⟨.failure, some f⟩

/-- Neither command nor definition comes of such an event. -/
def IsAside (e : Program.Event Call Call.Answer) : Prop :=
  IsQuiet e ∧ isCutOff e = false ∧ definition? e = none

/-- What is aside leaves the law of commands and their success as they are. -/
theorem aside_frame (es : Journal) (hf : ∀ e ∈ front, IsAside e) (hb : ∀ e ∈ back, IsAside e) :
    Journal.outputs (front ++ (es ++ back)) = Journal.outputs es ∧
    Journal.declared (front ++ (es ++ back)) = Journal.declared es ∧
    (CommandLaw id n cmds es → CommandLaw id n cmds (front ++ (es ++ back))) ∧
    (Journal.AllSucceeded (front ++ (es ++ back)) ↔ Journal.AllSucceeded es) := by
  have hqf : ∀ e ∈ front, IsQuiet e := fun e he => (hf e he).1
  have hqb : ∀ e ∈ back, IsQuiet e := fun e he => (hb e he).1
  have hdeclared : Journal.declared (front ++ (es ++ back)) = Journal.declared es := by
    have hfront : front.findSome? definition? = none :=
      List.findSome?_eq_none_iff.2 fun e he => (hf e he).2.2
    have hback : back.findSome? definition? = none :=
      List.findSome?_eq_none_iff.2 fun e he => (hb e he).2.2
    unfold Journal.declared Journal.definition?
    rw [List.findSome?_append, List.findSome?_append, hfront, hback, Option.none_or, Option.or_none]
  have hruns : Journal.commandRuns (front ++ (es ++ back)) = Journal.commandRuns es := by
    simp [commandRuns_quiet hqf, commandRuns_quiet hqb]
  have hcut := isCutOff_around es (fun e he => (hf e he).2.1) fun e he => (hb e he).2.1
  refine ⟨by simp [outputs_quiet hqf, outputs_quiet hqb], hdeclared,
    fun h => h.extend hqf (fun e he => (hf e he).2.1) hqb, fun h => ?_, fun h => ?_⟩
  · exact ⟨by rw [← hdeclared, ← hruns]; exact h.all, hruns ▸ h.succeeded, hcut ▸ h.inTime⟩
  · exact ⟨by rw [hdeclared, hruns]; exact h.all, hruns ▸ h.succeeded, hcut ▸ h.inTime⟩

theorem executed_law {limit : Time.Span} {work : Work} {unique : String} {summary : RunSummary}
    (h : Executed limit work unique es summary) : ReportLaw work.pipeline.id es summary := by
  cases h with
  | @mk startedAt finishedAt started finished uploaded es r transcript hc =>
    obtain ⟨ran, hsplit, hran⟩ := split_of_inCheckout hc
    obtain ⟨hlaw, hreports, hsuccess⟩ := hsplit.law
    have hopening : ∀ e ∈ opening work.pipeline.id startedAt started, IsAside e := by
      simp [opening, IsAside, IsQuiet, commandRun?, isCutOff, definition?, Call.report?, Call.action?,
        Action.report?, output?]
    have hclosing : ∀ e ∈ closing work.pipeline.id transcript uploaded finishedAt (RunSummary.ofResult r)
        finished, IsAside e := by
      simp [closing, IsAside, IsQuiet, commandRun?, isCutOff, definition?, Call.report?, Call.action?,
        Action.report?, output?]
    obtain ⟨houtputs, hdeclared, hextend, hall⟩ := aside_frame es hopening hclosing
    refine ⟨⟨startedAt, finishedAt, started, finished,
      es ++ [⟨.plain (.upload work.pipeline.id transcript (Transcript.byteCount transcript)), uploaded⟩,
        ⟨.plain .clock, finishedAt⟩], ?_, ?_⟩, ?_, fun hs => ?_, fun hs => ?_⟩
    · rw [List.append_assoc]
      rfl
    · rw [Journal.reports_append, hreports, houtputs]
      exact List.append_nil _
    · exact hdeclared ▸ hextend hlaw
    · rw [hran.2 (hsuccess.2 (hall.1 hs))]
      rfl
    · cases r with
      | ok => exact absurd (hall.2 (hsuccess.1 (hran.1 rfl))) hs
      | error f => exact ⟨f.summary, rfl⟩

/-- Whatever a run meets, its reports obey the law. -/
theorem execute_reports {σ : Type} (limit : Time.Span) (work : Work) (unique : String)
    (world : Program.Handler Call Call.Answer σ) (s : σ) :
    ReportLaw work.pipeline.id ((execute limit work unique).trace world s)
      ((execute limit work unique).run world s).1 :=
  executed_law (executed_trace limit work unique world s)

end Pipeworks.Runner
