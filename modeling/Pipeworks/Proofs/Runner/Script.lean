/-
Runs that nothing goes wrong in but their commands: what is fetched is a definition, there is a container, every
command comes back, and the limit does not strike. Such a run goes through its commands up to the first that
fails, and what it sends is known beforehand (`smooth_execute`).
-/
import Pipeworks.Proofs.Runner.Reports
import Pipeworks.Proofs.Runner.Timeline

namespace Pipeworks.Runner

/-! ## What leaves a run -/

/-- Something that a run sends to its recipient. -/
inductive Sending where
  | report (r : Report)
  | transcript (id : Int64) (content : Bytes) (size : UInt64)

def Action.sending? : Action → Option Sending
  | .report r => some (.report r)
  | .upload id content size => some (.transcript id content size)
  | _ => none

/-- What was sent, whether it arrived or not. -/
def Journal.sendings (es : Journal) : List Sending := es.filterMap fun e => e.call.action?.bind Action.sending?

/-- The recipient after it was sent something. -/
def Recipient.take {σ : Type} (recipient : Recipient σ) (s : σ) : Sending → σ
  | .report r => (recipient.report r s).2
  | .transcript id content size => (recipient.upload id content size s).2

@[simp]
theorem Journal.sendings_append (es fs : Journal) :
    Journal.sendings (es ++ fs) = Journal.sendings es ++ Journal.sendings fs := List.filterMap_append

/-! ## Commands as a script lets them go -/

/-- A command, how long it takes and how it ends. -/
structure Performance where
  cmd : String
  delay : Nat
  result : ExecOutput

/-- The performances up to the first that fails. -/
def throughFailure : List Performance → List Performance
  | [] => []
  | x :: xs => if x.result.exitCode = 0 then x :: throughFailure xs else [x]

/-- How long the performances take, one after the other. -/
def lasting : List Performance → Nat
  | [] => 0
  | x :: xs => x.delay + lasting xs

/-- What the performances write. -/
def written (xs : List Performance) : Bytes := xs.flatMap fun x => Text.bytes x.result.output

/-- The traces after something more has been written. -/
def Traces.wrote (t : Traces) (bytes : Bytes) : Traces := { t with transcript := t.transcript ++ bytes }

theorem Traces.wrote_nil (t : Traces) : t.wrote [] = t := by
  unfold wrote
  rw [List.append_nil]

theorem Traces.wrote_append (t : Traces) (bytes more : Bytes) :
    (t.wrote bytes).wrote more = t.wrote (bytes ++ more) := by
  unfold wrote
  rw [List.append_assoc]

/-- The reports about performances, of which the first has the given order. -/
def told (id : Int64) (n : Nat) (xs : List Performance) : List CommandOutput :=
  (xs.zipIdx n).map fun (x, i) => outputOf id i x.cmd x.result

namespace Script

variable (script : Script)

/-- How the command with the given number goes. -/
def performance (n : Nat) (cmd : String) : Performance :=
  ⟨cmd, (script.exec n cmd).1.delay, (script.exec n cmd).2⟩

/-- How commands go, of which the first has the given number, if all are run. -/
def performances (n : Nat) (cmds : List String) : List Performance :=
  (cmds.zipIdx n).map fun (cmd, i) => script.performance i cmd

/-- The commands that are run: there is an order for each, and none before has failed. -/
def executed (n : Nat) (cmds : List String) : List Performance :=
  throughFailure (script.performances n (cmds.take (Nat.pow 2 31 - n)))

/-- Every command is executed, and ends with exit code 0. -/
def Succeeds (n : Nat) (cmds : List String) : Prop :=
  (script.executed n cmds).length = cmds.length ∧ ∀ x ∈ script.executed n cmds, x.result.exitCode = 0

instance (n : Nat) (cmds : List String) : Decidable (script.Succeeds n cmds) := instDecidableAnd

/-- What commands come to, of which the first has the given number. -/
def result : Nat → List String → Except RunFault Unit
  | _, [] => .ok ()
  | n, cmd :: cmds =>
    if n < Nat.pow 2 31 then
      if (script.exec n cmd).2.exitCode = 0 then result (n + 1) cmds
      else .error (.commandFailed (Int32.ofNat n) cmd (script.exec n cmd).2.exitCode)
    else .error (.internal "too many commands")

variable {script} {n : Nat} {cmd : String} {cmds : List String}

theorem performances_cons :
    script.performances n (cmd :: cmds) = script.performance n cmd :: script.performances (n + 1) cmds := rfl

theorem executed_cons (hn : n < Nat.pow 2 31) :
    script.executed n (cmd :: cmds) =
      if (script.exec n cmd).2.exitCode = 0 then script.performance n cmd :: script.executed (n + 1) cmds
      else [script.performance n cmd] := by
  obtain ⟨left, hleft⟩ := Nat.exists_eq_add_of_lt hn
  have hleft' : Nat.pow 2 31 - n = left + 1 := by omega
  have hrest : Nat.pow 2 31 - (n + 1) = left := by omega
  unfold executed
  rw [hleft', hrest, List.take_succ_cons, performances_cons]
  rfl

theorem executed_full (hn : Nat.pow 2 31 ≤ n) : script.executed n cmds = [] := by
  unfold executed
  rw [Nat.sub_eq_zero_of_le hn, List.take_zero]
  rfl

theorem executed_nil : script.executed n [] = [] := by
  unfold executed
  rw [List.take_nil]
  rfl

theorem succeeds_nil : script.Succeeds n [] := by
  unfold Succeeds
  rw [executed_nil]
  exact ⟨rfl, List.forall_mem_nil _⟩

theorem succeeds_cons (hn : n < Nat.pow 2 31) : script.Succeeds n (cmd :: cmds) ↔
    (script.exec n cmd).2.exitCode = 0 ∧ script.Succeeds (n + 1) cmds := by
  unfold Succeeds
  rw [executed_cons hn]
  by_cases hz : (script.exec n cmd).2.exitCode = 0
  · have hfirst : (script.performance n cmd).result.exitCode = 0 := hz
    rw [if_pos hz, List.length_cons, List.length_cons, List.forall_mem_cons, Nat.add_right_cancel_iff,
      and_iff_right hz, and_iff_right hfirst]
  · rw [if_neg hz]
    exact iff_of_false (fun hall => hz (hall.2 _ (List.mem_singleton_self _))) fun hall => hz hall.1

theorem not_succeeds_full (hn : Nat.pow 2 31 ≤ n) : ¬ script.Succeeds n (cmd :: cmds) := by
  unfold Succeeds
  rw [executed_full hn]
  exact fun hall => by cases hall.1

theorem result_ok_iff : script.result n cmds = .ok () ↔ script.Succeeds n cmds := by
  induction cmds generalizing n with
  | nil => exact iff_of_true rfl succeeds_nil
  | cons cmd cmds ih =>
    unfold result
    split
    case isTrue hlt =>
      rw [succeeds_cons hlt]
      split
      case isTrue hz => exact ih.trans (and_iff_right hz).symm
      case isFalse hz => exact iff_of_false nofun fun hall => hz hall.1
    case isFalse hfull => exact iff_of_false nofun (not_succeeds_full (Nat.not_lt.1 hfull))

end Script

/-! ## Calls that succeed -/

/-- The call returns, and with a success. -/
structure Cue.Succeeds (c : Cue) : Prop where
  returns : c.hangs = false
  unfailing : c.fault = none

theorem Cue.Succeeds.play {c : Cue} (h : c.Succeeds) {α : Type} (value : α) :
    c.play value = some (c.delay, .ok value) := by
  simp only [Cue.play, h.returns, h.unfailing, Bool.false_eq_true, if_false]

theorem Cue.play_returns {c : Cue} (h : c.hangs = false) {α : Type} (value : α) :
    ∃ answer, c.play value = some (c.delay, answer) := by
  unfold Cue.play
  rw [h]
  cases c.fault with
  | none => exact ⟨_, rfl⟩
  | some message => exact ⟨_, rfl⟩

/-- Nothing goes wrong in a run of a commit with a definition but its commands, and the limit does not strike. -/
structure Script.Smooth (script : Script) (commit : String) (d : Definition) (limit : Time.Span) : Prop where
  fetched : (script.fetch commit).1.Succeeds
  defined : (script.fetch commit).2.read = .ok d
  pulled : script.pull.Succeeds
  created : script.create.Succeeds
  started : script.start.Succeeds
  /-- Every command comes back, whatever its exit code. -/
  comesBack : ∀ n cmd, d.commands[n]? = some cmd → (script.exec n cmd).1.Succeeds
  stopReturns : script.stop.hangs = false
  removeReturns : script.remove.hangs = false
  reported : ∀ r, script.loses r = false
  workspace : script.hasWorkspace
  store : script.hasStore
  fetchedInTime : (script.fetch commit).1.delay < millis limit
  inTime : (script.fetch commit).1.delay + script.pull.delay + script.create.delay + script.start.delay +
    lasting (script.executed 0 d.commands) ≤ millis limit

variable {σ : Type} {script : Script} {recipient : Recipient σ} {id : Int64} {n : Nat} {cmds : List String}
  {k k' : Clock} {s s' : Scene σ} {t : Traces} {container : String}

/-! ## The scene -/

/-- What an action sends is sent. -/
theorem collaborators_world (recipient : Recipient σ) (hreported : ∀ r, script.loses r = false)
    (hstore : script.hasStore) (a : Action) (commands now : Nat) (s : Scene σ) :
    (script.collaborators recipient a commands now s).2.world =
      a.sending?.toList.foldl recipient.take s.world := by
  cases a with
  | report r => simp [Script.collaborators, hreported, Action.sending?, Recipient.take, Scene.note]
  | upload id content size =>
    simp [Script.collaborators, hstore, Action.sending?, Recipient.take, Scene.note]
  | openCheckout id =>
    cases hworkspace : script.hasWorkspace <;>
      simp [Script.collaborators, hworkspace, Action.sending?, Scene.openCheckout, Scene.note]
  | fetch cloneUrl commit token directory =>
    cases hfault : (script.fetch commit).1.fault <;>
      simp [Script.collaborators, hfault, Action.sending?, Scene.fill, Scene.note]
  | _ => simp [Script.collaborators, Action.sending?, Scene.closeCheckout, Scene.note]

/-- The recipient is sent what a run sends. -/
theorem Elapses.world {α : Type} {p : Run α} {es : Journal} {a : α}
    (h : Elapses (script.collaborators recipient) k s p es a k' s') (hreported : ∀ r, script.loses r = false)
    (hstore : script.hasStore) : s'.world = (Journal.sendings es).foldl recipient.take s.world := by
  have hgoes : ∀ {a : Action} {commands now : Nat} {s s₁ : Scene σ} {lasting : Lasting a.Answer} {es : Journal}
      {e : Program.Event Call Call.Answer}, e.call.action? = some a →
      script.collaborators recipient a commands now s = (lasting, s₁) →
      (Journal.sendings es).foldl recipient.take s₁.world =
        (Journal.sendings (e :: es)).foldl recipient.take s.world := by
    intro a commands now s s₁ lasting es e haction hanswer
    have hworld := collaborators_world recipient hreported hstore a commands now s
    have hsendings : Journal.sendings (e :: es) = a.sending?.toList ++ Journal.sendings es := by
      unfold Journal.sendings
      rw [List.filterMap_cons, haction, Option.bind_some]
      cases a.sending? <;> rfl
    rw [hanswer] at hworld
    rw [hsendings, List.foldl_append, ← hworld]
  induction h with
  | done k s a => rfl
  | setLimit _ ih => exact ih
  | plain hanswer _ ih => exact ih.trans (hgoes rfl hanswer)
  | limited hanswer _ _ ih => exact ih.trans (hgoes rfl hanswer)

/-! ## Commands -/

/-- The answer to a command that comes back. -/
theorem collaborators_exec (recipient : Recipient σ) (container : String) (s : Scene σ) {cmd : String}
    (hcomes : (script.exec k.commands cmd).1.Succeeds) :
    script.collaborators recipient (.exec container cmd) k.commands k.now s =
      (some ((script.performance k.commands cmd).delay, .ok (script.performance k.commands cmd).result),
        s.note k.now (.exec container cmd)) :=
  Prod.ext (hcomes.play (script.exec k.commands cmd).2) rfl

/-- The answer to a report that is not lost. -/
theorem collaborators_report (recipient : Recipient σ) (k : Clock) (s : Scene σ)
    (hreported : ∀ r, script.loses r = false) (r : Report) :
    ∃ answer s', script.collaborators recipient (.report r) k.commands k.now s = (some (0, answer), s') := by
  refine ⟨(recipient.report r s.world).1,
    { s.note k.now (.report r) with world := (recipient.report r s.world).2 }, ?_⟩
  simp [Script.collaborators, hreported, Scene.note]

theorem told_cons (x : Performance) (xs : List Performance) :
    told id n (x :: xs) = outputOf id n x.cmd x.result :: told id (n + 1) xs := rfl

theorem written_cons (x : Performance) (xs : List Performance) :
    written (x :: xs) = Text.bytes x.result.output ++ written xs := rfl

/-- What is not fetched is not cut off at the very end of the limit. -/
theorem isCut_of_le {deadline time : Nat} {a : Action} (answer : a.Answer)
    (hfetch : ∀ url commit token directory, a ≠ .fetch url commit token directory) (h : time ≤ deadline) :
    isCut deadline time a answer = false := by
  cases a with
  | fetch url commit token directory => exact absurd rfl (hfetch url commit token directory)
  | _ => exact decide_eq_false (Nat.not_lt.2 h)

/-- A command that comes back in time is reported, and what follows depends on its exit code. -/
theorem command_elapses (recipient : Recipient σ) (id : Int64) (container : String) (cmds : List String)
    (s : Scene σ) (t : Traces) (hreported : ∀ r, script.loses r = false) {cmd : String}
    (hcomes : (script.exec n cmd).1.Succeeds) (hn : n < Nat.pow 2 31) (hk : k.commands = n)
    (htime : k.now + (script.performance n cmd).delay ≤ k.deadline) :
    let x := script.performance n cmd
    ∃ entries s₁, Journal.sendings entries = [.report <| .output <| outputOf id n cmd x.result] ∧
      ∀ {es r t' k' s'},
        Elapses (script.collaborators recipient) ⟨k.now + x.delay, k.deadline, n + 1⟩ s₁
          (withinLimit (t.wrote (Text.bytes x.result.output))
            (if (script.exec n cmd).2.exitCode = 0 then runCommands id container (n + 1) cmds
              else .done (.error (.commandFailed (Int32.ofNat n) cmd (script.exec n cmd).2.exitCode)))) es (r, t')
          k' s' →
        Elapses (script.collaborators recipient) k s (withinLimit t (runCommands id container n (cmd :: cmds)))
          (entries ++ es) (r, t') k' s' := by
  subst hk
  let x := script.performance k.commands cmd
  have hexec := collaborators_exec recipient container s hcomes
  obtain ⟨reported, s₁, hreport⟩ := collaborators_report recipient
    (k.after (.exec container cmd) (k.now + x.delay)) (s.note k.now (.exec container cmd)) hreported
    (.output (outputOf id k.commands cmd x.result))
  refine ⟨[⟨.limited (.exec container cmd), some (.ok x.result)⟩,
    ⟨.limited (.report (.output (outputOf id k.commands cmd x.result))), some reported⟩], s₁, rfl, fun hrest => ?_⟩
  rw [runCommands, if_pos hn]
  refine Elapses.within hexec (isCut_of_le _ (fun _ _ _ _ heq => by cases heq) htime) ?_
  exact Elapses.within hreport (isCut_of_le reported (fun _ _ _ _ heq => by cases heq) htime) hrest

/-- Commands run up to the first that fails, and each is reported. -/
theorem commands_elapse (recipient : Recipient σ) (id : Int64) (container : String)
    (hreported : ∀ r, script.loses r = false)
    (hcomes : ∀ i cmd, cmds[i]? = some cmd → (script.exec (n + i) cmd).1.Succeeds) (hk : k.commands = n)
    (htime : k.now + lasting (script.executed n cmds) ≤ k.deadline) :
    ∃ es k' s', Elapses (script.collaborators recipient) k s (withinLimit t (runCommands id container n cmds)) es
        (some (script.result n cmds), t.wrote (written (script.executed n cmds))) k' s' ∧
      Journal.sendings es = (told id n (script.executed n cmds)).map (.report <| .output ·) := by
  induction cmds generalizing n k s t with
  | nil =>
    rw [Script.executed_nil]
    refine ⟨[], k, s, ?_, rfl⟩
    rw [written, List.flatMap_nil, t.wrote_nil]
    exact .done k s _
  | cons cmd cmds ih =>
    unfold Script.result
    by_cases hlt : n < Nat.pow 2 31
    case neg =>
      -- no order is left for the command
      rw [Script.executed_full (Nat.not_lt.1 hlt), if_neg hlt]
      refine ⟨[], k, s, ?_, rfl⟩
      rw [runCommands, if_neg hlt, written, List.flatMap_nil, t.wrote_nil]
      exact .done k s _
    case pos =>
      have hfirst : (script.exec n cmd).1.Succeeds := hcomes 0 cmd rfl
      rw [Script.executed_cons hlt] at htime ⊢
      rw [if_pos hlt]
      by_cases hz : (script.exec n cmd).2.exitCode = 0
      case neg =>
        rw [if_neg hz] at htime ⊢
        obtain ⟨entries, s₁, hsent, hgoes⟩ :=
          command_elapses recipient id container cmds s t hreported hfirst hlt hk htime
        rw [if_neg hz] at hgoes
        have hwritten : written [script.performance n cmd] = Text.bytes (script.performance n cmd).result.output :=
          List.append_nil _
        rw [if_neg hz, hwritten]
        refine ⟨entries ++ [], _, _, hgoes (.done _ _ _), ?_⟩
        rw [List.append_nil, hsent]
        rfl
      case pos =>
        rw [if_pos hz] at htime ⊢
        rw [lasting, ← Nat.add_assoc] at htime
        obtain ⟨entries, s₁, hsent, hgoes⟩ :=
          command_elapses recipient id container cmds s t hreported hfirst hlt hk (Nat.le_of_add_right_le htime)
        rw [if_pos hz] at hgoes
        have hcomes' : ∀ i cmd', cmds[i]? = some cmd' → (script.exec (n + 1 + i) cmd').1.Succeeds := by
          intro i cmd' hcmd
          rw [Nat.add_right_comm]
          exact hcomes (i + 1) cmd' hcmd
        obtain ⟨es, k', s', hrest, hsents⟩ := ih
          (k := ⟨k.now + (script.performance n cmd).delay, k.deadline, n + 1⟩) (s := s₁)
          (t := t.wrote (Text.bytes (script.performance n cmd).result.output)) hcomes' rfl htime
        rw [Traces.wrote_append, ← written_cons] at hrest
        rw [if_pos hz]
        refine ⟨entries ++ es, k', s', hgoes hrest, ?_⟩
        rw [Journal.sendings_append, hsent, hsents, told_cons]
        rfl

/-! ## The whole run -/

/-- What is sent in a run of commands, of which the first has the given order. -/
def commandSendings (id : Int64) (xs : List Performance) : List Sending :=
  (told id 0 xs).map (.report <| .output ·)

/-- A container is provided in time, and the section goes on with it. -/
theorem provide_elapses {α : Type} (recipient : Recipient σ) (spec : ContainerSpec) (s : Scene σ)
    (hpulled : script.pull.Succeeds) (hcreated : script.create.Succeeds) (hstarted : script.start.Succeeds)
    (htime : k.now + script.pull.delay + script.create.delay + script.start.delay ≤ k.deadline) :
    let container := script.name.getD spec.name
    ∃ s₁, ∀ {f : Except RunFault String → Section α} {es : Journal} {r t' k' s'},
      Elapses (script.collaborators recipient)
        ⟨k.now + script.pull.delay + script.create.delay + script.start.delay, k.deadline, k.commands⟩ s₁
        (withinLimit { t with container := some container } (f (.ok container))) es (r, t') k' s' →
      Elapses (script.collaborators recipient) k s (withinLimit t ((provide spec).bind f))
        (⟨.limited (.pull spec.image), some (.ok ())⟩ :: ⟨.limited (.create spec), some (.ok container)⟩ ::
          ⟨.limited (.start container), some (.ok ())⟩ :: es) (r, t') k' s' := by
  let container := script.name.getD spec.name
  let k₁ : Clock := ⟨k.now + script.pull.delay, k.deadline, k.commands⟩
  let k₂ : Clock := ⟨k₁.now + script.create.delay, k.deadline, k.commands⟩
  have hpull : ∀ s, script.collaborators recipient (.pull spec.image) k.commands k.now s =
      (some (script.pull.delay, .ok ()), s.note k.now (.pull spec.image)) :=
    fun s => Prod.ext (hpulled.play ()) rfl
  have hcreate : ∀ s, script.collaborators recipient (.create spec) k₁.commands k₁.now s =
      (some (script.create.delay, .ok container), s.note k₁.now (.create spec)) :=
    fun s => Prod.ext (hcreated.play container) rfl
  have hstart : ∀ s, script.collaborators recipient (.start container) k₂.commands k₂.now s =
      (some (script.start.delay, .ok ()), s.note k₂.now (.start container)) :=
    fun s => Prod.ext (hstarted.play ()) rfl
  have hcreateTime : k₁.now + script.create.delay ≤ k.deadline := by
    show k.now + _ + _ ≤ k.deadline
    omega
  have hpullTime : k.now + script.pull.delay ≤ k.deadline := by omega
  refine ⟨((s.note k.now (.pull spec.image)).note k₁.now (.create spec)).note k₂.now (.start container),
    fun hrest => ?_⟩
  refine Elapses.within (hpull _) (isCut_of_le _ (fun _ _ _ _ heq => by cases heq) hpullTime) ?_
  refine Elapses.within (k := k₁) (hcreate _) (isCut_of_le _ (fun _ _ _ _ heq => by cases heq) hcreateTime) ?_
  exact Elapses.within (k := k₂) (hstart _) (isCut_of_le _ (fun _ _ _ _ heq => by cases heq) htime) hrest

/-- The section of a run that nothing goes wrong in but its commands. -/
theorem section_elapses {work : Work} {d : Definition} {limit : Time.Span} (recipient : Recipient σ)
    (directory unique : String) (s : Scene σ) {now : Time.Instant}
    (hsmooth : script.Smooth work.pipeline.commit d limit) (hvalid : work.token.isExpiredAt now = false)
    (hk : k.commands = 0) (hlimit : k.deadline = k.now + millis limit) :
    ∃ es container k' s',
      Elapses (script.collaborators recipient) k s (withinLimit {} (runSection work directory unique now)) es
        (some (script.result 0 d.commands), ⟨some container, written (script.executed 0 d.commands)⟩) k' s' ∧
      Journal.sendings es = commandSendings work.pipeline.id (script.executed 0 d.commands) := by
  have htime := hsmooth.inTime
  have hfetchTime := hsmooth.fetchedInTime
  let spec := containerOf work directory unique d
  let file := (script.fetch work.pipeline.commit).2
  let k₁ : Clock := ⟨k.now + (script.fetch work.pipeline.commit).1.delay, k.deadline, k.commands⟩
  let k₂ : Clock :=
    ⟨k₁.now + script.pull.delay + script.create.delay + script.start.delay, k.deadline, k.commands⟩
  have hprovideTime : k₂.now ≤ k.deadline := by
    show k.now + _ + _ + _ + _ ≤ k.deadline
    omega
  have hcommandsTime : k₂.now + lasting (script.executed 0 d.commands) ≤ k.deadline := by
    show k.now + _ + _ + _ + _ + _ ≤ k.deadline
    omega
  have hcomes : ∀ i cmd, d.commands[i]? = some cmd → (script.exec (0 + i) cmd).1.Succeeds := by
    intro i cmd hcmd
    rw [Nat.zero_add]
    exact hsmooth.comesBack i cmd hcmd
  obtain ⟨s₁, hfetch⟩ : ∃ s₁, script.collaborators recipient (fetching work directory) k.commands k.now s =
      (some ((script.fetch work.pipeline.commit).1.delay, .ok file), s₁) :=
    ⟨_, Prod.ext (hsmooth.fetched.play file) rfl⟩
  obtain ⟨s₂, hprovide⟩ := provide_elapses (α := Except RunFault Unit) (k := k₁) (t := {}) recipient spec s₁
    hsmooth.pulled hsmooth.created hsmooth.started hprovideTime
  obtain ⟨es, k', s', hrun, hsent⟩ := commands_elapse recipient work.pipeline.id
    (script.name.getD spec.name) (k := k₂) (s := s₂) (t := ⟨some (script.name.getD spec.name), []⟩)
    hsmooth.reported hcomes hk hcommandsTime
  have hfetchCut : isCut k.deadline k₁.now (fetching work directory) (.ok file) = false := by
    refine decide_eq_false (Nat.not_le.2 ?_)
    show k.now + _ < k.deadline
    omega
  let container := script.name.getD spec.name
  refine ⟨⟨.limited (fetching work directory), some (.ok file)⟩ :: ⟨.limited (.pull spec.image), some (.ok ())⟩ ::
    ⟨.limited (.create spec), some (.ok container)⟩ :: ⟨.limited (.start container), some (.ok ())⟩ :: es,
    container, k', s', ?_, hsent⟩
  unfold runSection
  rw [hvalid, if_neg Bool.false_ne_true]
  refine Elapses.within hfetch hfetchCut ?_
  dsimp only
  rw [hsmooth.defined]
  exact hprovide hrun

/-- A container is stopped and removed, whether that succeeds or not. -/
theorem teardown_elapses (recipient : Recipient σ) (container : String) (k : Clock) (s : Scene σ)
    (hstop : script.stop.hangs = false) (hremove : script.remove.hangs = false) :
    ∃ es k' s', Elapses (script.collaborators recipient) k s (teardown container) es () k' s' ∧
      Journal.sendings es = [] := by
  obtain ⟨stopped, hstopped⟩ := Cue.play_returns hstop ()
  obtain ⟨removed, hremoved⟩ := Cue.play_returns hremove ()
  have hstopped' : ∀ s, script.collaborators recipient (.stop container) k.commands k.now s =
      (some (script.stop.delay, stopped), s.note k.now (.stop container)) := fun s => Prod.ext hstopped rfl
  have hremoved' : ∀ now s, script.collaborators recipient (.remove container) k.commands now s =
      (some (script.remove.delay, removed), s.note now (.remove container)) := fun now s => Prod.ext hremoved rfl
  exact ⟨_, _, _, .act (hstopped' _) (.act (hremoved' _ _) (.done _ _ _)), rfl⟩

/-- The part of a run for which there is a checkout. -/
theorem checkout_elapses {work : Work} {d : Definition} {limit : Time.Span} (recipient : Recipient σ)
    (unique : String) (k : Clock) (s : Scene σ) (hsmooth : script.Smooth work.pipeline.commit d limit)
    (hvalid : work.token.isExpiredAt script.time = false) (hk : k.commands = 0) :
    ∃ es k' s',
      Elapses (script.collaborators recipient) k s (runInCheckout limit work unique) es
        (script.result 0 d.commands, written (script.executed 0 d.commands)) k' s' ∧
      Journal.sendings es = commandSendings work.pipeline.id (script.executed 0 d.commands) := by
  let opened := (s.note k.now (.openCheckout work.pipeline.id)).openCheckout
  have hopen : script.collaborators recipient (.openCheckout work.pipeline.id) k.commands k.now s =
      (some (0, .ok opened.1), opened.2) := by
    simp only [Script.collaborators, hsmooth.workspace, if_true]
    rfl
  have hclock : script.collaborators recipient .clock k.commands k.now opened.2 =
    (some (0, script.time), opened.2.note k.now .clock) := rfl
  obtain ⟨es, container, k₁, s₂, hsection, hsent⟩ :=
    section_elapses (k := ⟨k.now, k.now + millis limit, k.commands⟩)
      recipient opened.1 unique (opened.2.note k.now .clock) hsmooth hvalid hk rfl
  obtain ⟨fs, k₂, s₃, hteardown, hquiet⟩ :=
    teardown_elapses recipient container k₁ s₂ hsmooth.stopReturns hsmooth.removeReturns
  have hclose : script.collaborators recipient (.closeCheckout opened.1) k₂.commands k₂.now s₃ =
    (some (0, .ok ()), (s₃.note k₂.now (.closeCheckout opened.1)).closeCheckout opened.1) := rfl
  -- what is left is to tear down and to close the checkout, and neither sends anything
  have hend := hteardown.bind (f := fun _ => act (.closeCheckout opened.1) >>= fun _ =>
    pure (script.result 0 d.commands, written (script.executed 0 d.commands))) (.act hclose (.done _ _ _))
  have hsendings : Journal.sendings (es ++ (fs ++ [⟨.plain (.closeCheckout opened.1), .ok ()⟩])) =
      Journal.sendings es := by
    rw [Journal.sendings_append, Journal.sendings_append, hquiet, List.nil_append]
    exact List.append_nil _
  refine ⟨⟨.plain (.openCheckout work.pipeline.id), (.ok opened.1 : Except String String)⟩ :: ⟨.plain .clock, script.time⟩ ::
    ⟨.setLimit limit, ()⟩ :: (es ++ (fs ++ [⟨.plain (.closeCheckout opened.1), .ok ()⟩])),
    k₂.after (.closeCheckout opened.1) (k₂.now + 0),
    (s₃.note k₂.now (.closeCheckout opened.1)).closeCheckout opened.1, ?_, ?_⟩
  · refine .act hopen (.act hclock (.setLimit (hsection.bind ?_)))
    exact hend
  · exact hsendings.trans hsent

/-- How a run ends. -/
def Script.summary (script : Script) (cmds : List String) : RunSummary := .ofResult (script.result 0 cmds)

/-- The pipeline has succeeded if its commands have, or else there was an error. -/
theorem Script.summary_status (script : Script) (cmds : List String) :
    (script.summary cmds).outcome.status = if script.Succeeds 0 cmds then .success else .error := by
  unfold summary
  cases hresult : script.result 0 cmds with
  | ok =>
    rw [if_pos (result_ok_iff.1 hresult)]
    rfl
  | error f =>
    rw [if_neg fun hall => by rw [result_ok_iff.2 hall] at hresult; cases hresult]
    rfl

/-- What a run sends: that it starts, what became of each command that is executed, what these have written, and
how it ended. -/
def Script.sendings (script : Script) (id : Int64) (cmds : List String) : List Sending :=
  let transcript := written (script.executed 0 cmds)
  let summary := script.summary cmds
  .report (.started ⟨id, script.time⟩) :: (commandSendings id (script.executed 0 cmds) ++
    [.transcript id transcript (Transcript.byteCount transcript),
      .report (.finished ⟨id, script.time, summary.outcome, summary.error⟩)])

/-- A run that nothing goes wrong in but its commands comes to its end, and it is known what it sends. -/
theorem smooth_execute {d : Definition} {limit : Time.Span} (recipient : Recipient σ) (work : Work)
    (unique : String) (s : Scene σ) (hsmooth : script.Smooth work.pipeline.commit d limit)
    (hvalid : work.token.isExpiredAt script.time = false) :
    ∃ es k' s',
      Elapses (script.collaborators recipient) ⟨0, 0, 0⟩ s (execute limit work unique) es
        (script.summary d.commands) k' s' ∧
      Journal.sendings es = script.sendings work.pipeline.id d.commands := by
  let id := work.pipeline.id
  let transcript := written (script.executed 0 d.commands)
  let summary := script.summary d.commands
  have hclock : ∀ (k : Clock) (s : Scene σ), script.collaborators recipient .clock k.commands k.now s =
    (some (0, script.time), s.note k.now .clock) := fun _ _ => rfl
  obtain ⟨begun, s₁, hbegun⟩ := collaborators_report recipient ⟨0, 0, 0⟩ (s.note 0 .clock) hsmooth.reported
    (.started ⟨id, script.time⟩)
  obtain ⟨es, k₂, s₂, hcheckout, hsent⟩ := checkout_elapses recipient unique ⟨0, 0, 0⟩ s₁ hsmooth hvalid rfl
  obtain ⟨uploaded, s₃, hupload⟩ : ∃ answer s₃,
      script.collaborators recipient (.upload id transcript (Transcript.byteCount transcript)) k₂.commands k₂.now s₂ =
        (some (0, answer), s₃) := by
    refine ⟨(recipient.upload id transcript (Transcript.byteCount transcript) s₂.world).1,
      { s₂.note k₂.now (.upload id transcript (Transcript.byteCount transcript)) with
        world := (recipient.upload id transcript (Transcript.byteCount transcript) s₂.world).2 }, ?_⟩
    simp [Script.collaborators, hsmooth.store, Scene.note]
  -- the upload may fail, and the end is reported all the same
  obtain ⟨ended, s₄, hended⟩ := collaborators_report recipient k₂ (s₃.note k₂.now .clock) hsmooth.reported
    (.finished ⟨id, script.time, summary.outcome, summary.error⟩)
  refine ⟨⟨.plain .clock, script.time⟩ :: ⟨.plain (.report (.started ⟨id, script.time⟩)), begun⟩ ::
    (es ++ [⟨.plain (.upload id transcript (Transcript.byteCount transcript)), uploaded⟩, ⟨.plain .clock, script.time⟩,
      ⟨.plain (.report (.finished ⟨id, script.time, summary.outcome, summary.error⟩)), ended⟩]), k₂, s₄, ?_, ?_⟩
  · refine .act (hclock _ _) (.act hbegun (hcheckout.bind ?_))
    exact .act hupload (.act (hclock _ _) (.act hended (.done _ _ _)))
  · show _ :: Journal.sendings (es ++ _) = _
    rw [Journal.sendings_append, hsent]
    rfl

end Pipeworks.Runner
