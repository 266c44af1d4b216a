/-
The phases of a run, and how far it comes with them. What a section is to do is a plan, which the definition and the
container that it is given complete; the section goes through it in order, each step once those before it have
succeeded, and leaves it only where a step fails or the limit strikes (`sectioned_follows`).
-/
import Mathlib.Data.List.Basic
import Pipeworks.Proofs.Runner.Section

namespace Pipeworks.Runner

variable {es fs : Journal} {plan : List Action} {a : Action} {e : Program.Event Call Call.Answer}

/-! ## Phases that fail -/

/-- Whether there is no definition: there is no file, it cannot be read, it is too long or not text, or what it says
is no definition. -/
def DefinitionFile.isRefused : DefinitionFile → Bool
  | .missing => true
  | .directory => true
  | .unreadable _ => true
  | .content b => decide (65536 < b.length) ||
    match Text.ofBytes? b with
    | none => true
    | some source => !(Definition.ofText source).isOk

/-- The category of the failure of the phase that a call belongs to. -/
def failedPhase? : Program.Event Call Call.Answer → Option FailureCategory
  | ⟨.plain (.openCheckout _), .error _⟩ => some .internal
  | ⟨.limited (.fetch _ _ _ _), some (.error _)⟩ => some .fetch
  | ⟨.limited (.fetch _ _ _ _), some (.ok file)⟩ => if file.isRefused then some .config else none
  | ⟨.limited (.pull _), some (.error _)⟩ => some .provision
  | ⟨.limited (.create _), some (.error _)⟩ => some .provision
  | ⟨.limited (.start _), some (.error _)⟩ => some .provision
  | ⟨.limited (.exec _ _), some (.error _)⟩ => some .execution
  | ⟨.limited (.exec _ _), some (.ok result)⟩ => if result.exitCode = 0 then none else some .execution
  | _ => none

/-- Just what is refused cannot be read, and that is a fault of the configuration. -/
theorem read_refused (file : DefinitionFile) :
    match file.read with
    | .ok _ => file.isRefused = false
    | .error f => file.isRefused = true ∧ f.category = .config := by
  cases file with
  | missing => exact ⟨rfl, rfl⟩
  | directory => exact ⟨rfl, rfl⟩
  | unreadable reason => exact ⟨rfl, rfl⟩
  | content b =>
    have hmax : Definition.maxBytes = 65536 := rfl
    rw [DefinitionFile.read, DefinitionFile.isRefused, hmax]
    by_cases hlong : 65536 < b.length
    · simp [hlong, RunFault.category]
    cases htext : Text.ofBytes? b with
    | none => simp [hlong, RunFault.category]
    | some source =>
      cases hread : Definition.ofText source with
      | error f => simp [hlong, RunFault.category, hread, Except.isOk, Except.toBool]
      | ok d => simp [hlong, hread, Except.isOk, Except.toBool]

theorem refused_of_error {file : DefinitionFile} {f : RunFault} (h : file.read = .error f) :
    file.isRefused = true ∧ f.category = .config := by
  have hrefused := read_refused file
  rwa [h] at hrefused

theorem accepted_of_ok {file : DefinitionFile} {d : Definition} (h : file.read = .ok d) :
    file.isRefused = false := by
  have hrefused := read_refused file
  rwa [h] at hrefused

theorem fetched_failure {work : Work} {directory : String} {file : DefinitionFile} {d : Definition}
    (h : file.read = .ok d) : failedPhase? ⟨.limited (fetching work directory), some (.ok file)⟩ = none := by
  have haccepted := accepted_of_ok h
  simp [failedPhase?, fetching, haccepted]

/-! ## Plans -/

/-- A call within the limit that a phase consists of: any but a report. -/
def isStep : Program.Event Call Call.Answer → Bool
  | ⟨.limited (.report _), _⟩ => false
  | ⟨.limited _, _⟩ => true
  | _ => false

def opened? : Program.Event Call Call.Answer → Option (Except String String)
  | ⟨.plain (.openCheckout _), answer⟩ => some answer
  | _ => none

def created? : Program.Event Call Call.Answer → Option String
  | ⟨.limited (.create _), some (.ok name)⟩ => some name
  | _ => none

namespace Journal

def steps (es : Journal) : Journal := es.filter isStep

/-- What was asked for, in order. -/
def asked (es : Journal) : List Action := es.filterMap fun e => e.call.action?

/-- The checkout that was opened first, or why there is none. -/
def opened? (es : Journal) : Option (Except String String) := es.findSome? Runner.opened?

/-- The container that was created first. -/
def container? (es : Journal) : Option String := es.findSome? created?

end Journal

/-- What provides a container and then uses it. -/
def providing (spec : ContainerSpec) (use : String → List Action) (container : Option String) : List Action :=
  .pull spec.image :: .create spec ::
    match container with
    | none => []
    | some name => .start name :: use name

/-- All that a section is to do: it fetches, provides a container for the definition that it has fetched, and runs the
commands that can be numbered. -/
def planOf (work : Work) (directory unique : String) (es : Journal) : List Action :=
  fetching work directory ::
    match Journal.definition? es with
    | none => []
    | some d => providing (containerOf work directory unique d)
      (fun container => (d.commands.take (Nat.pow 2 31)).map (.exec container)) (Journal.container? es)

/-- The steps are those of a plan, in order. Each is made once those before it have succeeded, and all are made unless
one fails or the limit strikes. -/
structure Follows (plan : List Action) (es : Journal) : Prop where
  inOrder : Journal.asked (Journal.steps es) <+: plan
  succeeded : ∀ e ∈ (Journal.steps es).dropLast, failedPhase? e = none ∧ isCutOff e = false
  whole : es.findSome? failedPhase? = none → Journal.isCutOff es = false →
    Journal.asked (Journal.steps es) = plan

theorem Follows.nil : Follows [] [] := ⟨List.prefix_rfl, List.forall_mem_nil _, fun _ _ => rfl⟩

/-- Only steps, failures and the limit matter. -/
theorem Follows.congr (h : Follows plan es) (hsteps : Journal.steps fs = Journal.steps es)
    (hfailed : fs.findSome? failedPhase? = es.findSome? failedPhase?)
    (hcut : Journal.isCutOff fs = Journal.isCutOff es) : Follows plan fs := by
  constructor
  case inOrder => exact hsteps ▸ h.inOrder
  case succeeded => exact hsteps ▸ h.succeeded
  case whole =>
    rw [hfailed, hcut, hsteps]
    exact h.whole

theorem steps_cons (es : Journal) (hstep : isStep e = true) (ha : e.call.action? = some a) :
    Journal.steps (e :: es) = e :: Journal.steps es ∧
      Journal.asked (Journal.steps (e :: es)) = a :: Journal.asked (Journal.steps es) := by
  have hsteps : Journal.steps (e :: es) = e :: Journal.steps es := List.filter_cons_of_pos hstep
  exact ⟨hsteps, hsteps ▸ List.filterMap_cons_some ha⟩

/-- After a step that has succeeded the rest of the plan is followed. -/
theorem Follows.cons (h : Follows plan es) (hstep : isStep e = true) (ha : e.call.action? = some a)
    (hgood : failedPhase? e = none ∧ isCutOff e = false) : Follows (a :: plan) (e :: es) := by
  obtain ⟨hsteps, hasked⟩ := steps_cons es hstep ha
  constructor
  case inOrder =>
    rw [hasked]
    exact List.cons_prefix_cons.2 ⟨rfl, h.inOrder⟩
  case succeeded =>
    rw [hsteps]
    intro k hk
    cases hrest : Journal.steps es with
    | nil =>
      rw [hrest] at hk
      cases hk
    | cons l rest =>
      rw [hrest, List.dropLast_cons_of_ne_nil (List.cons_ne_nil _ _)] at hk
      rcases List.mem_cons.1 hk with rfl | hk
      · exact hgood
      · exact h.succeeded k (hrest ▸ hk)
  case whole =>
    intro hfailed hcut
    rw [List.findSome?_cons, hgood.1] at hfailed
    have hcut' : (isCutOff e || Journal.isCutOff es) = false := hcut
    rw [hgood.2, Bool.false_or] at hcut'
    rw [hasked, h.whole hfailed hcut']

/-- The last step of those that are made. -/
theorem Follows.last (hstep : isStep e = true) (ha : e.call.action? = some a) (hrest : Journal.steps es = [])
    (hstops : (e :: es).findSome? failedPhase? = none → Journal.isCutOff (e :: es) = true) :
    Follows (a :: plan) (e :: es) := by
  obtain ⟨hsteps, hasked⟩ := steps_cons es hstep ha
  constructor
  case inOrder =>
    rw [hasked, hrest]
    exact List.cons_prefix_cons.2 ⟨rfl, List.nil_prefix⟩
  case succeeded =>
    rw [hsteps, hrest]
    exact List.forall_mem_nil _
  case whole =>
    intro hfailed hcut
    rw [hstops hfailed] at hcut
    cases hcut

/-! ## Sections -/

theorem commands_follows {id : Int64} {container : String} {n : Nat} {cmds : List String}
    {r : Option (Except RunFault Unit)} (h : Commands id container n cmds es r) :
    Follows ((cmds.take (Nat.pow 2 31 - n)).map (.exec container)) es := by
  have hnext : ∀ {n : Nat} {cmd : String} {cmds : List String}, n < Nat.pow 2 31 →
      ((cmd :: cmds).take (Nat.pow 2 31 - n)).map (Action.exec container) =
        .exec container cmd :: (cmds.take (Nat.pow 2 31 - (n + 1))).map (.exec container) := by
    intro n cmd cmds hlt
    have hleft : Nat.pow 2 31 - n = Nat.pow 2 31 - (n + 1) + 1 := by omega
    rw [hleft, List.take_succ_cons, List.map_cons]
  induction h with
  | finished n =>
    rw [List.take_nil]
    exact .nil
  | @tooMany n cmd cmds hfull =>
    have hnone : Nat.pow 2 31 - n = 0 := Nat.sub_eq_zero_of_le hfull
    rw [hnone, List.take_zero]
    exact .nil
  | cutOff hlt =>
    rw [hnext hlt]
    exact .last rfl rfl rfl fun _ => rfl
  | broken message hlt =>
    rw [hnext hlt]
    exact .last rfl rfl rfl nofun
  | unreported result hlt =>
    rw [hnext hlt]
    exact .last rfl rfl rfl fun _ => rfl
  | failed result reported hlt hz =>
    rw [hnext hlt]
    exact .last rfl rfl rfl (by simp [failedPhase?, hz])
  | succeeded result reported hlt hz hc ih =>
    rw [hnext hlt]
    -- the report about the command is no step
    refine .cons (ih.congr rfl rfl rfl) rfl rfl ⟨?_, rfl⟩
    simp [failedPhase?, hz]

/-- A container that is not provided. -/
theorem provided_follows {spec : ContainerSpec} {r : Option (Except RunFault String)} (h : Provided spec es r)
    (hnone : ∀ name, r ≠ some (.ok name)) (use : String → List Action) :
    Follows (providing spec use (Journal.container? es)) es := by
  cases h with
  | pullCutOff => exact .last rfl rfl rfl fun _ => rfl
  | pullFailed message => exact .last rfl rfl rfl nofun
  | createCutOff => exact .cons (.last rfl rfl rfl fun _ => rfl) rfl rfl ⟨rfl, rfl⟩
  | createFailed message => exact .cons (.last rfl rfl rfl nofun) rfl rfl ⟨rfl, rfl⟩
  | startCutOff name =>
    exact .cons (.cons (.last rfl rfl rfl fun _ => rfl) rfl rfl ⟨rfl, rfl⟩) rfl rfl ⟨rfl, rfl⟩
  | startFailed name message =>
    exact .cons (.cons (.last rfl rfl rfl nofun) rfl rfl ⟨rfl, rfl⟩) rfl rfl ⟨rfl, rfl⟩
  | started name => exact absurd rfl (hnone name)

theorem definition?_fetched (work : Work) (directory : String) {file : DefinitionFile} {d : Definition}
    (h : file.read = .ok d) (es : Journal) :
    Journal.definition? (⟨.limited (fetching work directory), some (.ok file)⟩ :: es) = some d := by
  simp [Journal.definition?, definition?, fetching, h, Except.toOption]

/-- A section follows its plan, unless the token has expired. -/
theorem sectioned_follows {work : Work} {directory unique : String} {now : Time.Instant}
    {r : Option (Except RunFault Unit)} (h : Sectioned work directory unique now es r)
    (hx : work.token.isExpiredAt now = false) : Follows (planOf work directory unique es) es := by
  have hfetched : ∀ {file : DefinitionFile} {d : Definition}, file.read = .ok d →
      failedPhase? ⟨.limited (fetching work directory), some (.ok file)⟩ = none ∧
        isCutOff ⟨.limited (fetching work directory), some (.ok file)⟩ = false := fun hd =>
    ⟨fetched_failure hd, rfl⟩
  have hplan : ∀ {file : DefinitionFile} {d : Definition}, file.read = .ok d → ∀ es,
      planOf work directory unique (⟨.limited (fetching work directory), some (.ok file)⟩ :: es) =
        fetching work directory :: providing (containerOf work directory unique d)
          (fun container => (d.commands.take (Nat.pow 2 31)).map (.exec container)) (Journal.container? es) := by
    intro file d hd es
    unfold planOf
    rw [definition?_fetched work directory hd]
    rfl
  cases h with
  | expired hx' =>
    rw [hx] at hx'
    cases hx'
  | fetchCutOff _ => exact .last rfl rfl rfl fun _ => rfl
  | fetchFailed message _ => exact .last rfl rfl rfl nofun
  | @undefined file f _ hf =>
    have hrefused := (refused_of_error hf).1
    exact .last rfl rfl rfl (by simp [failedPhase?, fetching, hrefused])
  | unprovided _ hd hp =>
    rw [hplan hd]
    exact (provided_follows hp nofun _).cons rfl rfl (hfetched hd)
  | provisionFailed _ hd hp =>
    rw [hplan hd]
    exact (provided_follows hp nofun _).cons rfl rfl (hfetched hd)
  | ran _ hd hp hc =>
    rw [hplan hd]
    cases hp with
    | started name =>
      refine .cons ?_ rfl rfl (hfetched hd)
      refine .cons (.cons (.cons ?_ rfl rfl ⟨rfl, rfl⟩) rfl rfl ⟨rfl, rfl⟩) rfl rfl ⟨rfl, rfl⟩
      exact commands_follows hc

end Pipeworks.Runner
