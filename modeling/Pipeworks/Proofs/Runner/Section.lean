/-
The ways a section can go when the limit may strike during every action: `Commands` for the commands,
`Provided` for all that comes before them, and `Sectioned` for the whole. Every path of a section takes
one of these ways (`sectioned_of_path`); what holds of a section is then shown way by way, and
nothing below unfolds the section again. The traces are those that the journal shows (`traces_of_path`).
-/
import Pipeworks.Proofs.Runner.Journal

namespace Pipeworks.Runner

open Program (Path path_done_iff path_ask_iff path_bind_iff)

/-! ## The traces of a section -/

/-- The traces after calls within the limit. -/
def Traces.after : Traces → Journal → Traces
  | t, [] => t
  | t, ⟨.limited a, none⟩ :: es => (t.issued a).after es
  | t, ⟨.limited a, some answer⟩ :: es => ((t.issued a).answered a answer).after es
  | t, _ :: es => t.after es

variable {α : Type} {t t' : Traces} {es : Journal}

theorem path_within_done {a : α} {r : Option α} :
    Path (withinLimit t (.done a)) es (r, t') ↔ es = [] ∧ r = some a ∧ t' = t := by
  rw [withinLimit, path_done_iff, Prod.mk.injEq]

/-- The limit strikes during an action, or the section goes on with its answer. -/
theorem path_within_ask {a : Action} {next : a.Answer → Section α} {r : Option α} :
    Path (withinLimit t (.ask a next)) es (r, t') ↔
      (es = [⟨.limited a, none⟩] ∧ r = none ∧ t' = t.issued a) ∨
      ∃ answer rest, es = ⟨.limited a, some answer⟩ :: rest ∧
        Path (withinLimit ((t.issued a).answered a answer) (next answer)) rest (r, t') := by
  rw [withinLimit, path_ask_iff]
  constructor
  · rintro ⟨answer, rest, rfl, h⟩
    cases answer with
    | none =>
      obtain ⟨rfl, h⟩ := path_done_iff.1 h
      cases h
      exact .inl ⟨rfl, rfl, rfl⟩
    | some answer => exact .inr ⟨answer, rest, rfl, h⟩
  · rintro (⟨rfl, rfl, rfl⟩ | ⟨answer, rest, rfl, h⟩)
    · exact ⟨none, [], rfl, .done _⟩
    · exact ⟨some answer, rest, rfl, h⟩

theorem traces_of_path {p : Section α} {r : Option α} (h : Path (withinLimit t p) es (r, t')) :
    t' = t.after es := by
  induction p generalizing t es with
  | done a =>
    obtain ⟨rfl, -, rfl⟩ := path_within_done.1 h
    rfl
  | ask a next ih =>
    obtain ⟨rfl, -, rfl⟩ | ⟨answer, rest, rfl, hrest⟩ := path_within_ask.1 h
    · rfl
    · have hafter := ih answer hrest
      exact hafter

/-- Where one section follows another, the limit strikes in the first, or it is done and the second
goes on with the traces it left. -/
theorem path_within_bind {β : Type} {p : Section α} {f : α → Section β} {r : Option β}
    (h : Path (withinLimit t (p.bind f)) es (r, t')) :
    (Path (withinLimit t p) es (none, t') ∧ r = none) ∨
    ∃ a t₁ front back, es = front ++ back ∧ Path (withinLimit t p) front (some a, t₁) ∧
      Path (withinLimit t₁ (f a)) back (r, t') := by
  induction p generalizing t es with
  | done a => exact .inr ⟨a, t, [], es, rfl, path_within_done.2 ⟨rfl, rfl, rfl⟩, h⟩
  | ask a next ih =>
    rw [Program.bind_ask] at h
    obtain ⟨rfl, rfl, rfl⟩ | ⟨answer, rest, rfl, hrest⟩ := path_within_ask.1 h
    · exact .inl ⟨path_within_ask.2 (.inl ⟨rfl, rfl, rfl⟩), rfl⟩
    · obtain ⟨hp, hr⟩ | ⟨b, t₁, front, back, rfl, hp, hf⟩ := ih answer hrest
      · exact .inl ⟨path_within_ask.2 (.inr ⟨answer, rest, rfl, hp⟩), hr⟩
      · exact .inr ⟨b, t₁, _ :: front, back, rfl,
          path_within_ask.2 (.inr ⟨answer, front, rfl, hp⟩), hf⟩

/-! ## Commands -/

/-- The ways to run commands, of which the first has the given order: the calls, and the result
unless the limit struck. -/
inductive Commands (pipelineId : Int64) (container : String) :
    Nat → List String → Journal → Option (Except RunFault Unit) → Prop
  | finished (n : Nat) : Commands pipelineId container n [] [] (some (.ok ()))
  | tooMany {n : Nat} {cmd : String} {cmds : List String} :
      Nat.pow 2 31 ≤ n →
      Commands pipelineId container n (cmd :: cmds) [] (some (.error (.internal "too many commands")))
  | cutOff {n : Nat} {cmd : String} {cmds : List String} :
      n < Nat.pow 2 31 →
      Commands pipelineId container n (cmd :: cmds) [⟨.limited (.exec container cmd), none⟩] none
  | broken {n : Nat} {cmd : String} {cmds : List String} (message : String) :
      n < Nat.pow 2 31 →
      Commands pipelineId container n (cmd :: cmds)
        [⟨.limited (.exec container cmd), some (.error message)⟩]
        (some (.error (.exec (Int32.ofNat n) message)))
  | unreported {n : Nat} {cmd : String} {cmds : List String} (result : ExecOutput) :
      n < Nat.pow 2 31 →
      Commands pipelineId container n (cmd :: cmds)
        [⟨.limited (.exec container cmd), some (.ok result)⟩,
          ⟨.limited (.report (.output
            ⟨pipelineId, Int32.ofNat n, cmd, result.output, result.exitCode⟩)), none⟩] none
  | failed {n : Nat} {cmd : String} {cmds : List String} (result : ExecOutput)
      (reported : Except String Unit) :
      n < Nat.pow 2 31 → result.exitCode ≠ 0 →
      Commands pipelineId container n (cmd :: cmds)
        [⟨.limited (.exec container cmd), some (.ok result)⟩,
          ⟨.limited (.report (.output
            ⟨pipelineId, Int32.ofNat n, cmd, result.output, result.exitCode⟩)), some reported⟩]
        (some (.error (.commandFailed (Int32.ofNat n) cmd result.exitCode)))
  | succeeded {n : Nat} {cmd : String} {cmds : List String} (result : ExecOutput)
      (reported : Except String Unit) {es : Journal} {r : Option (Except RunFault Unit)} :
      n < Nat.pow 2 31 → result.exitCode = 0 → Commands pipelineId container (n + 1) cmds es r →
      Commands pipelineId container n (cmd :: cmds)
        (⟨.limited (.exec container cmd), some (.ok result)⟩ ::
          ⟨.limited (.report (.output
            ⟨pipelineId, Int32.ofNat n, cmd, result.output, result.exitCode⟩)), some reported⟩ :: es)
        r

theorem commands_of_path {pipelineId : Int64} {container : String} {n : Nat} {cmds : List String}
    {r : Option (Except RunFault Unit)}
    (h : Path (withinLimit t (runCommands pipelineId container n cmds)) es (r, t')) :
    Commands pipelineId container n cmds es r := by
  induction cmds generalizing n t es with
  | nil =>
    obtain ⟨rfl, rfl, -⟩ := path_within_done.1 h
    exact .finished n
  | cons cmd cmds ih =>
    rw [runCommands] at h
    split at h
    case isFalse hn =>
      obtain ⟨rfl, rfl, -⟩ := path_within_done.1 h
      exact .tooMany (by omega)
    case isTrue hn =>
      obtain ⟨rfl, rfl, -⟩ | ⟨ran, rest, rfl, hran⟩ := path_within_ask.1 h
      · exact .cutOff hn
      cases ran with
      | error message =>
        obtain ⟨rfl, rfl, -⟩ := path_within_done.1 hran
        exact .broken message hn
      | ok result =>
        obtain ⟨rfl, rfl, -⟩ | ⟨reported, rest, rfl, hrest⟩ := path_within_ask.1 hran
        · exact .unreported result hn
        by_cases hz : result.exitCode = 0
        · simp only [Program.bind_done, hz, if_true] at hrest
          exact .succeeded result reported hn hz (ih hrest)
        · simp only [Program.bind_done, hz, if_false] at hrest
          obtain ⟨rfl, rfl, -⟩ := path_within_done.1 hrest
          exact .failed result reported hn hz

/-! ## The container -/

/-- The ways to provide a container: the calls, and the result unless the limit struck. -/
inductive Provided (spec : ContainerSpec) : Journal → Option (Except RunFault String) → Prop
  | pullCutOff : Provided spec [⟨.limited (.pull spec.image), none⟩] none
  | pullFailed (message : String) :
      Provided spec [⟨.limited (.pull spec.image), some (.error message)⟩]
        (some (.error (.provision message)))
  | createCutOff :
      Provided spec
        [⟨.limited (.pull spec.image), some (.ok ())⟩, ⟨.limited (.create spec), none⟩] none
  | createFailed (message : String) :
      Provided spec
        [⟨.limited (.pull spec.image), some (.ok ())⟩,
          ⟨.limited (.create spec), some (.error message)⟩]
        (some (.error (.provision message)))
  | startCutOff (name : String) :
      Provided spec
        [⟨.limited (.pull spec.image), some (.ok ())⟩, ⟨.limited (.create spec), some (.ok name)⟩,
          ⟨.limited (.start name), none⟩] none
  | startFailed (name message : String) :
      Provided spec
        [⟨.limited (.pull spec.image), some (.ok ())⟩, ⟨.limited (.create spec), some (.ok name)⟩,
          ⟨.limited (.start name), some (.error message)⟩]
        (some (.error (.provision message)))
  | started (name : String) :
      Provided spec
        [⟨.limited (.pull spec.image), some (.ok ())⟩, ⟨.limited (.create spec), some (.ok name)⟩,
          ⟨.limited (.start name), some (.ok ())⟩]
        (some (.ok name))

theorem provided_of_path {spec : ContainerSpec} {r : Option (Except RunFault String)}
    (h : Path (withinLimit t (provide spec)) es (r, t')) : Provided spec es r := by
  obtain ⟨rfl, rfl, -⟩ | ⟨pulled, rest, rfl, hpull⟩ := path_within_ask.1 h
  · exact .pullCutOff
  cases pulled with
  | error message =>
    obtain ⟨rfl, rfl, -⟩ := path_within_done.1 hpull
    exact .pullFailed message
  | ok =>
    obtain ⟨rfl, rfl, -⟩ | ⟨created, rest, rfl, hcreate⟩ := path_within_ask.1 hpull
    · exact .createCutOff
    cases created with
    | error message =>
      obtain ⟨rfl, rfl, -⟩ := path_within_done.1 hcreate
      exact .createFailed message
    | ok name =>
      obtain ⟨rfl, rfl, -⟩ | ⟨started, rest, rfl, hstart⟩ := path_within_ask.1 hcreate
      · exact .startCutOff name
      cases started with
      | error message =>
        obtain ⟨rfl, rfl, -⟩ := path_within_done.1 hstart
        exact .startFailed name message
      | ok =>
        obtain ⟨rfl, rfl, -⟩ := path_within_done.1 hstart
        exact .started name

/-! ## The whole section -/

def fetching (work : Work) (directory : String) : Action :=
  .fetch work.pipeline.cloneUrl work.pipeline.commit work.token directory

/-- The container that a run asks for. -/
def containerOf (work : Work) (directory unique : String) (d : Definition) : ContainerSpec :=
  ⟨containerName work.pipeline.id unique, d.image, directory⟩

/-- The ways of a section: the calls, and the result unless the limit struck. -/
inductive Sectioned (work : Work) (directory unique : String) (now : Time.Instant) :
    Journal → Option (Except RunFault Unit) → Prop
  | expired :
      work.token.isExpiredAt now = true →
      Sectioned work directory unique now [] (some (.error .tokenExpired))
  | fetchCutOff :
      work.token.isExpiredAt now = false →
      Sectioned work directory unique now [⟨.limited (fetching work directory), none⟩] none
  | fetchFailed (message : String) :
      work.token.isExpiredAt now = false →
      Sectioned work directory unique now
        [⟨.limited (fetching work directory), some (.error message)⟩]
        (some (.error (.fetch message)))
  | undefined {file : DefinitionFile} {f : RunFault} :
      work.token.isExpiredAt now = false → file.read = .error f →
      Sectioned work directory unique now
        [⟨.limited (fetching work directory), some (.ok file)⟩] (some (.error f))
  | unprovided {file : DefinitionFile} {d : Definition} {es : Journal} :
      work.token.isExpiredAt now = false → file.read = .ok d →
      Provided (containerOf work directory unique d) es none →
      Sectioned work directory unique now
        (⟨.limited (fetching work directory), some (.ok file)⟩ :: es) none
  | provisionFailed {file : DefinitionFile} {d : Definition} {es : Journal} {f : RunFault} :
      work.token.isExpiredAt now = false → file.read = .ok d →
      Provided (containerOf work directory unique d) es (some (.error f)) →
      Sectioned work directory unique now
        (⟨.limited (fetching work directory), some (.ok file)⟩ :: es) (some (.error f))
  | ran {file : DefinitionFile} {d : Definition} {es fs : Journal} {container : String}
      {r : Option (Except RunFault Unit)} :
      work.token.isExpiredAt now = false → file.read = .ok d →
      Provided (containerOf work directory unique d) es (some (.ok container)) →
      Commands work.pipeline.id container 0 d.commands fs r →
      Sectioned work directory unique now
        (⟨.limited (fetching work directory), some (.ok file)⟩ :: (es ++ fs)) r

theorem sectioned_of_path {work : Work} {directory unique : String} {now : Time.Instant}
    {r : Option (Except RunFault Unit)}
    (h : Path (withinLimit t (runSection work directory unique now)) es (r, t')) :
    Sectioned work directory unique now es r := by
  unfold runSection at h
  split at h
  case isTrue hx =>
    obtain ⟨rfl, rfl, -⟩ := path_within_done.1 h
    exact .expired hx
  case isFalse hx =>
    simp only [Bool.not_eq_true] at hx
    obtain ⟨rfl, rfl, -⟩ | ⟨fetched, rest, rfl, hfetch⟩ := path_within_ask.1 h
    · exact .fetchCutOff hx
    rcases fetched with message | file
    · obtain ⟨rfl, rfl, -⟩ := path_within_done.1 hfetch
      exact .fetchFailed message hx
    dsimp only at hfetch
    split at hfetch
    case h_1 f hf =>
      obtain ⟨rfl, rfl, -⟩ := path_within_done.1 hfetch
      exact .undefined hx hf
    case h_2 d hd =>
      -- the limit strikes while the container is provided, or there is one or a fault
      obtain ⟨hp, rfl⟩ | ⟨provided, t₁, front, back, rfl, hp, hc⟩ := path_within_bind hfetch
      · exact .unprovided hx hd (provided_of_path hp)
      cases provided with
      | error f =>
        obtain ⟨rfl, rfl, -⟩ := path_within_done.1 hc
        rw [List.append_nil]
        exact .provisionFailed hx hd (provided_of_path hp)
      | ok container => exact .ran hx hd (provided_of_path hp) (commands_of_path hc)

end Pipeworks.Runner
