/-
What an execution leaves behind: nothing. The container that it asked for, whether it was told its name or
not, is stopped and removed once, after the last command and before the transcript is stored; where none
was asked for, none is stopped or removed; and the checkout is closed. How stopping and removing go changes
nothing else.
-/
import Pipeworks.Proofs.Runner.Execution

namespace Pipeworks.Runner

open Program (Path)

variable {es fs : Journal} {t : Traces}

/-! ## Containers in a journal -/

def Action.isLifecycle : Action → Bool
  | .create _ => true
  | .stop _ => true
  | .remove _ => true
  | _ => false

/-- The containers that were asked for, stopped or removed, in order. -/
def Journal.lifecycle (es : Journal) : List Action :=
  es.filterMap fun e => e.call.action?.filter Action.isLifecycle

@[simp] theorem Journal.lifecycle_append (es fs : Journal) :
    Journal.lifecycle (es ++ fs) = Journal.lifecycle es ++ Journal.lifecycle fs :=
  List.filterMap_append

/-- What a container is called that was asked for: what the answer says, or else what was asked for. -/
def createdName (spec : ContainerSpec) : Option (Except String String) → String
  | some (.ok name) => name
  | _ => spec.name

/-! ## The traces of a section -/

theorem Traces.after_append (t : Traces) (es fs : Journal) :
    t.after (es ++ fs) = (t.after es).after fs := by
  fun_induction Traces.after t es with
  | case1 t => rfl
  | case2 t a es ih => exact ih
  | case3 t a answer es ih => exact ih
  | case4 t e es h₁ h₂ ih =>
    rw [List.cons_append, Traces.after]
    · exact ih
    · exact h₁
    · exact h₂

/-- Commands leave the container that it is. -/
theorem commands_container {id : Int64} {container : String} {n : Nat} {cmds : List String}
    {r : Option (Except RunFault Unit)} (h : Commands id container n cmds es r) :
    Journal.lifecycle es = [] ∧ (t.after es).container = t.container := by
  induction h generalizing t with
  | succeeded result reported hn hz hc ih =>
    have hrest := ih (t := { t with transcript := t.transcript ++ Text.bytes result.output })
    exact hrest
  | _ => exact ⟨rfl, rfl⟩

/-- A container that is asked for may exist, under the name of the answer or else of the request. -/
theorem provided_container {spec : ContainerSpec} {r : Option (Except RunFault String)}
    (h : Provided spec es r) :
    (Journal.lifecycle es = [] ∧ (t.after es).container = t.container) ∨
    ∃ answer, Journal.lifecycle es = [.create spec] ∧ ⟨.limited (.create spec), answer⟩ ∈ es ∧
      (t.after es).container = some (createdName spec answer) := by
  cases h with
  | pullCutOff => exact .inl ⟨rfl, rfl⟩
  | pullFailed message => exact .inl ⟨rfl, rfl⟩
  | createCutOff => exact .inr ⟨none, rfl, by simp, rfl⟩
  | createFailed message => exact .inr ⟨some (.error message), rfl, by simp, rfl⟩
  | startCutOff name => exact .inr ⟨some (.ok name), rfl, by simp, rfl⟩
  | startFailed name message => exact .inr ⟨some (.ok name), rfl, by simp, rfl⟩
  | started name => exact .inr ⟨some (.ok name), rfl, by simp, rfl⟩

/-- So it is with a fetch before and commands after that. -/
theorem fetched_container {spec : ContainerSpec} {r : Option (Except RunFault String)} (work : Work)
    (directory : String) (file : DefinitionFile) (h : Provided spec es r)
    (hfs : ∀ t : Traces, Journal.lifecycle fs = [] ∧ (t.after fs).container = t.container) :
    let js : Journal := ⟨.limited (fetching work directory), some (.ok file)⟩ :: (es ++ fs)
    (Journal.lifecycle js = [] ∧ (t.after js).container = t.container) ∨
    ∃ spec answer, Journal.lifecycle js = [.create spec] ∧ ⟨.limited (.create spec), answer⟩ ∈ js ∧
      (t.after js).container = some (createdName spec answer) := by
  intro js
  have hcontainer : (t.after js).container = (t.after es).container := by
    have happend : t.after js = (t.after es).after fs := Traces.after_append t es fs
    rw [happend, (hfs _).2]
  have hlifecycle : Journal.lifecycle js = Journal.lifecycle es := by
    have happend : Journal.lifecycle js = Journal.lifecycle es ++ Journal.lifecycle fs :=
      Journal.lifecycle_append es fs
    rw [happend, (hfs t).1, List.append_nil]
  rw [hcontainer, hlifecycle]
  rcases provided_container (t := t) h with hnone | ⟨answer, hl, hmem, hc⟩
  · exact .inl hnone
  · exact .inr ⟨spec, answer, hl, List.mem_cons_of_mem _ (List.mem_append_left _ hmem), hc⟩

theorem sectioned_container {work : Work} {directory unique : String} {now : Time.Instant}
    {r : Option (Except RunFault Unit)} (h : Sectioned work directory unique now es r) :
    (Journal.lifecycle es = [] ∧ (t.after es).container = t.container) ∨
    ∃ spec answer, Journal.lifecycle es = [.create spec] ∧ ⟨.limited (.create spec), answer⟩ ∈ es ∧
      (t.after es).container = some (createdName spec answer) := by
  have hnil : ∀ t : Traces, Journal.lifecycle [] = [] ∧ (t.after []).container = t.container :=
    fun _ => ⟨rfl, rfl⟩
  cases h with
  | expired hx => exact .inl ⟨rfl, rfl⟩
  | fetchCutOff hx => exact .inl ⟨rfl, rfl⟩
  | fetchFailed message hx => exact .inl ⟨rfl, rfl⟩
  | undefined hx hf => exact .inl ⟨rfl, rfl⟩
  | @unprovided file d es hx hd hp =>
    have hway := fetched_container (t := t) work directory file hp hnil
    rwa [List.append_nil] at hway
  | @provisionFailed file d es f hx hd hp =>
    have hway := fetched_container (t := t) work directory file hp hnil
    rwa [List.append_nil] at hway
  | ran hx hd hp hc => exact fetched_container work directory _ hp fun t => commands_container hc

/-! ## The actions of a section -/

/-- What is done within the limit, in a checkout. -/
def Action.IsTimed (directory : String) : Action → Prop
  | .fetch _ _ _ d => d = directory
  | .pull _ => True
  | .create _ => True
  | .start _ => True
  | .exec _ _ => True
  | .report (.output _) => True
  | _ => False

theorem commands_timed {id : Int64} {container directory : String} {n : Nat} {cmds : List String}
    {r : Option (Except RunFault Unit)} (h : Commands id container n cmds es r) :
    ∀ e ∈ es, ∃ a, e.call = .limited a ∧ a.IsTimed directory := by
  induction h with
  | succeeded result reported hn hz hc ih => simpa [Action.IsTimed] using ih
  | _ => simp [Action.IsTimed]

theorem provided_timed {spec : ContainerSpec} {directory : String}
    {r : Option (Except RunFault String)} (h : Provided spec es r) :
    ∀ e ∈ es, ∃ a, e.call = .limited a ∧ a.IsTimed directory := by
  cases h <;> simp [Action.IsTimed]

theorem sectioned_timed {work : Work} {directory unique : String} {now : Time.Instant}
    {r : Option (Except RunFault Unit)} (h : Sectioned work directory unique now es r) :
    ∀ e ∈ es, ∃ a, e.call = .limited a ∧ a.IsTimed directory := by
  have hfetch : ∀ answer : Option (Except String DefinitionFile),
      ∃ a, (⟨.limited (fetching work directory), answer⟩ : Program.Event Call Call.Answer).call =
        .limited a ∧ a.IsTimed directory := fun _ => ⟨_, rfl, rfl⟩
  cases h with
  | expired hx => simp
  | fetchCutOff hx => simpa using hfetch none
  | fetchFailed message hx => simpa using hfetch none
  | undefined hx hf => simpa using hfetch none
  | unprovided hx hd hp => exact List.forall_mem_cons.2 ⟨hfetch _, provided_timed hp⟩
  | provisionFailed hx hd hp => exact List.forall_mem_cons.2 ⟨hfetch _, provided_timed hp⟩
  | ran hx hd hp hc =>
    refine List.forall_mem_cons.2 ⟨hfetch _, fun e he => ?_⟩
    rcases List.mem_append.1 he with he | he
    · exact provided_timed hp e he
    · exact commands_timed hc e he

/-! ## Checkouts -/

def Action.fetch? : Action → Option String
  | .fetch _ _ _ directory => some directory
  | _ => none

/-- The directories to which something was fetched, or should have been. -/
def Journal.fetches (es : Journal) : List String :=
  es.filterMap fun e => e.call.action?.bind Action.fetch?

@[simp] theorem Journal.fetches_append (es fs : Journal) :
    Journal.fetches (es ++ fs) = Journal.fetches es ++ Journal.fetches fs :=
  List.filterMap_append

theorem fetches_around {front back : Journal} (hf : Journal.fetches front = [])
    (hb : Journal.fetches back = []) : Journal.fetches (front ++ (es ++ back)) = Journal.fetches es := by
  rw [Journal.fetches_append, Journal.fetches_append, hf, hb, List.nil_append, List.append_nil]

theorem fetches_timed {directory : String}
    (h : ∀ e ∈ es, ∃ a, e.call = .limited a ∧ a.IsTimed directory) :
    ∀ d ∈ Journal.fetches es, d = directory := by
  intro d hd
  obtain ⟨e, he, hfetch⟩ := List.mem_filterMap.1 hd
  obtain ⟨a, ha, htimed⟩ := h e he
  rw [ha] at hfetch
  cases a with
  | fetch cloneUrl commit token directory' =>
    cases hfetch
    exact htimed
  | _ => cases hfetch

theorem checkouts_append (ds : List String) (es fs : Journal) :
    Journal.checkouts ds (es ++ fs) = Journal.checkouts (Journal.checkouts ds es) fs := by
  fun_induction Journal.checkouts ds es with
  | case1 ds => rfl
  | case2 ds id d es ih => exact ih
  | case3 ds d es ih => exact ih
  | case4 ds e es h₁ h₂ ih =>
    rw [List.cons_append, Journal.checkouts]
    · exact ih
    · exact h₁
    · exact h₂

theorem checkouts_timed {directory : String} (ds : List String)
    (h : ∀ e ∈ es, ∃ a, e.call = .limited a ∧ a.IsTimed directory) : Journal.checkouts ds es = ds := by
  fun_induction Journal.checkouts ds es with
  | case1 ds => rfl
  | case2 ds id d es ih =>
    obtain ⟨a, ha, -⟩ := h _ List.mem_cons_self
    cases ha
  | case3 ds d es ih =>
    obtain ⟨a, ha, -⟩ := h _ List.mem_cons_self
    cases ha
  | case4 ds e es h₁ h₂ ih => exact ih fun e he => h e (List.mem_cons_of_mem _ he)

/-! ## Cleaning up -/

/-- A report that the run has ended, or the storing of its transcript. -/
def Action.isClosing : Action → Bool
  | .upload _ _ _ => true
  | .report (.finished _) => true
  | _ => false

/-- No container was asked for, or it was stopped and removed. Whatever stopping and removing had been
answered instead, the run would have gone the same way. -/
def ContainerGone (run : Run RunSummary) (es : Journal) (summary : RunSummary) : Prop :=
  Journal.lifecycle es = [] ∨
  ∃ spec answer before after stopped removed,
    es = before ++ ⟨.plain (.stop (createdName spec answer)), stopped⟩ ::
      ⟨.plain (.remove (createdName spec answer)), removed⟩ :: after ∧
    Journal.lifecycle before = [.create spec] ∧ ⟨.limited (.create spec), answer⟩ ∈ before ∧
    (∀ e ∈ before, ∀ a, e.call.action? = some a → a.isClosing = false) ∧
    Journal.lifecycle after = [] ∧ Journal.commandRuns after = [] ∧
    ∀ stopped' removed', Path run (before ++ ⟨.plain (.stop (createdName spec answer)), stopped'⟩ ::
      ⟨.plain (.remove (createdName spec answer)), removed'⟩ :: after) summary

/-- Where closing a checkout removes it, no directory to which something was fetched is left, whatever
checkouts there were before. -/
def CheckoutGone (es : Journal) : Prop :=
  (∀ directory answer, ⟨.plain (.closeCheckout directory), answer⟩ ∈ es → answer = .ok ()) →
  ∀ directory ∈ Journal.fetches es, ∀ ds, directory ∉ Journal.checkouts ds es

theorem isClosing_timed {directory : String}
    (h : ∀ e ∈ es, ∃ a, e.call = .limited a ∧ a.IsTimed directory) :
    ∀ e ∈ es, ∀ a, e.call.action? = some a → a.isClosing = false := by
  intro e he a ha
  obtain ⟨a', hcall, htimed⟩ := h e he
  rw [hcall] at ha
  cases ha
  unfold Action.isClosing
  split
  · exact htimed.elim
  · exact htimed.elim
  · rfl

theorem executed_container {limit : Time.Span} {work : Work} {unique : String} {summary : RunSummary}
    (h : Executed limit work unique es summary) :
    ContainerGone (execute limit work unique) es summary := by
  obtain ⟨startedAt, finishedAt, started, finished, uploaded, hc⟩ := h
  cases hc with
  | noCheckout => exact .inl rfl
  | @noContainer directory now closed es r t hs hnone =>
    obtain rfl := traces_of_path hs
    -- had a container been asked for, the traces would have its name
    obtain ⟨hl, -⟩ | ⟨spec, answer, -, -, hsome⟩ := sectioned_container (t := {}) (sectioned_of_path hs)
    · refine .inl ?_
      simp only [Journal.lifecycle_append, hl]
      rfl
    · rw [hsome] at hnone
      cases hnone
  | @tornDown directory now stopped removed closed es r t container hs hsome =>
    obtain rfl := traces_of_path hs
    obtain ⟨-, hnone⟩ | ⟨spec, answer, hl, hmem, hname⟩ :=
      sectioned_container (t := {}) (sectioned_of_path hs)
    · rw [hnone] at hsome
      cases hsome
    rw [hname] at hsome
    cases hsome
    refine .inr ⟨spec, answer,
      opening work.pipeline.id startedAt started ++ (entering limit work.pipeline.id directory now ++ es),
      ⟨.plain (.closeCheckout directory), closed⟩ ::
        closing work.pipeline.id (Traces.after {} es).transcript uploaded finishedAt
          (RunSummary.ofResult (r.getD (.error (.timeout limit)))) finished,
      stopped, removed, ?_, ?_, ?_, ?_, rfl, rfl, fun stopped' removed' => ?_⟩
    · simp
    · simp only [Journal.lifecycle_append, hl]
      rfl
    · simp [hmem]
    · have htimed := isClosing_timed (sectioned_timed (sectioned_of_path hs))
      simp only [List.mem_append, or_imp, forall_and]
      refine ⟨?_, ?_, htimed⟩ <;> simp [opening, entering, Call.action?, Action.isClosing]
    -- the answers of stopping and removing are not read, so others make a path as well
    · have hother : Path (execute limit work unique) _ _ :=
        path_of_executed (.mk startedAt finishedAt started finished uploaded
          (.tornDown directory now stopped' removed' closed hs hname))
      simpa using hother

/-- A checkout that was opened, used and closed is not there any more. -/
theorem checkouts_closed {limit : Time.Span} {id : Int64} {directory : String} {now : Time.Instant}
    (ds : List String) (hes : ∀ e ∈ es, ∃ a, e.call = .limited a ∧ a.IsTimed directory)
    (hfs : ∀ ds, Journal.checkouts ds fs = ds.filter (· != directory)) :
    directory ∉ Journal.checkouts ds (entering limit id directory now ++ (es ++ fs)) := by
  have hopened : Journal.checkouts ds (entering limit id directory now ++ (es ++ fs)) =
      Journal.checkouts (directory :: ds) (es ++ fs) := rfl
  rw [hopened, checkouts_append, checkouts_timed _ hes, hfs]
  simp

theorem inCheckout_checkout {limit : Time.Span} {work : Work} {unique : String}
    {r : Except RunFault Unit} {transcript : Bytes} (h : InCheckout limit work unique es r transcript) :
    CheckoutGone es := by
  intro hclosed d hd ds
  cases h with
  | noCheckout => cases hd
  | @noContainer directory now closed es r t hs hc =>
    obtain rfl := hclosed directory closed (by simp)
    have htimed := sectioned_timed (sectioned_of_path hs)
    rw [fetches_around rfl rfl] at hd
    rw [fetches_timed htimed d hd]
    exact checkouts_closed ds htimed fun _ => rfl
  | @tornDown directory now stopped removed closed es r t container hs hc =>
    obtain rfl := hclosed directory closed (by simp)
    have htimed := sectioned_timed (sectioned_of_path hs)
    rw [fetches_around rfl rfl] at hd
    rw [fetches_timed htimed d hd]
    exact checkouts_closed ds htimed fun _ => rfl

theorem executed_checkout {limit : Time.Span} {work : Work} {unique : String} {summary : RunSummary}
    (h : Executed limit work unique es summary) : CheckoutGone es := by
  cases h with
  | @mk startedAt finishedAt started finished uploaded es r transcript hc =>
    intro hclosed d hd ds
    rw [fetches_around rfl rfl] at hd
    have hopening : Journal.checkouts ds (opening work.pipeline.id startedAt started ++ (es ++
        closing work.pipeline.id transcript uploaded finishedAt (RunSummary.ofResult r) finished)) =
        Journal.checkouts ds (es ++
          closing work.pipeline.id transcript uploaded finishedAt (RunSummary.ofResult r) finished) := rfl
    rw [hopening, checkouts_append]
    exact inCheckout_checkout hc (fun directory answer hmem => hclosed directory answer (by simp [hmem]))
      d hd ds

/-- Whatever a run meets, it leaves neither a container nor a checkout. -/
theorem execute_cleans_up {σ : Type} (limit : Time.Span) (work : Work) (unique : String)
    (world : Program.Handler Call Call.Answer σ) (s : σ) :
    ContainerGone (execute limit work unique) ((execute limit work unique).trace world s)
      ((execute limit work unique).run world s).1 ∧
    CheckoutGone ((execute limit work unique).trace world s) :=
  have h := executed_trace limit work unique world s
  ⟨executed_container h, executed_checkout h⟩

end Pipeworks.Runner
