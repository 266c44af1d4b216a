/-
Why a run fails: the first of its phases that fails decides it (`first_failure_decides`). The phases are seen in the
journal, and what is decided there is what the summary tells. The answers of what a run does aside, among them its
reports, are not read (`execute_ignores`), and so nothing that becomes of them makes a difference.
-/
import Mathlib.Algebra.Group.Nat.Defs
import Pipeworks.Proofs.Runner.Cleanup
import Pipeworks.Proofs.Runner.Plan
import Pipeworks.Proofs.Runner.Reports
import Pipeworks.Proofs.Runner.Unread

namespace Pipeworks.Runner

open Program (Path)

variable {es fs : Journal}

/-! ## What is decided in a journal -/

namespace Journal

/-- The time at which the section is begun: that of the last look at the clock before. -/
def begun? : Journal → Option Time.Instant
  | [] => none
  | ⟨.plain .clock, now⟩ :: ⟨.setLimit _, _⟩ :: _ => some now
  | _ :: es => begun? es

/-- The token has expired when the section is begun. -/
def isExpired (token : Token) (es : Journal) : Bool := (begun? es).any token.isExpiredAt

/-- There are more commands than can be numbered. -/
def hasTooMany (es : Journal) : Bool := (Journal.definition? es).any fun d => 2 ^ 31 < d.commands.length

/-- The category of the failure of a run. A token that has expired fails it before its section, and a command that
cannot be numbered after all of it. -/
def failure? (token : Token) (es : Journal) : Option FailureCategory :=
  if isExpired token es then some .fetch
  else if isCutOff es then some .timeout
  else (es.findSome? failedPhase?).or (if hasTooMany es then some .internal else none)

end Journal

/-! ## The section -/

def categoryOf {α : Type} : Except RunFault α → Option FailureCategory
  | .ok _ => none
  | .error f => some f.category

theorem category_ofResult (r : Except RunFault Unit) :
    (RunSummary.ofResult r).error.map FailureSummary.category = categoryOf r := by
  cases r <;> rfl

/-- The limit has struck just where there is no result. -/
theorem commands_isCutOff {id : Int64} {container : String} {n : Nat} {cmds : List String}
    {r : Option (Except RunFault Unit)} (h : Commands id container n cmds es r) :
    Journal.isCutOff es = r.isNone := by
  induction h with
  | succeeded result reported hlt hz hc ih => exact isCutOff_told.trans ih
  | _ => rfl

theorem provided_isCutOff {spec : ContainerSpec} {r : Option (Except RunFault String)} (h : Provided spec es r) :
    Journal.isCutOff es = r.isNone := by
  cases h <;> rfl

theorem commands_failure {id : Int64} {container : String} {n : Nat} {cmds : List String} {r : Except RunFault Unit}
    (h : Commands id container n cmds es (some r)) (hn : n ≤ 2 ^ 31) :
    categoryOf r =
      (es.findSome? failedPhase?).or (if 2 ^ 31 < n + cmds.length then some .internal else none) := by
  generalize hr : some r = result at h
  induction h with
  | finished n =>
    cases hr
    rw [List.length_nil, Nat.add_zero, if_neg (Nat.not_lt.2 hn)]
    rfl
  | @tooMany n cmd cmds hfull =>
    cases hr
    have hfull' : 2 ^ 31 ≤ n := hfull
    have hmany : 2 ^ 31 < n + (cmd :: cmds).length := by
      rw [List.length_cons]
      omega
    rw [if_pos hmany]
    rfl
  | cutOff hlt => cases hr
  | broken message hlt =>
    cases hr
    rfl
  | unreported result hlt => cases hr
  | failed result reported hlt hz =>
    cases hr
    simp [failedPhase?, hz, categoryOf, RunFault.category]
  | @succeeded n cmd cmds result reported es r hlt hz hc ih =>
    have hcount : n + (cmd :: cmds).length = n + 1 + cmds.length := by
      rw [List.length_cons]
      omega
    rw [ih hlt hr, hcount, List.findSome?_cons, List.findSome?_cons]
    simp only [failedPhase?, hz, if_true]

/-- A command that fails in a section that is cut off fails without its report coming back. -/
theorem commands_unreturned {id : Int64} {container : String} {n : Nat} {cmds : List String}
    (h : Commands id container n cmds es none) {c : FailureCategory} (hc : es.findSome? failedPhase? = some c) :
    c = .execution ∧ ∃ r : CommandOutput, ⟨.limited (.report (.output r)), none⟩ ∈ es ∧ r.exitCode ≠ 0 := by
  generalize hr : none = result at h
  induction h with
  | finished n => cases hr
  | tooMany hfull => cases hr
  | cutOff hlt => cases hc
  | broken message hlt => cases hr
  | @unreported n cmd cmds result hlt =>
    by_cases hz : result.exitCode = 0
    · simp [failedPhase?, hz] at hc
    · simp only [List.findSome?_cons, failedPhase?, hz, if_false, Option.some.injEq] at hc
      exact ⟨hc.symm, outputOf id n cmd result, by simp [outputOf], hz⟩
  | failed result reported hlt hz => cases hr
  | succeeded result reported hlt hz hcs ih =>
    simp only [List.findSome?_cons, failedPhase?, hz, if_true] at hc
    obtain ⟨hcategory, r, hmem, hexit⟩ := ih hc hr
    exact ⟨hcategory, r, List.mem_cons_of_mem _ (List.mem_cons_of_mem _ hmem), hexit⟩

theorem provided_failure {spec : ContainerSpec} {r : Except RunFault String} (h : Provided spec es (some r)) :
    categoryOf r = es.findSome? failedPhase? := by
  cases h <;> rfl

theorem provided_unreturned {spec : ContainerSpec} (h : Provided spec es none) : es.findSome? failedPhase? = none := by
  cases h <;> rfl

theorem provided_not_config {spec : ContainerSpec} {r : Option (Except RunFault String)} (h : Provided spec es r) :
    es.findSome? failedPhase? ≠ some .config := by
  cases h <;> nofun

theorem commands_not_config {id : Int64} {container : String} {n : Nat} {cmds : List String}
    {r : Option (Except RunFault Unit)} (h : Commands id container n cmds es r) :
    es.findSome? failedPhase? ≠ some .config := by
  induction h with
  | finished n => nofun
  | tooMany hn => nofun
  | cutOff hn => nofun
  | broken message hn => nofun
  | unreported result hn => by_cases hz : result.exitCode = 0 <;> simp [List.findSome?_cons, failedPhase?, hz]
  | failed result reported hn hz => simp [failedPhase?, hz]
  | succeeded result reported hn hz hc ih => simpa [List.findSome?_cons, failedPhase?, hz] using ih

section
variable {work : Work} {directory unique : String} {now : Time.Instant}

theorem sectioned_isCutOff {r : Option (Except RunFault Unit)} (h : Sectioned work directory unique now es r) :
    Journal.isCutOff es = r.isNone := by
  cases h with
  | unprovided hx hd hp => exact provided_isCutOff hp
  | provisionFailed hx hd hp => exact provided_isCutOff hp
  | @ran file d ps fs container r hx hd hp hc =>
    have happend : Journal.isCutOff (⟨.limited (fetching work directory), some (.ok file)⟩ :: (ps ++ fs)) =
        (Journal.isCutOff ps || Journal.isCutOff fs) := List.any_append
    rw [happend, provided_isCutOff hp, commands_isCutOff hc]
    rfl
  | _ => rfl

theorem sectioned_valid (h : Sectioned work directory unique now es none) : work.token.isExpiredAt now = false := by
  cases h <;> assumption

theorem sectioned_expired {r : Option (Except RunFault Unit)} (h : Sectioned work directory unique now es r)
    (hx : work.token.isExpiredAt now = true) : es = [] := by
  cases h with
  | expired => rfl
  | _ => simp_all

/-- The result of a section is that of its first phase that fails. -/
theorem sectioned_failure {r : Except RunFault Unit} (h : Sectioned work directory unique now es (some r)) :
    categoryOf r =
      if work.token.isExpiredAt now then some .fetch
      else (es.findSome? failedPhase?).or (if Journal.hasTooMany es then some .internal else none) := by
  cases h with
  | expired hx => rw [if_pos hx]; rfl
  | fetchFailed message hx =>
    rw [if_neg (by simp [hx])]
    rfl
  | @undefined file f hx hf =>
    obtain ⟨hrefused, hcategory⟩ := refused_of_error hf
    rw [if_neg (by simp [hx])]
    simp [failedPhase?, fetching, hrefused, categoryOf, hcategory]
  | @provisionFailed file d ps f hx hd hp =>
    rw [if_neg (by simp [hx]), List.findSome?_cons, fetched_failure hd, ← provided_failure hp]
    rfl
  | @ran file d ps fs container r hx hd hp hc =>
    have hdeclared := definition?_fetched work directory hd (ps ++ fs)
    have hmany : Journal.hasTooMany (⟨.limited (fetching work directory), some (.ok file)⟩ :: (ps ++ fs)) =
        decide (2 ^ 31 < d.commands.length) := by
      rw [Journal.hasTooMany, hdeclared, Option.any_some]
    have hcommands := commands_failure hc (Nat.zero_le _)
    rw [if_neg (by simp [hx]), hmany, List.findSome?_cons, fetched_failure hd, List.findSome?_append,
      ← provided_failure hp, hcommands, Nat.zero_add]
    simp [categoryOf]

/-- In a section that is cut off no phase has failed, but for a command whose failure is still being reported. -/
theorem sectioned_unreturned (h : Sectioned work directory unique now es none) {c : FailureCategory}
    (hc : es.findSome? failedPhase? = some c) :
    c = .execution ∧ ∃ r : CommandOutput, ⟨.limited (.report (.output r)), none⟩ ∈ es ∧ r.exitCode ≠ 0 := by
  cases h with
  | fetchCutOff hx => cases hc
  | unprovided hx hd hp =>
    rw [List.findSome?_cons, fetched_failure hd, provided_unreturned hp] at hc
    cases hc
  | ran hx hd hp hcs =>
    have hprovided : List.findSome? failedPhase? _ = none := (provided_failure hp).symm
    rw [List.findSome?_cons, fetched_failure hd, List.findSome?_append, hprovided, Option.none_or] at hc
    obtain ⟨hcategory, r, hmem, hexit⟩ := commands_unreturned hcs hc
    exact ⟨hcategory, r, List.mem_cons_of_mem _ (List.mem_append_right _ hmem), hexit⟩

/-- Where the definition is at fault, the section has only fetched it. -/
theorem sectioned_config {r : Option (Except RunFault Unit)}
    (h : Sectioned work directory unique now es r) (hconfig : es.findSome? failedPhase? = some .config) :
    ∃ file, es = [⟨.limited (fetching work directory), some (.ok file)⟩] := by
  cases h with
  | expired hx => cases hconfig
  | fetchCutOff hx => cases hconfig
  | fetchFailed message hx => cases hconfig
  | @undefined file f hx hf => exact ⟨file, rfl⟩
  | unprovided hx hd hp =>
    rw [List.findSome?_cons, fetched_failure hd] at hconfig
    exact absurd hconfig (provided_not_config hp)
  | provisionFailed hx hd hp =>
    rw [List.findSome?_cons, fetched_failure hd] at hconfig
    exact absurd hconfig (provided_not_config hp)
  | ran hx hd hp hc =>
    have hprovided : List.findSome? failedPhase? _ = none := (provided_failure hp).symm
    rw [List.findSome?_cons, fetched_failure hd, List.findSome?_append, hprovided, Option.none_or] at hconfig
    exact absurd hconfig (commands_not_config hc)

end

/-! ## What is decided -/

theorem failedPhase?_ne_timeout (e : Program.Event Call Call.Answer) : failedPhase? e ≠ some .timeout := by
  unfold failedPhase?
  split <;> simp

theorem failure?_timeout (token : Token) (es : Journal) :
    Journal.failure? token es = some .timeout ↔ Journal.isExpired token es = false ∧ Journal.isCutOff es = true := by
  have hfailed : es.findSome? failedPhase? ≠ some .timeout := by
    intro h
    obtain ⟨e, -, he⟩ := List.exists_of_findSome?_eq_some h
    exact failedPhase?_ne_timeout e he
  unfold Journal.failure?
  split
  · simp_all
  split
  · simp_all
  · cases hphase : es.findSome? failedPhase? with
    | none => split <;> simp_all
    | some c => simp_all

theorem failure?_config {token : Token} (h : Journal.failure? token es = some .config) :
    es.findSome? failedPhase? = some .config := by
  unfold Journal.failure? at h
  split at h
  · cases h
  split at h
  · cases h
  · cases hphase : es.findSome? failedPhase? with
    | none =>
      rw [hphase, Option.none_or] at h
      split at h <;> cases h
    | some c =>
      rw [hphase, Option.some_or] at h
      exact h

/-! ## The whole run -/

/-- What a run is to do within the limit: nothing, if there is no checkout for it or its token has expired. -/
def Journal.planned (work : Work) (unique : String) (es : Journal) : List Action :=
  match Journal.opened? es with
  | some (.ok directory) => if Journal.isExpired work.token es then [] else planOf work directory unique es
  | _ => []

/-- What is done with a container. -/
def Action.isDriver : Action → Bool
  | .pull _ | .create _ | .start _ | .exec _ _ | .stop _ | .remove _ => true
  | _ => false

/-- A run decides what its section in a checkout does. -/
structure SameDecision (token : Token) (directory : String) (now : Time.Instant) (run es : Journal) : Prop where
  opened : Journal.opened? run = some (.ok directory)
  expired : Journal.isExpired token run = token.isExpiredAt now
  steps : Journal.steps run = Journal.steps es
  declared : Journal.definition? run = Journal.definition? es
  container : Journal.container? run = Journal.container? es
  cutOff : Journal.isCutOff run = Journal.isCutOff es
  failed : run.findSome? failedPhase? = es.findSome? failedPhase?
  fetches : Journal.fetches run = Journal.fetches es
  subset : es ⊆ run

theorem SameDecision.tooMany {token : Token} {directory : String} {now : Time.Instant} {run : Journal}
    (h : SameDecision token directory now run es) : Journal.hasTooMany run = Journal.hasTooMany es := by
  unfold Journal.hasTooMany
  rw [h.declared]

/-- A run without a checkout, or one that decides what its section does. -/
inductive Decided (limit : Time.Span) (work : Work) (unique : String) : Journal → RunSummary → Prop
  | noCheckout {run : Journal} (reason : String) :
      Journal.opened? run = some (.error reason) → Journal.steps run = [] →
      Journal.isExpired work.token run = false → Journal.isCutOff run = false →
      run.findSome? failedPhase? = some .internal →
      Decided limit work unique run (.ofResult (.error (.noCheckout reason)))
  | ofSection {run es : Journal} {directory : String} {now : Time.Instant} {r : Option (Except RunFault Unit)}
      {t : Traces} :
      Path (withinLimit {} (runSection work directory unique now)) es (r, t) →
      SameDecision work.token directory now run es →
      (t.container = none → ∀ e ∈ run, e ∈ es ∨ ∀ a, e.call.action? = some a → a.isDriver = false) →
      Decided limit work unique run (.ofResult (r.getD (.error (.timeout limit))))

/-- A call that decides nothing. -/
structure IsSettled (e : Program.Event Call Call.Answer) : Prop where
  failed : failedPhase? e = none
  cutOff : isCutOff e = false
  declared : definition? e = none
  created : created? e = none
  step : isStep e = false

theorem IsSettled.plain {a : Action} {answer : a.Answer} (h : failedPhase? ⟨.plain a, answer⟩ = none) :
    IsSettled ⟨.plain a, answer⟩ := ⟨h, rfl, rfl, rfl, rfl⟩

theorem findSome?_around {β : Type} {f : Program.Event Call Call.Answer → Option β} {front back : Journal}
    (hfront : ∀ e ∈ front, f e = none) (hback : ∀ e ∈ back, f e = none) :
    (front ++ (es ++ back)).findSome? f = es.findSome? f := by
  rw [List.findSome?_append, List.findSome?_append, List.findSome?_eq_none_iff.2 hfront,
    List.findSome?_eq_none_iff.2 hback, Option.none_or, Option.or_none]

theorem steps_around {front back : Journal} (hfront : ∀ e ∈ front, isStep e = false)
    (hback : ∀ e ∈ back, isStep e = false) : Journal.steps (front ++ (es ++ back)) = Journal.steps es := by
  have hnone : ∀ {es : Journal}, (∀ e ∈ es, isStep e = false) → es.filter isStep = [] := fun h =>
    List.filter_eq_nil_iff.2 fun e he => by simp [h e he]
  unfold Journal.steps
  rw [List.filter_append, List.filter_append, hnone hfront, hnone hback, List.nil_append, List.append_nil]

/-- The calls before the section and after it decide nothing. -/
theorem sameDecision_around (limit : Time.Span) (id : Int64) (directory : String) (now startedAt : Time.Instant)
    (started : Except String Unit) (token : Token) (es : Journal) {back : Journal} (hback : ∀ e ∈ back, IsSettled e)
    (hfetches : Journal.fetches back = []) :
    SameDecision token directory now
      (opening id startedAt started ++ (entering limit id directory now ++ (es ++ back))) es := by
  have hfront : ∀ e ∈ opening id startedAt started ++ entering limit id directory now, IsSettled e := by
    simp only [opening, entering, List.cons_append, List.nil_append, List.forall_mem_cons]
    exact ⟨.plain rfl, .plain rfl, .plain rfl, .plain rfl, ⟨rfl, rfl, rfl, rfl, rfl⟩, List.forall_mem_nil _⟩
  have hexpired : Journal.isExpired token
    (opening id startedAt started ++ (entering limit id directory now ++ (es ++ back))) = token.isExpiredAt now := rfl
  have hopened : Journal.opened?
    (opening id startedAt started ++ (entering limit id directory now ++ (es ++ back))) = some (.ok directory) := rfl
  rw [← List.append_assoc] at hexpired hopened ⊢
  exact {
    opened := hopened
    expired := hexpired
    steps := steps_around (fun e he => (hfront e he).step) fun e he => (hback e he).step
    declared := findSome?_around (fun e he => (hfront e he).declared) fun e he => (hback e he).declared
    container := findSome?_around (fun e he => (hfront e he).created) fun e he => (hback e he).created
    cutOff := isCutOff_around es (fun e he => (hfront e he).cutOff) fun e he => (hback e he).cutOff
    failed := findSome?_around (fun e he => (hfront e he).failed) fun e he => (hback e he).failed
    fetches := fetches_around rfl hfetches
    subset := fun e he => List.mem_append_right _ (List.mem_append_left _ he) }

theorem decided_of_executed {limit : Time.Span} {work : Work} {unique : String} {summary : RunSummary}
    (h : Executed limit work unique es summary) : Decided limit work unique es summary := by
  obtain ⟨startedAt, finishedAt, started, finished, uploaded, hc⟩ := h
  cases hc with
  | noCheckout reason => exact .noCheckout reason rfl rfl rfl rfl rfl
  | @noContainer directory now closed es r t hs hnone =>
    rw [List.append_assoc, List.append_assoc]
    refine .ofSection hs (sameDecision_around _ _ _ _ _ _ _ _ ?_ rfl) fun _ e he => ?_
    · simp only [closing, List.cons_append, List.nil_append, List.forall_mem_cons]
      exact ⟨.plain rfl, .plain rfl, .plain rfl, .plain rfl, List.forall_mem_nil _⟩
    have haround : ∀ e ∈ opening work.pipeline.id startedAt started ++ (entering limit work.pipeline.id directory now ++
        (⟨.plain (.closeCheckout directory), closed⟩ :: closing work.pipeline.id t.transcript uploaded finishedAt
          (.ofResult (r.getD (.error (.timeout limit)))) finished)),
        ∀ a, e.call.action? = some a → a.isDriver = false := by
      simp [opening, entering, closing, Call.action?, Action.isDriver]
    by_cases hsection : e ∈ es
    · exact .inl hsection
    · exact .inr (haround e (by simpa [hsection] using he))
  | @tornDown directory now stopped removed closed es r t container hs hsome =>
    rw [List.append_assoc, List.append_assoc]
    refine .ofSection hs (sameDecision_around _ _ _ _ _ _ _ _ ?_ rfl) fun hnone => ?_
    · simp only [closing, List.cons_append, List.nil_append, List.forall_mem_cons]
      exact ⟨.plain rfl, .plain rfl, .plain rfl, .plain rfl, .plain rfl, .plain rfl, List.forall_mem_nil _⟩
    · rw [hsome] at hnone
      cases hnone

section
variable {limit : Time.Span} {work : Work} {unique : String} {summary : RunSummary}

/-- The summary tells of the failure that the journal shows. -/
theorem Decided.failure (h : Decided limit work unique es summary) :
    summary.error.map FailureSummary.category = Journal.failure? work.token es := by
  cases h with
  | noCheckout reason hopened hsteps hexpired hcut hfailed =>
    rw [Journal.failure?, hexpired, hcut, hfailed]
    rfl
  | @ofSection es directory now r t hs hsame hdriver =>
    have hsectioned := sectioned_of_path hs
    rw [Journal.failure?, hsame.expired, hsame.cutOff, hsame.failed, hsame.tooMany, sectioned_isCutOff hsectioned,
      category_ofResult]
    cases r with
    | none =>
      rw [sectioned_valid hsectioned]
      rfl
    | some r => exact sectioned_failure hsectioned

theorem Decided.success (h : Decided limit work unique es summary) :
    summary.outcome = .success ↔ Journal.failure? work.token es = none := by
  have hresult : ∀ r, (RunSummary.ofResult r).outcome = .success ↔
      (RunSummary.ofResult r).error.map FailureSummary.category = none := by
    rintro (f | _) <;> simp [RunSummary.ofResult]
  rw [← h.failure]
  cases h <;> exact hresult _

/-- A checkout is asked for, and the plan is followed. -/
theorem Decided.follows (h : Decided limit work unique es summary) :
    (Journal.opened? es).isSome ∧ Follows (Journal.planned work unique es) es := by
  cases h with
  | noCheckout reason hopened hsteps hexpired hcut hfailed =>
    have hplanned : Journal.planned work unique es = [] := by
      unfold Journal.planned
      rw [hopened]
    rw [hopened, hplanned]
    refine ⟨rfl, ?_⟩
    constructor <;> rw [hsteps]
    case inOrder => exact List.prefix_rfl
    case succeeded => exact List.forall_mem_nil _
    case whole => exact fun _ _ => rfl
  | @ofSection within directory now r t hs hsame hdriver =>
    have hsectioned := sectioned_of_path hs
    have hplanned : Journal.planned work unique es =
        if work.token.isExpiredAt now then [] else planOf work directory unique within := by
      unfold Journal.planned planOf
      rw [hsame.opened, hsame.expired, hsame.declared, hsame.container]
    rw [hsame.opened, hplanned]
    refine ⟨rfl, .congr ?_ hsame.steps hsame.failed hsame.cutOff⟩
    cases hx : work.token.isExpiredAt now with
    | true =>
      rw [sectioned_expired hsectioned hx]
      exact .nil
    | false => exact sectioned_follows hsectioned hx

/-- Where the token has expired, nothing is fetched, and the limit does not strike. -/
theorem Decided.expired (h : Decided limit work unique es summary) (hx : Journal.isExpired work.token es = true) :
    Journal.fetches es = [] ∧ Journal.isCutOff es = false := by
  cases h with
  | noCheckout reason hopened hsteps hexpired hcut hfailed =>
    rw [hexpired] at hx
    cases hx
  | ofSection hs hsame hdriver =>
    rw [hsame.expired] at hx
    rw [hsame.fetches, hsame.cutOff, sectioned_expired (sectioned_of_path hs) hx]
    exact ⟨rfl, rfl⟩

/-- The run has timed out just where the limit has struck. -/
theorem Decided.timeout (h : Decided limit work unique es summary) :
    summary.error.map FailureSummary.category = some .timeout ↔ Journal.isCutOff es = true := by
  rw [h.failure, failure?_timeout]
  constructor
  · exact fun hboth => hboth.2
  · intro hcut
    refine ⟨?_, hcut⟩
    by_contra hx
    have huncut := (h.expired (by simpa using hx)).2
    rw [huncut] at hcut
    cases hcut

theorem Decided.unreturned (h : Decided limit work unique es summary) (hcut : Journal.isCutOff es = true)
    {c : FailureCategory} (hc : es.findSome? failedPhase? = some c) :
    c = .execution ∧ ∃ r : CommandOutput, ⟨.limited (.report (.output r)), none⟩ ∈ es ∧ r.exitCode ≠ 0 := by
  cases h with
  | noCheckout reason hopened hsteps hexpired huncut hfailed =>
    rw [huncut] at hcut
    cases hcut
  | ofSection hs hsame hdriver =>
    have hsectioned := sectioned_of_path hs
    rw [hsame.cutOff, sectioned_isCutOff hsectioned, Option.isNone_iff_eq_none] at hcut
    subst hcut
    obtain ⟨hcategory, told, hmem, hexit⟩ := sectioned_unreturned hsectioned (hsame.failed ▸ hc)
    exact ⟨hcategory, told, hsame.subset hmem, hexit⟩

/-- Where the definition is at fault, nothing is done with containers. -/
theorem Decided.config (h : Decided limit work unique es summary)
    (hconfig : summary.error.map FailureSummary.category = some .config) :
    ∀ e ∈ es, ∀ a, e.call.action? = some a → a.isDriver = false := by
  rw [h.failure] at hconfig
  have hphase := failure?_config hconfig
  cases h with
  | noCheckout reason hopened hsteps hexpired hcut hfailed =>
    rw [hfailed] at hphase
    cases hphase
  | @ofSection es directory now r t hs hsame hdriver =>
    rw [hsame.failed] at hphase
    obtain ⟨file, rfl⟩ := sectioned_config (sectioned_of_path hs) hphase
    -- nothing was asked for within the section, and so nothing is torn down after it
    have hnone : t.container = none := by rw [traces_of_path hs]; rfl
    intro e he a ha
    rcases hdriver hnone e he with hfetch | hquiet
    · rw [List.mem_singleton.1 hfetch] at ha
      cases ha
      rfl
    · exact hquiet a ha

end

/-- The first phase of a run that fails decides the category of its failure: the checkout, the token, the fetch, the
definition, the container and the commands. They are gone through one after the other, each once those before it have
succeeded, and up to the last if none fails. An expired token is not used, and a definition that is refused leads to
no container. The limit decides just where it cuts the section off, and then none of these has been returned: a command
may have failed, but its report is still being made. What becomes of reports, and of all that is done after the
section, makes no difference. -/
theorem first_failure_decides (limit : Time.Span) (work : Work) (unique : String) {σ : Type}
    (world : Program.Handler Call Call.Answer σ) (s : σ) :
    let es := (execute limit work unique).trace world s
    let summary := ((execute limit work unique).run world s).1
    let category := summary.error.map FailureSummary.category
    ((Journal.opened? es).isSome ∧ Follows (Journal.planned work unique es) es) ∧
      category = Journal.failure? work.token es ∧
      (summary.outcome = .success ↔ Journal.failure? work.token es = none) ∧
      (Journal.isExpired work.token es = true → Journal.fetches es = []) ∧
      (category = some .config → ∀ e ∈ es, ∀ a, e.call.action? = some a → a.isDriver = false) ∧
      (category = some .timeout ↔ Journal.isCutOff es = true) ∧
      (Journal.isCutOff es = true → ∀ c, es.findSome? failedPhase? = some c →
        c = .execution ∧ ∃ r : CommandOutput, ⟨.limited (.report (.output r)), none⟩ ∈ es ∧ r.exitCode ≠ 0) ∧
      ∀ es', List.Forall₂ (Program.Event.Swapped Call.Alike) es es' → Path (execute limit work unique) es' summary := by
  intro es summary category
  have hdecided : Decided limit work unique es summary :=
    decided_of_executed (executed_trace limit work unique world s)
  refine ⟨hdecided.follows, hdecided.failure, hdecided.success, fun hx => (hdecided.expired hx).1,
    hdecided.config, hdecided.timeout, fun hcut c hc => hdecided.unreturned hcut hc, ?_⟩
  intro es' hes
  exact (execute_ignores limit work unique).path (Program.path_trace world _ s) hes

end Pipeworks.Runner
