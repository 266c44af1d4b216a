/-
The jobs of a definition as a tree: names with lists of steps, each one command or a list of them. The jobs that are
made of the values of a tree are those that the tree describes (`jobs_iff`), and of no other tree are any made.
-/
import Pipeworks.Definition.Reader
import Pipeworks.Proofs.Yaml.Tree

namespace Pipeworks.Definition

open Yaml (AreFresh Scalar DocTree Value scalarSays)

variable {t : DocTree} {depth : Nat}

/-! ## The format -/

def IsString (t : DocTree) (s : String) : Prop := t.Says (.string s)

/-- A step: a string is one command, and a sequence of strings is a list of them. -/
inductive IsStep : DocTree → List String → Prop
  | one {t : DocTree} {cmd : String} : IsString t cmd → IsStep t [cmd]
  | several {items : List DocTree} {cmds : List String} :
      List.Forall₂ IsString items cmds → IsStep (.sequence items) cmds

/-- The steps of a job; nothing at all stands for none. -/
inductive AreSteps : DocTree → List (List String) → Prop
  | none {t : DocTree} : t.Says .null → AreSteps t []
  | some {items : List DocTree} {steps : List (List String)} :
      List.Forall₂ IsStep items steps → AreSteps (.sequence items) steps

def IsJob (entry : DocTree × DocTree) (job : Job) : Prop := IsString entry.1 job.name ∧ AreSteps entry.2 job.steps

/-! ## Values of trees -/

theorem means_string_iff {s : String} : t.Means depth (.string s) ↔ IsString t s := by
  have hvalue : ∀ scalar : Scalar, scalar.value = .ok (.string s) ↔ scalar = .string s := by
    rintro (_ | _ | _ | _ | _) <;> simp [Scalar.value, Yaml.Fault.at]
  cases t <;> cases depth <;> simp [DocTree.Means, IsString, DocTree.Says, hvalue]

theorem means_null_iff : t.Means depth .null ↔ t.Says .null := by
  have hvalue : ∀ scalar : Scalar, scalar.value = .ok .null ↔ scalar = .null := by
    rintro (_ | _ | _ | _ | _) <;> simp [Scalar.value, Yaml.Fault.at]
  cases t <;> cases depth <;> simp [DocTree.Means, DocTree.Says, hvalue]

theorem means_sequence_iff {vs : List Value} : t.Means (depth + 1) (.sequence vs) ↔
    ∃ items, t = .sequence items ∧ List.Forall₂ (DocTree.Means depth) items vs := by
  have hvalue : ∀ scalar : Scalar, scalar.value ≠ .ok (.sequence vs) := by
    rintro (_ | _ | _ | _ | _) <;> simp [Scalar.value, Yaml.Fault.at]
  cases t <;> simp [DocTree.Means, hvalue]

/-- The values of trees are without tags. -/
theorem means_untagged {v : Value} (h : t.Means depth v) : v.holdsTag = false := by
  have hvalue : ∀ (scalar : Scalar) (v : Value), scalar.value = .ok v → v.holdsTag = false := by
    rintro (_ | _ | _ | _ | _) v h <;> cases h <;> rfl
  induction depth generalizing t v with
  | zero =>
    cases t with
    | scalar text plain => exact hvalue _ _ h
    | sequence items => exact h.elim
    | mapping entries => exact h.elim
  | succ depth ih =>
    have hitems : ∀ {ts vs}, List.Forall₂ (DocTree.Means depth) ts vs → Value.itemsHoldTag vs = false := by
      intro ts vs hall
      induction hall with
      | nil => rfl
      | cons hv _ ihRest => simp [Value.itemsHoldTag, ih hv, ihRest]
    have hentries : ∀ {es fs}, List.Forall₂ (fun (e : DocTree × DocTree) (f : Value × Value) =>
        e.1.Means depth f.1 ∧ e.2.Means depth f.2) es fs → Value.entriesHoldTag fs = false := by
      intro es fs hall
      induction hall with
      | nil => rfl
      | cons hv _ ihRest => simp [Value.entriesHoldTag, ih hv.1, ih hv.2, ihRest]
    match t, v with
    | .scalar text plain, v => exact hvalue _ _ h
    | .sequence items, .sequence vs => exact hitems h
    | .mapping entries, .mapping es => exact hentries h.1

/-! ## Steps -/

theorem strings?_iff {vs : List Value} {ss : List String} : strings? vs = some ss ↔ vs = ss.map .string := by
  induction vs generalizing ss with
  | nil => cases ss <;> simp [strings?]
  | cons v vs ih =>
    cases v <;> cases ss <;> simp [strings?, ih, and_comm]

theorem readStep_iff {step : List String} :
    (∃ v, t.Means (depth + 1) v ∧ readStep v = .ok step) ↔ IsStep t step := by
  constructor
  · rintro ⟨v, hmeans, hread⟩
    unfold readStep at hread
    rw [if_neg (by simp [means_untagged hmeans])] at hread
    cases v with
    | string s =>
      cases hread
      exact .one (means_string_iff.1 hmeans)
    | sequence vs =>
      obtain ⟨items, rfl, hall⟩ := means_sequence_iff.1 hmeans
      dsimp only at hread
      split at hread
      case h_1 cmds hstrings =>
        cases hread
        rw [strings?_iff.1 hstrings, List.forall₂_map_right_iff] at hall
        exact .several (hall.imp fun _ _ h => means_string_iff.1 h)
      case h_2 => cases hread
    | _ => cases hread
  · intro h
    cases h with
    | one hstring => exact ⟨.string _, means_string_iff.2 hstring, rfl⟩
    | @several items _ hall =>
      have hmeans : (DocTree.sequence items).Means (depth + 1) (.sequence (step.map .string)) :=
        List.forall₂_map_right_iff.2 (hall.imp fun _ _ h => means_string_iff.2 h)
      refine ⟨_, hmeans, ?_⟩
      unfold readStep
      rw [if_neg (by simp [means_untagged hmeans])]
      simp [strings?_iff.2 rfl]

theorem readSteps_iff {steps : List (List String)} :
    (∃ v, t.Means (depth + 2) v ∧ readSteps v = .ok steps) ↔ AreSteps t steps := by
  have hitems : ∀ {items : List DocTree}, (∃ vs, List.Forall₂ (DocTree.Means (depth + 1)) items vs ∧
      vs.mapM readStep = .ok steps) ↔ List.Forall₂ IsStep items steps := by
    intro items
    simp only [mapM_eq_ok_iff, forall₂_through, readStep_iff]
  constructor
  · rintro ⟨v, hmeans, hread⟩
    cases v with
    | null =>
      cases hread
      exact .none (means_null_iff.1 hmeans)
    | sequence vs =>
      obtain ⟨items, rfl, hall⟩ := means_sequence_iff.1 hmeans
      exact .some (hitems.1 ⟨vs, hall, hread⟩)
    | tagged tag content => exact absurd (means_untagged hmeans) (by simp [Value.holdsTag])
    | _ => cases hread
  · intro h
    cases h with
    | none hnull => exact ⟨.null, means_null_iff.2 hnull, rfl⟩
    | some hall =>
      obtain ⟨vs, hvs, hread⟩ := hitems.2 hall
      exact ⟨.sequence vs, hvs, hread⟩

/-! ## Jobs -/

theorem readJob_iff {key steps : Value} {job : Job} : readJob key steps = .ok job ↔
    key = .string job.name ∧ readSteps steps = .ok job.steps ∧ job.steps.flatten.any Text.isBlankText = false := by
  obtain ⟨name, read⟩ := job
  cases key with
  | string s =>
    unfold readJob
    dsimp only
    cases hsteps : readSteps steps with
    | error f => simp
    | ok found =>
      dsimp only
      cases hblank : found.flatten.any Text.isBlankText with
      | true =>
        simp only [if_true, Value.string.injEq, Except.ok.injEq]
        constructor
        · nofun
        · rintro ⟨-, rfl, hnone⟩
          rw [hblank] at hnone
          cases hnone
      | false =>
        simp only [Bool.false_eq_true, if_false, Value.string.injEq, Except.ok.injEq, Job.mk.injEq]
        constructor
        · rintro ⟨rfl, rfl⟩
          exact ⟨rfl, rfl, hblank⟩
        · rintro ⟨rfl, rfl, -⟩
          exact ⟨rfl, rfl⟩
  | _ => simp [readJob]

/-- Entries of which jobs are made have strings for keys, which are fresh exactly if the names of the jobs are. -/
theorem areFresh_iff {found es : List (Value × Value)} {olds names : List String}
    (hfound : found.map Prod.fst = olds.map .string) (hes : es.map Prod.fst = names.map .string) :
    AreFresh found es ↔ names.Nodup ∧ ∀ name ∈ names, name ∉ olds := by
  induction names generalizing found es olds with
  | nil =>
    have hnil : es = [] := by simpa using hes
    simp [hnil, AreFresh]
  | cons name names ih =>
    cases es with
    | nil => cases hes
    | cons e es =>
      obtain ⟨key, value⟩ := e
      obtain ⟨rfl, hkeys⟩ := List.cons.inj hes
      have hany : (found.map Prod.fst).any (Value.string name).same = false ↔ name ∉ olds := by
        rw [hfound, List.any_map, List.any_eq_false]
        simp only [Function.comp_apply, Value.same, beq_iff_eq]
        exact ⟨fun h hmem => h name hmem rfl, fun h old hold heq => h (heq ▸ hold)⟩
      have hfound' : ((Value.string name, value) :: found).map Prod.fst = (name :: olds).map .string := by simp [hfound]
      rw [AreFresh, Yaml.any_same, hany, ih hfound' hkeys]
      simp only [List.nodup_cons, List.mem_cons, not_or, forall_eq_or_imp]
      constructor
      · rintro ⟨hold, hnodup, hall⟩
        exact ⟨⟨fun hmem => (hall name hmem).1 rfl, hnodup⟩, hold, fun a ha => (hall a ha).2⟩
      · rintro ⟨⟨hnew, hnodup⟩, hold, hall⟩
        exact ⟨hold, hnodup, fun a ha => ⟨fun h => hnew (h ▸ ha), hall a ha⟩⟩

/-- The job of an entry. -/
theorem entry_iff {entry : DocTree × DocTree} {job : Job} :
    (∃ e : Value × Value, (entry.1.Means (depth + 2) e.1 ∧ entry.2.Means (depth + 2) e.2) ∧ readJob e.1 e.2 = .ok job) ↔
      IsJob entry job ∧ job.steps.flatten.any Text.isBlankText = false := by
  simp only [readJob_iff]
  constructor
  · rintro ⟨⟨_, steps⟩, ⟨hkey, hsteps⟩, rfl, hread, hblank⟩
    exact ⟨⟨means_string_iff.1 hkey, readSteps_iff.1 ⟨steps, hsteps, hread⟩⟩, hblank⟩
  · rintro ⟨⟨hname, hsteps⟩, hblank⟩
    obtain ⟨steps, hmeans, hread⟩ := readSteps_iff.2 hsteps
    exact ⟨(.string job.name, steps), ⟨means_string_iff.2 hname, hmeans⟩, rfl, hread, hblank⟩

/-- The jobs that are made of the values of a mapping are those that it describes, each with a name of its own and
without blank commands. -/
theorem jobs_iff {entries : List (DocTree × DocTree)} {jobs : List Job} :
    (∃ es, (DocTree.mapping entries).Means (depth + 3) (.mapping es) ∧
      es.mapM (fun (key, steps) => readJob key steps) = .ok jobs) ↔
    List.Forall₂ IsJob entries jobs ∧ (jobs.map Job.name).Nodup ∧
      ∀ job ∈ jobs, job.steps.flatten.any Text.isBlankText = false := by
  have hkeys : ∀ {es : List (Value × Value)},
      List.Forall₂ (fun (e : Value × Value) job => readJob e.1 e.2 = .ok job) es jobs →
        es.map Prod.fst = (jobs.map Job.name).map .string := by
    intro es hall
    induction hall with
    | nil => rfl
    | cons hjob _ ih => simp [(readJob_iff.1 hjob).1, ih]
  have hfresh : ∀ {es : List (Value × Value)}, es.map Prod.fst = (jobs.map Job.name).map .string →
      (AreFresh [] es ↔ (jobs.map Job.name).Nodup) := by
    intro es hes
    have hnone : ([] : List (Value × Value)).map Prod.fst = ([] : List String).map .string := rfl
    simp [areFresh_iff hnone hes]
  have hentries : List.Forall₂ IsJob entries jobs ∧ (∀ job ∈ jobs, job.steps.flatten.any Text.isBlankText = false) ↔
      ∃ es, List.Forall₂ (fun (entry : DocTree × DocTree) (e : Value × Value) =>
        entry.1.Means (depth + 2) e.1 ∧ entry.2.Means (depth + 2) e.2) entries es ∧
        List.Forall₂ (fun (e : Value × Value) job => readJob e.1 e.2 = .ok job) es jobs := by
    simp only [forall₂_through, entry_iff, forall₂_and_right]
  constructor
  · rintro ⟨es, ⟨hmeans, hnew⟩, hread⟩
    have hjobs := mapM_eq_ok_iff.1 hread
    obtain ⟨hall, hblank⟩ := hentries.2 ⟨es, hmeans, hjobs⟩
    exact ⟨hall, (hfresh (hkeys hjobs)).1 hnew, hblank⟩
  · rintro ⟨hall, hnodup, hblank⟩
    obtain ⟨es, hmeans, hjobs⟩ := hentries.1 ⟨hall, hblank⟩
    exact ⟨es, ⟨hmeans, (hfresh (hkeys hjobs)).2 hnodup⟩, mapM_eq_ok_iff.2 hjobs⟩

end Pipeworks.Definition
