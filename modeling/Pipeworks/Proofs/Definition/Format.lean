/-
Which texts hold a definition, and which one: those of which the members describe one (`ofText_iff`). The members are
those of the document as a tree, and what the definition says is read off them, part by part (`Describes`). Where there
are no tags, no other mapping is accepted (`exists_isRecord`).
-/
import Pipeworks.Proofs.Definition.Checks
import Pipeworks.Proofs.Definition.Jobs
import Pipeworks.Proofs.Yaml.Untagged

namespace Pipeworks.Definition

open Yaml (Context Document Node Reads DocTree Value fault_ne_ok within_eq_ok)

variable {α : Type} {c : Context} {depth jumps last : Nat} {es : List (Node × Node)} {key : String}
  {members : List (String × Option DocTree)}

/-! ## Members -/

/-- The members that a definition is made of. -/
def parts : List String := ["name", "image", "jobs"]

/-- The members of a document, whose keys are scalars: those of a definition with the trees that they are read as. Of
others it is seen that they are complete. -/
inductive ReadsMembers (c : Context) : Nat → List (Node × Node) → List (String × Option DocTree) → Nat → Prop
  | nil (jumps : Nat) : ReadsMembers c jumps [] [] jumps
  | part {jumps inside after last : Nat} {k v : Node} {keyTree t : DocTree} {key : String} {es : List (Node × Node)}
      {members : List (String × Option DocTree)} :
      Reads c jumps [k] [keyTree] inside → keyTree.IsText key → key ∈ parts → Reads c inside [v] [t] after →
      ReadsMembers c after es members last → ReadsMembers c jumps ((k, v) :: es) ((key, some t) :: members) last
  | other {jumps after last : Nat} {k v : Node} {keyTree : DocTree} {key : String} {es : List (Node × Node)}
      {members : List (String × Option DocTree)} :
      Reads c jumps [k] [keyTree] after → keyTree.IsText key → key ∉ parts → v.sound = true →
      ReadsMembers c after es members last → ReadsMembers c jumps ((k, v) :: es) ((key, none) :: members) last

/-- What has been found of a member once all members have been taken: what there was before, or what the tree of the
member stands for, if nothing was there. -/
def Taken (R : DocTree → α → Prop) (key : String) (members : List (String × Option DocTree)) (old new : Option α) :
    Prop :=
  match members.lookup key with
  | some (some t) => old = none ∧ ∃ a, R t a ∧ new = some a
  | _ => new = old

section
variable {R : DocTree → α → Prop} {old new : Option α} {t : DocTree} {other : String} {member : Option DocTree}

theorem taken_other (h : key ≠ other) :
    Taken R key ((other, member) :: members) old new ↔ Taken R key members old new := by
  unfold Taken
  rw [List.lookup_cons, beq_false_of_ne h]

theorem taken_part (h : key ∉ members.map Prod.fst) : Taken R key ((key, some t) :: members) old new ↔
    old = none ∧ ∃ a, R t a ∧ Taken R key members (some a) new := by
  have hnone : members.lookup key = none := List.lookup_eq_none_iff.2 fun member hmember =>
    bne_iff_ne.2 fun heq => h (List.mem_map.2 ⟨member, hmember, heq.symm⟩)
  unfold Taken
  simp [hnone]

end

/-- A member that is taken once, and what comes of the rest. -/
theorem once_bind_iff {β : Type} {R : α → Prop} {old : Option α} {k : Node} {read : Except Yaml.Fault (α × Nat)}
    {f : Option α × Nat → Except Yaml.Fault β} {b : β} (hread : ∀ a after, read = .ok (a, after) ↔ R a ∧ after = last) :
    Yaml.once key old k read >>= f = .ok b ↔ old = none ∧ ∃ a, R a ∧ f (some a, last) = .ok b := by
  unfold Yaml.once
  cases old with
  | some a => simp [bind_eq_ok_iff, fault_ne_ok]
  | none =>
    simp only [Option.isSome_none, Bool.false_eq_true, if_false, bind_eq_ok_iff, within_eq_ok, true_and]
    constructor
    · rintro ⟨_, ⟨⟨a, after⟩, hok, h⟩, hf⟩
      cases h
      obtain ⟨ha, rfl⟩ := (hread a after).1 hok
      exact ⟨a, ha, hf⟩
    · rintro ⟨a, ha, hf⟩
      exact ⟨(some a, last), ⟨(a, last), (hread a last).2 ⟨ha, rfl⟩, rfl⟩, hf⟩

/-- Members are taken as they are, each once. -/
theorem takeMembers_iff {found new : Members} (h : ReadsMembers c jumps es members last)
    (hkeys : (members.map Prod.fst).Nodup) : takeMembers c depth jumps found es = .ok new ↔
      Taken DocTree.IsText "name" members found.name new.name ∧
        Taken DocTree.IsText "image" members found.image new.image ∧
        Taken (DocTree.HasEntries depth) "jobs" members found.jobs new.jobs := by
  induction h generalizing found with
  | nil jumps =>
    obtain ⟨name, image, jobs⟩ := found
    obtain ⟨name', image', jobs'⟩ := new
    simp [takeMembers, Taken, eq_comm]
  | @part jumps inside after last k v keyTree t key es members hkey htext hpart hvalue hrest ih =>
    have hread : c.text "field identifier" jumps k = .ok (key, inside) := (Yaml.text_iff hkey).2 ⟨htext, rfl⟩
    obtain ⟨hnew, hothers⟩ := List.nodup_cons.1 hkeys
    simp only [parts, List.mem_cons, List.not_mem_nil, or_false] at hpart
    rcases hpart with rfl | rfl | rfl
    · have hstep : takeMembers c depth jumps found ((k, v) :: es) =
          Yaml.once "name" found.name k (c.text "a string" inside v) >>= fun r =>
            takeMembers c depth r.2 { found with name := r.1 } es := by
        rw [takeMembers, hread]
        rfl
      rw [hstep, once_bind_iff fun _ _ => Yaml.text_iff hvalue, taken_part hnew, taken_other (by decide),
        taken_other (by decide)]
      simp only [ih hothers]
      tauto
    · have hstep : takeMembers c depth jumps found ((k, v) :: es) =
          Yaml.once "image" found.image k (c.text "a string" inside v) >>= fun r =>
            takeMembers c depth r.2 { found with image := r.1 } es := by
        rw [takeMembers, hread]
        rfl
      rw [hstep, once_bind_iff fun _ _ => Yaml.text_iff hvalue, taken_part hnew, taken_other (by decide),
        taken_other (by decide)]
      simp only [ih hothers]
      tauto
    · have hstep : takeMembers c depth jumps found ((k, v) :: es) =
          Yaml.once "jobs" found.jobs k (c.entries "a YAML mapping" depth inside v) >>= fun r =>
            takeMembers c depth r.2 { found with jobs := r.1 } es := by
        rw [takeMembers, hread]
        rfl
      rw [hstep, once_bind_iff fun _ _ => Yaml.entries_iff hvalue, taken_part hnew, taken_other (by decide),
        taken_other (by decide)]
      simp only [ih hothers]
      tauto
  | @other jumps after last k v keyTree key es members hkey htext hother hsound hrest ih =>
    have hread : c.text "field identifier" jumps k = .ok (key, after) := (Yaml.text_iff hkey).2 ⟨htext, rfl⟩
    simp only [parts, List.mem_cons, List.not_mem_nil, or_false, not_or] at hother
    obtain ⟨hname, himage, hjobs⟩ := hother
    have hstep : takeMembers c depth jumps found ((k, v) :: es) = takeMembers c depth after found es := by
      rw [takeMembers, hread]
      simp [bind, Except.bind, hsound]
    rw [hstep, ih (List.nodup_cons.1 hkeys).2, taken_other (Ne.symm hname), taken_other (Ne.symm himage),
      taken_other (Ne.symm hjobs)]

/-! ## What is written -/

/-- A member is there, and what its tree stands for. -/
def Has (R : DocTree → α → Prop) (key : String) (members : List (String × Option DocTree)) (a : α) : Prop :=
  ∃ t, members.lookup key = some (some t) ∧ R t a

theorem taken_some {R : DocTree → α → Prop} {a : α} : Taken R key members none (some a) ↔ Has R key members a := by
  unfold Taken Has
  split
  case h_1 t hlookup => simp [hlookup]
  case h_2 hnone =>
    constructor
    · nofun
    · rintro ⟨t, hlookup, -⟩
      exact (hnone t hlookup).elim

theorem needed_eq_ok {found : Option α} {a : α} {name : String} : Yaml.needed name found = .ok a ↔ found = some a := by
  cases found <;> simp [Yaml.needed, fault_ne_ok]

/-- What is written is found: the name and the image are there, and the jobs may be. -/
theorem readMembers_iff {w : Written} (h : ReadsMembers c 0 es members last) (hkeys : (members.map Prod.fst).Nodup) :
    readMembers c depth es true = .ok w ↔
      Has DocTree.IsText "name" members w.name ∧ Has DocTree.IsText "image" members w.image ∧
        ∃ jobs, Taken (DocTree.HasEntries depth) "jobs" members none jobs ∧ w.jobs = jobs.getD [] := by
  obtain ⟨name, image, entries⟩ := w
  have hread : readMembers c depth es true = takeMembers c depth 0 {} es >>= fun found =>
      Yaml.needed "name" found.name >>= fun name =>
        Yaml.needed "image" found.image >>= fun image => .ok ⟨name, image, found.jobs.getD []⟩ := rfl
  simp only [hread, bind_eq_ok_iff, needed_eq_ok, Except.ok.injEq, Written.mk.injEq, takeMembers_iff h hkeys]
  constructor
  · rintro ⟨found, ⟨hname, himage, hjobs⟩, _, hfoundName, _, hfoundImage, rfl, rfl, rfl⟩
    rw [hfoundName] at hname
    rw [hfoundImage] at himage
    exact ⟨taken_some.1 hname, taken_some.1 himage, found.jobs, hjobs, rfl⟩
  · rintro ⟨hname, himage, jobs, hjobs, rfl⟩
    exact ⟨⟨some name, some image, jobs⟩, ⟨taken_some.2 hname, taken_some.2 himage, hjobs⟩, name, rfl, image, rfl, rfl,
      rfl, rfl⟩

/-! ## The format -/

/-- Jobs: a mapping of which every entry is a job. -/
def AreJobs : DocTree → List Job → Prop
  | .mapping entries, jobs => List.Forall₂ IsJob entries jobs
  | _, _ => False

/-- The members describe a definition. -/
structure Describes (members : List (String × Option DocTree)) (d : Definition) : Prop where
  name : Has DocTree.IsText "name" members d.name
  named : ∃ ch ∈ d.name.toList, Text.isBlank ch = false
  image : Has DocTree.IsText "image" members d.image
  reference : IsReference d.image
  jobs : Has AreJobs "jobs" members d.jobs
  distinct : (d.jobs.map Job.name).Nodup
  commands : d.commands ≠ []
  nonblank : ∀ cmd ∈ d.commands, ∃ ch ∈ cmd.toList, Text.isBlank ch = false

/-- A text that is read as a record of such members: a document of which a mapping is the top. -/
def IsRecord (source : String) (members : List (String × Option DocTree)) : Prop :=
  ∃ entries last, (Yaml.Document.ofText source).root.map Node.bare = some (.mapping entries none true) ∧
    (Yaml.Document.ofText source).complete = true ∧
      ReadsMembers (Yaml.Document.ofText source).context 0 entries members last

/-- What the members of a record say is what is written. -/
theorem written_iff {source : String} {w : Written} (h : IsRecord source members)
    (hkeys : (members.map Prod.fst).Nodup) : Written.ofText source = .ok w ↔
      Has DocTree.IsText "name" members w.name ∧ Has DocTree.IsText "image" members w.image ∧
        ∃ jobs, Taken (DocTree.HasEntries (Yaml.maxDepth - 1)) "jobs" members none jobs ∧ w.jobs = jobs.getD [] := by
  obtain ⟨entries, last, hroot, hcomplete, hreads⟩ := h
  obtain ⟨root, hsome, hbare⟩ := Option.map_eq_some_iff.1 hroot
  have htext : Written.ofText source =
      readMembers (Yaml.Document.ofText source).context (Yaml.maxDepth - 1) entries true >>= Yaml.closing true := by
    unfold Written.ofText Yaml.Document.record
    rw [hsome, hcomplete]
    dsimp only
    rw [hbare]
  rw [htext, bind_eq_ok_iff]
  simp only [Yaml.closing, if_true, Except.ok.injEq, exists_eq_right]
  exact readMembers_iff hreads hkeys

theorem blank_iff {d : Definition} : (∀ job ∈ d.jobs, job.steps.flatten.any Text.isBlankText = false) ↔
    ∀ cmd ∈ d.commands, Text.isBlankText cmd = false := by
  simp only [commands, List.any_eq_false, Bool.not_eq_true, List.mem_flatMap]
  constructor
  · rintro h cmd ⟨job, hjob, hcmd⟩
    exact h job hjob cmd hcmd
  · intro h job hjob cmd hcmd
    exact h cmd ⟨job, hjob, hcmd⟩

/-- Whatever text holds a definition, none of its commands is blank. -/
theorem nonblank_of_ofText {source : String} {d : Definition} (h : ofText source = .ok d) :
    ∀ cmd ∈ d.commands, Text.isBlankText cmd = false := by
  obtain ⟨w, -, hcheck⟩ := ofText_eq_ok.1 h
  have hjobs := mapM_eq_ok_iff.1 (check_iff.1 hcheck).2.2.1
  have hall : List.Forall₂ (fun (e : Value × Value) job =>
      readJob e.1 e.2 = .ok job ∧ job.steps.flatten.any Text.isBlankText = false) w.jobs d.jobs :=
    hjobs.imp fun e job hjob => ⟨hjob, (readJob_iff.1 hjob).2.2⟩
  exact blank_iff.1 (forall₂_and_right.1 hall).2

/-- Where there are commands, the jobs are those of a mapping. -/
theorem entries_iff {d : Definition} (hcommands : d.commands ≠ []) :
    (∃ jobs, Taken (DocTree.HasEntries (Yaml.maxDepth - 1)) "jobs" members none jobs ∧
      ((jobs.getD []).mapM fun (key, steps) => readJob key steps) = .ok d.jobs) ↔
    Has AreJobs "jobs" members d.jobs ∧ (d.jobs.map Job.name).Nodup ∧
      ∀ cmd ∈ d.commands, Text.isBlankText cmd = false := by
  have hsome : d.jobs ≠ [] := by
    intro hnone
    exact hcommands (by rw [commands, hnone]; rfl)
  have hempty : (([] : List (Value × Value)).mapM fun (key, steps) => readJob key steps) ≠ .ok d.jobs := by
    rw [Ne, mapM_eq_ok_iff, List.forall₂_nil_left_iff]
    exact hsome
  -- jobs, steps and commands are nested three deep, of the places that are left below the top
  have hdepth : Yaml.maxDepth - 1 = 124 + 3 := rfl
  rw [← blank_iff, hdepth]
  constructor
  · rintro ⟨_ | es, htaken, hread⟩
    · exact absurd hread hempty
    · obtain ⟨t, hlookup, hentries⟩ := taken_some.1 htaken
      match t with
      | .mapping entries =>
        obtain ⟨hall, hjobs⟩ := jobs_iff.1 ⟨es, hentries, hread⟩
        exact ⟨⟨.mapping entries, hlookup, hall⟩, hjobs⟩
      | .scalar [] true =>
        rw [show es = [] from hentries] at hread
        exact absurd hread hempty
  · rintro ⟨⟨t, hlookup, hjobs⟩, hrest⟩
    match t with
    | .mapping entries =>
      obtain ⟨es, hmeans, hread⟩ := jobs_iff.2 ⟨hjobs, hrest⟩
      exact ⟨some es, taken_some.2 ⟨.mapping entries, hlookup, hmeans⟩, hread⟩

/-- A record holds the definition that its members describe, and no other. -/
theorem describes_iff {source : String} {d : Definition} (h : IsRecord source members)
    (hkeys : (members.map Prod.fst).Nodup) : ofText source = .ok d ↔ Describes members d := by
  simp only [ofText_eq_ok, written_iff h hkeys, check_iff]
  constructor
  · rintro ⟨w, ⟨hname, himage, jobs, htaken, hw⟩, ⟨hwName, hnamed⟩, ⟨hwImage, href⟩, hread, hcommands⟩
    rw [hw] at hread
    rw [hwName] at hname
    rw [hwImage] at himage
    obtain ⟨hjobs, hdistinct, hblank⟩ := (entries_iff hcommands).1 ⟨jobs, htaken, hread⟩
    exact ⟨hname, isBlankText_eq_false.1 hnamed, himage, href, hjobs, hdistinct, hcommands,
      fun cmd hcmd => isBlankText_eq_false.1 (hblank cmd hcmd)⟩
  · intro hd
    obtain ⟨jobs, htaken, hread⟩ := (entries_iff hd.commands).2
      ⟨hd.jobs, hd.distinct, fun cmd hcmd => isBlankText_eq_false.2 (hd.nonblank cmd hcmd)⟩
    exact ⟨⟨d.name, d.image, jobs.getD []⟩, ⟨hd.name, hd.image, jobs, htaken, rfl⟩,
      ⟨rfl, isBlankText_eq_false.2 hd.named⟩, ⟨rfl, hd.reference⟩, hread, hd.commands⟩

/-! ## Texts without tags -/

theorem of_once_eq_ok {name : String} {old new : Option α} {k : Node} {read : Except Yaml.Fault (α × Nat)}
    (h : Yaml.once name old k read = .ok (new, last)) : ∃ a, read = .ok (a, last) := by
  unfold Yaml.once at h
  split at h
  case isTrue => cases h
  case isFalse =>
    obtain ⟨⟨a, after⟩, hread, h⟩ := bind_eq_ok_iff.1 h
    cases h
    exact ⟨a, within_eq_ok.1 hread⟩

theorem exists_readsMembers {found new : Members} (hc : c.IsUntagged) (hes : Yaml.UntaggedEntries es)
    (h : takeMembers c depth jumps found es = .ok new) : ∃ members last, ReadsMembers c jumps es members last := by
  induction es generalizing jumps found with
  | nil => exact ⟨[], jumps, .nil _⟩
  | cons e es ih =>
    obtain ⟨k, v⟩ := e
    obtain ⟨hk, hv, hes⟩ := hes
    unfold takeMembers at h
    obtain ⟨⟨key, inside⟩, hkey, h⟩ := bind_eq_ok_iff.1 h
    obtain ⟨keyTree, hkeyTree, htext⟩ := Yaml.exists_reads_of_text hc hk hkey
    dsimp only at h
    split at h
    case h_1 =>
      obtain ⟨⟨name, after⟩, honce, h⟩ := bind_eq_ok_iff.1 h
      obtain ⟨_, hread⟩ := of_once_eq_ok honce
      obtain ⟨t, ht, -⟩ := Yaml.exists_reads_of_text hc hv hread
      obtain ⟨members, last, hrest⟩ := ih hes h
      exact ⟨_, last, .part hkeyTree htext (by decide) ht hrest⟩
    case h_2 =>
      obtain ⟨⟨image, after⟩, honce, h⟩ := bind_eq_ok_iff.1 h
      obtain ⟨_, hread⟩ := of_once_eq_ok honce
      obtain ⟨t, ht, -⟩ := Yaml.exists_reads_of_text hc hv hread
      obtain ⟨members, last, hrest⟩ := ih hes h
      exact ⟨_, last, .part hkeyTree htext (by decide) ht hrest⟩
    case h_3 =>
      obtain ⟨⟨jobs, after⟩, honce, h⟩ := bind_eq_ok_iff.1 h
      obtain ⟨_, hread⟩ := of_once_eq_ok honce
      obtain ⟨t, ht⟩ := Yaml.exists_reads_of_entries hc hv hread
      obtain ⟨members, last, hrest⟩ := ih hes h
      exact ⟨_, last, .part hkeyTree htext (by decide) ht hrest⟩
    case h_4 hname himage hjobs =>
      have hother : key ∉ parts := by
        simp only [parts, List.mem_cons, List.not_mem_nil, or_false, not_or]
        exact ⟨hname, himage, hjobs⟩
      split at h
      case isTrue hsound =>
        obtain ⟨members, last, hrest⟩ := ih hes h
        exact ⟨_, last, .other hkeyTree htext hother hsound hrest⟩
      case isFalse => cases h

/-- A document without tags, of which a mapping is the top. -/
def IsUntaggedMapping (source : String) : Prop :=
  ∃ root entries tag closed, (Document.ofText source).root = some root ∧ root.bare = .mapping entries tag closed ∧
    root.IsUntagged

/-- Where there are no tags, a mapping that holds a definition is read as a record. -/
theorem exists_isRecord {source : String} {d : Definition} (huntagged : IsUntaggedMapping source)
    (h : ofText source = .ok d) : ∃ members, IsRecord source members := by
  obtain ⟨root, es, tag, closed, hroot, hbare, huntagged⟩ := huntagged
  have hc := huntagged.context hroot
  have hmapping := huntagged.bare
  rw [hbare] at hmapping
  obtain ⟨rfl, hes⟩ := hmapping
  obtain ⟨w, hw, -⟩ := ofText_eq_ok.1 h
  unfold Written.ofText Document.record at hw
  rw [hroot] at hw
  dsimp only at hw
  rw [hbare] at hw
  obtain ⟨w', hread, hcomplete⟩ := bind_eq_ok_iff.1 hw
  obtain ⟨found, htake, hread⟩ := bind_eq_ok_iff.1 hread
  obtain ⟨_, hclosed, -⟩ := bind_eq_ok_iff.1 hread
  obtain ⟨members, last, hmembers⟩ := exists_readsMembers hc hes htake
  refine ⟨members, es, last, ?_, ?_, hmembers⟩
  · cases closed with
    | true => rw [hroot, Option.map_some, hbare]
    | false => cases hclosed
  · cases hdone : (Document.ofText source).complete with
    | true => rfl
    | false => rw [hdone] at hcomplete; cases hcomplete

/-! ## Which texts hold definitions -/

/-- A text that is read as a record holds the definition that its members describe, and no other. Without tags, no
mapping holds a definition that is not read as a record. The commands of a definition are those of its jobs in their
order, and none of them is blank. -/
theorem ofText_iff (source : String) :
    (∀ members, IsRecord source members → (members.map Prod.fst).Nodup →
      ∀ d, ofText source = .ok d ↔ Describes members d) ∧
    (IsUntaggedMapping source → ∀ d, ofText source = .ok d → ∃ members, IsRecord source members) ∧
    ∀ d, ofText source = .ok d → d.commands = (d.jobs.flatMap Job.steps).flatten ∧
      ∀ cmd ∈ d.commands, ∃ ch ∈ cmd.toList, Text.isBlank ch = false := by
  refine ⟨fun members h hkeys d => describes_iff h hkeys, fun h d hd => exists_isRecord h hd, fun d hd => ⟨?_, ?_⟩⟩
  · rw [commands, List.flatMap_def, List.flatMap_def, List.flatten_flatten, List.map_map]
    rfl
  · intro cmd hcmd
    exact isBlankText_eq_false.1 (nonblank_of_ofText hd cmd hcmd)

/-- A text with a step that is one command, and one that is a list of two. -/
def listed : String := "name: b\nimage: a\njobs: {t: [make, [cc a, ld a]]}"

namespace Listed

def word (s : String) : Node := .scalar s.toList true none

def leaf (s : String) : DocTree := .scalar s.toList true

def entries : List (Node × Node) :=
  [(word "name", word "b"), (word "image", word "a"), (word "jobs", .mapping
    [(word "t", .sequence [word "make", .sequence [word "cc a", word "ld a"] none true] none true)] none true)]

def record : List (String × Option DocTree) :=
  [("name", some (leaf "b")), ("image", some (leaf "a")), ("jobs", some (.mapping
    [(leaf "t", .sequence [leaf "make", .sequence [leaf "cc a", leaf "ld a"]])]))]

def definition : Definition := ⟨"b", "a", [⟨"t", [["make"], ["cc a", "ld a"]]⟩]⟩

def tokens : List Yaml.Token :=
  [.blockMapping, .key, .scalar "name".toList true, .value, .scalar "b".toList true, .key,
    .scalar "image".toList true, .value, .scalar "a".toList true, .key, .scalar "jobs".toList true, .value,
    .flowMapping, .key, .scalar "t".toList true, .value, .flowSequence, .scalar "make".toList true, .flowEntry,
    .flowSequence, .scalar "cc a".toList true, .flowEntry, .scalar "ld a".toList true, .flowSequenceEnd,
    .flowSequenceEnd, .flowMappingEnd, .blockEnd, .streamEnd]

theorem scanned : Yaml.readableText listed = (listed.toList, false) ∧ Yaml.tokensOf false listed.toList = tokens := by
  decide +kernel

theorem document : Document.ofText listed = ⟨some (.mapping entries none true), true⟩ := by
  have hread : Document.ofText listed = .ofTokens tokens := by
    unfold Document.ofText
    rw [scanned.1]
    dsimp only
    rw [scanned.2]
    rfl
  rw [hread]
  rfl

theorem described : Describes record definition where
  name := ⟨leaf "b", rfl, rfl⟩
  named := isBlankText_eq_false.1 (by decide)
  image := ⟨leaf "a", rfl, rfl⟩
  reference := isReference_iff.2 (by decide)
  jobs := ⟨_, rfl, .cons ⟨rfl, .some (.cons (.one rfl) (.cons (.several (.cons rfl (.cons rfl .nil))) .nil))⟩ .nil⟩
  distinct := by decide
  commands := by decide
  nonblank := by
    have hall : ∀ cmd ∈ definition.commands, Text.isBlankText cmd = false := by decide
    exact fun cmd hcmd => isBlankText_eq_false.1 (hall cmd hcmd)

theorem reads_word (c : Context) (s : String) : Reads c 0 [word s] [leaf s] 0 := .scalar rfl (.nil 0)

theorem isRecord : IsRecord listed record := by
  refine ⟨entries, 0, ?_, ?_, ?_⟩
  · rw [document]
    rfl
  · rw [document]
  · refine .part (reads_word _ _) rfl (by decide) (reads_word _ _) (.part (reads_word _ _) rfl (by decide)
      (reads_word _ _) (.part (reads_word _ _) rfl (by decide) ?_ (.nil 0)))
    exact .mapping rfl (.scalar rfl (.sequence rfl (.scalar rfl (.sequence rfl (.scalar rfl (.scalar rfl (.nil 0)))
      (.nil 0))) (.nil 0))) (.nil 0)

theorem ofText_listed : IsRecord listed record ∧ (record.map Prod.fst).Nodup ∧ IsUntaggedMapping listed ∧
    ofText listed = .ok definition ∧ definition.commands = (definition.jobs.flatMap Job.steps).flatten := by
  have hkeys : (record.map Prod.fst).Nodup := by decide
  have huntagged : IsUntaggedMapping listed := ⟨_, entries, none, true, by rw [document], rfl, by
    simp [entries, word, Node.IsUntagged, Yaml.UntaggedEntries, Yaml.UntaggedItems]⟩
  obtain ⟨hiff, -, hcommands⟩ := ofText_iff listed
  have hread : ofText listed = .ok definition := (hiff record isRecord hkeys definition).2 described
  exact ⟨isRecord, hkeys, huntagged, hread, (hcommands definition hread).1⟩

end Listed

end Pipeworks.Definition
