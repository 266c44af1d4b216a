/-
YAML as a tree: what a document without tags says once every alias is replaced by what it stands for. `Reads` says
which nodes are read as which trees, and how many aliases are followed for that; `DocTree.Means` says which value a tree
stands for where collections may be nested so deep. Reading values off nodes and going over the tree come to the same
(`value_iff`), so that what is accepted can be told by the tree alone.
-/
import Mathlib.Data.List.Forall2
import Pipeworks.Proofs.Program.Outcome
import Pipeworks.Yaml.Shape

namespace Pipeworks.Yaml

variable {α : Type} {c : Context} {n : Node} {ns : List Node} {t : DocTree} {v : Value} {vs : List Value}
  {depth jumps after last : Nat} {text : List Char} {plain : Bool} {wanted : String}

/-! ## Trees -/

inductive DocTree where
  | scalar (text : List Char) (plain : Bool)
  | sequence (items : List DocTree)
  | mapping (entries : List (DocTree × DocTree))

/-- What a scalar stands for: a plain one may be nothing, a truth value or a number, others are strings. -/
def scalarSays (text : List Char) (plain : Bool) : Scalar :=
  if plain then .ofPlain text else .string (.ofList text)

/-- A tree that is a scalar, and what that stands for. -/
def DocTree.Says : DocTree → Scalar → Prop
  | .scalar text plain, s => scalarSays text plain = s
  | _, _ => False

/-- Keys and values in turn. -/
def inTurn (entries : List (α × α)) : List α := entries.flatMap fun e => [e.1, e.2]

@[simp] theorem inTurn_nil : inTurn ([] : List (α × α)) = [] := rfl

@[simp] theorem inTurn_cons (e : α × α) (es : List (α × α)) : inTurn (e :: es) = e.1 :: e.2 :: inTurn es := rfl

/-- Nodes without tags that are read as trees, one after the other: so many aliases have been followed before, and so
many after them. An alias is followed to the node it stands for, as long as that may be done. -/
inductive Reads (c : Context) : Nat → List Node → List DocTree → Nat → Prop
  | nil (jumps : Nat) : Reads c jumps [] [] jumps
  | scalar {jumps after last : Nat} {n : Node} {text : List Char} {plain : Bool} {ns : List Node} {ts : List DocTree} :
      c.follow jumps n = .ok (.scalar text plain none, after) → Reads c after ns ts last →
      Reads c jumps (n :: ns) (.scalar text plain :: ts) last
  | sequence {jumps inside after last : Nat} {n : Node} {items : List Node} {parts : List DocTree} {ns : List Node}
      {ts : List DocTree} :
      c.follow jumps n = .ok (.sequence items none true, inside) → Reads c inside items parts after →
      Reads c after ns ts last → Reads c jumps (n :: ns) (.sequence parts :: ts) last
  | mapping {jumps inside after last : Nat} {n : Node} {entries : List (Node × Node)} {parts : List (DocTree × DocTree)}
      {ns : List Node} {ts : List DocTree} :
      c.follow jumps n = .ok (.mapping entries none true, inside) →
      Reads c inside (inTurn entries) (inTurn parts) after → Reads c after ns ts last →
      Reads c jumps (n :: ns) (.mapping parts :: ts) last

/-- No key is the same as one before it or as one of those found earlier. -/
def AreFresh (found : List (Value × Value)) : List (Value × Value) → Prop
  | [] => True
  | (k, v) :: es => (found.any fun (other, _) => k.same other) = false ∧ AreFresh ((k, v) :: found) es

theorem any_same {key : Value} {found : List (Value × Value)} :
    (found.any fun (other, _) => key.same other) = (found.map Prod.fst).any key.same := by
  rw [List.any_map]
  rfl

/-- A tree stands for a value, nested at most so deep. -/
def DocTree.Means : Nat → DocTree → Value → Prop
  | _, .scalar text plain, v => (scalarSays text plain).value = .ok v
  | depth + 1, .sequence items, .sequence vs => List.Forall₂ (Means depth) items vs
  | depth + 1, .mapping entries, .mapping es =>
    List.Forall₂ (fun e f => Means depth e.1 f.1 ∧ Means depth e.2 f.2) entries es ∧ AreFresh [] es
  | _, _, _ => False

/-! ## Reading one after the other -/

theorem within_eq_ok {step : Step} {x : Except Fault α} {a : α} : within step x = .ok a ↔ x = .ok a := by
  cases x <;> simp [within]

theorem fault_ne_ok {cause : Cause} {a : α} : Fault.at cause ≠ .ok a := nofun

/-- Each node is read behind those before it. -/
def Chain (read : Nat → Node → Except Fault (α × Nat)) : Nat → List Node → List α → Nat → Prop
  | jumps, [], [], last => last = jumps
  | jumps, n :: ns, a :: as, last => ∃ after, read jumps n = .ok (a, after) ∧ Chain read after ns as last
  | _, _, _, _ => False

variable {read : Nat → Node → Except Fault (α × Nat)} {as : List α}

theorem chain_cons : Chain read jumps (n :: ns) as last ↔
    ∃ a rest after, as = a :: rest ∧ read jumps n = .ok (a, after) ∧ Chain read after ns rest last := by
  cases as with
  | nil => simp [Chain]
  | cons a as =>
    constructor
    · rintro ⟨after, hread, hrest⟩
      exact ⟨a, as, after, rfl, hread, hrest⟩
    · rintro ⟨_, _, after, hcons, hread, hrest⟩
      cases hcons
      exact ⟨after, hread, hrest⟩

theorem readAll_iff {i : Nat} : readAll read i jumps ns = .ok (as, last) ↔ Chain read jumps ns as last := by
  induction ns generalizing i jumps as with
  | nil => cases as <;> simp [readAll, Chain, eq_comm]
  | cons n ns ih =>
    simp only [readAll, chain_cons, bind_eq_ok_iff, within_eq_ok, Prod.exists]
    constructor
    · rintro ⟨a, after, hread, rest, _, hrest, hlast⟩
      cases hlast
      exact ⟨a, rest, after, rfl, hread, ih.1 hrest⟩
    · rintro ⟨a, rest, after, rfl, hread, hrest⟩
      exact ⟨a, after, hread, rest, last, ih.2 hrest, rfl⟩

/-- Entries are read as their keys and values in turn, if the keys are fresh. -/
theorem readFresh_iff {read : Nat → Node → Except Fault (Value × Nat)} {found out : List (Value × Value)}
    {es : List (Node × Node)} : readFresh read jumps found es = .ok (out, last) ↔
      ∃ es', Chain read jumps (inTurn es) (inTurn es') last ∧ AreFresh found es' ∧ out = found.reverse ++ es' := by
  induction es generalizing jumps found with
  | nil =>
    simp only [readFresh, Except.ok.injEq, Prod.mk.injEq]
    constructor
    · rintro ⟨rfl, rfl⟩
      exact ⟨[], rfl, trivial, (List.append_nil _).symm⟩
    · rintro ⟨_ | ⟨e, es'⟩, hchain, -, rfl⟩
      · exact ⟨(List.append_nil _).symm, hchain.symm⟩
      · exact hchain.elim
  | cons e es ih =>
    obtain ⟨k, v⟩ := e
    simp only [readFresh, bind_eq_ok_iff, Prod.exists, inTurn_cons, chain_cons]
    constructor
    · rintro ⟨key, after, hkey, h⟩
      split at h
      case isTrue => cases h
      case isFalse hnew =>
        obtain ⟨⟨value, after'⟩, hvalue, h⟩ := bind_eq_ok_iff.1 h
        obtain ⟨es', hchain, hfresh, rfl⟩ := ih.1 h
        refine ⟨(key, value) :: es', ⟨key, _, after, rfl, hkey, value, _, after', rfl, within_eq_ok.1 hvalue, hchain⟩,
          ⟨Bool.eq_false_iff.2 hnew, hfresh⟩, ?_⟩
        simp
    · rintro ⟨_ | ⟨⟨key, value⟩, es'⟩, ⟨_, _, after, hcons, hkey, _, _, after', hcons', hvalue, hchain⟩, hfresh, rfl⟩
      · cases hcons
      · cases hcons
        cases hcons'
        refine ⟨key, after, hkey, ?_⟩
        rw [if_neg (Bool.eq_false_iff.1 hfresh.1)]
        refine bind_eq_ok_iff.2 ⟨(value, after'), within_eq_ok.2 hvalue, ih.2 ⟨es', hchain, hfresh.2, ?_⟩⟩
        simp

/-! ## Values -/

theorem value_scalar (h : c.follow jumps n = .ok (.scalar text plain none, after)) :
    c.value depth jumps n = .ok (v, last) ↔ (scalarSays text plain).value = .ok v ∧ last = after := by
  have hvalue : c.value depth jumps n = (scalarSays text plain).value >>= fun v => .ok (v, after) := by
    unfold Context.value
    rw [h]
    rfl
  rw [hvalue, bind_eq_ok_iff]
  constructor
  · rintro ⟨_, hv, h⟩
    cases h
    exact ⟨hv, rfl⟩
  · rintro ⟨hv, rfl⟩
    exact ⟨v, hv, rfl⟩

/-- A sequence needs a place to be nested in, and so does a mapping. -/
theorem value_sequence {items : List Node} (h : c.follow jumps n = .ok (.sequence items none true, after)) :
    c.value depth jumps n = .ok (v, last) ↔
      ∃ less vs, depth = less + 1 ∧ v = .sequence vs ∧ Chain (c.value less) after items vs last := by
  cases depth with
  | zero =>
    have hvalue : c.value 0 jumps n = Fault.at .malformed := by
      unfold Context.value
      rw [h]
      rfl
    simp [hvalue, fault_ne_ok]
  | succ less =>
    have hvalue : c.value (less + 1) jumps n =
        readAll (c.value less) 0 after items >>= fun r => .ok (.sequence r.1, r.2) := by
      rw [Context.value, h]
      rfl
    rw [hvalue, bind_eq_ok_iff]
    constructor
    · rintro ⟨⟨vs, _⟩, hread, h⟩
      cases h
      exact ⟨less, vs, rfl, rfl, readAll_iff.1 hread⟩
    · rintro ⟨_, vs, hless, rfl, hchain⟩
      cases hless
      exact ⟨(vs, last), readAll_iff.2 hchain, rfl⟩

/-- The entries of a mapping are read in turn, and their keys are fresh. -/
def EntriesRead (c : Context) (depth after : Nat) (entries : List (Node × Node)) (es : List (Value × Value))
    (last : Nat) : Prop :=
  ∃ less, depth = less + 1 ∧ Chain (c.value less) after (inTurn entries) (inTurn es) last ∧ AreFresh [] es

theorem entriesRead_succ {less : Nat} {entries : List (Node × Node)} {es : List (Value × Value)} :
    EntriesRead c (less + 1) after entries es last ↔ readFresh (c.value less) after [] entries = .ok (es, last) := by
  simp only [EntriesRead, Nat.add_right_cancel_iff, exists_eq_left', readFresh_iff, List.reverse_nil, List.nil_append]
  constructor
  · rintro ⟨hchain, hfresh⟩
    exact ⟨es, hchain, hfresh, rfl⟩
  · rintro ⟨_, hchain, hfresh, rfl⟩
    exact ⟨hchain, hfresh⟩

theorem value_mapping {entries : List (Node × Node)} (h : c.follow jumps n = .ok (.mapping entries none true, after)) :
    c.value depth jumps n = .ok (v, last) ↔ ∃ es, v = .mapping es ∧ EntriesRead c depth after entries es last := by
  cases depth with
  | zero =>
    have hvalue : c.value 0 jumps n = Fault.at .malformed := by
      unfold Context.value
      rw [h]
      rfl
    simp [hvalue, fault_ne_ok, EntriesRead]
  | succ less =>
    have hvalue : c.value (less + 1) jumps n =
        readFresh (c.value less) after [] entries >>= fun r => .ok (.mapping r.1, r.2) := by
      rw [Context.value, h]
      rfl
    simp only [hvalue, bind_eq_ok_iff, entriesRead_succ]
    constructor
    · rintro ⟨⟨es, _⟩, hread, h⟩
      cases h
      exact ⟨es, rfl, hread⟩
    · rintro ⟨es, rfl, hread⟩
      exact ⟨(es, last), hread, rfl⟩

/-! ## Values of trees -/

theorem forall₂_inTurn {β : Type} {R : α → β → Prop} {es : List (α × α)} {fs : List (β × β)} :
    List.Forall₂ R (inTurn es) (inTurn fs) ↔ List.Forall₂ (fun e f => R e.1 f.1 ∧ R e.2 f.2) es fs := by
  induction es generalizing fs with
  | nil => cases fs <;> simp
  | cons e es ih =>
    cases fs with
    | nil => simp
    | cons f fs => simp [ih, and_assoc]

theorem chain_of_parts {R : DocTree → α → Prop} {ts : List DocTree} {middle : Nat}
    (hfirst : ∀ a last, read jumps n = .ok (a, last) ↔ R t a ∧ last = middle)
    (hrest : ∀ as last, Chain read middle ns as last ↔ List.Forall₂ R ts as ∧ last = after) :
    Chain read jumps (n :: ns) as last ↔ List.Forall₂ R (t :: ts) as ∧ last = after := by
  rw [chain_cons]
  constructor
  · rintro ⟨a, rest, next, rfl, hread, hchain⟩
    obtain ⟨ha, rfl⟩ := (hfirst a next).1 hread
    obtain ⟨has, hlast⟩ := (hrest rest last).1 hchain
    exact ⟨.cons ha has, hlast⟩
  · rintro ⟨hall, hlast⟩
    cases hall with
    | cons ha has => exact ⟨_, _, middle, rfl, (hfirst _ _).2 ⟨ha, rfl⟩, (hrest _ _).2 ⟨has, hlast⟩⟩

theorem entriesRead_iff {entries : List (Node × Node)} {parts : List (DocTree × DocTree)} {es : List (Value × Value)}
    (h : ∀ depth vs last, Chain (c.value depth) jumps (inTurn entries) vs last ↔
      List.Forall₂ (DocTree.Means depth) (inTurn parts) vs ∧ last = after) :
    EntriesRead c depth jumps entries es last ↔ DocTree.Means depth (.mapping parts) (.mapping es) ∧ last = after := by
  cases depth with
  | zero => simp [EntriesRead, DocTree.Means]
  | succ less =>
    simp only [EntriesRead, Nat.add_right_cancel_iff, exists_eq_left', h, forall₂_inTurn, DocTree.Means]
    tauto

/-- Whatever nodes are read as trees, their values are those that the trees stand for. -/
theorem chain_value_iff {ts : List DocTree} (h : Reads c jumps ns ts after) :
    Chain (c.value depth) jumps ns vs last ↔ List.Forall₂ (DocTree.Means depth) ts vs ∧ last = after := by
  induction h generalizing depth vs last with
  | nil jumps => cases vs <;> simp [Chain]
  | scalar hfollow hrest ih =>
    refine chain_of_parts (fun v last => ?_) fun vs last => ih
    rw [value_scalar hfollow]
    cases depth <;> rfl
  | sequence hfollow hinside hrest ihInside ih =>
    refine chain_of_parts (fun v last => ?_) fun vs last => ih
    rw [value_sequence hfollow]
    cases depth with
    | zero => simp [DocTree.Means]
    | succ less =>
      simp only [Nat.add_right_cancel_iff, exists_and_left, exists_eq_left', ihInside]
      constructor
      · rintro ⟨vs, rfl, hmeans, hlast⟩
        exact ⟨hmeans, hlast⟩
      · rintro ⟨hmeans, hlast⟩
        cases v with
        | sequence vs => exact ⟨vs, rfl, hmeans, hlast⟩
        | _ => exact hmeans.elim
  | mapping hfollow hinside hrest ihInside ih =>
    refine chain_of_parts (fun v last => ?_) fun vs last => ih
    simp only [value_mapping hfollow, entriesRead_iff fun _ _ _ => ihInside]
    constructor
    · rintro ⟨es, rfl, hmeans⟩
      exact hmeans
    · rintro ⟨hmeans, hlast⟩
      cases depth with
      | zero => exact hmeans.elim
      | succ less =>
        cases v with
        | mapping es => exact ⟨es, rfl, hmeans, hlast⟩
        | _ => exact hmeans.elim

/-! ## Texts and entries of trees -/

/-- Any scalar is a text, whatever it stands for. -/
def DocTree.IsText : DocTree → String → Prop
  | .scalar text _, s => s = .ofList text
  | _, _ => False

theorem text_iff {s : String} (h : Reads c jumps [n] [t] after) :
    c.text wanted jumps n = .ok (s, last) ↔ t.IsText s ∧ last = after := by
  cases h with
  | scalar hfollow hrest =>
    cases hrest
    have htext : ∀ text plain, c.follow jumps n = .ok (.scalar text plain none, after) →
        c.text wanted jumps n = .ok (.ofList text, after) := by
      intro text plain hfollow
      rw [Context.text, hfollow]
      rfl
    simp [htext _ _ hfollow, DocTree.IsText, eq_comm]
  | sequence hfollow hinside hrest =>
    have hfault : c.text wanted jumps n = Fault.at (.wrongType "sequence" wanted) := by
      rw [Context.text, hfollow]
      rfl
    simp [hfault, fault_ne_ok, DocTree.IsText]
  | mapping hfollow hinside hrest =>
    have hfault : c.text wanted jumps n = Fault.at (.wrongType "map" wanted) := by
      rw [Context.text, hfollow]
      rfl
    simp [hfault, fault_ne_ok, DocTree.IsText]

/-- The entries of a mapping of values; an empty place is an empty mapping. -/
def DocTree.HasEntries (depth : Nat) : DocTree → List (Value × Value) → Prop
  | .mapping parts, es => Means depth (.mapping parts) (.mapping es)
  | .scalar [] true, es => es = []
  | _, _ => False

theorem entries_iff {es : List (Value × Value)} (h : Reads c jumps [n] [t] after) :
    c.entries wanted depth jumps n = .ok (es, last) ↔ t.HasEntries depth es ∧ last = after := by
  cases h with
  | scalar hfollow hrest =>
    cases hrest
    rename_i text plain
    have hentries : c.entries wanted depth jumps n =
        if (Node.scalar text plain none).isEmptyPlace then .ok ([], after) else
          Fault.at (.wrongType (scalarSays text plain).found wanted) := by
      rw [Context.entries, hfollow]
      rfl
    rw [hentries]
    match text, plain with
    | [], true => simp [Node.isEmptyPlace, DocTree.HasEntries, eq_comm]
    | [], false => simp [Node.isEmptyPlace, DocTree.HasEntries, fault_ne_ok]
    | _ :: _, _ => simp [Node.isEmptyPlace, DocTree.HasEntries, fault_ne_ok]
  | sequence hfollow hinside hrest =>
    have hfault : c.entries wanted depth jumps n = Fault.at (.wrongType "sequence" wanted) := by
      rw [Context.entries, hfollow]
      rfl
    simp [hfault, fault_ne_ok, DocTree.HasEntries]
  | @mapping _ inside _ _ _ entries parts _ _ hfollow hinside hrest =>
    cases hrest
    rw [DocTree.HasEntries, ← entriesRead_iff fun _ _ _ => chain_value_iff hinside]
    cases depth with
    | zero =>
      have hfault : c.entries wanted 0 jumps n = Fault.at .malformed := by
        rw [Context.entries, hfollow]
        rfl
      simp [hfault, fault_ne_ok, EntriesRead]
    | succ less =>
      have hentries : c.entries wanted (less + 1) jumps n = readFresh (c.value less) inside [] entries >>= .ok := by
        rw [Context.entries, hfollow]
        rfl
      rw [hentries, bind_eq_ok_iff, entriesRead_succ]
      simp

end Pipeworks.Yaml
