/-
Documents without tags. Whatever value is read off such a node, the node is read as a tree: what trees leave out, which
is what is cut off or stands nowhere, is never accepted as part of a value.
-/
import Pipeworks.Proofs.Yaml.Tree

namespace Pipeworks.Yaml

variable {α : Type} {c : Context} {n m : Node} {ns : List Node} {depth jumps inside after last : Nat}

/-! ## Tags -/

mutual

/-- No tag at the node or in it. -/
def Node.IsUntagged : Node → Prop
  | .scalar _ _ tag => tag = none
  | .sequence items tag _ => tag = none ∧ UntaggedItems items
  | .mapping entries tag _ => tag = none ∧ UntaggedEntries entries
  | .anchored _ n => n.IsUntagged
  | _ => True

def UntaggedItems : List Node → Prop
  | [] => True
  | n :: ns => n.IsUntagged ∧ UntaggedItems ns

def UntaggedEntries : List (Node × Node) → Prop
  | [] => True
  | (k, v) :: es => k.IsUntagged ∧ v.IsUntagged ∧ UntaggedEntries es

end

theorem untaggedItems_iff : UntaggedItems ns ↔ ∀ n ∈ ns, n.IsUntagged := by
  induction ns with
  | nil => simp [UntaggedItems]
  | cons n ns ih => simp [UntaggedItems, ih]

theorem untaggedEntries_iff {es : List (Node × Node)} : UntaggedEntries es ↔ ∀ n ∈ inTurn es, n.IsUntagged := by
  induction es with
  | nil => simp [UntaggedEntries]
  | cons e es ih => simp [UntaggedEntries, ih]

mutual

theorem Node.IsUntagged.anchors : ∀ {n : Node}, n.IsUntagged → ∀ a ∈ n.anchors, a.2.IsUntagged
  | .scalar _ _ _, _ => nofun
  | .sequence _ _ _, h => UntaggedItems.anchors h.2
  | .mapping _ _ _, h => UntaggedEntries.anchors h.2
  | .anchored _ n, h => List.forall_mem_cons.2 ⟨h, Node.IsUntagged.anchors (n := n) h⟩
  | .alias _, _ => nofun
  | .broken, _ => nofun

theorem UntaggedItems.anchors : ∀ {ns : List Node}, UntaggedItems ns → ∀ a ∈ Node.anchorsOfItems ns, a.2.IsUntagged
  | [], _ => nofun
  | _ :: _, h => List.forall_mem_append.2 ⟨h.1.anchors, UntaggedItems.anchors h.2⟩

theorem UntaggedEntries.anchors :
    ∀ {es : List (Node × Node)}, UntaggedEntries es → ∀ a ∈ Node.anchorsOfEntries es, a.2.IsUntagged
  | [], _ => nofun
  | (_, _) :: _, h => List.forall_mem_append.2
      ⟨List.forall_mem_append.2 ⟨h.1.anchors, h.2.1.anchors⟩, UntaggedEntries.anchors h.2.2⟩

end

/-- No alias stands for a node with tags. -/
def Context.IsUntagged (c : Context) : Prop := ∀ id n, c.anchors.lookup id = some n → n.IsUntagged

theorem Node.IsUntagged.context {d : Document} (hroot : d.root = some n) (h : n.IsUntagged) : d.context.IsUntagged := by
  intro id m hlookup
  have hmem : (id, m) ∈ n.anchors.reverse := by
    have hanchors : d.context.anchors = n.anchors.reverse := by
      simp [Document.context, Document.anchored?, hroot]
    rw [hanchors] at hlookup
    obtain ⟨before, behind, heq, -⟩ := List.lookup_eq_some_iff.1 hlookup
    rw [heq]
    exact List.mem_append_right _ List.mem_cons_self
  exact h.anchors (id, m) (List.mem_reverse.1 hmem)

theorem Node.IsUntagged.bare (h : n.IsUntagged) : n.bare.IsUntagged := by
  cases n <;> exact h

theorem Node.IsUntagged.follow (hc : c.IsUntagged) (hn : n.IsUntagged) (h : c.follow jumps n = .ok (m, after)) :
    m.IsUntagged := by
  unfold Context.follow at h
  split at h
  case h_1 id _ =>
    split at h
    case isTrue => cases h
    case isFalse =>
      split at h
      case h_1 target hlookup =>
        cases h
        exact (hc id target hlookup).bare
      case h_2 => cases h
  case h_2 =>
    cases h
    exact hn.bare

/-! ## Nodes that are read as trees -/

theorem Reads.cons_of_one {t : DocTree} {ts : List DocTree} (hn : Reads c jumps [n] [t] after)
    (hns : Reads c after ns ts last) : Reads c jumps (n :: ns) (t :: ts) last := by
  cases hn with
  | scalar hfollow hnil =>
    cases hnil
    exact .scalar hfollow hns
  | sequence hfollow hinside hnil =>
    cases hnil
    exact .sequence hfollow hinside hns
  | mapping hfollow hinside hnil =>
    cases hnil
    exact .mapping hfollow hinside hns

theorem Reads.tail {ts : List DocTree} (h : Reads c jumps (n :: ns) ts last) :
    ∃ t rest after, ts = t :: rest ∧ Reads c after ns rest last := by
  cases h with
  | scalar _ hrest => exact ⟨_, _, _, rfl, hrest⟩
  | sequence _ _ hrest => exact ⟨_, _, _, rfl, hrest⟩
  | mapping _ _ hrest => exact ⟨_, _, _, rfl, hrest⟩

/-- Keys and values in turn are read as such. -/
theorem Reads.exists_inTurn {es : List (Node × Node)} {ts : List DocTree} (h : Reads c jumps (inTurn es) ts last) :
    ∃ parts, ts = inTurn parts := by
  induction es generalizing jumps ts with
  | nil =>
    cases h
    exact ⟨[], rfl⟩
  | cons e es ih =>
    obtain ⟨key, _, _, rfl, hvalue⟩ := h.tail
    obtain ⟨value, _, _, rfl, hrest⟩ := hvalue.tail
    obtain ⟨parts, rfl⟩ := ih hrest
    exact ⟨(key, value) :: parts, rfl⟩

theorem exists_reads_of_chain {read : Nat → Node → Except Fault (α × Nat)} {as : List α}
    (hread : ∀ n ∈ ns, ∀ jumps a after, read jumps n = .ok (a, after) → ∃ t, Reads c jumps [n] [t] after)
    (h : Chain read jumps ns as last) : ∃ ts, Reads c jumps ns ts last := by
  induction ns generalizing jumps as with
  | nil =>
    cases as with
    | nil =>
      cases h
      exact ⟨[], .nil _⟩
    | cons a as => exact h.elim
  | cons n ns ih =>
    obtain ⟨a, rest, after, -, hfirst, hrest⟩ := chain_cons.1 h
    obtain ⟨t, ht⟩ := hread n List.mem_cons_self jumps a after hfirst
    obtain ⟨ts, hts⟩ := ih (fun n hn => hread n (List.mem_cons_of_mem _ hn)) hrest
    exact ⟨t :: ts, ht.cons_of_one hts⟩

/-- A node whose text is taken is a scalar. -/
theorem exists_reads_of_text {wanted s : String} (hc : c.IsUntagged) (hn : n.IsUntagged)
    (h : c.text wanted jumps n = .ok (s, last)) : ∃ t, Reads c jumps [n] [t] last ∧ t.IsText s := by
  obtain ⟨⟨m, after⟩, hfollow, htext⟩ := bind_eq_ok_iff.1 h
  have hm := hn.follow hc hfollow
  cases m with
  | scalar text plain tag =>
    obtain rfl : tag = none := hm
    cases htext
    exact ⟨.scalar text plain, .scalar hfollow (.nil _), rfl⟩
  | _ => cases htext

/-- A mapping whose entries are read is one of trees, if every node in it that has a value is a tree. -/
theorem exists_reads_of_fresh {entries : List (Node × Node)} {es : List (Value × Value)}
    (hfollow : c.follow jumps n = .ok (.mapping entries none true, inside))
    (hread : ∀ n ∈ inTurn entries, ∀ jumps v after, c.value depth jumps n = .ok (v, after) →
      ∃ t, Reads c jumps [n] [t] after)
    (h : readFresh (c.value depth) inside [] entries = .ok (es, last)) : ∃ t, Reads c jumps [n] [t] last := by
  obtain ⟨es', hchain, -, -⟩ := readFresh_iff.1 h
  obtain ⟨ts, hts⟩ := exists_reads_of_chain hread hchain
  obtain ⟨parts, rfl⟩ := hts.exists_inTurn
  exact ⟨.mapping parts, .mapping hfollow hts (.nil _)⟩

/-- A node that has a value is a scalar, or a collection that is closed and whose parts have been read. -/
theorem value_cases {v : Value} (hc : c.IsUntagged) (hn : n.IsUntagged) (h : c.value depth jumps n = .ok (v, last)) :
    (∃ text plain, c.follow jumps n = .ok (.scalar text plain none, last)) ∨
      (∃ less items inside vs, depth = less + 1 ∧ c.follow jumps n = .ok (.sequence items none true, inside) ∧
        UntaggedItems items ∧ Chain (c.value less) inside items vs last) ∨
      ∃ less entries inside es, depth = less + 1 ∧ c.follow jumps n = .ok (.mapping entries none true, inside) ∧
        UntaggedEntries entries ∧ readFresh (c.value less) inside [] entries = .ok (es, last) := by
  have hvalue := h
  unfold Context.value at h
  obtain ⟨⟨m, inside⟩, hfollow, h⟩ := bind_eq_ok_iff.1 h
  have hm := hn.follow hc hfollow
  cases m with
  | scalar text plain tag =>
    obtain rfl : tag = none := hm
    obtain ⟨-, rfl⟩ := (value_scalar hfollow).1 hvalue
    exact .inl ⟨text, plain, hfollow⟩
  | sequence items tag closed =>
    obtain ⟨rfl, hitems⟩ := hm
    cases closed with
    | true =>
      obtain ⟨less, vs, hdepth, -, hchain⟩ := (value_sequence hfollow).1 hvalue
      exact .inr (.inl ⟨less, items, inside, vs, hdepth, hfollow, hitems, hchain⟩)
    | false =>
      cases depth with
      | zero => cases h
      | succ less =>
        obtain ⟨_, -, hclosing⟩ := bind_eq_ok_iff.1 h
        cases hclosing
  | mapping entries tag closed =>
    obtain ⟨rfl, hentries⟩ := hm
    cases closed with
    | true =>
      obtain ⟨es, -, less, rfl, hread⟩ := (value_mapping hfollow).1 hvalue
      exact .inr (.inr ⟨less, entries, inside, es, rfl, hfollow, hentries, entriesRead_succ.1 ⟨less, rfl, hread⟩⟩)
    | false =>
      cases depth with
      | zero => cases h
      | succ less =>
        obtain ⟨_, -, hclosing⟩ := bind_eq_ok_iff.1 h
        cases hclosing
  | _ => cases h

/-- A node that has a value is a tree. -/
theorem exists_reads_of_value {v : Value} (hc : c.IsUntagged) (hn : n.IsUntagged)
    (h : c.value depth jumps n = .ok (v, last)) : ∃ t, Reads c jumps [n] [t] last := by
  induction depth using Nat.strongRecOn generalizing n jumps v last with
  | ind depth ih =>
    rcases value_cases hc hn h with ⟨text, plain, hfollow⟩ | ⟨less, items, inside, vs, rfl, hfollow, hitems, hchain⟩ |
      ⟨less, entries, inside, es, rfl, hfollow, hentries, hread⟩
    · exact ⟨.scalar text plain, .scalar hfollow (.nil _)⟩
    · obtain ⟨ts, hts⟩ := exists_reads_of_chain
        (fun m hm _ _ _ => ih less (Nat.lt_succ_self less) (untaggedItems_iff.1 hitems m hm)) hchain
      exact ⟨.sequence ts, .sequence hfollow hts (.nil _)⟩
    · exact exists_reads_of_fresh hfollow
        (fun m hm _ _ _ => ih less (Nat.lt_succ_self less) (untaggedEntries_iff.1 hentries m hm)) hread

/-- A node that has the entries of a mapping is a tree. -/
theorem exists_reads_of_entries {wanted : String} {es : List (Value × Value)} (hc : c.IsUntagged)
    (hn : n.IsUntagged) (h : c.entries wanted depth jumps n = .ok (es, last)) : ∃ t, Reads c jumps [n] [t] last := by
  unfold Context.entries at h
  obtain ⟨⟨m, inside⟩, hfollow, h⟩ := bind_eq_ok_iff.1 h
  have hm := hn.follow hc hfollow
  cases m with
  | scalar text plain tag =>
    obtain rfl : tag = none := hm
    dsimp only at h
    split at h
    case isTrue =>
      cases h
      exact ⟨.scalar text plain, .scalar hfollow (.nil _)⟩
    case isFalse => cases h
  | sequence items tag closed => cases h
  | mapping entries tag closed =>
    obtain ⟨rfl, hentries⟩ := hm
    cases depth with
    | zero => cases h
    | succ less =>
      obtain ⟨⟨found, after⟩, hread, hclosing⟩ := bind_eq_ok_iff.1 h
      cases closed with
      | true =>
        cases hclosing
        exact exists_reads_of_fresh hfollow
          (fun m hm _ _ _ => exists_reads_of_value hc (untaggedEntries_iff.1 hentries m hm)) hread
      | false => cases hclosing
  | _ => cases h

end Pipeworks.Yaml
