/-
Records that are written are read back: every member is taken for its field, and then found under its name. So
are sequences, and whatever is read back from its node is read back from its text and from the bytes of that
(`readsBack_of_node`).
-/
import Pipeworks.Json.Shape
import Pipeworks.Proofs.Json.Written
import Pipeworks.Proofs.Time.Written

namespace Pipeworks.Json

/-! ## Scalars -/

theorem string_node (s : String) : string (Value.string s).node = .ok s := rfl

theorem int64_node (n : Int64) : int64 (Value.int n.toInt).node = .ok n := by
  have hlow : -(2 ^ 63) ≤ n.toInt := n.le_toInt
  have hhigh : n.toInt < 2 ^ 63 := n.toInt_lt
  have hbounds : Int64.minValue.toInt ≤ n.toInt ∧ n.toInt ≤ Int64.maxValue.toInt := by
    rw [Int64.toInt_minValue, Int64.toInt_maxValue]
    omega
  simp only [int64, integer, Value.node, quantity?_wholeNumeral hlow (by omega), hbounds, and_self, if_true,
    Except.map, Int64.ofInt_toInt]

theorem int32_node (n : Int32) : int32 (Value.int n.toInt).node = .ok n := by
  have hlow : -(2 ^ 31) ≤ n.toInt := n.le_toInt
  have hhigh : n.toInt < 2 ^ 31 := n.toInt_lt
  have hbounds : Int32.minValue.toInt ≤ n.toInt ∧ n.toInt ≤ Int32.maxValue.toInt := by
    rw [Int32.toInt_minValue, Int32.toInt_maxValue]
    omega
  simp only [int32, integer, Value.node, quantity?_wholeNumeral (n := n.toInt) (by omega) (by omega), hbounds,
    and_self, if_true, Except.map, Int32.ofInt_toInt]

theorem instant_node (t : Time.Instant) : instant (Value.string t.text).node = .ok t := by
  simp only [Value.node, instant, Time.ofText?_text]

theorem nullable_node {α : Type} {read : Node → Except Fault α} {write : α → Value}
    (hread : ∀ a, read (write a).node = .ok a) (hnull : ∀ a, (write a).node ≠ .null) (o : Option α) :
    nullable read (Value.optional write o).node = .ok o := by
  cases o with
  | none => rfl
  | some a =>
    unfold nullable Value.optional
    split
    case h_1 heq => exact absurd heq (hnull a)
    case h_2 => rw [hread]; rfl

/-! ## Sequences and whole texts -/

/-- What is written is read back, from its text and from the bytes of its text. -/
def ReadsBack {α : Type} (write : α → Value) (read : Node → Except Fault α) : Prop :=
  ∀ a, (Document.ofText (write a).text).read read = .ok a ∧
    (Document.ofBytes (Text.bytes (write a).text)).read read = .ok a

section
variable {α : Type} {read : Node → Except Fault α} {write : α → Value}
  (hread : ∀ a, read (write a).node = .ok a)

include hread

theorem items_itemNodes (i : Nat) (as : List α) : items read i (itemNodes (as.map write)) = .ok as := by
  induction as generalizing i with
  | nil => rfl
  | cons a as ih =>
    rw [List.map_cons, itemNodes, items, hread a, ih (i + 1)]
    rfl

theorem sequence_node (as : List α) : sequence read (Value.array (as.map write)).node = .ok as := by
  rw [Value.node, sequence, items_itemNodes hread 0 as]
  rfl

theorem readsBack_of_node : ReadsBack write read := by
  intro a
  have htext : (Document.ofText (write a).text).read read = .ok a := by
    rw [ofText_text, Document.read, hread a]
    rfl
  exact ⟨htext, by rw [ofBytes_bytes]; exact htext⟩

end

/-! ## Members -/

/-- The members of a record as they are found, the last one first. -/
def writtenFields (ms : List (String × Value)) : Found := (ms.map fun m => (m.1, m.2.node)).reverse

/-- A field of a record takes the member. -/
def Takes (fields : List Field) (m : String × Value) : Prop :=
  ∃ f, fields.find? (·.name == m.1) = some f ∧ f.check m.2.node = .ok ()

theorem takes_of {α : Type} {fields : List Field} {f : Field} {name : String} {v : Value}
    {read : Node → Except Fault α} {a : α} (hfind : fields.find? (·.name == name) = some f)
    (hcheck : f.check = checking read) (hread : read v.node = .ok a) : Takes fields (name, v) := by
  refine ⟨f, hfind, ?_⟩
  rw [hcheck, checking, hread]
  rfl

theorem mem_writtenFields {ms : List (String × Value)} {name : String} {n : Node} :
    (name, n) ∈ writtenFields ms ↔ ∃ v, (name, v) ∈ ms ∧ v.node = n := by
  rw [writtenFields, List.mem_reverse, List.mem_map]
  constructor
  · rintro ⟨⟨k, v⟩, hm, heq⟩
    obtain ⟨rfl, hv⟩ := Prod.mk.inj heq
    exact ⟨v, hm, hv⟩
  · rintro ⟨v, hm, rfl⟩
    exact ⟨_, hm, rfl⟩

/-- A member is found under its name. -/
theorem lookup_writtenFields {ms : List (String × Value)} (hnames : (ms.map Prod.fst).Nodup)
    {name : String} {v : Value} (h : (name, v) ∈ ms) : (writtenFields ms).lookup name = some v.node := by
  obtain ⟨front, back, rfl⟩ := List.append_of_mem h
  refine List.lookup_eq_some_iff.2 ⟨writtenFields back, writtenFields front, ?_, fun p hp => ?_⟩
  · simp [writtenFields]
  · obtain ⟨v', hv', -⟩ := mem_writtenFields.1 hp
    have hback : name ∉ back.map Prod.fst := by
      rw [List.map_append, List.map_cons] at hnames
      exact (List.nodup_cons.1 (List.nodup_append.1 hnames).2.1).1
    rw [bne_iff_ne]
    rintro rfl
    exact hback (List.mem_map_of_mem hv')

theorem lookup_writtenFields_eq_none {ms : List (String × Value)} {name : String}
    (h : name ∉ ms.map Prod.fst) : (writtenFields ms).lookup name = none := by
  refine List.lookup_eq_none_iff.2 fun p hp => ?_
  obtain ⟨v, hv, -⟩ := mem_writtenFields.1 hp
  rw [bne_iff_ne]
  rintro rfl
  exact h (List.mem_map_of_mem hv)

theorem members_memberNodes {fields : List Field} {found : Found} {ms : List (String × Value)}
    (hnames : (ms.map Prod.fst).Nodup) (hnew : ∀ m ∈ ms, found.lookup m.1 = none)
    (htakes : ∀ m ∈ ms, Takes fields m) :
    members fields found (memberNodes ms) = .ok (writtenFields ms ++ found) := by
  induction ms generalizing found with
  | nil => rfl
  | cons m ms ih =>
    obtain ⟨name, v⟩ := m
    obtain ⟨f, hf, hcheck⟩ := htakes _ List.mem_cons_self
    rw [List.map_cons, List.nodup_cons] at hnames
    have hnew' : ∀ m ∈ ms, List.lookup m.1 ((name, v.node) :: found) = none := by
      intro m hm
      have hne : (m.1 == name) = false := by
        rw [beq_eq_false_iff_ne]
        intro heq
        have hname : m.1 ∈ ms.map Prod.fst := List.mem_map_of_mem hm
        exact hnames.1 (heq ▸ hname)
      rw [List.lookup_cons, hne]
      exact hnew m (List.mem_cons_of_mem _ hm)
    have hrest := ih hnames.2 hnew' fun m hm => htakes m (List.mem_cons_of_mem _ hm)
    have hfound : found.lookup name = none := hnew _ List.mem_cons_self
    dsimp only at hf hcheck
    have hwritten : writtenFields ((name, v) :: ms) ++ found =
        writtenFields ms ++ (name, v.node) :: found := by
      simp [writtenFields]
    rw [hwritten, ← hrest]
    simp only [memberNodes, members, hf, hfound, Option.isSome_none, hcheck, within]
    rfl

theorem recordFields_object {fields : List Field} {ms : List (String × Value)} (name : String)
    (hnames : (ms.map Prod.fst).Nodup) (htakes : ∀ m ∈ ms, Takes fields m) :
    recordFields name fields (Value.object ms).node = .ok (writtenFields ms) := by
  unfold recordFields
  simp only [Value.node]
  rw [members_memberNodes hnames (fun m _ => rfl) htakes, List.append_nil]
  rfl

/-- A record is read as what is made of its members, if they are taken for its fields. -/
theorem record_object {fields : List Field} {ms : List (String × Value)} {name : String} {α : Type}
    {make : Found → Except Fault α} {a : α} (hnames : (ms.map Prod.fst).Nodup)
    (htakes : ∀ m ∈ ms, Takes fields m) (hmade : make (writtenFields ms) = .ok a) :
    (recordFields name fields (Value.object ms).node >>= make) = .ok a := by
  rw [recordFields_object name hnames htakes]
  exact hmade

section
variable {ms : List (String × Value)} (hnames : (ms.map Prod.fst).Nodup) {α : Type} {name : String}
  {read : Node → Except Fault α}

include hnames

theorem required_written {v : Value} {a : α} (h : (name, v) ∈ ms) (hread : read v.node = .ok a) :
    required (writtenFields ms) name read = .ok a := by
  unfold required
  rw [lookup_writtenFields hnames h]
  exact hread

theorem optional_written {v : Value} {o : Option α} (h : (name, v) ∈ ms)
    (hread : nullable read v.node = .ok o) : optional (writtenFields ms) name read = .ok o := by
  unfold optional
  rw [lookup_writtenFields hnames h]
  exact hread

theorem orElse_written {v : Value} {a fallback : α} (h : (name, v) ∈ ms) (hread : read v.node = .ok a) :
    orElse (writtenFields ms) name fallback read = .ok a := by
  unfold orElse
  rw [lookup_writtenFields hnames h]
  exact hread

omit hnames

theorem optional_leftOut (h : name ∉ ms.map Prod.fst) : optional (writtenFields ms) name read = .ok none := by
  unfold optional
  rw [lookup_writtenFields_eq_none h]

end

end Pipeworks.Json
