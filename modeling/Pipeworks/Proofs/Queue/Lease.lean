/-
Many consumers share a queue, and each settles what it was handed itself, once. A delivery holds its message
until it is settled or its lease has run out, unless somebody else who was handed the message before settles
that in between: a settlement names the message, not the delivery. `guarded_of` says so of every queue whose
operations keep the laws of a `Lessor`; the laws speak of one operation, the histories are dealt with here.
-/
import Mathlib.Data.List.Basic
import Pipeworks.Queue.Delivery

namespace Pipeworks.Queue

/-- How a delivery is settled. -/
inductive Settlement where
  | ack
  | nack

/-- A queue as those see it who share it. Its clock counts whatever its leases are measured in. -/
structure Broker (Tag : Type) where
  State : Type
  /-- Who receives. -/
  Receiver : Type
  /-- What happens besides deliveries and settlements. -/
  Event : Type
  start : State
  now : State → Nat
  /-- When the lease ends of what is received now. -/
  term : Receiver → State → Nat
  /-- What a receiver may be handed, the first one next. -/
  waiting : Receiver → State → List Tag
  /-- The message that the tag of a delivery names. -/
  message : Int → Tag
  receive : Receiver → State → Except Fault (Option Delivery) × State
  settle : Settlement → Tag → State → Except Fault Unit × State
  happen : Event → State → State

variable {Tag : Type}

/-! ## Deliveries -/

/-- A delivery as the one knows it to whom it was handed. -/
structure Handed (Tag : Type) where
  message : Tag
  /-- When its lease ends. -/
  ends : Nat
  settled : Bool := false
  /-- Whether another delivery of the message has been settled since. -/
  overruled : Bool := false

/-- Whether the delivery is the one that holds its message at a time. -/
structure Handed.Holds (now : Nat) (h : Handed Tag) : Prop where
  unsettled : h.settled = false
  alone : h.overruled = false
  running : now ≤ h.ends

namespace Broker

/-- The queue with all deliveries so far, in their order. -/
structure History (b : Broker Tag) where
  queue : b.State := b.start
  handed : List (Handed Tag) := []

variable {b : Broker Tag}

/-! ## Laws -/

/-- The leases of a queue and what each operation does to them. -/
structure Lessor (b : Broker Tag) where
  Sound : b.State → Prop
  /-- When the lease of a message ends, if it has one. -/
  lease : b.State → Tag → Option Nat
  start : Sound b.start
  soundReceive : ∀ {s} r, Sound s → Sound (b.receive r s).2
  soundSettle : ∀ {s} how m, Sound s → Sound (b.settle how m s).2
  soundHappen : ∀ {s} e, Sound s → Sound (b.happen e s)
  /-- The lease of what waits has run out. -/
  waits : ∀ {s r m t}, Sound s → m ∈ b.waiting r s → lease s m = some t → t < b.now s
  /-- Nothing is handed out, and nothing changes, or what waits first is handed out and leased. -/
  received : ∀ {s} r, Sound s → b.now (b.receive r s).2 = b.now s ∧
    (((b.waiting r s = [] ∨ (b.receive r s).1 = .error .unavailable) ∧ (b.receive r s).2 = s ∧
        ∀ d, (b.receive r s).1 ≠ .ok (some d)) ∨
      ∃ d, (b.receive r s).1 = .ok (some d) ∧ (b.waiting r s).head? = some (b.message d.tag) ∧
        lease (b.receive r s).2 (b.message d.tag) = some (b.term r s) ∧
        ∀ m, m ≠ b.message d.tag → lease (b.receive r s).2 m = lease s m)
  /-- A settlement concerns one message; one that fails changes nothing. -/
  settles : ∀ {s} how m, Sound s → b.now (b.settle how m s).2 = b.now s ∧
    (∀ f, (b.settle how m s).1 = .error f → (b.settle how m s).2 = s) ∧
    ∀ m', m' ≠ m → lease (b.settle how m s).2 m' = lease s m'
  leased : ∀ {s m t} how, Sound s → lease s m = some t → (b.settle how m s).1 = .ok ()
  nacked : ∀ {s m t}, Sound s → lease s m = some t → ∃ r, m ∈ b.waiting r (b.settle .nack m s).2
  acked : ∀ {s m t} how, Sound s → lease s m = some t → ∃ tag, b.message tag = m ∧
    (b.settle how m (b.settle .ack m s).2).1 = .error (.unknownDelivery tag)
  /-- Time goes on, and leases that still run then are kept. -/
  happens : ∀ {s} e, Sound s → b.now s ≤ b.now (b.happen e s) ∧
    ∀ {m t}, lease s m = some t → b.now (b.happen e s) ≤ t → lease (b.happen e s) m = some t

/-- The leases are those of the deliveries that hold their messages. -/
structure Lessor.Agrees (l : Lessor b) (s : b.History) : Prop where
  sound : l.Sound s.queue
  leases : ∀ h ∈ s.handed, h.Holds (b.now s.queue) → l.lease s.queue h.message = some h.ends
  one : ∀ (i j : Nat) (g h : Handed Tag), s.handed[i]? = some g → s.handed[j]? = some h → g.message = h.message →
    g.Holds (b.now s.queue) → h.Holds (b.now s.queue) → i = j

variable {l : Lessor b} {s : b.History}

theorem Lessor.Agrees.new (l : Lessor b) : l.Agrees {} where
  sound := l.start
  leases := List.forall_mem_nil _
  one := fun i j g h hg => by cases hg

/-- What waits is not held. -/
theorem Lessor.Agrees.not_holds (ha : l.Agrees s) {h : Handed Tag} (hh : h ∈ s.handed) {r : b.Receiver}
    (hwaits : h.message ∈ b.waiting r s.queue) : ¬ h.Holds (b.now s.queue) := fun hholds =>
  absurd hholds.running (Nat.not_le.2 (l.waits ha.sound hwaits (ha.leases h hh hholds)))

/-! ## Histories -/

/-- What may happen next; deliveries are counted from zero. -/
inductive Move (b : Broker Tag) where
  | receive (r : b.Receiver)
  /-- The one to whom a delivery was handed settles it. -/
  | settle (how : Settlement) (k : Nat)
  | happen (e : b.Event)

/-- What a receiver is handed. -/
def granted (b : Broker Tag) (ends : Nat) : Except Fault (Option Delivery) → List (Handed Tag)
  | .ok (some d) => [{ message := b.message d.tag, ends }]
  | _ => []

variable [DecidableEq Tag]

/-- A delivery after another or itself has been settled. -/
def marked (k : Nat) (message : Tag) (result : Except Fault Unit) (i : Nat) (h : Handed Tag) : Handed Tag :=
  if i = k then { h with settled := true }
  else match result with
    | .error _ => h
    | .ok () => if h.message = message then { h with overruled := true } else h

/-- The one to whom a delivery was handed settles it, unless that has been done. -/
def History.settleBy (s : b.History) (how : Settlement) (k : Nat) : b.History :=
  match s.handed[k]? with
  | none => s
  | some h =>
    if h.settled then s
    else
      { queue := (b.settle how h.message s.queue).2
        handed := s.handed.mapIdx (marked k h.message (b.settle how h.message s.queue).1) }

/-- The history after a move. -/
def History.after (s : b.History) : b.Move → b.History
  | .receive r =>
    { queue := (b.receive r s.queue).2
      handed := s.handed ++ b.granted (b.term r s.queue) (b.receive r s.queue).1 }
  | .settle how k => s.settleBy how k
  | .happen e => { s with queue := b.happen e s.queue }

theorem History.after_receive (s : b.History) (r : b.Receiver) : s.after (.receive r) =
    ⟨(b.receive r s.queue).2, s.handed ++ b.granted (b.term r s.queue) (b.receive r s.queue).1⟩ := rfl

/-- What a settlement does that is the first by its delivery. -/
theorem History.after_settle {s : b.History} {k : Nat} {h : Handed Tag} (hk : s.handed[k]? = some h)
    (hopen : h.settled = false) (how : Settlement) : s.after (.settle how k) =
      ⟨(b.settle how h.message s.queue).2,
        s.handed.mapIdx (marked k h.message (b.settle how h.message s.queue).1)⟩ := by
  show s.settleBy how k = _
  unfold settleBy
  rw [hk]
  exact if_neg (Bool.eq_false_iff.1 hopen)

/-- A second settlement by one delivery does not happen. -/
theorem History.after_settle_again {s : b.History} {k : Nat}
    (hk : ∀ h, s.handed[k]? = some h → h.settled = true) (how : Settlement) : s.after (.settle how k) = s := by
  show s.settleBy how k = _
  unfold settleBy
  cases hk' : s.handed[k]? with
  | none => rfl
  | some h => exact if_pos (hk h hk')

/-- The history of a queue that was new. -/
def History.of (moves : List b.Move) : b.History := moves.foldl History.after {}

theorem History.of_concat (moves : List b.Move) (move : b.Move) :
    History.of (moves ++ [move]) = (History.of moves).after move :=
  List.foldl_concat _ _ _ _

/-! ## What is promised -/

/-- What leases are good for in a history. -/
structure Guarded (s : b.History) : Prop where
  /-- No two deliveries hold one message. -/
  one : ∀ (i j : Nat) (g h : Handed Tag), s.handed[i]? = some g → s.handed[j]? = some h → g.message = h.message →
    g.Holds (b.now s.queue) → h.Holds (b.now s.queue) → i = j
  /-- A message that a delivery holds is handed to nobody. -/
  kept : ∀ h ∈ s.handed, h.Holds (b.now s.queue) → ∀ r,
    h.message ∉ b.waiting r s.queue ∧ ∀ d, (b.receive r s.queue).1 = .ok (some d) → b.message d.tag ≠ h.message
  /-- A delivery that holds its message can be settled. -/
  settled : ∀ h ∈ s.handed, h.Holds (b.now s.queue) → ∀ how, (b.settle how h.message s.queue).1 = .ok ()
  /-- But an earlier one of the message takes it away, given back or for good. -/
  late : ∀ (i j : Nat) (g h : Handed Tag), s.handed[i]? = some g → s.handed[j]? = some h → i ≠ j →
    g.message = h.message → g.settled = false → h.Holds (b.now s.queue) →
      (∃ r, h.message ∈ b.waiting r (s.after (.settle .nack i)).queue) ∧
      ∀ how, ∃ tag, b.message tag = h.message ∧
        (b.settle how h.message (s.after (.settle .ack i)).queue).1 = .error (.unknownDelivery tag)
  /-- What waits is handed out in its order. -/
  next : ∀ r, (∀ d, (b.receive r s.queue).1 = .ok (some d) →
      (b.waiting r s.queue).head? = some (b.message d.tag)) ∧
    ∀ m, (b.waiting r s.queue).head? = some m → (b.receive r s.queue).1 = .error .unavailable ∨
      ∃ d, (b.receive r s.queue).1 = .ok (some d) ∧ b.message d.tag = m

/-! ## Every history -/

theorem Lessor.Agrees.receive (ha : l.Agrees s) (r : b.Receiver) : l.Agrees (s.after (.receive r)) := by
  obtain ⟨hnow, ⟨-, hsame, hnothing⟩ | ⟨d, hd, hfirst, hleased, hothers⟩⟩ := l.received r ha.sound
  · have hgranted : b.granted (b.term r s.queue) (b.receive r s.queue).1 = [] := by
      unfold granted
      split
      case h_1 d hd => exact absurd hd (hnothing d)
      case h_2 => rfl
    rw [History.after_receive, hgranted, hsame, List.append_nil]
    exact ha
  · have hwaits : b.message d.tag ∈ b.waiting r s.queue := List.mem_of_mem_head? hfirst
    have hgranted : b.granted (b.term r s.queue) (b.receive r s.queue).1 =
        [{ message := b.message d.tag, ends := b.term r s.queue }] := by rw [hd]; rfl
    rw [History.after_receive, hgranted]
    refine ⟨l.soundReceive r ha.sound, fun h hh hholds => ?_, fun i j g h hg hh hsame hgholds hhholds => ?_⟩
    · rw [hnow] at hholds
      rcases List.mem_append.1 hh with hh | hh
      · have hother : h.message ≠ b.message d.tag := fun heq => ha.not_holds hh (heq ▸ hwaits) hholds
        exact (hothers _ hother).trans (ha.leases h hh hholds)
      · rw [List.mem_singleton.1 hh]
        exact hleased
    · rw [hnow] at hgholds hhholds
      -- of two, the later one is new, and then the earlier one does not hold what waited
      have hold : ∀ {k e}, (s.handed ++ [⟨b.message d.tag, b.term r s.queue, false, false⟩])[k]? = some e →
          s.handed[k]? = some e ∧ (e.Holds (b.now s.queue) → e.message ≠ b.message d.tag) ∨
            k = s.handed.length ∧ e.message = b.message d.tag := by
        intro k e he
        rcases Nat.lt_or_ge k s.handed.length with hk | hk
        · rw [List.getElem?_append_left hk] at he
          exact .inl ⟨he, fun hholds heq => ha.not_holds (List.mem_of_getElem? he) (heq ▸ hwaits) hholds⟩
        · rw [List.getElem?_append_right hk, List.getElem?_singleton] at he
          split at he
          case isTrue hzero =>
            cases he
            exact .inr ⟨by omega, rfl⟩
          case isFalse => cases he
      rcases hold hg with ⟨hg, hgnot⟩ | ⟨rfl, hgmessage⟩ <;> rcases hold hh with ⟨hh, hhnot⟩ | ⟨rfl, hhmessage⟩
      · exact ha.one i j g h hg hh hsame hgholds hhholds
      · exact absurd (hsame.trans hhmessage) (hgnot hgholds)
      · exact absurd (hsame.symm.trans hgmessage) (hhnot hhholds)
      · rfl

/-- A delivery that holds its message after a settlement has not changed, and it is another message that was
settled, if any was. -/
theorem holds_of_marked {k i now : Nat} {m : Tag} {result : Except Fault Unit} {h : Handed Tag}
    (hholds : (marked k m result i h).Holds now) :
    marked k m result i h = h ∧ (result = .ok () → h.message ≠ m) := by
  unfold marked at hholds ⊢
  split at hholds
  case isTrue => cases hholds.unsettled
  case isFalse hother =>
    rw [if_neg hother]
    cases result with
    | error f => exact ⟨rfl, fun heq => by cases heq⟩
    | ok u =>
      dsimp only at hholds ⊢
      split at hholds
      case isTrue => cases hholds.alone
      case isFalse hmessage =>
        rw [if_neg hmessage]
        exact ⟨rfl, fun _ => hmessage⟩

theorem Lessor.Agrees.settle (ha : l.Agrees s) (how : Settlement) (k : Nat) :
    l.Agrees (s.after (.settle how k)) := by
  by_cases hfirst : ∃ e, s.handed[k]? = some e ∧ e.settled = false
  case neg =>
    rw [History.after_settle_again fun e hk => Bool.of_not_eq_false fun hopen => hfirst ⟨e, hk, hopen⟩]
    exact ha
  case pos =>
    obtain ⟨e, hk, hopen⟩ := hfirst
    obtain ⟨hnow, hfails, hothers⟩ := l.settles how e.message ha.sound
    have hback : ∀ {i : Nat} {h : Handed Tag},
        (s.handed.mapIdx (marked k e.message (b.settle how e.message s.queue).1))[i]? = some h →
        h.Holds (b.now s.queue) → s.handed[i]? = some h ∧
          ((b.settle how e.message s.queue).1 = .ok () → h.message ≠ e.message) := by
      intro i h hh hholds
      rw [List.getElem?_mapIdx] at hh
      obtain ⟨h', hh', rfl⟩ := Option.map_eq_some_iff.1 hh
      obtain ⟨hsame, hother⟩ := holds_of_marked hholds
      rw [hsame]
      exact ⟨hh', hother⟩
    rw [History.after_settle hk hopen]
    refine ⟨l.soundSettle how _ ha.sound, fun h hh hholds => ?_, fun i j g h hg hh hsame hgholds hhholds => ?_⟩
    · rw [hnow] at hholds
      obtain ⟨i, hi⟩ := List.mem_iff_getElem?.1 hh
      obtain ⟨hh, hother⟩ := hback hi hholds
      have hlease := ha.leases h (List.mem_of_getElem? hh) hholds
      cases hresult : (b.settle how e.message s.queue).1 with
      | error f => rw [hfails f hresult, hlease]
      | ok u => rw [hothers _ (hother hresult), hlease]
    · rw [hnow] at hgholds hhholds
      exact ha.one i j g h (hback hg hgholds).1 (hback hh hhholds).1 hsame hgholds hhholds

theorem Lessor.Agrees.happen (ha : l.Agrees s) (e : b.Event) : l.Agrees (s.after (.happen e)) := by
  obtain ⟨hlater, hkeeps⟩ := l.happens e ha.sound
  have hbefore : ∀ h : Handed Tag, h.Holds (b.now (b.happen e s.queue)) → h.Holds (b.now s.queue) :=
    fun h hholds => ⟨hholds.unsettled, hholds.alone, Nat.le_trans hlater hholds.running⟩
  exact ⟨l.soundHappen e ha.sound,
    fun h hh hholds => hkeeps (ha.leases h hh (hbefore h hholds)) hholds.running,
    fun i j g h hg hh hsame hgholds hhholds => ha.one i j g h hg hh hsame (hbefore g hgholds) (hbefore h hhholds)⟩

/-- The agreement outlasts every move, so it holds in every history. -/
theorem Lessor.Agrees.of (l : Lessor b) (moves : List b.Move) : l.Agrees (History.of moves) :=
  List.foldlRecOn moves History.after (.new l) fun _ ha move _ =>
    match move with
    | .receive r => ha.receive r
    | .settle how k => ha.settle how k
    | .happen e => ha.happen e

theorem Lessor.Agrees.guarded (ha : l.Agrees s) : Guarded s where
  one := ha.one
  kept := fun h hh hholds r => by
    have hnot : h.message ∉ b.waiting r s.queue := fun hwaits => ha.not_holds hh hwaits hholds
    refine ⟨hnot, fun d hd heq => ?_⟩
    obtain ⟨-, ⟨-, -, hnothing⟩ | ⟨d', hd', hfirst, -⟩⟩ := l.received r ha.sound
    · exact hnothing d hd
    · rw [hd] at hd'
      cases hd'
      exact hnot (heq ▸ List.mem_of_mem_head? hfirst)
  settled := fun h hh hholds how => l.leased how ha.sound (ha.leases h hh hholds)
  late := fun i j g h hg hh _ hsame hopen hholds => by
    have hlease := ha.leases h (List.mem_of_getElem? hh) hholds
    have hafter : ∀ how, (s.after (.settle how i)).queue = (b.settle how h.message s.queue).2 := by
      intro how
      rw [History.after_settle hg hopen, hsame]
    rw [hafter, hafter]
    exact ⟨l.nacked ha.sound hlease, fun how => l.acked how ha.sound hlease⟩
  next := fun r => by
    obtain ⟨-, ⟨hempty | hdown, -, hnothing⟩ | ⟨d, hd, hfirst, -⟩⟩ := l.received r ha.sound
    · rw [hempty]
      exact ⟨fun d hd => absurd hd (hnothing d), fun m hm => by cases hm⟩
    · exact ⟨fun d hd => absurd hd (hnothing d), fun m _ => .inl hdown⟩
    · refine ⟨fun d' hd' => ?_, fun m hm => .inr ⟨d, hd, Option.some.inj (hfirst.symm.trans hm)⟩⟩
      rw [hd] at hd'
      cases hd'
      exact hfirst

/-- Whoever shares a queue that keeps the laws, leases are good for what is promised. -/
theorem guarded_of (l : Lessor b) (moves : List b.Move) : Guarded (History.of moves) :=
  (Lessor.Agrees.of l moves).guarded

end Broker

end Pipeworks.Queue
