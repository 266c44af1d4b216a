/-
JSON that is written is read back: the reader takes the text of a value for the value's node (`ofText_text`).
A string is read piece by piece and a number digit by digit; for values inside one another the induction is
on the fuel of the reader, of which two for each character are enough (`Reads`).
-/
import Mathlib.Algebra.Ring.Int.Defs
import Pipeworks.Json.Reader
import Pipeworks.Json.Value
import Pipeworks.Proofs.Text.Utf8

namespace Pipeworks.Json

/-! ## Strings -/

/-- A piece of a string that is read as the character. -/
def Piece.StandsFor (p : Piece) (c : Char) : Prop :=
  ∀ (acc : List Char) (ps : List Piece), join acc (p :: ps) = join (c :: acc) ps

theorem char_standsFor (c : Char) : (Piece.char c).StandsFor c := fun _ _ => rfl

theorem unit_standsFor {c : Char} (h : c.toNat < 0x20) : (Piece.unit c.toNat).StandsFor c := by
  intro acc ps
  have hsmall : c.toNat < 0xD800 ∨ 0xDFFF < c.toNat := .inl (by omega)
  rw [join.eq_def]
  simp only [hsmall, if_true, Char.ofNat_toNat]

theorem unitOf_lowerDigits {n : Nat} (h : n < 0x20) :
    unitOf (some '0') (some '0') (some (Hex.lowerDigit (n / 16))) (some (Hex.lowerDigit (n % 16))) =
      some n := by
  have hall : ∀ m < 0x20, unitOf (some '0') (some '0') (some (Hex.lowerDigit (m / 16)))
      (some (Hex.lowerDigit (m % 16))) = some m := by decide
  exact hall n h

/-- An escaped character is read as one piece that stands for it. -/
theorem pieces_escaped (c : Char) :
    ∃ p : Piece, p.StandsFor c ∧ ∀ (acc : List Piece) (rest : Input),
      pieces acc ((escaped c).map some ++ rest) = pieces (p :: acc) rest := by
  unfold escaped
  split
  case h_8 hquote hslash _ _ _ _ _ =>
    split
    case isTrue hcontrol =>
      refine ⟨.unit c.toNat, unit_standsFor hcontrol, fun acc rest => ?_⟩
      show pieces acc (some '\\' :: some 'u' :: some '0' :: some '0' ::
        some (Hex.lowerDigit (c.toNat / 16)) :: some (Hex.lowerDigit (c.toNat % 16)) :: rest) = _
      rw [pieces, unitOf_lowerDigits hcontrol]
    case isFalse hplain =>
      refine ⟨.char c, char_standsFor c, fun acc rest => ?_⟩
      show pieces acc (some c :: rest) = _
      rw [pieces, if_neg hplain]
      all_goals simp_all
  all_goals exact ⟨.char _, char_standsFor _, fun _ _ => rfl⟩

theorem pieces_string (cs : List Char) :
    ∃ ps : List Piece, (∀ acc, join acc ps = some (acc.reverse ++ cs)) ∧
      ∀ (acc : List Piece) (rest : Input),
        pieces acc ((cs.flatMap escaped).map some ++ some '"' :: rest) = some (acc.reverse ++ ps, rest) := by
  induction cs with
  | nil => exact ⟨[], fun acc => by simp [join], fun acc rest => by simp [pieces]⟩
  | cons c cs ih =>
    obtain ⟨p, hp, hpiece⟩ := pieces_escaped c
    obtain ⟨ps, hjoin, hpieces⟩ := ih
    refine ⟨p :: ps, fun acc => ?_, fun acc rest => ?_⟩
    · rw [hp, hjoin]
      simp
    · rw [List.flatMap_cons, List.map_append, List.append_assoc, hpiece, hpieces]
      simp

/-- A string that is written is read back. -/
theorem stringRest_chars (s : String) (rest : Input) :
    stringRest ((s.toList.flatMap escaped).map some ++ some '"' :: rest) = some (some s, rest) := by
  obtain ⟨ps, hjoin, hpieces⟩ := pieces_string s.toList
  simp [stringRest, hpieces, hjoin]

/-! ## Numbers -/

/-- The numeral of a whole number. -/
def wholeNumeral (n : Int) : Numeral := ⟨decide (n < 0), Nat.toDigits 10 n.natAbs, [], none⟩

/-- What may follow a value: nothing, or one of the marks after a part. -/
def Closes (rest : Input) : Prop :=
  ∀ c ∈ rest.head?, c = some ',' ∨ c = some ']' ∨ c = some '\x7d'

theorem natOfDigits_eq (cs : List Char) : natOfDigits cs = Nat.ofDigitChars 10 cs 0 := by
  unfold natOfDigits Nat.ofDigitChars
  simp only [digitValue, Nat.mul_comm]
  rfl

theorem natOfDigits_toDigits (n : Nat) : natOfDigits (Nat.toDigits 10 n) = n := by
  rw [natOfDigits_eq, Nat.ofDigitChars_ten_toDigits]

theorem isDigit_of_mem_toDigits {n : Nat} {c : Char} (h : c ∈ Nat.toDigits 10 n) : isDigit (some c) := by
  have hdigit := Nat.isDigit_of_mem_toDigits (by decide) (by decide) h
  simpa [isDigit, Char.isDigit, Char.le_def] using hdigit

theorem digits_append {ds : List Char} {rest : Input} (hds : ∀ d ∈ ds, isDigit (some d))
    (hrest : ∀ c ∈ rest.head?, isDigit c = false) : digits (ds.map some ++ rest) = (ds, rest) := by
  have hall : ∀ c ∈ ds.map some, isDigit c := by simpa using hds
  have hnone : rest.takeWhile isDigit = [] ∧ rest.dropWhile isDigit = rest := by
    cases rest with
    | nil => exact ⟨rfl, rfl⟩
    | cons c rest => simp [hrest c rfl]
  unfold digits
  rw [List.takeWhile_append_of_pos hall, List.dropWhile_append_of_pos hall, hnone.1, hnone.2]
  simp

/-- Only the digits of zero start with a zero. -/
theorem toDigits_leading {n : Nat} {ds : List Char} (h : Nat.toDigits 10 n = '0' :: ds) : ds = [] := by
  induction n using Nat.strongRecOn generalizing ds with
  | ind n ih =>
    by_cases hn : n < 10
    case pos =>
      rw [Nat.toDigits_of_lt_base hn] at h
      exact (List.cons.inj h).2.symm
    case neg =>
      rw [Nat.toDigits_of_base_le (by decide) (by omega)] at h
      obtain ⟨front, hfront⟩ : ∃ front, Nat.toDigits 10 (n / 10) = '0' :: front := by
        cases hd : Nat.toDigits 10 (n / 10) with
        | nil => exact absurd hd Nat.toDigits_ne_nil
        | cons d front =>
          rw [hd] at h
          exact ⟨front, by rw [(List.cons.inj h).1]⟩
      have hzero : n / 10 = 0 := by
        rw [← natOfDigits_toDigits (n / 10), hfront, ih (n / 10) (by omega) hfront]
        rfl
      omega

theorem wholePart_toDigits (n : Nat) {rest : Input} (hrest : ∀ c ∈ rest.head?, isDigit c = false) :
    wholePart ((Nat.toDigits 10 n).map some ++ rest) = some (Nat.toDigits 10 n, rest) := by
  unfold wholePart
  rw [digits_append (fun d hd => isDigit_of_mem_toDigits hd) hrest]
  split
  case h_1 _ hnil => exact absurd (congrArg Prod.fst hnil) Nat.toDigits_ne_nil
  case h_2 heq => rw [Prod.mk.injEq] at heq; rw [heq.1, heq.2]
  case h_3 hlong heq =>
    rw [Prod.mk.injEq] at heq
    exact (hlong (toDigits_leading heq.1)).elim
  case h_4 heq => rw [Prod.mk.injEq] at heq; rw [heq.1, heq.2]

theorem quantity?_wholeNumeral {n : Int} (hlow : -(2 ^ 63) ≤ n) (hhigh : n < 2 ^ 64) :
    (wholeNumeral n).quantity? = some (.whole n) := by
  unfold Numeral.quantity?
  simp only [wholeNumeral, natOfDigits_toDigits, List.isEmpty_nil, Option.isNone_none, Bool.and_self,
    if_true, decide_eq_true_eq, Nat.pow_eq]
  by_cases hneg : n < 0
  · rw [if_pos hneg, if_pos (by omega)]
    congr
    omega
  · rw [if_neg hneg, if_pos (by omega)]
    congr
    omega

theorem Closes.notDigit {rest : Input} (h : Closes rest) : ∀ c ∈ rest.head?, isDigit c = false := by
  intro c hc
  rcases h c hc with rfl | rfl | rfl <;> decide

theorem numeral_toDigits (negative : Bool) (n : Nat) {rest : Input} (hrest : Closes rest) :
    numeral negative ((Nat.toDigits 10 n).map some ++ rest) =
      some (⟨negative, Nat.toDigits 10 n, [], none⟩, rest) := by
  have hfraction : fractionPart rest = some ([], rest) := by
    unfold fractionPart
    split
    case h_1 => exact absurd (hrest _ rfl) (by decide)
    case h_2 => rfl
  have hexponent : exponentPart rest = some (none, rest) := by
    unfold exponentPart
    split
    case h_1 => exact absurd (hrest _ rfl) (by decide)
    case h_2 => exact absurd (hrest _ rfl) (by decide)
    case h_3 => rfl
  unfold numeral
  rw [wholePart_toDigits n hrest.notDigit]
  simp only [Option.bind_eq_bind, Option.bind_some, hfraction, hexponent]

/-! ## Values -/

mutual

/-- The node of a value that is written. -/
def Value.node : Value → Node
  | .null => .null
  | .bool b => .bool b
  | .int n => .number (wholeNumeral n)
  | .string s => .string (some s)
  | .array vs => .array (itemNodes vs) true
  | .object ms => .object (memberNodes ms) true

def itemNodes : List Value → List Node
  | [] => []
  | v :: vs => v.node :: itemNodes vs

def memberNodes : List (String × Value) → List (Option String × Node)
  | [] => []
  | (k, v) :: ms => (some k, v.node) :: memberNodes ms

end

theorem skipSpace_mark {c : Char} (h : isSpace (some c) = false) (rest : Input) :
    skipSpace (some c :: rest) = some c :: rest := by
  unfold skipSpace
  rw [List.dropWhile_cons_of_neg (by simp [h])]

theorem space_of_isDigit {d : Char} (h : isDigit (some d)) : isSpace (some d) = false := by
  unfold isSpace
  split <;> simp_all [isDigit]

theorem readValue_string (fuel : Nat) (s : String) (rest : Input) :
    readValue (fuel + 1) ((stringChars s).map some ++ rest) = (.string (some s), some rest) := by
  have hchars : (stringChars s).map some ++ rest =
      some '"' :: ((s.toList.flatMap escaped).map some ++ some '"' :: rest) := by
    simp [stringChars]
  rw [hchars, readValue, skipSpace_mark (by decide)]
  simp only [stringRest_chars]

theorem readValue_int (fuel : Nat) (n : Int) {rest : Input} (hrest : Closes rest) :
    readValue (fuel + 1) ((intChars n).map some ++ rest) = (.number (wholeNumeral n), some rest) := by
  unfold intChars
  split
  case isTrue hneg =>
    rw [List.map_cons, List.cons_append, readValue, skipSpace_mark (by decide)]
    simp only [numberNode, numeral_toDigits true n.natAbs hrest, wholeNumeral, hneg, decide_true]
  case isFalse hneg =>
    obtain ⟨d, ds, hds⟩ := List.exists_cons_of_ne_nil (Nat.toDigits_ne_nil (n := n.natAbs) (b := 10))
    have hdigit : isDigit (some d) := isDigit_of_mem_toDigits (hds ▸ List.mem_cons_self)
    have hnumber : numberNode false ((Nat.toDigits 10 n.natAbs).map some ++ rest) =
        (.number (wholeNumeral n), some rest) := by
      simp only [numberNode, numeral_toDigits false n.natAbs hrest, wholeNumeral, hneg, decide_false]
    rw [hds, List.map_cons, List.cons_append] at hnumber ⊢
    rw [readValue, skipSpace_mark (space_of_isDigit hdigit)]
    -- a digit is none of the characters that other values start with
    split
    case h_8 => exact hnumber
    all_goals
      rename_i heq
      rw [(Option.some.inj (List.cons.inj heq).1)] at hdigit
      exact absurd hdigit (by decide)

theorem intChars_head (n : Int) :
    ∃ c cs, intChars n = c :: cs ∧ isSpace (some c) = false ∧ c ≠ ']' := by
  unfold intChars
  split
  case isTrue => exact ⟨'-', _, rfl, by decide, by decide⟩
  case isFalse =>
    obtain ⟨d, ds, hds⟩ := List.exists_cons_of_ne_nil (Nat.toDigits_ne_nil (n := n.natAbs) (b := 10))
    have hdigit : isDigit (some d) := isDigit_of_mem_toDigits (hds ▸ List.mem_cons_self)
    refine ⟨d, ds, hds, space_of_isDigit hdigit, ?_⟩
    rintro rfl
    exact absurd hdigit (by decide)

/-- A value starts with no blank, and not with the end of an array. -/
theorem chars_head (v : Value) : ∃ c cs, v.chars = c :: cs ∧ isSpace (some c) = false ∧ c ≠ ']' := by
  cases v with
  | null => exact ⟨_, _, rfl, by decide, by decide⟩
  | bool b => cases b <;> exact ⟨_, _, rfl, by decide, by decide⟩
  | int n => exact intChars_head n
  | string s => exact ⟨_, _, rfl, by decide, by decide⟩
  | array vs => cases vs <;> exact ⟨_, _, rfl, by decide, by decide⟩
  | object ms => cases ms <;> exact ⟨_, _, rfl, by decide, by decide⟩

theorem closes_itemChars (vs : List Value) (rest : Input) : Closes ((itemChars vs).map some ++ rest) := by
  intro c hc
  cases vs <;> simp [itemChars] at hc <;> simp [← hc]

theorem closes_memberChars (ms : List (String × Value)) (rest : Input) :
    Closes ((memberChars ms).map some ++ rest) := by
  intro c hc
  cases ms <;> simp [memberChars] at hc <;> simp [← hc]

section
variable {fuel : Nat} {input rest : Input} {n : Node}

theorem readValue_array {c : Char} (hspace : isSpace (some c) = false) (hend : c ≠ ']') :
    readValue (fuel + 1) (some '[' :: some c :: rest) = readItems fuel [] (some c :: rest) := by
  rw [readValue, skipSpace_mark (by decide)]
  simp only [skipSpace_mark hspace]
  split
  case h_1 heq => exact absurd (Option.some.inj (List.cons.inj heq).1) hend
  case h_2 => rfl

theorem readItems_last {acc : List Node} (h : readValue fuel input = (n, some (some ']' :: rest))) :
    readItems (fuel + 1) acc input = (.array (acc.reverse ++ [n]) true, some rest) := by
  rw [readItems, h, ← List.reverse_cons]
  rfl

theorem readItems_more {acc : List Node} (h : readValue fuel input = (n, some (some ',' :: rest))) :
    readItems (fuel + 1) acc input = readItems fuel (n :: acc) rest := by
  rw [readItems, h]
  rfl

variable {k : String} {acc : List (Option String × Node)}

/-- The text of a member with the input after it. -/
def memberInput (k : String) (input : Input) : Input :=
  (stringChars k).map some ++ some ':' :: input

theorem readMembers_key (k : String) (input : Input) :
    readMembers (fuel + 1) acc (memberInput k input) =
      match readValue fuel input with
      | (v, none) => (.object ((some k, v) :: acc).reverse false, none)
      | (v, some rest) =>
        match skipSpace rest with
        | some ',' :: rest => readMembers fuel ((some k, v) :: acc) rest
        | some '\x7d' :: rest => (.object ((some k, v) :: acc).reverse true, some rest)
        | _ => (.object ((some k, v) :: acc).reverse false, none) := by
  have hkey : memberInput k input =
      some '"' :: ((k.toList.flatMap escaped).map some ++ some '"' :: (some ':' :: input)) := by
    simp [memberInput, stringChars]
  rw [hkey, readMembers, skipSpace_mark (by decide)]
  simp only [stringRest_chars]
  rfl

theorem readMembers_last (h : readValue fuel input = (n, some (some '\x7d' :: rest))) :
    readMembers (fuel + 1) acc (memberInput k input) =
      (.object (acc.reverse ++ [(some k, n)]) true, some rest) := by
  rw [readMembers_key, h, ← List.reverse_cons]
  rfl

theorem readMembers_more (h : readValue fuel input = (n, some (some ',' :: rest))) :
    readMembers (fuel + 1) acc (memberInput k input) = readMembers fuel ((some k, n) :: acc) rest := by
  rw [readMembers_key, h]
  rfl

end

/-- What is read with so much fuel: twice as much as there are characters is enough. -/
structure Reads (fuel : Nat) : Prop where
  value (v : Value) (rest : Input) : 2 * v.chars.length ≤ fuel → Closes rest →
    readValue fuel (v.chars.map some ++ rest) = (v.node, some rest)
  items (v : Value) (vs : List Value) (acc : List Node) (rest : Input) :
    2 * (v.chars.length + (itemChars vs).length) ≤ fuel →
    readItems fuel acc (v.chars.map some ++ ((itemChars vs).map some ++ rest)) =
      (.array (acc.reverse ++ itemNodes (v :: vs)) true, some rest)
  members (k : String) (v : Value) (ms : List (String × Value)) (acc : List (Option String × Node))
    (rest : Input) : 2 * (v.chars.length + (memberChars ms).length) ≤ fuel →
    readMembers fuel acc (memberInput k (v.chars.map some ++ ((memberChars ms).map some ++ rest))) =
      (.object (acc.reverse ++ memberNodes ((k, v) :: ms)) true, some rest)

namespace Reads

variable {fuel : Nat}

theorem value_succ (h : Reads fuel) (v : Value) (rest : Input) (hfuel : 2 * v.chars.length ≤ fuel + 1)
    (hrest : Closes rest) : readValue (fuel + 1) (v.chars.map some ++ rest) = (v.node, some rest) := by
  cases v with
  | null => rfl
  | bool b => cases b <;> rfl
  | int n => exact readValue_int fuel n hrest
  | string s => exact readValue_string fuel s rest
  | array vs =>
    cases vs with
    | nil => rfl
    | cons v vs =>
      have hitems := h.items v vs [] rest (by simp [Value.chars] at hfuel; omega)
      have hinput : (Value.array (v :: vs)).chars.map some ++ rest =
          some '[' :: (v.chars.map some ++ ((itemChars vs).map some ++ rest)) := by
        simp [Value.chars]
      obtain ⟨c, cs, hhead, hspace, hend⟩ := chars_head v
      rw [hinput]
      rw [hhead, List.map_cons, List.cons_append] at hitems ⊢
      rw [readValue_array hspace hend]
      exact hitems
  | object ms =>
    cases ms with
    | nil => rfl
    | cons m ms =>
      obtain ⟨k, v⟩ := m
      have hinput : (Value.object ((k, v) :: ms)).chars.map some ++ rest =
          some '\x7b' :: memberInput k (v.chars.map some ++ ((memberChars ms).map some ++ rest)) := by
        simp [Value.chars, memberInput]
      rw [hinput]
      exact h.members k v ms [] rest (by simp [Value.chars] at hfuel; omega)

theorem items_succ (h : Reads fuel) (v : Value) (vs : List Value) (acc : List Node) (rest : Input)
    (hfuel : 2 * (v.chars.length + (itemChars vs).length) ≤ fuel + 1) :
    readItems (fuel + 1) acc (v.chars.map some ++ ((itemChars vs).map some ++ rest)) =
      (.array (acc.reverse ++ itemNodes (v :: vs)) true, some rest) := by
  have hpos : 0 < (itemChars vs).length := by cases vs <;> simp [itemChars]
  have hvalue := h.value v _ (by omega) (closes_itemChars vs rest)
  cases vs with
  | nil => exact readItems_last hvalue
  | cons v' vs =>
    have hmore := h.items v' vs (v.node :: acc) rest (by simp [itemChars] at hfuel; omega)
    rw [List.reverse_cons, List.append_assoc] at hmore
    have hinput : (itemChars (v' :: vs)).map some ++ rest =
        some ',' :: (v'.chars.map some ++ ((itemChars vs).map some ++ rest)) := by
      simp [itemChars]
    rw [hinput] at hvalue ⊢
    exact (readItems_more hvalue).trans hmore

theorem members_succ (h : Reads fuel) (k : String) (v : Value) (ms : List (String × Value))
    (acc : List (Option String × Node)) (rest : Input)
    (hfuel : 2 * (v.chars.length + (memberChars ms).length) ≤ fuel + 1) :
    readMembers (fuel + 1) acc (memberInput k (v.chars.map some ++ ((memberChars ms).map some ++ rest))) =
      (.object (acc.reverse ++ memberNodes ((k, v) :: ms)) true, some rest) := by
  have hpos : 0 < (memberChars ms).length := by
    obtain _ | ⟨⟨k, v⟩, ms⟩ := ms <;> simp [memberChars]
  have hvalue := h.value v _ (by omega) (closes_memberChars ms rest)
  cases ms with
  | nil => exact readMembers_last hvalue
  | cons m ms =>
    obtain ⟨k', v'⟩ := m
    have hmore := h.members k' v' ms ((some k, v.node) :: acc) rest
      (by simp [memberChars] at hfuel; omega)
    rw [List.reverse_cons, List.append_assoc] at hmore
    have hinput : (memberChars ((k', v') :: ms)).map some ++ rest =
        some ',' :: memberInput k' (v'.chars.map some ++ ((memberChars ms).map some ++ rest)) := by
      simp [memberChars, memberInput]
    rw [hinput] at hvalue ⊢
    exact (readMembers_more hvalue).trans hmore

end Reads

theorem chars_pos (v : Value) : 0 < v.chars.length := by
  obtain ⟨c, cs, hchars, -, -⟩ := chars_head v
  rw [hchars]
  exact Nat.zero_lt_succ _

theorem reads (fuel : Nat) : Reads fuel := by
  induction fuel with
  | zero =>
    refine ⟨fun v rest hfuel => ?_, fun v vs acc rest hfuel => ?_, fun k v ms acc rest hfuel => ?_⟩ <;>
      exact absurd (chars_pos v) (by omega)
  | succ fuel ih => exact ⟨ih.value_succ, ih.items_succ, ih.members_succ⟩

/-- The document of a text that was written is the value's, and nothing is left over. -/
theorem ofText_text (v : Value) : Document.ofText v.text = ⟨v.node, true⟩ := by
  have hread := (reads (2 * (v.chars.map some).length + 2)).value v [] (by rw [List.length_map]; omega)
    (fun c hc => by cases hc)
  rw [List.append_nil] at hread
  unfold Document.ofText Document.ofInput Value.text
  rw [String.toList_ofList, hread]
  rfl

/-- A text is the same document when it arrives as bytes. -/
theorem ofBytes_bytes (s : String) : Document.ofBytes (Text.bytes s) = Document.ofText s := by
  unfold Document.ofBytes Document.ofText Text.bytes
  rw [Utf8.scan_encode]

end Pipeworks.Json
