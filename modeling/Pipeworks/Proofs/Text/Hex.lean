/-
Digits of either case: what can be read of them is what they are in lower case (`decode?_eq_some_iff`), so a reader
takes what was written in lower case, in upper case and in any mixture of the two, and nothing else.
-/
import Mathlib.Data.List.Basic
import Pipeworks.Text.Digits

namespace Pipeworks.Hex

variable {n : Nat} {c : Char} {digits : List Char} {bytes : Bytes}

/-- A digit of either case. -/
def IsDigit (c : Char) : Prop := c ∈ "0123456789abcdefABCDEF".toList

instance (c : Char) : Decidable (IsDigit c) := inferInstanceAs (Decidable (c ∈ _))

/-! ## Digits -/

theorem IsDigit.bounds (h : IsDigit c) : 48 ≤ c.toNat ∧ c.toNat < 103 := by
  have hall : ("0123456789abcdefABCDEF".toList.all fun c => decide (48 ≤ c.toNat ∧ c.toNat < 103)) = true := by decide
  exact of_decide_eq_true (List.all_eq_true.1 hall c h)

theorem toNat_toLower (c : Char) :
    c.toLower.toNat = if 65 ≤ c.toNat ∧ c.toNat ≤ 90 then c.toNat + 32 else c.toNat := by
  unfold Char.toLower
  split
  case isTrue h =>
    have hletter : 65 ≤ c.toNat ∧ c.toNat ≤ 90 := h
    have hhigh : c.val.toNat ≤ 90 := h.2
    rw [if_pos hletter]
    show (c.val + 32).toNat = c.val.toNat + 32
    rw [UInt32.toNat_add, show UInt32.toNat 32 = 32 from rfl]
    omega
  case isFalse h => exact (if_neg h).symm

theorem toNat_lowerDigit (h : n < 16) : (lowerDigit n).toNat = if n < 10 then 48 + n else 87 + n := by
  have hall : ∀ m < 16, (lowerDigit m).toNat = if m < 10 then 48 + m else 87 + m := by decide
  exact hall n h

/-- A digit has the value of that in lower case. -/
theorem digit?_eq_some_iff : digit? c = some n ↔ n < 16 ∧ c.toLower = lowerDigit n := by
  simp only [digit?, Bool.and_eq_true, decide_eq_true_eq]
  constructor
  · intro h
    have hn : n < 16 := by split_ifs at h <;> cases h <;> omega
    rw [← Char.toNat_inj, toNat_toLower, toNat_lowerDigit hn]
    refine ⟨hn, ?_⟩
    split_ifs at h <;> cases h <;> split_ifs <;> omega
  · rintro ⟨hn, hc⟩
    rw [← Char.toNat_inj, toNat_toLower, toNat_lowerDigit hn] at hc
    by_cases hten : n < 10
    · have hnat : c.toNat = 48 + n := by split_ifs at hc <;> omega
      rw [if_pos (by omega)]
      exact congrArg some (by omega)
    · have hnat : c.toNat = 87 + n ∨ c.toNat = 55 + n := by split_ifs at hc <;> omega
      rw [if_neg (by omega)]
      obtain hlower | hupper := hnat
      · rw [if_pos (by omega)]
        exact congrArg some (by omega)
      · rw [if_neg (by omega), if_pos (by omega)]
        exact congrArg some (by omega)

theorem digit?_upperDigit (h : n < 16) : digit? (upperDigit n) = some n := by
  have hall : ∀ m < 16, digit? (upperDigit m) = some m := by decide
  exact hall n h

theorem isDigit_of_toLower (h : n < 16) (hc : c.toLower = lowerDigit n) : IsDigit c := by
  have hall : ∀ k < 128, (digit? (Char.ofNat k)).isSome → IsDigit (Char.ofNat k) := by decide +kernel
  have hsome := digit?_eq_some_iff.2 ⟨h, hc⟩
  have hsmall : c.toNat < 128 := by
    have hnat := congrArg Char.toNat hc
    rw [toNat_toLower, toNat_lowerDigit h] at hnat
    split_ifs at hnat <;> omega
  have hdigit := hall c.toNat hsmall
  rw [Char.ofNat_toNat] at hdigit
  exact hdigit (by rw [hsome]; rfl)

/-! ## Bytes -/

theorem encode_cons (byte : UInt8) (bytes : Bytes) :
    encode (byte :: bytes) = lowerDigit (byte.toNat / 16) :: lowerDigit (byte.toNat % 16) :: encode bytes := rfl

theorem length_encode (bytes : Bytes) : (encode bytes).length = 2 * bytes.length := by
  induction bytes with
  | nil => rfl
  | cons b bytes ih =>
    rw [encode_cons, List.length_cons, List.length_cons, ih, List.length_cons]
    omega

theorem mem_encode (h : c ∈ encode bytes) : ∃ n < 16, c = lowerDigit n := by
  obtain ⟨byte, -, hc⟩ := List.mem_flatMap.1 h
  have hbyte := UInt8.toNat_lt byte
  rcases List.mem_pair.1 hc with rfl | rfl
  · exact ⟨byte.toNat / 16, by omega, rfl⟩
  · exact ⟨byte.toNat % 16, by omega, rfl⟩

/-- Digits of which some bytes can be read are digits, two for each byte. -/
theorem isDigit_of_map (h : digits.map Char.toLower = encode bytes) :
    digits.length = 2 * bytes.length ∧ ∀ c ∈ digits, IsDigit c := by
  constructor
  · rw [← length_encode, ← h, List.length_map]
  · intro c hc
    obtain ⟨n, hn, hlower⟩ := mem_encode (h ▸ List.mem_map_of_mem hc)
    exact isDigit_of_toLower hn hlower

/-- Bytes can be written in upper case as well as in lower case. -/
theorem toLower_encode (bytes : Bytes) :
    (encode bytes).map Char.toLower = encode bytes ∧
      ((encode bytes).map Char.toUpper).map Char.toLower = encode bytes := by
  have hdigits : ∀ n < 16, (lowerDigit n).toLower = lowerDigit n ∧
      (lowerDigit n).toUpper.toLower = lowerDigit n := by decide
  rw [List.map_map]
  constructor
  · refine (List.map_congr_left fun c hc => ?_).trans (List.map_id _)
    obtain ⟨n, hn, rfl⟩ := mem_encode hc
    exact (hdigits n hn).1
  · refine (List.map_congr_left fun c hc => ?_).trans (List.map_id _)
    obtain ⟨n, hn, rfl⟩ := mem_encode hc
    exact (hdigits n hn).2

/-- What is read of two digits is the byte that they are, and what is read of the others behind it. -/
theorem decode?_cons {a b : Char} {byte : UInt8} :
    decode? (a :: b :: digits) = some (byte :: bytes) ↔
      a.toLower = lowerDigit (byte.toNat / 16) ∧ b.toLower = lowerDigit (byte.toNat % 16) ∧
        decode? digits = some bytes := by
  have hbyte := UInt8.toNat_lt byte
  rw [decode?]
  constructor
  · intro h
    split at h
    case h_2 => cases h
    case h_1 x y rest hx hy hrest =>
      obtain ⟨hx16, hx⟩ := digit?_eq_some_iff.1 hx
      obtain ⟨hy16, hy⟩ := digit?_eq_some_iff.1 hy
      cases h
      have hval : (x * 16 + y).toUInt8.toNat = x * 16 + y := by
        rw [Nat.toUInt8, UInt8.toNat_ofNat']
        omega
      rw [hval, hx, hy, hrest]
      exact ⟨congrArg lowerDigit (by omega), congrArg lowerDigit (by omega), rfl⟩
  · rintro ⟨ha, hb, hrest⟩
    rw [digit?_eq_some_iff.2 ⟨by omega, ha⟩, digit?_eq_some_iff.2 ⟨by omega, hb⟩, hrest]
    have hval : byte.toNat / 16 * 16 + byte.toNat % 16 = byte.toNat := by omega
    simp only [hval, Nat.toUInt8, UInt8.ofNat_toNat]

/-- Digits are read as bytes exactly if in lower case they are what is written of the bytes. -/
theorem decode?_eq_some_iff : ∀ {digits : List Char} {bytes : Bytes},
    decode? digits = some bytes ↔ digits.map Char.toLower = encode bytes
  | [], [] => ⟨fun _ => rfl, fun _ => rfl⟩
  | [], _ :: _ => ⟨nofun, nofun⟩
  | [_], [] => ⟨nofun, nofun⟩
  | [_], _ :: _ => ⟨nofun, fun h => by simp [encode_cons] at h⟩
  | a :: b :: digits, [] => by
    refine ⟨fun h => ?_, fun h => absurd h (List.cons_ne_nil _ _)⟩
    rw [decode?] at h
    split at h
    · cases h
    · cases h
  | a :: b :: digits, byte :: bytes => by
    rw [decode?_cons, decode?_eq_some_iff, encode_cons]
    simp only [List.map_cons, List.cons.injEq]

end Pipeworks.Hex
