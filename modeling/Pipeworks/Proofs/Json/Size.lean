/-
How many bytes written JSON has. Escaping never makes a text shorter, and at most six times as long
(`quotedSize_bounds`); an object has the bytes of its members and the marks between them (`object_size`).
-/
import Mathlib.Algebra.Ring.Nat
import Pipeworks.Json.Value
import Pipeworks.Proofs.Text.Utf8

namespace Pipeworks.Json

open Utf8 (encode encodeChar length_encode_cons length_encode_append length_encode_ascii length_encodeChar_ascii
  length_encodeChar_pos)

/-- The bytes of a value. -/
def Value.size (v : Value) : Nat := (encode v.chars).length

theorem bytes_text (v : Value) : (Text.bytes v.text).length = v.size := by
  rw [Text.bytes, Value.text, String.toList_ofList, Value.size]

/-! ## Strings -/

/-- The bytes of a text between its quotes. -/
def quotedSize (s : String) : Nat := (encode (s.toList.flatMap escaped)).length

theorem lowerDigit_ascii {n : Nat} (h : n < 16) : (Hex.lowerDigit n).toNat < 0x80 := by
  revert n
  decide

/-- A character stands for itself, or it is one of ASCII for which two or six others of ASCII stand. -/
theorem escaped_cases (c : Char) : escaped c = [c] ∨
    (c.toNat < 0x80 ∧ ((escaped c).length = 2 ∨ (escaped c).length = 6) ∧ ∀ d ∈ escaped c, d.toNat < 0x80) := by
  unfold escaped
  split
  case h_8 =>
    split
    case isTrue hcontrol =>
      have hhigh := lowerDigit_ascii (n := c.toNat / 16) (by omega)
      have hlow := lowerDigit_ascii (n := c.toNat % 16) (by omega)
      refine .inr ⟨by omega, by simp, ?_⟩
      simp only [List.forall_mem_cons]
      exact ⟨by decide, by decide, by decide, by decide, hhigh, hlow, List.forall_mem_nil _⟩
    case isFalse => exact .inl rfl
  -- the characters that have an escape of their own
  all_goals
    refine .inr ⟨by decide, .inl rfl, ?_⟩
    simp only [List.forall_mem_cons]
    exact ⟨by decide, by decide, List.forall_mem_nil _⟩

theorem escaped_size (c : Char) :
    (encodeChar c).length ≤ (encode (escaped c)).length ∧ (encode (escaped c)).length ≤ 6 * (encodeChar c).length := by
  rcases escaped_cases c with hself | ⟨hc, hlength, hascii⟩
  · have hpos := length_encodeChar_pos c
    rw [hself, length_encode_cons, show (encode []).length = 0 from rfl]
    omega
  · rw [length_encode_ascii hascii, length_encodeChar_ascii hc]
    omega

theorem quotedSize_bounds (s : String) :
    (Text.bytes s).length ≤ quotedSize s ∧ quotedSize s ≤ 6 * (Text.bytes s).length := by
  unfold quotedSize Text.bytes
  induction s.toList with
  | nil => exact ⟨Nat.le_refl _, Nat.zero_le _⟩
  | cons c cs ih =>
    have hc := escaped_size c
    rw [List.flatMap_cons, length_encode_append, length_encode_cons]
    omega

theorem string_size (s : String) : (Value.string s).size = quotedSize s + 2 := by
  have hmark : (encodeChar '"').length = 1 := rfl
  have hend : (encode ['"']).length = 1 := rfl
  rw [Value.size, Value.chars, stringChars, List.cons_append, length_encode_cons, length_encode_append, hmark, hend,
    quotedSize]
  omega

/-! ## Numbers -/

theorem digits_ascii {n : Nat} : ∀ c ∈ Nat.toDigits 10 n, c.toNat < 0x80 := by
  intro c hc
  have hdigit := Nat.isDigit_of_mem_toDigits (by decide) (by decide) hc
  simp only [Char.isDigit, Bool.and_eq_true, decide_eq_true_eq, UInt32.le_iff_toNat_le] at hdigit
  exact Nat.lt_of_le_of_lt hdigit.2 (by decide)

theorem int_size (n : Int) : (Value.int n).size = (intChars n).length := by
  rw [Value.size, Value.chars]
  refine length_encode_ascii ?_
  unfold intChars
  split
  · exact List.forall_mem_cons.2 ⟨by decide, digits_ascii⟩
  · exact digits_ascii

/-- A number of at most so many digits, with the sign that it may have. -/
theorem int_size_bounds {n : Int} (digits : Nat) (hdigits : 0 < digits) (h : n.natAbs < 10 ^ digits) :
    0 < (Value.int n).size ∧ (Value.int n).size ≤ digits + 1 := by
  have hlength := (Nat.length_toDigits_le_iff (by decide) hdigits).2 h
  have hpos : 0 < (Nat.toDigits 10 n.natAbs).length := Nat.length_toDigits_pos
  rw [int_size, intChars]
  split
  · rw [List.length_cons]
    omega
  · omega

/-! ## Objects -/

/-- The bytes of a member: its name and value, the colon between them, and the mark after it. -/
def memberSize (m : String × Value) : Nat := quotedSize m.1 + m.2.size + 4

theorem memberChars_size (ms : List (String × Value)) :
    (encode (memberChars ms)).length = (ms.map memberSize).sum + 1 := by
  induction ms with
  | nil => rfl
  | cons m ms ih =>
    obtain ⟨k, v⟩ := m
    have hkey := string_size k
    rw [Value.size, Value.chars] at hkey
    have hcomma : (encodeChar ',').length = 1 := rfl
    have hcolon : (encodeChar ':').length = 1 := rfl
    simp only [memberChars, List.cons_append, List.append_assoc, length_encode_cons, length_encode_append, hcomma,
      hcolon, hkey, ih, List.map_cons, List.sum_cons, memberSize, Value.size]
    omega

/-- The mark after a member is a comma, and after the last one the end of the object. -/
theorem object_size (m : String × Value) (ms : List (String × Value)) :
    (Value.object (m :: ms)).size = ((m :: ms).map memberSize).sum + 1 := by
  have hcomma : (encodeChar ',').length = 1 := rfl
  have hopen : (encodeChar '\x7b').length = 1 := rfl
  have hsame : (Value.object (m :: ms)).size = (encode (memberChars (m :: ms))).length := by
    obtain ⟨k, v⟩ := m
    simp only [Value.size, Value.chars, memberChars, List.cons_append, length_encode_cons, hcomma, hopen]
  rw [hsame, memberChars_size]

end Pipeworks.Json
