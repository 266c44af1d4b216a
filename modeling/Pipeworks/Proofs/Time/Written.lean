/-
An instant that is written is read back (`ofText?_text`): each part of the text is read as the number it was
written for, since the next character is no digit, and second 60 with its fraction as the leap second.
-/
import Mathlib.Algebra.Group.Nat.Defs
import Mathlib.Tactic.SplitIfs
import Pipeworks.Time.Reader
import Pipeworks.Time.Written

namespace Pipeworks.Time

/-! ## Digits -/

/-- Characters that end a number: nothing is left, or no digit comes next. -/
def EndsNumber (cs : List Char) : Prop := ∀ c ∈ cs.head?, isDigit c = false

theorem digitsValue_eq (cs : List Char) : digitsValue cs = Nat.ofDigitChars 10 cs 0 := by
  unfold digitsValue Nat.ofDigitChars
  simp only [Nat.mul_comm]
  rfl

section
variable {width n : Nat}

theorem isDigit_of_mem_padded {c : Char} (h : c ∈ padded width n) : isDigit c := by
  have hdigit : c.isDigit := by
    rcases List.mem_append.1 h with h | h
    · rw [List.eq_of_mem_replicate h]
      rfl
    · exact Nat.isDigit_of_mem_toDigits (by decide) (by decide) h
  simpa [isDigit, Char.isDigit, Char.le_def] using hdigit

theorem digitsValue_padded : digitsValue (padded width n) = n := by
  unfold padded
  rw [digitsValue_eq, Nat.ofDigitChars_append, Nat.ofDigitChars_replicate_zero, Nat.mul_zero,
    Nat.ofDigitChars_ten_toDigits]

theorem length_padded (hwidth : 0 < width) (h : n < 10 ^ width) : (padded width n).length = width := by
  have hle := (Nat.length_toDigits_le_iff (b := 10) (by decide) hwidth).2 h
  simp only [padded, List.length_append, List.length_replicate]
  omega

theorem padded_head (width n : Nat) : ∃ d ds, padded width n = d :: ds ∧ isDigit d := by
  have hne : padded width n ≠ [] := by simp [padded, Nat.toDigits_ne_nil]
  obtain ⟨d, ds, hds⟩ := List.exists_cons_of_ne_nil hne
  exact ⟨d, ds, hds, isDigit_of_mem_padded (hds ▸ List.mem_cons_self)⟩

end

theorem toNat_of_isDigit {c : Char} (h : isDigit c) : 48 ≤ c.toNat ∧ c.toNat ≤ 57 := by
  simpa [isDigit, Char.le_def, UInt32.le_iff_toNat_le] using h

theorem blank_of_isDigit {c : Char} (h : isDigit c) : Text.isBlank c = false := by
  obtain ⟨hlow, hhigh⟩ := toNat_of_isDigit h
  simp only [Text.isBlank, Bool.or_eq_false_iff, Bool.and_eq_false_iff, decide_eq_false_iff_not,
    beq_eq_false_iff_ne]
  omega

theorem trimStart_of_not_blank {c : Char} (h : Text.isBlank c = false) (cs : List Char) :
    Text.trimStart (c :: cs) = c :: cs := by
  unfold Text.trimStart
  rw [List.dropWhile_cons_of_neg (by simp [h])]

variable {width : Nat} {rest : List Char}

theorem trimStart_padded (n : Nat) : Text.trimStart (padded width n ++ rest) = padded width n ++ rest := by
  obtain ⟨d, ds, hds, hdigit⟩ := padded_head width n
  rw [hds, List.cons_append, trimStart_of_not_blank (blank_of_isDigit hdigit)]

theorem takeWhile_padded (n : Nat) (hrest : EndsNumber rest) :
    (padded width n ++ rest).takeWhile isDigit = padded width n := by
  rw [List.takeWhile_append_of_pos fun c hc => isDigit_of_mem_padded hc]
  cases rest with
  | nil => simp
  | cons c rest => simp [hrest c rfl]

/-- A number of as many digits as may be read. -/
theorem number_padded {limit : Option Nat} {n : Nat} (hlimit : ∀ l ∈ limit, (padded width n).length ≤ l)
    (hrest : EndsNumber rest) : number limit (padded width n ++ rest) = some (n, rest) := by
  have hleading : leadingDigits limit (padded width n ++ rest) = padded width n := by
    unfold leadingDigits
    rw [takeWhile_padded n hrest]
    cases limit with
    | none => rfl
    | some l => exact List.take_of_length_le (hlimit l rfl)
  unfold number
  rw [hleading]
  split
  case h_1 hnil =>
    obtain ⟨d, ds, hds, -⟩ := padded_head width n
    rw [hds] at hnil
    cases hnil
  case h_2 => rw [digitsValue_padded, List.drop_left]

theorem part_padded {low high n : Nat} (hlow : low ≤ n) (hhigh : n ≤ high) (h : high < 100)
    (hrest : EndsNumber rest) : part low high (padded 2 n ++ rest) = some (n, rest) := by
  have hlength : (padded 2 n).length = 2 := length_padded (by decide) (by omega)
  have hnumber : number (some 2) (padded 2 n ++ rest) = some (n, rest) :=
    number_padded (by simp [hlength]) hrest
  unfold part
  rw [trimStart_padded, hnumber]
  simp [hlow, hhigh]

theorem mark_char {c : Char} (h : Text.isBlank c = false) (cs : List Char) : mark c (c :: cs) = some cs := by
  unfold mark
  rw [trimStart_of_not_blank h]
  simp

theorem year_written {y : Int} (hlow : minYear ≤ y) (hhigh : y ≤ maxYear) (hrest : EndsNumber rest) :
    year (writtenYear y ++ rest) = some (y, rest) := by
  unfold writtenYear
  split
  case isTrue hplain =>
    have hlength : (padded 4 y.toNat).length = 4 := length_padded (by decide) (by omega)
    have hnumber : number (some 4) (padded 4 y.toNat ++ rest) = some (y.toNat, rest) :=
      number_padded (by simp [hlength]) hrest
    obtain ⟨d, ds, hds, hdigit⟩ := padded_head 4 y.toNat
    unfold year
    rw [trimStart_padded]
    rw [hds, List.cons_append] at hnumber ⊢
    -- a year of four digits has no sign
    split
    case h_1 heq =>
      rw [(List.cons.inj heq).1] at hdigit
      exact absurd hdigit (by decide)
    case h_2 heq =>
      rw [(List.cons.inj heq).1] at hdigit
      exact absurd hdigit (by decide)
    case h_3 =>
      have hy : (y.toNat : Int) = y := Int.toNat_of_nonneg hplain.1
      simp [hnumber, hy, hlow, hhigh]
  case isFalse hsigned =>
    have hnumber : number none (padded 4 y.natAbs ++ rest) = some (y.natAbs, rest) :=
      number_padded (by simp) hrest
    unfold year
    by_cases hneg : y < 0
    · have hy : -(y.natAbs : Int) = y := by omega
      rw [if_pos hneg, List.cons_append, trimStart_of_not_blank (by decide)]
      simp only [hnumber, Option.map_some, hy, Option.bind_eq_bind, Option.bind_some, hlow, hhigh, and_self,
        if_true]
    · have hy : (y.natAbs : Int) = y := by omega
      rw [if_neg hneg, List.cons_append, trimStart_of_not_blank (by decide)]
      simp only [hnumber, Option.map_some, hy, Option.bind_eq_bind, Option.bind_some, hlow, hhigh, and_self,
        if_true]

theorem fraction_padded {width n : Nat} (hpos : 0 < width) (hwidth : width ≤ 9) (hn : n < 10 ^ width) :
    fraction ('.' :: padded width n ++ ['Z']) = some (n * 10 ^ (9 - width), ['Z']) := by
  have hends : EndsNumber ['Z'] := by intro c hc; cases hc; rfl
  have hlength : (padded width n).length = width := length_padded hpos hn
  have hleading : leadingDigits (some 9) (padded width n ++ ['Z']) = padded width n := by
    unfold leadingDigits
    rw [takeWhile_padded n hends]
    exact List.take_of_length_le (by omega)
  have hdrop : (padded width n ++ ['Z']).dropWhile isDigit = ['Z'] := by
    rw [List.dropWhile_append_of_pos fun c hc => isDigit_of_mem_padded hc]
    rfl
  have hne : (padded width n).isEmpty = false := by
    rw [List.isEmpty_eq_false_iff, ← List.length_pos_iff, hlength]
    exact hpos
  rw [List.cons_append, fraction, hleading, hdrop, hne, digitsValue_padded, hlength]
  rfl

theorem fraction_written {nanos : Nat} (h : nanos < nanosPerSecond) :
    fraction (writtenFraction nanos ++ ['Z']) = some (nanos, ['Z']) := by
  have h : nanos < 1000000000 := h
  unfold writtenFraction
  split
  case isTrue hzero =>
    rw [hzero]
    rfl
  case isFalse =>
    split
    case isTrue hmillis =>
      rw [fraction_padded (by decide) (by decide) (by omega)]
      simp only [Option.some.injEq, Prod.mk.injEq, and_true]
      omega
    case isFalse =>
      split
      case isTrue hmicros =>
        rw [fraction_padded (by decide) (by decide) (by omega)]
        simp only [Option.some.injEq, Prod.mk.injEq, and_true]
        omega
      case isFalse =>
        rw [fraction_padded (by decide) (by decide) (by omega)]
        simp

theorem endsNumber_cons {c : Char} (h : isDigit c = false) (cs : List Char) : EndsNumber (c :: cs) := by
  intro d hd
  cases hd
  exact h

theorem endsNumber_fraction (nanos : Nat) : EndsNumber (writtenFraction nanos ++ ['Z']) := by
  unfold writtenFraction
  split_ifs
  · exact endsNumber_cons rfl _
  · exact endsNumber_cons rfl _
  · exact endsNumber_cons rfl _
  · exact endsNumber_cons rfl _

theorem minusOffset_zero {t : Reading} (h : t.second < 86400) : t.minusOffset 0 = some t := by
  unfold Reading.minusOffset
  simp only [Int.sub_zero]
  rw [if_neg (by omega), if_neg (by omega), Int.toNat_natCast]

/-- An instant that is written is read back. -/
theorem ofChars?_chars {t : Reading} (hvalid : t.Valid) : Instant.ofChars? t.chars = some ⟨t, hvalid⟩ := by
  obtain ⟨hlow, hhigh, hm, hm', hd, hd'⟩ : t.date.Valid := hvalid.1
  have hs : t.second < 86400 := hvalid.2.1
  have hn := hvalid.2.2
  have hlong : t.date.day ≤ 31 := Nat.le_trans hd' (by unfold daysInMonth; split_ifs <;> decide)
  have hhour : t.second / 3600 ≤ 23 := by omega
  have hminute : t.second / 60 % 60 ≤ 59 := by omega
  have hsecond : t.second % 60 + (if nanosPerSecond ≤ t.nanos then 1 else 0) ≤ 60 := by split_ifs <;> omega
  have hfraction : (if nanosPerSecond ≤ t.nanos then t.nanos - nanosPerSecond else t.nanos) < nanosPerSecond := by
    unfold nanosPerSecond at hn ⊢
    split_ifs <;> omega
  unfold Reading.chars writtenDate
  simp only [List.append_assoc, List.cons_append]
  unfold Instant.ofChars?
  refine Option.bind_eq_some_iff.2 ⟨_, year_written hlow hhigh (endsNumber_cons rfl _), ?_⟩
  refine Option.bind_eq_some_iff.2 ⟨_, mark_char rfl _, ?_⟩
  refine Option.bind_eq_some_iff.2 ⟨_, part_padded hm hm' (by decide) (endsNumber_cons rfl _), ?_⟩
  refine Option.bind_eq_some_iff.2 ⟨_, mark_char rfl _, ?_⟩
  refine Option.bind_eq_some_iff.2 ⟨_, part_padded hd hlong (by decide) (endsNumber_cons rfl _), ?_⟩
  refine Option.bind_eq_some_iff.2 ⟨_, rfl, ?_⟩
  refine Option.bind_eq_some_iff.2 ⟨_, part_padded (Nat.zero_le _) hhour (by decide) (endsNumber_cons rfl _), ?_⟩
  refine Option.bind_eq_some_iff.2 ⟨_, mark_char rfl _, ?_⟩
  refine Option.bind_eq_some_iff.2 ⟨_, part_padded (Nat.zero_le _) hminute (by decide) (endsNumber_cons rfl _), ?_⟩
  refine Option.bind_eq_some_iff.2 ⟨_, mark_char rfl _, ?_⟩
  refine Option.bind_eq_some_iff.2 ⟨_, part_padded (Nat.zero_le _) hsecond (by decide) (endsNumber_fraction _), ?_⟩
  refine Option.bind_eq_some_iff.2 ⟨_, fraction_written hfraction, ?_⟩
  refine Option.bind_eq_some_iff.2 ⟨(0, []), rfl, ?_⟩
  dsimp only
  rw [if_neg (by decide), if_neg (Nat.not_lt.2 hd')]
  refine Option.bind_eq_some_iff.2 ⟨t, ?_, dif_pos hvalid⟩
  rw [← minusOffset_zero hs]
  congr 2
  -- second 60 stands for the leap second after second 59
  · unfold nanosPerSecond at hn ⊢
    split_ifs <;> omega
  · unfold nanosPerSecond at hn ⊢
    split_ifs <;> omega

theorem ofText?_text (t : Instant) : Instant.ofText? t.text = some t := by
  unfold Instant.ofText? Instant.text
  rw [String.toList_ofList, ofChars?_chars t.valid]

end Pipeworks.Time
