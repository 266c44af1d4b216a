/-
Text that is written as bytes is read back (`scan_encode`): after the bytes of a character the reading
stands between two characters again, and has that character.
-/
import Pipeworks.Text.Utf8

namespace Pipeworks.Utf8

variable {read : List (Option Char)} {low high bits n : Nat}

theorem toNat_toUInt8 (h : n < 0x100) : n.toUInt8.toNat = n := by
  rw [Nat.toUInt8, UInt8.toNat_ofNat']
  omega

/-! ## Bytes that continue a character -/

/-- The last six bits of a character. -/
theorem step_last (hlow : low ≤ 0x80 + n) (hhigh : 0x80 + n ≤ high) (hn : n < 0x40) :
    Scan.step ⟨read, some ⟨1, low, high, bits⟩⟩ (0x80 + n).toUInt8 =
      ⟨some (Char.ofNat (bits * 0x40 + n)) :: read, none⟩ := by
  unfold Scan.step
  simp only [toNat_toUInt8 (n := 0x80 + n) (by omega), hlow, hhigh, and_self, if_true, Nat.add_sub_cancel_left]

/-- Six bits before the last ones. -/
theorem step_more {left : Nat} (hlow : low ≤ 0x80 + n) (hhigh : 0x80 + n ≤ high) (hn : n < 0x40) :
    Scan.step ⟨read, some ⟨left + 2, low, high, bits⟩⟩ (0x80 + n).toUInt8 =
      ⟨read, some ⟨left + 1, 0x80, 0xBF, bits * 0x40 + n⟩⟩ := by
  unfold Scan.step
  simp only [toNat_toUInt8 (n := 0x80 + n) (by omega), hlow, hhigh, and_self, if_true, Nat.add_sub_cancel_left]
  rfl

/-! ## Bytes that start a character -/

theorem step_one (h : n < 0x80) : Scan.step ⟨read, none⟩ n.toUInt8 = ⟨some (Char.ofNat n) :: read, none⟩ := by
  unfold Scan.step Scan.lead
  simp only [toNat_toUInt8 (n := n) (by omega), if_pos h]

theorem step_two (hlow : 2 ≤ n) (hhigh : n < 0x20) :
    Scan.step ⟨read, none⟩ (0xC0 + n).toUInt8 = ⟨read, some ⟨1, 0x80, 0xBF, n⟩⟩ := by
  unfold Scan.step Scan.lead
  simp only [toNat_toUInt8 (n := 0xC0 + n) (by omega)]
  rw [if_neg (by omega), if_neg (by omega), if_pos (by omega), Nat.add_sub_cancel_left]

/-- What may follow the first byte of three: neither what fits in two bytes nor half of a pair. -/
theorem step_three (read : List (Option Char)) (hn : n < 0x10) : ∃ low high,
    Scan.step ⟨read, none⟩ (0xE0 + n).toUInt8 = ⟨read, some ⟨2, low, high, n⟩⟩ ∧
      ∀ m < 0x40, (n = 0 → 0x20 ≤ m) → (n = 0xD → m < 0x20) → low ≤ 0x80 + m ∧ 0x80 + m ≤ high := by
  unfold Scan.step Scan.lead
  simp only [toNat_toUInt8 (n := 0xE0 + n) (by omega)]
  rw [if_neg (by omega), if_neg (by omega), if_neg (by omega)]
  by_cases hzero : n = 0
  · subst hzero
    exact ⟨0xA0, 0xBF, rfl, fun m hm hfirst _ => ⟨by have := hfirst rfl; omega, by omega⟩⟩
  by_cases hpairs : n = 0xD
  · subst hpairs
    exact ⟨0x80, 0x9F, rfl, fun m hm _ hlast => ⟨by omega, by have := hlast rfl; omega⟩⟩
  rw [if_neg (by omega), if_neg (by omega), if_pos (by omega), Nat.add_sub_cancel_left]
  exact ⟨0x80, 0xBF, rfl, fun m hm _ _ => ⟨by omega, by omega⟩⟩

/-- What may follow the first byte of four: neither what fits in three bytes nor what is no character. -/
theorem step_four (read : List (Option Char)) (hn : n ≤ 4) : ∃ low high,
    Scan.step ⟨read, none⟩ (0xF0 + n).toUInt8 = ⟨read, some ⟨3, low, high, n⟩⟩ ∧
      ∀ m < 0x40, (n = 0 → 0x10 ≤ m) → (n = 4 → m < 0x10) → low ≤ 0x80 + m ∧ 0x80 + m ≤ high := by
  unfold Scan.step Scan.lead
  simp only [toNat_toUInt8 (n := 0xF0 + n) (by omega)]
  rw [if_neg (by omega), if_neg (by omega), if_neg (by omega), if_neg (by omega), if_neg (by omega),
    if_neg (by omega)]
  by_cases hzero : n = 0
  · subst hzero
    exact ⟨0x90, 0xBF, rfl, fun m hm hfirst _ => ⟨by have := hfirst rfl; omega, by omega⟩⟩
  by_cases hfour : n = 4
  · subst hfour
    exact ⟨0x80, 0x8F, rfl, fun m hm _ hlast => ⟨by omega, by have := hlast rfl; omega⟩⟩
  rw [if_neg (by omega), if_pos (by omega), Nat.add_sub_cancel_left]
  exact ⟨0x80, 0xBF, rfl, fun m hm _ _ => ⟨by omega, by omega⟩⟩

/-! ## Characters -/

theorem foldl_encodeChar (read : List (Option Char)) (c : Char) :
    (encodeChar c).foldl Scan.step ⟨read, none⟩ = ⟨some c :: read, none⟩ := by
  have hvalid : c.toNat < 0xD800 ∨ 0xDFFF < c.toNat ∧ c.toNat < 0x110000 := c.valid
  have hback : ∀ n, n = c.toNat → Char.ofNat n = c := fun n hn => hn ▸ Char.ofNat_toNat c
  unfold encodeChar encodeNat
  generalize c.toNat = n at hvalid hback
  split
  case isTrue hone => rw [List.foldl_cons, step_one hone, List.foldl_nil, hback n rfl]
  split
  case isTrue htwo =>
    rw [List.foldl_cons, step_two (by omega) (by omega), List.foldl_cons,
      step_last (by omega) (by omega) (by omega), List.foldl_nil, hback _ (by omega)]
  split
  case isTrue hthree =>
    obtain ⟨low, high, hfirst, hnext⟩ := step_three (n := n / 0x1000) read (by omega)
    obtain ⟨hlow, hhigh⟩ := hnext (n / 0x40 % 0x40) (by omega) (by omega) (by omega)
    rw [List.foldl_cons, hfirst, List.foldl_cons, step_more hlow hhigh (by omega), List.foldl_cons,
      step_last (by omega) (by omega) (by omega), List.foldl_nil, hback _ (by omega)]
  case isFalse hfour =>
    obtain ⟨low, high, hfirst, hnext⟩ := step_four (n := n / 0x40000) read (by omega)
    obtain ⟨hlow, hhigh⟩ := hnext (n / 0x1000 % 0x40) (by omega) (by omega) (by omega)
    rw [List.foldl_cons, hfirst, List.foldl_cons, step_more hlow hhigh (by omega), List.foldl_cons,
      step_more (by omega) (by omega) (by omega), List.foldl_cons,
      step_last (by omega) (by omega) (by omega), List.foldl_nil, hback _ (by omega)]

theorem foldl_encode (read : List (Option Char)) (cs : List Char) :
    (encode cs).foldl Scan.step ⟨read, none⟩ = ⟨(cs.map some).reverse ++ read, none⟩ := by
  induction cs generalizing read with
  | nil => rfl
  | cons c cs ih =>
    rw [encode, List.flatMap_cons, List.foldl_append, foldl_encodeChar]
    refine (ih _).trans ?_
    rw [List.map_cons, List.reverse_cons, List.append_assoc, List.singleton_append]

/-- Text is read as it was written, without gaps. -/
theorem scan_encode (cs : List Char) : scan (encode cs) = cs.map some := by
  unfold scan
  rw [foldl_encode, Scan.close, List.append_nil, List.reverse_reverse]

/-! ## Lengths -/

/-- A character has at most four bytes. -/
theorem length_encode_le (cs : List Char) : (encode cs).length ≤ 4 * cs.length := by
  have hchar : ∀ c, (encodeChar c).length ≤ 4 := by
    intro c
    unfold encodeChar encodeNat
    repeat' split
    all_goals simp
  induction cs with
  | nil => exact Nat.le_refl 0
  | cons c cs ih =>
    have hfirst := hchar c
    unfold encode at ih ⊢
    rw [List.flatMap_cons, List.length_append, List.length_cons]
    omega

theorem length_encodeChar_pos (c : Char) : 0 < (encodeChar c).length := by
  unfold encodeChar encodeNat
  repeat' split
  all_goals simp

theorem length_encode_cons (c : Char) (cs : List Char) :
    (encode (c :: cs)).length = (encodeChar c).length + (encode cs).length := by
  rw [encode, List.flatMap_cons, List.length_append, encode]

theorem length_encode_append (cs ds : List Char) :
    (encode (cs ++ ds)).length = (encode cs).length + (encode ds).length := by
  rw [encode, List.flatMap_append, List.length_append, encode, encode]

/-- A character of ASCII has one byte. -/
theorem length_encodeChar_ascii {c : Char} (h : c.toNat < 0x80) : (encodeChar c).length = 1 := by
  unfold encodeChar encodeNat
  rw [if_pos h]
  rfl

theorem length_encode_ascii {cs : List Char} (h : ∀ c ∈ cs, c.toNat < 0x80) : (encode cs).length = cs.length := by
  induction cs with
  | nil => rfl
  | cons c cs ih =>
    obtain ⟨hc, hcs⟩ := List.forall_mem_cons.1 h
    rw [length_encode_cons, length_encodeChar_ascii hc, ih hcs, List.length_cons, Nat.add_comm]

/-! ## ASCII -/

/-- Bytes of ASCII are what is written of the characters they number. -/
theorem encode_ascii {bytes : Bytes} (h : ∀ b ∈ bytes, b < 0x80) :
    encode (bytes.map fun b => Char.ofNat b.toNat) = bytes := by
  induction bytes with
  | nil => rfl
  | cons b bytes ih =>
    obtain ⟨hb, hbytes⟩ := List.forall_mem_cons.1 h
    have hsmall : b.toNat < 0x80 := UInt8.lt_iff_toNat_lt.1 hb
    have hvalid : b.toNat.isValidChar := .inl (by omega)
    have hback : (Char.ofNat b.toNat).toNat = b.toNat := by
      rw [Char.ofNat, dif_pos hvalid]
      rfl
    have hchar : encodeChar (Char.ofNat b.toNat) = [b] := by
      unfold encodeChar encodeNat
      rw [hback, if_pos hsmall, Nat.toUInt8, UInt8.ofNat_toNat]
    unfold encode at ih ⊢
    rw [List.map_cons, List.flatMap_cons, hchar, ih hbytes, List.singleton_append]

end Pipeworks.Utf8

namespace Pipeworks.Text

theorem ofBytes?_bytes (s : String) : ofBytes? (bytes s) = some s := by
  have hall : (s.toList.map some).all Option.isSome := by simp
  unfold ofBytes? Utf8.decode? bytes
  rw [Utf8.scan_encode]
  simp [hall]

/-- Bytes of ASCII are read as a text exactly if they are what is written of it. -/
theorem ofBytes?_ascii {b : Bytes} {s : String} (h : ∀ x ∈ b, x < 0x80) : ofBytes? b = some s ↔ b = bytes s := by
  constructor
  · intro hread
    have hback := ofBytes?_bytes (String.ofList (b.map fun x => Char.ofNat x.toNat))
    have hwritten : bytes (String.ofList (b.map fun x => Char.ofNat x.toNat)) = b := by
      rw [bytes, String.toList_ofList, Utf8.encode_ascii h]
    rw [hwritten, hread, Option.some.injEq] at hback
    rw [hback, hwritten]
  · rintro rfl
    exact ofBytes?_bytes s

end Pipeworks.Text
