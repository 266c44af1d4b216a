/-
What is percent-encoded is decoded again, if the percent sign itself and all that is not ASCII are encoded
(`decode_encoded`). So what is encoded says the same as before, and it means a place above or here only if it did so
before.
-/
import Pipeworks.Proofs.Text.Hex
import Pipeworks.Proofs.Text.Utf8
import Pipeworks.Url.Reader

namespace Pipeworks.Url

variable {set : ByteSet} {b : UInt8} {c : Char} {cs ds : List Char}

/-- What stands for itself is ASCII and no percent sign. -/
def ByteSet.Reversible (set : ByteSet) : Prop := ∀ b, set b = false → b < 0x80 ∧ b ≠ 37

/-! ## Bytes -/

theorem decodeBytes_cons (h : b ≠ 37) (rest : Bytes) : decodeBytes (b :: rest) = b :: decodeBytes rest := by
  rw [decodeBytes]
  rintro x y tail rfl
  exact absurd rfl h

theorem decodeBytes_escape (b : UInt8) (rest : Bytes) :
    decodeBytes (Utf8.encode ['%', Hex.upperDigit (b.toNat / 16), Hex.upperDigit (b.toNat % 16)] ++ rest) =
      b :: decodeBytes rest := by
  have hbyte := UInt8.toNat_lt b
  have hdigits : ∀ n < 16, Utf8.encodeChar (Hex.upperDigit n) = [(Hex.upperDigit n).toNat.toUInt8] ∧
      Char.ofNat (Hex.upperDigit n).toNat.toUInt8.toNat = Hex.upperDigit n := by decide
  obtain ⟨hhigh, hhighBack⟩ := hdigits (b.toNat / 16) (by omega)
  obtain ⟨hlow, hlowBack⟩ := hdigits (b.toNat % 16) (by omega)
  have hwritten : Utf8.encode ['%', Hex.upperDigit (b.toNat / 16), Hex.upperDigit (b.toNat % 16)] =
      [37, (Hex.upperDigit (b.toNat / 16)).toNat.toUInt8, (Hex.upperDigit (b.toNat % 16)).toNat.toUInt8] := by
    simp only [Utf8.encode, List.flatMap_cons, List.flatMap_nil, hhigh, hlow]
    rfl
  have hval : b.toNat / 16 * 16 + b.toNat % 16 = b.toNat := by omega
  rw [hwritten]
  simp only [List.cons_append, List.nil_append, decodeBytes, hhighBack, hlowBack]
  rw [Hex.digit?_upperDigit (by omega), Hex.digit?_upperDigit (by omega)]
  simp only [hval, Nat.toUInt8, UInt8.ofNat_toNat]

/-- A byte is read back from what is written of it. -/
theorem decodeBytes_encodeByte (hset : set.Reversible) (b : UInt8) (rest : Bytes) :
    decodeBytes (Utf8.encode (encodeByte set b) ++ rest) = b :: decodeBytes rest := by
  unfold encodeByte
  cases hb : set b with
  | true => exact decodeBytes_escape b rest
  | false =>
    obtain ⟨hascii, hpercent⟩ := hset b hb
    have hbytes : ∀ other ∈ [b], other < 0x80 := by simpa using hascii
    have hwritten : Utf8.encode [Char.ofNat b.toNat] = [b] := Utf8.encode_ascii hbytes
    rw [if_neg Bool.false_ne_true, hwritten]
    exact decodeBytes_cons hpercent rest

theorem decodeBytes_flatMap (hset : set.Reversible) (bytes : Bytes) :
    decodeBytes (Utf8.encode (bytes.flatMap (encodeByte set))) = bytes := by
  induction bytes with
  | nil => rfl
  | cons b bytes ih =>
    rw [Utf8.encode] at ih ⊢
    rw [List.flatMap_cons, List.flatMap_append]
    exact (decodeBytes_encodeByte hset b _).trans (congrArg (b :: ·) ih)

/-! ## Texts -/

theorem decodeBytes_encode (hset : set.Reversible) (cs : List Char) :
    decodeBytes (Utf8.encode (encode set cs)) = Utf8.encode cs :=
  decodeBytes_flatMap hset _

theorem encode_utf8_injective : Function.Injective Utf8.encode := fun cs ds h => by
  have hscan := congrArg Utf8.scan h
  rw [Utf8.scan_encode, Utf8.scan_encode] at hscan
  exact List.map_injective_iff.2 (fun _ _ => Option.some.inj) hscan

/-- What is encoded is read back as the text it was. -/
theorem decode_encoded (hset : set.Reversible) (s : String) :
    Text.ofBytes? (decode (encoded set s.toList)) = some s := by
  rw [decode, encoded, Text.bytes, String.toList_ofList, decodeBytes_encode hset]
  exact Text.ofBytes?_bytes s

theorem encoded_injective (hset : set.Reversible) : Function.Injective fun s : String => encoded set s.toList :=
  fun s t h => by
    have hs := decode_encoded hset s
    rw [show encoded set s.toList = encoded set t.toList from h, decode_encoded hset t] at hs
    exact (Option.some.inj hs).symm

theorem mem_encode (h : c ∈ encode set cs) : c = '%' ∨ (∃ n < 16, c = Hex.upperDigit n) ∨
    ∃ b, set b = false ∧ c = Char.ofNat b.toNat := by
  obtain ⟨b, -, hc⟩ := List.mem_flatMap.1 h
  have hbyte := UInt8.toNat_lt b
  unfold encodeByte at hc
  cases hb : set b with
  | true =>
    rw [hb, if_pos rfl] at hc
    simp only [List.mem_cons, List.not_mem_nil, or_false] at hc
    rcases hc with hc | hc | hc
    · exact .inl hc
    · exact .inr (.inl ⟨_, by omega, hc⟩)
    · exact .inr (.inl ⟨_, by omega, hc⟩)
  | false =>
    rw [hb, if_neg Bool.false_ne_true] at hc
    exact .inr (.inr ⟨b, hb, List.mem_singleton.1 hc⟩)

/-! ## Places -/

/-- The characters that are one in lower case. -/
theorem toLower_eq {d : Char} (h : c.toLower = d) : c = d ∨ c.toNat + 32 = d.toNat ∧ 97 ≤ d.toNat := by
  subst h
  rw [← Char.toNat_inj, Hex.toNat_toLower]
  split <;> omega

theorem eq_of_toLower {d : Char} (hd : d.toNat < 97) (h : c.toLower = d) : c = d := by
  obtain h | ⟨-, h⟩ := toLower_eq h
  · exact h
  · omega

theorem eq_e_of_toLower (h : c.toLower = 'e') : c = 'e' ∨ c = 'E' := by
  obtain h | ⟨h, -⟩ := toLower_eq h
  · exact .inl h
  · have hnat : c.toNat = 69 := Nat.add_right_cancel (h.trans rfl)
    exact .inr (Char.toNat_inj.1 hnat)

/-- A dot, as it is or encoded. -/
def SpellsDot (cs : List Char) : Prop := cs.map Char.toLower = ['.'] ∨ cs.map Char.toLower = ['%', '2', 'e']

theorem decodeBytes_dot (h : SpellsDot cs) (rest : Bytes) :
    decodeBytes (Utf8.encode cs ++ rest) = 46 :: decodeBytes rest := by
  unfold SpellsDot at h
  simp only [List.map_eq_cons_iff, List.map_eq_nil_iff] at h
  obtain ⟨a, _, rfl, ha, rfl⟩ | ⟨a, _, rfl, ha, b, _, rfl, hb, c, _, rfl, hc, rfl⟩ := h
  · rw [eq_of_toLower (by decide) ha]
    rfl
  · rw [eq_of_toLower (by decide) ha, eq_of_toLower (by decide) hb]
    obtain rfl | rfl := eq_e_of_toLower hc <;> rfl

theorem spellsDot_of_isDot (h : isDot cs) : SpellsDot cs := by
  simp only [isDot, List.contains_iff_mem, List.mem_cons, List.not_mem_nil, or_false] at h
  exact h.imp (fun h => String.ofList_injective h) fun h => String.ofList_injective h

theorem spellsDot_of_isDoubleDot (h : isDoubleDot cs) : ∃ as bs, cs = as ++ bs ∧ SpellsDot as ∧ SpellsDot bs := by
  have hsplit : ∀ as bs : List Char, String.ofList (cs.map Char.toLower) = String.ofList (as ++ bs) →
      as = ['.'] ∨ as = ['%', '2', 'e'] → bs = ['.'] ∨ bs = ['%', '2', 'e'] →
      ∃ as bs, cs = as ++ bs ∧ SpellsDot as ∧ SpellsDot bs := by
    intro as bs hcs has hbs
    obtain ⟨as', bs', rfl, rfl, rfl⟩ := List.map_eq_append_iff.1 (String.ofList_injective hcs)
    exact ⟨as', bs', rfl, has, hbs⟩
  simp only [isDoubleDot, List.contains_iff_mem, List.mem_cons, List.not_mem_nil, or_false] at h
  obtain h | h | h | h := h
  · exact hsplit ['.'] ['.'] h (.inl rfl) (.inl rfl)
  · exact hsplit ['%', '2', 'e'] ['.'] h (.inr rfl) (.inl rfl)
  · exact hsplit ['.'] ['%', '2', 'e'] h (.inl rfl) (.inr rfl)
  · exact hsplit ['%', '2', 'e'] ['%', '2', 'e'] h (.inr rfl) (.inr rfl)

/-- Only a dot is encoded as one. -/
theorem eq_of_isDot_encode (hset : set.Reversible) (h : isDot (encode set cs)) : cs = ['.'] := by
  have hdecoded := decodeBytes_dot (spellsDot_of_isDot h) []
  rw [List.append_nil, decodeBytes_encode hset] at hdecoded
  exact encode_utf8_injective hdecoded

/-- Only two dots are encoded as two. -/
theorem eq_of_isDoubleDot_encode (hset : set.Reversible) (h : isDoubleDot (encode set cs)) : cs = ['.', '.'] := by
  obtain ⟨as, bs, hcs, has, hbs⟩ := spellsDot_of_isDoubleDot h
  have hdecoded := decodeBytes_encode hset cs
  rw [hcs, Utf8.encode, List.flatMap_append] at hdecoded
  have hdots := (decodeBytes_dot has _).trans (congrArg (46 :: ·) (decodeBytes_dot hbs []))
  rw [List.append_nil] at hdots
  exact encode_utf8_injective (hdecoded.symm.trans hdots)

end Pipeworks.Url
