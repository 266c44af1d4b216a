/-
What is kept of an address that is read: its scheme is the one at the start of the text, and so its own text starts
with a letter (`text_head`). An address on the web has an authority and segments (`ofText_web`).
-/
import Mathlib.Logic.Basic
import Pipeworks.Proofs.Program.Outcome
import Pipeworks.Proofs.Text.Hex
import Pipeworks.Text.Start
import Pipeworks.Url.Reader

namespace Pipeworks.Url

variable {u : Url} {s scheme : String} {cs rest : List Char}

/-! ## Schemes -/

theorem readFile_scheme (h : readFile cs = .ok u) : u.scheme = "file" := by
  unfold readFile at h
  dsimp only at h
  split at h
  case h_2 => cases h; rfl
  case h_1 a b rest =>
    obtain ⟨-, h⟩ | ⟨-, h⟩ := ite_eq_iff.1 h
    · obtain ⟨-, h⟩ | ⟨-, h⟩ := ite_eq_iff.1 h
      · cases h; rfl
      · obtain ⟨host, -, h⟩ := bind_eq_ok_iff.1 h
        obtain ⟨-, h⟩ | ⟨-, h⟩ := ite_eq_iff.1 h
        · cases h; rfl
        · cases h; rfl
    · cases h; rfl

/-- The ways to read an address: as one of a file, as another with one of the common schemes, which has an authority
and segments, or as one with some other scheme. -/
theorem ofText_cases (h : ofText s = .ok u) : ∃ scheme rest, scheme? (countedChars s) = some (scheme, rest) ∧
    (scheme = "file" ∧ readFile rest = .ok u ∨
    (∃ authority tail, u = withPath scheme (some authority) (fun cs => .segments (pathSegments true cs)) tail) ∨
    isCommon scheme = false ∧ ∃ authority path tail, u = withPath scheme authority path tail) := by
  unfold ofText at h
  split at h
  case h_1 => cases h
  case h_2 scheme rest hscheme =>
    refine ⟨scheme, rest, hscheme, ?_⟩
    obtain ⟨hfile, h⟩ | ⟨-, h⟩ := ite_eq_iff.1 h
    · exact .inl ⟨hfile, h⟩
    obtain ⟨-, h⟩ | ⟨hcommon, h⟩ := ite_eq_iff.1 h
    · obtain ⟨⟨authority, tail⟩, -, h⟩ := bind_eq_ok_iff.1 h
      cases h
      exact .inr (.inl ⟨authority, tail, rfl⟩)
    refine .inr (.inr ⟨Bool.eq_false_iff.2 hcommon, ?_⟩)
    split at h
    · obtain ⟨⟨authority, tail⟩, -, h⟩ := bind_eq_ok_iff.1 h
      cases h
      exact ⟨_, _, _, rfl⟩
    · cases h
      exact ⟨_, _, _, rfl⟩
    · cases h
      exact ⟨_, _, _, rfl⟩

/-- An address has the scheme that its text starts with. -/
theorem ofText_scheme (h : ofText s = .ok u) : ∃ rest, scheme? (countedChars s) = some (u.scheme, rest) := by
  obtain ⟨scheme, rest, hscheme, ⟨rfl, hfile⟩ | ⟨_, _, rfl⟩ | ⟨-, _, _, _, rfl⟩⟩ := ofText_cases h
  · exact ⟨rest, hscheme.trans (by rw [readFile_scheme hfile])⟩
  · exact ⟨rest, hscheme⟩
  · exact ⟨rest, hscheme⟩

/-- An address on the web has an authority and segments. -/
theorem ofText_web (h : ofText s = .ok u) (hscheme : u.scheme = "http" ∨ u.scheme = "https") :
    ∃ authority list, u.authority = some authority ∧ u.path = .segments list := by
  obtain ⟨scheme, rest, -, ⟨rfl, hfile⟩ | ⟨_, _, rfl⟩ | ⟨hother, _, _, _, rfl⟩⟩ := ofText_cases h
  · rw [readFile_scheme hfile] at hscheme
    exact absurd hscheme (by decide)
  · exact ⟨_, _, rfl, rfl⟩
  · have hcommon : isCommon scheme = true := by obtain rfl | rfl := hscheme <;> decide
    rw [hcommon] at hother
    cases hother

/-! ## The start of an address -/

theorem toNat_of_isAlpha {c : Char} (h : c.isAlpha = true) : 65 ≤ c.toNat := by
  have hletter : (decide (65 ≤ c.val ∧ c.val ≤ 90) || (decide (97 ≤ c.val) && decide (c.val ≤ 122))) = true := h
  simp only [Bool.or_eq_true, Bool.and_eq_true, decide_eq_true_eq] at hletter
  obtain ⟨h, -⟩ | ⟨h, -⟩ := hletter
  · exact UInt32.le_iff_toNat_le.1 h
  · exact Nat.le_trans (by decide) (UInt32.le_iff_toNat_le.1 h)

theorem scheme?_head (h : scheme? cs = some (scheme, rest)) : ∃ c tail, scheme.toList = c :: tail ∧ c ≠ '-' := by
  unfold scheme? at h
  split at h
  case h_1 => cases h
  case h_2 c tail =>
    obtain ⟨-, h⟩ | ⟨halpha, h⟩ := ite_eq_iff.1 h
    · cases h
    have hletter : c.isAlpha = true := by simpa using halpha
    have hchar : isSchemeChar c = true := by simp [isSchemeChar, Char.isAlphanum, hletter]
    split at h
    case h_2 => cases h
    case h_1 rest _ =>
      cases h
      refine ⟨c.toLower, (tail.takeWhile isSchemeChar).map Char.toLower, ?_, fun hdash => ?_⟩
      · rw [String.toList_ofList, List.takeWhile_cons_of_pos hchar, List.map_cons]
      · have hnat := congrArg Char.toNat hdash
        rw [Hex.toNat_toLower] at hnat
        have hrange : 65 ≤ c.toNat := toNat_of_isAlpha hletter
        have hdashNat : '-'.toNat = 45 := rfl
        split at hnat <;> omega

/-- The text of an address that was read does not start with a dash. -/
theorem text_head (h : ofText s = .ok u) : Text.startsWith "-" u.text = false := by
  obtain ⟨rest, hscheme⟩ := ofText_scheme h
  obtain ⟨c, tail, hlist, hc⟩ := scheme?_head hscheme
  have hdash : ∀ cs, Text.after? "-".toList (c :: cs) = none := fun cs => if_neg fun h => hc h.symm
  unfold Text.startsWith text
  simp only [String.toList_append, hlist, List.cons_append, hdash]
  rfl

end Pipeworks.Url
