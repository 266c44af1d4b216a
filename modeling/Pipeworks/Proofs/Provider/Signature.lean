/-
Whether a delivery is genuine. A signature is accepted exactly if the first one is visible text that has the digits of
the keyed digest of the body behind `sha256=` (`accepts_signature`): the digits may be of either case, but there are
sixty-four of them, and a comparison that looks at every byte finds no other code to be the same. Where the secret
itself is sent along, it is accepted exactly if the first value is visible and the secret, byte for byte
(`accepts_token`).
-/
import Pipeworks.Proofs.Text.Hex
import Pipeworks.Proofs.Text.Utf8
import Pipeworks.Provider.Event

namespace Pipeworks

/-! ## Lengths of digests -/

namespace Sha256

theorem length_bigEndian (width n : Nat) : (bigEndian width n).length = width := by
  induction width generalizing n with
  | zero => rfl
  | succ width ih => rw [bigEndian, List.length_append, ih, List.length_singleton]

theorem length_digest (message : Bytes) : (digest message).length = 32 := by
  simp only [digest, State.bytes, List.flatMap_cons, List.flatMap_nil, List.length_append, length_bigEndian,
    List.length_nil]

theorem length_hmac (key message : Bytes) : (hmac key message).length = 32 := length_digest _

end Sha256

/-! ## Headers -/

namespace Http

variable {name : String} {headers before after : Headers}

theorem isVisible_iff {b : UInt8} : isVisible b = true ↔ b = 9 ∨ 32 ≤ b ∧ b < 127 := by
  simp [isVisible]

/-- The value of a header is text if all of it is visible, and then it is the bytes of that text. -/
theorem Headers.text?_eq_some_iff {s : String} : headers.text? name = some s ↔
    headers.first? name = some (Text.bytes s) ∧ ∀ b ∈ Text.bytes s, isVisible b = true := by
  have hascii : ∀ {b : UInt8}, isVisible b = true → b < 0x80 := by
    intro b hb
    obtain rfl | ⟨-, hb⟩ := isVisible_iff.1 hb
    · decide
    · exact UInt8.lt_trans hb (by decide)
  unfold Headers.text?
  cases headers.first? name with
  | none => exact ⟨nofun, fun h => by cases h.1⟩
  | some value =>
    dsimp only
    by_cases hvisible : value.all isVisible = true
    · have hall := List.all_eq_true.1 hvisible
      rw [if_pos hvisible, Text.ofBytes?_ascii fun b hb => hascii (hall b hb), Option.some.injEq]
      exact ⟨fun h => ⟨h, h ▸ hall⟩, And.left⟩
    · rw [if_neg hvisible]
      refine ⟨nofun, fun ⟨hvalue, hall⟩ => absurd ?_ hvisible⟩
      cases hvalue
      exact List.all_eq_true.2 hall

/-- A value is the first of a name if its header has the name, and no header in front of it does. -/
def Headers.IsFirst (name : String) (headers : Headers) (value : Bytes) : Prop :=
  ∃ before header after, headers = before ++ header :: after ∧ (∀ h ∈ before, hasName name h = false) ∧
    hasName name header = true ∧ header.2 = value

theorem Headers.first?_eq_some_iff {value : Bytes} :
    headers.first? name = some value ↔ headers.IsFirst name value := by
  unfold Headers.first?
  rw [Option.map_eq_some_iff]
  constructor
  · rintro ⟨header, hfind, rfl⟩
    obtain ⟨hname, before, after, hheaders, hbefore⟩ := List.find?_eq_some_iff_append.1 hfind
    exact ⟨before, header, after, hheaders, by simpa using hbefore, hname, rfl⟩
  · rintro ⟨before, header, after, hheaders, hbefore, hname, rfl⟩
    have hunnamed : ∀ h ∈ before, (!hasName name h) = true := by simpa using hbefore
    exact ⟨header, List.find?_eq_some_iff_append.2 ⟨hname, before, after, hheaders, hunnamed⟩, rfl⟩

/-- The first header with a name counts, whatever stands behind it. -/
theorem Headers.first?_append {header : Bytes × Bytes} (hbefore : ∀ h ∈ before, hasName name h = false)
    (hname : hasName name header = true) :
    Headers.first? name (before ++ header :: after) = some header.2 :=
  Headers.first?_eq_some_iff.2 ⟨before, header, after, rfl, hbefore, hname, rfl⟩

end Http

namespace Provider

open Http (Headers hasName)

/-! ## Comparison -/

/-- The differences of all bytes together are none exactly if there is none in any of them. -/
theorem foldl_xor_eq_zero_iff {a b : Bytes} (h : a.length = b.length) (found : UInt8) :
    (List.zipWith (· ^^^ ·) a b).foldl (· ||| ·) found = 0 ↔ found = 0 ∧ a = b := by
  induction a generalizing b found with
  | nil =>
    cases b with
    | nil => simp
    | cons y b => cases h
  | cons x a ih =>
    cases b with
    | nil => cases h
    | cons y b =>
      rw [List.zipWith_cons_cons, List.foldl_cons, ih (Nat.succ.inj h), UInt8.or_eq_zero_iff,
        UInt8.xor_eq_zero_iff, List.cons.injEq, and_assoc]

theorem sameBytes_iff {a b : Bytes} : sameBytes a b = true ↔ a = b := by
  unfold sameBytes
  rw [Bool.and_eq_true, beq_iff_eq, beq_iff_eq]
  constructor
  · rintro ⟨hlength, hzero⟩
    exact ((foldl_xor_eq_zero_iff hlength 0).1 hzero).2
  · rintro rfl
    exact ⟨rfl, (foldl_xor_eq_zero_iff rfl 0).2 ⟨rfl, rfl⟩⟩

/-! ## Signatures -/

/-- What is sent as the signature with the given digits. -/
def signature (digits : List Char) : Bytes := Text.bytes "sha256=" ++ Utf8.encode digits

/-- A value signs with a code if it is visible, and the sixty-four digits of the code stand behind the name of the
digest. The digits are of either case: they are the code as it is written in lower case. -/
def Signs (code value : Bytes) : Prop :=
  (∀ b ∈ value, b = 9 ∨ 32 ≤ b ∧ b < 127) ∧
  ∃ digits : List Char, value = signature digits ∧ digits.length = 64 ∧ (∀ c ∈ digits, Hex.IsDigit c) ∧
    digits.map Char.toLower = Hex.encode code

variable {code value : Bytes} {digits : List Char}

theorem claimedDigest?_eq_some_iff {s : String} : claimedDigest? s = some code ↔
    ∃ digits, s.toList = "sha256=".toList ++ digits ∧ digits.map Char.toLower = Hex.encode code := by
  unfold claimedDigest?
  rw [Option.bind_eq_some_iff]
  constructor
  · rintro ⟨digits, hafter, hdecode⟩
    exact ⟨digits, Text.append_of_after? hafter, Hex.decode?_eq_some_iff.1 hdecode⟩
  · rintro ⟨digits, hs, hdigits⟩
    refine ⟨digits, ?_, Hex.decode?_eq_some_iff.2 hdigits⟩
    rw [hs]
    rfl

theorem isVisible_of_mem_encode {cs : List Char} (h : ∀ c ∈ cs, 32 ≤ c.toNat ∧ c.toNat < 127) :
    ∀ b ∈ Utf8.encode cs, b = 9 ∨ 32 ≤ b ∧ b < 127 := by
  intro b hb
  obtain ⟨c, hc, hbc⟩ := List.mem_flatMap.1 hb
  obtain ⟨hlow, hhigh⟩ := h c hc
  rw [Utf8.encodeChar, Utf8.encodeNat, if_pos (by omega), List.mem_singleton] at hbc
  have hnat : b.toNat = c.toNat := by rw [hbc, Utf8.toNat_toUInt8 (by omega)]
  exact .inr ⟨UInt8.le_iff_toNat_le.2 (hnat ▸ hlow), UInt8.lt_iff_toNat_lt.2 (hnat ▸ hhigh)⟩

/-- The digits of a code sign with it, in whichever case each of them is. -/
theorem signs_of_digits (hcode : code.length = 32) (h : digits.map Char.toLower = Hex.encode code) :
    Signs code (signature digits) := by
  obtain ⟨hlength, hdigit⟩ := Hex.isDigit_of_map h
  have hstart : ∀ c ∈ "sha256=".toList, 32 ≤ c.toNat ∧ c.toNat < 127 := by
    have hall : ("sha256=".toList.all fun c => decide (32 ≤ c.toNat ∧ c.toNat < 127)) = true := by decide
    exact fun c hc => of_decide_eq_true (List.all_eq_true.1 hall c hc)
  have hvisible : ∀ c ∈ digits, 32 ≤ c.toNat ∧ c.toNat < 127 := by
    intro c hc
    obtain ⟨hlow, hhigh⟩ := (hdigit c hc).bounds
    omega
  refine ⟨fun b hb => ?_, digits, rfl, by omega, hdigit, h⟩
  obtain hb | hb := List.mem_append.1 hb
  · exact isVisible_of_mem_encode hstart b hb
  · exact isVisible_of_mem_encode hvisible b hb

/-- Signatures differ in length from what is cut off or added to. -/
theorem Signs.length (h : Signs code value) : value.length = 71 := by
  obtain ⟨-, digits, rfl, hlength, hdigit, -⟩ := h
  have hascii : ∀ c ∈ digits, c.toNat < 0x80 := fun c hc => Nat.lt_trans (hdigit c hc).bounds.2 (by decide)
  rw [signature, List.length_append, Utf8.length_encode_ascii hascii, hlength]
  rfl

theorem verify_github_iff {headers : Headers} {body : Bytes} {secret : String} :
    Provider.github.verify headers body secret = true ↔ ∃ value,
      headers.first? "x-hub-signature-256" = some value ∧ Signs (Sha256.hmac (Text.bytes secret) body) value := by
  have hcode := Sha256.length_hmac (Text.bytes secret) body
  generalize hmac : Sha256.hmac (Text.bytes secret) body = code at hcode ⊢
  have hverify : Provider.github.verify headers body secret = true ↔
      ∃ s, headers.text? "x-hub-signature-256" = some s ∧ claimedDigest? s = some code := by
    simp only [verify, hmac, ← Option.bind_eq_some_iff]
    cases (headers.text? "x-hub-signature-256").bind claimedDigest? with
    | none => exact ⟨nofun, nofun⟩
    | some claimed => exact sameBytes_iff.trans (Option.some.injEq _ _ ▸ eq_comm)
  rw [hverify]
  constructor
  · rintro ⟨s, htext, hclaimed⟩
    obtain ⟨hfirst, -⟩ := Http.Headers.text?_eq_some_iff.1 htext
    obtain ⟨digits, hs, hdigits⟩ := claimedDigest?_eq_some_iff.1 hclaimed
    have hvalue : Text.bytes s = signature digits := by
      rw [Text.bytes, hs, Utf8.encode, List.flatMap_append]
      rfl
    exact ⟨Text.bytes s, hfirst, hvalue ▸ signs_of_digits hcode hdigits⟩
  · rintro ⟨value, hfirst, hvisible, digits, rfl, -, -, hdigits⟩
    have hvalue : signature digits = Text.bytes (String.ofList ("sha256=".toList ++ digits)) := by
      rw [Text.bytes, String.toList_ofList, Utf8.encode, List.flatMap_append]
      rfl
    rw [hvalue] at hfirst hvisible
    refine ⟨_, Http.Headers.text?_eq_some_iff.2 ⟨hfirst, fun b hb => Http.isVisible_iff.2 (hvisible b hb)⟩, ?_⟩
    exact claimedDigest?_eq_some_iff.2 ⟨digits, String.toList_ofList, hdigits⟩

/-- A delivery to the hub is accepted exactly if the first value of its signature header signs with the keyed digest
of the body. So the code is accepted in lower and in upper case; what is cut off, added to or named otherwise is not;
and neither is a signature behind a first one, whatever the first one is. -/
theorem accepts_signature (headers : Headers) (body : Bytes) (secret : String) :
    let code := Sha256.hmac (Text.bytes secret) body
    let accepted (headers : Headers) : Prop := Provider.github.verify headers body secret = true
    let first? := headers.first? "x-hub-signature-256"
    (accepted headers ↔ ∃ value, first? = some value ∧ Signs code value) ∧
    (first? = some (signature (Hex.encode code)) → accepted headers) ∧
    (first? = some (signature ((Hex.encode code).map Char.toUpper)) → accepted headers) ∧
    (∀ value, first? = some value → value.length ≠ 71 ∨ ¬ Text.bytes "sha256=" <+: value → ¬ accepted headers) ∧
    ∀ before header after, (∀ h ∈ before, hasName "x-hub-signature-256" h = false) →
      hasName "x-hub-signature-256" header = true →
        (accepted (before ++ header :: after) ↔ Signs code header.2) := by
  intro code accepted first?
  have hcode : code.length = 32 := Sha256.length_hmac _ _
  obtain ⟨hlower, hupper⟩ := Hex.toLower_encode code
  have hiff : accepted headers ↔ ∃ value, first? = some value ∧ Signs code value := verify_github_iff
  refine ⟨hiff, fun h => ?_, fun h => ?_, fun value hvalue hother h => ?_, fun before header after hbefore hname => ?_⟩
  · exact hiff.2 ⟨_, h, signs_of_digits hcode hlower⟩
  · exact hiff.2 ⟨_, h, signs_of_digits hcode hupper⟩
  · obtain ⟨_, hfirst, hsigns⟩ := hiff.1 h
    cases hvalue.symm.trans hfirst
    obtain hlength | hstart := hother
    · exact hlength hsigns.length
    · obtain ⟨-, digits, rfl, -⟩ := hsigns
      exact hstart (List.prefix_append _ _)
  · refine verify_github_iff.trans ?_
    rw [Http.Headers.first?_append hbefore hname]
    exact ⟨fun ⟨_, hvalue, hsigns⟩ => (Option.some.inj hvalue).symm ▸ hsigns, fun h => ⟨_, rfl, h⟩⟩

/-! ## Tokens -/

/-- A secret is accepted as a token exactly if it comes first, and can be sent as text at all. -/
theorem verify_gitlab_iff {headers : Headers} {body : Bytes} {secret : String} :
    Provider.gitlab.verify headers body secret = true ↔
      headers.first? "x-gitlab-token" = some (Text.bytes secret) ∧
        ∀ b ∈ Text.bytes secret, Http.isVisible b = true := by
  have hverify : Provider.gitlab.verify headers body secret = true ↔
      ∃ token, headers.text? "x-gitlab-token" = some token ∧ Text.bytes token = Text.bytes secret := by
    unfold verify
    cases headers.text? "x-gitlab-token" with
    | none => exact ⟨nofun, nofun⟩
    | some token =>
      refine sameBytes_iff.trans ⟨fun h => ⟨token, rfl, h⟩, ?_⟩
      rintro ⟨_, htoken, h⟩
      cases htoken
      exact h
  rw [hverify]
  constructor
  · rintro ⟨token, htext, hsame⟩
    rw [← hsame]
    exact Http.Headers.text?_eq_some_iff.1 htext
  · intro h
    exact ⟨secret, Http.Headers.text?_eq_some_iff.2 h, rfl⟩

/-- The comparison that looks at every byte is equality, also of strings that differ in length. So a delivery that
carries the secret itself is accepted exactly if the first value of its token header is there, visible, and the secret
byte for byte; what its body is does not matter. -/
theorem accepts_token (headers : Headers) (body : Bytes) (secret : String) :
    (∀ a b : Bytes, sameBytes a b = true ↔ a = b) ∧
    (Provider.gitlab.verify headers body secret = true ↔ ∃ value,
      headers.IsFirst "x-gitlab-token" value ∧ (∀ b ∈ value, b = 9 ∨ 32 ≤ b ∧ b < 127) ∧
        value = Text.bytes secret) := by
  refine ⟨fun a b => sameBytes_iff, verify_gitlab_iff.trans ?_⟩
  constructor
  · rintro ⟨hfirst, hvisible⟩
    exact ⟨_, Http.Headers.first?_eq_some_iff.1 hfirst, fun b hb => Http.isVisible_iff.1 (hvisible b hb), rfl⟩
  · rintro ⟨value, hfirst, hvisible, rfl⟩
    exact ⟨Http.Headers.first?_eq_some_iff.2 hfirst, fun b hb => Http.isVisible_iff.2 (hvisible b hb)⟩

/-- No delivery brings a secret that is not visible, not even one that carries it as it is. -/
example : Provider.gitlab.verify [(Text.bytes "X-Gitlab-Token", Text.bytes "s3crét")] [] "s3crét" = false := by decide

end Provider

end Pipeworks
