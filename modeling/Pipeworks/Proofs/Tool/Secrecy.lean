/-
What is seen of the token that git fetches with. What git complains of is told with the token blotted out, and nothing
of the token is left there nor comes about anew, unless it holds a star itself (`redact_conceals`). Beyond that git is
handed the token in one variable of the one command that needs it: two fetches with different tokens are alike in all
but its value, as long as git does not speak of them (`tokens_alike`) and a process can be handed both of them or
neither.
-/
import Pipeworks.Proofs.Text.Replace
import Pipeworks.Proofs.Tool.Git

namespace Pipeworks

/-! ## Texts for diagnosis -/

/-- The same credential, but for the access token and the content of the refresh token. -/
structure Token.SameButSecrets (t t' : Token) : Prop where
  refresh : t.refreshToken.isSome = t'.refreshToken.isSome
  tokenType : t.tokenType = t'.tokenType
  expiry : t.expiry = t'.expiry

theorem Token.SameButSecrets.diagnostic {t t' : Token} (h : t.SameButSecrets t') : t.diagnostic = t'.diagnostic := by
  obtain ⟨access, refresh, tokenType, expiry⟩ := t
  obtain ⟨access', refresh', tokenType', expiry'⟩ := t'
  obtain ⟨hrefresh, rfl, rfl⟩ := h
  cases refresh with
  | none =>
    cases refresh' with
    | none => rfl
    | some => cases hrefresh
  | some =>
    cases refresh' with
    | none => cases hrefresh
    | some => rfl

theorem Work.diagnostic_alike {w w' : Work} (hpipeline : w.pipeline = w'.pipeline)
    (htoken : w.token.SameButSecrets w'.token) : w.diagnostic = w'.diagnostic := by
  unfold Work.diagnostic
  rw [hpipeline, htoken.diagnostic]

namespace Tool.Git

open Program (Event Path path_done_iff path_ask_iff path_trace)
open Text (Cut Occurs)

variable {secret text : String}

/-! ## Complaints -/

theorem toList_ne_nil (hsecret : secret ≠ "") : secret.toList ≠ [] := fun h => hsecret (String.toList_eq_nil_iff.1 h)

theorem redact_absent (hsecret : secret ≠ "") (habsent : ¬ Occurs secret text) : redact text secret = text := by
  unfold redact
  rw [Text.replaceEach_absent (toList_ne_nil hsecret) habsent, String.ofList_toList]

/-- A text is told in its pieces, with stars where the secret stood. -/
theorem exists_redacted (hsecret : secret ≠ "") (text : String) :
    ∃ pieces : List String, Cut secret.toList text.toList (pieces.map String.toList) ∧
      text = secret.intercalate pieces ∧ redact text secret = "***".intercalate pieces := by
  obtain ⟨pieces, hcut, hresult⟩ := Text.exists_cut (toList_ne_nil hsecret) "***".toList text.toList
  have hpieces : (pieces.map String.ofList).map String.toList = pieces := by
    rw [List.map_map]
    exact (List.map_congr_left fun piece _ => String.toList_ofList).trans (List.map_id _)
  refine ⟨pieces.map String.ofList, hpieces.symm ▸ hcut, String.toList_inj.1 ?_, String.toList_inj.1 ?_⟩
  · rw [String.toList_intercalate, hpieces]
    exact hcut.joined
  · rw [String.toList_intercalate, hpieces, redact, String.toList_ofList]
    exact hresult

theorem not_occurs_redact (hsecret : secret ≠ "") (hstar : '*' ∉ secret.toList) (text : String) :
    ¬ Occurs secret (redact text secret) := by
  have hapart : ∀ c ∈ "***".toList, c ∉ secret.toList := by
    intro c hc
    have hc : c = '*' := by simpa using hc
    rwa [hc]
  unfold Occurs redact
  rw [String.toList_ofList]
  exact Text.not_infix_replaceEach (toList_ne_nil hsecret) (by decide) hapart _

/-- Nothing is left of a secret that has no star: neither an occurrence that overlaps others, nor one that comes about
where a piece of the text meets the stars. What stands between the occurrences that are found from left to right is
kept, and all of the text if there are none. -/
theorem redact_conceals (text secret : String) (hsecret : secret ≠ "") (hstar : '*' ∉ secret.toList) :
    ¬ Occurs secret (redact text secret) ∧ (¬ Occurs secret text → redact text secret = text) ∧
      ∃ pieces : List String, Cut secret.toList text.toList (pieces.map String.toList) ∧
        text = secret.intercalate pieces ∧ redact text secret = "***".intercalate pieces :=
  ⟨not_occurs_redact hsecret hstar text, redact_absent hsecret, exists_redacted hsecret text⟩

namespace Sample

/-- Two secrets that overlap, a third behind them, and one that arises where two lie side by side. -/
def complaint : String := "aba-ababa!ababaab"

end Sample

theorem redact_conceals_overlapping :
    "aba" ≠ "" ∧ '*' ∉ "aba".toList ∧ redact Sample.complaint "aba" = "***-***ba!***baab" ∧
      ¬ Occurs "aba" (redact Sample.complaint "aba") :=
  have hsecret : "aba" ≠ "" := by decide
  have hstar : '*' ∉ "aba".toList := by decide
  ⟨hsecret, hstar, by decide +kernel, (redact_conceals Sample.complaint "aba" hsecret hstar).1⟩

variable {es : List (Event Invocation Answer)} {result : Except Fault Unit} {directory cloneUrl commit : String}
  {cs : List Command} {c : Command} {a b : String} {token : Token}

/-! ## One command after the other -/

/-- The program was started and did what it should. -/
def succeeded : Except LaunchFault Ending → Bool
  | .ok ending => ending.succeeded
  | .error _ => false

theorem settle_ok_iff (secret : String) (c : Command) {answer : Except LaunchFault Ending} :
    settle secret c answer = .ok () ↔ succeeded answer := by
  cases answer with
  | error f => simp [settle, succeeded]
  | ok ending =>
    unfold settle succeeded
    dsimp only
    split <;> simp_all

/-- Every command but the last that was started did what it should; and so did that one, if there were no more to
start, or else it did not, and the fetch has failed. -/
structure Stopped (cs : List Command) (es : List (Event Invocation Answer)) (result : Except Fault Unit) : Prop where
  before : ∀ e ∈ es.dropLast, succeeded e.answer
  last : es.length = cs.length ∧ (∀ e ∈ es, succeeded e.answer) ∧ result = .ok () ∨
    ∃ e ∈ es.getLast?, succeeded e.answer = false ∧ result ≠ .ok ()

theorem Stopped.cons {e : Event Invocation Answer} (he : succeeded e.answer) (h : Stopped cs es result) :
    Stopped (c :: cs) (e :: es) result := by
  obtain ⟨hbefore, hlast⟩ := h
  cases es with
  | nil =>
    refine ⟨List.forall_mem_nil _, ?_⟩
    obtain ⟨hlength, -, hresult⟩ | ⟨_, hnone, -⟩ := hlast
    · exact .inl ⟨congrArg (· + 1) hlength, List.forall_mem_singleton.2 he, hresult⟩
    · cases hnone
  | cons e' es =>
    refine ⟨List.forall_mem_cons.2 ⟨he, hbefore⟩, hlast.imp ?_ ?_⟩
    · rintro ⟨hlength, hall, hresult⟩
      exact ⟨congrArg (· + 1) hlength, List.forall_mem_cons.2 ⟨he, hall⟩, hresult⟩
    · rintro ⟨failing, hmem, hfailed⟩
      exact ⟨failing, List.getLast?_cons_cons.symm ▸ hmem, hfailed⟩

theorem stopped_of_runAll (h : Path (runAll directory secret cs) es result) : Stopped cs es result := by
  induction cs generalizing es with
  | nil =>
    obtain ⟨rfl, rfl⟩ := path_done_iff.1 h
    exact ⟨List.forall_mem_nil _, .inl ⟨rfl, List.forall_mem_nil _, rfl⟩⟩
  | cons c cs ih =>
    obtain ⟨answer, rest, rfl, hrest⟩ := path_ask_iff.1 h
    split at hrest
    case h_1 f hf =>
      obtain ⟨rfl, rfl⟩ := path_done_iff.1 hrest
      have hfailed : succeeded answer = false := by
        rw [← Bool.not_eq_true, ← settle_ok_iff secret c, hf]
        nofun
      exact ⟨List.forall_mem_nil _, .inr ⟨_, rfl, hfailed, nofun⟩⟩
    case h_2 hok => exact (ih hrest).cons ((settle_ok_iff secret c).1 hok)

/-! ## The variable of the token -/

/-- A variable without its value, if that is the token. -/
def veiled : String × String → String × String
  | (name, value) => (name, if name = tokenVariable then "" else value)

theorem veiled_token (value : String) : veiled (tokenVariable, value) = (tokenVariable, "") := rfl

/-- The same start, but for the value of the token's variable. -/
structure SameButToken (i j : Invocation) : Prop where
  arguments : i.arguments = j.arguments
  environment : i.environment.map veiled = j.environment.map veiled

/-- A command that is handed the token. -/
def Command.takesToken : Command → Bool
  | .fetch url _ => Git.takesToken url
  | _ => false

/-- What every command is told: not to ask for anything. -/
def quiet : List (String × String) := [("GIT_TERMINAL_PROMPT", "0")]

theorem environment_quiet (secret : String) (h : c.takesToken = false) : environment secret c = quiet := by
  cases c with
  | init => rfl
  | checkout => rfl
  | fetch url commit =>
    have hurl : Git.takesToken url = false := h
    rw [environment, hurl]
    rfl

/-- What sets up the helper that asks for the token. -/
def helperSetup : List (String × String) := [
  ("GIT_CONFIG_COUNT", "2"),
  ("GIT_CONFIG_KEY_0", "credential.helper"),
  ("GIT_CONFIG_VALUE_0", ""),
  ("GIT_CONFIG_KEY_1", "credential.helper"),
  ("GIT_CONFIG_VALUE_1", credentialHelper)]

theorem environment_token (hsecret : secret ≠ "") (h : c.takesToken = true) :
    environment secret c = quiet ++ helperSetup ++ [(tokenVariable, secret)] := by
  cases c with
  | init => cases h
  | checkout => cases h
  | fetch url commit =>
    have hurl : Git.takesToken url = true := h
    have hempty : secret.isEmpty = false := by simpa using hsecret
    rw [environment, hurl, if_pos rfl, credentials, hempty]
    rfl

theorem setup_ne_token : ∀ v ∈ quiet ++ helperSetup, v.1 ≠ tokenVariable := by decide

/-- The token's variable is set for the commands that take the token, and for no other, and holds it. -/
theorem mem_environment_iff (hsecret : secret ≠ "") {value : String} :
    (tokenVariable, value) ∈ environment secret c ↔ c.takesToken = true ∧ value = secret := by
  cases htoken : c.takesToken with
  | false =>
    rw [environment_quiet secret htoken]
    refine ⟨fun hmem => ?_, fun h => Bool.noConfusion h.1⟩
    exact absurd rfl (setup_ne_token _ (List.mem_append_left _ hmem))
  | true =>
    rw [environment_token hsecret htoken, List.mem_append, List.mem_singleton]
    constructor
    · rintro (hmem | heq)
      · exact absurd rfl (setup_ne_token _ hmem)
      · exact ⟨rfl, congrArg Prod.snd heq⟩
    · rintro ⟨-, rfl⟩
      exact .inr rfl

theorem sameButToken_invocation (ha : a ≠ "") (hb : b ≠ "") (directory : String) (c : Command) :
    SameButToken (c.invocation directory a) (c.invocation directory b) := by
  refine ⟨rfl, ?_⟩
  show (environment a c).map veiled = (environment b c).map veiled
  cases htoken : c.takesToken with
  | false => rw [environment_quiet a htoken, environment_quiet b htoken]
  | true =>
    rw [environment_token ha htoken, environment_token hb htoken]
    simp only [List.map_append, List.map_singleton, veiled_token]

/-- A process can be handed both tokens or neither. -/
theorem representable_invocation (ha : a ≠ "") (hb : b ≠ "") (hnul : c.takesToken = true → hasNul a = hasNul b) :
    (c.invocation directory a).representable = (c.invocation directory b).representable := by
  show ((c.arguments directory).all (!hasNul ·) && (environment a c).all fun (_, value) => !hasNul value) =
    ((c.arguments directory).all (!hasNul ·) && (environment b c).all fun (_, value) => !hasNul value)
  cases htoken : c.takesToken with
  | false => rw [environment_quiet a htoken, environment_quiet b htoken]
  | true =>
    rw [environment_token ha htoken, environment_token hb htoken]
    simp only [List.all_append, List.all_cons, List.all_nil, hnul htoken]

/-! ## Two fetches -/

/-- What comes of one start after the other. -/
abbrev Script : Type := Nat → Except LaunchFault Ending

/-- A host on which git keeps to a script, whatever it is started with. What no process can be handed is not started. -/
def keepTo : Program.Handler Invocation Answer Script := fun i script =>
  if i.representable then (script 0, fun n => script (n + 1)) else (.error .nulByte, script)

/-- The secret does not occur in what the program complained of, if it was started. -/
def Unsaid (secret : String) : Except LaunchFault Ending → Prop
  | .ok ending => ¬ Occurs secret (Text.ofBytesLossy ending.complaint)
  | .error _ => True

/-- What comes of a session on such a host. -/
def Script.outcome {α : Type} (script : Script) (session : Session α) : α := (session.run keepTo script).1

/-- What is started in such a session. -/
def Script.events {α : Type} (script : Script) (session : Session α) : List (Event Invocation Answer) :=
  session.trace keepTo script

instance (secret : String) : (answer : Except LaunchFault Ending) → Decidable (Unsaid secret answer)
  | .ok ending => inferInstanceAs (Decidable (¬ Occurs secret (Text.ofBytesLossy ending.complaint)))
  | .error _ => inferInstanceAs (Decidable True)

theorem unsaid_keepTo {script : Script} (h : ∀ n, Unsaid secret (script n)) (i : Invocation) :
    Unsaid secret (keepTo i script).1 ∧ ∀ n, Unsaid secret ((keepTo i script).2 n) := by
  unfold keepTo
  split
  · exact ⟨h 0, fun n => h (n + 1)⟩
  · exact ⟨trivial, h⟩

theorem settle_alike (ha : a ≠ "") (hb : b ≠ "") {answer : Except LaunchFault Ending} (hunsaid : Unsaid a answer)
    (hunsaid' : Unsaid b answer) : settle a c answer = settle b c answer := by
  cases answer with
  | error f => rfl
  | ok ending =>
    have hredact : redact ending.complaintText a = ending.complaintText :=
      redact_absent ha fun h => hunsaid h.of_trimmed
    have hredact' : redact ending.complaintText b = ending.complaintText :=
      redact_absent hb fun h => hunsaid' h.of_trimmed
    simp only [settle, hredact, hredact']

/-- The same start, but for the value of the token's variable, with the same answer. -/
structure Alike (e f : Event Invocation Answer) : Prop where
  call : SameButToken e.call f.call
  answer : e.answer = f.answer

theorem runAll_cons (directory secret : String) (c : Command) (cs : List Command) :
    runAll directory secret (c :: cs) = .ask (c.invocation directory secret) fun answer =>
      match settle secret c answer with
      | .error f => .done (.error f)
      | .ok () => runAll directory secret cs := rfl

theorem runAll_alike (ha : a ≠ "") (hb : b ≠ "") (hnul : ∀ c ∈ cs, c.takesToken = true → hasNul a = hasNul b)
    {script : Script} (hunsaid : ∀ n, Unsaid a (script n)) (hunsaid' : ∀ n, Unsaid b (script n)) :
    script.outcome (runAll directory a cs) = script.outcome (runAll directory b cs) ∧
      List.Forall₂ Alike (script.events (runAll directory a cs)) (script.events (runAll directory b cs)) := by
  unfold Script.outcome Script.events
  induction cs generalizing script with
  | nil => exact ⟨rfl, .nil⟩
  | cons c cs ih =>
    obtain ⟨hc, hcs⟩ := List.forall_mem_cons.1 hnul
    have hsame : keepTo (c.invocation directory a) script = keepTo (c.invocation directory b) script := by
      unfold keepTo
      rw [representable_invocation ha hb hc]
    obtain ⟨hanswer, hrest⟩ := unsaid_keepTo hunsaid (c.invocation directory b)
    obtain ⟨hanswer', hrest'⟩ := unsaid_keepTo hunsaid' (c.invocation directory b)
    have hcall := sameButToken_invocation ha hb directory c
    rw [runAll_cons, runAll_cons, Program.run, Program.run, Program.trace, Program.trace, hsame,
      settle_alike ha hb hanswer hanswer']
    cases settle b c (keepTo (c.invocation directory b) script).1 with
    | error f => exact ⟨rfl, .cons ⟨hcall, rfl⟩ .nil⟩
    | ok =>
      obtain ⟨hresult, hevents⟩ := ih hcs hrest hrest'
      exact ⟨hresult, .cons ⟨hcall, rfl⟩ hevents⟩

theorem fetch_alike {t t' : Token} (ht : t.accessToken ≠ "") (ht' : t'.accessToken ≠ "")
    (hnul : ∀ url, Url.ofText cloneUrl = .ok url → takesToken url → hasNul t.accessToken = hasNul t'.accessToken)
    {script : Script} (hunsaid : ∀ n, Unsaid t.accessToken (script n))
    (hunsaid' : ∀ n, Unsaid t'.accessToken (script n)) :
    script.outcome (fetch cloneUrl commit t directory) = script.outcome (fetch cloneUrl commit t' directory) ∧
      List.Forall₂ Alike (script.events (fetch cloneUrl commit t directory))
        (script.events (fetch cloneUrl commit t' directory)) := by
  unfold fetch
  cases hurl : Url.ofText cloneUrl with
  | error f => exact ⟨rfl, .nil⟩
  | ok url =>
    have hcommands : ∀ c ∈ commands url commit, c.takesToken = true → hasNul t.accessToken = hasNul t'.accessToken := by
      intro c hc htoken
      simp only [commands, List.mem_cons, List.not_mem_nil, or_false] at hc
      obtain rfl | rfl | rfl := hc
      · cases htoken
      · exact hnul url hurl htoken
      · cases htoken
    exact runAll_alike ht ht' hcommands hunsaid hunsaid'

/-- What is seen of a fetch from an address. git is started with the commands in their order, up to the first that
fails. The token's variable is set for the second one, if the address is on the web, and holds the token; the others
have no variables but the one that keeps git from asking. -/
structure Seen (url : Url) (commit directory secret : String) (es : List (Event Invocation Answer))
    (result : Except Fault Unit) : Prop where
  arguments : es.map (·.call.arguments) <+: (commands url commit).map (·.arguments directory)
  stopped : Stopped (commands url commit) es result
  token : ∀ n e, es[n]? = some e → ∀ value, (tokenVariable, value) ∈ e.call.environment ↔
    n = 1 ∧ (url.scheme = "http" ∨ url.scheme = "https") ∧ value = secret
  others : ∀ n e, es[n]? = some e → n ≠ 1 → e.call.environment = [("GIT_TERMINAL_PROMPT", "0")]

/-- The command that git is started with at its turn. -/
theorem command_at (hcalls : es.map Event.call <+: cs.map (Command.invocation directory secret)) {n : Nat}
    {e : Event Invocation Answer} (he : es[n]? = some e) :
    ∃ c, cs[n]? = some c ∧ e.call = c.invocation directory secret := by
  obtain ⟨hn, rfl⟩ := List.getElem?_eq_some_iff.1 he
  have hcommand := List.prefix_iff_getElem?.1 hcalls n (by rwa [List.length_map])
  rw [List.getElem?_map, List.getElem_map, Option.map_eq_some_iff] at hcommand
  obtain ⟨c, hc, hcall⟩ := hcommand
  exact ⟨c, hc, hcall.symm⟩

/-- The second command takes the token, if the address is on the web, and no other does. -/
theorem takesToken_at {url : Url} {n : Nat} (hc : (commands url commit)[n]? = some c) :
    c.takesToken = true ↔ n = 1 ∧ (url.scheme = "http" ∨ url.scheme = "https") := by
  match n, hc with
  | 0, hc => cases hc; simp [Command.takesToken]
  | 1, hc => cases hc; simp [Command.takesToken, takesToken]
  | 2, hc => cases hc; simp [Command.takesToken]

theorem seen_of_fetch (hsecret : token.accessToken ≠ "")
    (h : Path (fetch cloneUrl commit token directory) es result) :
    (∃ f, Url.ofText cloneUrl = .error f ∧ es = [] ∧ result = .error (.cloneUrl f)) ∨
      ∃ url, Url.ofText cloneUrl = .ok url ∧ Seen url commit directory token.accessToken es result := by
  unfold fetch at h
  split at h
  case h_1 f hf =>
    obtain ⟨rfl, rfl⟩ := path_done_iff.1 h
    exact .inl ⟨f, hf, rfl, rfl⟩
  case h_2 url hurl =>
    have hcalls : es.map Event.call <+: (commands url commit).map (Command.invocation directory token.accessToken) :=
      calls_of_runAll h
    refine .inr ⟨url, hurl, ?_, stopped_of_runAll h, ?_, ?_⟩
    · have harguments := hcalls.map Invocation.arguments
      rwa [List.map_map, List.map_map] at harguments
    · intro n e he value
      obtain ⟨c, hc, hcall⟩ := command_at hcalls he
      rw [hcall, ← and_assoc, ← takesToken_at hc]
      exact mem_environment_iff hsecret
    · intro n e he hn
      obtain ⟨c, hc, hcall⟩ := command_at hcalls he
      have htoken : c.takesToken = false :=
        Bool.eq_false_iff.2 fun htoken => hn ((takesToken_at hc).1 htoken).1
      rw [hcall]
      exact environment_quiet token.accessToken htoken

/-- Two fetches with different tokens come to the same result, whatever git does, as long as it does not speak of the
tokens, and are the same but for the value of one variable, which is set only for the command that needs it. Of the
tokens no process can be handed one with a NUL, so where they are handed to git both have one or neither. Nor is there a
difference in the text of two works that stands in a journal. -/
theorem tokens_alike (cloneUrl commit directory : String) (t t' : Token) (script : Script) (ht : t.accessToken ≠ "")
    (ht' : t'.accessToken ≠ "")
    (hnul : ∀ url, Url.ofText cloneUrl = .ok url → takesToken url → hasNul t.accessToken = hasNul t'.accessToken)
    (hunsaid : ∀ n, Unsaid t.accessToken (script n)) (hunsaid' : ∀ n, Unsaid t'.accessToken (script n)) :
    script.outcome (fetch cloneUrl commit t directory) = script.outcome (fetch cloneUrl commit t' directory) ∧
    List.Forall₂ Alike (script.events (fetch cloneUrl commit t directory))
      (script.events (fetch cloneUrl commit t' directory)) ∧
    (∀ token ∈ [t, t'], ∀ es result, es = script.events (fetch cloneUrl commit token directory) →
      result = script.outcome (fetch cloneUrl commit token directory) →
      (∃ f, Url.ofText cloneUrl = .error f ∧ es = [] ∧ result = .error (.cloneUrl f)) ∨
        ∃ url, Url.ofText cloneUrl = .ok url ∧ Seen url commit directory token.accessToken es result) ∧
    ∀ w w' : Work, w.pipeline = w'.pipeline → w.token.SameButSecrets w'.token → w.diagnostic = w'.diagnostic := by
  obtain ⟨hresult, hevents⟩ := fetch_alike ht ht' hnul hunsaid hunsaid'
  refine ⟨hresult, hevents, ?_, fun w w' => Work.diagnostic_alike⟩
  rintro token htoken _ _ rfl rfl
  have hsecret : token.accessToken ≠ "" := by
    simp only [List.mem_cons, List.not_mem_nil, or_false] at htoken
    obtain rfl | rfl := htoken
    · exact ht
    · exact ht'
  exact seen_of_fetch hsecret (path_trace keepTo _ script)

namespace Sample

def web : String := "https://git.example.com/acme/widget.git"

def own : Token := { accessToken := "gho_secret" }

def other : Token := { accessToken := "gho_other" }

/-- A token that no process can be handed. -/
def unsendable : Token := { accessToken := "gho\x00secret" }

def silent : Except LaunchFault Ending := .ok ⟨some 0, [], []⟩

def notFound : Except LaunchFault Ending := .ok ⟨some 128, [], Text.bytes "fatal: repository not found\n"⟩

/-- The repository is made, but the commit cannot be fetched. -/
def unknown : Script
  | 1 => notFound
  | _ => silent

theorem unsaid_unknown (hsilent : Unsaid secret silent) (hnotFound : Unsaid secret notFound) :
    ∀ n, Unsaid secret (unknown n)
  | 0 => hsilent
  | 1 => hnotFound
  | _ + 2 => hsilent

/-- Which variables hold a text. -/
def holders (value : String) (es : List (Event Invocation Answer)) : List (List String) :=
  es.map fun e => (e.call.environment.filter (·.2 == value)).map (·.1)

end Sample

theorem tokens_alike_failing :
    (∀ n, Unsaid Sample.own.accessToken (Sample.unknown n)) ∧
      (∀ n, Unsaid Sample.other.accessToken (Sample.unknown n)) ∧
      Sample.unknown.outcome (fetch Sample.web "c0ffee" Sample.own "/w") =
        Sample.unknown.outcome (fetch Sample.web "c0ffee" Sample.other "/w") ∧
      Sample.unknown.outcome (fetch Sample.web "c0ffee" Sample.other "/w") =
        .error (.failed "fetch" "fatal: repository not found") ∧
      Sample.holders "gho_secret" (Sample.unknown.events (fetch Sample.web "c0ffee" Sample.own "/w")) =
        [[], ["KILN_GIT_TOKEN"]] := by
  have hunsaid : ∀ n, Unsaid Sample.own.accessToken (Sample.unknown n) :=
    Sample.unsaid_unknown (by decide +kernel) (by decide +kernel)
  have hunsaid' : ∀ n, Unsaid Sample.other.accessToken (Sample.unknown n) :=
    Sample.unsaid_unknown (by decide +kernel) (by decide +kernel)
  have hnul : hasNul Sample.own.accessToken = hasNul Sample.other.accessToken := by decide
  have halike := tokens_alike Sample.web "c0ffee" "/w" Sample.own Sample.other Sample.unknown (by decide) (by decide)
    (fun _ _ _ => hnul) hunsaid hunsaid'
  exact ⟨hunsaid, hunsaid', halike.1, by decide +kernel, by decide +kernel⟩

/-- A token with a NUL can be told from one without: git is not started with it. -/
theorem nul_told_apart : ¬ ∀ (cloneUrl commit directory : String) (t t' : Token) (script : Script),
    t.accessToken ≠ "" → t'.accessToken ≠ "" → (∀ n, Unsaid t.accessToken (script n)) →
      (∀ n, Unsaid t'.accessToken (script n)) →
        script.outcome (fetch cloneUrl commit t directory) = script.outcome (fetch cloneUrl commit t' directory) := by
  intro h
  have hsame := h Sample.web "c0ffee" "/w" Sample.unsendable Sample.own (fun _ => Sample.silent) (by decide) (by decide)
    (fun _ => by decide +kernel) (fun _ => by decide +kernel)
  exact absurd hsame (by decide +kernel)

end Tool.Git

end Pipeworks
