/-
What git is started with: the commands of a fetch one after the other, up to the first that fails, each with its own
options and behind them what it is given. git takes an argument for an option if it begins with a dash, as long as no
double dash comes before it. An address never begins with a dash, so only a commit can be taken for one, and it is
wherever it is given to a command (`onlyOperands_iff`, `optionsSeen_command`).
-/
import Pipeworks.Proofs.Program.Path
import Pipeworks.Proofs.Url.Reader
import Pipeworks.Tool.Git

namespace Pipeworks.Tool.Git

open Program (Event Path path_done_iff path_ask_iff)

variable {es : List (Event Invocation Answer)} {result : Except Fault Unit} {directory secret : String}

/-! ## The starts of a fetch -/

/-- How a command is started. -/
def Command.invocation (directory secret : String) (c : Command) : Invocation :=
  ⟨c.arguments directory, environment secret c⟩

theorem calls_of_runAll {cs : List Command} (h : Path (runAll directory secret cs) es result) :
    es.map Event.call <+: cs.map (Command.invocation directory secret) := by
  induction cs generalizing es with
  | nil =>
    obtain ⟨rfl, -⟩ := path_done_iff.1 h
    exact List.prefix_refl _
  | cons c cs ih =>
    obtain ⟨answer, rest, rfl, hrest⟩ := path_ask_iff.1 h
    refine List.cons_prefix_cons.2 ⟨rfl, ?_⟩
    split at hrest
    · obtain ⟨rfl, -⟩ := path_done_iff.1 hrest
      exact List.nil_prefix
    · exact ih hrest

/-- The commands that check out a commit. -/
def commands (url : Url) (commit : String) : List Command := [.init, .fetch url commit, .checkout commit]

/-- Whatever git answers, it is started with the commands in their order, and not at all for what is no address. -/
theorem calls_of_fetch {cloneUrl commit : String} {token : Token}
    (h : Path (fetch cloneUrl commit token directory) es result) :
    es = [] ∨ ∃ url, Url.ofText cloneUrl = .ok url ∧
      es.map Event.call <+: (commands url commit).map (Command.invocation directory token.accessToken) := by
  unfold fetch at h
  split at h
  case h_1 =>
    obtain ⟨rfl, -⟩ := path_done_iff.1 h
    exact .inl rfl
  case h_2 url hurl => exact .inr ⟨url, hurl, calls_of_runAll h⟩

theorem call_of_fetch {cloneUrl commit : String} {token : Token}
    (h : Path (fetch cloneUrl commit token directory) es result) {e : Event Invocation Answer} (he : e ∈ es) :
    ∃ url, Url.ofText cloneUrl = .ok url ∧
      ∃ c ∈ commands url commit, e.call = c.invocation directory token.accessToken := by
  obtain rfl | ⟨url, hurl, hcalls⟩ := calls_of_fetch h
  · cases he
  · obtain ⟨c, hc, hcall⟩ := List.mem_map.1 (hcalls.subset (List.mem_map_of_mem he))
    exact ⟨url, hurl, c, hc, hcall.symm⟩

/-! ## Options and operands -/

/-- An argument that git reads as an operand for what it says itself or for what comes before it. -/
def IsOperand (before : List String) (argument : String) : Prop :=
  Text.startsWith "-" argument = false ∨ "--" ∈ before

/-- All of these arguments are read as operands. -/
def OnlyOperands (before : List String) : List String → Prop
  | [] => True
  | argument :: arguments => IsOperand before argument ∧ OnlyOperands (before ++ [argument]) arguments

/-- A dash and what follows it; a dash by itself is an operand. -/
def isOption (argument : String) : Bool := Text.startsWith "-" argument && argument != "-"

/-- The options that git sees, up to a double dash. -/
def optionsSeen (arguments : List String) : List String := (arguments.takeWhile (· != "--")).filter isOption

theorem ne_of_startsWith {argument : String} (h : Text.startsWith "-" argument = false) : argument ≠ "--" := by
  rintro rfl
  exact absurd h (by decide)

theorem optionsSeen_append {front : List String} (h : "--" ∉ front) (back : List String) :
    optionsSeen (front ++ back) = front.filter isOption ++ optionsSeen back := by
  have hfront : ∀ argument ∈ front, (argument != "--") = true := fun argument hargument =>
    bne_iff_ne.2 fun heq => h (heq ▸ hargument)
  rw [optionsSeen, List.takeWhile_append_of_pos hfront, List.filter_append]
  rfl

theorem optionsSeen_singleton (argument : String) :
    optionsSeen [argument] = [argument].filter fun a => isOption a && a != "--" := by
  by_cases h : argument = "--"
  · subst h
    rfl
  · have hne : (argument != "--") = true := bne_iff_ne.2 h
    rw [List.filter_singleton, hne, Bool.and_true, ← List.filter_singleton, optionsSeen, List.takeWhile_cons, hne]
    rfl

/-! ## What git makes of a commit -/

/-- The commit that a command is given. -/
def Command.commit? : Command → Option String
  | .init => none
  | .fetch _ commit => some commit
  | .checkout commit => some commit

variable {url : Url} {cloneUrl commit : String} {c : Command}

theorem commit?_of_mem (hc : c ∈ commands url commit) : c.commit? = none ∨ c.commit? = some commit := by
  simp only [commands, List.mem_cons, List.not_mem_nil, or_false] at hc
  rcases hc with rfl | rfl | rfl
  · exact .inl rfl
  · exact .inr rfl
  · exact .inr rfl

/-- What a command is given is read as operands exactly if its commit does not begin with a dash. -/
theorem onlyOperands_iff (hurl : Url.ofText cloneUrl = .ok url) (hc : c ∈ commands url commit) :
    OnlyOperands c.options c.operands ↔ ∀ commit ∈ c.commit?, Text.startsWith "-" commit = false := by
  have haddress := Url.text_head hurl
  have haddressNe := ne_of_startsWith haddress
  simp only [commands, List.mem_cons, List.not_mem_nil, or_false] at hc
  rcases hc with rfl | rfl | rfl
  · simp [Command.operands, Command.commit?, OnlyOperands]
  · simp [Command.options, Command.operands, Command.commit?, OnlyOperands, IsOperand, haddress, haddressNe.symm]
  · simp [Command.options, Command.operands, Command.commit?, OnlyOperands, IsOperand]

/-- The options that git sees are those of the command, and a commit that is one. -/
theorem optionsSeen_command (hurl : Url.ofText cloneUrl = .ok url) (hc : c ∈ commands url commit) :
    optionsSeen (c.options ++ c.operands) =
      c.options.filter isOption ++ c.commit?.toList.filter fun a => isOption a && a != "--" := by
  have haddress := Url.text_head hurl
  have hno : isOption url.text = false := by rw [isOption, haddress, Bool.false_and]
  have hsame : optionsSeen c.operands = c.commit?.toList.filter fun a => isOption a && a != "--" := by
    simp only [commands, List.mem_cons, List.not_mem_nil, or_false] at hc
    rcases hc with rfl | rfl | rfl
    · rfl
    · have hfront : "--" ∉ [url.text] := fun h => ne_of_startsWith haddress (List.mem_singleton.1 h).symm
      have happend := optionsSeen_append hfront [commit]
      rw [optionsSeen_singleton, List.filter_singleton, hno] at happend
      exact happend
    · exact optionsSeen_singleton commit
  have hfixed : "--" ∉ c.options := by cases c <;> simp [Command.options]
  rw [optionsSeen_append hfixed, hsame]

end Pipeworks.Tool.Git
