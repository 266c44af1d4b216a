/-
What becomes of the address and the commit of a push: they go into the row of its pipeline and into its work, from
there to the one fetch of an execution, and from there to git (`operands_of_push`). Nothing on the way looks at how
they begin. The address is read and written again before git gets it; the commit is not, so git takes one that begins
with a dash for an option (`commit_taken_for_option`).
-/
import Pipeworks.Proofs.EndToEnd
import Pipeworks.Proofs.Tool.Git

namespace Pipeworks

open Program (Path path_done_iff)

/-! ## From a delivery to a row -/

namespace Coordinator

open Program (path_call_bind_iff)

variable {setup : Setup} {provider : Provider} {push : Push} {p q : Pipeline}
  {es : List (Program.Event Call Answer)}

theorem dispatch_created {info : Storage.CreationInfo}
    (h : Path (dispatch setup provider info p) es (.ok (.created q))) : q = p := by
  obtain ⟨sent, rest, rfl, hsent⟩ := path_call_bind_iff.1 h
  cases sent with
  | error f =>
    obtain ⟨deleted, rest, rfl, hdeleted⟩ := path_call_bind_iff.1 hsent
    obtain ⟨-, hq⟩ := path_done_iff.1 hdeleted
    cases hq
  | ok =>
    obtain ⟨posted, rest, rfl, hposted⟩ := path_call_bind_iff.1 hsent
    obtain ⟨-, hq⟩ := path_done_iff.1 hposted
    cases hq
    rfl

/-- A pipeline that is made of a push is what the storage answered when it was given the address and the commit. -/
theorem build_created (h : Path (build setup provider push) es (.ok (.created p))) :
    ∃ new : Storage.NewPipeline, new.commit = push.commit ∧ new.cloneUrl = push.cloneUrl ∧
      ⟨.storage (.create new), .ok p⟩ ∈ es := by
  obtain ⟨found, rest, rfl, hfound⟩ := path_call_bind_iff.1 h
  match found with
  | .error f =>
    obtain ⟨-, hp⟩ := path_done_iff.1 hfound
    cases hp
  | .ok none =>
    obtain ⟨-, hp⟩ := path_done_iff.1 hfound
    cases hp
  | .ok (some info) =>
    dsimp only at hfound
    split at hfound
    · obtain ⟨-, hp⟩ := path_done_iff.1 hfound
      cases hp
    · obtain ⟨created, rest, rfl, hcreated⟩ := path_call_bind_iff.1 hfound
      cases created with
      | error f =>
        obtain ⟨-, hp⟩ := path_done_iff.1 hcreated
        cases hp
      | ok row =>
        cases dispatch_created hcreated
        exact ⟨_, rfl, rfl, List.mem_cons_of_mem _ List.mem_cons_self⟩

theorem accept_created {name : String} {headers : Http.Headers} {body : Bytes}
    (h : Path (accept setup name headers body) es (.ok (.created p))) :
    ∃ provider push, Provider.ofName? setup.providers name = some provider ∧
      provider.event headers body = .ok (.push push) ∧
      ∃ new : Storage.NewPipeline, new.commit = push.commit ∧ new.cloneUrl = push.cloneUrl ∧
        ⟨.storage (.create new), .ok p⟩ ∈ es := by
  unfold accept at h
  split at h
  case h_1 =>
    obtain ⟨-, hp⟩ := path_done_iff.1 h
    cases hp
  case h_2 provider hprovider =>
    split at h
    case isFalse =>
      obtain ⟨-, hp⟩ := path_done_iff.1 h
      cases hp
    case isTrue =>
      split at h
      case h_5 push hpush => exact ⟨provider, push, hprovider, hpush, build_created h⟩
      all_goals
        obtain ⟨-, hp⟩ := path_done_iff.1 h
        cases hp

/-- A storage in memory keeps the address and the commit as they are. -/
theorem created_kept {outside : Outside} {m : Memory} {new : Storage.NewPipeline}
    (h : (Memory.handle outside (.storage (.create new)) m).1 = .ok p) :
    p.commit = new.commit ∧ p.cloneUrl = new.cloneUrl := by
  cases hup : m.storage.failing with
  | true =>
    rw [Memory.handle_down hup] at h
    cases h
  | false =>
    rw [Memory.handle_up hup] at h
    dsimp only [MemoryStorage.perform] at h
    split at h
    case h_2 => cases h
    case h_1 row s hinsert =>
      cases h
      obtain ⟨-, rfl, -⟩ := MemoryStorage.insert_eq hinsert
      exact ⟨rfl, rfl⟩

theorem pipeline_of_push {name : String} {headers : Http.Headers} {body : Bytes} {outside : Outside} {m m' : Memory}
    (h : (accept setup name headers body).run (Memory.handle outside) m = (.ok (.created p), m')) :
    ∃ provider push, Provider.ofName? setup.providers name = some provider ∧
      provider.event headers body = .ok (.push push) ∧ p.commit = push.commit ∧ p.cloneUrl = push.cloneUrl := by
  have hpath := Program.path_trace (Memory.handle outside) (accept setup name headers body) m
  rw [h] at hpath
  obtain ⟨provider, push, hprovider, hevent, new, hcommit, hcloneUrl, hmem⟩ := accept_created hpath
  obtain ⟨s, hanswer⟩ := Program.answer_of_mem_trace hmem
  obtain ⟨hkeptCommit, hkeptUrl⟩ := created_kept hanswer.symm
  exact ⟨provider, push, hprovider, hevent, hkeptCommit.trans hcommit, hkeptUrl.trans hcloneUrl⟩

/-- The last message in the queue carries the work for a new pipeline. -/
theorem work_of_push {name : String} {headers : Http.Headers} {body : Bytes} {outside : Outside} {m m' : Memory}
    (hwf : m.WF) (h : (accept setup name headers body).run (Memory.handle outside) m = (.ok (.created p), m')) :
    ∃ message owner, m'.queue.ready.getLast? = some message ∧
      Work.ofPayload message.payload = .ok ⟨p, MemoryStorage.ownerToken owner⟩ := by
  obtain ⟨answer, m₁, shown, hcarried, houtcome⟩ := accept_cases hwf setup outside name headers body
  obtain ⟨rfl, rfl⟩ := Prod.mk.inj (h.symm.trans hcarried.run)
  cases houtcome with
  | nothing _ hnot => exact absurd rfl (hnot p)
  | @built _ _ r _ _ _ _ hbuilt =>
    obtain ⟨payload, hread, hqueue⟩ := hbuilt.queue
    refine ⟨⟨m.queue.lastId + 1, payload, 0⟩, r.owner, ?_, hread⟩
    rw [hqueue]
    exact List.getLast?_concat

end Coordinator

/-! ## From work to a fetch -/

namespace Runner

variable {es : Journal} {work : Work} {unique : String}

def Action.isFetch : Action → Bool
  | .fetch _ _ _ _ => true
  | _ => false

/-- The fetches that were asked for, in order. -/
def Journal.fetched (es : Journal) : List Action := es.filterMap fun e => e.call.action?.filter Action.isFetch

theorem Journal.fetched_append (es fs : Journal) :
    Journal.fetched (es ++ fs) = Journal.fetched es ++ Journal.fetched fs :=
  List.filterMap_append

theorem commands_fetched {id : Int64} {container : String} {n : Nat} {cmds : List String}
    {r : Option (Except RunFault Unit)} (h : Commands id container n cmds es r) : Journal.fetched es = [] := by
  induction h with
  | succeeded result reported hn hz hc ih => exact ih
  | _ => rfl

theorem provided_fetched {spec : ContainerSpec} {r : Option (Except RunFault String)} (h : Provided spec es r) :
    Journal.fetched es = [] := by
  cases h <;> rfl

/-- A section fetches nothing but its work, and that once at most. -/
theorem sectioned_fetched {directory : String} {now : Time.Instant} {r : Option (Except RunFault Unit)}
    (h : Sectioned work directory unique now es r) : Journal.fetched es <+: [fetching work directory] := by
  have hfirst : ∀ (answer : Option (Except String DefinitionFile)) {fs : Journal}, Journal.fetched fs = [] →
      Journal.fetched (⟨.limited (fetching work directory), answer⟩ :: fs) <+: [fetching work directory] := by
    intro answer fs hfs
    show fetching work directory :: Journal.fetched fs <+: _
    simp only [hfs, List.prefix_refl]
  cases h with
  | expired hx => exact List.nil_prefix
  | fetchCutOff hx => exact List.prefix_refl _
  | fetchFailed message hx => exact List.prefix_refl _
  | undefined hx hf => exact List.prefix_refl _
  | unprovided hx hd hp => exact hfirst _ (provided_fetched hp)
  | provisionFailed hx hd hp => exact hfirst _ (provided_fetched hp)
  | ran hx hd hp hc =>
    refine hfirst _ ?_
    rw [Journal.fetched_append, provided_fetched hp, commands_fetched hc]
    rfl

theorem fetched_around {front back : Journal} (hf : Journal.fetched front = []) (hb : Journal.fetched back = []) :
    Journal.fetched (front ++ (es ++ back)) = Journal.fetched es := by
  rw [Journal.fetched_append, Journal.fetched_append, hf, hb, List.nil_append, List.append_nil]

/-- Whatever an execution meets, it fetches nothing but its work, and that once at most. -/
theorem execute_fetched {limit : Time.Span} {summary : RunSummary} (h : Path (execute limit work unique) es summary) :
    ∃ directory, Journal.fetched es <+: [fetching work directory] := by
  obtain ⟨startedAt, finishedAt, started, finished, uploaded, hcheckout⟩ := executed_of_path h
  rw [fetched_around rfl rfl]
  cases hcheckout with
  | noCheckout => exact ⟨"", List.nil_prefix⟩
  | noContainer directory now closed hs =>
    rw [fetched_around rfl rfl]
    exact ⟨directory, sectioned_fetched (sectioned_of_path hs)⟩
  | tornDown directory now stopped removed closed hs =>
    rw [fetched_around rfl rfl]
    exact ⟨directory, sectioned_fetched (sectioned_of_path hs)⟩

end Runner

/-! ## From a push to git -/

namespace Pushed

open Coordinator (Memory Setup Outside Happening accept)
open Tool.Git (Command commands OnlyOperands optionsSeen isOption)

/-- How git is started for a push: with a command, its options, and what it is given of the push. The address is read
as an operand, and a commit that begins with a dash is not. So the options that git sees are those of the command,
and the commit if it is one. -/
structure Started (push : Push) (directory : String) (arguments : List String) (c : Command) : Prop where
  known : ∃ url, Url.ofText push.cloneUrl = .ok url ∧ c ∈ commands url push.commit
  arguments : arguments = ["-C", directory, c.name] ++ (c.options ++ c.operands)
  operands : OnlyOperands c.options c.operands ↔ ∀ commit ∈ c.commit?, Text.startsWith "-" commit = false
  options : optionsSeen (c.options ++ c.operands) =
    c.options.filter isOption ++ c.commit?.toList.filter fun a => isOption a && a != "--"

theorem started_of_fetch {push : Push} {token : Token} {directory : String}
    {es : List (Program.Event Tool.Invocation Tool.Answer)} {result : Except Tool.Git.Fault Unit}
    (h : Path (Tool.Git.fetch push.cloneUrl push.commit token directory) es result) :
    ∀ e ∈ es, ∃ c, Started push directory e.call.arguments c := by
  intro e he
  obtain ⟨url, hurl, c, hc, hcall⟩ := Tool.Git.call_of_fetch h he
  refine ⟨c, ⟨url, hurl, hc⟩, ?_, Tool.Git.onlyOperands_iff hurl hc, Tool.Git.optionsSeen_command hurl hc⟩
  rw [hcall, ← List.append_assoc]
  rfl

/-- Where the commit does not begin with a dash, git sees no options but those of the command. -/
theorem Started.fixed {push : Push} {directory : String} {arguments : List String} {c : Command}
    (h : Started push directory arguments c) (hcommit : Text.startsWith "-" push.commit = false) :
    OnlyOperands c.options c.operands ∧ optionsSeen (c.options ++ c.operands) = c.options.filter isOption := by
  obtain ⟨url, -, hc⟩ := h.known
  have hno : isOption push.commit = false := by rw [isOption, hcommit, Bool.false_and]
  rw [h.operands, h.options]
  obtain hnone | hsome := Tool.Git.commit?_of_mem hc
  · rw [hnone]
    refine ⟨?_, List.append_nil _⟩
    rintro _ ⟨⟩
  · rw [hsome]
    refine ⟨fun commit hmem => Option.some.inj hmem ▸ hcommit, ?_⟩
    rw [Option.toList_some, List.filter_singleton, hno]
    exact List.append_nil _

/-- A delivery that is answered with a new pipeline is a push, and the last message in the queue is the work for it.
Whoever executes that, whatever the execution and git meet: what is fetched is the address and the commit of the push,
and it is known what git makes of each of them. -/
theorem operands_of_push (setup : Setup) (outside : Outside) (happened : List Happening) (name : String)
    (headers : Http.Headers) (body : Bytes) (p : Pipeline) (m : Memory)
    (haccepted : (accept setup name headers body).run (Memory.handle outside) (Memory.of happened) =
      (.ok (.created p), m)) :
    ∃ provider push message work, Provider.ofName? setup.providers name = some provider ∧
      provider.event headers body = .ok (.push push) ∧ p.commit = push.commit ∧ p.cloneUrl = push.cloneUrl ∧
      m.queue.ready.getLast? = some message ∧ Work.ofPayload message.payload = .ok work ∧ work.pipeline = p ∧
      ∀ limit unique es summary, Path (Runner.execute limit work unique) es summary →
        ∀ a ∈ Runner.Journal.fetched es, ∃ directory, a = .fetch push.cloneUrl push.commit work.token directory ∧
          ∀ gs result, Path (Tool.Git.fetch push.cloneUrl push.commit work.token directory) gs result →
            ∀ g ∈ gs, ∃ c, Started push directory g.call.arguments c := by
  obtain ⟨provider, push, hprovider, hevent, hcommit, hcloneUrl⟩ := Coordinator.pipeline_of_push haccepted
  obtain ⟨message, owner, hmessage, hread⟩ := Coordinator.work_of_push (Memory.WF.of happened) haccepted
  refine ⟨provider, push, message, _, hprovider, hevent, hcommit, hcloneUrl, hmessage, hread, rfl, ?_⟩
  intro limit unique es summary hpath a ha
  obtain ⟨directory, hfetched⟩ := Runner.execute_fetched hpath
  have hfetch := List.mem_singleton.1 (hfetched.subset ha)
  refine ⟨directory, ?_, fun gs result hgit => started_of_fetch hgit⟩
  rw [hfetch, Runner.fetching, hcommit, hcloneUrl]

/-! ### A push of a commit, and one of an option -/

namespace Sample

open Coordinator.Sample (silence)

def setup : Setup := ⟨{}, Provider.Hosts.providers⟩

def headers : Http.Headers :=
  [(Text.bytes "x-gitlab-event", Text.bytes "Push Hook"), (Text.bytes "x-gitlab-token", [])]

def body : Bytes := Text.bytes "\x7b\"ref\": \"refs/heads/main\", \"checkout_sha\": \"--upload-pack=touch /tmp/x\",
  \"project\": \x7b\"id\": 7, \"git_http_url\": \"https://git.example.com/acme/widget.git\"\x7d\x7d"

def registered : List Happening := [.registered "gitlab" 7 "acme" "widget" false]

def answered : Except Coordinator.HookFault Coordinator.HookOutcome × Memory :=
  (accept setup "gitlab" headers body).run (Memory.handle silence) (Memory.of registered)

def pipeline : Pipeline :=
  ⟨1, .pending, "--upload-pack=touch /tmp/x", "https://git.example.com/acme/widget.git",
    "http://localhost:8080/pipelines/1", none, none, 1⟩

theorem made_answered : EndToEnd.Sample.made answered.1 = some pipeline := by decide +kernel

theorem answered_created : answered = (.ok (.created pipeline), answered.2) := EndToEnd.Sample.eq_of_made made_answered

def work (owner : String) : Work := ⟨pipeline, MemoryStorage.ownerToken owner⟩

/-- The calls of an execution in which the limit strikes during the fetch. -/
def journal (owner : String) : Runner.Journal :=
  Runner.opening 1 Coordinator.Sample.time (.ok ()) ++
    (Runner.entering ⟨60000000000⟩ 1 "/w" Coordinator.Sample.time ++
      ([⟨.limited (Runner.fetching (work owner) "/w"), none⟩] ++ [⟨.plain (.closeCheckout "/w"), .ok ()⟩]) ++
    Runner.closing 1 [] (.ok ()) Coordinator.Sample.time (Runner.RunSummary.ofResult (.error (.timeout ⟨60000000000⟩)))
      (.ok ()))

theorem journal_path (owner : String) : Path (Runner.execute ⟨60000000000⟩ (work owner) "a1") (journal owner)
    (Runner.RunSummary.ofResult (.error (.timeout ⟨60000000000⟩))) := by
  have hsection : Path (Runner.withinLimit {} (Runner.runSection (work owner) "/w" "a1" Coordinator.Sample.time))
      [⟨.limited (Runner.fetching (work owner) "/w"), none⟩] (none, {}) := by
    unfold Runner.runSection
    rw [if_neg (by simp [work, Token.isExpiredAt, MemoryStorage.ownerToken])]
    exact Runner.path_within_ask.2 (.inl ⟨rfl, rfl, rfl⟩)
  exact Runner.path_of_executed (.mk _ _ _ _ _ (.noContainer "/w" _ _ hsection rfl))

/-- git succeeds whatever it is asked for. -/
def obliging : Program.Handler Tool.Invocation Tool.Answer Unit := fun _ _ => (.ok ⟨some 0, [], []⟩, ())

def fetched (owner : String) : Program Tool.Invocation Tool.Answer (Except Tool.Git.Fault Unit) :=
  Tool.Git.fetch pipeline.cloneUrl pipeline.commit (work owner).token "/w"

def address : Url :=
  ⟨"https", some ⟨"", "", .name "git.example.com", none⟩, .segments ["acme", "widget.git"], none, none⟩

theorem address_read : Url.ofText pipeline.cloneUrl = .ok address := by decide +kernel

theorem address_text : address.text = "https://git.example.com/acme/widget.git" := by decide +kernel

theorem fetched_arguments (owner : String) : ((fetched owner).trace obliging ()).map (fun g => g.call.arguments) =
    [["-C", "/w", "init", "--quiet"],
      ["-C", "/w", "fetch", "--quiet", "--depth", "1", "--no-tags", "https://git.example.com/acme/widget.git",
        "--upload-pack=touch /tmp/x"],
      ["-C", "/w", "checkout", "--quiet", "--detach", "--upload-pack=touch /tmp/x"]] := by
  rw [← address_text, fetched, Tool.Git.fetch, address_read]
  rfl

end Sample

/-- The commit of a push that is one is read as an operand. -/
theorem operands_of_push_plain :
    EndToEnd.Sample.answered = (.ok (.created EndToEnd.Sample.pipeline), EndToEnd.Sample.answered.2) ∧
    ∃ message work, EndToEnd.Sample.answered.2.queue.ready.getLast? = some message ∧
      Work.ofPayload message.payload = .ok work ∧ work.pipeline = EndToEnd.Sample.pipeline ∧
      ∀ limit unique es summary, Path (Runner.execute limit work unique) es summary →
        ∀ a ∈ Runner.Journal.fetched es, ∃ directory,
          a = .fetch "https://git.example.com/acme/widget.git" "c0ffee" work.token directory ∧
          ∀ gs result, Path (Tool.Git.fetch "https://git.example.com/acme/widget.git" "c0ffee" work.token directory)
            gs result → ∀ g ∈ gs, ∃ c : Command,
              g.call.arguments = ["-C", directory, c.name] ++ (c.options ++ c.operands) ∧
              OnlyOperands c.options c.operands ∧
              optionsSeen (c.options ++ c.operands) = c.options.filter isOption := by
  refine ⟨EndToEnd.Sample.answered_created, ?_⟩
  obtain ⟨-, push, message, work, -, -, hcommit, hcloneUrl, hmessage, hwork, hpipeline, hfetches⟩ :=
    operands_of_push _ _ _ _ _ _ _ _ EndToEnd.Sample.answered_created
  refine ⟨message, work, hmessage, hwork, hpipeline, fun limit unique es summary hpath a ha => ?_⟩
  obtain ⟨directory, ha, hgit⟩ := hfetches limit unique es summary hpath a ha
  rw [← hcommit, ← hcloneUrl] at ha hgit
  refine ⟨directory, ha, fun gs result hgs g hg => ?_⟩
  obtain ⟨c, hstarted⟩ := hgit gs result hgs g hg
  exact ⟨c, hstarted.arguments, hstarted.fixed (hcommit ▸ by decide)⟩

/-- A push whose commit says how to call the other side is taken in, and git is told so in the end. -/
theorem commit_taken_for_option :
    Provider.gitlab.verify Sample.headers Sample.body Sample.setup.settings.webhookSecret = true ∧
    Sample.answered = (.ok (.created Sample.pipeline), Sample.answered.2) ∧
    ∃ message work es summary gs result g, Sample.answered.2.queue.ready.getLast? = some message ∧
      Work.ofPayload message.payload = .ok work ∧
      Path (Runner.execute ⟨60000000000⟩ work "a1") es summary ∧
      .fetch Sample.pipeline.cloneUrl Sample.pipeline.commit work.token "/w" ∈ Runner.Journal.fetched es ∧
      Path (Tool.Git.fetch Sample.pipeline.cloneUrl Sample.pipeline.commit work.token "/w") gs result ∧ g ∈ gs ∧
      let options := ["--quiet", "--depth", "1", "--no-tags"]
      let operands := ["https://git.example.com/acme/widget.git", "--upload-pack=touch /tmp/x"]
      g.call.arguments = ["-C", "/w", "fetch"] ++ (options ++ operands) ∧ ¬ OnlyOperands options operands ∧
      optionsSeen (options ++ operands) = ["--quiet", "--depth", "--no-tags", "--upload-pack=touch /tmp/x"] := by
  obtain ⟨message, owner, hmessage, hwork⟩ :=
    Coordinator.work_of_push (Memory.WF.of Sample.registered) Sample.answered_created
  have hmem : ["-C", "/w", "fetch", "--quiet", "--depth", "1", "--no-tags",
      "https://git.example.com/acme/widget.git", "--upload-pack=touch /tmp/x"] ∈
        ((Sample.fetched owner).trace Sample.obliging ()).map fun g => g.call.arguments := by
    rw [Sample.fetched_arguments]
    exact List.mem_cons_of_mem _ List.mem_cons_self
  obtain ⟨g, hg, harguments⟩ := List.mem_map.1 hmem
  refine ⟨by decide +kernel, Sample.answered_created, message, Sample.work owner, Sample.journal owner, _, _, _, g,
    hmessage, hwork, Sample.journal_path owner, List.mem_singleton_self _,
    Program.path_trace Sample.obliging _ (), hg, harguments, ?_, by decide⟩
  rintro ⟨-, hdash | hdouble, -⟩
  · exact absurd hdash (by decide)
  · exact absurd hdouble (by decide)

end Pushed

end Pipeworks
