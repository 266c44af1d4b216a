/-
Work that is written into a message is read out of it again (`ofPayload_payload`), part by part: the members
of a pipeline, those of a token, of which some may be left out, and the two together.
-/
import Pipeworks.Proofs.Json.Record
import Pipeworks.Queue.Delivery

namespace Pipeworks

open Json

theorem Status.read_toJson (origin : Origin) (s : Status) : Status.read origin s.toJson.node = .ok s := by
  cases origin <;> cases s <;> rfl

theorem nullable_string (s : String) : nullable string (Value.string s).node = .ok (some s) := rfl

theorem nullable_instant (t : Time.Instant) : nullable instant t.toJson.node = .ok (some t) :=
  nullable_node instant_node (fun _ => by simp [Value.node]) (some t)

theorem nullable_optional_instant (o : Option Time.Instant) :
    nullable instant (Value.optional Time.Instant.toJson o).node = .ok o :=
  nullable_node instant_node (fun _ => by simp [Value.node]) o

/-! ## Pipelines -/

theorem Pipeline.memberNames (p : Pipeline) : (p.members.map Prod.fst).Nodup := by
  show ["id", "status", "commit", "clone_url", "url", "started_at", "finished_at", "repo_id"].Nodup
  decide

theorem Pipeline.fields_take (origin : Origin) (p : Pipeline) :
    ∀ m ∈ p.members, Takes (Pipeline.fields origin) m := by
  simp only [Pipeline.members, List.forall_mem_cons]
  exact ⟨takes_of rfl rfl (int64_node p.id), takes_of rfl rfl (p.status.read_toJson origin),
    takes_of rfl rfl (string_node p.commit), takes_of rfl rfl (string_node p.cloneUrl),
    takes_of rfl rfl (string_node p.url), takes_of rfl rfl (nullable_optional_instant p.startedAt),
    takes_of rfl rfl (nullable_optional_instant p.finishedAt), takes_of rfl rfl (int64_node p.repoId),
    List.forall_mem_nil _⟩

theorem Pipeline.ofFound_members (origin : Origin) (p : Pipeline) :
    Pipeline.ofFound origin (writtenFields p.members) = .ok p := by
  have hnames := p.memberNames
  unfold Pipeline.ofFound
  rw [required_written hnames (v := jsonInt64 p.id) (by simp [Pipeline.members]) (int64_node p.id),
    required_written hnames (v := p.status.toJson) (by simp [Pipeline.members]) (p.status.read_toJson origin),
    required_written hnames (v := .string p.commit) (by simp [Pipeline.members]) (string_node p.commit),
    required_written hnames (v := .string p.cloneUrl) (by simp [Pipeline.members]) (string_node p.cloneUrl),
    required_written hnames (v := .string p.url) (by simp [Pipeline.members]) (string_node p.url),
    optional_written hnames (by simp [Pipeline.members]) (nullable_optional_instant p.startedAt),
    optional_written hnames (by simp [Pipeline.members]) (nullable_optional_instant p.finishedAt),
    required_written hnames (v := jsonInt64 p.repoId) (by simp [Pipeline.members]) (int64_node p.repoId)]
  rfl

theorem Pipeline.read_toJson (p : Pipeline) : Pipeline.read p.toJson.node = .ok p :=
  record_object p.memberNames (p.fields_take .text) (p.ofFound_members .text)

/-! ## Work -/

/-- The members of a token; an absent refresh token and an absent expiry are left out. -/
def Token.members (t : Token) : List (String × Value) :=
  [("access_token", .string t.accessToken)] ++
  Value.memberIf "refresh_token" .string t.refreshToken ++
  [("token_type", .string t.tokenType)] ++
  Value.memberIf "expiry" Time.Instant.toJson t.expiry

theorem Token.memberNames (t : Token) : (t.members.map Prod.fst).Nodup := by
  obtain ⟨access, refresh, type, expiry⟩ := t
  cases refresh <;> cases expiry <;> simp [Token.members, Value.memberIf]

theorem Token.fields_take (t : Token) : ∀ m ∈ t.members, Takes Token.fields m := by
  have haccess : Takes Token.fields ("access_token", .string t.accessToken) :=
    takes_of rfl rfl (string_node _)
  have hrefresh : ∀ s, Takes Token.fields ("refresh_token", .string s) := fun s =>
    takes_of rfl rfl (nullable_string s)
  have htype : Takes Token.fields ("token_type", .string t.tokenType) := takes_of rfl rfl (string_node _)
  have hexpiry : ∀ time : Time.Instant, Takes Token.fields ("expiry", time.toJson) := fun time =>
    takes_of rfl rfl (nullable_instant time)
  obtain ⟨access, refresh, type, expiry⟩ := t
  cases refresh <;> cases expiry <;> simp_all [Token.members, Value.memberIf]

theorem Token.ofFound_members (t : Token) : Token.ofFound (writtenFields t.members) = .ok t := by
  have hnames := t.memberNames
  have hrefresh : optional (writtenFields t.members) "refresh_token" string = .ok t.refreshToken := by
    obtain ⟨access, _ | refresh, type, expiry⟩ := t
    · exact optional_leftOut (by cases expiry <;> simp [Token.members, Value.memberIf])
    · exact optional_written hnames (by simp [Token.members, Value.memberIf]) (nullable_string refresh)
  have hexpiry : optional (writtenFields t.members) "expiry" instant = .ok t.expiry := by
    obtain ⟨access, refresh, type, _ | expiry⟩ := t
    · exact optional_leftOut (by cases refresh <;> simp [Token.members, Value.memberIf])
    · exact optional_written hnames (by simp [Token.members, Value.memberIf]) (nullable_instant expiry)
  unfold Token.ofFound
  rw [required_written hnames (v := .string t.accessToken) (by simp [Token.members]) (string_node _), hrefresh,
    orElse_written hnames (v := .string t.tokenType) (by simp [Token.members]) (string_node _), hexpiry]
  rfl

theorem Token.read_toJson (t : Token) : Token.read t.toJson.node = .ok t :=
  record_object t.memberNames t.fields_take t.ofFound_members

theorem Work.read_toJson (w : Work) : Work.read w.toJson.node = .ok w := by
  have hnames : ([("pipeline", w.pipeline.toJson), ("token", w.token.toJson)].map Prod.fst).Nodup := by
    show ["pipeline", "token"].Nodup
    decide
  have htakes : ∀ m ∈ [("pipeline", w.pipeline.toJson), ("token", w.token.toJson)], Takes Work.fields m := by
    simp only [List.forall_mem_cons]
    exact ⟨takes_of rfl rfl w.pipeline.read_toJson, takes_of rfl rfl w.token.read_toJson, List.forall_mem_nil _⟩
  refine record_object hnames htakes ?_
  unfold Work.ofFound
  rw [required_written hnames (v := w.pipeline.toJson) (by simp) w.pipeline.read_toJson,
    required_written hnames (v := w.token.toJson) (by simp) w.token.read_toJson]
  rfl

/-- The payload of a message stands for the work that was sent. -/
theorem Work.ofPayload_payload (w : Work) : Work.ofPayload w.payload = .ok w := by
  unfold Work.ofPayload Work.payload
  rw [ofText_text]
  unfold Document.read
  simp only [w.read_toJson, if_true]
  rfl

end Pipeworks
