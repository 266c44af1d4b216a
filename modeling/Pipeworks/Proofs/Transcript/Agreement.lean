/-
The store in a directory and the one in memory agree: asked the same, they give the same replies, and these hang on
the uploads that succeeded before (`stores_agree`). Each store is followed by itself: what it holds is what the
requests of the past have left. In the directory transcripts are told apart by the names of their files, and no two
files have one name.
-/
import Pipeworks.Proofs.Transcript.Directory
import Pipeworks.Transcript.Memory

namespace Pipeworks.Transcript

/-! ## What is asked and what is replied -/

/-- A store is asked to keep a transcript, whose size is announced, or to give one back. -/
inductive Request where
  | upload (id : Int64) (content : Bytes) (size : UInt64)
  | download (id : Int64)

/-- A size that has a successor is announced, and the content is one that memory may hold. -/
def Request.Fits : Request → Prop
  | .upload _ content size => size.toNat + 1 < Nat.pow 2 64 ∧ content.length < Nat.pow 2 64
  | .download _ => True

inductive Reply where
  | stored
  | content (b : Bytes)
  deriving DecidableEq

inductive FaultKind where
  | notStored
  | sizeMismatch
  | io
  deriving DecidableEq

/-- The kind of a fault, without the sizes: of a transcript that is too long a directory reads one byte more than
announced, and memory all of it. -/
def Fault.kind : Fault → FaultKind
  | .notStored _ => .notStored
  | .sizeMismatch _ _ => .sizeMismatch
  | .io => .io

/-- Reads what was opened. -/
def Entry.read : Entry → Except Fault Bytes
  | .file content => .ok content
  | .directory => .error .io

def DirectoryStore.answer (s : DirectoryStore) : Request → Except Fault Reply × DirectoryStore
  | .upload id content size =>
    let (result, s) := s.upload id content size
    (result.map fun _ => .stored, s)
  | .download id => (((s.download id).bind Entry.read).map .content, s)

def MemoryStore.answer (s : MemoryStore) : Request → Except Fault Reply × MemoryStore
  | .upload id content size =>
    match s.upload id content size with
    | .ok s => (.ok .stored, s)
    | .error f => (.error f, s)
  | .download id => ((s.download id).map .content, s)

/-- The replies to requests made one after the other, and the store they leave. -/
def replies {σ : Type} (answer : σ → Request → Except Fault Reply × σ) (s : σ) :
    List Request → List (Except FaultKind Reply) × σ
  | [] => ([], s)
  | request :: rest =>
    let (reply, s) := answer s request
    let (later, s) := replies answer s rest
    (reply.mapError Fault.kind :: later, s)

/-- The transcript a request stores for a pipeline: that of the right id whose size is the announced one. -/
def Request.stores? (id : Int64) : Request → Option Bytes
  | .upload owner content size => if owner = id ∧ content.length = size.toNat then some content else none
  | .download _ => none

/-- The latest transcript that was stored for a pipeline. -/
def latest? (id : Int64) (past : List Request) : Option Bytes := (past.filterMap (Request.stores? id)).getLast?

/-- The reply to a request that follows others. -/
def Request.reply (past : List Request) : Request → Except FaultKind Reply
  | .upload _ content size => if content.length = size.toNat then .ok .stored else .error .sizeMismatch
  | .download id =>
    match latest? id past with
    | some content => .ok (.content content)
    | none => .error .notStored

/-- The replies to requests that follow others. -/
def repliesAfter (past : List Request) : List Request → List (Except FaultKind Reply)
  | [] => []
  | request :: rest => request.reply past :: repliesAfter (past ++ [request]) rest

theorem latest?_concat {id : Int64} {past : List Request} {request : Request} :
    latest? id (past ++ [request]) = (request.stores? id).or (latest? id past) := by
  cases hstores : request.stores? id with
  | none => simp [latest?, hstores]
  | some content => simp [latest?, hstores]

/-- A store whose every reply is the one to be expected, as long as it holds what the requests of the past left. -/
theorem replies_of_holds {σ : Type} {answer : σ → Request → Except Fault Reply × σ}
    {Holds : List Request → σ → Prop}
    (step : ∀ past s request, request.Fits → Holds past s →
      (answer s request).1.mapError Fault.kind = request.reply past ∧
        Holds (past ++ [request]) (answer s request).2)
    {past : List Request} {s : σ} (h : Holds past s) (requests : List Request)
    (hfits : ∀ request ∈ requests, request.Fits) :
    (replies answer s requests).1 = repliesAfter past requests ∧
      Holds (past ++ requests) (replies answer s requests).2 := by
  induction requests generalizing past s with
  | nil =>
    rw [List.append_nil]
    exact ⟨rfl, h⟩
  | cons request rest ih =>
    obtain ⟨hfirst, hrest⟩ := List.forall_mem_cons.1 hfits
    obtain ⟨hreply, hnext⟩ := step past s request hfirst h
    obtain ⟨hlater, hend⟩ := ih hnext hrest
    constructor
    · simp only [replies, repliesAfter, hreply, hlater]
    · rw [List.append_cons]
      exact hend

/-! ## Names -/

theorem toDigits_inj {m n : Nat} (h : Nat.toDigits 10 m = Nat.toDigits 10 n) : m = n :=
  calc m = Nat.ofDigitChars 10 (Nat.toDigits 10 m) 0 := Nat.ofDigitChars_ten_toDigits.symm
    _ = Nat.ofDigitChars 10 (Nat.toDigits 10 n) 0 := by rw [h]
    _ = n := Nat.ofDigitChars_ten_toDigits

/-- A number starts with a digit. -/
theorem toDigits_head (n : Nat) : ∃ c cs, Nat.toDigits 10 n = c :: cs ∧ c ≠ '-' ∧ c ≠ '.' := by
  obtain ⟨c, cs, hcs⟩ := List.exists_cons_of_ne_nil (Nat.toDigits_ne_nil (n := n) (b := 10))
  have hmem : c ∈ Nat.toDigits 10 n := by simp [hcs]
  have hdigit : c.isDigit := Nat.isDigit_of_mem_toDigits (by decide) (by decide) hmem
  refine ⟨c, cs, hcs, ?_, ?_⟩
  · rintro rfl
    exact absurd hdigit (by decide)
  · rintro rfl
    exact absurd hdigit (by decide)

theorem toList_int (n : Int) : (toString n).toList =
    if n < 0 then '-' :: Nat.toDigits 10 n.natAbs else Nat.toDigits 10 n.natAbs := by
  cases n with
  | ofNat m => simp [toString, Int.repr, Nat.repr]
  | negSucc m =>
    have hneg : Int.negSucc m < 0 := Int.negSucc_lt_zero m
    simp [toString, Int.repr, Nat.repr, hneg]

theorem toString_int_inj {m n : Int} (h : (toString m).toList = (toString n).toList) : m = n := by
  obtain ⟨c, cs, hm, hcm, -⟩ := toDigits_head m.natAbs
  obtain ⟨d, ds, hn, hdn, -⟩ := toDigits_head n.natAbs
  rw [toList_int, toList_int] at h
  by_cases hm0 : m < 0
  · by_cases hn0 : n < 0
    · rw [if_pos hm0, if_pos hn0] at h
      have habs := toDigits_inj (List.cons.inj h).2
      omega
    · rw [if_pos hm0, if_neg hn0, hn] at h
      exact absurd (List.cons.inj h).1.symm hdn
  · by_cases hn0 : n < 0
    · rw [if_neg hm0, if_pos hn0, hm] at h
      exact absurd (List.cons.inj h).1 hcm
    · rw [if_neg hm0, if_neg hn0] at h
      have habs := toDigits_inj h
      omega

/-- The name of a transcript is the name of no other file. -/
theorem text_log_inj {id : Int64} {name : FileName} (h : name.text = (FileName.log id).text) : name = .log id := by
  have hlist := congrArg String.toList h
  cases name with
  | log other =>
    simp only [FileName.text, String.toList_append, List.append_cancel_right_eq] at hlist
    rw [Int64.toInt_inj.1 (toString_int_inj hlist)]
  | unfinished other number =>
    -- an unfinished file starts with a point, and no number does
    obtain ⟨c, cs, hcs, -, hpoint⟩ := toDigits_head id.toInt.natAbs
    simp only [FileName.text, String.toList_append, toList_int id.toInt] at hlist
    split at hlist
    · cases hlist
    · rw [hcs] at hlist
      exact absurd (List.cons.inj hlist).1.symm hpoint

/-! ## What the stores hold -/

section
variable {α β : Type} [DecidableEq α]

/-- What is stored in the place of something else is found there, and the rest where it was. -/
theorem lookup_replace {key other : α} {value : β} {entries : List (α × β)} :
    ((key, value) :: entries.filter fun (k, _) => k != key).lookup other =
      if other = key then some value else entries.lookup other := by
  by_cases hother : other = key
  · subst hother
    simp
  · rw [if_neg hother, List.lookup_cons, beq_eq_false_iff_ne.2 hother]
    induction entries with
    | nil => rfl
    | cons e rest ih =>
      by_cases he : e.1 = key
      · have hkey : (other == e.1) = false := beq_eq_false_iff_ne.2 fun h => hother (h.trans he)
        rw [List.filter_cons_of_neg (by simp [he]), List.lookup_cons, hkey]
        exact ih
      · rw [List.filter_cons_of_pos (by simp [he]), List.lookup_cons, List.lookup_cons]
        cases other == e.1
        · exact ih
        · rfl

/-- What is found under a key is found under a name that is the name of that key only. -/
theorem lookup_named {γ : Type} [BEq γ] [LawfulBEq γ] {f : α → γ} {key : α} {entries : List (α × β)}
    (h : ∀ k, f k = f key → k = key) :
    (entries.map fun (k, value) => (f k, value)).lookup (f key) = entries.lookup key := by
  induction entries with
  | nil => rfl
  | cons e rest ih =>
    have hkey : (f key == f e.1) = (key == e.1) := by
      by_cases he : key = e.1
      · simp [he]
      · rw [beq_eq_false_iff_ne.2 he, beq_eq_false_iff_ne.2 fun hname => he (h e.1 hname.symm).symm]
    rw [List.map_cons, List.lookup_cons, List.lookup_cons, hkey, ih]

end

/-- What an upload stores takes the place of what was stored, for its own pipeline only. -/
theorem latest?_upload {id owner : Int64} {content : Bytes} {size : UInt64} {past : List Request}
    (h : content.length = size.toNat) :
    latest? id (past ++ [.upload owner content size]) = if id = owner then some content else latest? id past := by
  rw [latest?_concat]
  by_cases hid : id = owner
  · simp [Request.stores?, hid, h]
  · simp [Request.stores?, hid, Ne.symm hid]

theorem latest?_mismatch {id owner : Int64} {content : Bytes} {size : UInt64} {past : List Request}
    (h : content.length ≠ size.toNat) : latest? id (past ++ [.upload owner content size]) = latest? id past := by
  simp [latest?_concat, Request.stores?, h]

theorem latest?_download {id owner : Int64} {past : List Request} :
    latest? id (past ++ [.download owner]) = latest? id past := by
  simp [latest?_concat, Request.stores?]

/-- A store in memory has by id what the requests of the past left. -/
def MemoryStore.Holds (past : List Request) (s : MemoryStore) : Prop :=
  ∀ id, s.contents.lookup id = latest? id past

/-- What memory holds is counted as it is long. -/
theorem byteCount_eq_iff {content : Bytes} {size : UInt64} (h : content.length < Nat.pow 2 64) :
    byteCount content = size ↔ content.length = size.toNat := by
  rw [← UInt64.toNat_inj, byteCount, UInt64.toNat_ofNat', Nat.mod_eq_of_lt h]

theorem MemoryStore.answer_step (past : List Request) (s : MemoryStore) (request : Request) (hfits : request.Fits)
    (h : MemoryStore.Holds past s) :
    (s.answer request).1.mapError Fault.kind = request.reply past ∧
      MemoryStore.Holds (past ++ [request]) (s.answer request).2 := by
  cases request with
  | upload owner content size =>
    have hcount : byteCount content = size ↔ content.length = size.toNat := byteCount_eq_iff hfits.2
    by_cases hsize : content.length = size.toNat
    · simp only [MemoryStore.answer, MemoryStore.upload, if_pos (hcount.2 hsize), Request.reply, if_pos hsize]
      refine ⟨rfl, fun id => ?_⟩
      rw [lookup_replace, latest?_upload hsize, h id]
    · simp only [MemoryStore.answer, MemoryStore.upload, if_neg (mt hcount.1 hsize), Request.reply, if_neg hsize]
      refine ⟨rfl, fun id => ?_⟩
      rw [latest?_mismatch hsize, h id]
  | download owner =>
    simp only [MemoryStore.answer, MemoryStore.download, Request.reply, h owner]
    constructor
    · cases latest? owner past <;> rfl
    · intro id
      rw [latest?_download, h id]

/-- A directory has one file for each transcript that the requests of the past left, and no other entries. -/
structure DirectoryStore.Holds (past : List Request) (s : DirectoryStore) : Prop where
  possible : s.root ≠ .impossible
  transcripts : ∀ id, s.root.entry? (.log id) = (latest? id past).map .file
  named : ∀ e ∈ s.root.entries, ∃ id, e.1 = .log id

namespace DirectoryStore

variable {past : List Request} {s : DirectoryStore} {id : Int64}

theorem Holds.fresh (h : Holds past s) : s.Fresh id := by
  rintro e he hname
  obtain ⟨owner, howner⟩ := h.named e he
  rw [howner] at hname
  cases hname

theorem Holds.not_obstructed (h : Holds past s) : ¬ s.Obstructed id := by
  intro hobstructed
  rw [Obstructed, h.transcripts id] at hobstructed
  cases hlatest : latest? id past <;> simp [hlatest] at hobstructed

theorem answer_step (past : List Request) (s : DirectoryStore) (request : Request) (hfits : request.Fits)
    (h : Holds past s) :
    (s.answer request).1.mapError Fault.kind = request.reply past ∧
      Holds (past ++ [request]) (s.answer request).2 := by
  cases request with
  | upload owner content size =>
    have hfresh : s.Fresh owner := h.fresh
    by_cases hsize : content.length = size.toNat
    · have hcomplete : Complete content size := ⟨hsize, hfits.1⟩
      simp only [answer, upload_done h.possible hfresh hcomplete h.not_obstructed, Request.reply, if_pos hsize]
      refine ⟨rfl, by rintro ⟨⟩, fun id => ?_, fun e he => ?_⟩
      · have hlookup := h.transcripts id
        rw [Root.entry?] at hlookup ⊢
        rw [latest?_upload hsize, Root.entries, put, without, lookup_replace, hlookup]
        by_cases hid : id = owner <;> simp [hid]
      · rcases List.mem_cons.1 he with rfl | he
        · exact ⟨owner, rfl⟩
        · exact h.named e (List.mem_filter.1 he).1
    · obtain ⟨actual, hupload⟩ := upload_mismatch h.possible hfresh fun hcomplete => hsize hcomplete.1
      simp only [answer, hupload, Request.reply, if_neg hsize]
      refine ⟨rfl, by rintro ⟨⟩, fun id => ?_, h.named⟩
      rw [latest?_mismatch hsize]
      exact h.transcripts id
  | download owner =>
    simp only [answer, download_possible h.possible, h.transcripts owner, Request.reply]
    constructor
    · cases latest? owner past <;> rfl
    · refine ⟨h.possible, fun id => ?_, h.named⟩
      rw [latest?_download]
      exact h.transcripts id

theorem holds_new (made : Bool) (next : Nat) : Holds [] (.new made next) := by
  cases made
  · exact ⟨nofun, fun id => rfl, nofun⟩
  · exact ⟨nofun, fun id => rfl, nofun⟩

/-- Every file is that of a transcript, and each is found by its name. -/
theorem Holds.files (h : Holds past s) :
    (∀ file ∈ s.files, ∃ id : Int64, file.1 = toString id.toInt ++ ".log") ∧
      ∀ id : Int64, s.files.lookup (toString id.toInt ++ ".log") = (latest? id past).map .file := by
  constructor
  · intro file hfile
    obtain ⟨e, he, rfl⟩ := List.mem_map.1 hfile
    obtain ⟨id, hid⟩ := h.named e he
    exact ⟨id, congrArg FileName.text hid⟩
  · intro id
    rw [← h.transcripts id]
    exact lookup_named (f := FileName.text) fun _ => text_log_inj

end DirectoryStore

/-- Whatever is asked of a store in a new directory and of one in memory, they give the same replies: those that hang
on the latest upload of the right size before, for the same pipeline. What the directory has in the end are the
latest transcripts, each under its own name. -/
theorem stores_agree (made : Bool) (next : Nat) (requests : List Request)
    (hfits : ∀ request ∈ requests, request.Fits) :
    let directory := replies DirectoryStore.answer (.new made next) requests
    let memory := replies MemoryStore.answer {} requests
    directory.1 = repliesAfter [] requests ∧ memory.1 = directory.1 ∧
      (∀ file ∈ directory.2.files, ∃ id : Int64, file.1 = toString id.toInt ++ ".log") ∧
      ∀ id : Int64, directory.2.files.lookup (toString id.toInt ++ ".log") = (latest? id requests).map .file := by
  obtain ⟨hdirectory, hholds⟩ :=
    replies_of_holds DirectoryStore.answer_step (DirectoryStore.holds_new made next) requests hfits
  have hempty : MemoryStore.Holds [] {} := fun id => rfl
  obtain ⟨hmemory, -⟩ := replies_of_holds MemoryStore.answer_step hempty requests hfits
  exact ⟨hdirectory, hmemory.trans hdirectory.symm, hholds.files⟩

/-- A transcript replaces the one before, and a longer one than announced replaces none. -/
theorem stores_agree_replaced :
    let requests : List Request :=
      [.upload 1 [65] 1, .upload 1 [66, 67] 2, .upload 1 [68, 69] 1, .download 1, .download (-1)]
    (∀ request ∈ requests, request.Fits) ∧
      (replies DirectoryStore.answer (.new false 0) requests).1 =
        [.ok .stored, .ok .stored, .error .sizeMismatch, .ok (.content [66, 67]), .error .notStored] ∧
      (replies MemoryStore.answer {} requests).1 = (replies DirectoryStore.answer (.new false 0) requests).1 := by
  intro requests
  have hfits : ∀ request ∈ requests, request.Fits := by
    simp [requests, Request.Fits]
  obtain ⟨hdirectory, hmemory, -⟩ := stores_agree false 0 requests hfits
  exact ⟨hfits, hdirectory.trans rfl, hmemory⟩

end Pipeworks.Transcript
