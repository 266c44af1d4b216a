/-
What an upload does to the directory of a store. One that fails touches no transcript that is stored, and it
leaves every file as it was but in one case: where a directory stands in the place of the transcript, the
unfinished file is complete, cannot take its place and stays (`failed_upload_residue`).
-/
import Pipeworks.Transcript.Directory

namespace Pipeworks.Transcript

/-! ## Entries -/

section
variable {name old new other : FileName} {entry : Entry} {entries : List (FileName × Entry)}

theorem without_absent (h : ∀ e ∈ entries, e.1 ≠ name) : without name entries = entries :=
  List.filter_eq_self.2 fun e he => bne_iff_ne.2 (h e he)

theorem put_absent (h : ∀ e ∈ entries, e.1 ≠ name) : put name entry entries = (name, entry) :: entries := by
  rw [put, without_absent h]

theorem without_cons_self (h : ∀ e ∈ entries, e.1 ≠ name) : without name ((name, entry) :: entries) = entries := by
  rw [without, List.filter_cons_of_neg (by simp)]
  exact without_absent h

theorem lookup_cons_other (h : other ≠ name) : ((name, entry) :: entries).lookup other = entries.lookup other := by
  rw [List.lookup_cons, beq_eq_false_iff_ne.2 h]

theorem rename_directory (h : entries.lookup new = some .directory) : rename old new entries = none := by
  rw [rename, h]

theorem rename_entry (hold : entries.lookup old = some entry) (hnew : entries.lookup new ≠ some .directory) :
    rename old new entries = some (put new entry (without old entries)) := by
  rw [rename, hold]
  cases hplace : entries.lookup new with
  | none => rfl
  | some place =>
    cases place with
    | file content => rfl
    | directory => exact absurd hplace hnew

end

namespace DirectoryStore

variable {s t : DirectoryStore} {id other : Int64} {content : Bytes} {size : UInt64}

/-- No file has the name yet that the next unfinished one gets, which is to be a new one each time. -/
def Fresh (s : DirectoryStore) (id : Int64) : Prop := ∀ e ∈ s.root.entries, e.1 ≠ .unfinished id s.next

/-- Every unfinished file got its number already. -/
def Numbered (s : DirectoryStore) : Prop :=
  ∀ e ∈ s.root.entries, ∀ id n, e.1 = .unfinished id n → n < s.next

/-- A directory stands in the place of the transcript. -/
def Obstructed (s : DirectoryStore) (id : Int64) : Prop := s.root.entry? (.log id) = some .directory

instance (s : DirectoryStore) (id : Int64) : Decidable (s.Fresh id) := by unfold Fresh; infer_instance

instance (s : DirectoryStore) (id : Int64) : Decidable (s.Obstructed id) := by unfold Obstructed; infer_instance

/-- The content is as long as announced, and one byte more than that can be counted. -/
def Complete (content : Bytes) (size : UInt64) : Prop := content.length = size.toNat ∧ size.toNat + 1 < Nat.pow 2 64

instance (content : Bytes) (size : UInt64) : Decidable (Complete content size) := by unfold Complete; infer_instance

/-- Just such a content is written as long as it was announced. -/
theorem written_iff : byteCount (content.take (size + 1).toNat) = size ↔ Complete content size := by
  have hsize := size.toNat_lt
  have hlimit : Nat.pow 2 64 = 18446744073709551616 := rfl
  rw [← UInt64.toNat_inj, byteCount, UInt64.toNat_ofNat', List.length_take, UInt64.toNat_add, UInt64.toNat_one,
    Complete]
  omega

theorem Complete.written (h : Complete content size) : content.take (size + 1).toNat = content := by
  obtain ⟨hlength, hmax⟩ := h
  have hlimit : Nat.pow 2 64 = 18446744073709551616 := rfl
  refine List.take_of_length_le ?_
  rw [UInt64.toNat_add, UInt64.toNat_one]
  omega

theorem Obstructed.possible (h : s.Obstructed id) : s.root ≠ .impossible := by
  intro hroot
  rw [Obstructed, hroot] at h
  cases h

theorem withRoot_possible (h : s.root ≠ .impossible) : s.withRoot = some s.root.entries := by
  obtain ⟨root, next⟩ := s
  cases root with
  | missing => rfl
  | impossible => exact absurd rfl h
  | present entries => rfl

/-! ## Uploads, case by case -/

theorem upload_impossible (h : s.root = .impossible) : s.upload id content size = (.error .io, s) := by
  simp [upload, withRoot, h]

section
variable (hroot : s.root ≠ .impossible) (hfresh : s.Fresh id)

include hroot hfresh

/-- A transcript that is not as long as announced is given up, together with the file that was begun. -/
theorem upload_mismatch (hsize : ¬ Complete content size) : ∃ actual,
    s.upload id content size = (.error (.sizeMismatch size actual), ⟨.present s.root.entries, s.next + 1⟩) := by
  refine ⟨byteCount (content.take (size + 1).toNat), ?_⟩
  simp only [upload, withRoot_possible hroot, if_neg (mt written_iff.1 hsize), put_absent hfresh,
    without_cons_self hfresh]

/-- One that is as long as announced has been written when it is to take its place. -/
theorem upload_written (hsize : Complete content size) :
    let during := (FileName.unfinished id s.next, Entry.file content) :: s.root.entries
    s.upload id content size =
      match rename (.unfinished id s.next) (.log id) during with
      | some entries => (.ok (), ⟨.present entries, s.next + 1⟩)
      | none => (.error .io, ⟨.present during, s.next + 1⟩) := by
  intro during
  have hwritten := hsize.written
  have hcount : byteCount content = size := hwritten ▸ written_iff.2 hsize
  have hduring : put (.unfinished id s.next) (.file content) s.root.entries = during := put_absent hfresh
  cases hmoved : rename (.unfinished id s.next) (.log id) during with
  | none => simp only [upload, withRoot_possible hroot, hwritten, hcount, if_true, hduring, hmoved]
  | some entries => simp only [upload, withRoot_possible hroot, hwritten, hcount, if_true, hduring, hmoved]

/-- A complete file cannot take the place of a directory, and stays. -/
theorem upload_obstructed (hsize : Complete content size) (h : s.Obstructed id) :
    s.upload id content size =
      (.error .io, ⟨.present ((.unfinished id s.next, .file content) :: s.root.entries), s.next + 1⟩) := by
  have hplace : ((FileName.unfinished id s.next, Entry.file content) :: s.root.entries).lookup (.log id) =
      some .directory := by
    rw [lookup_cons_other (by simp)]
    exact h
  rw [upload_written hroot hfresh hsize, rename_directory hplace]

/-- Where no directory is in its way, a complete file takes the place of the transcript. -/
theorem upload_done (hsize : Complete content size) (h : ¬ s.Obstructed id) :
    s.upload id content size =
      (.ok (), ⟨.present (put (.log id) (.file content) s.root.entries), s.next + 1⟩) := by
  have hplace : ((FileName.unfinished id s.next, Entry.file content) :: s.root.entries).lookup (.log id) ≠
      some .directory := by
    rw [lookup_cons_other (by simp)]
    exact h
  rw [upload_written hroot hfresh hsize, rename_entry List.lookup_cons_self hplace, without_cons_self hfresh]

end

/-! ## The names of unfinished files

The number of an unfinished file is a new one in every store that uploads alone have come to, and whatever
directories were put in the place of transcripts in between. -/

theorem Numbered.fresh (h : s.Numbered) : s.Fresh id := by
  intro e he hname
  exact absurd (h e he id s.next hname) (Nat.lt_irrefl _)

theorem Numbered.put_log {entry : Entry} (h : s.Numbered) :
    DirectoryStore.Numbered ⟨.present (put (.log id) entry s.root.entries), s.next⟩ := by
  intro e he owner n hname
  rcases List.mem_cons.1 he with rfl | he
  · cases hname
  · exact h e (List.mem_filter.1 he).1 owner n hname

theorem Numbered.count (h : s.Numbered) : DirectoryStore.Numbered ⟨.present s.root.entries, s.next + 1⟩ :=
  fun e he owner n hname => Nat.lt_succ_of_lt (h e he owner n hname)

theorem Numbered.upload (h : s.Numbered) : (s.upload id content size).2.Numbered := by
  by_cases hroot : s.root = .impossible
  · rw [upload_impossible hroot]
    exact h
  by_cases hsize : Complete content size
  · by_cases hobstructed : s.Obstructed id
    · rw [upload_obstructed hroot h.fresh hsize hobstructed]
      intro e he owner n hname
      rcases List.mem_cons.1 he with rfl | he
      · cases hname
        exact Nat.lt_succ_self s.next
      · exact h.count e he owner n hname
    · rw [upload_done hroot h.fresh hsize hobstructed]
      exact h.put_log.count
  · obtain ⟨actual, hupload⟩ := upload_mismatch hroot h.fresh hsize
    rw [hupload]
    exact h.count

theorem Numbered.obstruct (h : s.Numbered) : (s.obstruct id).Numbered := by
  by_cases hroot : s.root = .impossible
  · simpa [DirectoryStore.obstruct, withRoot, hroot] using h
  · simp only [DirectoryStore.obstruct, withRoot_possible hroot]
    exact h.put_log

/-- The stores that another one can become. -/
inductive Becomes (s : DirectoryStore) : DirectoryStore → Prop where
  | refl : Becomes s s
  | upload {t : DirectoryStore} (id : Int64) (content : Bytes) (size : UInt64) (h : Becomes s t) :
      Becomes s (t.upload id content size).2
  | obstruct {t : DirectoryStore} (id : Int64) (h : Becomes s t) : Becomes s (t.obstruct id)

/-- From a store that holds transcripts only, every upload finds a new name for its unfinished file. -/
theorem fresh_of_becomes (hs : ∀ e ∈ s.root.entries, ∀ owner n, e.1 ≠ .unfinished owner n)
    (h : Becomes s t) : t.Fresh id := by
  suffices t.Numbered from this.fresh
  induction h with
  | refl => exact fun e he owner n hname => absurd hname (hs e he owner n)
  | upload _ _ _ _ ih => exact ih.upload
  | obstruct _ _ ih => exact ih.obstruct

/-! ## Failed uploads -/

theorem download_possible (h : s.root ≠ .impossible) : s.download id =
    match s.root.entry? (.log id) with
    | some entry => .ok entry
    | none => .error (.notStored id) := by
  obtain ⟨root, next⟩ := s
  cases root with
  | missing => rfl
  | impossible => exact absurd rfl h
  | present entries => rfl

/-- What is downloaded hangs on the entry in the place of the transcript. -/
theorem download_congr (hs : s.root ≠ .impossible) (ht : t.root ≠ .impossible)
    (h : t.root.entry? (.log id) = s.root.entry? (.log id)) : t.download id = s.download id := by
  rw [download_possible ht, h, download_possible hs]

/-- An upload that fails leaves every transcript as it can be downloaded, and every file as it is. Only where a
directory stands in the place of a transcript that is as long as announced, one file is new: the unfinished one,
with all of the content. -/
theorem failed_upload_residue {f : Fault} (hfresh : s.Fresh id) (hfail : (s.upload id content size).1 = .error f) :
    (∀ other, (s.upload id content size).2.download other = s.download other) ∧
      if s.Obstructed id ∧ Complete content size then
        f = .io ∧ (s.upload id content size).2.root.entries =
          (.unfinished id s.next, .file content) :: s.root.entries
      else (s.upload id content size).2.root.entries = s.root.entries := by
  by_cases hroot : s.root = .impossible
  · rw [upload_impossible hroot, if_neg fun h => h.1.possible hroot]
    exact ⟨fun _ => rfl, rfl⟩
  by_cases hsize : Complete content size
  · by_cases hobstructed : s.Obstructed id
    · rw [upload_obstructed hroot hfresh hsize hobstructed] at hfail ⊢
      rw [if_pos ⟨hobstructed, hsize⟩]
      refine ⟨fun other => download_congr hroot nofun ?_, (Except.error.inj hfail).symm, rfl⟩
      exact lookup_cons_other (by simp)
    -- nothing is in its way, and so it does not fail
    · rw [upload_done hroot hfresh hsize hobstructed] at hfail
      cases hfail
  · obtain ⟨actual, hupload⟩ := upload_mismatch hroot hfresh hsize
    rw [hupload, if_neg fun h => hsize h.2]
    exact ⟨fun other => download_congr hroot nofun rfl, rfl⟩

/-- A directory in the place of the second of two transcripts. -/
def halfObstructed : DirectoryStore where
  root := .present [(.log 1, .file [65]), (.log 2, .directory)]
  next := 3

theorem failed_upload_residue_both :
    (halfObstructed.Fresh 2 ∧ (halfObstructed.upload 2 [66] 1).1 = .error .io ∧
      (halfObstructed.upload 2 [66] 1).2.root.entries =
        (.unfinished 2 3, .file [66]) :: halfObstructed.root.entries) ∧
    (halfObstructed.Fresh 1 ∧ (halfObstructed.upload 1 [66] 2).1 = .error (.sizeMismatch 2 1) ∧
      (halfObstructed.upload 1 [66] 2).2.root.entries = halfObstructed.root.entries ∧
      (halfObstructed.upload 1 [66] 2).2.download 1 = .ok (.file [65])) := by
  have hfresh₂ : halfObstructed.Fresh 2 := by decide
  have hfresh₁ : halfObstructed.Fresh 1 := by decide
  have hobstructed : halfObstructed.Obstructed 2 ∧ Complete [66] 1 := by decide
  have hlong : (halfObstructed.upload 2 [66] 1).1 = .error .io := rfl
  have hshort : (halfObstructed.upload 1 [66] 2).1 = .error (.sizeMismatch 2 1) := rfl
  obtain ⟨-, hleft⟩ := failed_upload_residue hfresh₂ hlong
  obtain ⟨hkept, hsame⟩ := failed_upload_residue hfresh₁ hshort
  rw [if_pos hobstructed] at hleft
  rw [if_neg (by decide)] at hsame
  exact ⟨⟨hfresh₂, hlong, hleft.2⟩, hfresh₁, hshort, hsame, (hkept 1).trans rfl⟩

/-- Not every upload that fails leaves the files as they are. -/
theorem failed_upload_leaves_file :
    (halfObstructed.upload 2 [66] 1).1 = .error .io ∧
      (halfObstructed.upload 2 [66] 1).2.root.entries ≠ halfObstructed.root.entries :=
  ⟨rfl, by decide⟩

end DirectoryStore

end Pipeworks.Transcript
