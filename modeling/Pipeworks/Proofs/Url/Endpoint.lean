/-
Addresses below a base. Whatever names are added to a base on the web, its scheme, authority, query and fragment stay,
each name becomes one segment behind those of the base, and is read back from it (`endpoint_of_names`). So different
names make different addresses, and no name can reach into another part of the address.
-/
import Pipeworks.Proofs.Url.Percent
import Pipeworks.Proofs.Url.Reader
import Pipeworks.Provider.Hosts

namespace Pipeworks.Url

variable {u target : Url} {s : String} {list segments : List String}

/-! ## Names as segments -/

/-- A segment that is a name: it says something, means no place, and all of it counts. -/
structure IsName (s : String) : Prop where
  nonempty : s ≠ ""
  notHere : s ≠ "."
  notAbove : s ≠ ".."
  counts : ∀ c ∈ s.toList, isDropped c = false

instance (s : String) : Decidable (IsName s) :=
  decidable_of_iff (s ≠ "" ∧ s ≠ "." ∧ s ≠ ".." ∧ s.toList.any isDropped = false)
    ⟨fun ⟨hnonempty, hhere, habove, hcounts⟩ =>
      ⟨hnonempty, hhere, habove, fun c hc => Bool.eq_false_iff.2 (List.any_eq_false.1 hcounts c hc)⟩,
      fun h => ⟨h.nonempty, h.notHere, h.notAbove, List.any_eq_false.2 fun c hc => Bool.eq_false_iff.1 (h.counts c hc)⟩⟩

/-- How a name is written in a path on the web. -/
def writtenName (s : String) : String := encoded inCommonSegment s.toList

theorem inCommonSegment_reversible : ByteSet.Reversible inCommonSegment := fun b hb => by
  have hall : ∀ n < 256, inCommonSegment (UInt8.ofNat n) = false → n < 0x80 ∧ n ≠ 37 := by decide +kernel
  have hb' : inCommonSegment (UInt8.ofNat b.toNat) = false := by rwa [UInt8.ofNat_toNat]
  obtain ⟨hascii, hpercent⟩ := hall b.toNat (UInt8.toNat_lt b) hb'
  exact ⟨UInt8.lt_iff_toNat_lt.2 hascii, fun h => hpercent (congrArg UInt8.toNat h)⟩

theorem read_writtenName (s : String) : Text.ofBytes? (decode (writtenName s)) = some s :=
  decode_encoded inCommonSegment_reversible s

theorem writtenName_injective : Function.Injective writtenName := encoded_injective inCommonSegment_reversible

theorem writtenName_ne (h : s ≠ "") : writtenName s ≠ "" := fun hwritten =>
  h (writtenName_injective (hwritten.trans rfl))

/-- A name holds nothing that would end its segment or the path. -/
theorem writtenName_inside (s : String) : ∀ c ∈ (writtenName s).toList, c ∉ "/\\?#".toList := by
  intro c hc
  rw [writtenName, encoded, String.toList_ofList] at hc
  obtain rfl | ⟨n, hn, rfl⟩ | ⟨b, hb, rfl⟩ := mem_encode hc
  · decide
  · have hall : ∀ n < 16, Hex.upperDigit n ∉ "/\\?#".toList := by decide
    exact hall n hn
  · have hall : ∀ n < 256, inCommonSegment (UInt8.ofNat n) = false → Char.ofNat n ∉ "/\\?#".toList := by
      decide +kernel
    exact hall b.toNat (UInt8.toNat_lt b) (by rwa [UInt8.ofNat_toNat])

/-! ## Adding names -/

theorem driveSegment_elsewhere (before : List String) (cs : List Char) : driveSegment false before cs = cs := by
  unfold driveSegment
  split <;> rfl

/-- One more name; the empty segment of a bare host gives way to it. -/
theorem addSegment_name {scheme : String} (hscheme : scheme = "http" ∨ scheme = "https") (before : List String)
    (hs : IsName s) : addSegment scheme before s = (if before = [""] then [] else before) ++ [writtenName s] := by
  have hcommon : isCommon scheme = true ∧ (scheme == "file") = false := by
    obtain rfl | rfl := hscheme <;> decide
  have hchars : segmentChars s = s.toList := List.filter_eq_self.2 fun c hc => by rw [hs.counts c hc, Bool.not_false]
  have hhere : isDot (encode inCommonSegment s.toList) = false := Bool.eq_false_iff.2 fun h =>
    hs.notHere (String.toList_injective (eq_of_isDot_encode inCommonSegment_reversible h))
  have habove : isDoubleDot (encode inCommonSegment s.toList) = false := Bool.eq_false_iff.2 fun h =>
    hs.notAbove (String.toList_injective (eq_of_isDoubleDot_encode inCommonSegment_reversible h))
  unfold addSegment
  rw [if_neg (not_or.2 ⟨hs.notHere, hs.notAbove⟩)]
  simp only [hcommon, if_true, hchars, takeSegments, hhere, habove, Bool.false_eq_true, if_false,
    driveSegment_elsewhere]
  rfl

/-- The names behind what is there already. -/
theorem foldl_addSegment {scheme : String} (hscheme : scheme = "http" ∨ scheme = "https") (before : List String)
    (hbefore : before ≠ [""]) (hsegments : ∀ s ∈ segments, IsName s) :
    segments.foldl (addSegment scheme) before = before ++ segments.map writtenName := by
  induction segments generalizing before with
  | nil => exact (List.append_nil before).symm
  | cons s segments ih =>
    obtain ⟨hs, hsegments⟩ := List.forall_mem_cons.1 hsegments
    have hnext : before ++ [writtenName s] ≠ [""] := fun h => by
      have hlast := congrArg List.getLast? h
      rw [List.getLast?_concat] at hlast
      exact writtenName_ne hs.nonempty (Option.some.inj hlast)
    rw [List.foldl_cons, addSegment_name hscheme before hs, if_neg hbefore, ih _ hnext hsegments, List.append_assoc,
      List.map_cons, List.singleton_append]

/-- The segments of a base without an empty one at the end. -/
def withoutEnd (list : List String) : List String := if list.getLast? = some "" then list.dropLast else list

/-- The path below a base. Where nothing but one empty segment would be left of the base, names are put in its
place; without names a base is left that has one. -/
def below (list segments : List String) : List String :=
  if segments = [] then withoutEmptyEnd list
  else (if list = ["", ""] then [] else withoutEnd list) ++ segments.map writtenName

/-- What the first name finds is the base without an empty end, or an empty segment that gives way to it. -/
theorem withoutEmptyEnd_cases (list : List String) :
    (withoutEmptyEnd list = [""] ∧ (if list = ["", ""] then [] else withoutEnd list) = []) ∨
    (withoutEmptyEnd list ≠ [""] ∧ (if list = ["", ""] then [] else withoutEnd list) = withoutEmptyEnd list) := by
  match list with
  | [] => exact .inr ⟨nofun, rfl⟩
  | [a] =>
    have hsame : withoutEmptyEnd [a] = [a] := if_neg fun h => Nat.not_succ_le_self 1 h.1
    have hone : [a] ≠ ["", ""] := fun h => nomatch (List.cons.inj h).2
    rw [hsame, if_neg hone]
    by_cases ha : a = ""
    · subst ha
      exact .inl ⟨rfl, rfl⟩
    · exact .inr ⟨fun h => ha (List.singleton_inj.1 h), if_neg fun h => ha (Option.some.inj h)⟩
  | a :: b :: rest =>
    have hlength : 2 ≤ (a :: b :: rest).length := Nat.le_add_left 2 rest.length
    have hsame : withoutEmptyEnd (a :: b :: rest) = withoutEnd (a :: b :: rest) := by
      simp only [withoutEmptyEnd, withoutEnd, hlength, true_and]
    rw [hsame]
    by_cases hempty : a :: b :: rest = ["", ""]
    · rw [hempty]
      exact .inl ⟨rfl, rfl⟩
    · rw [if_neg hempty]
      refine .inr ⟨fun h => ?_, rfl⟩
      unfold withoutEnd at h
      split at h
      case isFalse => cases h
      case isTrue hlast =>
        obtain ⟨init, hinit⟩ := List.getLast?_eq_some_iff.1 hlast
        rw [hinit, List.dropLast_concat] at h
        exact hempty (by rw [hinit, h]; rfl)

/-- So names come behind the segments of a base, or in the place of the only one. -/
theorem below_cases (list : List String) :
    (withoutEmptyEnd list = [""] ∧
      ∀ segments, below list segments = if segments = [] then [""] else segments.map writtenName) ∨
    (withoutEmptyEnd list ≠ [""] ∧
      ∀ segments, below list segments = withoutEmptyEnd list ++ segments.map writtenName) := by
  obtain ⟨hone, hstart⟩ | ⟨hmore, hstart⟩ := withoutEmptyEnd_cases list
  · exact .inl ⟨hone, fun segments => by rw [below, hone, hstart, List.nil_append]⟩
  · refine .inr ⟨hmore, fun segments => ?_⟩
    rw [below, hstart]
    split
    case isTrue h => rw [h, List.map_nil, List.append_nil]
    case isFalse => rfl

theorem endpoint_eq (hscheme : u.scheme = "http" ∨ u.scheme = "https") (hpath : u.path = .segments list)
    (hsegments : ∀ s ∈ segments, IsName s) :
    endpoint u segments = .ok { u with path := .segments (below list segments) } := by
  have hfold : segments.foldl (addSegment u.scheme) (withoutEmptyEnd list) = below list segments := by
    obtain ⟨hone, hbelow⟩ | ⟨hmore, hbelow⟩ := below_cases list
    · cases segments with
      | nil => rfl
      | cons s segments =>
        obtain ⟨hs, hsegments⟩ := List.forall_mem_cons.1 hsegments
        have hnext : [writtenName s] ≠ [""] := fun h => writtenName_ne hs.nonempty (List.singleton_inj.1 h)
        rw [hbelow, hone, List.foldl_cons, addSegment_name hscheme _ hs, if_pos rfl, List.nil_append,
          foldl_addSegment hscheme _ hnext hsegments]
        rfl
    · rw [hbelow]
      exact foldl_addSegment hscheme _ hmore hsegments
  unfold endpoint
  rw [hpath]
  dsimp only
  rw [hfold]

/-! ## Different names -/

/-- A slash before each segment. -/
def slashed (list : List String) : List Char := list.flatMap fun s => '/' :: s.toList

theorem toList_segmentsText (list : List String) : (segmentsText list).toList = slashed list := by
  induction list with
  | nil => rfl
  | cons s list ih => simpa [segmentsText, slashed] using ih

theorem slashed_cons (s : String) (list : List String) : slashed (s :: list) = '/' :: (s.toList ++ slashed list) := rfl

/-- A segment reaches up to the next slash. -/
theorem takeWhile_slashed {cs : List Char} (hcs : '/' ∉ cs) (list : List String) :
    (cs ++ slashed list).takeWhile (· != '/') = cs := by
  have hinside : ∀ c ∈ cs, (c != '/') = true := fun c hc => bne_iff_ne.2 fun h => hcs (h ▸ hc)
  rw [List.takeWhile_append_of_pos hinside]
  cases list with
  | nil => exact List.append_nil cs
  | cons s list =>
    rw [slashed_cons, List.takeWhile_cons_of_neg (by decide)]
    exact List.append_nil cs

theorem slashed_injective : ∀ {as bs : List String}, (∀ s ∈ as, '/' ∉ s.toList) → (∀ s ∈ bs, '/' ∉ s.toList) →
    slashed as = slashed bs → as = bs
  | [], [], _, _, _ => rfl
  | [], b :: bs, _, _, h => by cases h
  | a :: as, [], _, _, h => by cases h
  | a :: as, b :: bs, has, hbs, h => by
    obtain ⟨ha, has⟩ := List.forall_mem_cons.1 has
    obtain ⟨hb, hbs⟩ := List.forall_mem_cons.1 hbs
    rw [slashed_cons, slashed_cons] at h
    have htail := (List.cons.inj h).2
    have hfirst := congrArg (List.takeWhile (· != '/')) htail
    rw [takeWhile_slashed ha, takeWhile_slashed hb] at hfirst
    rw [hfirst] at htail
    rw [String.toList_injective hfirst, slashed_injective has hbs (List.append_cancel_left htail)]

theorem not_slash_writtenName (s : String) : '/' ∉ (writtenName s).toList := fun h =>
  writtenName_inside s _ h (by decide)

/-- Paths below a base are told apart by their text. -/
theorem below_injective {others : List String} (hsegments : ∀ s ∈ segments, IsName s) (hothers : ∀ s ∈ others, IsName s)
    (h : slashed (below list segments) = slashed (below list others)) : segments = others := by
  have hplain : ∀ names : List String, ∀ s ∈ names.map writtenName, '/' ∉ s.toList := fun names s hs => by
    obtain ⟨name, -, rfl⟩ := List.mem_map.1 hs
    exact not_slash_writtenName name
  obtain ⟨-, hbelow⟩ | ⟨-, hbelow⟩ := below_cases list
  · have hfree : ∀ names : List String, ∀ s ∈ (if names = [] then [""] else names.map writtenName), '/' ∉ s.toList := by
      intro names
      split
      · simp
      · exact hplain names
    have hone : ∀ names : List String, (∀ s ∈ names, IsName s) → names.map writtenName ≠ [""] := by
      intro names hnames h
      obtain ⟨s, hs, hwritten⟩ := List.mem_map.1 (h ▸ List.mem_singleton_self "")
      exact writtenName_ne (hnames s hs).nonempty hwritten
    rw [hbelow, hbelow] at h
    have hsame := slashed_injective (hfree segments) (hfree others) h
    split_ifs at hsame with hsegs hoths hoths
    · rw [hsegs, hoths]
    · exact absurd hsame.symm (hone others hothers)
    · exact absurd hsame (hone segments hsegments)
    · exact List.map_injective_iff.2 writtenName_injective hsame
  · rw [hbelow, hbelow, slashed, slashed, List.flatMap_append, List.flatMap_append] at h
    have hnames := slashed_injective (hplain segments) (hplain others) (List.append_cancel_left h)
    exact List.map_injective_iff.2 writtenName_injective hnames

/-- Addresses that differ in their segments only have these in the same place of their text. -/
theorem slashed_of_text {as bs : List String} (hauthority : u.authority.isSome)
    (h : ({ u with path := .segments as } : Url).text = ({ u with path := .segments bs } : Url).text) :
    slashed as = slashed bs := by
  obtain ⟨authority, hauthority⟩ := Option.isSome_iff_exists.1 hauthority
  have htext : ∀ list : List String, ({ u with path := .segments list } : Url).text.toList =
      (u.scheme ++ ":" ++ ("//" ++ authority.text)).toList ++ slashed list ++
        (textAfter "?" u.query ++ textAfter "#" u.fragment).toList := by
    intro list
    have hpath : (Path.segments list).text false = segmentsText list := by
      unfold Path.text
      dsimp only
      split <;> exact String.empty_append
    rw [← toList_segmentsText, ← String.toList_append, ← String.toList_append, ← hpath]
    unfold text
    simp only [hauthority, Option.isNone_some, String.append_assoc]
  have hlist := congrArg String.toList h
  rw [htext, htext] at hlist
  exact List.append_cancel_left (List.append_cancel_right hlist)

/-! ## Addresses below a base -/

/-- An address that differs from a base by the names in its path only. -/
structure Extends (base : Url) (list segments : List String) (target : Url) : Prop where
  scheme : target.scheme = base.scheme
  authority : target.authority = base.authority
  path : target.path = .segments (below list segments)
  query : target.query = base.query
  fragment : target.fragment = base.fragment

theorem endpoint_extends (hscheme : u.scheme = "http" ∨ u.scheme = "https") (hpath : u.path = .segments list)
    (hsegments : ∀ s ∈ segments, IsName s) :
    ∃ target, endpoint u segments = .ok target ∧ Extends u list segments target :=
  ⟨_, endpoint_eq hscheme hpath hsegments, rfl, rfl, rfl, rfl, rfl⟩

/-- Names may be added one after the other. -/
theorem below_append {more : List String} (hfirst : segments ≠ []) (hsegments : ∀ s ∈ segments, IsName s) :
    below (below list segments) more = below list (segments ++ more) := by
  have hlast : (below list segments).getLast? ≠ some "" := fun h => by
    have hnames : segments.map writtenName ≠ [] := fun h => hfirst (List.map_eq_nil_iff.1 h)
    rw [below, if_neg hfirst, List.getLast?_append_of_ne_nil _ hnames] at h
    obtain ⟨s, hs, hwritten⟩ := List.mem_map.1 (List.mem_of_getLast? h)
    exact writtenName_ne (hsegments s hs).nonempty hwritten
  have hkept : withoutEmptyEnd (below list segments) = below list segments := if_neg fun h => hlast h.2
  obtain ⟨hone, -⟩ | ⟨-, hbelow⟩ := below_cases (below list segments)
  · rw [hkept] at hone
    exact absurd (congrArg List.getLast? hone) hlast
  · have hboth : segments ++ more ≠ [] := fun h => hfirst (List.append_eq_nil_iff.1 h).1
    rw [hbelow, hkept, below, below, if_neg hfirst, if_neg hboth, List.map_append, List.append_assoc]

/-- The project of a repository, which has a slash, is a name like others. -/
theorem isName_project {owner repo : String} (hcounts : ∀ c ∈ (owner ++ "/" ++ repo).toList, isDropped c = false) :
    IsName (owner ++ "/" ++ repo) := by
  have hslash : '/' ∈ (owner ++ "/" ++ repo).toList := by simp [String.toList_append]
  refine ⟨fun h => ?_, fun h => ?_, fun h => ?_, hcounts⟩ <;> exact absurd (h ▸ hslash) (by decide)

/-- What is asked of the one host is below its address, with the project as one name. -/
theorem repoUrl_gitlab {base github : String} {hosts : Provider.Hosts} {owner repo : String} {rest : List String}
    (hbase : ofBase base = .ok u) (hscheme : u.scheme = "http" ∨ u.scheme = "https") (hpath : u.path = .segments list)
    (hhosts : Provider.Hosts.ofText github base = .ok hosts)
    (hcounts : ∀ c ∈ (owner ++ "/" ++ repo).toList, isDropped c = false) (hrest : ∀ s ∈ rest, IsName s) :
    ∃ target, Provider.repoUrl hosts .gitlab owner repo rest = .ok target ∧
      Extends u list (["api", "v4", "projects", owner ++ "/" ++ repo] ++ rest) target := by
  have hstart : ∀ s ∈ ["api", "v4"], IsName s := by decide
  have hprojects : IsName "projects" := by decide
  have hmore : ∀ s ∈ "projects" :: (owner ++ "/" ++ repo) :: rest, IsName s :=
    List.forall_mem_cons.2 ⟨hprojects, List.forall_mem_cons.2 ⟨isName_project hcounts, hrest⟩⟩
  obtain ⟨_, -, hhosts⟩ := bind_eq_ok_iff.1 hhosts
  obtain ⟨site, hsite, hhosts⟩ := bind_eq_ok_iff.1 hhosts
  cases hbase.symm.trans hsite
  rw [endpoint_eq hscheme hpath hstart] at hhosts
  cases hhosts
  obtain ⟨target, htarget, hextends⟩ := endpoint_extends
    (u := { u with path := .segments (below list ["api", "v4"]) }) hscheme rfl hmore
  refine ⟨target, htarget, hextends.scheme, hextends.authority, ?_, hextends.query, hextends.fragment⟩
  rw [hextends.path, below_append (List.cons_ne_nil _ _) hstart]
  rfl

/-- Names that are added to a base on the web come behind its segments, one segment each, and nothing else changes.
From what is written of a name it is read again, and none of that ends a segment or the path; so other names make an
address with another text. A project of the host that is asked for one by its full name is one segment. -/
theorem endpoint_of_names (base : String) (hbase : ofBase base = .ok u)
    (hscheme : u.scheme = "http" ∨ u.scheme = "https") :
    ∃ list, u.path = .segments list ∧
      (∀ segments, (∀ s ∈ segments, IsName s) →
        ∃ target, endpoint u segments = .ok target ∧ Extends u list segments target) ∧
      (∀ s, Text.ofBytes? (decode (writtenName s)) = some s ∧
        ∀ c ∈ (writtenName s).toList, c ∉ "/\\?#".toList) ∧
      (∀ segments others, (∀ s ∈ segments, IsName s) → (∀ s ∈ others, IsName s) → segments ≠ others →
        ∀ target target', endpoint u segments = .ok target → endpoint u others = .ok target' →
          target.text ≠ target'.text) ∧
      ∀ github hosts owner repo rest, Provider.Hosts.ofText github base = .ok hosts →
        (∀ c ∈ (owner ++ "/" ++ repo).toList, isDropped c = false) → (∀ s ∈ rest, IsName s) →
        ∃ target, Provider.repoUrl hosts .gitlab owner repo rest = .ok target ∧
          Extends u list (["api", "v4", "projects", owner ++ "/" ++ repo] ++ rest) target := by
  have hread : ofText base = .ok u := by
    unfold ofBase at hbase
    split at hbase
    case h_1 => cases hbase
    case h_2 =>
      split at hbase
      · cases hbase
        assumption
      · cases hbase
  obtain ⟨authority, list, hauthority, hpath⟩ := ofText_web hread hscheme
  refine ⟨list, hpath, fun segments hsegments => endpoint_extends hscheme hpath hsegments,
    fun s => ⟨read_writtenName s, writtenName_inside s⟩, ?_,
    fun _ _ _ _ _ hhosts hcounts hrest => repoUrl_gitlab hbase hscheme hpath hhosts hcounts hrest⟩
  intro segments others hsegments hothers hne target target' htarget htarget' htext
  rw [endpoint_eq hscheme hpath hsegments] at htarget
  rw [endpoint_eq hscheme hpath hothers] at htarget'
  cases htarget
  cases htarget'
  exact hne (below_injective hsegments hothers (slashed_of_text (hauthority ▸ rfl) htext))

namespace Sample

def site : Url :=
  ⟨"https", some ⟨"", "", .name "git.example.com", none⟩, .segments ["ci", ""], some "q", none⟩

theorem site_read : ofBase "https://git.example.com/ci/?q" = .ok site := by decide +kernel

/-- A base whose path is two slashes. -/
def doubled : Url := ⟨"https", some ⟨"", "", .name "h", none⟩, .segments ["", ""], none, none⟩

theorem doubled_read : ofBase "https://h//" = .ok doubled := by decide +kernel

end Sample

/-- Names with slashes and the like below a base that ends in a slash. -/
theorem endpoint_of_names_marked :
    ofBase "https://git.example.com/ci/?q" = .ok Sample.site ∧
    ∃ target, endpoint Sample.site ["acme/widget", "50%?"] = .ok target ∧
      target.path = .segments ["ci", "acme%2Fwidget", "50%25%3F"] ∧ target.query = some "q" ∧ target.fragment = none ∧
      Text.ofBytes? (decode "acme%2Fwidget") = some "acme/widget" := by
  obtain ⟨list, hpath, hextends, hread, -⟩ :=
    endpoint_of_names "https://git.example.com/ci/?q" Sample.site_read (.inr rfl)
  cases hpath
  obtain ⟨target, htarget, hextended⟩ := hextends ["acme/widget", "50%?"] (by decide)
  have hbelow : below ["ci", ""] ["acme/widget", "50%?"] = ["ci", "acme%2Fwidget", "50%25%3F"] := by decide +kernel
  have hwritten : writtenName "acme/widget" = "acme%2Fwidget" := by decide +kernel
  refine ⟨Sample.site_read, target, htarget, ?_, hextended.query, hextended.fragment, ?_⟩
  · rw [hextended.path, hbelow]
  · rw [← hwritten]
    exact (hread "acme/widget").1

/-- A name does not come behind an empty segment that is the only one left of a base, but in its place. -/
theorem name_in_place_of_empty :
    ¬ ∀ (base : String) (u : Url) (list segments : List String), ofBase base = .ok u →
      (u.scheme = "http" ∨ u.scheme = "https") → u.path = .segments list → (∀ s ∈ segments, IsName s) →
      ∃ target, endpoint u segments = .ok target ∧
        target.path = .segments (withoutEnd list ++ segments.map writtenName) := by
  intro h
  obtain ⟨target, htarget, hpath⟩ := h "https://h//" Sample.doubled ["", ""] ["a"] Sample.doubled_read (.inr rfl) rfl
    (by decide)
  have hreal : endpoint Sample.doubled ["a"] = .ok { Sample.doubled with path := .segments ["a"] } := by decide +kernel
  rw [hreal] at htarget
  cases htarget
  exact absurd hpath (by decide +kernel)

end Pipeworks.Url
