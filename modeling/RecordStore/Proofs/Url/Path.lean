import Mathlib.Data.List.Basic
import Mathlib.Data.List.Induction
import Mathlib.Data.List.TakeWhile
import RecordStore.Proofs.Url.Segment

/-!
# `RecordStore.Proofs.Url.Path`: which segments are appended as they are

A path that is extended by plain segments has those segments at its end, once they are decoded, if
they are all kept. This module shows that no other segment stands there as it is, not even with the
help of the ones around it: every step lays down one segment at most, and what lies before it stays
or becomes shorter.

* `laid`: the segments that are there before another one is appended.
* `lays_extend`: one more segment.
* `laid_foldl_extend_iff`: several more segments.
* `segments_extendAll_iff`: several segments behind those of a path.
-/

set_option autoImplicit false

namespace RecordStore.Url

/-! ### Paths that can be extended -/

/-- The path of a URL that others can be built upon:

- `empty`: it is empty, unless it is that of a file;
- `slash`: it starts with a slash, and that of a file with no more than one. -/
inductive IsRooted (kind : SchemeKind) : List Char → Prop where
  | empty (other : kind ≠ .file) : IsRooted kind []
  | slash {rest : List Char} (one : kind = .file → rest.head? ≠ some '/') :
      IsRooted kind ('/' :: rest)

/-- The path without the slash that is the root. -/
def trunk (path : List Char) : List Char :=
  if path = ['/'] then [] else path

/-- The segments of the path; the root alone has none. -/
def laid (path : List Char) : List (List Char) :=
  segments (trunk path)

variable {kind : SchemeKind} {path : List Char}

/-- The start of a path that can be extended needs no change. -/
theorem normalizeStart_eq_self (h : IsRooted kind path) : normalizeStart kind path = path := by
  rw [normalizeStart]
  split
  · rename_i hfile
    cases h with
    | empty other => exact absurd hfile other
    | slash one =>
      rename_i rest
      have hrest := one hfile
      rw [List.dropWhile_cons_of_pos rfl]
      cases rest with
      | nil => rfl
      | cons c rest => rw [List.dropWhile_cons_of_neg (by simpa using hrest)]
  · rfl

/-- What a path starts with can be extended if the path can be. -/
theorem isRooted_of_isPrefix {start : List Char} (h : IsRooted kind path) (hne : start ≠ [])
    (hstart : start <+: path) : IsRooted kind start := by
  obtain ⟨behind, rfl⟩ := hstart
  cases start with
  | nil => exact absurd rfl hne
  | cons c start =>
    rw [List.cons_append] at h
    cases h with
    | slash one =>
      refine .slash fun hfile hrest => one hfile ?_
      rw [List.head?_append, hrest]
      rfl

/-- The trunk is empty or is the whole path. -/
theorem trunk_cases (h : IsRooted kind path) :
    trunk path = [] ∨ ∃ c rest, trunk path = '/' :: c :: rest ∧ (kind = .file → c ≠ '/') := by
  rw [trunk]
  split
  · exact .inl rfl
  · rename_i hroot
    cases h with
    | empty other => exact .inl rfl
    | slash one =>
      rename_i rest
      cases rest with
      | nil => exact absurd rfl hroot
      | cons c rest => exact .inr ⟨c, rest, rfl, fun hfile heq => one hfile (heq ▸ rfl)⟩

/-- The trunk starts the path. -/
theorem isPrefix_trunk (path : List Char) : trunk path <+: path := by
  rw [trunk]
  split
  · exact List.nil_prefix
  · exact List.prefix_rfl

/-- The trunk with a further segment can be extended. -/
theorem isRooted_append (h : IsRooted kind path) {piece : List Char} (hpiece : '/' ∉ piece) :
    IsRooted kind (trunk path ++ '/' :: piece) := by
  rcases trunk_cases h with htrunk | ⟨c, rest, htrunk, hc⟩
  · rw [htrunk]
    exact .slash fun _ hhead => hpiece (List.mem_of_head? hhead)
  · rw [htrunk]
    exact .slash fun hfile hhead => hc hfile (Option.some.inj hhead)

/-! ### Segments -/

/-- A slash and a text without one are a segment. -/
theorem segments_root {piece : List Char} (hpiece : '/' ∉ piece) :
    segments ('/' :: piece) = [piece] :=
  Text.splitOn_of_none fun _ hc => beq_eq_false_iff_ne.mpr fun heq => hpiece (heq ▸ hc)

/-- A path that starts with a slash has one more segment with a further slash and a text. -/
theorem segments_cons_append (rest : List Char) {piece : List Char} (hpiece : '/' ∉ piece) :
    segments ('/' :: rest ++ '/' :: piece) = segments ('/' :: rest) ++ [piece] := by
  show Text.splitOn _ (rest ++ '/' :: piece) = Text.splitOn _ rest ++ [piece]
  rw [Text.splitOn_append (by rfl)]
  exact congrArg _ (segments_root hpiece)

/-- What a path starts with has no more segments. -/
theorem length_segments_le {start : List Char} (h : start <+: path) :
    (segments start).length ≤ (segments path).length := by
  obtain ⟨rest, rfl⟩ := h
  cases start with
  | nil => exact Nat.zero_le _
  | cons c start =>
    by_cases hc : c = '/'
    · rw [hc]
      show (Text.splitOn _ start).length ≤ (Text.splitOn _ (start ++ rest)).length
      rw [Text.length_splitOn, Text.length_splitOn, List.countP_append]
      omega
    · have hnone : segments (c :: start) = [] := by
        rw [segments]
        rintro rest heq
        exact hc (List.cons.inj heq).1
      rw [hnone]
      exact Nat.zero_le _

/-- There are segments if there is a trunk. -/
theorem isEmpty_laid (h : IsRooted kind path) : (laid path).isEmpty = (trunk path).isEmpty := by
  rw [laid]
  rcases trunk_cases h with htrunk | ⟨c, rest, htrunk, -⟩
  · rw [htrunk]
    rfl
  · rw [htrunk, segments, List.isEmpty_eq_false_iff.mpr (Text.splitOn_ne_nil _ _)]
    rfl

/-- A segment behind the trunk is laid down, unless it is an empty one at the root. -/
theorem laid_append (h : IsRooted kind path) {piece : List Char} (hpiece : '/' ∉ piece)
    (hne : trunk path ≠ [] ∨ piece ≠ []) :
    laid (trunk path ++ '/' :: piece) = laid path ++ [piece] := by
  rw [laid, laid]
  rcases trunk_cases h with htrunk | ⟨c, rest, htrunk, -⟩
  · rw [htrunk] at hne ⊢
    rw [List.nil_append, trunk,
      if_neg fun heq => (hne.resolve_left (· rfl)) (List.cons.inj heq).2]
    exact segments_root hpiece
  · rw [htrunk, trunk, if_neg (by simp)]
    exact segments_cons_append _ hpiece

/-! ### Extended paths -/

/-- What is up to the last slash starts the path. -/
theorem isPrefix_upToSlash (path : List Char) : upToSlash path <+: path := by
  rw [upToSlash, ← List.reverse_suffix, List.reverse_reverse]
  exact List.dropWhile_suffix _

/-- A path with a slash has one up to its last slash. -/
theorem slash_mem_upToSlash (h : '/' ∈ path) : '/' ∈ upToSlash path := by
  rw [← List.mem_reverse, ← List.takeWhile_append_dropWhile (p := (· != '/')) (l := path.reverse),
    List.mem_append] at h
  rw [upToSlash, List.mem_reverse]
  exact h.resolve_left fun hmem => absurd (List.mem_takeWhile_imp hmem) (by simp)

/-- A path without its last segment starts the path, and still has a slash. -/
theorem isPrefix_shorten (kind : SchemeKind) (path : List Char) :
    shorten kind path <+: path ∧ ('/' ∈ path → '/' ∈ shorten kind path) := by
  have hcut : (if lastSlashCanGo path then path.dropLast else path) <+: path ∧
      ('/' ∈ path → '/' ∈ if lastSlashCanGo path then path.dropLast else path) := by
    split
    · rename_i hgo
      rw [lastSlashCanGo, Bool.and_eq_true, Bool.and_eq_true, List.contains_iff_mem] at hgo
      exact ⟨List.dropLast_prefix path, fun _ => hgo.1.2⟩
    · exact ⟨List.prefix_rfl, id⟩
  rw [shorten]
  generalize (if lastSlashCanGo path then path.dropLast else path) = cut at hcut
  split
  · exact hcut
  · exact ⟨(isPrefix_upToSlash cut).trans hcut.1, fun h => slash_mem_upToSlash (hcut.2 h)⟩

/-- A path that ends in a slash needs no further slash. -/
theorem withSlash_concat (path : List Char) : withSlash (path ++ ['/']) = path ++ ['/'] := by
  rw [withSlash, if_pos List.getLast?_concat]

/-- A plain segment is appended behind the trunk. -/
theorem extend_eq {segment : String} (hdot : segment ≠ ".") (hdots : segment ≠ "..")
    (h : IsRooted kind path) :
    extend kind path segment = normalizeStart kind
      (pushSegment kind (trunk path ++ ['/']) (encodeSegment kind segment) false) := by
  have hstart : (if path.length = 1 then path else path ++ ['/']) = trunk path ++ ['/'] := by
    cases h with
    | empty other => rfl
    | slash one =>
      rename_i rest
      cases rest with
      | nil => rfl
      | cons c rest => simp [trunk]
  rw [extend, if_neg (by simp [hdot, hdots]), hstart]

/-- A segment that means a place takes away from the path and the slash behind it. -/
theorem pushSegment_of_isDots (kind : SchemeKind) (path : List Char) {written : List Char}
    (h : isDots written = true) :
    pushSegment kind (trunk path ++ ['/']) written false <+: trunk path ++ ['/'] ∧
      '/' ∈ pushSegment kind (trunk path ++ ['/']) written false := by
  rw [pushSegment]
  by_cases habove : isDoubleDot written = true
  · rw [if_pos habove, if_neg (by simp)]
    obtain ⟨hstart, hslash⟩ := isPrefix_shorten kind (trunk path ++ ['/'])
    exact ⟨hstart, hslash (by simp)⟩
  · rw [isDots, Bool.or_eq_true] at h
    rw [if_neg habove, if_pos (h.resolve_right habove), withSlash_concat]
    exact ⟨List.prefix_rfl, by simp⟩

/-- A segment that means no place is appended once it is settled. -/
theorem pushSegment_of_not_isDots {written : List Char} (h : isDots written = false) :
    pushSegment kind (trunk path ++ ['/']) written false =
      trunk path ++ '/' :: settled kind (trunk path).isEmpty written := by
  rw [isDots, Bool.or_eq_false_iff] at h
  have hroot : decide (trunk path ++ ['/'] = ['/']) = (trunk path).isEmpty := by
    cases trunk path <;> simp
  rw [pushSegment, if_neg (by simp [h.2]), if_neg (by simp [h.1]), settled, hroot,
    List.append_assoc]
  simp

/-- What became of a segment on the way from a path to a longer one:

- `lost`: it is not kept, and there are no more segments than before;
- `laid`: there is one more segment behind the others, and that decodes to the appended one if the
  appended one is kept. -/
inductive Lays (path longer : List Char) (segment : String) : Bool → Prop where
  | lost (short : (laid longer).length ≤ (laid path).length) : Lays path longer segment false
  | laid {piece : List Char} {kept : Bool} (behind : laid longer = laid path ++ [piece])
      (decoded : percentDecode piece = bytes segment.toList ↔ kept = true) :
      Lays path longer segment kept

/-- A piece behind the trunk is laid down, unless there is nothing and the piece is empty. -/
theorem lays_append (h : IsRooted kind path) {piece : List Char} (hpiece : '/' ∉ piece)
    {segment : String} (hne : segment ≠ "") {kept : Bool}
    (hkept : percentDecode piece = bytes segment.toList ↔ kept = true) :
    Lays path (trunk path ++ '/' :: piece) segment kept := by
  by_cases hnone : trunk path = [] ∧ piece = []
  · have hlost : kept = false := by
      rw [Bool.eq_false_iff, ne_eq, ← hkept, hnone.2]
      exact percentDecode_nil_ne hne
    rw [hlost, hnone.1, hnone.2]
    exact .lost (Nat.zero_le _)
  · exact .laid (laid_append h hpiece (not_and_or.mp hnone)) hkept

/-- A segment that means a place is lost, or an empty one is laid down in its stead. -/
theorem lays_of_isPrefix (h : IsRooted kind path) {segment : String} (hne : segment ≠ "")
    {longer : List Char} (hstart : longer <+: trunk path ++ ['/']) :
    Lays path longer segment false := by
  rcases List.prefix_concat_iff.mp hstart with heq | hshort
  · rw [heq]
    exact lays_append h (by simp) hne (iff_of_false (percentDecode_nil_ne hne) (by simp))
  · exact .lost (length_segments_le ((isPrefix_trunk _).trans hshort))

/-- A path with one more segment, which is not the empty one, can be extended, and the segment is
lost or laid down. -/
theorem lays_extend (h : IsRooted kind path) {segment : String} (hne : segment ≠ "") :
    IsRooted kind (extend kind path segment) ∧
      Lays path (extend kind path segment) segment (isKept kind (laid path).isEmpty segment) := by
  by_cases hplace : segment = "." ∨ segment = ".."
  · have hskip : extend kind path segment = path := by
      rw [extend, if_pos (by simpa using hplace)]
    have hlost : isKept kind (laid path).isEmpty segment = false := by
      rcases hplace with rfl | rfl <;> simp [isKept]
    rw [hskip, hlost]
    exact ⟨h, .lost (Nat.le_refl _)⟩
  obtain ⟨hdot, hdots⟩ := not_or.mp hplace
  rw [extend_eq hdot hdots h, isEmpty_laid h]
  have hkept := isKept_iff kind (trunk path).isEmpty hdot hdots
  -- Tabs may have been dropped, so that the written segment means a place after all.
  cases hdotted : isDots (encodeSegment kind segment) with
  | true =>
    obtain ⟨hstart, hslash⟩ := pushSegment_of_isDots kind path hdotted
    have hrooted := isRooted_of_isPrefix (isRooted_append h (by simp))
      (List.ne_nil_of_mem hslash) hstart
    have hlost : isKept kind (trunk path).isEmpty segment = false := by
      rw [Bool.eq_false_iff, ne_eq, hkept, hdotted]
      simp
    rw [normalizeStart_eq_self hrooted, hlost]
    exact ⟨hrooted, lays_of_isPrefix h hne hstart⟩
  | false =>
    have hpiece := slash_not_mem_settled kind (trunk path).isEmpty
      (slash_not_mem_encodeSegment kind segment)
    have hrooted := isRooted_append h hpiece
    rw [pushSegment_of_not_isDots hdotted, normalizeStart_eq_self hrooted]
    refine ⟨hrooted, lays_append h hpiece hne ?_⟩
    rw [hkept, hdotted]
    simp

/-- A longer path ends in the segment, behind no fewer segments than there were, if those are the
segments that were there and the segment is kept. -/
theorem laid_eq_concat_iff {longer : List Char} {segment : String} {kept : Bool}
    (h : Lays path longer segment kept) {before : List (List UInt8)}
    (hlength : (laid path).length ≤ before.length) :
    (laid longer).length ≤ before.length + 1 ∧
      ((laid longer).map percentDecode = before ++ [bytes segment.toList] ↔
        (laid path).map percentDecode = before ∧ kept = true) := by
  cases h with
  | lost short =>
    refine ⟨by omega, iff_of_false (fun heq => ?_) (by simp)⟩
    have htotal := congrArg List.length heq
    rw [List.length_map, List.length_append, List.length_singleton] at htotal
    omega
  | laid behind decoded =>
    rw [behind, List.length_append, List.length_singleton, List.map_append, List.map_singleton,
      List.append_singleton_inj, decoded]
    exact ⟨by omega, Iff.rfl⟩

/-- A path with several more segments, none of them empty, can be extended. It has no more segments
than there were and were appended, and it has exactly those, once they are decoded, if all that
were appended are kept. -/
theorem laid_foldl_extend_iff (h : IsRooted kind path) {appended : List String}
    (hne : "" ∉ appended) :
    IsRooted kind (appended.foldl (extend kind) path) ∧
      (laid (appended.foldl (extend kind) path)).length ≤
        (laid path).length + appended.length ∧
      ((laid (appended.foldl (extend kind) path)).map percentDecode =
          (laid path).map percentDecode ++ appended.map (fun s => bytes s.toList) ↔
        areKept kind (laid path).isEmpty appended = true) := by
  -- The last segment is the last that is appended, so the induction is from the end.
  induction appended using List.reverseRecOn with
  | nil => simp [h, areKept]
  | append_singleton appended last ih =>
    rw [List.mem_append, not_or, List.mem_singleton] at hne
    obtain ⟨hrooted, hlength, hiff⟩ := ih hne.1
    rw [List.foldl_append, List.foldl_cons, List.foldl_nil]
    generalize appended.foldl (extend kind) path = before at hrooted hlength hiff
    have htop : areKept kind (laid path).isEmpty appended = true →
        (laid before).isEmpty = ((laid path).isEmpty && appended.isEmpty) := by
      intro hkept
      have hempty := congrArg List.isEmpty (hiff.mpr hkept)
      rw [List.isEmpty_map] at hempty
      rw [hempty, Bool.eq_iff_iff]
      simp
    have hlength : (laid before).length ≤
        ((laid path).map percentDecode ++ appended.map fun s => bytes s.toList).length := by
      simpa using hlength
    obtain ⟨hextended, hlays⟩ := lays_extend hrooted (Ne.symm hne.2)
    obtain ⟨htotal, hlast⟩ := laid_eq_concat_iff hlays hlength
    refine ⟨hextended, by simpa [Nat.add_assoc] using htotal, ?_⟩
    rw [areKept_concat, Bool.and_eq_true, List.map_append, ← List.append_assoc,
      List.map_singleton, hlast, hiff]
    exact and_congr_right fun hkept => by rw [htop hkept]

/-! ### A path and segments behind it -/

/-- The segments of a path without an empty one at its end. -/
def stem (path : List Char) : List (List Char) :=
  if (segments path).getLast? = some [] then (segments path).dropLast else segments path

/-- What is there before segments are appended are the segments without an empty one at the end,
except that the path of two slashes loses both of its empty segments. -/
theorem laid_popIfEmpty (h : IsRooted kind path) :
    IsRooted kind (popIfEmpty path) ∧
      (path ≠ ['/', '/'] → laid (popIfEmpty path) = stem path) := by
  rw [popIfEmpty, stem]
  split
  · rename_i hends
    rw [Bool.and_eq_true, decide_eq_true_eq, beq_iff_eq] at hends
    obtain ⟨start, rfl⟩ := List.getLast?_eq_some_iff.mp hends.2
    have hne : start ≠ [] := by
      rintro rfl
      exact absurd hends.1 (by simp)
    have hrooted := isRooted_of_isPrefix h hne (List.prefix_append _ _)
    rw [List.dropLast_concat]
    refine ⟨hrooted, fun hslashes => ?_⟩
    cases hrooted with
    | empty other => exact absurd rfl hne
    | slash one =>
      rename_i rest
      have hroot : '/' :: rest ≠ ['/'] := by
        rintro heq
        exact hslashes (congrArg (· ++ ['/']) heq)
      rw [segments_cons_append rest (by simp), List.getLast?_concat, if_pos rfl,
        List.dropLast_concat, laid, trunk, if_neg hroot]
  · rename_i hends
    rw [Bool.and_eq_true, decide_eq_true_eq, beq_iff_eq] at hends
    refine ⟨h, ?_⟩
    cases h with
    | empty other => exact fun _ => rfl
    | slash one =>
      rename_i rest
      intro _
      rcases List.eq_nil_or_concat' rest with rfl | ⟨start, last, rfl⟩
      · rfl
      · have hlast : (last == '/') = false := by
          rw [beq_eq_false_iff_ne]
          rintro rfl
          exact hends ⟨by simp, List.getLast?_concat (l := '/' :: start)⟩
        -- The last segment is not empty, since the path does not end in a slash.
        rw [laid, trunk, if_neg (by simp), if_neg]
        exact Text.getLast?_splitOn_concat (p := (· == '/')) hlast start

/-- Behind segments that are not empty it makes no difference whether the root has a segment. -/
theorem segments_eq_append_iff {before : List (List UInt8)} {appended : List String}
    (hne : "" ∉ appended) (hsome : appended ≠ []) :
    (segments path).map percentDecode = before ++ appended.map (fun s => bytes s.toList) ↔
      (laid path).map percentDecode = before ++ appended.map (fun s => bytes s.toList) := by
  obtain ⟨start, last, rfl⟩ := (List.eq_nil_or_concat' appended).resolve_left hsome
  have hlast : last ≠ "" := by
    rintro rfl
    exact hne (by simp)
  by_cases hroot : path = ['/']
  · rw [hroot, List.map_append, ← List.append_assoc]
    refine iff_of_false (fun h => ?_) (fun h => ?_)
    · have hempty := congrArg List.getLast? h
      rw [List.map_singleton, List.getLast?_concat] at hempty
      exact percentDecode_nil_ne hlast (Option.some.inj hempty)
    · rw [show laid ['/'] = [] from rfl] at h
      exact absurd h.symm (by simp)
  · rw [laid, trunk, if_neg hroot]

/-- Segments that are not empty stand at the end of the path, behind its own, if the path is not
that of two slashes and they are all kept. -/
theorem segments_extendAll_iff (h : IsRooted kind path) {appended : List String}
    (hne : "" ∉ appended) (hsome : appended ≠ []) :
    (segments (extendAll kind path appended)).map percentDecode =
        (stem path).map percentDecode ++ appended.map (fun s => bytes s.toList) ↔
      path ≠ ['/', '/'] ∧ areKept kind (stem path).isEmpty appended = true := by
  obtain ⟨hrooted, hlaid⟩ := laid_popIfEmpty h
  obtain ⟨-, hlength, hiff⟩ := laid_foldl_extend_iff hrooted hne
  rw [segments_eq_append_iff hne hsome, extendAll]
  by_cases hslashes : path = ['/', '/']
  · subst hslashes
    refine iff_of_false (fun heq => ?_) (fun hkept => hkept.1 rfl)
    have htotal := congrArg List.length heq
    have hstem : (stem ['/', '/']).length = 1 := rfl
    have hnone : (laid (popIfEmpty ['/', '/'])).length = 0 := rfl
    rw [List.length_map, List.length_append, List.length_map, List.length_map] at htotal
    omega
  · rw [← hlaid hslashes, hiff]
    exact (and_iff_right hslashes).symm

end RecordStore.Url
