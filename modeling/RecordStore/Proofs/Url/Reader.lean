import RecordStore.Proofs.Outcome
import RecordStore.Proofs.Url.Path
import RecordStore.Url.Basic

/-!
# `RecordStore.Proofs.Url.Reader`: the path of a URL that was read

Paths are read segment by segment, and no segment takes away the slash that they start with. So the
path of every URL that was read is one that can be extended, if other URLs can be built upon the
URL at all.

* `isRooted_parsePath`: the path that several written segments make.
* `isRooted_of_ofText?`: the path of a URL that was read.
-/

set_option autoImplicit false

namespace RecordStore.Url

variable {kind : SchemeKind} {path : List Char}

/-! ### Written segments -/

/-- What starts a path that starts with a slash does so too, if it is not empty. -/
theorem head?_of_isPrefix {start : List Char} (h : path.head? = some '/') (hne : start ≠ [])
    (hstart : start <+: path) : start.head? = some '/' := by
  obtain ⟨c, rest, rfl⟩ := List.exists_cons_of_ne_nil hne
  obtain ⟨behind, rfl⟩ := hstart
  exact h

/-- What is behind a path that starts with a slash does not change that. -/
theorem head?_append (h : path.head? = some '/') (behind : List Char) :
    (path ++ behind).head? = some '/' := by
  rw [List.head?_append, h]
  rfl

/-- A path without its last segment starts with a slash. -/
theorem head?_shorten (h : path.head? = some '/') : (shorten kind path).head? = some '/' := by
  obtain ⟨hstart, hslash⟩ := isPrefix_shorten kind path
  exact head?_of_isPrefix h (List.ne_nil_of_mem (hslash (List.mem_of_head? h))) hstart

/-- A path with a slash at its end starts with a slash. -/
theorem head?_withSlash (h : path.head? = some '/') : (withSlash path).head? = some '/' := by
  rw [withSlash]
  split
  · exact h
  · exact head?_append h _

/-- A path with one more segment starts with a slash. -/
theorem head?_pushSegment (h : path.head? = some '/') (written : List Char) (slash : Bool) :
    (pushSegment kind path written slash).head? = some '/' := by
  rw [pushSegment]
  split
  · split
    · exact head?_withSlash (head?_shorten h)
    · exact head?_shorten h
  · split
    · exact head?_withSlash h
    · rw [List.append_assoc]
      exact head?_append h _

/-- A path with several more segments starts with a slash. -/
theorem head?_pushSegments (h : path.head? = some '/') (written : List (List Char)) :
    (pushSegments kind path written).head? = some '/' := by
  -- The induction goes over the segments as they are appended, from the front.
  induction written generalizing path with
  | nil => exact h
  | cons first rest ih =>
    cases rest with
    | nil => exact head?_pushSegment h first false
    | cons next rest => exact ih (head?_pushSegment h first true)

/-- A path that starts with a slash can be extended once its start is made right. -/
theorem isRooted_normalizeStart (h : path.head? = some '/') :
    IsRooted kind (normalizeStart kind path) := by
  rw [normalizeStart]
  split
  · refine .slash fun _ hhead => ?_
    have hdropped := List.head?_dropWhile_not (· == '/') path
    rw [hhead] at hdropped
    cases hdropped
  · rename_i hother
    obtain ⟨c, rest, rfl⟩ := List.exists_cons_of_ne_nil (List.ne_nil_of_mem (List.mem_of_head? h))
    cases h
    exact .slash fun hfile => absurd hfile hother

/-- Behind a slash any segments make a path that can be extended. -/
theorem isRooted_parsePath (s : List Char) : IsRooted kind (parsePath kind ['/'] s) :=
  isRooted_normalizeStart (head?_pushSegments rfl _)

/-- The path of a special scheme can be extended. -/
theorem isRooted_specialPath (s : List Char) : IsRooted kind (specialPath kind s) := by
  cases s with
  | nil => exact isRooted_parsePath []
  | cons c rest => exact isRooted_parsePath _

/-- An empty segment behind nothing leaves its slash, if it has one. -/
theorem pushSegment_nil (kind : SchemeKind) (slash : Bool) :
    pushSegment kind [] [] slash = if slash then ['/'] else [] := by
  simp [pushSegment, show isDoubleDot [] = false from rfl, show isSingleDot [] = false from rfl]

/-- What starts with a slash, or is empty, makes a path behind nothing that can be extended. -/
theorem isRooted_parsePath_nil (hother : kind ≠ .file) {s : List Char}
    (h : ∀ c ∈ s.head?, isSlash kind c = true) : IsRooted kind (parsePath kind [] s) := by
  rw [parsePath]
  cases s with
  | nil =>
    show IsRooted kind (normalizeStart kind (pushSegment kind [] [] false))
    rw [pushSegment_nil, normalizeStart, if_neg hother]
    exact .empty hother
  | cons c rest =>
    obtain ⟨piece, pieces, hpieces⟩ :=
      List.exists_cons_of_ne_nil (Text.splitOn_ne_nil (isSlash kind) rest)
    rw [Text.splitOn, if_pos (h c rfl), hpieces, List.map_cons, List.map_cons, pushSegments,
      show percentEncode inPathSet [] = [] from rfl, pushSegment_nil]
    exact isRooted_normalizeStart (head?_pushSegments rfl _)

/-! ### Whole URLs -/

/-- The path of a file can be extended. -/
theorem isRooted_of_fileParts? {s : List Char} {a : Authority}
    (h : fileParts? s = .ok (a, path)) : IsRooted .file path := by
  unfold fileParts? at h
  dsimp only at h
  split at h
  · split at h
    · cases h
      exact isRooted_specialPath _
    · obtain ⟨host, -, h⟩ := bind_eq_ok_iff.mp h
      cases h
      exact isRooted_specialPath _
  · cases h
    exact isRooted_specialPath _

/-- What stands before a URL's query has a path that can be extended, if there is an authority or
the path starts with a slash. -/
theorem isRooted_of_parts? {more : Bool} {s : List Char} {a? : Option Authority}
    (h : parts? kind more s = .ok (a?, path)) (hroot : a? = none → path.head? = some '/') :
    IsRooted kind path := by
  cases kind with
  | file =>
    cases hparts : fileParts? s with
    | error e =>
      rw [parts?, hparts] at h
      cases h
    | ok parts =>
      rw [parts?, hparts] at h
      cases h
      exact isRooted_of_fileParts? hparts
  | special port =>
    obtain ⟨a, -, h⟩ := bind_eq_ok_iff.mp h
    cases h
    exact isRooted_specialPath _
  | plain =>
    have hrootless : ∀ path, path.head? = some '/' → IsRooted .plain path :=
      fun path hpath => isRooted_normalizeStart hpath
    unfold parts? at h
    dsimp only at h
    split at h
    · rename_i rest
      obtain ⟨a, -, h⟩ := bind_eq_ok_iff.mp h
      cases h
      refine isRooted_parsePath_nil (by decide) fun c hc => ?_
      have hslash := List.head?_dropWhile_not (fun c => !isSlash .plain c) rest
      rw [show (rest.dropWhile fun c => !isSlash .plain c).head? = some c from hc] at hslash
      simpa using hslash
    · cases h
      exact isRooted_parsePath _
    · cases h
      exact hrootless _ (hroot rfl)

/-- The path of a URL that was read can be extended, if other URLs can be built upon the URL. -/
theorem isRooted_of_ofText? {s : String} {u : Url} (h : Url.ofText? s = .ok u)
    (hroot : u.isRootless = false) : IsRooted u.kind u.path := by
  rw [Url.ofText?] at h
  split at h
  · cases h
  · obtain ⟨parts, hparts, h⟩ := bind_eq_ok_iff.mp h
    cases h
    refine isRooted_of_parts? hparts fun hnone => ?_
    simpa [Url.isRootless, hnone] using hroot

end RecordStore.Url
