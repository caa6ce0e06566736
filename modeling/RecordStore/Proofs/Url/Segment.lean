import RecordStore.Proofs.Url.Percent

/-!
# `RecordStore.Proofs.Url.Segment`: plain segments that are kept

A plain segment is written, and then settles behind a path. `isKept` singles out the segments that
come through this as they are: not the ones that mean a place, nor the ones with tabs or line ends
in them, nor a drive letter with a bar at the root of the files.

* `percentDecode_encodeSegment`: what the written form of a segment decodes to.
* `settled_cases`: what settling changes.
* `isKept_iff`: the kept segments are those whose settled form decodes to them.
-/

set_option autoImplicit false

namespace RecordStore.Url

variable {kind : SchemeKind}

/-! ### Kept segments -/

/-- A letter and a bar, which the root of the files takes for a drive letter. -/
def isBarredDriveLetter : List Char → Bool
  | [a, b] => a.isAlpha && b == '|'
  | _ => false

/-- A plain segment is appended as it is: it means no place, has no tabs and line ends, and is no
drive letter with a bar at the root of the files; `top` says that the path is a root. -/
def isKept (kind : SchemeKind) (top : Bool) (segment : String) : Bool :=
  segment ≠ "." && segment ≠ ".." && segment.toList.all (fun c => !isDropped c) &&
    !(kind = .file && top && isBarredDriveLetter segment.toList)

/-- The segments are all appended as they are, one after the other. -/
def areKept (kind : SchemeKind) (top : Bool) : List String → Bool
  | [] => true
  | segment :: rest => isKept kind top segment && areKept kind false rest

/-- Behind kept segments a further one is kept as it would be below the root. -/
theorem areKept_concat (kind : SchemeKind) (top : Bool) (segments : List String) (last : String) :
    areKept kind top (segments ++ [last]) =
      (areKept kind top segments && isKept kind (top && segments.isEmpty) last) := by
  induction segments generalizing top with
  | nil => simp [areKept]
  | cons segment rest ih => simp [areKept, ih, Bool.and_assoc]

/-! ### Written segments -/

/-- The written form of a segment decodes to what of the segment is not dropped. -/
theorem percentDecode_encodeSegment (kind : SchemeKind) (segment : String) :
    percentDecode (encodeSegment kind segment) =
      bytes (segment.toList.filter fun c => !isDropped c) := by
  rw [encodeSegment]
  cases kind.isSpecial with
  | true => exact percentDecode_percentEncode (by decide) _
  | false => exact percentDecode_percentEncode (by decide) _

/-- The written form of a segment has no slash. -/
theorem slash_not_mem_encodeSegment (kind : SchemeKind) (segment : String) :
    '/' ∉ encodeSegment kind segment := by
  rw [encodeSegment]
  cases kind.isSpecial with
  | true => exact slash_not_mem_percentEncode (by decide) _
  | false => exact slash_not_mem_percentEncode (by decide) _

/-- A written form that means the place itself or the place above. -/
def isDots (written : List Char) : Bool :=
  isSingleDot written || isDoubleDot written

/-- The form in which a written segment is appended; `top` says that the path is a root. -/
def settled (kind : SchemeKind) (top : Bool) (written : List Char) : List Char :=
  if kind = .file && top && isDriveLetter written then written.take 1 ++ [':'] else written

/-- A settled segment has no slash if the written one has none. -/
theorem slash_not_mem_settled (kind : SchemeKind) (top : Bool) {written : List Char}
    (h : '/' ∉ written) :
    '/' ∉ settled kind top written := by
  rw [settled]
  split
  · intro hmem
    rcases List.mem_append.mp hmem with hmem | hmem
    · exact h (List.mem_of_mem_take hmem)
    · exact absurd (List.mem_singleton.mp hmem) (by decide)
  · exact h

/-- What settles at a root is as it was, unless it is a drive letter among files. -/
theorem settled_cases (kind : SchemeKind) (top : Bool) (written : List Char) :
    (settled kind top written = written ∧
        ¬(kind = .file ∧ top = true ∧ isDriveLetter written = true)) ∨
      ∃ a b, kind = .file ∧ top = true ∧ written = [a, b] ∧ a.isAlpha = true ∧
        (b = ':' ∨ b = '|') ∧ settled kind top written = [a, ':'] := by
  rw [settled]
  split
  · rename_i hdrive
    rw [Bool.and_eq_true, Bool.and_eq_true, decide_eq_true_eq] at hdrive
    obtain ⟨⟨hfile, htop⟩, hdrive⟩ := hdrive
    match written, hdrive with
    | [a, b], hdrive =>
      rw [isDriveLetter, Bool.and_eq_true, Bool.or_eq_true, beq_iff_eq, beq_iff_eq] at hdrive
      exact .inr ⟨a, b, hfile, htop, rfl, hdrive.1, hdrive.2, rfl⟩
  · rename_i hdrive
    rw [Bool.and_eq_true, Bool.and_eq_true, decide_eq_true_eq, and_assoc] at hdrive
    exact .inl ⟨rfl, hdrive⟩

/-- A letter is one of the basic block. -/
theorem toNat_lt_of_isAlpha {c : Char} (h : c.isAlpha = true) : c.toNat < 123 := by
  unfold Char.isAlpha Char.isUpper Char.isLower at h
  rw [Bool.or_eq_true, Bool.and_eq_true, decide_eq_true_eq, decide_eq_true_eq] at h
  rcases h with h | h
  · have hhigh : c.toNat ≤ 90 := h.2
    omega
  · have hhigh : c.toNat ≤ 122 := of_decide_eq_true h.2
    omega

/-- A letter needs no encoding and is not dropped. -/
theorem plain_of_isAlpha {c : Char} (h : c.isAlpha = true) :
    inSpecialSegmentSet c = false ∧ isDropped c = false := by
  have hall : ∀ n < 123, (Char.ofNat n).isAlpha = true →
      inSpecialSegmentSet (Char.ofNat n) = false ∧ isDropped (Char.ofNat n) = false := by
    decide
  have hc := hall c.toNat (toNat_lt_of_isAlpha h)
  rw [Char.ofNat_toNat] at hc
  exact hc h

/-- A letter is no percent sign. -/
theorem ne_percent_of_isAlpha {c : Char} (h : c.isAlpha = true) : c ≠ '%' := by
  rintro rfl
  cases h

/-- A drive letter decodes to itself. -/
theorem percentDecode_driveLetter {a b : Char} (ha : a.isAlpha = true) (hb : b = ':' ∨ b = '|') :
    percentDecode [a, b] = bytes [a, b] := by
  have hpercent : b ≠ '%' := by rcases hb with rfl | rfl <;> decide
  rw [percentDecode_cons (ne_percent_of_isAlpha ha), percentDecode_cons hpercent]
  rfl

/-- Among files a drive letter with a bar is written as it is. -/
theorem encodeSegment_of_isBarredDriveLetter {segment : String}
    (h : isBarredDriveLetter segment.toList = true) :
    isDriveLetter (encodeSegment .file segment) = true := by
  match hsegment : segment.toList, h with
  | [a, b], h =>
    rw [isBarredDriveLetter, Bool.and_eq_true, beq_iff_eq] at h
    obtain ⟨ha, rfl⟩ := h
    obtain ⟨hset, hdrop⟩ := plain_of_isAlpha ha
    have hbar : inSpecialSegmentSet '|' = false := rfl
    have hwritten : encodeSegment .file segment = [a, '|'] := by
      simp [encodeSegment, SchemeKind.isSpecial, hsegment, percentEncode, encodeChar, hset, hdrop,
        hbar, show isDropped '|' = false from rfl]
    rw [hwritten, isDriveLetter, ha]
    rfl

/-- If nothing is dropped and the segment means no place, its written form means none either. -/
theorem isDots_encodeSegment {segment : String} (hdot : segment ≠ ".") (hdots : segment ≠ "..")
    (hplain : (segment.toList.filter fun c => !isDropped c) = segment.toList) :
    isDots (encodeSegment kind segment) = false := by
  have hdecode := percentDecode_encodeSegment kind segment
  rw [hplain] at hdecode
  rw [isDots, Bool.or_eq_false_iff, Bool.eq_false_iff, Bool.eq_false_iff]
  constructor
  · intro h
    rw [percentDecode_of_isSingleDot h, bytes_inj] at hdecode
    exact hdot (String.toList_inj.mp hdecode.symm)
  · intro h
    rw [percentDecode_of_isDoubleDot h, bytes_inj] at hdecode
    exact hdots (String.toList_inj.mp hdecode.symm)

/-- A segment that means no place is kept if its written form means none and is appended in a form
that decodes to the segment. -/
theorem isKept_iff (kind : SchemeKind) (top : Bool) {segment : String} (hdot : segment ≠ ".")
    (hdots : segment ≠ "..") :
    isKept kind top segment = true ↔ isDots (encodeSegment kind segment) = false ∧
      percentDecode (settled kind top (encodeSegment kind segment)) = bytes segment.toList := by
  have hkept : isKept kind top segment = true ↔
      (segment.toList.filter fun c => !isDropped c) = segment.toList ∧
        ¬(kind = .file ∧ top = true ∧ isBarredDriveLetter segment.toList = true) := by
    simp [isKept, hdot, hdots, List.filter_eq_self, Decidable.imp_iff_not_or, or_assoc]
  rw [hkept]
  have hdecode := percentDecode_encodeSegment kind segment
  rcases settled_cases kind top (encodeSegment kind segment) with
    ⟨hsettled, hdrive⟩ | ⟨a, b, hfile, htop, hwritten, ha, hb, hsettled⟩
  · rw [hsettled, hdecode, bytes_inj]
    constructor
    · exact fun h => ⟨isDots_encodeSegment hdot hdots h.1, h.1⟩
    · refine fun h => ⟨h.2, ?_⟩
      rintro ⟨rfl, htop, hbarred⟩
      exact hdrive ⟨rfl, htop, encodeSegment_of_isBarredDriveLetter hbarred⟩
  · -- A drive letter is appended with a colon.
    rw [hsettled, percentDecode_driveLetter ha (.inl rfl), bytes_inj]
    rw [hwritten, percentDecode_driveLetter ha hb, bytes_inj] at hdecode
    constructor
    · rintro ⟨hplain, hbarred⟩
      refine ⟨isDots_encodeSegment hdot hdots hplain, ?_⟩
      rw [← hplain, ← hdecode]
      rcases hb with rfl | rfl
      · rfl
      · refine absurd ⟨hfile, htop, ?_⟩ hbarred
        rw [← hplain, ← hdecode, isBarredDriveLetter, ha]
        rfl
    · rintro ⟨-, hsegment⟩
      rw [← hsegment]
      refine ⟨?_, fun h => absurd h.2.2 (by simp [isBarredDriveLetter])⟩
      simp [(plain_of_isAlpha ha).2, show isDropped ':' = false from rfl]

/-- Nothing but the empty text has an empty UTF-8 form. -/
theorem percentDecode_nil_ne {segment : String} (hne : segment ≠ "") :
    percentDecode [] ≠ bytes segment.toList := by
  intro h
  have h : bytes [] = bytes segment.toList := h
  exact hne (String.toList_eq_nil_iff.mp (bytes_inj.mp h).symm)

end RecordStore.Url
