import RecordStore.Url.Path

/-!
# `RecordStore.Proofs.Url.Percent`: percent-encoding reads back

What is encoded as one segment of a path stands in it as one segment, and decodes to the UTF-8 form
of what was encoded, as long as the set of characters to encode holds the percent sign. Whatever
means the place itself or the place above decodes to one or two dots.

* `bytes_inj`: texts with one UTF-8 form are one text.
* `percentDecode_percentEncode`: what is encoded decodes.
* `slash_not_mem_percentEncode`: an encoded segment has no slash.
* `percentDecode_of_isSingleDot`, `percentDecode_of_isDoubleDot`: dots, plain or encoded.
-/

set_option autoImplicit false

namespace RecordStore.Url

open RecordStore.Text (hexValue? upperHexDigit hexValue?_upperHexDigit)

/-- The UTF-8 form of a text. -/
def bytes (s : List Char) : List UInt8 :=
  s.flatMap String.utf8EncodeChar

/-- Texts with one UTF-8 form are one text. -/
theorem bytes_inj {s t : List Char} : bytes s = bytes t ↔ s = t := by
  constructor
  · intro h
    have hbytes : (String.ofList s).toByteArray = (String.ofList t).toByteArray := by
      rw [String.toByteArray_ofList, String.toByteArray_ofList]
      exact congrArg List.toByteArray h
    exact String.ofList_inj.mp (String.toByteArray_inj.mp hbytes)
  · exact fun h => congrArg bytes h

/-! ### Decoding what was encoded -/

/-- A character that is no percent sign stands for itself. -/
theorem percentDecode_cons {c : Char} (h : c ≠ '%') (rest : List Char) :
    percentDecode (c :: rest) = String.utf8EncodeChar c ++ percentDecode rest := by
  rw [percentDecode]
  exact fun a b rest heq => absurd heq h

/-- An encoded byte stands for the byte. -/
theorem percentDecode_percentByte (b : UInt8) (rest : List Char) :
    percentDecode (percentByte b ++ rest) = b :: percentDecode rest := by
  have hhigh : b.toNat / 16 < 16 := by
    have := b.toNat_lt
    omega
  have hlow : b.toNat % 16 < 16 := Nat.mod_lt _ (by decide)
  have hbyte : b.toNat / 16 * 16 + b.toNat % 16 = b.toNat := by omega
  show percentDecode ('%' :: upperHexDigit _ :: upperHexDigit _ :: rest) = _
  simp only [percentDecode, hexValue?_upperHexDigit _ hhigh, hexValue?_upperHexDigit _ hlow, hbyte,
    UInt8.ofNat_toNat]

/-- Encoded bytes stand for the bytes. -/
theorem percentDecode_percentBytes (bs : List UInt8) (rest : List Char) :
    percentDecode (bs.flatMap percentByte ++ rest) = bs ++ percentDecode rest := by
  induction bs with
  | nil => rfl
  | cons b bs ih =>
    rw [List.flatMap_cons, List.append_assoc, percentDecode_percentByte, ih, List.cons_append]

variable {set : Char → Bool}

/-- What is encoded decodes to its UTF-8 form. -/
theorem percentDecode_percentEncode (hset : set '%' = true) (s : List Char) :
    percentDecode (percentEncode set s) = bytes s := by
  induction s with
  | nil => rfl
  | cons c rest ih =>
    rw [percentEncode] at ih
    rw [percentEncode, List.flatMap_cons, encodeChar, bytes, List.flatMap_cons, ← bytes, ← ih]
    cases hc : set c with
    | true =>
      rw [if_pos rfl]
      exact percentDecode_percentBytes _ _
    | false =>
      rw [if_neg (by simp)]
      refine percentDecode_cons ?_ _
      rintro rfl
      rw [hset] at hc
      cases hc

/-- No digit is a slash. -/
theorem upperHexDigit_ne_slash : ∀ n < 16, upperHexDigit n ≠ '/' := by
  decide

/-- An encoded segment has no slash. -/
theorem slash_not_mem_percentEncode (hset : set '/' = true) (s : List Char) :
    '/' ∉ percentEncode set s := by
  intro h
  obtain ⟨c, -, hmem⟩ := List.mem_flatMap.mp h
  rw [encodeChar] at hmem
  split at hmem
  · obtain ⟨b, -, hmem⟩ := List.mem_flatMap.mp hmem
    have hhigh : b.toNat / 16 < 16 := by
      have := b.toNat_lt
      omega
    rcases List.mem_cons.mp hmem with heq | hmem
    · exact absurd heq (by decide)
    · rcases List.mem_cons.mp hmem with heq | hmem
      · exact upperHexDigit_ne_slash _ hhigh heq.symm
      · exact upperHexDigit_ne_slash _ (Nat.mod_lt _ (by decide)) (List.mem_singleton.mp hmem).symm
  · rename_i hc
    rw [List.mem_singleton] at hmem
    exact hc (hmem ▸ hset)

/-! ### Dots -/

/-- Two characters that are one in lower case are one, or the lower one is a letter and thirty-two
places behind the other. -/
theorem eq_or_of_toLower_eq {c d : Char} (h : c.toLower = d) :
    c = d ∨ (97 ≤ d.toNat ∧ c.toNat + 32 = d.toNat) := by
  unfold Char.toLower at h
  split at h
  · rename_i hupper
    refine .inr ?_
    obtain ⟨hlow, hhigh⟩ := hupper
    have hlow : 65 ≤ c.toNat := hlow
    have hhigh : c.toNat ≤ 90 := hhigh
    have hsum : d.toNat = (c.toNat + 32) % 2 ^ 32 := by
      rw [← h]
      exact UInt32.toNat_add c.val 32
    omega
  · exact .inl h

/-- What is in lower case a character that is no letter is that character. -/
theorem eq_of_toLower_eq {c d : Char} (hd : d.toNat < 97) (h : c.toLower = d) : c = d :=
  (eq_or_of_toLower_eq h).resolve_right fun hletter => by omega

/-- A dot, plain or encoded in any case, decodes to a dot. -/
theorem percentDecode_append_of_dotForm {s form : List Char} (hform : form ∈ dotForms)
    (h : s.map Char.toLower = form) (rest : List Char) :
    percentDecode (s ++ rest) = String.utf8EncodeChar '.' ++ percentDecode rest := by
  rw [dotForms, List.mem_cons, List.mem_singleton] at hform
  rcases hform with rfl | rfl
  · obtain ⟨c, rest, rfl, hc, hrest⟩ := List.map_eq_cons_iff.mp h
    rw [eq_of_toLower_eq (by decide) hc, List.map_eq_nil_iff.mp hrest]
    exact percentDecode_cons (by decide) _
  · obtain ⟨c₁, rest, rfl, hc₁, h⟩ := List.map_eq_cons_iff.mp h
    obtain ⟨c₂, rest, rfl, hc₂, h⟩ := List.map_eq_cons_iff.mp h
    obtain ⟨c₃, rest, rfl, hc₃, h⟩ := List.map_eq_cons_iff.mp h
    rw [eq_of_toLower_eq (by decide) hc₁, eq_of_toLower_eq (by decide) hc₂,
      List.map_eq_nil_iff.mp h]
    -- The last digit is a letter, so its case is open.
    rcases eq_or_of_toLower_eq hc₃ with rfl | ⟨-, hc₃⟩
    · rfl
    · have hupper : c₃ = 'E' := Char.toNat_inj.mp (by
        have he : ('e' : Char).toNat = 101 := rfl
        have hE : ('E' : Char).toNat = 69 := rfl
        omega)
      rw [hupper]
      rfl

/-- A segment that means the place itself decodes to a dot. -/
theorem percentDecode_of_isSingleDot {s : List Char} (h : isSingleDot s = true) :
    percentDecode s = bytes ['.'] := by
  rw [isSingleDot, List.contains_iff_mem] at h
  have hdot := percentDecode_append_of_dotForm h rfl []
  rwa [List.append_nil] at hdot

/-- A segment that means the place above decodes to two dots. -/
theorem percentDecode_of_isDoubleDot {s : List Char} (h : isDoubleDot s = true) :
    percentDecode s = bytes ['.', '.'] := by
  rw [isDoubleDot, List.contains_iff_mem, List.mem_flatMap] at h
  obtain ⟨first, hfirst, h⟩ := h
  obtain ⟨second, hsecond, h⟩ := List.mem_map.mp h
  obtain ⟨s, t, rfl, hs, ht⟩ := List.map_eq_append_iff.mp h.symm
  have hdot := percentDecode_append_of_dotForm hsecond ht []
  rw [List.append_nil] at hdot
  rw [percentDecode_append_of_dotForm hfirst hs, hdot]
  rfl

end RecordStore.Url
