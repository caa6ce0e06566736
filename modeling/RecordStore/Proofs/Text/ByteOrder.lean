/-!
# `RecordStore.Proofs.Text.ByteOrder`: the order of texts is that of their bytes

Texts are compared character by character. UTF-8 writes the number of a character in one to four
bytes, with more bytes for a greater number: the first byte tells how many there are, and in each
stands a digit to base 64. So the bytes of two texts first differ within the characters in which
the texts first differ, and they differ in the same direction.

* `encodes_utf8EncodeChar`: the bytes of a character.
* `append_lt_append_of_encodes`: characters compare as their bytes.
* `utf8_lt_iff`: so do texts.
-/

set_option autoImplicit false

namespace RecordStore.Text

/-- The bytes of a text in UTF-8. -/
def utf8 (s : String) : List UInt8 :=
  s.toUTF8.data.toList

/-- The bytes of a text are those of its characters. -/
theorem utf8_eq (s : String) : utf8 s = s.toList.flatMap String.utf8EncodeChar := by
  have h : s.toUTF8 = (String.ofList s.toList).toByteArray := by
    rw [String.ofList_toList, String.toUTF8_eq_toByteArray]
  rw [utf8, h, String.toByteArray_ofList, List.utf8Encode, List.data_toByteArray]

/-! ### Characters -/

/-- A number and the bytes that it is written in, by the number of bytes. -/
inductive Encodes : Nat → List UInt8 → Prop where
  | one {a : Nat} (ha : a < 0x80) : Encodes a [.ofNat a]
  | two {a b : Nat} (hmin : 0x80 ≤ a * 64 + b) (ha : a < 32) (hb : b < 64) :
      Encodes (a * 64 + b) [.ofNat (a + 192), .ofNat (b + 128)]
  | three {a b c : Nat} (hmin : 0x800 ≤ (a * 64 + b) * 64 + c) (ha : a < 16) (hb : b < 64)
      (hc : c < 64) : Encodes ((a * 64 + b) * 64 + c)
        [.ofNat (a + 224), .ofNat (b + 128), .ofNat (c + 128)]
  | four {a b c d : Nat} (hmin : 0x10000 ≤ ((a * 64 + b) * 64 + c) * 64 + d) (ha : a < 8)
      (hb : b < 64) (hc : c < 64) (hd : d < 64) : Encodes (((a * 64 + b) * 64 + c) * 64 + d)
        [.ofNat (a + 240), .ofNat (b + 128), .ofNat (c + 128), .ofNat (d + 128)]

/-- A character is written in the bytes of its number. -/
theorem encodes_utf8EncodeChar (c : Char) : Encodes c.val.toNat (String.utf8EncodeChar c) := by
  have hvalid : c.val.toNat < 0xD800 ∨ 0xDFFF < c.val.toNat ∧ c.val.toNat < 0x110000 := c.valid
  unfold String.utf8EncodeChar
  generalize c.val.toNat = n at *
  dsimp only
  split
  · exact .one (by omega)
  · split
    · have hn : n / 64 % 32 * 64 + n % 64 = n := by omega
      have h := Encodes.two (a := n / 64 % 32) (b := n % 64) (by omega) (by omega) (by omega)
      rwa [hn] at h
    · split
      · have hn : (n / 4096 % 16 * 64 + n / 64 % 64) * 64 + n % 64 = n := by omega
        have h := Encodes.three (a := n / 4096 % 16) (b := n / 64 % 64) (c := n % 64)
          (by omega) (by omega) (by omega) (by omega)
        rwa [hn] at h
      · have hn : ((n / 262144 % 8 * 64 + n / 4096 % 64) * 64 + n / 64 % 64) * 64 + n % 64 = n := by
          omega
        have h := Encodes.four (a := n / 262144 % 8) (b := n / 4096 % 64) (c := n / 64 % 64)
          (d := n % 64) (by omega) (by omega) (by omega) (by omega) (by omega)
        rwa [hn] at h

/-- The bytes of a smaller number come before those of a greater one, whatever follows. -/
theorem append_lt_append_of_encodes {m n : Nat} (h : m < n) {bs bs' : List UInt8}
    (hm : Encodes m bs) (hn : Encodes n bs') (rest rest' : List UInt8) :
    bs ++ rest < bs' ++ rest' := by
  -- If there are more bytes, the first one is greater. If there are as many, the digits decide.
  cases hm <;> cases hn <;>
    simp only [List.cons_append, List.nil_append, List.cons_lt_cons_iff, UInt8.lt_iff_toNat_lt,
      ← UInt8.toNat_inj, UInt8.toNat_ofNat'] <;>
    omega

/-! ### Texts -/

/-- The bytes of a character come before those of a later one, whatever follows. -/
theorem append_lt_append_of_lt {c d : Char} (h : c < d) (rest rest' : List UInt8) :
    String.utf8EncodeChar c ++ rest < String.utf8EncodeChar d ++ rest' :=
  append_lt_append_of_encodes h (encodes_utf8EncodeChar c) (encodes_utf8EncodeChar d) rest rest'

/-- No number is written without bytes. -/
theorem exists_cons_of_encodes {n : Nat} {bs : List UInt8} (h : Encodes n bs) :
    ∃ first rest, bs = first :: rest := by
  cases h <;> exact ⟨_, _, rfl⟩

/-- Characters that come first have bytes that come first. -/
theorem flatMap_utf8EncodeChar_lt {s t : List Char} (h : s < t) :
    s.flatMap String.utf8EncodeChar < t.flatMap String.utf8EncodeChar := by
  -- Where the characters first differ, the bytes do. Before that they are the same.
  induction s generalizing t with
  | nil =>
    cases t with
    | nil => exact absurd h (List.lt_irrefl _)
    | cons d t =>
      obtain ⟨first, rest, hbytes⟩ := exists_cons_of_encodes (encodes_utf8EncodeChar d)
      rw [List.flatMap_nil, List.flatMap_cons, hbytes]
      exact List.nil_lt_cons _ _
  | cons c s ih =>
    cases t with
    | nil => exact absurd h (List.not_lt_nil _)
    | cons d t =>
      rw [List.flatMap_cons, List.flatMap_cons]
      rcases List.cons_lt_cons_iff.mp h with hlt | ⟨rfl, hrest⟩
      · exact append_lt_append_of_lt hlt _ _
      · exact List.append_left_lt (ih hrest)

/-- Texts are in the order of their bytes. -/
theorem utf8_lt_iff {s t : String} : utf8 s < utf8 t ↔ s < t := by
  have hchars : ∀ s t : String, s < t → utf8 s < utf8 t := by
    intro s t h
    rw [utf8_eq, utf8_eq]
    exact flatMap_utf8EncodeChar_lt h
  refine ⟨fun h => Decidable.byContradiction fun hnot => ?_, hchars s t⟩
  -- Of two texts one comes first or they are one, and so do their bytes.
  rcases Std.le_iff_lt_or_eq.mp (String.not_lt.mp hnot) with hlt | rfl
  · exact List.lt_asymm h (hchars t s hlt)
  · exact List.lt_irrefl _ h

end RecordStore.Text
