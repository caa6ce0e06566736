import RecordStore.Decimal.Digits
import RecordStore.Text.Blank

/-!
# `RecordStore.Proofs.Decimal.Padded`: numbers of a fixed width

A number that fits its width is written by `padded` as exactly that many digits. Such texts read
back, and they stand in the order of their numbers, also with more text behind them. Both are what
the written form of a date-time is made of.

* `length_padded`, `isDigit_of_mem_padded`, `value_padded`: what a padded number consists of.
* `value_lt_value_iff`: digits of one length are ordered as their values are.
* `padded_append_lt_iff`: two texts that start with numbers of one width are ordered by these
  numbers, and where they are equal by what follows.
* `padded_add`: the digits of a number are those of its quotient and its remainder.
-/

set_option autoImplicit false

namespace RecordStore.Decimal

/-! ### What a padded number consists of -/

/-- One zero more is ten times as much. -/
theorem tenTo_succ (n : Nat) : tenTo (n + 1) = tenTo n * 10 :=
  rfl

/-- Powers of ten multiply. -/
theorem tenTo_add (m n : Nat) : tenTo (m + n) = tenTo m * tenTo n :=
  Nat.pow_add 10 m n

/-- Powers of ten are positive. -/
theorem tenTo_pos (n : Nat) : 0 < tenTo n :=
  Nat.pow_pos (by decide)

/-- A larger exponent is a larger power of ten. -/
theorem tenTo_mono {m n : Nat} (h : m ≤ n) : tenTo m ≤ tenTo n :=
  Nat.pow_le_pow_right (by decide) h

/-- A number has at most `width` digits if it is below the power of ten. -/
theorem length_digits_le {width n : Nat} (hw : 0 < width) (h : n < tenTo width) :
    (digits n).length ≤ width :=
  (Nat.length_toDigits_le_iff (by decide) hw).mpr h

/-- A number that fits has exactly `width` digits. -/
theorem length_padded {width n : Nat} (hw : 0 < width) (h : n < tenTo width) :
    (padded width n).length = width := by
  have hle := length_digits_le hw h
  rw [padded, List.length_append, List.length_replicate]
  omega

/-- A padded number consists of digits. -/
theorem isDigit_of_mem_padded {width n : Nat} {c : Char} (h : c ∈ padded width n) :
    c.isDigit = true := by
  rw [padded, List.mem_append] at h
  cases h with
  | inl h =>
    rw [List.eq_of_mem_replicate h]
    rfl
  | inr h => exact Nat.isDigit_of_mem_toDigits (by decide) (by decide) h

/-- A padded number has at least one digit. -/
theorem padded_ne_nil (width n : Nat) : padded width n ≠ [] := by
  obtain ⟨c, s, hd, -⟩ := digits_cons n
  rw [padded, hd]
  simp

/-- The zeros in front count nothing. -/
theorem value_padded (width n : Nat) : value (padded width n) = n := by
  rw [value, padded, Nat.ofDigitChars_append, Nat.ofDigitChars_replicate_zero, Nat.mul_zero]
  exact value_digits n

/-! ### Order -/

/-- The value of digits behind a first one. -/
theorem value_cons (c : Char) (s : List Char) :
    value (c :: s) = tenTo s.length * (c.toNat - 48) + value s := by
  rw [value, Nat.ofDigitChars_cons, Nat.ofDigitChars_eq_ofDigitChars_zero, Nat.mul_zero,
    Nat.zero_add]
  rfl

/-- Digits are the characters from 48 to 57. -/
theorem toNat_of_isDigit {c : Char} (h : c.isDigit = true) : 48 ≤ c.toNat ∧ c.toNat ≤ 57 := by
  simp only [Char.isDigit, Bool.and_eq_true, decide_eq_true_eq] at h
  exact ⟨h.1, h.2⟩

/-- A digit is no blank. -/
theorem isBlank_of_isDigit {c : Char} (h : c.isDigit = true) : Text.isBlank c = false := by
  have hc := toNat_of_isDigit h
  simp only [Text.isBlank, Bool.or_eq_false_iff, Bool.and_eq_false_iff, decide_eq_false_iff_not,
    beq_eq_false_iff_ne]
  omega

/-- Digits end where something else follows. -/
theorem takeWhile_isDigit_append {ds rest : List Char} (hds : ∀ c ∈ ds, c.isDigit = true)
    (hrest : ∀ c, rest.head? = some c → c.isDigit = false) :
    (ds ++ rest).takeWhile Char.isDigit = ds ∧ (ds ++ rest).dropWhile Char.isDigit = rest := by
  have hhead : rest.takeWhile Char.isDigit = [] ∧ rest.dropWhile Char.isDigit = rest := by
    cases rest with
    | nil => exact ⟨rfl, rfl⟩
    | cons c rest =>
      have hc : ¬c.isDigit = true := by simp [hrest c rfl]
      exact ⟨List.takeWhile_cons_of_neg hc, List.dropWhile_cons_of_neg hc⟩
  rw [List.takeWhile_append_of_pos hds, List.dropWhile_append_of_pos hds, hhead.1, hhead.2,
    List.append_nil]
  exact ⟨rfl, rfl⟩

/-- Digits stand for less than the power of ten of their number. -/
theorem value_lt {s : List Char} (h : ∀ c ∈ s, c.isDigit = true) : value s < tenTo s.length := by
  induction s with
  | nil => decide
  | cons c s ih =>
    have hc := toNat_of_isDigit (h c List.mem_cons_self)
    have hs := ih fun d hd => h d (List.mem_cons_of_mem _ hd)
    have hmul : tenTo s.length * (c.toNat - 48) ≤ tenTo s.length * 9 :=
      Nat.mul_le_mul_left _ (by omega)
    rw [value_cons, List.length_cons, tenTo_succ]
    omega

/-- The order of characters is that of their code points. -/
theorem char_lt_iff {c d : Char} : c < d ↔ c.toNat < d.toNat :=
  Iff.rfl

/-- Digits of one length are ordered as their values are. -/
theorem value_lt_value_iff {s t : List Char} (hlen : s.length = t.length)
    (hs : ∀ c ∈ s, c.isDigit = true) (ht : ∀ c ∈ t, c.isDigit = true) :
    s < t ↔ value s < value t := by
  induction s generalizing t with
  | nil =>
    rw [List.length_eq_zero_iff.mp hlen.symm]
    simp
  | cons c s ih =>
    cases t with
    | nil => simp at hlen
    | cons d t =>
      have hlen' : s.length = t.length := Nat.succ.inj hlen
      have hs' : ∀ x ∈ s, x.isDigit = true := fun x hx => hs x (List.mem_cons_of_mem _ hx)
      have ht' : ∀ x ∈ t, x.isDigit = true := fun x hx => ht x (List.mem_cons_of_mem _ hx)
      have hc := toNat_of_isDigit (hs c List.mem_cons_self)
      have hd := toNat_of_isDigit (ht d List.mem_cons_self)
      have hvs := value_lt hs'
      have hvt := value_lt ht'
      rw [List.cons_lt_cons_iff, ih hlen' hs' ht', char_lt_iff, value_cons, value_cons, hlen']
      rw [hlen'] at hvs
      -- The first digit weighs more than all that follow can make up for.
      generalize hp : tenTo t.length = p at *
      constructor
      · rintro (hlt | ⟨rfl, hlt⟩)
        · have : p * (c.toNat - 48 + 1) ≤ p * (d.toNat - 48) := Nat.mul_le_mul_left _ (by omega)
          rw [Nat.mul_add] at this
          omega
        · omega
      · intro hlt
        rcases Nat.lt_trichotomy c.toNat d.toNat with h | h | h
        · exact Or.inl h
        · have hcd : c = d := Char.toNat_inj.mp h
          subst hcd
          exact Or.inr ⟨rfl, by omega⟩
        · have : p * (d.toNat - 48 + 1) ≤ p * (c.toNat - 48) := Nat.mul_le_mul_left _ (by omega)
          rw [Nat.mul_add] at this
          omega

/-- Texts that start with parts of one length are ordered by these parts first. -/
theorem append_lt_append_iff {a b : List Char} (hlen : a.length = b.length) (r s : List Char) :
    a ++ r < b ++ s ↔ a < b ∨ a = b ∧ r < s := by
  induction a generalizing b with
  | nil =>
    rw [List.length_eq_zero_iff.mp hlen.symm]
    simp
  | cons c a ih =>
    cases b with
    | nil => simp at hlen
    | cons d b =>
      rw [List.cons_append, List.cons_append, List.cons_lt_cons_iff, List.cons_lt_cons_iff,
        ih (Nat.succ.inj hlen), List.cons.injEq]
      grind

/-- Padded numbers of one width are equal only if the numbers are. -/
theorem padded_inj {width m n : Nat} : padded width m = padded width n ↔ m = n := by
  constructor
  · intro h
    rw [← value_padded width m, h, value_padded]
  · intro h
    rw [h]

/-- Texts that start with numbers of one width are ordered by these numbers first. -/
theorem padded_append_lt_iff {width m n : Nat} (hw : 0 < width) (hm : m < tenTo width)
    (hn : n < tenTo width) (r s : List Char) :
    padded width m ++ r < padded width n ++ s ↔ m < n ∨ m = n ∧ r < s := by
  have hlen : (padded width m).length = (padded width n).length := by
    rw [length_padded hw hm, length_padded hw hn]
  rw [append_lt_append_iff hlen, padded_inj,
    value_lt_value_iff hlen (fun _ => isDigit_of_mem_padded) (fun _ => isDigit_of_mem_padded),
    value_padded, value_padded]

/-! ### Parts of a padded number -/

/-- Digits of one length are equal if their values are. -/
theorem eq_of_value_eq {s t : List Char} (hlen : s.length = t.length)
    (hs : ∀ c ∈ s, c.isDigit = true) (ht : ∀ c ∈ t, c.isDigit = true) (h : value s = value t) :
    s = t := by
  have hst : ¬s < t := by
    rw [value_lt_value_iff hlen hs ht, h]
    exact Nat.lt_irrefl _
  have hts : ¬t < s := by
    rw [value_lt_value_iff hlen.symm ht hs, h]
    exact Nat.lt_irrefl _
  exact List.le_antisymm hts hst

/-- The value of digits and digits behind them. -/
theorem value_append (s t : List Char) : value (s ++ t) = tenTo t.length * value s + value t := by
  rw [value, Nat.ofDigitChars_append, Nat.ofDigitChars_eq_ofDigitChars_zero]
  rfl

/-- Zeros behind digits multiply by ten. -/
theorem value_append_zeros (s : List Char) (k : Nat) :
    value (s ++ List.replicate k '0') = value s * tenTo k := by
  rw [value, Nat.ofDigitChars_append, Nat.ofDigitChars_replicate_zero, Nat.mul_comm]
  rfl

/-- The digits of a number are those of its quotient and its remainder by a power of ten. -/
theorem padded_add {v w n : Nat} (hv : 0 < v) (hw : 0 < w) (h : n < tenTo v * tenTo w) :
    padded (v + w) n = padded v (n / tenTo w) ++ padded w (n % tenTo w) := by
  have hpos : 0 < tenTo w := tenTo_pos w
  have hquot : n / tenTo w < tenTo v := Nat.div_lt_of_lt_mul (by rwa [Nat.mul_comm])
  have hrem : n % tenTo w < tenTo w := Nat.mod_lt _ hpos
  have hadd : tenTo (v + w) = tenTo v * tenTo w := tenTo_add v w
  apply eq_of_value_eq
  · rw [length_padded (by omega) (by rwa [hadd]), List.length_append, length_padded hv hquot,
      length_padded hw hrem]
  · exact fun _ => isDigit_of_mem_padded
  · intro c hc
    exact (List.mem_append.mp hc).elim isDigit_of_mem_padded isDigit_of_mem_padded
  · rw [value_append, value_padded, value_padded, value_padded, length_padded hw hrem,
      Nat.div_add_mod]

end RecordStore.Decimal
