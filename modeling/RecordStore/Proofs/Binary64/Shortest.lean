import RecordStore.Binary64.Shortest
import RecordStore.Proofs.Binary64.Decimal

/-!
# `RecordStore.Proofs.Binary64.Shortest`: the digits of a double read back

The search for the fewest digits takes no decimal that is not rounded to the double, and where it
finds none it takes the exact value, which is. Zeros are cut off at the end, and that changes no
value. So how far the search goes does not matter for reading back.

* `readsBack_of_neighbour?`, `readsBack_exactly`, `readsBack_trimmed`: the steps of the search.
* `ofDecimal_shortest`: the decimal that is found is rounded to the double.
-/

set_option autoImplicit false

namespace RecordStore.Binary64

open RecordStore.Decimal

/-! ### The search -/

/-- A choice between two numbers is one of them. -/
theorem Tie.pick_cases (tie : Tie) (low : Nat) : tie.pick low = low ∨ tie.pick low = low + 1 := by
  cases tie with
  | toEven =>
    simp only [pick]
    split
    · exact .inl rfl
    · exact .inr rfl
  | up => exact .inr rfl

/-- A neighbour that is taken reads back. -/
theorem readsBack_of_neighbour? {tie : Tie} {rank : Nat} {exponent : Int} {d : Scaled}
    (h : neighbour? tie rank exponent = some d) : d.readsBack rank = true := by
  simp only [neighbour?] at h
  generalize magnitude rank * tenTo (-exponent).toNat = num at h
  generalize unitsPerOne * tenTo exponent.toNat = den at h
  -- Every branch has tested what it takes; the tie rule takes one of two that were tested.
  split at h
  · rename_i hlow
    split at h
    · rename_i hhigh
      split at h
      · cases h
        exact hlow
      · split at h
        · cases h
          exact hhigh
        · cases h
          rcases tie.pick_cases (num / den) with hpick | hpick
          · rwa [hpick]
          · rwa [hpick]
    · cases h
      exact hlow
  · split at h
    · rename_i hhigh
      cases h
      exact hhigh
    · cases h

/-- The exact value reads back. -/
theorem readsBack_exactly {rank : Nat} (hpos : rank ≠ 0) (h : rank ≤ infinityRank) :
    (exactly rank).readsBack rank = true := by
  -- One has `2 ^ 1074` units, and that divides `10 ^ 1074`: the coefficient has no remainder.
  obtain ⟨k, hk⟩ : ∃ k, tenTo 1074 = unitsPerOne * k :=
    ⟨tenTo 1074 / unitsPerOne, by decide +kernel⟩
  have hone := unitsPerOne_pos
  have hcoefficient : magnitude rank * tenTo 1074 / unitsPerOne = magnitude rank * k := by
    rw [hk, Nat.mul_left_comm, Nat.mul_div_cancel_left _ hone]
  have hmagnitude : 0 < magnitude rank :=
    Nat.lt_of_le_of_lt (Nat.zero_le _) (magnitude_strictMono (Nat.pos_of_ne_zero hpos))
  have hfactor : 0 < k := by
    refine Nat.pos_of_ne_zero fun hzero => ?_
    rw [hzero, Nat.mul_zero] at hk
    exact absurd hk (Nat.ne_of_gt (tenTo_pos _))
  have hne : magnitude rank * k ≠ 0 := Nat.ne_of_gt (Nat.mul_pos hmagnitude hfactor)
  have hnearest : nearest (magnitude rank * k) (tenTo 1074) = rank := by
    calc nearest (magnitude rank * k) (tenTo 1074)
        = nearest (magnitude rank * k) (unitsPerOne * k) := by rw [hk]
      _ = nearest (magnitude rank) unitsPerOne := nearest_mul_mul _ _ hfactor
      _ = rank := nearest_magnitude h
  rw [Scaled.readsBack, exactly, hcoefficient, ofDecimal_eq_ofRatio false hne, beq_iff_eq]
  show nearest (magnitude rank * k * 1) (tenTo 1074) = rank
  rw [Nat.mul_one, hnearest]

/-- The zeros at the end of the digits are a factor. -/
theorem tenTo_dvd_of_takeWhile (n : Nat) :
    tenTo ((digits n).reverse.takeWhile (· == '0')).length ∣ n := by
  generalize hzeros : (digits n).reverse.takeWhile (· == '0') = zeros
  have hreplicate : zeros = List.replicate zeros.length '0' := by
    refine List.eq_replicate_of_mem fun c hc => ?_
    rw [← hzeros] at hc
    exact beq_iff_eq.mp (List.all_eq_true.mp List.all_takeWhile c hc)
  obtain ⟨front, hfront⟩ : ∃ front, digits n = front ++ List.replicate zeros.length '0' := by
    refine ⟨((digits n).reverse.dropWhile (· == '0')).reverse, ?_⟩
    rw [← List.reverse_replicate, ← hreplicate, ← List.reverse_append, ← hzeros,
      List.takeWhile_append_dropWhile, List.reverse_reverse]
  have hvalue : n = value front * tenTo zeros.length := by
    rw [← value_append_zeros, ← hfront, value_digits]
  exact ⟨value front, by rw [Nat.mul_comm]; exact hvalue⟩

/-- Zeros that are cut off change nothing. -/
theorem readsBack_trimmed (d : Scaled) (rank : Nat) :
    d.trimmed.readsBack rank = d.readsBack rank := by
  have hdvd := tenTo_dvd_of_takeWhile d.coefficient
  simp only [Scaled.readsBack, Scaled.trimmed]
  rw [← ofDecimal_shift, Nat.div_mul_cancel hdvd]

/-- The decimal that is written reads back. -/
theorem readsBack_shortest (tie : Tie) {rank : Nat} (h : rank ≤ infinityRank) :
    (shortest tie rank).readsBack rank = true := by
  unfold shortest
  split
  · rename_i hzero
    rw [hzero]
    rfl
  · rename_i hpos
    rw [readsBack_trimmed]
    generalize hfound : (List.range 17).findSome? _ = found
    -- Whatever number of digits the search ends at, it ends at a decimal that was tested.
    cases found with
    | none => exact readsBack_exactly hpos h
    | some d =>
      obtain ⟨n, -, hn⟩ := List.exists_of_findSome?_eq_some hfound
      exact readsBack_of_neighbour? hn

/-- The decimal that is written for a finite double is rounded to the double. -/
theorem ofDecimal_shortest (tie : Tie) {x : Binary64} (h : x.isFinite = true) :
    ofDecimal x.negative (shortest tie x.rank).coefficient (shortest tie x.rank).exponent = x := by
  rw [isFinite, decide_eq_true_eq] at h
  have hread := readsBack_shortest tie (Nat.le_of_lt h)
  rw [Scaled.readsBack, beq_iff_eq] at hread
  obtain ⟨hnegative, hrank⟩ := ofDecimal_sign x.negative (shortest tie x.rank).coefficient
    (shortest tie x.rank).exponent
  generalize ofDecimal x.negative _ _ = y at hnegative hrank ⊢
  obtain ⟨negative, rank, rank_lt⟩ := y
  obtain ⟨rfl⟩ : negative = x.negative := hnegative
  obtain ⟨rfl⟩ : rank = x.rank := hrank.trans hread
  rfl

end RecordStore.Binary64
