import RecordGraph.Proofs.Number.Binary64
/-! Rounding integers. A float has fifty-three significant bits, so an integer with more of them goes to the nearest
multiple of a power of two, and between two of these to the one with an even quotient. -/

namespace RecordGraph.Binary64

variable {n num den : Nat}

/-- How far apart the floats lie around an integer. -/
def spacing (n : Nat) : Nat := 1 <<< (Nat.log2 n - 52)

/-- The multiple of the spacing that is nearest to a natural number. -/
def nearestNat (n : Nat) : Nat := roundDiv n (spacing n) * spacing n

/-- The integer that the nearest float denotes. -/
def nearest (k : Int) : Int := if k < 0 then -nearestNat k.natAbs else nearestNat k.natAbs

/-! Rounded quotients. -/

theorem div_le_roundDiv (num den : Nat) : num / den ≤ roundDiv num den := by
  simp only [roundDiv]
  split <;> omega

theorem roundDiv_le (num den : Nat) : roundDiv num den ≤ num / den + 1 := by
  simp only [roundDiv]
  split <;> omega

/-- A quotient is rounded the same on a finer scale. -/
theorem roundDiv_mul_mul (num den : Nat) {c : Nat} (hc : 0 < c) :
    roundDiv (num * c) (den * c) = roundDiv num den := by
  have hlt : 2 * (num % den * c) < den * c ↔ 2 * (num % den) < den := by
    rw [← Nat.mul_assoc]
    exact Nat.mul_lt_mul_right hc
  have heq : 2 * (num % den * c) = den * c ↔ 2 * (num % den) = den := by
    rw [← Nat.mul_assoc]
    exact Nat.mul_left_inj hc.ne'
  simp only [roundDiv, Nat.mul_div_mul_right _ _ hc, Nat.mul_mod_mul_right, Bool.or_eq_true, Bool.and_eq_true,
    decide_eq_true_eq, beq_iff_eq, hlt, heq]

theorem roundDiv_mul (q : Nat) (hden : 0 < den) : roundDiv (q * den) den = q := by
  simp only [roundDiv, Nat.mul_div_cancel _ hden, Nat.mul_mod_left]
  simp [hden]

/-! Words from their significand. -/

/-- Of a significand of fifty-three bits the first is hidden; one that was rounded up to the next power of two
carries into the field. -/
theorem magnitude_ofParts {negative : Bool} {lift m : Nat} (hlow : 0x10000000000000 ≤ m) (hhigh : m ≤ 0x20000000000000)
    (h : lift * 0x10000000000000 + m < 0x7ff0000000000000) :
    (ofParts negative (lift * 0x10000000000000 + m)).magnitude = m <<< lift := by
  have hword : lift * 0x10000000000000 + m < 0x8000000000000000 := by omega
  have hfield : (ofParts negative (lift * 0x10000000000000 + m)).field = _ := field_ofParts hword
  have hfraction : (ofParts negative (lift * 0x10000000000000 + m)).fraction = _ := fraction_ofParts hword
  by_cases hcarry : m = 0x20000000000000
  · have hquotient : (lift * 0x10000000000000 + m) / 0x10000000000000 = 1 + lift + 1 := by omega
    have hrest : (lift * 0x10000000000000 + m) % 0x10000000000000 = 0 := by omega
    rw [magnitude, significand, Binary64.lift, hfield, hfraction, hquotient, hrest, if_neg (by omega),
      Nat.add_sub_cancel, hcarry, Nat.shiftLeft_add]
    rfl
  · have hquotient : (lift * 0x10000000000000 + m) / 0x10000000000000 = lift + 1 := by omega
    have hrest : (lift * 0x10000000000000 + m) % 0x10000000000000 = m - 0x10000000000000 := by omega
    rw [magnitude, significand, Binary64.lift, hfield, hfraction, hquotient, hrest, if_neg (by omega),
      Nat.add_sub_cancel, Nat.add_sub_cancel' hlow]

/-! Floats of integers. -/

theorem one_shiftLeft_pos (k : Nat) : 0 < 1 <<< k := Nat.lt_of_lt_of_le Nat.zero_lt_one Nat.le_shiftLeft

theorem shiftLeft_eq_mul (n k : Nat) : n <<< k = n * 1 <<< k := by rw [Nat.one_shiftLeft, Nat.shiftLeft_eq]

theorem log2_shiftLeft (hn : n ≠ 0) (k : Nat) : Nat.log2 (n <<< k) = Nat.log2 n + k := by
  have hne : n <<< k ≠ 0 := fun h => hn (Nat.eq_zero_of_le_zero (h ▸ Nat.le_shiftLeft))
  rw [Nat.log2_eq_iff hne, Nat.shiftLeft_eq, Nat.pow_add, Nat.add_right_comm, Nat.pow_add]
  exact ⟨Nat.mul_le_mul_right _ (Nat.log2_self_le hn), Nat.mul_lt_mul_of_pos_right Nat.lt_log2_self (Nat.two_pow_pos k)⟩

/-- The leading bit of a significand is its fifty-third. -/
theorem roundDiv_bounds (hn : 52 ≤ Nat.log2 n) :
    0x10000000000000 ≤ roundDiv n (spacing n) ∧ roundDiv n (spacing n) ≤ 0x20000000000000 := by
  have hne : n ≠ 0 := by
    rintro rfl
    simp at hn
  have hpow : 2 ^ Nat.log2 n = 0x10000000000000 * 2 ^ (Nat.log2 n - 52) := by
    rw [show 0x10000000000000 = 2 ^ 52 from rfl, ← Nat.pow_add, Nat.add_sub_cancel' hn]
  have hlow : 0x10000000000000 ≤ n / spacing n := by
    rw [spacing, Nat.one_shiftLeft, Nat.le_div_iff_mul_le (Nat.two_pow_pos _), ← hpow]
    exact Nat.log2_self_le hne
  have hhigh : n / spacing n < 0x20000000000000 := by
    rw [spacing, Nat.one_shiftLeft, Nat.div_lt_iff_lt_mul (Nat.two_pow_pos _)]
    calc n < 2 ^ (Nat.log2 n + 1) := Nat.lt_log2_self
      _ = 0x20000000000000 * 2 ^ (Nat.log2 n - 52) := by rw [pow_succ, hpow]; omega
  have := div_le_roundDiv n (spacing n)
  have := roundDiv_le n (spacing n)
  omega

theorem nearestNat_of_dvd (h : spacing n ∣ n) : nearestNat n = n := by
  obtain ⟨q, hq⟩ := h
  have hround : roundDiv n (spacing n) = q := by
    have hexact := roundDiv_mul q (one_shiftLeft_pos (Nat.log2 n - 52))
    rwa [Nat.mul_comm, ← spacing, ← hq] at hexact
  rw [nearestNat, hround, Nat.mul_comm, ← hq]

/-- Integers of fifty-three bits are floats. -/
theorem nearestNat_of_le (h : n ≤ 0x20000000000000) : nearestNat n = n := by
  apply nearestNat_of_dvd
  rcases Nat.lt_or_ge n 0x20000000000000 with hlt | hge
  · have hlog : Nat.log2 n - 52 = 0 := by
      rcases Nat.eq_zero_or_pos n with rfl | hpos
      · rfl
      · have := (Nat.log2_lt (k := 53) hpos.ne').mpr hlt
        omega
    rw [spacing, hlog]
    exact Nat.one_dvd n
  · obtain rfl : n = 0x20000000000000 := Nat.le_antisymm h hge
    decide

/-- On every scale that is fine enough the nearest multiple of the spacing is the same. -/
theorem nearestNat_shiftLeft (hn : n ≠ 0) {k : Nat} (hk : 52 ≤ k) : nearestNat (n <<< k) = nearestNat n <<< k := by
  have hlog := log2_shiftLeft hn k
  rcases Nat.le_total 52 (Nat.log2 n) with hlong | hshort
  · have hspacing : spacing (n <<< k) = spacing n * 1 <<< k := by
      rw [← shiftLeft_eq_mul, spacing, spacing, ← Nat.shiftLeft_add, hlog]
      congr 1
      omega
    rw [nearestNat, hspacing, shiftLeft_eq_mul n, roundDiv_mul_mul _ _ (one_shiftLeft_pos k), ← Nat.mul_assoc,
      ← nearestNat, ← shiftLeft_eq_mul]
  · -- Fewer than fifty-three bits are kept as they are.
    have hle : n ≤ 0x20000000000000 := by
      have := (Nat.log2_lt (k := 53) hn).mp (by omega)
      omega
    have hscale : n <<< k = n <<< (52 - Nat.log2 n) * spacing (n <<< k) := by
      rw [spacing, ← shiftLeft_eq_mul, ← Nat.shiftLeft_add, hlog]
      congr 1
      omega
    rw [nearestNat_of_le hle, nearestNat_of_dvd ⟨_, hscale.trans (Nat.mul_comm ..)⟩]

/-- The nearest float of a natural number denotes its nearest multiple of the spacing. The bound keeps it below
infinity. -/
theorem ofRatio_one (negative : Bool) (hn : n ≠ 0) (hsize : Nat.log2 n < 1000) :
    (ofRatio negative n 1).isFinite = true ∧ (ofRatio negative n 1).negative = negative ∧
      (ofRatio negative n 1).magnitude = nearestNat n <<< 1074 := by
  have hlog := log2_shiftLeft hn 1074
  obtain ⟨hlow, hhigh⟩ := roundDiv_bounds (n := n <<< 1074) (by omega)
  have hword : ofRatio negative n 1 = ofParts negative ((Nat.log2 (n <<< 1074) - 52) * 0x10000000000000 +
      roundDiv (n <<< 1074) (spacing (n <<< 1074))) := by
    simp only [ofRatio, Nat.div_one]
    rw [← spacing]
    exact if_pos (by omega)
  rw [hword]
  refine ⟨isFinite_ofParts (by omega), negative_ofParts (by omega), ?_⟩
  rw [magnitude_ofParts hlow hhigh (by omega), shiftLeft_eq_mul, ← spacing, ← nearestNat,
    nearestNat_shiftLeft hn (by decide)]

/-- Floats of integers denote what is nearest to these. -/
theorem denotes_ofInt {k : Int} (hsize : Nat.log2 k.natAbs < 1000) : (ofInt k).Denotes (nearest k) := by
  by_cases hzero : k = 0
  · subst hzero
    exact ⟨rfl, rfl⟩
  · have hne : k.natAbs ≠ 0 := Int.natAbs_ne_zero.mpr hzero
    obtain ⟨hfinite, hnegative, hmagnitude⟩ := ofRatio_one (decide (k < 0)) hne hsize
    refine ⟨hfinite, ?_⟩
    rw [scaled, ofInt, hnegative, hmagnitude, shiftLeft_eq_mul, ← one, nearest]
    by_cases hsign : k < 0
    · simp only [decide_eq_true_eq, if_pos hsign, Int.natCast_mul, Int.neg_mul]
    · simp only [decide_eq_true_eq, if_neg hsign, Int.natCast_mul]

end RecordGraph.Binary64
