import Mathlib

/-! # Ceiling division along a constant product

    A point of a discrete constant-product curve has one coordinate free and
    the other the ceiling of `K` over it.  Whether a trade stays on the curve
    is then a question about ITERATED ceilings: after rounding `K / y` up to
    `x`, is `K / x` rounded up again `y`?  The answer is yes as long as `y` is
    below the root of `K` (`ceilDiv_ceilDiv`), and on the same side a unit step
    of `y` moves `x` by at least one (`ceilDiv_succ_lt`). -/

namespace CeilDiv

variable {K x y z : Nat}

/-- Below the ceiling means not yet covering the numerator. -/
theorem lt_ceilDiv_iff (hy : 0 < y) : z < K ⌈/⌉ y ↔ y * z < K := by
  rw [← Nat.not_le, ceilDiv_le_iff_le_mul hy, Nat.not_le]

theorem le_mul_ceilDiv (hy : 0 < y) : K ≤ y * (K ⌈/⌉ y) :=
  (ceilDiv_le_iff_le_mul hy).mp (Nat.le_refl _)

/-- The source-level formula `(K - 1) / y + 1` for a positive numerator. -/
theorem pred_div_add_one (hK : 0 < K) (hy : 0 < y) :
    (K - 1) / y + 1 = K ⌈/⌉ y := by
  rw [Nat.ceilDiv_eq_add_pred_div]
  have hsplit : K + y - 1 = (K - 1) + y := by omega
  rw [hsplit, Nat.add_div_right _ hy]

theorem ceilDiv_pos (hK : 0 < K) (hy : 0 < y) : 0 < K ⌈/⌉ y := by
  rw [lt_ceilDiv_iff hy, Nat.mul_zero]
  exact hK

/-- A larger divisor never needs a larger factor. -/
theorem ceilDiv_anti (hx : 0 < x) (hxy : x ≤ y) : K ⌈/⌉ y ≤ K ⌈/⌉ x := by
  rw [ceilDiv_le_iff_le_mul (Nat.lt_of_lt_of_le hx hxy)]
  exact (le_mul_ceilDiv hx).trans (Nat.mul_le_mul_right _ hxy)

/-- A larger numerator never needs a smaller factor. -/
theorem ceilDiv_mono {L : Nat} (hy : 0 < y) (h : K ≤ L) :
    K ⌈/⌉ y ≤ L ⌈/⌉ y := by
  rw [ceilDiv_le_iff_le_mul hy]
  exact h.trans (le_mul_ceilDiv hy)

/-- The overshoot of the ceiling is less than one divisor. -/
theorem mul_ceilDiv_lt (hK : 0 < K) (hy : 0 < y) :
    y * (K ⌈/⌉ y) < K + y := by
  have hpos := ceilDiv_pos hK hy
  have hlt : y * (K ⌈/⌉ y - 1) < K :=
    (lt_ceilDiv_iff hy).mp (by omega)
  have hsplit : y * (K ⌈/⌉ y) = y * (K ⌈/⌉ y - 1) + y := by
    conv_lhs => rw [show K ⌈/⌉ y = (K ⌈/⌉ y - 1) + 1 by omega]
    rw [Nat.mul_add, Nat.mul_one]
  omega

/-- **RE-LANDING**: below the root of `K`, rounding up twice comes back. -/
theorem ceilDiv_ceilDiv (hy : 0 < y) (hroot : y * (y - 1) < K) :
    K ⌈/⌉ (K ⌈/⌉ y) = y := by
  have hK : 0 < K := by omega
  have hx : 0 < K ⌈/⌉ y := ceilDiv_pos hK hy
  have hyx : y ≤ K ⌈/⌉ y := by
    have := (lt_ceilDiv_iff hy).mpr hroot
    omega
  apply Nat.le_antisymm
  · rw [ceilDiv_le_iff_le_mul hx, Nat.mul_comm]
    exact le_mul_ceilDiv hy
  · have hover := mul_ceilDiv_lt hK hy
    have hlt : (K ⌈/⌉ y) * (y - 1) < K := by
      have hsplit : y * (K ⌈/⌉ y) = (K ⌈/⌉ y) * (y - 1) + K ⌈/⌉ y := by
        conv_lhs => rw [show y = (y - 1) + 1 by omega]
        rw [Nat.mul_comm, Nat.mul_add, Nat.mul_one,
          show y - 1 + 1 = y by omega]
      omega
    have := (lt_ceilDiv_iff hx).mpr hlt
    omega

/-- **A UNIT STEP IS VISIBLE**: below the root of `K`, raising the divisor by
    one strictly lowers the ceiling. -/
theorem ceilDiv_succ_lt (hy : 0 < y) (hroot : (y + 1) * y < K) :
    K ⌈/⌉ (y + 1) < K ⌈/⌉ y := by
  rw [lt_ceilDiv_iff hy]
  have hover := mul_ceilDiv_lt (y := y + 1) (by omega : 0 < K) (by omega)
  have hlt : y < K ⌈/⌉ (y + 1) := (lt_ceilDiv_iff (by omega)).mpr hroot
  rw [Nat.add_mul, Nat.one_mul] at hover
  omega

/-- A larger step is visible as well, from any point on or above the curve. -/
theorem ceilDiv_lt_of_lt {z : Nat} (hy : 0 < y) (hroot : (y + 1) * y < K)
    (hlt : y < z) (hon : K ≤ x * y) : K ⌈/⌉ z < x := by
  have hdown : K ⌈/⌉ z ≤ K ⌈/⌉ (y + 1) := ceilDiv_anti (by omega) hlt
  have hstep := ceilDiv_succ_lt hy hroot
  have hcover : K ⌈/⌉ y ≤ x := by
    rw [ceilDiv_le_iff_le_mul hy, Nat.mul_comm]
    exact hon
  omega

end CeilDiv
