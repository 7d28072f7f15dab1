import Mathlib

/-! # A floored proportional fee and its inverse

    A fee of one part in `d`, rounded down, leaves `net d g = g - g / d` of a
    gross amount `g`.  The map is monotone and onto but not injective: it
    repeats a value at every multiple of `d`.  Its LEAST right inverse is
    `gross d n = n + (n - 1) / (d - 1)`, which is what a quote has to charge
    when it wants to collect exactly `n` and not one unit more. -/

namespace FloorFee

variable {d g n : Nat}

/-- What is left of `g` after the floored fee of one part in `d`. -/
def net (d g : Nat) : Nat := g - g / d

/-- The closed form of the least gross amount that leaves `n`. -/
def gross (d n : Nat) : Nat := n + (n - 1) / (d - 1)

theorem net_le (d g : Nat) : net d g ≤ g := Nat.sub_le _ _

theorem net_mono (hd : 0 < d) {a b : Nat} (hab : a ≤ b) : net d a ≤ net d b := by
  obtain ⟨k, rfl⟩ := Nat.exists_eq_add_of_le hab
  have hdiv : (a + k) / d ≤ a / d + k := by
    have hup : a + k ≤ a + d * k := by
      have : 1 * k ≤ d * k := Nat.mul_le_mul_right k hd
      omega
    calc (a + k) / d ≤ (a + d * k) / d := Nat.div_le_div_right hup
      _ = a / d + k := Nat.add_mul_div_left a k hd
  have hle : a / d ≤ a := Nat.div_le_self a d
  unfold net
  omega

/-- A positive amount always leaves something. -/
theorem net_pos (hd : 1 < d) (hg : 0 < g) : 0 < net d g := by
  have := Nat.div_lt_self hg hd
  unfold net
  omega

/-- The number of whole fee units in the inverse. -/
theorem gross_div (hd : 1 < d) (hn : 0 < n) :
    gross d n / d = (n - 1) / (d - 1) := by
  obtain ⟨q, r, hr, hnq⟩ : ∃ q r, r < d - 1 ∧ n - 1 = (d - 1) * q + r :=
    ⟨(n - 1) / (d - 1), (n - 1) % (d - 1), Nat.mod_lt _ (by omega),
      (Nat.div_add_mod _ _).symm⟩
  have hq : (n - 1) / (d - 1) = q := by
    rw [hnq, Nat.mul_add_div (by omega), Nat.div_eq_of_lt hr, Nat.add_zero]
  have hdq : (d - 1) * q + q = d * q := by
    conv_rhs => rw [show d = (d - 1) + 1 by omega]
    rw [Nat.add_mul, Nat.one_mul]
  have hgross : gross d n = d * q + (r + 1) := by
    unfold gross
    rw [hq]
    omega
  rw [hgross, hq, Nat.mul_add_div (by omega), Nat.div_eq_of_lt (by omega),
    Nat.add_zero]

/-- The inverse is a right inverse. -/
theorem net_gross (hd : 1 < d) : net d (gross d n) = n := by
  rcases Nat.eq_zero_or_pos n with rfl | hn
  · simp [net, gross]
  · have hdiv := gross_div hd hn
    unfold net
    rw [hdiv]
    unfold gross
    omega

/-- One unit below the inverse the fee no longer leaves `n`. -/
theorem net_pred_gross_lt (hd : 1 < d) (hn : 0 < n) :
    net d (gross d n - 1) < n := by
  obtain ⟨q, r, hr, hnq⟩ : ∃ q r, r < d - 1 ∧ n - 1 = (d - 1) * q + r :=
    ⟨(n - 1) / (d - 1), (n - 1) % (d - 1), Nat.mod_lt _ (by omega),
      (Nat.div_add_mod _ _).symm⟩
  have hq : (n - 1) / (d - 1) = q := by
    rw [hnq, Nat.mul_add_div (by omega), Nat.div_eq_of_lt hr, Nat.add_zero]
  have hdq : (d - 1) * q + q = d * q := by
    conv_rhs => rw [show d = (d - 1) + 1 by omega]
    rw [Nat.add_mul, Nat.one_mul]
  have hpred : gross d n - 1 = d * q + r := by
    unfold gross
    rw [hq]
    omega
  unfold net
  rw [hpred, Nat.mul_add_div (by omega), Nat.div_eq_of_lt (by omega)]
  omega

/-- **THE LEAST INVERSE**: `gross d n` is the least amount that leaves `n`. -/
theorem gross_isLeast (hd : 1 < d) : IsLeast {g | net d g = n} (gross d n) := by
  refine ⟨net_gross hd, ?_⟩
  intro g hg
  rcases Nat.eq_zero_or_pos n with rfl | hn
  · simp [gross]
  · by_contra hlt
    have hle : g ≤ gross d n - 1 := by omega
    have hmono := net_mono (d := d) (by omega) hle
    have hstrict := net_pred_gross_lt hd hn
    have hg' : net d g = n := hg
    omega

/-- An amount that leaves at least `n` is at least the inverse of `n`. -/
theorem gross_le_of_le_net (hd : 1 < d) (h : n ≤ net d g) : gross d n ≤ g := by
  rcases Nat.eq_zero_or_pos n with rfl | hn
  · simp [gross]
  · by_contra hlt
    have hle : g ≤ gross d n - 1 := by omega
    have hmono := net_mono (d := d) (by omega) hle
    have hstrict := net_pred_gross_lt hd hn
    omega

end FloorFee
