import Mathlib.Algebra.Order.Group.Nat
import Mathlib.Data.Nat.Find
import Mathlib.Tactic.Linarith
import Mathlib.Tactic.Ring

/-! # Waiting before the next attempt

    `RetryingRPC.call` of `apps/indexer/retry.go` repeats a request that fails,
    and before each repetition `wait` sleeps for a delay that DOUBLES: the
    initial delay shifted left by the number of attempts, and then cut off at
    the maximum.

    The shift comes before the cut, in 64-bit signed arithmetic.  After enough
    attempts it wraps around, and a negative delay is not above any maximum. -/

namespace Retry

/-! ## The functions -/

/-- `RetryConfig`.  A `time.Duration` is a signed number of nanoseconds. -/
structure RetryConfig where
  maxAttempts : Int
  initialDelay : BitVec 64
  maxDelay : BitVec 64
  deriving DecidableEq, Repr

/-- `time.Millisecond`. -/
def millisecond : Nat := 1000000

/-- `RetryConfig.defaults`. -/
def RetryConfig.defaults (c : RetryConfig) : RetryConfig where
  maxAttempts := if c.maxAttempts < 1 then 3 else c.maxAttempts
  initialDelay :=
    if c.initialDelay.toInt ≤ 0 then BitVec.ofNat 64 (100 * millisecond)
    else c.initialDelay
  maxDelay :=
    if c.maxDelay.toInt ≤ 0 then BitVec.ofNat 64 (2000 * millisecond)
    else c.maxDelay

/-- The delay of `wait`. -/
def delay (cfg : RetryConfig) (attempt : Nat) : BitVec 64 :=
  let d := cfg.initialDelay <<< (attempt - 1)
  if cfg.maxDelay.toInt < d.toInt then cfg.maxDelay else d

/-- What a call meets at each attempt: whether the context has ended before it,
    how the request fails, if it does (`true` for a permanent error), and
    whether the context ends during the wait. -/
structure Weather where
  ctxErr : Nat → Bool
  fn : Nat → Option Bool
  ctxDone : Nat → Bool

/-- How a call ends. -/
inductive Outcome where
  | succeeded
  | failed
  | cancelled
  | exhausted
  deriving DecidableEq, Repr

/-- The loop of `call`, from an attempt on: the attempts it waits after, and
    how it ends. -/
def callFrom (cfg : RetryConfig) (w : Weather) (attempt : Nat) :
    List Nat × Outcome :=
  if (attempt : Int) ≤ cfg.maxAttempts then
    if w.ctxErr attempt then ([], .cancelled)
    else
      match w.fn attempt with
      | none => ([], .succeeded)
      | some permanent =>
          if permanent = true ∨ (attempt : Int) = cfg.maxAttempts then
            ([], .failed)
          else if w.ctxDone attempt then ([attempt], .cancelled)
          else
            let (waits, outcome) := callFrom cfg w (attempt + 1)
            (attempt :: waits, outcome)
  else ([], .exhausted)
termination_by (cfg.maxAttempts + 1 - attempt).toNat

/-- **`RetryingRPC.call`**. -/
def call (cfg : RetryConfig) (w : Weather) : List Nat × Outcome :=
  callFrom cfg w 1

/-! ## Which attempts are waited after -/

/-- An attempt that some call waits after. -/
def Reaches (cfg : RetryConfig) (attempt : Nat) : Prop :=
  ∃ w, attempt ∈ (call cfg w).1

theorem mem_callFrom {cfg : RetryConfig} {w : Weather} {start attempt : Nat}
    (h : attempt ∈ (callFrom cfg w start).1) :
    start ≤ attempt ∧ (attempt : Int) < cfg.maxAttempts := by
  induction start using callFrom.induct cfg w with
  | case1 start hle hctx =>
      rw [callFrom, if_pos hle, if_pos hctx] at h
      cases h
  | case2 start hle hctx hfn =>
      rw [callFrom, if_pos hle, if_neg hctx, hfn] at h
      cases h
  | case3 start hle hctx permanent hfn hlast =>
      rw [callFrom, if_pos hle, if_neg hctx, hfn] at h
      dsimp only at h
      rw [if_pos hlast] at h
      cases h
  | case4 start hle hctx permanent hfn hlast hdone =>
      rw [callFrom, if_pos hle, if_neg hctx, hfn] at h
      dsimp only at h
      rw [if_neg hlast, if_pos hdone] at h
      obtain rfl := List.mem_singleton.mp h
      rw [not_or] at hlast
      exact ⟨le_rfl, by omega⟩
  | case5 start hle hctx permanent hfn hlast hdone waits outcome heq ih =>
      rw [callFrom, if_pos hle, if_neg hctx, hfn] at h
      dsimp only at h
      rw [if_neg hlast, if_neg hdone] at h
      rw [not_or] at hlast
      rcases List.mem_cons.mp h with rfl | hrest
      · exact ⟨le_rfl, by omega⟩
      · obtain ⟨hstart, hlt⟩ := ih hrest
        exact ⟨by omega, hlt⟩
  | case6 start hle =>
      rw [callFrom, if_neg hle] at h
      cases h

/-- An outage: every request fails, and the context never ends. -/
def outage : Weather := ⟨fun _ => false, fun _ => some false, fun _ => false⟩

/-- **AN OUTAGE WAITS AFTER EVERY ATTEMPT** but the last. -/
theorem mem_outage {cfg : RetryConfig} {attempt : Nat}
    (hlt : (attempt : Int) < cfg.maxAttempts) :
    ∀ {start : Nat}, start ≤ attempt →
      attempt ∈ (callFrom cfg outage start).1 := by
  intro start hstart
  induction hgap : attempt - start generalizing start with
  | zero =>
      obtain rfl : start = attempt := by omega
      rw [callFrom, if_pos hlt.le]
      simp only [outage, Bool.false_eq_true, if_false, false_or]
      rw [if_neg hlt.ne]
      exact List.mem_cons_self
  | succ gap ih =>
      have hnext : attempt ∈ (callFrom cfg outage (start + 1)).1 :=
        ih (by omega) (by omega)
      rw [callFrom, if_pos (by omega)]
      simp only [outage, Bool.false_eq_true, if_false, false_or]
      rw [if_neg (by omega)]
      exact List.mem_cons_of_mem _ hnext

theorem reaches_iff (cfg : RetryConfig) (attempt : Nat) :
    Reaches cfg attempt ↔ 1 ≤ attempt ∧ (attempt : Int) < cfg.maxAttempts := by
  constructor
  · rintro ⟨w, h⟩
    exact mem_callFrom h
  · rintro ⟨hone, hlt⟩
    exact ⟨outage, mem_outage hlt hone⟩

/-! ## The shift -/

/-- A positive number of nanoseconds is its own bit pattern. -/
theorem toInt_of_pos {x : BitVec 64} (h : 0 < x.toInt) :
    x.toInt = x.toNat ∧ x.toNat < 2 ^ 63 := by
  rw [BitVec.toInt_eq_toNat_cond] at h ⊢
  have := x.isLt
  split at h
  · next hlt =>
    rw [if_pos hlt]
    exact ⟨rfl, by omega⟩
  · omega

/-- **WHILE THE PRODUCT FITS** the shift multiplies. -/
theorem shift_fits {x : BitVec 64} {n : Nat} (h : x.toNat * 2 ^ n < 2 ^ 63) :
    (x <<< n).toInt = (x.toNat * 2 ^ n : Nat) := by
  have hnat : (x <<< n).toNat = x.toNat * 2 ^ n := by
    rw [BitVec.toNat_shiftLeft, Nat.shiftLeft_eq, Nat.mod_eq_of_lt (by omega)]
  rw [BitVec.toInt_eq_toNat_cond, hnat, if_pos (by omega)]

/-- **THE FIRST PRODUCT THAT DOES NOT FIT** is negative. -/
theorem shift_wraps {x : BitVec 64} {n : Nat} (hlow : 2 ^ 63 ≤ x.toNat * 2 ^ n)
    (hhigh : x.toNat * 2 ^ n < 2 ^ 64) : (x <<< n).toInt < 0 := by
  have hnat : (x <<< n).toNat = x.toNat * 2 ^ n := by
    rw [BitVec.toNat_shiftLeft, Nat.shiftLeft_eq, Nat.mod_eq_of_lt hhigh]
  rw [BitVec.toInt_eq_toNat_cond, hnat, if_neg (by omega)]
  omega

theorem delay_of_fits {cfg : RetryConfig} {attempt : Nat}
    (h : cfg.initialDelay.toNat * 2 ^ (attempt - 1) < 2 ^ 63) :
    (delay cfg attempt).toInt =
      min ((cfg.initialDelay.toNat * 2 ^ (attempt - 1) : Nat) : Int)
        cfg.maxDelay.toInt := by
  rw [delay, shift_fits h]
  split
  · next hlt =>
    rw [min_eq_right hlt.le]
  · next hnot =>
    rw [shift_fits h, min_eq_left (not_lt.mp hnot)]

/-! ## The law -/

/-- The delays of a configuration as they should be: positive, not above the
    maximum, and never decreasing. -/
structure Steady (cfg : RetryConfig) (attempt : Nat) : Prop where
  positive : 0 < (delay cfg attempt).toInt
  capped : (delay cfg attempt).toInt ≤ cfg.maxDelay.toInt
  grows : ∀ earlier, 1 ≤ earlier → earlier ≤ attempt →
    (delay cfg earlier).toInt ≤ (delay cfg attempt).toInt

/-- Every delay that `call` can reach fits before it is cut off. -/
def Fits (cfg : RetryConfig) : Prop :=
  cfg.maxAttempts ≤ 1 ∨
    cfg.initialDelay.toNat * 2 ^ (cfg.maxAttempts - 2).toNat < 2 ^ 63

theorem defaults_positive (c : RetryConfig) :
    0 < c.defaults.initialDelay.toInt ∧ 0 < c.defaults.maxDelay.toInt := by
  constructor
  · rw [RetryConfig.defaults]
    dsimp only
    split
    · decide
    · next h => exact not_le.mp h
  · rw [RetryConfig.defaults]
    dsimp only
    split
    · decide
    · next h => exact not_le.mp h

theorem steady_of_fits {cfg : RetryConfig}
    (hinitial : 0 < cfg.initialDelay.toInt) (hmax : 0 < cfg.maxDelay.toInt)
    {attempt : Nat}
    (h : cfg.initialDelay.toNat * 2 ^ (attempt - 1) < 2 ^ 63) :
    Steady cfg attempt := by
  obtain ⟨hvalue, -⟩ := toInt_of_pos hinitial
  have hpos : 0 < cfg.initialDelay.toNat := by omega
  refine ⟨?_, ?_, ?_⟩
  · rw [delay_of_fits h]
    have hproduct := Nat.mul_pos hpos (Nat.two_pow_pos (attempt - 1))
    exact lt_min (by exact_mod_cast hproduct) hmax
  · rw [delay_of_fits h]
    exact min_le_right _ _
  · intro earlier _ hle
    have hproduct : cfg.initialDelay.toNat * 2 ^ (earlier - 1) ≤
        cfg.initialDelay.toNat * 2 ^ (attempt - 1) :=
      Nat.mul_le_mul_left _ (Nat.pow_le_pow_right (by decide) (by omega))
    rw [delay_of_fits h, delay_of_fits (hproduct.trans_lt h)]
    exact min_le_min_right _ (by exact_mod_cast hproduct)

/-- A product that does not fit has a first one that does not. -/
theorem exists_negative {cfg : RetryConfig}
    (hinitial : 0 < cfg.initialDelay.toInt) (hmax : 0 < cfg.maxDelay.toInt)
    {n : Nat} (h : 2 ^ 63 ≤ cfg.initialDelay.toNat * 2 ^ n) :
    ∃ k ≤ n, (delay cfg (k + 1)).toInt < 0 := by
  obtain ⟨-, hsmall⟩ := toInt_of_pos hinitial
  have hex : ∃ k, 2 ^ 63 ≤ cfg.initialDelay.toNat * 2 ^ k := ⟨n, h⟩
  have hfirst := Nat.find_spec hex
  refine ⟨Nat.find hex, Nat.find_min' hex h, ?_⟩
  cases hk : Nat.find hex with
  | zero =>
      rw [hk, pow_zero] at hfirst
      omega
  | succ k =>
      have hbefore := Nat.find_min hex (m := k) (by omega)
      rw [hk, pow_succ] at hfirst
      have hhigh : cfg.initialDelay.toNat * 2 ^ (k + 1) < 2 ^ 64 := by
        rw [pow_succ, ← Nat.mul_assoc]
        omega
      have hneg := shift_wraps (by rw [pow_succ]; exact hfirst) hhigh
      rw [delay, Nat.add_sub_cancel, if_neg (by omega)]
      exact hneg

/-- **WHEN THE DELAYS ARE STEADY**: exactly if the last doubling fits in 63
    bits. -/
theorem delays_steady_iff (c : RetryConfig) :
    (∀ attempt, Reaches c.defaults attempt → Steady c.defaults attempt) ↔
      Fits c.defaults := by
  obtain ⟨hinitial, hmax⟩ := defaults_positive c
  constructor
  · intro h
    by_contra hnot
    rw [Fits, not_or, not_le, not_lt] at hnot
    obtain ⟨hattempts, hbig⟩ := hnot
    obtain ⟨k, hk, hneg⟩ := exists_negative hinitial hmax hbig
    have hreach : Reaches c.defaults (k + 1) := by
      rw [reaches_iff]
      exact ⟨by omega, by push_cast; omega⟩
    have hpos := (h _ hreach).positive
    omega
  · intro hfits attempt hreach
    obtain ⟨hone, hlt⟩ := (reaches_iff _ _).mp hreach
    refine steady_of_fits hinitial hmax ?_
    rcases hfits with hfew | hfits
    · omega
    · refine lt_of_le_of_lt (Nat.mul_le_mul_left _ ?_) hfits
      exact Nat.pow_le_pow_right (by decide) (by omega)

/-- **A LONG OUTAGE**: with the default delays the wait after attempt
    thirty-eight is negative. -/
theorem long_outage_negative :
    38 ∈ (call (RetryConfig.defaults ⟨40, 0, 0⟩) outage).1 ∧
    (RetryConfig.defaults ⟨40, 0, 0⟩).initialDelay.toInt ≤
      (RetryConfig.defaults ⟨40, 0, 0⟩).maxDelay.toInt ∧
    (delay (RetryConfig.defaults ⟨40, 0, 0⟩) 38).toInt < 0 :=
  ⟨mem_outage (by decide) (by decide), by decide, by decide⟩

end Retry
