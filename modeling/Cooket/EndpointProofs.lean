import Cooket.CeilDivProofs
import Cooket.CheckedArithProofs

/-! # The endpoint constants

    The economic constants of the curve and the few numeric facts every
    argument about it rests on: the curve starts at the origin, ends exactly at
    the graduation reserve, and every price coordinate it passes through stays
    below the root of the product. -/

namespace Endpoint

open CeilDiv CheckedArith

def TOKEN_UNIT : Nat := 10 ^ 18
def NATIVE_USDC_UNIT : Nat := 10 ^ 18
def NATIVE_PER_ERC20_BASE_UNIT : Nat := 10 ^ 12
def TOTAL_SUPPLY : Nat := 1000000000 * TOKEN_UNIT
def CURVE_ALLOCATION : Nat := 800000000 * TOKEN_UNIT
def LP_ALLOCATION : Nat := 200000000 * TOKEN_UNIT

def VIRTUAL_TOKEN_RESERVE : Nat := 1066666666666666666666666667
def VIRTUAL_NATIVE_USDC_RESERVE : Nat := 2415 * NATIVE_USDC_UNIT
def GRADUATION_NATIVE_USDC_RESERVE : Nat := 7245 * NATIVE_USDC_UNIT
def K : Nat := VIRTUAL_TOKEN_RESERVE * VIRTUAL_NATIVE_USDC_RESERVE

def FEE_DENOMINATOR : Nat := 10000
def TOTAL_FEE_BPS : Nat := 100
def FEE_SPLIT_DENOMINATOR : Nat := 100
def CREATOR_FEE_PERCENT : Nat := 35
def COMMUNITY_FEE_PERCENT : Nat := 20
def TRADER_REWARDS_FEE_PERCENT : Nat := 15
def LP_CREATOR_FEE_PERCENT : Nat := 25
def LP_COMMUNITY_FEE_PERCENT : Nat := 30
def LP_TRADER_REWARDS_FEE_PERCENT : Nat := 15
def NET_GROSS_ADJUSTMENT_DENOMINATOR : Nat :=
  (FEE_DENOMINATOR - TOTAL_FEE_BPS) / TOTAL_FEE_BPS
def INITIAL_NATIVE_USDC_PRICE : Nat := 2264062500000
def TERMINAL_NATIVE_USDC_PRICE : Nat := 36225000000000

/-- The token coordinate at which the curve inventory is gone. -/
def endTokens : Nat := VIRTUAL_TOKEN_RESERVE - CURVE_ALLOCATION

/-- The native coordinate at which the curve graduates. -/
def endNative : Nat :=
  VIRTUAL_NATIVE_USDC_RESERVE + GRADUATION_NATIVE_USDC_RESERVE

theorem allocations : CURVE_ALLOCATION + LP_ALLOCATION = TOTAL_SUPPLY := by
  decide

theorem curveAllocation_lt : CURVE_ALLOCATION < VIRTUAL_TOKEN_RESERVE := by
  decide

theorem curveAllocation_add_endTokens :
    CURVE_ALLOCATION + endTokens = VIRTUAL_TOKEN_RESERVE := by decide

theorem endTokens_pos : 0 < endTokens := by decide

theorem endNative_lt_endTokens : endNative < endTokens := by decide

theorem virtualNative_pos : 0 < VIRTUAL_NATIVE_USDC_RESERVE := by decide

theorem K_pos : 0 < K := by decide

theorem K_lt : K < uintBound := by decide

theorem virtualToken_lt : VIRTUAL_TOKEN_RESERVE < uintBound := by decide

theorem endNative_lt : endNative < uintBound := by decide

/-- **THE ORIGIN**: nothing sold, nothing held. -/
theorem ceilDiv_origin :
    K ⌈/⌉ VIRTUAL_TOKEN_RESERVE = VIRTUAL_NATIVE_USDC_RESERVE := by decide

/-- **THE ENDPOINT**: the whole inventory sold, exactly the graduation reserve
    held. -/
theorem ceilDiv_endTokens : K ⌈/⌉ endTokens = endNative := by decide

/-- Every native coordinate of the curve is below the root of the product. -/
theorem below_root {y : Nat} (hy : y ≤ endNative) : (y + 1) * y < K := by
  have hend : (endNative + 1) * endNative < K := by decide
  have hmul : (y + 1) * y ≤ (endNative + 1) * endNative :=
    Nat.mul_le_mul (by omega) hy
  omega

/-- Strictly before the endpoint some inventory is left. -/
theorem endTokens_lt_ceilDiv {y : Nat} (hy₀ : 0 < y) (hy : y < endNative) :
    endTokens < K ⌈/⌉ y := by
  rw [lt_ceilDiv_iff hy₀]
  have hend : (endNative - 1) * endTokens < K := by decide
  have hmul : y * endTokens ≤ (endNative - 1) * endTokens :=
    Nat.mul_le_mul_right _ (by omega)
  omega

end Endpoint
