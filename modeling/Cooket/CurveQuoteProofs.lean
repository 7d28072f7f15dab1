import Cooket.ContractProofs
import Cooket.EndpointProofs
import Cooket.FloorFeeProofs

/-! # The curve's quotes

    `CooketCurveV3`'s pure half: the fee split, the inverse of the fee, the two
    quotes and the price.  Every operation is checked, as the compiler emits
    it, so that "does not revert" is a statement about each intermediate value.

    On the curve (`OnCurve`) the checked definitions collapse to closed forms:
    a buy either stays inside (`quoteBuy_inside`) or is clipped at the boundary
    (`quoteBuy_clipped`), a sell is one subtraction of ceilings
    (`quoteSell_eq`).  All later results use these three equations only. -/

namespace CurveQuote

open CheckedArith Contract CeilDiv Endpoint

/-- `ICooketCurveV3.FeeSplit`. -/
structure FeeSplit where
  totalFee : Nat
  creatorFee : Nat
  protocolFee : Nat
  communityFee : Nat
  traderRewardsFee : Nat
  deriving DecidableEq, Repr

/-- `ICooketCurveV3.BuyQuote`. -/
structure BuyQuote where
  submittedGross : Nat
  acceptedGross : Nat
  totalFee : Nat
  creatorFee : Nat
  protocolFee : Nat
  communityFee : Nat
  traderRewardsFee : Nat
  netCurveInput : Nat
  refund : Nat
  tokensOut : Nat
  reachesGraduation : Bool
  deriving DecidableEq, Repr

/-- `ICooketCurveV3.SellQuote`. -/
structure SellQuote where
  tokensIn : Nat
  grossCurveOutput : Nat
  totalFee : Nat
  creatorFee : Nat
  protocolFee : Nat
  communityFee : Nat
  traderRewardsFee : Nat
  netSellerOutput : Nat
  deriving DecidableEq, Repr

/-- The mutable storage of `CooketCurveV3`. -/
structure CurveStorage where
  soldSupply : Nat
  activeNativeUsdcReserve : Nat
  terminalGraduationReserve : Nat
  graduationNativeUsdcForwarded : Nat
  graduated : Bool
  deriving DecidableEq, Repr

/-- The storage of a freshly deployed curve. -/
def CurveStorage.fresh : CurveStorage := ⟨0, 0, 0, 0, false⟩

/-- `_ceilDiv`. -/
def ceilDivChecked (numerator denominator : Nat) : Except Revert Nat :=
  if numerator = 0 then pure 0
  else do
    let n ← sub numerator 1
    let q ← div n denominator
    add q 1

/-- `reserveCoordinate`. -/
def reserveCoordinate (s : CurveStorage) : Nat :=
  if s.graduated then s.terminalGraduationReserve
  else s.activeNativeUsdcReserve

/-- `virtualTokenReserve`. -/
def virtualTokenReserve (s : CurveStorage) : Except Revert Nat :=
  sub VIRTUAL_TOKEN_RESERVE s.soldSupply

/-- `virtualNativeUsdcReserve`. -/
def virtualNativeUsdcReserve (s : CurveStorage) : Except Revert Nat :=
  add VIRTUAL_NATIVE_USDC_RESERVE (reserveCoordinate s)

section Checked

variable [MulDiv]

open MulDiv

/-- `splitFee`. -/
def splitFee (grossAmount : Nat) : Except Revert FeeSplit := do
  let totalFee ← mulDiv grossAmount TOTAL_FEE_BPS FEE_DENOMINATOR
  let creatorFee ← mulDiv totalFee CREATOR_FEE_PERCENT FEE_SPLIT_DENOMINATOR
  let communityFee ←
    mulDiv totalFee COMMUNITY_FEE_PERCENT FEE_SPLIT_DENOMINATOR
  let traderRewardsFee ←
    mulDiv totalFee TRADER_REWARDS_FEE_PERCENT FEE_SPLIT_DENOMINATOR
  let left ← sub totalFee creatorFee
  let left ← sub left communityFee
  let protocolFee ← sub left traderRewardsFee
  pure { totalFee, creatorFee, protocolFee, communityFee, traderRewardsFee }

/-- `grossRequiredForNet`. -/
def grossRequiredForNet (netAmount : Nat) : Except Revert Nat :=
  if netAmount = 0 then pure 0
  else do
    let pred ← sub netAmount 1
    let feeAdjustment ← div pred NET_GROSS_ADJUSTMENT_DENOMINATOR
    let headroom ← sub (uintBound - 1) netAmount
    revertIf (headroom < feeAdjustment) (.curve .invalidAmount)
    let gross ← add netAmount feeAdjustment
    let fees ← splitFee gross
    let net ← sub gross fees.totalFee
    revertIf (net ≠ netAmount) (.curve .graduationAccountingMismatch)
    pure gross

/-- `quoteBuy`. -/
def quoteBuy (s : CurveStorage) (grossInput : Nat) :
    Except Revert BuyQuote := do
  revertIf (grossInput = 0) (.curve .invalidAmount)
  revertIf (s.graduated = true) (.curve .tradingClosed)
  let netNeeded ← sub GRADUATION_NATIVE_USDC_RESERVE s.activeNativeUsdcReserve
  let submittedFees ← splitFee grossInput
  let submittedNet ← sub grossInput submittedFees.totalFee
  let acceptedGross ←
    (if netNeeded ≤ submittedNet then grossRequiredForNet netNeeded
     else pure grossInput)
  let fees ← splitFee acceptedGross
  let netCurveInput ← sub acceptedGross fees.totalFee
  let refund ← sub grossInput acceptedGross
  let postReserve ← add s.activeNativeUsdcReserve netCurveInput
  revertIf (GRADUATION_NATIVE_USDC_RESERVE < postReserve)
    (.curve .graduationAccountingMismatch)
  let reachesGraduation := decide (postReserve = GRADUATION_NATIVE_USDC_RESERVE)
  let remainingInventory ← sub CURVE_ALLOCATION s.soldSupply
  let tokensOut ←
    (if reachesGraduation then pure remainingInventory
     else do
      let postVirtualNative ← add VIRTUAL_NATIVE_USDC_RESERVE postReserve
      let postVirtualTokens ← ceilDivChecked K postVirtualNative
      let virtualTokens ← virtualTokenReserve s
      sub virtualTokens postVirtualTokens)
  revertIf (tokensOut = 0) (.curve .dustTrade)
  revertIf (remainingInventory < tokensOut) (.curve .insufficientCurveInventory)
  pure
    { submittedGross := grossInput
      acceptedGross
      totalFee := fees.totalFee
      creatorFee := fees.creatorFee
      protocolFee := fees.protocolFee
      communityFee := fees.communityFee
      traderRewardsFee := fees.traderRewardsFee
      netCurveInput
      refund
      tokensOut
      reachesGraduation }

/-- `quoteSell`. -/
def quoteSell (s : CurveStorage) (tokensIn : Nat) :
    Except Revert SellQuote := do
  revertIf (s.graduated = true) (.curve .tradingClosed)
  revertIf (tokensIn = 0 ∨ s.soldSupply < tokensIn) (.curve .invalidAmount)
  let postSold ← sub s.soldSupply tokensIn
  let postVirtualTokens ← sub VIRTUAL_TOKEN_RESERVE postSold
  let postVirtualNativeUsdc ← ceilDivChecked K postVirtualTokens
  let virtualNative ← virtualNativeUsdcReserve s
  let grossCurveOutput ← sub virtualNative postVirtualNativeUsdc
  revertIf (grossCurveOutput = 0) (.curve .dustTrade)
  revertIf (s.activeNativeUsdcReserve < grossCurveOutput)
    (.curve .insufficientReserve)
  let fees ← splitFee grossCurveOutput
  let netSellerOutput ← sub grossCurveOutput fees.totalFee
  pure
    { tokensIn
      grossCurveOutput
      totalFee := fees.totalFee
      creatorFee := fees.creatorFee
      protocolFee := fees.protocolFee
      communityFee := fees.communityFee
      traderRewardsFee := fees.traderRewardsFee
      netSellerOutput }

/-- `spotPrice`. -/
def spotPrice (s : CurveStorage) : Except Revert Nat := do
  let native ← virtualNativeUsdcReserve s
  let tokens ← virtualTokenReserve s
  mulDivCeil native TOKEN_UNIT tokens

end Checked

/-! ## The fee in closed form -/

/-- The fee split of a gross amount, over the integers. -/
def feeSplitOf (gross : Nat) : FeeSplit where
  totalFee := gross / 100
  creatorFee := gross / 100 * 35 / 100
  protocolFee := gross / 100 - gross / 100 * 35 / 100
    - gross / 100 * 20 / 100 - gross / 100 * 15 / 100
  communityFee := gross / 100 * 20 / 100
  traderRewardsFee := gross / 100 * 15 / 100

/-- The four shares are the whole fee. -/
theorem feeSplitOf_sum (gross : Nat) :
    (feeSplitOf gross).creatorFee + (feeSplitOf gross).protocolFee
      + (feeSplitOf gross).communityFee + (feeSplitOf gross).traderRewardsFee
      = (feeSplitOf gross).totalFee := by
  simp only [feeSplitOf]
  omega

theorem feeSplitOf_net (gross : Nat) :
    gross - (feeSplitOf gross).totalFee = FloorFee.net 100 gross := rfl

section ClosedForms

variable [MulDiv]

open MulDiv

/-- **THE SPLIT NEVER FAILS**: on every word it is the closed form. -/
theorem splitFee_eq {gross : Nat} (hg : gross < uintBound) :
    splitFee gross = .ok (feeSplitOf gross) := by
  have htotal : mulDiv gross TOTAL_FEE_BPS FEE_DENOMINATOR
      = .ok (gross / 100) := by
    have hq : gross * 100 / 10000 = gross / 100 :=
      Nat.mul_div_mul_right gross 100 (by decide : 0 < 100)
    have hfit : gross / 100 < uintBound :=
      Nat.lt_of_le_of_lt (Nat.div_le_self _ _) hg
    have h := mulDiv_floor gross TOTAL_FEE_BPS FEE_DENOMINATOR hg (by decide)
      (by decide) (by decide) (show gross * 100 / 10000 < uintBound by omega)
    rw [h]
    exact congrArg _ hq
  have hfee : gross / 100 < uintBound :=
    Nat.lt_of_le_of_lt (Nat.div_le_self _ _) hg
  have h35 := mulDiv_percent (p := 35) hfee (by decide)
  have h20 := mulDiv_percent (p := 20) hfee (by decide)
  have h15 := mulDiv_percent (p := 15) hfee (by decide)
  simp only [splitFee, htotal, bind_ok, pure_ok, sub_ok, Except.ok.injEq,
    exists_eq_left', CREATOR_FEE_PERCENT, COMMUNITY_FEE_PERCENT,
    TRADER_REWARDS_FEE_PERCENT, FEE_SPLIT_DENOMINATOR, h35, h20, h15, feeSplitOf, FeeSplit.mk.injEq]
  refine ⟨_, ⟨?_, rfl⟩, _, ⟨?_, rfl⟩, _, ⟨?_, rfl⟩, ?_⟩
  · omega
  · omega
  · omega
  · exact ⟨trivial, trivial, rfl, trivial, trivial⟩

/-- **THE INVERSE NEVER FAILS** while it fits in a word: it is the least gross
    amount of the floored fee. -/
theorem grossRequiredForNet_eq {net : Nat}
    (hfit : FloorFee.gross 100 net < uintBound) :
    grossRequiredForNet net = .ok (FloorFee.gross 100 net) := by
  unfold grossRequiredForNet
  by_cases h0 : net = 0
  · subst h0
    simp [FloorFee.gross]
  · rw [if_neg h0]
    have hgross : FloorFee.gross 100 net = net + (net - 1) / 99 := rfl
    have hnet := FloorFee.net_gross (d := 100) (n := net) (by decide)
    have hdenom : NET_GROSS_ADJUSTMENT_DENOMINATOR = 99 := by decide
    have hle : net ≤ uintBound - 1 := by omega
    have hfee : (feeSplitOf (FloorFee.gross 100 net)).totalFee
        ≤ FloorFee.gross 100 net := Nat.div_le_self _ _
    simp only [bind_ok, sub_ok, div_ok, revertIf_ok, add_ok, pure_ok, hdenom]
    refine ⟨_, ⟨by omega, rfl⟩, _, ⟨by decide, rfl⟩, _, ⟨hle, rfl⟩, (), ?_, _,
      ⟨by omega, rfl⟩, _, splitFee_eq (hgross ▸ hfit), _, ⟨hgross ▸ hfee, rfl⟩,
      (), ?_, hgross.symm⟩
    · omega
    · rw [← hgross, feeSplitOf_net]
      simpa using hnet

/-- **THE INVERSE REVERTS** as an invalid amount once it does not fit. -/
theorem grossRequiredForNet_overflow {net : Nat} (hnet : net < uintBound)
    (hover : uintBound ≤ FloorFee.gross 100 net) :
    grossRequiredForNet net = .error (.curve .invalidAmount) := by
  have hgross : FloorFee.gross 100 net = net + (net - 1) / 99 := rfl
  have hdenom : NET_GROSS_ADJUSTMENT_DENOMINATOR = 99 := by decide
  have hpos : net ≠ 0 := by
    rintro rfl
    exact absurd hover (by decide)
  unfold grossRequiredForNet
  rw [if_neg hpos, sub_eq (by omega), ok_bind, hdenom,
    div_eq (by decide), ok_bind, sub_eq (by omega), ok_bind,
    revertIf_bind_pos (by omega)]

omit [MulDiv] in
/-- `_ceilDiv` is the ceiling. -/
theorem ceilDivChecked_eq {n d : Nat} (hn₀ : 0 < n) (hn : n < uintBound)
    (hd : 0 < d) : ceilDivChecked n d = .ok (n ⌈/⌉ d) := by
  have hq := pred_div_add_one hn₀ hd
  have hle : (n - 1) / d ≤ n - 1 := Nat.div_le_self _ _
  unfold ceilDivChecked
  rw [if_neg (by omega)]
  simp only [bind_ok, sub_ok, div_ok, add_ok]
  exact ⟨_, ⟨by omega, rfl⟩, _, ⟨by omega, rfl⟩, by omega, hq⟩

end ClosedForms

/-! ## The curve -/

/-- **THE CURVE**: before graduation the reserve is below the boundary and is
    the ceiling of the product over what is unsold; afterwards the storage is
    the endpoint. -/
structure OnCurve (s : CurveStorage) : Prop where
  coordinate : s.graduated = false →
    VIRTUAL_NATIVE_USDC_RESERVE + s.activeNativeUsdcReserve
      = K ⌈/⌉ (VIRTUAL_TOKEN_RESERVE - s.soldSupply)
  below : s.graduated = false →
    s.activeNativeUsdcReserve < GRADUATION_NATIVE_USDC_RESERVE
  unforwarded : s.graduated = false →
    s.terminalGraduationReserve = 0 ∧ s.graduationNativeUsdcForwarded = 0
  closed : s.graduated = true →
    s = ⟨CURVE_ALLOCATION, 0, GRADUATION_NATIVE_USDC_RESERVE,
      GRADUATION_NATIVE_USDC_RESERVE, true⟩

/-- A fresh curve is at the origin. -/
theorem onCurve_fresh : OnCurve CurveStorage.fresh where
  coordinate _ := ceilDiv_origin.symm
  below _ := by decide
  unforwarded _ := ⟨rfl, rfl⟩
  closed h := nomatch h

namespace OnCurve

variable {s : CurveStorage}

/-- Before graduation some inventory is unsold. -/
theorem sold_lt (h : OnCurve s) (ha : s.graduated = false) :
    s.soldSupply < CURVE_ALLOCATION := by
  by_contra hge
  have hsum := curveAllocation_add_endTokens
  have hle : VIRTUAL_TOKEN_RESERVE - s.soldSupply ≤ endTokens := by omega
  have hcoord := h.coordinate ha
  have hbelow := h.below ha
  have hpos := virtualNative_pos
  rcases Nat.eq_zero_or_pos (VIRTUAL_TOKEN_RESERVE - s.soldSupply) with h0 | h0
  · rw [h0, Nat.ceilDiv_eq_add_pred_div, Nat.div_zero] at hcoord
    omega
  · have hend := ceilDiv_anti (K := K) h0 hle
    rw [ceilDiv_endTokens] at hend
    unfold endNative at hend
    omega

theorem graduated_iff (h : OnCurve s) :
    s.graduated = true ↔ s.soldSupply = CURVE_ALLOCATION := by
  constructor
  · intro hg
    rw [h.closed hg]
  · intro hs
    cases hg : s.graduated with
    | true => rfl
    | false =>
        have := h.sold_lt hg
        omega

theorem reserve_le (h : OnCurve s) :
    s.activeNativeUsdcReserve ≤ GRADUATION_NATIVE_USDC_RESERVE := by
  cases hg : s.graduated with
  | false => exact Nat.le_of_lt (h.below hg)
  | true =>
      rw [h.closed hg]
      exact Nat.zero_le _

/-- The unsold coordinate covers the product. -/
theorem covers (h : OnCurve s) (ha : s.graduated = false) :
    K ≤ (VIRTUAL_TOKEN_RESERVE - s.soldSupply)
      * (VIRTUAL_NATIVE_USDC_RESERVE + s.activeNativeUsdcReserve) := by
  have hsold := h.sold_lt ha
  have hlt := curveAllocation_lt
  rw [h.coordinate ha]
  exact le_mul_ceilDiv (by omega)

/-- On the curve the reserve coordinate is a function of the sold supply. -/
theorem reserveCoordinate_eq (h : OnCurve s) :
    VIRTUAL_NATIVE_USDC_RESERVE + reserveCoordinate s
      = K ⌈/⌉ (VIRTUAL_TOKEN_RESERVE - s.soldSupply) := by
  cases hg : s.graduated with
  | false =>
      simp only [reserveCoordinate, hg]
      exact h.coordinate hg
  | true =>
      rw [h.closed hg]
      exact ceilDiv_endTokens.symm

end OnCurve

/-! ## The quotes in closed form -/

section Quotes

variable [MulDiv] {s : CurveStorage}

/-- The net amount still missing to the graduation reserve. -/
def netNeeded (s : CurveStorage) : Nat :=
  GRADUATION_NATIVE_USDC_RESERVE - s.activeNativeUsdcReserve

/-- The quote of a buy that stays inside the curve. -/
def insideQuote (s : CurveStorage) (gross : Nat) : BuyQuote where
  submittedGross := gross
  acceptedGross := gross
  totalFee := (feeSplitOf gross).totalFee
  creatorFee := (feeSplitOf gross).creatorFee
  protocolFee := (feeSplitOf gross).protocolFee
  communityFee := (feeSplitOf gross).communityFee
  traderRewardsFee := (feeSplitOf gross).traderRewardsFee
  netCurveInput := FloorFee.net 100 gross
  refund := 0
  tokensOut := VIRTUAL_TOKEN_RESERVE - s.soldSupply
    - K ⌈/⌉ (VIRTUAL_NATIVE_USDC_RESERVE
        + (s.activeNativeUsdcReserve + FloorFee.net 100 gross))
  reachesGraduation := false

/-- The quote of a buy clipped at the graduation boundary. -/
def clippedQuote (s : CurveStorage) (gross : Nat) : BuyQuote where
  submittedGross := gross
  acceptedGross := FloorFee.gross 100 (netNeeded s)
  totalFee := (feeSplitOf (FloorFee.gross 100 (netNeeded s))).totalFee
  creatorFee := (feeSplitOf (FloorFee.gross 100 (netNeeded s))).creatorFee
  protocolFee := (feeSplitOf (FloorFee.gross 100 (netNeeded s))).protocolFee
  communityFee := (feeSplitOf (FloorFee.gross 100 (netNeeded s))).communityFee
  traderRewardsFee :=
    (feeSplitOf (FloorFee.gross 100 (netNeeded s))).traderRewardsFee
  netCurveInput := netNeeded s
  refund := gross - FloorFee.gross 100 (netNeeded s)
  tokensOut := CURVE_ALLOCATION - s.soldSupply
  reachesGraduation := true

/-- The gross output of a sell. -/
def grossOutput (s : CurveStorage) (tokensIn : Nat) : Nat :=
  VIRTUAL_NATIVE_USDC_RESERVE + s.activeNativeUsdcReserve
    - K ⌈/⌉ (VIRTUAL_TOKEN_RESERVE - (s.soldSupply - tokensIn))

/-- The quote of a sell. -/
def sellQuoteOf (s : CurveStorage) (tokensIn : Nat) : SellQuote where
  tokensIn := tokensIn
  grossCurveOutput := grossOutput s tokensIn
  totalFee := (feeSplitOf (grossOutput s tokensIn)).totalFee
  creatorFee := (feeSplitOf (grossOutput s tokensIn)).creatorFee
  protocolFee := (feeSplitOf (grossOutput s tokensIn)).protocolFee
  communityFee := (feeSplitOf (grossOutput s tokensIn)).communityFee
  traderRewardsFee := (feeSplitOf (grossOutput s tokensIn)).traderRewardsFee
  netSellerOutput := FloorFee.net 100 (grossOutput s tokensIn)

omit [MulDiv] in
/-- A buy that stays inside takes something and leaves inventory. -/
theorem insideQuote_tokensOut (h : OnCurve s) (ha : s.graduated = false)
    {gross : Nat} (hg : 0 < gross)
    (hin : FloorFee.net 100 gross < netNeeded s) :
    0 < (insideQuote s gross).tokensOut
      ∧ (insideQuote s gross).tokensOut < CURVE_ALLOCATION - s.soldSupply
      ∧ K ⌈/⌉ (VIRTUAL_NATIVE_USDC_RESERVE
          + (s.activeNativeUsdcReserve + FloorFee.net 100 gross))
        ≤ VIRTUAL_TOKEN_RESERVE - s.soldSupply := by
  have hnet : 0 < FloorFee.net 100 gross := FloorFee.net_pos (by decide) hg
  have hbelow := h.below ha
  have hcov := h.covers ha
  have hsold := h.sold_lt ha
  have hv := virtualNative_pos
  have hsum := curveAllocation_add_endTokens
  have hend : endNative
      = VIRTUAL_NATIVE_USDC_RESERVE + GRADUATION_NATIVE_USDC_RESERVE := rfl
  unfold netNeeded at hin
  have hpost := endTokens_lt_ceilDiv
    (y := VIRTUAL_NATIVE_USDC_RESERVE
      + (s.activeNativeUsdcReserve + FloorFee.net 100 gross))
    (by omega) (by omega)
  have hroot := below_root
    (y := VIRTUAL_NATIVE_USDC_RESERVE + s.activeNativeUsdcReserve) (by omega)
  have hdrop := ceilDiv_lt_of_lt
    (z := VIRTUAL_NATIVE_USDC_RESERVE
      + (s.activeNativeUsdcReserve + FloorFee.net 100 gross))
    (by omega) hroot (by omega) hcov
  simp only [insideQuote]
  omega

/-- **A BUY INSIDE THE CURVE** is quoted in full. -/
theorem quoteBuy_inside (h : OnCurve s) (ha : s.graduated = false)
    {gross : Nat} (hg : 0 < gross) (hfit : gross < uintBound)
    (hin : FloorFee.net 100 gross < netNeeded s) :
    quoteBuy s gross = .ok (insideQuote s gross) := by
  obtain ⟨hpos, hlt, hcoord⟩ := insideQuote_tokensOut h ha hg hin
  have hle := h.reserve_le
  have hsold := h.sold_lt ha
  have hend : endNative
      = VIRTUAL_NATIVE_USDC_RESERVE + GRADUATION_NATIVE_USDC_RESERVE := rfl
  have hendlt := endNative_lt
  have hv := virtualNative_pos
  have halloc := curveAllocation_lt
  have hfee : (feeSplitOf gross).totalFee ≤ gross := Nat.div_le_self _ _
  have hpost : s.activeNativeUsdcReserve + FloorFee.net 100 gross
      < GRADUATION_NATIVE_USDC_RESERVE := by
    unfold netNeeded at hin
    omega
  have hceil := ceilDivChecked_eq K_pos K_lt
    (d := VIRTUAL_NATIVE_USDC_RESERVE
      + (s.activeNativeUsdcReserve + FloorFee.net 100 gross)) (by omega)
  unfold netNeeded at hin
  have hmiss : s.activeNativeUsdcReserve + FloorFee.net 100 gross
      ≠ GRADUATION_NATIVE_USDC_RESERVE := by omega
  have htokens : (do
      let postVirtualNative ← add VIRTUAL_NATIVE_USDC_RESERVE
        (s.activeNativeUsdcReserve + FloorFee.net 100 gross)
      let postVirtualTokens ← ceilDivChecked K postVirtualNative
      let virtualTokens ← virtualTokenReserve s
      sub virtualTokens postVirtualTokens : Except Revert Nat)
      = .ok (insideQuote s gross).tokensOut := by
    rw [add_eq (by omega), ok_bind, hceil, ok_bind, virtualTokenReserve,
      sub_eq (by omega), ok_bind, sub_eq hcoord]
    rfl
  rw [quoteBuy, revertIf_bind_neg (by omega), revertIf_bind_neg (by simp [ha]),
    sub_eq hle, ok_bind, splitFee_eq hfit, ok_bind, sub_eq hfee, ok_bind,
    feeSplitOf_net, if_neg (Nat.not_le.mpr hin)]
  simp only [pure_bind]
  rw [splitFee_eq hfit, ok_bind, sub_eq hfee, ok_bind, feeSplitOf_net,
    sub_eq (Nat.le_refl _), ok_bind, add_eq (by omega), ok_bind,
    revertIf_bind_neg (by omega), sub_eq (by omega), ok_bind]
  simp only [hmiss, decide_false, Bool.false_eq_true, if_false]
  rw [htokens, ok_bind, revertIf_bind_neg (by omega),
    revertIf_bind_neg (by omega), Nat.sub_self]
  rfl

omit [MulDiv] in
/-- The gross amount of the boundary is accepted in full by every word that
    reaches it. -/
theorem gross_netNeeded_le {gross : Nat}
    (hclip : netNeeded s ≤ FloorFee.net 100 gross) :
    FloorFee.gross 100 (netNeeded s) ≤ gross :=
  FloorFee.gross_le_of_le_net (by decide) hclip

/-- **A BUY AT THE BOUNDARY** is clipped to the least gross amount that reaches
    it, takes the whole remaining inventory and is refunded the rest. -/
theorem quoteBuy_clipped (h : OnCurve s) (ha : s.graduated = false)
    {gross : Nat} (hfit : gross < uintBound)
    (hclip : netNeeded s ≤ FloorFee.net 100 gross) :
    quoteBuy s gross = .ok (clippedQuote s gross) := by
  have hle := h.reserve_le
  have hbelow := h.below ha
  have hsold := h.sold_lt ha
  have hneed : 0 < netNeeded s := by
    unfold netNeeded
    omega
  have hg : 0 < gross := by
    have := FloorFee.net_le 100 gross
    omega
  have hgross := gross_netNeeded_le hclip
  have hfee : (feeSplitOf gross).totalFee ≤ gross := Nat.div_le_self _ _
  have hfit' : FloorFee.gross 100 (netNeeded s) < uintBound := by omega
  have hfee' : (feeSplitOf (FloorFee.gross 100 (netNeeded s))).totalFee
      ≤ FloorFee.gross 100 (netNeeded s) := Nat.div_le_self _ _
  have hpost : s.activeNativeUsdcReserve + netNeeded s
      = GRADUATION_NATIVE_USDC_RESERVE := by
    unfold netNeeded
    omega
  have hendlt : GRADUATION_NATIVE_USDC_RESERVE < uintBound := by decide
  rw [quoteBuy, revertIf_bind_neg (by omega), revertIf_bind_neg (by simp [ha]),
    sub_eq hle, ok_bind, splitFee_eq hfit, ok_bind, sub_eq hfee, ok_bind,
    feeSplitOf_net]
  rw [show GRADUATION_NATIVE_USDC_RESERVE - s.activeNativeUsdcReserve
      = netNeeded s from rfl, if_pos hclip,
    grossRequiredForNet_eq hfit', ok_bind, splitFee_eq hfit', ok_bind,
    sub_eq hfee', ok_bind, feeSplitOf_net, FloorFee.net_gross (by decide),
    sub_eq hgross, ok_bind, add_eq (by omega), ok_bind,
    revertIf_bind_neg (by omega), sub_eq (by omega), ok_bind]
  simp only [hpost, decide_true, if_true, pure_bind]
  rw [revertIf_bind_neg (by omega), revertIf_bind_neg (by omega)]
  rfl

omit [MulDiv] in
/-- The post-sell coordinate is on the curve and not above the present one. -/
theorem ceilDiv_postSold_le (h : OnCurve s) (ha : s.graduated = false)
    {tokensIn : Nat} (hle : tokensIn ≤ s.soldSupply) :
    VIRTUAL_NATIVE_USDC_RESERVE
        ≤ K ⌈/⌉ (VIRTUAL_TOKEN_RESERVE - (s.soldSupply - tokensIn))
      ∧ K ⌈/⌉ (VIRTUAL_TOKEN_RESERVE - (s.soldSupply - tokensIn))
        ≤ VIRTUAL_NATIVE_USDC_RESERVE + s.activeNativeUsdcReserve := by
  have hsold := h.sold_lt ha
  have halloc := curveAllocation_lt
  constructor
  · rw [← ceilDiv_origin]
    exact ceilDiv_anti (by omega) (by omega)
  · rw [h.coordinate ha]
    exact ceilDiv_anti (by omega) (by omega)

/-- **A SELL** reverts as dust exactly when it moves the coordinate by nothing
    and is quoted in full otherwise. -/
theorem quoteSell_eq (h : OnCurve s) (ha : s.graduated = false)
    {tokensIn : Nat} (hpos : 0 < tokensIn) (hle : tokensIn ≤ s.soldSupply) :
    quoteSell s tokensIn
      = if grossOutput s tokensIn = 0 then .error (.curve .dustTrade)
        else .ok (sellQuoteOf s tokensIn) := by
  obtain ⟨hlow, hhigh⟩ := ceilDiv_postSold_le h ha hle
  have hsold := h.sold_lt ha
  have halloc := curveAllocation_lt
  have hreserve := h.reserve_le
  have hend : endNative
      = VIRTUAL_NATIVE_USDC_RESERVE + GRADUATION_NATIVE_USDC_RESERVE := rfl
  have hendlt := endNative_lt
  have hcoord : reserveCoordinate s = s.activeNativeUsdcReserve := by
    simp [reserveCoordinate, ha]
  have hceil := ceilDivChecked_eq K_pos K_lt
    (d := VIRTUAL_TOKEN_RESERVE - (s.soldSupply - tokensIn)) (by omega)
  have hout : grossOutput s tokensIn ≤ s.activeNativeUsdcReserve := by
    unfold grossOutput
    omega
  have hfit : grossOutput s tokensIn < uintBound := by omega
  have hfee : (feeSplitOf (grossOutput s tokensIn)).totalFee
      ≤ grossOutput s tokensIn := Nat.div_le_self _ _
  rw [quoteSell, revertIf_bind_neg (by simp [ha]), revertIf_bind_neg (by omega),
    sub_eq hle, ok_bind, sub_eq (by omega), ok_bind, hceil, ok_bind,
    virtualNativeUsdcReserve, hcoord, add_eq (by omega), ok_bind, sub_eq hhigh,
    ok_bind]
  rw [show VIRTUAL_NATIVE_USDC_RESERVE + s.activeNativeUsdcReserve
      - K ⌈/⌉ (VIRTUAL_TOKEN_RESERVE - (s.soldSupply - tokensIn))
      = grossOutput s tokensIn from rfl]
  by_cases h0 : grossOutput s tokensIn = 0
  · rw [revertIf_bind_pos h0, if_pos h0]
  · rw [revertIf_bind_neg h0, if_neg h0, revertIf_bind_neg (by omega),
      splitFee_eq hfit, ok_bind, sub_eq hfee, ok_bind, feeSplitOf_net]
    rfl

/-- The price of a point of the curve. -/
def priceAt (s : CurveStorage) : Nat :=
  ((VIRTUAL_NATIVE_USDC_RESERVE + reserveCoordinate s) * TOKEN_UNIT)
    ⌈/⌉ (VIRTUAL_TOKEN_RESERVE - s.soldSupply)

/-- **THE PRICE NEVER FAILS** on the curve. -/
theorem spotPrice_eq (h : OnCurve s) : spotPrice s = .ok (priceAt s) := by
  have hsold : s.soldSupply ≤ CURVE_ALLOCATION := by
    cases hg : s.graduated with
    | true => rw [h.closed hg]
    | false => exact Nat.le_of_lt (h.sold_lt hg)
  have hreserve : reserveCoordinate s ≤ GRADUATION_NATIVE_USDC_RESERVE := by
    cases hg : s.graduated with
    | true =>
        rw [h.closed hg]
        exact Nat.le_refl _
    | false =>
        simp only [reserveCoordinate, hg]
        exact h.reserve_le
  have halloc := curveAllocation_lt
  have hvt := virtualToken_lt
  have hend : endNative
      = VIRTUAL_NATIVE_USDC_RESERVE + GRADUATION_NATIVE_USDC_RESERVE := rfl
  have hendlt := endNative_lt
  have hfit : priceAt s < uintBound := by
    have hnum : (VIRTUAL_NATIVE_USDC_RESERVE + reserveCoordinate s) * TOKEN_UNIT
        ≤ endNative * TOKEN_UNIT := Nat.mul_le_mul_right _ (by omega)
    have hone : priceAt s ≤ endNative * TOKEN_UNIT := by
      unfold priceAt
      rw [ceilDiv_le_iff_le_mul (by omega)]
      have hmul : 1 * (endNative * TOKEN_UNIT)
          ≤ (VIRTUAL_TOKEN_RESERVE - s.soldSupply) * (endNative * TOKEN_UNIT) :=
        Nat.mul_le_mul_right _ (by omega)
      omega
    have hbound : endNative * TOKEN_UNIT < uintBound := by decide
    omega
  rw [spotPrice, virtualNativeUsdcReserve, add_eq (by omega), ok_bind,
    virtualTokenReserve, sub_eq (by omega), ok_bind]
  exact MulDiv.mulDivCeil_ceil _ _ _ (by omega) (by decide) (by omega)
    (by omega) hfit

end Quotes

end CurveQuote
