import Cooket.CurveQuoteProofs

/-! # Trades and the curve invariant

    What a completed trade leaves in the storage of `CooketCurveV3`, and what
    that says about every sequence of completed trades.

    A buy moves the NATIVE coordinate and rounds the token coordinate up, a
    sell moves the TOKEN coordinate and rounds the native one up, and the last
    buy uses neither formula.  All three land on one curve (`Step.onCurve`):
    for a buy that is the re-landing of `CeilDiv.ceilDiv_ceilDiv`, for a sell
    it is the formula itself, for the last buy it is the endpoint. -/

namespace CurveTrade

open CheckedArith Contract CeilDiv Endpoint CurveQuote

/-- The storage writes of `buy` before its first external call. -/
def recordBuy (s : CurveStorage) (q : BuyQuote) :
    Except Revert CurveStorage := do
  let soldSupply ← add s.soldSupply q.tokensOut
  let activeNativeUsdcReserve ←
    add s.activeNativeUsdcReserve q.netCurveInput
  revertIf (CURVE_ALLOCATION < soldSupply
      ∨ GRADUATION_NATIVE_USDC_RESERVE < activeNativeUsdcReserve)
    (.curve .graduationAccountingMismatch)
  pure
    { s with
      soldSupply
      activeNativeUsdcReserve
      graduated := if q.reachesGraduation then true else s.graduated }

/-- The guard and the storage writes of `_graduate`, given the launch-token
    balance the curve finds itself with. -/
def forwardReserve (s : CurveStorage) (tokenBalance : Nat) :
    Except Revert CurveStorage := do
  revertIf (s.soldSupply ≠ CURVE_ALLOCATION
      ∨ s.activeNativeUsdcReserve ≠ GRADUATION_NATIVE_USDC_RESERVE
      ∨ tokenBalance ≠ LP_ALLOCATION)
    (.curve .graduationAccountingMismatch)
  pure
    { s with
      terminalGraduationReserve := s.activeNativeUsdcReserve
      graduationNativeUsdcForwarded := s.activeNativeUsdcReserve
      activeNativeUsdcReserve := 0 }

/-- The storage writes of `sell` before its first external call. -/
def recordSell (s : CurveStorage) (q : SellQuote) :
    Except Revert CurveStorage := do
  let soldSupply ← sub s.soldSupply q.tokensIn
  let activeNativeUsdcReserve ←
    sub s.activeNativeUsdcReserve q.grossCurveOutput
  pure { s with soldSupply, activeNativeUsdcReserve }

/-- An accepted trade, as its event reports it. -/
inductive Trade where
  | bought (q : BuyQuote)
  | sold (q : SellQuote)
  deriving DecidableEq, Repr

namespace Trade

/-- What the trade adds to the reserve. -/
def netIn : Trade → Nat
  | .bought q => q.netCurveInput
  | .sold _ => 0

/-- What the trade takes from the reserve. -/
def grossOut : Trade → Nat
  | .bought _ => 0
  | .sold q => q.grossCurveOutput

/-- What the trade adds to the sold supply. -/
def tokensOut : Trade → Nat
  | .bought q => q.tokensOut
  | .sold _ => 0

/-- What the trade takes from the sold supply. -/
def tokensIn : Trade → Nat
  | .bought _ => 0
  | .sold q => q.tokensIn

def isSell : Trade → Bool
  | .bought _ => false
  | .sold _ => true

end Trade

variable [MulDiv]

/-- **A COMPLETED TRADE**, as the storage sees it. -/
inductive Step : CurveStorage → Trade → CurveStorage → Prop where
  | buy {s s' : CurveStorage} {gross : Nat} {q : BuyQuote} :
      gross < uintBound → quoteBuy s gross = .ok q →
      q.reachesGraduation = false → recordBuy s q = .ok s' →
      Step s (.bought q) s'
  | graduate {s s₁ s' : CurveStorage} {gross balance : Nat} {q : BuyQuote} :
      gross < uintBound → quoteBuy s gross = .ok q →
      q.reachesGraduation = true → recordBuy s q = .ok s₁ →
      forwardReserve s₁ balance = .ok s' → Step s (.bought q) s'
  | sell {s s' : CurveStorage} {tokensIn : Nat} {q : SellQuote} :
      quoteSell s tokensIn = .ok q → recordSell s q = .ok s' →
      Step s (.sold q) s'

/-- A sequence of completed trades. -/
inductive Run : CurveStorage → List Trade → CurveStorage → Prop where
  | refl (s : CurveStorage) : Run s [] s
  | step {s s₁ s' : CurveStorage} {t : Trade} {ts : List Trade} :
      Step s t s₁ → Run s₁ ts s' → Run s (t :: ts) s'

theorem Run.trans {s s₁ s' : CurveStorage} {ts us : List Trade}
    (h : Run s ts s₁) (h' : Run s₁ us s') : Run s (ts ++ us) s' := by
  induction h with
  | refl s => exact h'
  | step hstep _ ih => exact .step hstep (ih h')

/-! ## Inverting a quote -/

section Invert

variable {s : CurveStorage}

/-- A quoted buy is a buy of an active curve. -/
theorem quoteBuy_active {gross : Nat} {q : BuyQuote}
    (hq : quoteBuy s gross = .ok q) : 0 < gross ∧ s.graduated = false := by
  simp only [quoteBuy, bind_ok, revertIf_ok] at hq
  obtain ⟨_, hg, _, ha, -⟩ := hq
  refine ⟨Nat.pos_of_ne_zero hg, ?_⟩
  simpa using ha

/-- A quoted sell is a sell of an active curve, within what is sold. -/
theorem quoteSell_active {tokensIn : Nat} {q : SellQuote}
    (hq : quoteSell s tokensIn = .ok q) :
    s.graduated = false ∧ 0 < tokensIn ∧ tokensIn ≤ s.soldSupply := by
  simp only [quoteSell, bind_ok, revertIf_ok] at hq
  obtain ⟨_, ha, _, hamount, -⟩ := hq
  refine ⟨by simpa using ha, ?_⟩
  omega

/-- The shares of a split are the whole fee, whatever it was split from. -/
theorem splitFee_shares {gross : Nat} {f : FeeSplit}
    (h : splitFee gross = .ok f) :
    f.creatorFee + f.protocolFee + f.communityFee + f.traderRewardsFee
      = f.totalFee := by
  simp only [splitFee, bind_ok, sub_ok, pure_ok] at h
  obtain ⟨total, -, creator, -, community, -, rewards, -, _, ⟨h₁, rfl⟩, _,
    ⟨h₂, rfl⟩, _, ⟨h₃, rfl⟩, rfl⟩ := h
  show creator + (total - creator - community - rewards) + community + rewards
    = total
  omega

/-- A quoted buy splits what is submitted into the fee, the net input and the
    refund, and the fee into its shares. -/
theorem quoteBuy_amounts {gross : Nat} {q : BuyQuote}
    (hq : quoteBuy s gross = .ok q) :
    q.submittedGross = gross
      ∧ q.totalFee + q.netCurveInput + q.refund = gross
      ∧ q.creatorFee + q.protocolFee + q.communityFee + q.traderRewardsFee
        = q.totalFee := by
  simp only [quoteBuy, bind_ok, revertIf_ok, sub_ok, add_ok, pure_ok] at hq
  obtain ⟨_, -, _, -, _, -, _, -, _, -, accepted, -, fees, hfees, _,
    ⟨hfee, rfl⟩, _, ⟨hrefund, rfl⟩, _, -, _, -, _, -, tokens, -, _, -, _, -,
    rfl⟩ := hq
  refine ⟨rfl, ?_, splitFee_shares hfees⟩
  show fees.totalFee + (accepted - fees.totalFee) + (gross - accepted) = gross
  omega

/-- A quoted sell splits the gross output into the fee and the net output, and
    the fee into its shares. -/
theorem quoteSell_amounts {tokensIn : Nat} {q : SellQuote}
    (hq : quoteSell s tokensIn = .ok q) :
    q.tokensIn = tokensIn
      ∧ q.totalFee + q.netSellerOutput = q.grossCurveOutput
      ∧ q.creatorFee + q.protocolFee + q.communityFee + q.traderRewardsFee
        = q.totalFee := by
  simp only [quoteSell, bind_ok, revertIf_ok, sub_ok, pure_ok] at hq
  obtain ⟨_, -, _, -, _, -, _, -, _, -, _, -, gross, -, _, -, _, -, fees,
    hfees, _, ⟨hfee, rfl⟩, rfl⟩ := hq
  refine ⟨rfl, ?_, splitFee_shares hfees⟩
  show fees.totalFee + (gross - fees.totalFee) = gross
  omega

/-- **EVERY QUOTED BUY** is one of the two closed forms. -/
theorem quoteBuy_cases (h : OnCurve s) {gross : Nat} (hfit : gross < uintBound)
    {q : BuyQuote} (hq : quoteBuy s gross = .ok q) :
    s.graduated = false ∧ 0 < gross ∧
      ((FloorFee.net 100 gross < netNeeded s ∧ q = insideQuote s gross) ∨
        (netNeeded s ≤ FloorFee.net 100 gross ∧ q = clippedQuote s gross)) := by
  obtain ⟨hg, ha⟩ := quoteBuy_active hq
  refine ⟨ha, hg, ?_⟩
  rcases Nat.lt_or_ge (FloorFee.net 100 gross) (netNeeded s) with hin | hclip
  · rw [quoteBuy_inside h ha hg hfit hin] at hq
    exact Or.inl ⟨hin, (Except.ok.inj hq).symm⟩
  · rw [quoteBuy_clipped h ha hfit hclip] at hq
    exact Or.inr ⟨hclip, (Except.ok.inj hq).symm⟩

/-- **EVERY QUOTED SELL** has the closed form. -/
theorem quoteSell_cases (h : OnCurve s) {tokensIn : Nat} {q : SellQuote}
    (hq : quoteSell s tokensIn = .ok q) :
    s.graduated = false ∧ 0 < tokensIn ∧ tokensIn ≤ s.soldSupply
      ∧ grossOutput s tokensIn ≠ 0 ∧ q = sellQuoteOf s tokensIn := by
  obtain ⟨ha, hpos, hle⟩ := quoteSell_active hq
  rw [quoteSell_eq h ha hpos hle] at hq
  by_cases h0 : grossOutput s tokensIn = 0
  · rw [if_pos h0] at hq
    exact nomatch hq
  · rw [if_neg h0] at hq
    exact ⟨ha, hpos, hle, h0, (Except.ok.inj hq).symm⟩

end Invert

/-! ## What a trade writes -/

omit [MulDiv] in
theorem recordBuy_ok {s s' : CurveStorage} {q : BuyQuote}
    (hs : recordBuy s q = .ok s') :
    s' = { s with
      soldSupply := s.soldSupply + q.tokensOut
      activeNativeUsdcReserve := s.activeNativeUsdcReserve + q.netCurveInput
      graduated := if q.reachesGraduation then true else s.graduated } := by
  simp only [recordBuy, bind_ok, add_ok, revertIf_ok, pure_ok] at hs
  obtain ⟨_, ⟨-, rfl⟩, _, ⟨-, rfl⟩, _, -, rfl⟩ := hs
  rfl

omit [MulDiv] in
theorem forwardReserve_ok {s s' : CurveStorage} {balance : Nat}
    (hs : forwardReserve s balance = .ok s') :
    s.soldSupply = CURVE_ALLOCATION
      ∧ s.activeNativeUsdcReserve = GRADUATION_NATIVE_USDC_RESERVE
      ∧ balance = LP_ALLOCATION
      ∧ s' = { s with
        terminalGraduationReserve := s.activeNativeUsdcReserve
        graduationNativeUsdcForwarded := s.activeNativeUsdcReserve
        activeNativeUsdcReserve := 0 } := by
  simp only [forwardReserve, bind_ok, revertIf_ok, pure_ok, not_or,
    not_not] at hs
  obtain ⟨_, ⟨hsold, hreserve, hbalance⟩, rfl⟩ := hs
  exact ⟨hsold, hreserve, hbalance, rfl⟩

omit [MulDiv] in
theorem recordSell_ok {s s' : CurveStorage} {q : SellQuote}
    (hs : recordSell s q = .ok s') :
    q.tokensIn ≤ s.soldSupply
      ∧ q.grossCurveOutput ≤ s.activeNativeUsdcReserve
      ∧ s' = { s with
        soldSupply := s.soldSupply - q.tokensIn
        activeNativeUsdcReserve :=
          s.activeNativeUsdcReserve - q.grossCurveOutput } := by
  simp only [recordSell, bind_ok, sub_ok, pure_ok] at hs
  obtain ⟨_, ⟨hsold, rfl⟩, _, ⟨hreserve, rfl⟩, rfl⟩ := hs
  exact ⟨hsold, hreserve, rfl⟩

/-- The endpoint, as storage. -/
def endpoint : CurveStorage :=
  ⟨CURVE_ALLOCATION, 0, GRADUATION_NATIVE_USDC_RESERVE,
    GRADUATION_NATIVE_USDC_RESERVE, true⟩

omit [MulDiv] in
theorem onCurve_endpoint : OnCurve endpoint where
  coordinate h := nomatch h
  below h := nomatch h
  unforwarded h := nomatch h
  closed _ := rfl

omit [MulDiv] in
/-- The storage of a recorded inside buy is on the curve: the buy rounds the
    token coordinate up, and rounding the native coordinate up from there
    comes back to where the buy put it. -/
theorem onCurve_inside {s : CurveStorage} (h : OnCurve s)
    (ha : s.graduated = false) {gross : Nat} (hg : 0 < gross)
    (hin : FloorFee.net 100 gross < netNeeded s) :
    OnCurve { s with
      soldSupply := s.soldSupply + (insideQuote s gross).tokensOut
      activeNativeUsdcReserve :=
        s.activeNativeUsdcReserve + (insideQuote s gross).netCurveInput } := by
  obtain ⟨-, hlt, hle⟩ := insideQuote_tokensOut h ha hg hin
  have hsold := h.sold_lt ha
  have hbelow := h.below ha
  have hneed : netNeeded s
      = GRADUATION_NATIVE_USDC_RESERVE - s.activeNativeUsdcReserve := rfl
  have hend : endNative
      = VIRTUAL_NATIVE_USDC_RESERVE + GRADUATION_NATIVE_USDC_RESERVE := rfl
  have hv := virtualNative_pos
  have halloc := curveAllocation_lt
  have hout : (insideQuote s gross).tokensOut
      = VIRTUAL_TOKEN_RESERVE - s.soldSupply
        - K ⌈/⌉ (VIRTUAL_NATIVE_USDC_RESERVE
            + (s.activeNativeUsdcReserve + FloorFee.net 100 gross)) := rfl
  have hnet : (insideQuote s gross).netCurveInput = FloorFee.net 100 gross := rfl
  refine ⟨fun _ => ?_, fun _ => ?_, fun _ => h.unforwarded ha, fun hg' => ?_⟩
  · show VIRTUAL_NATIVE_USDC_RESERVE
        + (s.activeNativeUsdcReserve + (insideQuote s gross).netCurveInput)
      = K ⌈/⌉ (VIRTUAL_TOKEN_RESERVE
          - (s.soldSupply + (insideQuote s gross).tokensOut))
    have hunsold : VIRTUAL_TOKEN_RESERVE
          - (s.soldSupply + (insideQuote s gross).tokensOut)
        = K ⌈/⌉ (VIRTUAL_NATIVE_USDC_RESERVE
            + (s.activeNativeUsdcReserve + FloorFee.net 100 gross)) := by
      omega
    have hroot := below_root
      (y := VIRTUAL_NATIVE_USDC_RESERVE
        + (s.activeNativeUsdcReserve + FloorFee.net 100 gross) - 1) (by omega)
    rw [hunsold, hnet]
    refine (ceilDiv_ceilDiv (by omega) ?_).symm
    rw [Nat.sub_add_cancel (by omega)] at hroot
    exact hroot
  · show s.activeNativeUsdcReserve + (insideQuote s gross).netCurveInput
      < GRADUATION_NATIVE_USDC_RESERVE
    omega
  · exact absurd (hg'.symm.trans ha) (by decide)

/-! ## One trade -/

/-- The storage after a buy inside the curve. -/
def afterInside (s : CurveStorage) (gross : Nat) : CurveStorage :=
  { s with
    soldSupply := s.soldSupply + (insideQuote s gross).tokensOut
    activeNativeUsdcReserve :=
      s.activeNativeUsdcReserve + (insideQuote s gross).netCurveInput }

/-- The storage after a sell. -/
def afterSell (s : CurveStorage) (tokensIn : Nat) : CurveStorage :=
  { s with
    soldSupply := s.soldSupply - tokensIn
    activeNativeUsdcReserve :=
      s.activeNativeUsdcReserve - grossOutput s tokensIn }

omit [MulDiv] in
/-- The net amount of the last buy fills the reserve. -/
theorem reserve_add_netNeeded {s : CurveStorage} (h : OnCurve s) :
    s.activeNativeUsdcReserve + netNeeded s
      = GRADUATION_NATIVE_USDC_RESERVE :=
  Nat.add_sub_cancel' h.reserve_le

/-- **EVERY STEP** from the curve is one of three. -/
theorem Step.cases {s s' : CurveStorage} {t : Trade} (h : OnCurve s)
    (hstep : Step s t s') :
    s.graduated = false ∧
      ((∃ gross, 0 < gross ∧ gross < uintBound
          ∧ FloorFee.net 100 gross < netNeeded s
          ∧ t = .bought (insideQuote s gross) ∧ s' = afterInside s gross) ∨
        (∃ gross, gross < uintBound ∧ netNeeded s ≤ FloorFee.net 100 gross
          ∧ t = .bought (clippedQuote s gross) ∧ s' = endpoint) ∨
        (∃ tokensIn, 0 < tokensIn ∧ tokensIn ≤ s.soldSupply
          ∧ t = .sold (sellQuoteOf s tokensIn)
          ∧ s' = afterSell s tokensIn)) := by
  cases hstep with
  | @buy _ gross q hfit hq hreach hrec =>
      obtain ⟨ha, hg, ⟨hin, rfl⟩ | ⟨-, rfl⟩⟩ := quoteBuy_cases h hfit hq
      · have hs := recordBuy_ok hrec
        refine ⟨ha, Or.inl ⟨gross, hg, hfit, hin, rfl, ?_⟩⟩
        rw [hs]
        rfl
      · exact nomatch hreach
  | @graduate s₁ _ gross balance q hfit hq hreach hrec hfwd =>
      obtain ⟨ha, -, ⟨-, rfl⟩ | ⟨hclip, rfl⟩⟩ := quoteBuy_cases h hfit hq
      · exact nomatch hreach
      · have hs := recordBuy_ok hrec
        obtain ⟨hsold, hreserve, -, hs'⟩ := forwardReserve_ok hfwd
        refine ⟨ha, Or.inr (Or.inl ⟨gross, hfit, hclip, rfl, ?_⟩)⟩
        have hgrad : s₁.graduated = true := by
          rw [hs]
          rfl
        rw [hs', hreserve]
        simp only [endpoint, hsold, hgrad]
  | @sell _ tokensIn q hq hrec =>
      obtain ⟨ha, hpos, hle, -, rfl⟩ := quoteSell_cases h hq
      obtain ⟨-, -, hs⟩ := recordSell_ok hrec
      exact ⟨ha, Or.inr (Or.inr ⟨tokensIn, hpos, hle, rfl, hs⟩)⟩

omit [MulDiv] in
theorem onCurve_afterSell {s : CurveStorage} (h : OnCurve s)
    (ha : s.graduated = false) {tokensIn : Nat}
    (hle : tokensIn ≤ s.soldSupply) : OnCurve (afterSell s tokensIn) := by
  obtain ⟨hlow, hhigh⟩ := ceilDiv_postSold_le h ha hle
  have hbelow := h.below ha
  have hout : grossOutput s tokensIn
      = VIRTUAL_NATIVE_USDC_RESERVE + s.activeNativeUsdcReserve
        - K ⌈/⌉ (VIRTUAL_TOKEN_RESERVE - (s.soldSupply - tokensIn)) := rfl
  refine ⟨fun _ => ?_, fun _ => ?_, fun _ => h.unforwarded ha, fun hg => ?_⟩
  · show VIRTUAL_NATIVE_USDC_RESERVE
        + (s.activeNativeUsdcReserve - grossOutput s tokensIn)
      = K ⌈/⌉ (VIRTUAL_TOKEN_RESERVE - (s.soldSupply - tokensIn))
    omega
  · show s.activeNativeUsdcReserve - grossOutput s tokensIn
      < GRADUATION_NATIVE_USDC_RESERVE
    omega
  · exact absurd (hg.symm.trans ha) (by decide)

/-- **THE CURVE IS KEPT** by every trade. -/
theorem Step.onCurve {s s' : CurveStorage} {t : Trade} (h : OnCurve s)
    (hstep : Step s t s') : OnCurve s' := by
  obtain ⟨ha, ⟨gross, hg, -, hin, -, rfl⟩ | ⟨gross, -, -, -, rfl⟩
    | ⟨tokensIn, -, hle, -, rfl⟩⟩ := hstep.cases h
  · exact onCurve_inside h ha hg hin
  · exact onCurve_endpoint
  · exact onCurve_afterSell h ha hle

/-- One trade moves the reserve coordinate by its net input and its gross
    output. -/
theorem Step.reserve {s s' : CurveStorage} {t : Trade} (h : OnCurve s)
    (hstep : Step s t s') :
    reserveCoordinate s' + t.grossOut = reserveCoordinate s + t.netIn := by
  obtain ⟨ha, ⟨gross, hg, -, hin, rfl, rfl⟩ | ⟨gross, -, -, rfl, rfl⟩
    | ⟨tokensIn, -, hle, rfl, rfl⟩⟩ := hstep.cases h
  · have hr : reserveCoordinate s = s.activeNativeUsdcReserve := by
      simp [reserveCoordinate, ha]
    have hr' : reserveCoordinate (afterInside s gross)
        = s.activeNativeUsdcReserve + (insideQuote s gross).netCurveInput := by
      simp [reserveCoordinate, afterInside, ha]
    simp only [hr, hr', Trade.grossOut, Trade.netIn, Nat.add_zero]
  · have hr : reserveCoordinate s = s.activeNativeUsdcReserve := by
      simp [reserveCoordinate, ha]
    have hr' : reserveCoordinate endpoint
        = GRADUATION_NATIVE_USDC_RESERVE := if_pos rfl
    have hin : (clippedQuote s gross).netCurveInput = netNeeded s := rfl
    simp only [hr, hr', Trade.grossOut, Trade.netIn, Nat.add_zero, hin]
    rw [reserve_add_netNeeded h]
  · obtain ⟨hlow, hhigh⟩ := ceilDiv_postSold_le h ha hle
    have hr : reserveCoordinate s = s.activeNativeUsdcReserve := by
      simp [reserveCoordinate, ha]
    have hr' : reserveCoordinate (afterSell s tokensIn)
        = s.activeNativeUsdcReserve - grossOutput s tokensIn := by
      simp [reserveCoordinate, afterSell, ha]
    have hout : grossOutput s tokensIn ≤ s.activeNativeUsdcReserve := by
      unfold grossOutput
      omega
    simp only [hr, hr', Trade.grossOut, Trade.netIn, Nat.add_zero]
    exact Nat.sub_add_cancel hout

/-- One trade moves the sold supply by what it hands out and takes in. -/
theorem Step.sold {s s' : CurveStorage} {t : Trade} (h : OnCurve s)
    (hstep : Step s t s') :
    s'.soldSupply + t.tokensIn = s.soldSupply + t.tokensOut := by
  obtain ⟨ha, ⟨gross, hg, -, hin, rfl, rfl⟩ | ⟨gross, -, -, rfl, rfl⟩
    | ⟨tokensIn, -, hle, rfl, rfl⟩⟩ := hstep.cases h
  · simp only [afterInside, Trade.tokensIn, Trade.tokensOut, Nat.add_zero]
  · have hsold := h.sold_lt ha
    have hend : endpoint.soldSupply = CURVE_ALLOCATION := rfl
    have hin : (Trade.bought (clippedQuote s gross)).tokensIn = 0 := rfl
    have hout : (Trade.bought (clippedQuote s gross)).tokensOut
        = CURVE_ALLOCATION - s.soldSupply := rfl
    rw [hend, hin, hout]
    omega
  · simp only [afterSell, sellQuoteOf, Trade.tokensIn, Trade.tokensOut,
      Nat.add_zero]
    exact Nat.sub_add_cancel hle

/-! ## Every sequence of trades -/

namespace Run

variable {s s' : CurveStorage} {ts : List Trade}

theorem onCurve (hrun : Run s ts s') (h : OnCurve s) : OnCurve s' := by
  induction hrun with
  | refl s => exact h
  | step hstep _ ih => exact ih (hstep.onCurve h)

/-- **THE RESERVE IS THE SUM OF THE TRADES.** -/
theorem reserve (hrun : Run s ts s') (h : OnCurve s) :
    reserveCoordinate s' + (ts.map Trade.grossOut).sum
      = reserveCoordinate s + (ts.map Trade.netIn).sum := by
  induction hrun with
  | refl s => rfl
  | step hstep _ ih =>
      have htail := ih (hstep.onCurve h)
      have hhead := hstep.reserve h
      simp only [List.map_cons, List.sum_cons]
      omega

theorem sold (hrun : Run s ts s') (h : OnCurve s) :
    s'.soldSupply + (ts.map Trade.tokensIn).sum
      = s.soldSupply + (ts.map Trade.tokensOut).sum := by
  induction hrun with
  | refl s => rfl
  | step hstep _ ih =>
      have htail := ih (hstep.onCurve h)
      have hhead := hstep.sold h
      simp only [List.map_cons, List.sum_cons]
      omega

/-- Trading stops at graduation: nothing is traded from a graduated curve. -/
theorem eq_of_graduated (hrun : Run s ts s') (h : OnCurve s)
    (hg : s.graduated = true) : ts = [] ∧ s' = s := by
  cases hrun with
  | refl s => exact ⟨rfl, rfl⟩
  | step hstep _ =>
      have ha := (hstep.cases h).1
      exact absurd (hg.symm.trans ha) (by decide)

end Run

omit [MulDiv] in
/-- **THE RESERVE IS A FUNCTION OF THE SOLD SUPPLY.** -/
theorem reserve_of_sold {s s' : CurveStorage} (h : OnCurve s) (h' : OnCurve s')
    (hsold : s.soldSupply = s'.soldSupply) :
    reserveCoordinate s = reserveCoordinate s' := by
  have hs := h.reserveCoordinate_eq
  have hs' := h'.reserveCoordinate_eq
  rw [hsold, ← hs'] at hs
  omega

/-- **SELLING EVERYTHING BACK**, in any split, empties the reserve. -/
theorem Run.sell_all {s s' : CurveStorage} {ts : List Trade} (h : OnCurve s)
    (hrun : Run s ts s') (hsells : ∀ t ∈ ts, t.isSell = true)
    (hall : (ts.map Trade.tokensIn).sum = s.soldSupply) :
    s'.graduated = s.graduated ∧ s'.soldSupply = 0
      ∧ reserveCoordinate s' = 0 := by
  have hout : (ts.map Trade.tokensOut).sum = 0 := by
    refine List.sum_eq_zero ?_
    intro n hn
    obtain ⟨t, ht, rfl⟩ := List.mem_map.mp hn
    cases t with
    | bought q => exact nomatch hsells _ ht
    | sold q => rfl
  have hconserve := hrun.sold h
  have hsold : s'.soldSupply = 0 := by omega
  have h' := hrun.onCurve h
  have halloc : (0 : Nat) < CURVE_ALLOCATION := by decide
  have hopen' : s'.graduated = false := by
    cases hg : s'.graduated with
    | false => rfl
    | true =>
        have := h'.graduated_iff.mp hg
        omega
  have hopen : s.graduated = false := by
    cases hg : s.graduated with
    | false => rfl
    | true =>
        obtain ⟨-, hs⟩ := hrun.eq_of_graduated h hg
        rw [hs, hg] at hopen'
        exact hopen'
  refine ⟨hopen'.trans hopen.symm, hsold, ?_⟩
  have hcoord := h'.reserveCoordinate_eq
  rw [hsold, Nat.sub_zero, ceilDiv_origin] at hcoord
  omega

end CurveTrade
