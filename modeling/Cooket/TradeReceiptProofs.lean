import Cooket.TradeRowsProofs

/-! # Three readings of a curve trade

    A `TokensBought` or `TokensSold` event is read three times: by the SDK in
    the browser (`parseTradeReceipt` of `packages/contracts-sdk`), by the
    indexer (`projection`, a row of `trades`) and by the realtime service
    (`decodeCurve`).  This file has the SDK's reading and compares the three.

    On a BUY they agree.  On a SELL the SDK puts the curve's gross output under
    `reserveAmount` and the seller's net under `curveValue`; the indexer, the
    service and the SDK's own `SellQuote` have them the other way round.  So
    the three agree on a sell exactly when gross and net are the same number,
    that is when the one percent fee rounds to nothing. -/

namespace TradeReading

open Contract CurveQuote CurveTrade MarketLog TradeRows

/-! ## The SDK's reading -/

/-- A transaction receipt. -/
structure Receipt where
  success : Bool
  logs : List Log
  deriving DecidableEq, Repr

/-- `TradeReceipt`. -/
structure TradeReceipt where
  side : Side
  token : Address
  trader : Address
  tokenAmount : Nat
  reserveAmount : Nat
  curveValue : Nat
  protocolFee : Nat
  creatorFee : Nat
  totalFee : Nat
  communityFee : Nat
  traderRewardsFee : Nat
  deriving DecidableEq, Repr

/-- The errors of `parseTradeReceipt`. -/
inductive ReceiptError where
  | reverted
  | notExactlyOne (side : Side)
  deriving DecidableEq, Repr

/-- The object `parseTradeReceipt` builds from the `args` of a buy. -/
def buyTrade (token buyer : Address) (q : BuyQuote) : TradeReceipt where
  side := .buy
  token := token
  trader := buyer
  tokenAmount := q.tokensOut
  reserveAmount := q.acceptedGross
  curveValue := q.netCurveInput
  protocolFee := q.protocolFee
  creatorFee := q.creatorFee
  totalFee := q.totalFee
  communityFee := q.communityFee
  traderRewardsFee := q.traderRewardsFee

/-- The object `parseTradeReceipt` builds from the `args` of a sell. -/
def sellTrade (token seller : Address) (q : SellQuote) : TradeReceipt where
  side := .sell
  token := token
  trader := seller
  tokenAmount := q.tokensIn
  reserveAmount := q.grossCurveOutput
  curveValue := q.netSellerOutput
  protocolFee := q.protocolFee
  creatorFee := q.creatorFee
  totalFee := q.totalFee
  communityFee := q.communityFee
  traderRewardsFee := q.traderRewardsFee

/-- The reading of an event of the expected side. -/
def readArgs (side : Side) (p : Payload) : Option TradeReceipt :=
  match side, p with
  | .buy, .tokensBought token buyer q => some (buyTrade token buyer q)
  | .sell, .tokensSold token seller q => some (sellTrade token seller q)
  | _, _ => none

/-- The curve's events of the expected side. -/
def curveTrades (side : Side) (curve : Address) (logs : List Log) :
    List TradeReceipt :=
  (logs.filter (·.address = curve)).filterMap fun l => readArgs side l.payload

/-- **`parseTradeReceipt`**. -/
def parseTradeReceipt (receipt : Receipt) (curve : Address)
    (expectedSide : Side) : Except ReceiptError TradeReceipt :=
  if receipt.success then
    match curveTrades expectedSide curve receipt.logs with
    | [trade] => .ok trade
    | _ => .error (.notExactlyOne expectedSide)
  else .error .reverted

/-! ## A trade seen by all three -/

/-- The side, the token and the trader of a curve's event. -/
def traded : Payload → Option (Side × Address × Address)
  | .tokensBought token buyer _ => some (.buy, token, buyer)
  | .tokensSold token seller _ => some (.sell, token, seller)
  | _ => none

/-- The log reaches the three readers: the receipt is a successful one with no
    other trade of that side on the curve, the service has the curve registered
    for the token, and the indexer does not exclude the token. -/
structure Delivered (resolve : Address → Option Registration)
    (lookup : Lookup) (receipt : Receipt) (l : Log) (side : Side)
    (token trader : Address) : Prop where
  event : traded l.payload = some (side, token, trader)
  success : receipt.success = true
  only : curveTrades side l.address receipt.logs
    = (readArgs side l.payload).toList
  registered : ∃ market, market.token = token ∧
    resolve l.address = some ⟨market, .curve⟩
  shown : lookup.excluded token = false

/-- The readings assign one value to each quantity they share.  The service
    reports neither the trader nor the curve value nor the fees. -/
structure Agree (trade : TradeReceipt) (row : TradeRow) (event : Event) :
    Prop where
  side : trade.side = row.side ∧ event.side = row.side
  token : trade.token = row.tokenAddress ∧ event.token = row.tokenAddress
  trader : trade.trader = row.traderAddress
  tokenAmount : trade.tokenAmount = row.tokenAmount ∧
    event.tokenAmountRaw = row.tokenAmount
  reserveAmount : trade.reserveAmount = row.reserveAmount ∧
    event.usdcAmountRaw = row.reserveAmount
  curveValue : trade.curveValue = row.curveValue
  protocolFee : trade.protocolFee = row.protocolFee
  creatorFee : trade.creatorFee = row.creatorFee

/-- A buy, or a sell whose curve output is too small for a fee. -/
def FeeRoundsAway : Payload → Prop
  | .tokensSold _ _ q => q.grossCurveOutput < 100
  | _ => True

/-- The fee of an accepted sell is a hundredth of the curve's output. -/
theorem sell_fee [MulDiv] {s : CurveStorage} {tokensIn : Nat} {q : SellQuote}
    (hcurve : OnCurve s) (hq : quoteSell s tokensIn = .ok q) :
    q.netSellerOutput = q.grossCurveOutput - q.grossCurveOutput / 100 := by
  obtain ⟨-, -, -, -, rfl⟩ := quoteSell_cases hcurve hq
  rfl

/-- **THE THREE READINGS** of an event a curve can emit: all of them succeed,
    and they agree just when the event is a buy or a sell without a fee. -/
theorem decoders_agree_iff [MulDiv] {usdc : Address}
    {resolve : Address → Option Registration} {lookup : Lookup}
    {receipt : Receipt} {l : Log} {side : Side} {token trader : Address}
    (hgenuine : Genuine l.payload)
    (h : Delivered resolve lookup receipt l side token trader) :
    ∃ trade row event,
      parseTradeReceipt receipt l.address side = .ok trade ∧
      projection usdc lookup l = .ok (some row) ∧
      decode usdc resolve l = .ok event ∧
      (Agree trade row event ↔ FeeRoundsAway l.payload) := by
  obtain ⟨hevent, hsuccess, honly, ⟨market, hmarket, hresolve⟩, hshown⟩ := h
  cases hp : l.payload with
  | tokensBought token' buyer q =>
      rw [hp] at hevent honly
      simp only [traded, Option.some.injEq, Prod.mk.injEq] at hevent
      obtain ⟨rfl, rfl, rfl⟩ := hevent
      refine ⟨buyTrade token' buyer q,
        rowOf l token' buyer .buy q.tokensOut q.acceptedGross q.netCurveInput
          q.protocolFee q.creatorFee .curve,
        baseEvent market.token l.address .curve .buy l q.tokensOut
          q.acceptedGross 18, ?_, ?_, ?_, ?_⟩
      · rw [parseTradeReceipt, if_pos hsuccess, honly]
        rfl
      · rw [projection, hp]
        exact if_neg (by simp [hshown])
      · rw [decode, hresolve]
        simp only [decodeCurve, hp]
        exact if_neg (by simp [hmarket])
      · simp only [FeeRoundsAway, iff_true]
        exact ⟨⟨rfl, rfl⟩, ⟨rfl, hmarket⟩, rfl, ⟨rfl, rfl⟩, ⟨rfl, rfl⟩, rfl, rfl,
          rfl⟩
  | tokensSold token' seller q =>
      rw [hp] at hevent honly hgenuine
      simp only [traded, Option.some.injEq, Prod.mk.injEq] at hevent
      obtain ⟨rfl, rfl, rfl⟩ := hevent
      obtain ⟨s, tokensIn, hcurve, hq⟩ := hgenuine
      have hnet := sell_fee hcurve hq
      refine ⟨sellTrade token' seller q,
        rowOf l token' seller .sell q.tokensIn q.netSellerOutput
          q.grossCurveOutput q.protocolFee q.creatorFee .curve,
        baseEvent market.token l.address .curve .sell l q.tokensIn
          q.netSellerOutput 18, ?_, ?_, ?_, ?_⟩
      · rw [parseTradeReceipt, if_pos hsuccess, honly]
        rfl
      · rw [projection, hp]
        exact if_neg (by simp [hshown])
      · rw [decode, hresolve]
        simp only [decodeCurve, hp]
        exact if_neg (by simp [hmarket])
      · simp only [FeeRoundsAway]
        constructor
        · intro hagree
          -- the SDK's reserve amount is the gross, the row's the net
          have hgross : q.grossCurveOutput = q.netSellerOutput :=
            hagree.reserveAmount.1
          omega
        · intro hsmall
          have hgross : q.grossCurveOutput = q.netSellerOutput := by omega
          exact ⟨⟨rfl, rfl⟩, ⟨rfl, hmarket⟩, rfl, ⟨rfl, rfl⟩, ⟨hgross, rfl⟩,
            hgross.symm, rfl, rfl⟩
  | swap amount0 amount1 =>
      rw [hp] at hevent
      exact nomatch hevent
  | other =>
      rw [hp] at hevent
      exact nomatch hevent

/-! ## Part of the first buy, sold back -/

/-- The curve after one USDC was spent on it. -/
def afterOneUsdc : CurveStorage where
  soldSupply := (insideQuote .fresh (10 ^ 18)).tokensOut
  activeNativeUsdcReserve := 990000000000000000
  terminalGraduationReserve := 0
  graduationNativeUsdcForwarded := 0
  graduated := false

theorem onCurve_afterOneUsdc : OnCurve afterOneUsdc where
  coordinate _ := by decide +kernel
  below _ := by decide
  unforwarded _ := ⟨rfl, rfl⟩
  closed h := nomatch h

/-- A sell of a hundred tokens. -/
def sellBackQuote : SellQuote := sellQuoteOf afterOneUsdc (10 ^ 20)

theorem sellBackQuote_quoted [MulDiv] :
    quoteSell afterOneUsdc (10 ^ 20) = .ok sellBackQuote := by
  rw [quoteSell_eq onCurve_afterOneUsdc rfl (by decide) (by decide +kernel)]
  exact if_neg (by decide +kernel)

/-- Its log, emitted by the curve at 3 of the token at 2. -/
def sellBackLog : Log :=
  ⟨3, .tokensSold 2 9 sellBackQuote, 8, 80, 800, 0, 0, false⟩

/-- The curve is registered and the token is not excluded. -/
def sellBackResolve (a : Address) : Option Registration :=
  if a = 3 then some ⟨⟨2, 3, .curve, 0, 1⟩, .curve⟩ else none

def sellBackLookup : Lookup := ⟨fun _ => false, fun _ => none, fun _ => none⟩

theorem sellBack_genuine : @Genuine exactMulDiv sellBackLog.payload :=
  ⟨afterOneUsdc, 10 ^ 20, onCurve_afterOneUsdc, @sellBackQuote_quoted exactMulDiv⟩

theorem sellBack_delivered :
    Delivered sellBackResolve sellBackLookup ⟨true, [sellBackLog]⟩ sellBackLog
      .sell 2 9 :=
  ⟨rfl, rfl, rfl, ⟨⟨2, 3, .curve, 0, 1⟩, rfl, rfl⟩, rfl⟩

/-- **A SELL READ TWO WAYS**: the SDK reports the gross as what the seller
    received, the row and the service the net. -/
theorem sell_read_two_ways :
    @Genuine exactMulDiv sellBackLog.payload ∧
    ∃ trade row event,
      parseTradeReceipt ⟨true, [sellBackLog]⟩ 3 .sell = .ok trade ∧
      projection 1 sellBackLookup sellBackLog = .ok (some row) ∧
      decode 1 sellBackResolve sellBackLog = .ok event ∧
      trade.reserveAmount = 226591891795662 ∧
      row.reserveAmount = 224325972877706 ∧
      event.usdcAmountRaw = 224325972877706 ∧
      ¬ Agree trade row event := by
  refine ⟨sellBack_genuine, _, _, _, rfl, rfl, rfl, ?_, ?_, ?_, ?_⟩
  · decide +kernel
  · decide +kernel
  · decide +kernel
  · intro hagree
    have hsame : sellBackQuote.grossCurveOutput = sellBackQuote.netSellerOutput :=
      hagree.reserveAmount.1
    revert hsame
    decide +kernel

theorem decoders_agree_iff_sellBack :
    ∃ trade row event,
      parseTradeReceipt ⟨true, [sellBackLog]⟩ 3 .sell = .ok trade ∧
      projection 1 sellBackLookup sellBackLog = .ok (some row) ∧
      decode 1 sellBackResolve sellBackLog = .ok event ∧
      (Agree trade row event ↔ FeeRoundsAway sellBackLog.payload) :=
  @decoders_agree_iff exactMulDiv 1 _ _ _ sellBackLog .sell 2 9 sellBack_genuine
    sellBack_delivered

end TradeReading
