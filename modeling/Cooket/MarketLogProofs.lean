import Cooket.CurveTradeProofs

/-! # Market logs and what the realtime service reads in them

    A node delivers LOGS: an emitter, a payload, and a place in a block.  Two
    programs read them, the indexer and the realtime service, and the claims
    about the off-chain half compare the two readings.  This file has the logs
    and the realtime half: `Decoder.Decode` of
    `apps/realtime/internal/market/decoder.go`.

    The payload of a curve's event is the quote the contract emitted, so the
    readings below start from the very values `CurveTrade` speaks about. -/

namespace MarketLog

open CheckedArith Contract CurveQuote CurveTrade

/-! ## Logs -/

/-- The decoded body of a log, by its first topic. -/
inductive Payload where
  | tokensBought (token buyer : Address) (q : BuyQuote)
  | tokensSold (token seller : Address) (q : SellQuote)
  | swap (amount0 amount1 : Int)
  | other
  deriving DecidableEq, Repr

/-- `types.Log`.  Hashes are numbers: only their equality and order is used. -/
structure Log where
  address : Address
  payload : Payload
  blockNumber : Nat
  blockHash : Nat
  txHash : Nat
  txIndex : Nat
  index : Nat
  removed : Bool
  deriving DecidableEq, Repr

/-! ## Registered markets -/

/-- `market.Stage`. -/
inductive Stage where
  | curve
  | graduated
  deriving DecidableEq, Repr

/-- `market.Source`. -/
inductive Source where
  | curve
  | uniswapV3
  deriving DecidableEq, Repr

/-- `market.Side`. -/
inductive Side where
  | buy
  | sell
  deriving DecidableEq, Repr

/-- `market.Market`. -/
structure Market where
  token : Address
  curve : Address
  stage : Stage
  canonicalPool : Address
  sourceStartBlock : Nat
  deriving DecidableEq, Repr

/-- `market.Registration`. -/
structure Registration where
  market : Market
  source : Source
  deriving DecidableEq, Repr

/-! ## Events -/

/-- `ChainID`. -/
def ChainID : Nat := 5042002

/-- `market.EventID`. -/
structure EventID where
  chainID : Nat
  transactionHash : Nat
  logIndex : Nat
  deriving DecidableEq, Repr

/-- The identity of a log: its transaction and its index, NOT its block. -/
def Log.id (entry : Log) : EventID := ⟨ChainID, entry.txHash, entry.index⟩

/-- `market.Event`. -/
structure Event where
  identity : EventID
  token : Address
  market : Address
  source : Source
  side : Side
  blockNumber : Nat
  blockTimestamp : Option Nat
  transactionHash : Nat
  logIndex : Nat
  removed : Bool
  tokenAmountRaw : Nat
  usdcAmountRaw : Nat
  usdcDecimals : Nat
  deriving DecidableEq, Repr

/-- The errors of `Decode`. -/
inductive DecodeError where
  | unregisteredMarket
  | noTopic
  | notCurveTrade
  | tokenMismatch
  | notSwap
  | invalidSignedDeltas
  deriving DecidableEq, Repr

/-! ## The decoder -/

/-- `baseEvent`. -/
def baseEvent (token marketAddress : Address) (source : Source) (side : Side)
    (entry : Log) (tokenAmount usdcAmount usdcDecimals : Nat) : Event where
  identity := entry.id
  token := token
  market := marketAddress
  source := source
  side := side
  blockNumber := entry.blockNumber
  blockTimestamp := none
  transactionHash := entry.txHash
  logIndex := entry.index
  removed := entry.removed
  tokenAmountRaw := tokenAmount
  usdcAmountRaw := usdcAmount
  usdcDecimals := usdcDecimals

/-- `decodeCurve`.  A buy reports the accepted gross, a sell the seller's net:
    the money the trader sees. -/
def decodeCurve (market : Market) (entry : Log) : Except DecodeError Event :=
  match entry.payload with
  | .tokensBought token _ q =>
      if token ≠ market.token then .error .tokenMismatch
      else .ok (baseEvent market.token entry.address .curve .buy entry
        q.tokensOut q.acceptedGross 18)
  | .tokensSold token _ q =>
      if token ≠ market.token then .error .tokenMismatch
      else .ok (baseEvent market.token entry.address .curve .sell entry
        q.tokensIn q.netSellerOutput 18)
  | _ => .error .notCurveTrade

/-- The sign test both programs make on a swap's deltas. -/
def invalidDeltas (amount0 amount1 : Int) : Bool :=
  decide (amount0.sign = 0 ∨ amount1.sign = 0 ∨ amount0.sign = amount1.sign)

/-- Which delta is the token's: the lower address is `token0`. -/
def orderDeltas (token usdc : Address) (amount0 amount1 : Int) : Int × Int :=
  if token < usdc then (amount0, amount1) else (amount1, amount0)

/-- A negative token delta leaves the pool: the trader bought. -/
def swapSide (tokenDelta : Int) : Side :=
  if tokenDelta.sign < 0 then .buy else .sell

/-- `decodeSwap`. -/
def decodeSwap (canonicalUSDC : Address) (market : Market) (entry : Log) :
    Except DecodeError Event :=
  match entry.payload with
  | .swap amount0 amount1 =>
      if invalidDeltas amount0 amount1 then .error .invalidSignedDeltas
      else
        let deltas := orderDeltas market.token canonicalUSDC amount0 amount1
        .ok (baseEvent market.token entry.address .uniswapV3
          (swapSide deltas.1) entry deltas.1.natAbs deltas.2.natAbs 6)
  | _ => .error .notSwap

/-- **`Decoder.Decode`**, at the registry in force. -/
def decode (canonicalUSDC : Address) (resolve : Address → Option Registration)
    (entry : Log) : Except DecodeError Event :=
  match resolve entry.address with
  | none => .error .unregisteredMarket
  | some registration =>
      match registration.source with
      | .curve => decodeCurve registration.market entry
      | .uniswapV3 => decodeSwap canonicalUSDC registration.market entry

/-! ## What decoding keeps -/

/-- The parts of an event that come from the log's place alone. -/
structure Names (entry : Log) (event : Event) : Prop where
  identity : event.identity = entry.id
  blockNumber : event.blockNumber = entry.blockNumber
  transactionHash : event.transactionHash = entry.txHash
  logIndex : event.logIndex = entry.index
  removed : event.removed = entry.removed
  blockTimestamp : event.blockTimestamp = none

theorem baseEvent_names (token marketAddress : Address) (source : Source)
    (side : Side) (entry : Log) (tokenAmount usdcAmount usdcDecimals : Nat) :
    Names entry (baseEvent token marketAddress source side entry tokenAmount
      usdcAmount usdcDecimals) :=
  ⟨rfl, rfl, rfl, rfl, rfl, rfl⟩

/-- A decoded curve log, by its side. -/
theorem decodeCurve_ok {market : Market} {entry : Log} {event : Event}
    (h : decodeCurve market entry = .ok event) :
    (∃ buyer q, entry.payload = .tokensBought market.token buyer q ∧
      event = baseEvent market.token entry.address .curve .buy entry
        q.tokensOut q.acceptedGross 18) ∨
    (∃ seller q, entry.payload = .tokensSold market.token seller q ∧
      event = baseEvent market.token entry.address .curve .sell entry
        q.tokensIn q.netSellerOutput 18) := by
  unfold decodeCurve at h
  cases hp : entry.payload with
  | tokensBought token buyer q =>
      simp only [hp] at h
      split at h
      · cases h
      · next htoken =>
        obtain rfl := Except.ok.inj h
        obtain rfl := not_not.mp htoken
        exact Or.inl ⟨buyer, q, rfl, rfl⟩
  | tokensSold token seller q =>
      simp only [hp] at h
      split at h
      · cases h
      · next htoken =>
        obtain rfl := Except.ok.inj h
        obtain rfl := not_not.mp htoken
        exact Or.inr ⟨seller, q, rfl, rfl⟩
  | swap amount0 amount1 => simp only [hp, reduceCtorEq] at h
  | other => simp only [hp, reduceCtorEq] at h

/-- A decoded swap. -/
theorem decodeSwap_ok {usdc : Address} {market : Market} {entry : Log}
    {event : Event} (h : decodeSwap usdc market entry = .ok event) :
    ∃ amount0 amount1, entry.payload = .swap amount0 amount1 ∧
      invalidDeltas amount0 amount1 = false ∧
      event = baseEvent market.token entry.address .uniswapV3
        (swapSide (orderDeltas market.token usdc amount0 amount1).1) entry
        (orderDeltas market.token usdc amount0 amount1).1.natAbs
        (orderDeltas market.token usdc amount0 amount1).2.natAbs 6 := by
  unfold decodeSwap at h
  cases hp : entry.payload with
  | swap amount0 amount1 =>
      simp only [hp] at h
      split at h
      · cases h
      · next hvalid =>
        exact ⟨amount0, amount1, rfl, Bool.eq_false_of_not_eq_true hvalid,
          (Except.ok.inj h).symm⟩
  | tokensBought token buyer q => simp only [hp, reduceCtorEq] at h
  | tokensSold token seller q => simp only [hp, reduceCtorEq] at h
  | other => simp only [hp, reduceCtorEq] at h

/-- Valid deltas leave two nonzero amounts, whichever is the token's. -/
theorem orderDeltas_pos {amount0 amount1 : Int}
    (h : invalidDeltas amount0 amount1 = false) (token usdc : Address) :
    0 < (orderDeltas token usdc amount0 amount1).1.natAbs ∧
      0 < (orderDeltas token usdc amount0 amount1).2.natAbs := by
  have hboth : amount0 ≠ 0 ∧ amount1 ≠ 0 := by
    simp only [invalidDeltas, decide_eq_false_iff_not, not_or,
      Int.sign_eq_zero_iff_zero] at h
    exact ⟨h.1, h.2.1⟩
  unfold orderDeltas
  split
  · exact ⟨Int.natAbs_pos.mpr hboth.1, Int.natAbs_pos.mpr hboth.2⟩
  · exact ⟨Int.natAbs_pos.mpr hboth.2, Int.natAbs_pos.mpr hboth.1⟩

/-- **A DECODED EVENT NAMES ITS LOG**, whatever the registry said. -/
theorem decode_names {usdc : Address}
    {resolve : Address → Option Registration} {entry : Log} {event : Event}
    (h : decode usdc resolve entry = .ok event) : Names entry event := by
  unfold decode at h
  split at h
  · cases h
  · next registration _ =>
    split at h
    · obtain ⟨_, _, _, rfl⟩ | ⟨_, _, _, rfl⟩ := decodeCurve_ok h
      · exact baseEvent_names _ _ _ _ _ _ _ _
      · exact baseEvent_names _ _ _ _ _ _ _ _
    · obtain ⟨_, _, _, _, rfl⟩ := decodeSwap_ok h
      exact baseEvent_names _ _ _ _ _ _ _ _

/-! ## Genuine payloads -/

section Genuine

variable [MulDiv]

/-- A payload a curve can emit: a quote it accepted, at some state of the
    curve.  A pool may emit any deltas. -/
def Genuine : Payload → Prop
  | .tokensBought _ _ q => ∃ s gross, OnCurve s ∧ quoteBuy s gross = .ok q
  | .tokensSold _ _ q => ∃ s tokensIn, OnCurve s ∧ quoteSell s tokensIn = .ok q
  | .swap _ _ => True
  | .other => True

/-- An accepted buy pays its net input and its fee, and is not dust. -/
theorem quoteBuy_paid {s : CurveStorage} {gross : Nat} {q : BuyQuote}
    (hq : quoteBuy s gross = .ok q) :
    q.acceptedGross = q.netCurveInput + q.totalFee ∧ 0 < q.tokensOut := by
  simp only [quoteBuy, bind_ok, revertIf_ok, sub_ok, add_ok, pure_ok] at hq
  obtain ⟨_, -, _, -, _, -, _, -, _, -, accepted, -, fees, -, _, ⟨hfee, rfl⟩,
    _, -, _, -, _, -, _, -, tokens, -, _, hdust, _, -, rfl⟩ := hq
  refine ⟨?_, Nat.pos_of_ne_zero hdust⟩
  show accepted = accepted - fees.totalFee + fees.totalFee
  omega

end Genuine

end MarketLog
