import Cooket.AscendingProofs
import Cooket.MarketLogProofs
import Mathlib.Data.Prod.Lex
import Mathlib.Data.Rat.Floor

/-! # The indexer's trade rows and what is computed from them

    `projection` of `apps/indexer/store.go` turns a market log into a row of
    the table `trades`.  Three queries read that table: `rebuildMetricsTx`
    (counts and volume of a token), `rebuildAnalyticsTx` (its current price and
    its hourly candles) and `ChartRange` of the API (candles of any interval).

    The two candle queries differ in the bucket width only, so both are
    `buckets` here.  PostgreSQL's division of two `numeric` values rounds to a
    scale of its own choosing; it is the PARAMETER `div`. -/

namespace TradeRows

open Ascending Contract CurveQuote CurveTrade MarketLog

/-! ## Rows -/

/-- A canonical row of `trades`. -/
structure TradeRow where
  tokenAddress : Address
  traderAddress : Address
  side : Side
  tokenAmount : Nat
  reserveAmount : Nat
  curveValue : Nat
  protocolFee : Nat
  creatorFee : Nat
  source : Source
  transactionIndex : Nat
  blockNumber : Nat
  blockHash : Nat
  transactionHash : Nat
  logIndex : Nat
  deriving DecidableEq, Repr

/-- How `projection` fails on a market log. -/
inductive ProjectionError where
  | unsupportedDecimals
  | invalidSwapDeltas
  | missingSender
  deriving DecidableEq, Repr

/-- `normalizeUniswapV3Swap`. -/
def normalizeUniswapV3Swap (arcCanonicalUsdc token : Address)
    (amount0 amount1 : Int) : Except ProjectionError (Side × Nat × Nat) :=
  if invalidDeltas amount0 amount1 then .error .invalidSwapDeltas
  else
    let deltas := orderDeltas token arcCanonicalUsdc amount0 amount1
    .ok (swapSide deltas.1, deltas.1.natAbs, deltas.2.natAbs)

/-- The row of a log: the columns `projection` takes from its place. -/
def rowOf (l : Log) (token trader : Address) (side : Side)
    (tokenAmount reserveAmount curveValue protocolFee creatorFee : Nat)
    (source : Source) : TradeRow where
  tokenAddress := token
  traderAddress := trader
  side := side
  tokenAmount := tokenAmount
  reserveAmount := reserveAmount
  curveValue := curveValue
  protocolFee := protocolFee
  creatorFee := creatorFee
  source := source
  transactionIndex := l.txIndex
  blockNumber := l.blockNumber
  blockHash := l.blockHash
  transactionHash := l.txHash
  logIndex := l.index

/-- What `projection` looks up while it reads a log: the excluded tokens, the
    token of a canonical pool with its decimals, and the sender of a
    transaction. -/
structure Lookup where
  excluded : Address → Bool
  pool : Address → Option (Address × Nat)
  sender : Nat → Option Address

/-- `projectUniswapV3Swap`. -/
def projectUniswapV3Swap (arcCanonicalUsdc : Address) (lookup : Lookup)
    (l : Log) (amount0 amount1 : Int) :
    Except ProjectionError (Option TradeRow) :=
  match lookup.pool l.address with
  | none => .ok none
  | some (token, decimals) =>
      if decimals ≠ 18 then .error .unsupportedDecimals
      else
        match normalizeUniswapV3Swap arcCanonicalUsdc token amount0 amount1 with
        | .error e => .error e
        | .ok (side, tokenAmount, usdcAmount) =>
            match lookup.sender l.txHash with
            | none => .error .missingSender
            | some trader =>
                if trader = 0 then .error .missingSender
                else .ok (some (rowOf l token trader side tokenAmount usdcAmount
                  usdcAmount 0 0 .uniswapV3))

/-- **`projection`** of a market log. -/
def projection (arcCanonicalUsdc : Address) (lookup : Lookup) (l : Log) :
    Except ProjectionError (Option TradeRow) :=
  match l.payload with
  | .tokensBought token buyer q =>
      if lookup.excluded token then .ok none
      else .ok (some (rowOf l token buyer .buy q.tokensOut q.acceptedGross
        q.netCurveInput q.protocolFee q.creatorFee .curve))
  | .tokensSold token seller q =>
      if lookup.excluded token then .ok none
      else .ok (some (rowOf l token seller .sell q.tokensIn q.netSellerOutput
        q.grossCurveOutput q.protocolFee q.creatorFee .curve))
  | .swap amount0 amount1 =>
      projectUniswapV3Swap arcCanonicalUsdc lookup l amount0 amount1
  | .other => .ok none

/-- A pool row's amounts, read off the signed deltas. -/
theorem projectUniswapV3Swap_ok {usdc : Address} {lookup : Lookup} {l : Log}
    {amount0 amount1 : Int} {row : TradeRow}
    (h : projectUniswapV3Swap usdc lookup l amount0 amount1 = .ok (some row)) :
    ∃ token trader, invalidDeltas amount0 amount1 = false ∧
      row = rowOf l token trader
        (swapSide (orderDeltas token usdc amount0 amount1).1)
        (orderDeltas token usdc amount0 amount1).1.natAbs
        (orderDeltas token usdc amount0 amount1).2.natAbs
        (orderDeltas token usdc amount0 amount1).2.natAbs 0 0 .uniswapV3 := by
  unfold projectUniswapV3Swap at h
  split at h
  · cases h
  · next token decimals _ =>
    split at h
    · cases h
    · unfold normalizeUniswapV3Swap at h
      by_cases hbad : invalidDeltas amount0 amount1 = true
      · simp only [hbad, if_true, reduceCtorEq] at h
      · have hvalid := Bool.eq_false_of_not_eq_true hbad
        simp only [hvalid, Bool.false_eq_true, if_false] at h
        split at h
        · cases h
        · next trader _ =>
          split at h
          · cases h
          · exact ⟨token, trader, hvalid, (Option.some.inj (Except.ok.inj h)).symm⟩

/-! ## A token's counts and volume -/

/-- The rows a query about a token reads. -/
def ofToken (token : Address) (trades : List TradeRow) : List TradeRow :=
  trades.filter (fun t => t.tokenAddress = token)

/-- `CASE WHEN source='uniswap_v3' THEN reserve_amount*1000000000000 ELSE
    curve_value END`, the summand of every volume. -/
def rowVolume (t : TradeRow) : Nat :=
  match t.source with
  | .uniswapV3 => t.reserveAmount * 1000000000000
  | .curve => t.curveValue

/-- A row of `token_metrics`. -/
structure Metrics where
  tradeCount : Nat
  buyCount : Nat
  sellCount : Nat
  volume : Nat
  fees : Nat
  currentPrice : Option Int
  fullyDilutedValue : Option Int
  deriving DecidableEq, Repr

def buys (ts : List TradeRow) : Nat := (ts.filter (·.side = .buy)).length

def sells (ts : List TradeRow) : Nat := (ts.filter (·.side = .sell)).length

def volumeOf (ts : List TradeRow) : Nat := (ts.map rowVolume).sum

def feesOf (ts : List TradeRow) : Nat :=
  (ts.map (fun t => t.protocolFee + t.creatorFee)).sum

/-! ## Prices -/

section Prices

variable (div : ℚ → ℚ → ℚ)

/-- What a row adds to the sold supply. -/
def soldDelta (t : TradeRow) : Int :=
  match t.source, t.side with
  | .curve, .buy => t.tokenAmount
  | .curve, .sell => -t.tokenAmount
  | .uniswapV3, _ => 0

/-- What a row adds to the reserve. -/
def reserveDelta (t : TradeRow) : Int :=
  match t.source, t.side with
  | .curve, .buy => t.curveValue
  | .curve, .sell => -t.curveValue
  | .uniswapV3, _ => 0

/-- The curve price both queries write out: `NULL` outside the curve's range,
    else `ceil(((10^18 + reserve_balance) * 10^18) / (V - sold_supply))`. -/
def curvePrice (soldSupply reserveBalance : Int) : Option Int :=
  if 0 ≤ soldSupply ∧ soldSupply < 1066666666666666666666666667 ∧
      0 ≤ reserveBalance then
    some ⌈div ((1000000000000000000 + reserveBalance) * 1000000000000000000)
      (1066666666666666666666666667 - soldSupply)⌉
  else none

/-- The price of a pool trade: the executed ratio, in 18 decimals. -/
def poolPrice (t : TradeRow) : Option Int :=
  if t.tokenAmount = 0 then none
  else some ⌊div (t.reserveAmount * 10 ^ (18 + 12)) t.tokenAmount⌋

/-- `ORDER BY block_number, transaction_index, log_index, transaction_hash`. -/
def chainKey (t : TradeRow) : Nat ×ₗ Nat ×ₗ Nat ×ₗ Nat :=
  toLex (t.blockNumber, toLex (t.transactionIndex,
    toLex (t.logIndex, t.transactionHash)))

def inChainOrder (ts : List TradeRow) : List TradeRow :=
  ts.mergeSort (fun a b => chainKey a ≤ chainKey b)

/-- A row with the price after it. -/
structure Priced where
  row : TradeRow
  price : Option Int
  deriving DecidableEq

/-- The running window of `ordered` and the column of `priced`. -/
def pricedFrom (sold reserve : Int) : List TradeRow → List Priced
  | [] => []
  | t :: ts =>
      let sold' := sold + soldDelta t
      let reserve' := reserve + reserveDelta t
      let price := match t.source with
        | .uniswapV3 => poolPrice div t
        | .curve => curvePrice div sold' reserve'
      ⟨t, price⟩ :: pricedFrom sold' reserve' ts

/-- `priced`. -/
def priced (ts : List TradeRow) : List Priced :=
  pricedFrom div 0 0 (inChainOrder ts)

/-- The current price `rebuildAnalyticsTx` leaves: the curve's, unless the
    token has traded in its pool. -/
def currentPrice (ts : List TradeRow) : Option Int :=
  match (inChainOrder (ts.filter (·.source = .uniswapV3))).getLast? with
  | some t => poolPrice div t
  | none => curvePrice div (ts.map soldDelta).sum (ts.map reserveDelta).sum

/-- The row of a token in `token_metrics`, after `rebuildMetricsTx` and
    `rebuildAnalyticsTx`. -/
def tokenMetrics (initialSupply : Nat) (token : Address)
    (trades : List TradeRow) : Metrics :=
  let ts := ofToken token trades
  let price := currentPrice div ts
  { tradeCount := ts.length
    buyCount := buys ts
    sellCount := sells ts
    volume := volumeOf ts
    fees := feesOf ts
    currentPrice := price
    fullyDilutedValue :=
      price.map fun p => ⌊div (p * initialSupply) 1000000000000000000⌋ }

end Prices

/-! ## Candles -/

/-- `ChartInterval`. -/
inductive ChartInterval where
  | m1
  | m5
  | m15
  | h1
  | h4
  | d1
  | w1
  deriving DecidableEq, Repr

/-- `chartInterval.seconds`. -/
def ChartInterval.seconds : ChartInterval → Nat
  | .m1 => 60
  | .m5 => 5 * 60
  | .m15 => 15 * 60
  | .h1 => 60 * 60
  | .h4 => 4 * 60 * 60
  | .d1 => 24 * 60 * 60
  | .w1 => 7 * 24 * 60 * 60

/-- `chartInterval.weekly`. -/
def ChartInterval.weekly (i : ChartInterval) : Bool := i = .w1

/-- `extract(epoch FROM date_trunc('week', to_timestamp(ts)))`: midnight of the
    Monday on or before.  Day 0 of the epoch was a Thursday. -/
def dateTruncWeek (ts : Nat) : Int :=
  let day := ts / 86400
  let sinceMonday := (day + 3) % 7
  ((day : Int) - sinceMonday) * 86400

/-- `bucket_start`. -/
def bucketStart (i : ChartInterval) (ts : Nat) : Int :=
  if i.weekly then dateTruncWeek ts
  else (ts / i.seconds * i.seconds : Nat)

/-- `ChartPoint`. -/
structure ChartPoint where
  bucketStart : Int
  tradeCount : Nat
  buyCount : Nat
  sellCount : Nat
  volume : Nat
  uniqueTraderCount : Nat
  openPrice : Option Int
  highPrice : Option Int
  lowPrice : Option Int
  closePrice : Option Int
  deriving DecidableEq, Repr

/-- `CASE WHEN count(price)=count(*) THEN x END`. -/
def whenComplete (group : List Priced) (x : List Int → Option Int) :
    Option Int :=
  (group.mapM Priced.price).bind x

/-- One group of `GROUP BY bucket_start`. -/
def candle (start : Int) (group : List Priced) : ChartPoint where
  bucketStart := start
  tradeCount := group.length
  buyCount := buys (group.map (·.row))
  sellCount := sells (group.map (·.row))
  volume := volumeOf (group.map (·.row))
  uniqueTraderCount := (group.map (·.row.traderAddress)).dedup.length
  openPrice := whenComplete group List.head?
  highPrice := whenComplete group List.max?
  lowPrice := whenComplete group List.min?
  closePrice := whenComplete group List.getLast?

/-- The bucket a row falls in, by the timestamp of its block. -/
def rowStart (stamp : Nat → Nat) (i : ChartInterval) (t : TradeRow) : Int :=
  bucketStart i (stamp t.blockHash)

/-- **The candle query**: `buckets` of `ChartRange`, and the rows of
    `token_trade_buckets` for the width of an hour. -/
def buckets (div : ℚ → ℚ → ℚ) (stamp : Nat → Nat) (i : ChartInterval)
    (ts : List TradeRow) : List ChartPoint :=
  let rows := priced div ts
  (ascend (rows.map (fun p => rowStart stamp i p.row))).map fun b =>
    candle b (rows.filter (fun p => rowStart stamp i p.row = b))

/-- A request to `ChartRange`. -/
structure ChartRequest where
  interval : ChartInterval
  fromBound : Option Int
  toBound : Option Int
  limit : Nat
  deriving DecidableEq, Repr

/-- `ranged`: the lower bound is inclusive, the upper one is not. -/
def ChartRequest.covers (r : ChartRequest) (start : Int) : Bool :=
  (match r.fromBound with
    | none => true
    | some a => decide (a ≤ start)) &&
  (match r.toBound with
    | none => true
    | some b => decide (start < b))

/-- **`ChartRange`**: the most recent `limit` candles in range, oldest first. -/
def chartRange (div : ℚ → ℚ → ℚ) (stamp : Nat → Nat) (token : Address)
    (r : ChartRequest) (trades : List TradeRow) : List ChartPoint :=
  ((buckets div stamp r.interval (ofToken token trades)).filter
    (fun c => r.covers c.bucketStart)).rtake r.limit

/-! ## What a candle counts -/

/-- The columns of a candle that count rows. -/
structure Tally where
  start : Int
  trades : Nat
  buys : Nat
  sells : Nat
  volume : Nat
  deriving DecidableEq, Repr

def ChartPoint.tally (c : ChartPoint) : Tally :=
  ⟨c.bucketStart, c.tradeCount, c.buyCount, c.sellCount, c.volume⟩

/-- The count of one bucket, straight from the rows. -/
def tallyAt (stamp : Nat → Nat) (i : ChartInterval) (ts : List TradeRow)
    (b : Int) : Tally :=
  let group := ts.filter (fun t => rowStart stamp i t = b)
  ⟨b, group.length, TradeRows.buys group, TradeRows.sells group,
    volumeOf group⟩

theorem pricedFrom_rows (div : ℚ → ℚ → ℚ) (ts : List TradeRow) :
    ∀ sold reserve, (pricedFrom div sold reserve ts).map (·.row) = ts := by
  induction ts with
  | nil =>
      intro _ _
      rfl
  | cons t ts ih =>
      intro sold reserve
      rw [pricedFrom, List.map_cons, ih]

/-- Pricing reorders the rows and drops none. -/
theorem priced_rows (div : ℚ → ℚ → ℚ) (ts : List TradeRow) :
    ((priced div ts).map (·.row)).Perm ts := by
  rw [priced, pricedFrom_rows]
  exact List.mergeSort_perm _ _

/-- The counts do not depend on the order of the rows. -/
theorem tallyAt_perm {stamp : Nat → Nat} {i : ChartInterval}
    {ts us : List TradeRow} (h : ts.Perm us) (b : Int) :
    tallyAt stamp i ts b = tallyAt stamp i us b := by
  have hg := h.filter (fun t => rowStart stamp i t = b)
  simp only [tallyAt, buys, sells, volumeOf, Tally.mk.injEq, true_and]
  exact ⟨hg.length_eq, (hg.filter _).length_eq, (hg.filter _).length_eq,
    (hg.map _).sum_eq⟩

/-- **THE COUNTS OF THE CANDLE QUERY**: one tally for each distinct start. -/
theorem buckets_tally (div : ℚ → ℚ → ℚ) (stamp : Nat → Nat)
    (i : ChartInterval) (ts : List TradeRow) :
    (buckets div stamp i ts).map ChartPoint.tally
      = (ascend (ts.map (rowStart stamp i))).map (tallyAt stamp i ts) := by
  have hrows := priced_rows div ts
  have hstarts : ascend ((priced div ts).map (fun p => rowStart stamp i p.row))
      = ascend (ts.map (rowStart stamp i)) := by
    refine ascend_eq ?_
    intro a
    have := (hrows.map (rowStart stamp i)).mem_iff (a := a)
    rwa [List.map_map] at this
  unfold buckets
  simp only [List.map_map, hstarts]
  refine List.map_congr_left ?_
  intro b _
  rw [← tallyAt_perm hrows b]
  simp only [Function.comp_apply, ChartPoint.tally, candle, tallyAt,
    List.filter_map, List.length_map, Tally.mk.injEq, true_and]
  exact ⟨rfl, rfl, rfl, rfl⟩

theorem buckets_start (div : ℚ → ℚ → ℚ) (stamp : Nat → Nat)
    (i : ChartInterval) (ts : List TradeRow) :
    (buckets div stamp i ts).map (·.bucketStart)
      = ascend (ts.map (rowStart stamp i)) := by
  have h := congrArg (List.map Tally.start) (buckets_tally div stamp i ts)
  rw [List.map_map, List.map_map] at h
  exact h.trans (List.map_id'' (fun _ => rfl) _)

/-- The page `ChartRange` answers with, counted. -/
theorem chartRange_tally (div : ℚ → ℚ → ℚ) (stamp : Nat → Nat)
    (token : Address) (r : ChartRequest) (trades : List TradeRow) :
    (chartRange div stamp token r trades).map ChartPoint.tally
      = (((ascend ((ofToken token trades).map (rowStart stamp r.interval))).filter
          (r.covers ·)).rtake r.limit).map
            (tallyAt stamp r.interval (ofToken token trades)) := by
  have hcovers : ∀ cs : List ChartPoint,
      (cs.filter (fun c => r.covers c.bucketStart)).map ChartPoint.tally
        = (cs.map ChartPoint.tally).filter (fun t => r.covers t.start) := by
    intro cs
    rw [List.filter_map]
    rfl
  rw [chartRange, map_rtake, hcovers, buckets_tally, List.filter_map,
    ← map_rtake]
  rfl

end TradeRows
