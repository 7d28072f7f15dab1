import Cooket.IndexerStoreProofs

/-! # What the indexer recomputes, and its two operations

    `rebuildMetricsTx`, `rebuildCurveStateTx` and `rebuildAnalyticsTx` of
    `apps/indexer/store.go` empty their tables and fill them again from the
    canonical rows, in the transaction that applied or rewound a block.  So
    their result is a FUNCTION of the live rows (`rebuild`).  The counts, the
    volume and the prices of a token are those of `TradeRows.tokenMetrics`, its
    candles those of `TradeRows.buckets`.

    Every amount written is a `NUMERIC(78,0)`: PostgreSQL refuses one of
    `10^78` or more (`Derived.fits`). -/

namespace IndexerStore

open Contract IndexerEvents Keyset RowTable TradeRows

/-! ## The recomputed tables -/

/-- The columns of `curves` set by `rebuildCurveStateTx`. -/
structure CurveState where
  key : Key
  soldSupply : Int
  reserveBalance : Int
  graduated : Bool
  deriving DecidableEq, Repr

/-- `token_holder_balances`. -/
structure HolderRow where
  tokenAddress : Address
  holderAddress : Address
  balance : Int
  latest : Option Origin
  deriving DecidableEq, Repr

/-- `token_metrics`. -/
structure MetricsRow where
  tokenAddress : Address
  counted : Metrics
  latest : Option Origin
  holderCount : Nat
  uniqueTraderCount : Nat
  latestTradeTimestamp : Option Nat
  recentTradeCount : Nat
  recentVolume : Nat
  recentTraderCount : Nat
  recentWindowStart : Option Int
  deriving DecidableEq, Repr

/-- `token_trade_buckets`. -/
structure BucketRow where
  tokenAddress : Address
  point : ChartPoint
  latest : Option Origin
  deriving DecidableEq, Repr

/-- Everything recomputed. -/
structure Derived where
  curveStates : List CurveState
  holders : List HolderRow
  metrics : List MetricsRow
  tradeBuckets : List BucketRow
  deriving DecidableEq, Repr

/-! ## Curves -/

/-- The event graduates the token. -/
def graduates (token : Address) (r : EventRow) : Bool :=
  match r.decoded with
  | .graduated graduated _ _ _ _ => graduated = token
  | _ => false

/-- `rebuildCurveStateTx`, for one curve. -/
def curveState (live : List Body) (c : CurveRow) : CurveState where
  key := (Body.curve c).key
  soldSupply := ((ofToken c.tokenAddress (tradesOf live)).map soldDelta).sum
  reserveBalance := ((ofToken c.tokenAddress (tradesOf live)).map reserveDelta).sum
  graduated := (eventsOf live).any (graduates c.tokenAddress)

/-! ## Holders -/

/-- A row of `deltas`. -/
structure Delta where
  token : Address
  holder : Address
  amount : Int
  origin : Origin
  deriving DecidableEq, Repr

/-- `block_number,transaction_hash,log_index`. -/
def Delta.rank (d : Delta) : List Nat :=
  [d.origin.blockNumber, d.origin.transactionHash, d.origin.logIndex]

/-- `transfers`, of one event. -/
def transferDeltas (known : List Address) (r : EventRow) : List Delta :=
  match r.decoded with
  | .transfer source destination value =>
      if r.contractAddress ∈ known then
        (if source = 0 then []
          else [⟨r.contractAddress, source, -(value : Int), r.origin⟩]) ++
        (if destination = 0 then []
          else [⟨r.contractAddress, destination, value, r.origin⟩])
      else []
  | _ => []

/-- A collected mint of the token. -/
def minted (token : Address) (r : EventRow) : Bool :=
  match r.decoded with
  | .transfer source _ _ => r.contractAddress = token && source = 0
  | _ => false

/-- `seeds`, of one event: a launch whose mint was not collected. -/
def seedDelta (events : List EventRow) (r : EventRow) : List Delta :=
  match r.decoded with
  | .tokenLaunchedV3 _ token curve totalSupply _ _ _ _ =>
      if events.any (minted token) then []
      else [⟨token, curve, totalSupply, r.origin⟩]
  | _ => []

def deltas (live : List Body) : List Delta :=
  let events := eventsOf live
  let known := (tokensOf live).map (·.tokenAddress)
  events.flatMap (transferDeltas known) ++ events.flatMap (seedDelta events)

/-- `token_holder_balances`. -/
def holders (live : List Body) : List HolderRow :=
  let all := deltas live
  let pairs := (all.map fun d => (d.token, d.holder)).dedup
  let rows := pairs.map fun p =>
    let own := all.filter fun d => d.token = p.1 && d.holder = p.2
    { tokenAddress := p.1
      holderAddress := p.2
      balance := (own.map (·.amount)).sum
      latest := ((orderBy Delta.rank own).getLast?).map (·.origin) : HolderRow }
  rows.filter (0 < ·.balance)

/-! ## Metrics and candles -/

def tradeOrigin (t : TradeRow) : Origin :=
  ⟨t.blockNumber, t.blockHash, t.transactionHash, t.logIndex⟩

/-- `JOIN chain_blocks b ON b.block_hash=t.block_hash AND b.is_canonical`. -/
def onCanonicalBlock (live : List Body) (ts : List TradeRow) : List TradeRow :=
  ts.filter fun t => (stampOf live t.blockHash).isSome

/-- The timestamp of a row of `onCanonicalBlock`. -/
def stampIn (live : List Body) (hash : Hash) : Nat :=
  (stampOf live hash).getD 0

/-- `block_number,transaction_hash,log_index`. -/
def hashRank (t : TradeRow) : List Nat :=
  [t.blockNumber, t.transactionHash, t.logIndex]

/-- `max(block_timestamp)`. -/
def anchor (live : List Body) : Option Nat :=
  ((blocksOf live).map (·.blockTimestamp)).max?

def traders (ts : List TradeRow) : Nat := (ts.map (·.traderAddress)).dedup.length

/-- `recent`: the trades of the last 24 hours of indexed time. -/
def recent (live : List Body) (ts : List TradeRow) : List TradeRow :=
  match anchor live with
  | none => []
  | some latest => (onCanonicalBlock live ts).filter fun t =>
      (latest : Int) - 86400 < stampIn live t.blockHash

/-- The row of a token in `token_metrics`. -/
def metricsRow (env : Env) (live : List Body) (token : TokenRow) : MetricsRow :=
  let ts := ofToken token.tokenAddress (tradesOf live)
  { tokenAddress := token.tokenAddress
    counted := tokenMetrics env.div token.initialSupply token.tokenAddress
      (tradesOf live)
    latest := ts.getLast?.map tradeOrigin
    holderCount := ((holders live).filter
      (·.tokenAddress = token.tokenAddress)).length
    uniqueTraderCount := traders ts
    latestTradeTimestamp :=
      ((orderBy hashRank (onCanonicalBlock live ts)).getLast?).map
        (stampIn live ·.blockHash)
    recentTradeCount := (recent live ts).length
    recentVolume := volumeOf (recent live ts)
    recentTraderCount := traders (recent live ts)
    recentWindowStart := (anchor live).map fun latest => (latest : Int) - 86400 }

/-- The rows of a token in `token_trade_buckets`. -/
def bucketRows (env : Env) (live : List Body) (token : TokenRow) :
    List BucketRow :=
  let ts := onCanonicalBlock live (ofToken token.tokenAddress (tradesOf live))
  (buckets env.div (stampIn live) .h1 ts).map fun point =>
    { tokenAddress := token.tokenAddress
      point := point
      latest := ((ts.filter fun t =>
        rowStart (stampIn live) .h1 t = point.bucketStart).getLast?).map
          tradeOrigin }

/-- `SELECT DISTINCT ON (lower(token_address))` of the canonical tokens. -/
def canonicalTokens (live : List Body) : List TokenRow :=
  distinctOn (·.tokenAddress) (tokensOf live)

/-- **`rebuildMetricsTx`, `rebuildCurveStateTx` and `rebuildAnalyticsTx`**. -/
def rebuild (env : Env) (live : List Body) : Derived where
  curveStates := (curvesOf live).map (curveState live)
  holders := holders live
  metrics := (canonicalTokens live).map (metricsRow env live)
  tradeBuckets := (canonicalTokens live).flatMap (bucketRows env live)

/-! ## `NUMERIC(78,0)` -/

def numericFits (x : Int) : Bool := x.natAbs < 10 ^ 78

def priceFits (x : Option Int) : Bool := x.all numericFits

/-- Every amount of the recomputed tables can be written. -/
def Derived.fits (d : Derived) : Bool :=
  d.curveStates.all (fun c =>
    numericFits c.soldSupply && numericFits c.reserveBalance) &&
  d.holders.all (fun h => numericFits h.balance) &&
  d.metrics.all (fun m =>
    numericFits m.counted.volume && numericFits m.counted.fees &&
    numericFits m.recentVolume && priceFits m.counted.currentPrice &&
    priceFits m.counted.fullyDilutedValue) &&
  d.tradeBuckets.all (fun r =>
    numericFits r.point.volume && priceFits r.point.openPrice &&
    priceFits r.point.highPrice && priceFits r.point.lowPrice &&
    priceFits r.point.closePrice)

/-! ## The store -/

/-- The database: the tables, what is recomputed from them, and the row of
    `indexer_checkpoints`, whose hash may be the empty string. -/
structure Store where
  rows : Rows
  derived : Derived
  checkpoint : Option (Nat × Option Hash)

/-- An empty database. -/
def fresh : Store := ⟨Table.empty, ⟨[], [], [], []⟩, none⟩

/-- The three rebuilds at the end of a transaction. -/
def finish (env : Env) (t : Rows) (checkpoint : Option (Nat × Option Hash)) :
    Except IndexError Store := do
  let t ← rebuildCTOTx env t
  let derived := rebuild env t.live
  if derived.fits then .ok ⟨t, derived, checkpoint⟩ else .error .numericOverflow

/-- One turn of the loop of `ApplyWithProvenance`. -/
def applyLog (env : Env) (b : Block) (t : Rows) (l : Log) :
    Except IndexError Rows :=
  if l.blockNumber ≠ b.number ∨ l.blockHash ≠ b.hash then
    .error (.provenanceMismatch l.blockNumber l.txHash l.index)
  else insertEvent env b t l

def blockRow (b : Block) : BlockRow := ⟨b.number, b.hash, b.parentHash, b.time⟩

/-- Another block at the same height: `block_number=$2 AND block_hash<>$3`. -/
def replacedBy (b : Block) (r : Body) : Bool :=
  r.place.1 = b.number && r.place.2 ≠ b.hash

/-- **`ApplyWithProvenance`**. -/
def applyWithProvenance (env : Env) (s : Store) (b : Block) :
    Except IndexError Store := do
  (validateGraduationPairs b.logs).mapError .pairs
  (validateCTOActivationPairs env.roots b.logs).mapError .pairs
  let t ← insert env (s.rows.orphan (replacedBy b)) (.block (blockRow b))
  let t ← b.logs.foldlM (applyLog env b) t
  finish env t (some (b.number, some b.hash))

/-- `block_number >= $2`. -/
def atOrAbove (height : Nat) (r : Body) : Bool := height ≤ r.place.1

/-- **`Rewind`**.  The checkpoint row is only updated, never inserted. -/
def rewind (env : Env) (s : Store) (height : Nat) : Except IndexError Store :=
  let t := s.rows.orphan (atOrAbove height)
  let last := height - 1
  let hash := if 0 < last then canonicalBlockHash t.live last else none
  finish env t (s.checkpoint.map fun _ => (last, hash))

/-- A chain applied block by block. -/
def applyAll (env : Env) (s : Store) (c : List Block) : Except IndexError Store :=
  c.foldlM (applyWithProvenance env) s

end IndexerStore
