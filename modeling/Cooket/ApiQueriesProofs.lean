import Cooket.KeysetProofs
import Mathlib.Data.List.Lex
import Mathlib.Data.Prod.Lex
import Mathlib.Algebra.Order.Monoid.Unbundled.WithTop
import Mathlib.Data.Rat.Defs
import Mathlib.Algebra.Order.Ring.Rat

/-! # The list queries of the API

    `apps/api/internal/api/repository.go` lists tokens, holdings, trades and
    activity.  Every list is a query with an ORDER BY, a `LIMIT limit+1`, and a
    cursor made from the last row it keeps; the next page adds a hand-written
    predicate of that cursor to the WHERE clause.

    Each query is a `Listing` here: its rows, its ORDER BY as a key, and its
    cursor as the source writes it.  The columns that no filter, order or
    cursor reads (names of a graduation, urls, prices of a holding) are left
    out of the rows. -/

namespace ApiQueries

open Keyset

/-! ## Values -/

/-- A TEXT value. -/
abbrev Text := List Char

/-- A value of a `NUMERIC(78,0)` column: an integer, or NaN, which PostgreSQL
    orders above every number. -/
abbrev Numeric := WithTop ℤ

/-- The order of numerics is the computable one of the integers. -/
instance : Preorder Numeric :=
  @WithTop.instPreorder ℤ Int.instLinearOrder.toPartialOrder.toPreorder

/-- What depends on the database's locale and version: the sort keys of its
    deterministic collation, `lower`, `LIKE`, the division of two numerics,
    and the API's own trimming and lowering of a search. -/
structure Locale (Key : Type) where
  collate : Text → Key
  collate_injective : Function.Injective collate
  lower : Text → Text
  like : Text → Text → Bool
  quotient : ℤ → ℤ → ℚ
  normalize : Text → Text

def isHexDigit (c : Char) : Bool :=
  ('0' ≤ c && c ≤ '9') || ('a' ≤ c && c ≤ 'f') || ('A' ≤ c && c ≤ 'F')

/-- `validCursorHex`. -/
def validCursorHex (value : Text) (digits : Nat) : Bool :=
  match value with
  | '0' :: 'x' :: hex => hex.length == digits && hex.all isHexDigit
  | _ => false

/-- `validCursorInteger`, on the text of a numeric; an absent one is `""`. -/
def validCursorInteger (value : Option Numeric) (allowZero : Bool) : Bool :=
  match value with
  | some (some n) => 0 ≤ n && (allowZero || n ≠ 0)
  | _ => false

/-- Multiplication of numerics: NaN absorbs. -/
def mul : Numeric → Numeric → Numeric
  | some m, some n => some (m * n)
  | _, _ => ⊤

/-! ## Tables -/

structure TokenRow where
  chainId : ℤ
  tokenAddress : Text
  creatorAddress : Text
  name : Text
  symbol : Text
  xUrl : Option Text
  blockNumber : ℤ
  transactionHash : Text
  logIndex : ℤ
  isCanonical : Bool
  deriving DecidableEq

structure CurveRow where
  chainId : ℤ
  tokenAddress : Text
  curveAddress : Text
  soldSupply : Numeric
  graduationThreshold : Option Numeric
  lifecycle : Option Text
  blockNumber : ℤ
  transactionHash : Text
  logIndex : ℤ
  isCanonical : Bool
  deriving DecidableEq

structure MetricsRow where
  chainId : ℤ
  tokenAddress : Text
  fullyDilutedValue : Option Numeric
  recentVolume : Numeric
  recentTradeCount : ℤ
  recentTraderCount : ℤ
  blockNumber : ℤ
  logIndex : ℤ
  deriving DecidableEq

structure BalanceRow where
  chainId : ℤ
  tokenAddress : Text
  holderAddress : Text
  balance : Numeric
  deriving DecidableEq

structure TradeRow where
  chainId : ℤ
  tokenAddress : Text
  traderAddress : Text
  blockNumber : ℤ
  transactionIndex : ℤ
  transactionHash : Text
  logIndex : ℤ
  isCanonical : Bool
  deriving DecidableEq

/-- A row of `chain_events`; `decodedToken` is `decoded->>'token'`. -/
structure EventRow where
  chainId : ℤ
  eventName : Text
  contractAddress : Text
  decodedToken : Option Text
  blockNumber : ℤ
  transactionIndex : ℤ
  transactionHash : Text
  logIndex : ℤ
  isCanonical : Bool
  deriving DecidableEq

structure Exclusion where
  chainId : ℤ
  tokenAddress : Text
  deriving DecidableEq

/-- A state of the database: the tables in any order, with the unique keys of
    the schema. -/
structure Database where
  tokens : List TokenRow
  curves : List CurveRow
  tokenMetrics : List MetricsRow
  tokenHolderBalances : List BalanceRow
  trades : List TradeRow
  chainEvents : List EventRow
  applicationTokenExclusions : List Exclusion
  tokens_key : tokens.Pairwise fun a b =>
    (a.chainId, a.transactionHash, a.logIndex) ≠
      (b.chainId, b.transactionHash, b.logIndex)
  curves_key : curves.Pairwise fun a b =>
    (a.chainId, a.transactionHash, a.logIndex) ≠
      (b.chainId, b.transactionHash, b.logIndex)
  metrics_key : tokenMetrics.Pairwise fun a b =>
    (a.chainId, a.tokenAddress) ≠ (b.chainId, b.tokenAddress)
  balances_key : tokenHolderBalances.Pairwise fun a b =>
    (a.chainId, a.tokenAddress, a.holderAddress) ≠
      (b.chainId, b.tokenAddress, b.holderAddress)
  balances_nonneg : ∀ b ∈ tokenHolderBalances, 0 ≤ b.balance
  trades_key : trades.Pairwise fun a b =>
    (a.chainId, a.transactionHash, a.logIndex) ≠
      (b.chainId, b.transactionHash, b.logIndex)
  events_key : chainEvents.Pairwise fun a b =>
    (a.chainId, a.transactionHash, a.logIndex) ≠
      (b.chainId, b.transactionHash, b.logIndex)

/-! ## Cursors -/

/-- The kinds of cursor. -/
inductive Kind where
  | tokens
  | creator
  | search
  | trending
  | discovery
  | holdings
  | trades
  | activity
  | ctoProposals
  | ctoCheckpoints
  | ctoTransfers
  | ctoFeePulls
  deriving DecidableEq

/-- The discovery views. -/
inductive View where
  | top
  | near
  | linked
  deriving DecidableEq

/-- `pageCursor`; a field that is omitted when empty has its empty value. -/
structure PageCursor where
  kind : Kind
  blockNumber : ℤ
  tokenAddress : Text := []
  transaction : Text := []
  transactionIndex : ℤ := 0
  logIndex : ℤ := 0
  volume : Option Numeric := none
  recentTrades : ℤ := 0
  recentUsers : ℤ := 0
  query : Text := []
  proposalID : Text := []
  view : Option View := none
  threshold : Option Numeric := none

/-- How a list query fails. -/
inductive Error where
  | invalidCursor
  | noRows
  deriving DecidableEq

/-- Go's `if bad { return ErrInvalidCursor }`. -/
def refuse (bad : Bool) : Except Error Unit :=
  if bad then .error .invalidCursor else .ok ()

/-- `decodeCursor` of a cursor that is present.  Its text is base64 of JSON,
    which gives back the fields that were written. -/
def decodeCursor (c : PageCursor) (kind : Kind) : Except Error Unit := do
  refuse (c.kind ≠ kind || c.blockNumber < 0)
  refuse ((kind = .tokens || kind = .creator || kind = .holdings) &&
    !validCursorHex c.tokenAddress 40)
  refuse (kind = .trending &&
    (!validCursorHex c.tokenAddress 40 || c.volume = none))
  refuse (kind = .search &&
    (!validCursorHex c.tokenAddress 40 || c.query = []))
  refuse (kind = .discovery &&
    (!validCursorHex c.tokenAddress 40 || c.view = none))
  refuse (kind = .discovery &&
    ((c.view = some .top && !validCursorInteger c.volume true) ||
      (c.view = some .near && (!validCursorInteger c.volume true ||
        !validCursorInteger c.threshold false))))
  refuse ((kind = .trades || kind = .activity) &&
    (!validCursorHex c.transaction 64 || c.transactionIndex < 0 ||
      c.logIndex < 0))
  refuse (kind = .ctoProposals && (!validCursorHex c.transaction 64 ||
    !validCursorHex c.proposalID 64 || c.logIndex < 0))
  refuse ((kind = .ctoCheckpoints || kind = .ctoTransfers ||
    kind = .ctoFeePulls) &&
    (!validCursorHex c.transaction 64 || c.logIndex < 0))

/-- `validOpaqueCursor` of `http.go`, which `pagination` asks of the cursor of
    every request.  Its switch does not name `discovery` and `holdings`. -/
def validOpaqueCursor (c : PageCursor) : Bool :=
  match c.kind with
  | .tokens | .creator | .search | .trending | .trades | .activity
  | .ctoProposals | .ctoCheckpoints | .ctoTransfers | .ctoFeePulls =>
      0 ≤ c.blockNumber && (decodeCursor c c.kind).isOk
  | .discovery | .holdings => false

/-- Where a cursor is presented: to the repository, or to the HTTP handler in
    front of it. -/
inductive Layer where
  | repository
  | http
  deriving DecidableEq

/-- What a presented cursor passes before the query runs. -/
def presented (layer : Layer) (kind : Kind) (c : PageCursor) :
    Except Error Unit := do
  refuse (layer = .http && !validOpaqueCursor c)
  decodeCursor c kind

/-! ## The token select -/

variable {Key : Type} [LinearOrder Key]

/-- `ORDER BY block_number DESC, log_index DESC`. -/
def latest (blockNumber logIndex : ℤ) : ℤᵒᵈ ×ₗ ℤᵒᵈ :=
  toLex (OrderDual.toDual blockNumber, OrderDual.toDual logIndex)

def excluded (db : Database) (chain : ℤ) (address : Text) : Bool :=
  db.applicationTokenExclusions.any
    fun x => x.chainId = chain && x.tokenAddress = address

/-- The canonical tokens of the chain that are not excluded: of the rows whose
    address agrees up to case, the latest. -/
def canonicalTokens (P : Locale Key) (db : Database) (chain : ℤ) :
    List TokenRow :=
  distinctOn (fun t => P.lower t.tokenAddress)
    (orderBy (fun t => (toLex (P.collate (P.lower t.tokenAddress),
        toLex (latest t.blockNumber t.logIndex, P.collate t.tokenAddress)) :
          Key ×ₗ (ℤᵒᵈ ×ₗ ℤᵒᵈ) ×ₗ Key))
      (db.tokens.filter fun t => t.chainId = chain && t.isCanonical &&
        !excluded db chain (P.lower t.tokenAddress)))

/-- The lateral join with `curves`. -/
def curveOf (P : Locale Key) (db : Database) (chain : ℤ) (address : Text) :
    Option CurveRow :=
  (orderBy (fun c => latest c.blockNumber c.logIndex)
    (db.curves.filter fun c => c.chainId = chain &&
      P.lower c.tokenAddress = P.lower address && c.isCanonical)).head?

/-- The lateral join with `token_metrics`: a row of the very address first. -/
def metricsOf (P : Locale Key) (db : Database) (chain : ℤ)
    (address : Text) : Option MetricsRow :=
  (orderBy (fun m => (toLex (OrderDual.toDual
      (decide (m.tokenAddress = address)),
        latest m.blockNumber m.logIndex) : Boolᵒᵈ ×ₗ ℤᵒᵈ ×ₗ ℤᵒᵈ))
    (db.tokenMetrics.filter fun m => m.chainId = chain &&
      P.lower m.tokenAddress = P.lower address)).head?

/-- A row of `tokenSelect`. -/
structure TokenView where
  token : TokenRow
  curve : Option CurveRow
  metrics : Option MetricsRow
  deriving DecidableEq

def tokenSelect (P : Locale Key) (db : Database) (chain : ℤ) :
    List TokenView :=
  (canonicalTokens P db chain).map fun t =>
    { token := t
      curve := curveOf P db chain t.tokenAddress
      metrics := metricsOf P db chain t.tokenAddress }

/-! ## The lists of tokens -/

/-- `ORDER BY t.block_number DESC, t.token_address ASC`. -/
def launchOrder (P : Locale Key) (t : TokenView) : ℤᵒᵈ ×ₗ Key :=
  toLex (OrderDual.toDual t.token.blockNumber, P.collate t.token.tokenAddress)

/-- `t.block_number < $b OR (t.block_number = $b AND t.token_address > $a)`. -/
def afterLaunch (P : Locale Key) (c : PageCursor) (t : TokenView) : Bool :=
  t.token.blockNumber < c.blockNumber ||
    (t.token.blockNumber = c.blockNumber &&
      P.collate c.tokenAddress < P.collate t.token.tokenAddress)

/-- The lists in launch order share everything but their rows, the kind of
    their cursor and what else it carries. -/
def launchListing (P : Locale Key) (layer : Layer) (rows : List TokenView)
    (mark : TokenView → PageCursor)
    (accepts : PageCursor → Except Error Unit) (kind : Kind) :
    Listing TokenView PageCursor Error (ℤᵒᵈ ×ₗ Key) where
  matching := rows
  order := launchOrder P
  mark := fun last => .ok (mark last)
  accepts := fun c => do
    presented layer kind c
    accepts c
  admits := afterLaunch P

/-- The cursor of a list in launch order. -/
def launchCursor (kind : Kind) (last : TokenView) : PageCursor where
  kind := kind
  blockNumber := last.token.blockNumber
  tokenAddress := last.token.tokenAddress

variable (P : Locale Key) (db : Database) (chain : ℤ) (layer : Layer)

def listTokens : Listing TokenView PageCursor Error (ℤᵒᵈ ×ₗ Key) :=
  launchListing P layer (tokenSelect P db chain) (launchCursor .tokens)
    (fun _ => .ok ()) .tokens

def creatorTokens (creator : Text) :
    Listing TokenView PageCursor Error (ℤᵒᵈ ×ₗ Key) :=
  launchListing P layer
    ((tokenSelect P db chain).filter fun t =>
      P.lower t.token.creatorAddress = P.lower creator)
    (launchCursor .creator) (fun _ => .ok ()) .creator

/-- `SearchTokens`: the cursor is bound to the normalised query. -/
def searchTokens (query : Text) :
    Listing TokenView PageCursor Error (ℤᵒᵈ ×ₗ Key) :=
  let q := P.normalize query
  let pattern := q ++ ['%']
  launchListing P layer
    ((tokenSelect P db chain).filter fun t =>
      P.like (P.lower t.token.name) pattern ||
      P.like (P.lower t.token.symbol) pattern ||
      P.like (P.lower t.token.tokenAddress) pattern)
    (fun last => { launchCursor .search last with query := q })
    (fun c => refuse (c.query ≠ q)) .search

/-- `DiscoveryTokens`, view `linked`. -/
def linkedTokens : Listing TokenView PageCursor Error (ℤᵒᵈ ×ₗ Key) :=
  launchListing P layer
    ((tokenSelect P db chain).filter fun t => t.token.xUrl.getD [] ≠ [])
    (fun last => { launchCursor .discovery last with view := some .linked })
    (fun c => refuse (c.view ≠ some .linked)) .discovery

/-- `coalesce(m.fully_diluted_value,0)`. -/
def fullyDilutedValue (t : TokenView) : Numeric :=
  (t.metrics.bind MetricsRow.fullyDilutedValue).getD 0

/-- `DiscoveryTokens`, view `top`. -/
def topTokens :
    Listing TokenView PageCursor Error (Numericᵒᵈ ×ₗ ℤᵒᵈ ×ₗ Key) where
  matching := tokenSelect P db chain
  order := fun t =>
    toLex (OrderDual.toDual (fullyDilutedValue t), launchOrder P t)
  mark := fun last => .ok { launchCursor .discovery last with
    view := some .top, volume := some (fullyDilutedValue last) }
  accepts := fun c => do
    presented layer .discovery c
    refuse (c.view ≠ some .top)
  admits := fun c t =>
    let value := fullyDilutedValue t
    let mark := c.volume.getD 0
    value < mark || (value = mark && t.token.blockNumber < c.blockNumber) ||
      (value = mark && t.token.blockNumber = c.blockNumber &&
        P.collate c.tokenAddress < P.collate t.token.tokenAddress)

/-- `c.sold_supply` of a row, and its text in the response. -/
def soldSupply (t : TokenView) : Numeric :=
  (t.curve.map CurveRow.soldSupply).getD 0

/-- `c.graduation_threshold`; where it is NULL the comparisons of the view
    `near` are not true. -/
def graduationThreshold (t : TokenView) : Numeric :=
  (t.curve.bind CurveRow.graduationThreshold).getD 0

/-- `c.sold_supply/c.graduation_threshold`, a numeric quotient, NaN when an
    operand is. -/
def progress (t : TokenView) : WithTop ℚ :=
  match soldSupply t, graduationThreshold t with
  | some s, some h => some (P.quotient s h)
  | _, _ => ⊤

/-- `DiscoveryTokens`, view `near`: ordered by the quotient, continued by a
    cross multiplication. -/
def nearTokens :
    Listing TokenView PageCursor Error ((WithTop ℚ)ᵒᵈ ×ₗ ℤᵒᵈ ×ₗ Key) where
  matching := (tokenSelect P db chain).filter fun t =>
    t.curve.bind CurveRow.lifecycle = some "active".toList &&
      0 < graduationThreshold t && soldSupply t < graduationThreshold t
  order := fun t => toLex (OrderDual.toDual (progress P t), launchOrder P t)
  mark := fun last => .ok { launchCursor .discovery last with
    view := some .near
    volume := some (soldSupply last)
    threshold := some (graduationThreshold last) }
  accepts := fun c => do
    presented layer .discovery c
    refuse (c.view ≠ some .near)
  admits := fun c t =>
    let here := mul (soldSupply t) (c.threshold.getD 0)
    let mark := mul (c.volume.getD 0) (graduationThreshold t)
    here < mark || (here = mark && t.token.blockNumber < c.blockNumber) ||
      (here = mark && t.token.blockNumber = c.blockNumber &&
        P.collate c.tokenAddress < P.collate t.token.tokenAddress)

/-- The trailing volume, trades and traders of a row, zero without metrics. -/
def recent (t : TokenView) : Numeric × ℤ × ℤ :=
  match t.metrics with
  | some m => (m.recentVolume, m.recentTradeCount, m.recentTraderCount)
  | none => (0, 0, 0)

/-- `TrendingTokens`.  The cursor reads the metrics of the last row again, in
    a query that needs a row. -/
def trendingTokens : Listing TokenView PageCursor Error
    (Numericᵒᵈ ×ₗ ℤᵒᵈ ×ₗ ℤᵒᵈ ×ₗ ℤᵒᵈ ×ₗ Key) where
  matching := tokenSelect P db chain
  order := fun t => toLex (OrderDual.toDual (recent t).1,
    toLex (OrderDual.toDual (recent t).2.1,
      toLex (OrderDual.toDual (recent t).2.2, launchOrder P t)))
  mark := fun last =>
    match metricsOf P db chain last.token.tokenAddress with
    | none => .error .noRows
    | some m => .ok { launchCursor .trending last with
        volume := some m.recentVolume
        recentTrades := m.recentTradeCount
        recentUsers := m.recentTraderCount }
  accepts := presented layer .trending
  admits := fun c t =>
    let v := c.volume.getD 0
    let (volume, trades, traders) := recent t
    volume < v || (volume = v && trades < c.recentTrades) ||
      (volume = v && trades = c.recentTrades && traders < c.recentUsers) ||
      (volume = v && trades = c.recentTrades && traders = c.recentUsers &&
        t.token.blockNumber < c.blockNumber) ||
      (volume = v && trades = c.recentTrades && traders = c.recentUsers &&
        t.token.blockNumber = c.blockNumber &&
        P.collate c.tokenAddress < P.collate t.token.tokenAddress)

/-! ## Holdings -/

/-- A row of `WalletHoldings`. -/
structure Holding where
  token : TokenRow
  balance : BalanceRow
  deriving DecidableEq

/-- `WalletHoldings`: the wallet's positive balances joined with the canonical
    tokens by their lowered addresses. -/
def walletHoldings (holder : Text) :
    Listing Holding PageCursor Error (Key ×ₗ Key) where
  matching :=
    (db.tokenHolderBalances.filter fun b => b.chainId = chain &&
      P.lower b.holderAddress = P.lower holder && 0 < b.balance).flatMap
    fun b => ((canonicalTokens P db chain).filter fun t =>
        P.lower t.tokenAddress = P.lower b.tokenAddress).map
      fun t => { token := t, balance := b }
  order := fun h => toLex (P.collate (P.lower h.token.tokenAddress),
    P.collate h.token.tokenAddress)
  mark := fun last => .ok
    { kind := .holdings, blockNumber := 0,
      tokenAddress := last.token.tokenAddress }
  accepts := presented layer .holdings
  admits := fun c h => P.collate (P.lower c.tokenAddress) <
    P.collate (P.lower h.token.tokenAddress)

/-! ## Trades and activity -/

/-- The place of a row on the chain. -/
structure Place where
  blockNumber : ℤ
  transactionIndex : ℤ
  transactionHash : Text
  logIndex : ℤ
  deriving DecidableEq

/-- `ORDER BY block_number DESC, transaction_index DESC, log_index DESC,
    transaction_hash DESC`. -/
def chainOrder (p : Place) : ℤᵒᵈ ×ₗ ℤᵒᵈ ×ₗ ℤᵒᵈ ×ₗ Keyᵒᵈ :=
  toLex (OrderDual.toDual p.blockNumber,
    toLex (OrderDual.toDual p.transactionIndex,
      toLex (OrderDual.toDual p.logIndex,
        OrderDual.toDual (P.collate p.transactionHash))))

/-- The predicate of the cursor compares the hash BEFORE the log index. -/
def afterPlace (c : PageCursor) (p : Place) : Bool :=
  p.blockNumber < c.blockNumber || (p.blockNumber = c.blockNumber &&
    (p.transactionIndex < c.transactionIndex ||
      (p.transactionIndex = c.transactionIndex &&
        (P.collate p.transactionHash < P.collate c.transaction ||
          (p.transactionHash = c.transaction && p.logIndex < c.logIndex)))))

/-- `Trades` and `Activity` page alike: rows of one table, by their place. -/
def placedListing {Row : Type} (kind : Kind) (rows : List Row)
    (place : Row → Place) :
    Listing Row PageCursor Error (ℤᵒᵈ ×ₗ ℤᵒᵈ ×ₗ ℤᵒᵈ ×ₗ Keyᵒᵈ) where
  matching := rows
  order := fun r => chainOrder P (place r)
  mark := fun last => .ok
    { kind := kind
      blockNumber := (place last).blockNumber
      transactionIndex := (place last).transactionIndex
      transaction := (place last).transactionHash
      logIndex := (place last).logIndex }
  accepts := presented layer kind
  admits := fun c r => afterPlace P c (place r)

def TradeRow.place (r : TradeRow) : Place where
  blockNumber := r.blockNumber
  transactionIndex := r.transactionIndex
  transactionHash := r.transactionHash
  logIndex := r.logIndex

def EventRow.place (r : EventRow) : Place where
  blockNumber := r.blockNumber
  transactionIndex := r.transactionIndex
  transactionHash := r.transactionHash
  logIndex := r.logIndex

def trades (token : Text) :
    Listing TradeRow PageCursor Error (ℤᵒᵈ ×ₗ ℤᵒᵈ ×ₗ ℤᵒᵈ ×ₗ Keyᵒᵈ) :=
  placedListing P layer .trades
    (db.trades.filter fun r => r.chainId = chain &&
      P.lower r.tokenAddress = P.lower token && r.isCanonical &&
      !excluded db chain (P.lower r.tokenAddress))
    TradeRow.place

/-- `Activity`: the events that name the token, and its own transfers. -/
def activity (token : Text) :
    Listing EventRow PageCursor Error (ℤᵒᵈ ×ₗ ℤᵒᵈ ×ₗ ℤᵒᵈ ×ₗ Keyᵒᵈ) :=
  placedListing P layer .activity
    (db.chainEvents.filter fun r => r.chainId = chain && r.isCanonical &&
      (r.decodedToken.map P.lower = some (P.lower token) ||
        (r.eventName = "Transfer".toList &&
          P.lower r.contractAddress = P.lower token)) &&
      !excluded db chain (P.lower token))
    EventRow.place

end ApiQueries
