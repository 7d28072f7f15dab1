import Cooket.AscendingProofs
import Cooket.KeysetProofs
import Mathlib.Data.Prod.Lex
import Mathlib.Data.List.MinMax
import Mathlib.Algebra.Order.Group.Nat

/-! # The tables of the analytics exporter

    `tools/analytics-exporter/export.py` reads the tokens and their trades
    from the public API and writes four tables.  `build_export` cuts what it
    was given at one block and derives every column from what is left; this
    file has it, and the reconciliation of a token's trades with its metrics
    that comes before.

    Addresses and hashes are compared in lower case, so they are numbers
    here; a day is its number since the epoch, in the order of its ISO text.
    The tables do not depend on the order in which tokens and trades came
    (`tablesOf_congr`). -/

namespace AnalyticsExport

open Ascending Keyset

/-! ## What the API answers -/

/-- What of a token never changes: its `created_at` and its names. -/
structure Token where
  address : Nat
  creator : Nat
  name : String
  symbol : String
  blockNumber : Nat
  blockTimestamp : Nat
  deriving DecidableEq

/-- The `curve` of a token. -/
structure Curve where
  soldSupply : Nat
  graduationThreshold : Nat
  lifecycle : String
  deriving DecidableEq

/-- The `metrics` of a token. -/
structure Metrics where
  tradeCount : Nat
  buyCount : Nat
  sellCount : Nat
  uniqueTraderCount : Nat
  volume : Nat
  deriving DecidableEq

/-- A response of `/api/v1/tokens/{address}`; of `graduation` its phase. -/
structure Detail where
  token : Token
  curve : Option Curve
  phase : Option String
  metrics : Metrics
  indexedThroughBlock : Nat

inductive Side where
  | buy
  | sell
  deriving DecidableEq

inductive Source where
  | curve
  | uniswapV3
  deriving DecidableEq

structure Trade where
  tokenAddress : Nat
  trader : Nat
  side : Side
  source : Source
  curveValue : Nat
  reserveAmount : Nat
  blockNumber : Nat
  blockTimestamp : Nat
  transactionHash : Nat
  logIndex : Nat
  deriving DecidableEq

/-- `trade_key`. -/
def Trade.key (t : Trade) : Nat × Nat := (t.transactionHash, t.logIndex)

/-! ## Decimals -/

/-- `scaled`, of an amount that is not negative. -/
def scaled (raw decimals : Nat) : String :=
  let digits := (toString raw).toList.leftpad (decimals + 1) '0'
  let whole := digits.take (digits.length - decimals)
  let fraction := (digits.drop (digits.length - decimals)).rdropWhile
    (· == '0')
  let fraction := if fraction = [] then ['0'] else fraction
  String.ofList (whole ++ '.' :: fraction)

/-- The integer nearest to a quotient, the even one of two. -/
def halfEven (n d : Nat) : Nat :=
  let q := n / d
  let r := n % d
  if d < 2 * r then q + 1
  else if 2 * r = d ∧ q % 2 = 1 then q + 1
  else q

/-- The quotient of two integers in a decimal context of 100 digits: the
    coefficient, over this power of ten. -/
def decimalQuotient (n d : Nat) : Nat × Nat :=
  let shift := 100 + (toString d).length - (toString n).length
  let shift := if 10 ^ 100 ≤ n * 10 ^ shift / d then shift - 1 else shift
  (halfEven (n * 10 ^ shift) d, shift)

/-- `format(percent.quantize(Decimal("0.000001")), "f")`. -/
def formatMillionths (n : Nat) : String :=
  let digits := (toString n).toList.leftpad 7 '0'
  String.ofList (digits.take (digits.length - 6) ++ '.' ::
    digits.drop (digits.length - 6))

/-! ## The columns of a token -/

/-- `graduation_status`. -/
def graduationStatus (d : Detail) : String :=
  let phase := d.phase.getD ""
  let lifecycle := (d.curve.map Curve.lifecycle).getD ""
  if phase ≠ "" then phase else if lifecycle ≠ "" then lifecycle
  else "active"

/-- `graduation_progress`, with at most a hundred percent. -/
def graduationProgress (d : Detail) : String :=
  match d.curve with
  | none => "0.0"
  | some curve =>
      if curve.graduationThreshold = 0 then "0.0"
      else
        let percent := decimalQuotient (curve.soldSupply * 100)
          curve.graduationThreshold
        if 100 * 10 ^ percent.2 ≤ percent.1 then formatMillionths (10 ^ 8)
        else formatMillionths (halfEven (percent.1 * 10 ^ 6) (10 ^ percent.2))

/-- What the tables show of a token: its own columns and how far it was. -/
structure Line where
  token : Token
  status : String
  progress : String
  deriving DecidableEq

def lineOf (d : Detail) : Line where
  token := d.token
  status := graduationStatus d
  progress := graduationProgress d

/-! ## Reconciliation -/

/-- The size of a set of them. -/
def distinct (xs : List Nat) : Nat := xs.dedup.length

def curveSum (ts : List Trade) : Nat :=
  ((ts.filter (·.source = .curve)).map Trade.curveValue).sum

def graduatedSum (ts : List Trade) : Nat :=
  ((ts.filter (·.source = .uniswapV3)).map Trade.reserveAmount).sum

/-- The metrics of a list of trades. -/
def metricsOf (rows : List Trade) : Metrics where
  tradeCount := rows.length
  buyCount := (rows.filter (·.side = .buy)).length
  sellCount := (rows.filter (·.side = .sell)).length
  uniqueTraderCount := distinct (rows.map Trade.trader)
  volume := curveSum rows + graduatedSum rows * 10 ^ (18 - 6)

/-- `validate_token_metrics`. -/
def validateTokenMetrics (d : Detail) (trades : List Trade)
    (checkpoint : Nat) : Except String Unit :=
  let rows := trades.filter (·.blockNumber ≤ checkpoint)
  if (rows.map Trade.key).dedup.length ≠ rows.length
  then .error "returned duplicate canonical trades"
  else
    let counted := metricsOf rows
    let checks : List (String × Bool) := [
      ("trade_count", counted.tradeCount = d.metrics.tradeCount),
      ("buy_count", counted.buyCount = d.metrics.buyCount),
      ("sell_count", counted.sellCount = d.metrics.sellCount),
      ("unique_trader_count",
        counted.uniqueTraderCount = d.metrics.uniqueTraderCount),
      ("volume", counted.volume = d.metrics.volume)]
    let failed := (checks.filter fun c => !c.2).map Prod.fst
    if failed ≠ []
    then .error ("API metrics disagree with canonical trade rows: " ++
      ", ".intercalate failed)
    else .ok ()

/-! ## The tables -/

structure Overview where
  network : String := "Arc Testnet"
  chainId : Nat := 5042002
  totalTokens : Nat
  totalTrades : Nat
  uniqueCreators : Nat
  uniqueTraders : Nat
  curveVolumeNativeUsdc : String
  graduatedVolumeErc20Usdc : String
  graduationCount : Nat
  latestIndexedBlock : Nat
  latestIndexedAt : String
  generatedAt : String
  deriving DecidableEq

structure DailyLaunches where
  day : Nat
  network : String := "Arc Testnet"
  tokensCreated : Nat
  uniqueCreators : Nat
  latestIndexedBlock : Nat
  generatedAt : String
  deriving DecidableEq

structure DailyTrades where
  day : Nat
  network : String := "Arc Testnet"
  tradeCount : Nat
  uniqueTraders : Nat
  buyCount : Nat
  sellCount : Nat
  curveVolumeNativeUsdc : String
  graduatedVolumeErc20Usdc : String
  latestIndexedBlock : Nat
  generatedAt : String
  deriving DecidableEq

/-- A row of the top tokens; `latestTradeAt` is `""` without trades. -/
structure TopToken where
  tokenAddress : Nat
  symbol : String
  name : String
  tradeCount : Nat
  uniqueTraders : Nat
  curveVolumeNativeUsdc : String
  graduatedVolumeErc20Usdc : String
  graduationStatus : String
  graduationProgress : String
  latestTradeAt : Option Nat
  network : String := "Arc Testnet"
  latestIndexedBlock : Nat
  generatedAt : String
  deriving DecidableEq

structure Tables where
  overview : Overview
  dailyLaunches : List DailyLaunches
  dailyTrades : List DailyTrades
  topTokens : List TopToken
  deriving DecidableEq

/-- What stands in every row. -/
structure Stamp where
  cutoff : Nat
  indexedAt : String
  generatedAt : String

/-- `since_block` and `since_timestamp`; without either the export is a full
    snapshot. -/
structure Since where
  block : Option Nat
  timestamp : Option Nat

/-- A delta, or a full snapshot. -/
def Since.isDelta (since : Since) : Bool :=
  since.block.isSome || since.timestamp.isSome

/-- `included`. -/
def Since.included (since : Since) (block timestamp : Nat) : Bool :=
  (since.block.all fun b => b < block) &&
    (since.timestamp.all fun t => t < timestamp)

def utcDay (timestamp : Nat) : Nat := timestamp / 86400

def launchDay (k : Token) : Nat := utcDay k.blockTimestamp

def tradeDay (t : Trade) : Nat := utcDay t.blockTimestamp

/-- A day on which a token was launched after the mark. -/
def launchedOn (since : Since) (tokens : List Token) (day : Nat) : Bool :=
  tokens.any fun k =>
    since.included k.blockNumber k.blockTimestamp && launchDay k = day

/-- A day of a trade after the mark. -/
def tradedOn (since : Since) (trades : List Trade) (day : Nat) : Bool :=
  trades.any fun t =>
    since.included t.blockNumber t.blockTimestamp && tradeDay t = day

/-- A token launched or traded after the mark. -/
def touched (since : Since) (tokens : List Token) (trades : List Trade)
    (address : Nat) : Bool :=
  (trades.any fun t =>
    since.included t.blockNumber t.blockTimestamp &&
      t.tokenAddress = address) ||
  tokens.any fun k =>
    since.included k.blockNumber k.blockTimestamp && k.address = address

def overviewOf (lines : List Line) (trades : List Trade) (stamp : Stamp) :
    Overview where
  totalTokens := lines.length
  totalTrades := trades.length
  uniqueCreators := distinct (lines.map fun l => l.token.creator)
  uniqueTraders := distinct (trades.map Trade.trader)
  curveVolumeNativeUsdc := scaled (curveSum trades) 18
  graduatedVolumeErc20Usdc := scaled (graduatedSum trades) 6
  graduationCount := (lines.filter (·.status = "graduated")).length
  latestIndexedBlock := stamp.cutoff
  latestIndexedAt := stamp.indexedAt
  generatedAt := stamp.generatedAt

def dailyLaunchesOf (tokens : List Token) (stamp : Stamp) :
    List DailyLaunches :=
  (ascend (tokens.map launchDay)).map fun day =>
    let group := tokens.filter fun k => launchDay k = day
    { day := day
      tokensCreated := group.length
      uniqueCreators := distinct (group.map Token.creator)
      latestIndexedBlock := stamp.cutoff
      generatedAt := stamp.generatedAt }

def dailyTradesOf (trades : List Trade) (stamp : Stamp) : List DailyTrades :=
  (ascend (trades.map tradeDay)).map fun day =>
    let group := trades.filter fun t => tradeDay t = day
    { day := day
      tradeCount := group.length
      uniqueTraders := distinct (group.map Trade.trader)
      buyCount := (group.filter (·.side = .buy)).length
      sellCount := (group.filter (·.side = .sell)).length
      curveVolumeNativeUsdc := scaled (curveSum group) 18
      graduatedVolumeErc20Usdc := scaled (graduatedSum group) 6
      latestIndexedBlock := stamp.cutoff
      generatedAt := stamp.generatedAt }

/-- The row of one token. -/
def topToken (trades : List Trade) (stamp : Stamp) (line : Line) :
    TopToken :=
  let group := trades.filter fun t => t.tokenAddress = line.token.address
  { tokenAddress := line.token.address
    symbol := line.token.symbol
    name := line.token.name
    tradeCount := group.length
    uniqueTraders := distinct (group.map Trade.trader)
    curveVolumeNativeUsdc := scaled (curveSum group) 18
    graduatedVolumeErc20Usdc := scaled (graduatedSum group) 6
    graduationStatus := line.status
    graduationProgress := line.progress
    latestTradeAt := (group.map Trade.blockTimestamp).max?
    latestIndexedBlock := stamp.cutoff
    generatedAt := stamp.generatedAt }

/-- The sort key of the top tokens. -/
def topOrder (row : TopToken) : Natᵒᵈ ×ₗ Nat :=
  toLex (OrderDual.toDual row.tradeCount, row.tokenAddress)

def topTokensOf (lines : List Line) (trades : List Trade) (stamp : Stamp) :
    List TopToken :=
  orderBy topOrder (lines.map (topToken trades stamp))

/-- The tables of the tokens and trades that are in the export. -/
def tablesOf (lines : List Line) (trades : List Trade) (stamp : Stamp)
    (since : Since) : Tables :=
  let tokens := lines.map Line.token
  let launches := dailyLaunchesOf tokens stamp
  let days := dailyTradesOf trades stamp
  let top := topTokensOf lines trades stamp
  if since.isDelta then
    { overview := overviewOf lines trades stamp
      dailyLaunches :=
        launches.filter fun r => launchedOn since tokens r.day
      dailyTrades := days.filter fun r => tradedOn since trades r.day
      topTokens :=
        top.filter fun r => touched since tokens trades r.tokenAddress }
  else
    { overview := overviewOf lines trades stamp
      dailyLaunches := launches
      dailyTrades := days
      topTokens := top }

/-- The body of the loop that drops trades seen twice. -/
def keep (cutoff : Nat) (deduped : List Trade) (trade : Trade) :
    Except String (List Trade) :=
  if cutoff < trade.blockNumber then .ok deduped
  else match deduped.find? (·.key = trade.key) with
    | none => .ok (deduped ++ [trade])
    | some seen =>
        if seen ≠ trade then .error "conflicting duplicate trade"
        else .ok deduped

/-- `build_export`. -/
def buildExport (details : List Detail) (trades : List Trade)
    (stamp : Stamp) (since : Since) : Except String Tables := do
  let sourceTokens := details.filter
    fun d => d.token.blockNumber ≤ stamp.cutoff
  let sourceTrades ← trades.foldlM (keep stamp.cutoff) []
  if sourceTrades.any fun t =>
    !(sourceTokens.map fun d => d.token.address).contains t.tokenAddress
  then .error "trade references a token absent from the canonical token export"
  else if stamp.cutoff = 0 then .error "export validation failed"
  else .ok (tablesOf (sourceTokens.map lineOf) sourceTrades stamp since)

/-! ## The order of the input -/

theorem distinct_perm {xs ys : List Nat} (h : xs.Perm ys) :
    distinct xs = distinct ys :=
  h.dedup.length_eq

theorem curveSum_perm {ts us : List Trade} (h : ts.Perm us) :
    curveSum ts = curveSum us :=
  ((h.filter _).map _).sum_eq

theorem graduatedSum_perm {ts us : List Trade} (h : ts.Perm us) :
    graduatedSum ts = graduatedSum us :=
  ((h.filter _).map _).sum_eq

theorem max_perm {xs ys : List Nat} (h : xs.Perm ys) : xs.max? = ys.max? := by
  have hle : ∀ {xs ys : List Nat}, xs.Perm ys → ∀ m, xs.max? = some m →
      ys.max? = some m := by
    intro xs ys h m hm
    rw [List.max?_eq_some_iff] at hm ⊢
    exact ⟨h.mem_iff.mp hm.1, fun b hb => hm.2 b (h.mem_iff.mpr hb)⟩
  cases hx : xs.max? with
  | some m => exact (hle h m hx).symm
  | none =>
      cases hy : ys.max? with
      | none => rfl
      | some m =>
          rw [hle h.symm m hy] at hx
          cases hx

theorem any_perm {α : Type} {xs ys : List α} (h : xs.Perm ys)
    (p : α → Bool) : xs.any p = ys.any p := by
  rw [Bool.eq_iff_iff, List.any_eq_true, List.any_eq_true]
  exact exists_congr (fun a => and_congr_left' h.mem_iff)

theorem metricsOf_perm {ts us : List Trade} (h : ts.Perm us) :
    metricsOf ts = metricsOf us := by
  simp only [metricsOf, Metrics.mk.injEq]
  refine ⟨h.length_eq, (h.filter _).length_eq, (h.filter _).length_eq,
    distinct_perm (h.map _), ?_⟩
  rw [curveSum_perm h, graduatedSum_perm h]

theorem dailyLaunchesOf_perm {ks js : List Token} (h : ks.Perm js)
    (stamp : Stamp) : dailyLaunchesOf ks stamp = dailyLaunchesOf js stamp := by
  have hdays : ascend (ks.map launchDay) = ascend (js.map launchDay) :=
    ascend_eq (fun _ => (h.map launchDay).mem_iff)
  rw [dailyLaunchesOf, dailyLaunchesOf, hdays]
  refine List.map_congr_left ?_
  intro day _
  have hgroup := h.filter (fun k => decide (launchDay k = day))
  simp only [DailyLaunches.mk.injEq, true_and, and_true]
  exact ⟨hgroup.length_eq, distinct_perm (hgroup.map _)⟩

theorem dailyTradesOf_perm {ts us : List Trade} (h : ts.Perm us)
    (stamp : Stamp) : dailyTradesOf ts stamp = dailyTradesOf us stamp := by
  have hdays : ascend (ts.map tradeDay) = ascend (us.map tradeDay) :=
    ascend_eq (fun _ => (h.map tradeDay).mem_iff)
  rw [dailyTradesOf, dailyTradesOf, hdays]
  refine List.map_congr_left ?_
  intro day _
  have hgroup := h.filter (fun t => decide (tradeDay t = day))
  simp only [DailyTrades.mk.injEq, true_and, and_true]
  refine ⟨hgroup.length_eq, distinct_perm (hgroup.map _),
    (hgroup.filter _).length_eq, (hgroup.filter _).length_eq, ?_, ?_⟩
  · rw [curveSum_perm hgroup]
  · rw [graduatedSum_perm hgroup]

theorem topToken_perm {ts us : List Trade} (h : ts.Perm us) (stamp : Stamp)
    (line : Line) : topToken ts stamp line = topToken us stamp line := by
  have hgroup := h.filter
    (fun t => decide (t.tokenAddress = line.token.address))
  simp only [topToken, TopToken.mk.injEq, true_and, and_true]
  refine ⟨hgroup.length_eq, distinct_perm (hgroup.map _), ?_, ?_,
    max_perm (hgroup.map _)⟩
  · rw [curveSum_perm hgroup]
  · rw [graduatedSum_perm hgroup]

theorem touched_perm {ks js : List Token} {ts us : List Trade}
    (hk : ks.Perm js) (ht : ts.Perm us) (since : Since) (address : Nat) :
    touched since ks ts address = touched since js us address := by
  rw [touched, touched, any_perm hk, any_perm ht]

/-! ## What the tables tell -/

/-- The tokens that get a row of their own. -/
def shows (since : Since) (tokens : List Token) (trades : List Trade)
    (k : Token) : Bool :=
  !since.isDelta || touched since tokens trades k.address

/-- The rows of the top tokens that are written. -/
def topRows (lines : List Line) (trades : List Trade) (stamp : Stamp)
    (since : Since) : List TopToken :=
  (topTokensOf lines trades stamp).filter fun r =>
    !since.isDelta ||
      touched since (lines.map Line.token) trades r.tokenAddress

theorem tablesOf_topTokens (lines : List Line) (trades : List Trade)
    (stamp : Stamp) (since : Since) :
    (tablesOf lines trades stamp since).topTokens =
      topRows lines trades stamp since := by
  rw [tablesOf, topRows]
  cases since.isDelta with
  | true => rfl
  | false =>
      symm
      exact List.filter_eq_self.mpr (fun _ _ => rfl)

theorem tablesOf_overview (lines : List Line) (trades : List Trade)
    (stamp : Stamp) (since : Since) :
    (tablesOf lines trades stamp since).overview =
      overviewOf lines trades stamp := by
  rw [tablesOf]
  split
  · rfl
  · rfl

/-- A token has a row when it is shown, and the row is its line's. -/
theorem mem_topRows {lines : List Line} {trades : List Trade}
    {stamp : Stamp} {since : Since} {row : TopToken} :
    row ∈ topRows lines trades stamp since ↔
      ∃ line ∈ lines, row = topToken trades stamp line ∧
        shows since (lines.map Line.token) trades line.token = true := by
  rw [topRows, List.mem_filter, topTokensOf, (orderBy_perm _ _).mem_iff,
    List.mem_map]
  constructor
  · rintro ⟨⟨line, hline, rfl⟩, hshown⟩
    exact ⟨line, hline, rfl, hshown⟩
  · rintro ⟨line, hline, rfl, hshown⟩
    exact ⟨⟨line, hline, rfl⟩, hshown⟩

theorem topRows_strict {lines : List Line} {trades : List Trade}
    {stamp : Stamp} {since : Since}
    (h : (lines.map fun l => l.token.address).Nodup) :
    (topRows lines trades stamp since).Pairwise
      (fun a b => topOrder a < topOrder b) := by
  refine (orderBy_strict ?_).filter _
  rw [List.pairwise_map]
  refine (List.pairwise_map.mp h).imp ?_
  intro a b hne heq
  exact hne (congrArg (fun k => (ofLex k).2) heq)

section Congr

variable {ks js : List Token} {ts us : List Trade} {f g : Token → Line}
variable {stamp : Stamp} {since : Since}

/-- **TABLES OF THE SAME TOKENS AND TRADES**, in any order, are the same
    just when as many tokens have graduated and every token that has a row
    is shown alike. -/
theorem tablesOf_eq_iff (hk : ks.Perm js) (ht : ts.Perm us)
    (hkey : (ks.map Token.address).Nodup)
    (hf : ∀ k, (f k).token = k) (hg : ∀ k, (g k).token = k) :
    tablesOf (ks.map f) ts stamp since = tablesOf (js.map g) us stamp since ↔
      ((ks.filter fun k => (f k).status = "graduated").length =
        (ks.filter fun k => (g k).status = "graduated").length) ∧
      ∀ k ∈ ks, shows since ks ts k = true → f k = g k := by
  have htokens : ∀ (h : Token → Line), (∀ k, (h k).token = k) →
      ∀ xs : List Token, (xs.map h).map Line.token = xs := by
    intro h hh xs
    rw [List.map_map]
    exact (List.map_congr_left (fun k _ => hh k)).trans (List.map_id xs)
  have hkeys : ∀ (h : Token → Line), (∀ k, (h k).token = k) →
      ∀ xs : List Token, (xs.map h).map (fun l => l.token.address) =
        xs.map Token.address := by
    intro h hh xs
    rw [List.map_map]
    exact List.map_congr_left (fun k _ => congrArg Token.address (hh k))
  have hshows : ∀ k, shows since ks ts k = shows since js us k := by
    intro k
    rw [shows, shows, touched_perm hk ht]
  have hcount : ∀ (h : Token → Line) (xs : List Token),
      ((xs.map h).filter (·.status = "graduated")).length =
        (xs.filter fun k => (h k).status = "graduated").length := by
    intro h xs
    rw [List.filter_map, List.length_map]
    rfl
  have hoverview : overviewOf (ks.map f) ts stamp =
      overviewOf (js.map g) us stamp ↔
      (ks.filter fun k => (f k).status = "graduated").length =
        (ks.filter fun k => (g k).status = "graduated").length := by
    have hcreators : ∀ (h : Token → Line), (∀ k, (h k).token = k) →
        ∀ xs : List Token, (xs.map h).map (fun l => l.token.creator) =
          xs.map Token.creator := by
      intro h hh xs
      rw [List.map_map]
      exact List.map_congr_left (fun k _ => congrArg Token.creator (hh k))
    simp only [overviewOf, Overview.mk.injEq, true_and, and_true,
      List.length_map, hcreators f hf, hcreators g hg, hcount,
      distinct_perm (hk.map Token.creator),
      distinct_perm (ht.map Trade.trader), curveSum_perm ht,
      graduatedSum_perm ht, hk.length_eq, ht.length_eq,
      (hk.filter fun k => decide ((g k).status = "graduated")).length_eq]
  have htop : topRows (ks.map f) ts stamp since =
      topRows (js.map g) us stamp since ↔
      ∀ k ∈ ks, shows since ks ts k = true → f k = g k := by
    constructor
    · intro heq k hmem hshown
      have hrow : topToken ts stamp (f k) ∈
          topRows (js.map g) us stamp since := by
        rw [← heq, mem_topRows, htokens f hf]
        refine ⟨f k, List.mem_map.mpr ⟨k, hmem, rfl⟩, rfl, ?_⟩
        rw [hf]
        exact hshown
      obtain ⟨line, hline, hrow, -⟩ := mem_topRows.mp hrow
      obtain ⟨j, hj, rfl⟩ := List.mem_map.mp hline
      have haddress : k.address = j.address := by
        have h := congrArg TopToken.tokenAddress hrow
        simp only [topToken, hf, hg] at h
        exact h
      have hkj : k = j :=
        List.inj_on_of_nodup_map hkey hmem (hk.mem_iff.mpr hj) haddress
      subst hkj
      have hstatus := congrArg TopToken.graduationStatus hrow
      have hprogress := congrArg TopToken.graduationProgress hrow
      have htoken : (f k).token = (g k).token := (hf k).trans (hg k).symm
      revert htoken hstatus hprogress
      simp only [topToken]
      cases f k
      cases g k
      rintro rfl rfl rfl
      rfl
    · intro hall
      refine eq_of_ranked topOrder
        (topRows_strict (by rw [hkeys f hf]; exact hkey))
        (topRows_strict (by
          rw [hkeys g hg]
          exact (hk.map Token.address).nodup_iff.mp hkey)) ?_
      intro row
      rw [mem_topRows, mem_topRows, htokens f hf, htokens g hg]
      constructor
      · rintro ⟨line, hline, rfl, hshown⟩
        obtain ⟨k, hmem, rfl⟩ := List.mem_map.mp hline
        rw [hf] at hshown
        rw [hall k hmem hshown]
        refine ⟨g k, List.mem_map.mpr ⟨k, hk.mem_iff.mp hmem, rfl⟩,
          topToken_perm ht stamp _, ?_⟩
        rw [hg, ← hshows]
        exact hshown
      · rintro ⟨line, hline, rfl, hshown⟩
        obtain ⟨k, hmem, rfl⟩ := List.mem_map.mp hline
        rw [hg, ← hshows] at hshown
        have hmem' : k ∈ ks := hk.mem_iff.mpr hmem
        rw [← hall k hmem' hshown]
        refine ⟨f k, List.mem_map.mpr ⟨k, hmem', rfl⟩,
          (topToken_perm ht stamp _).symm, ?_⟩
        rw [hf]
        exact hshown
  rw [← hoverview, ← htop]
  constructor
  · intro heq
    refine ⟨?_, ?_⟩
    · rw [← tablesOf_overview, heq, tablesOf_overview]
    · rw [← tablesOf_topTokens, heq, tablesOf_topTokens]
  · rintro ⟨hview, hrows⟩
    rw [← tablesOf_topTokens, ← tablesOf_topTokens] at hrows
    have hlaunches := dailyLaunchesOf_perm hk stamp
    have hdays := dailyTradesOf_perm ht stamp
    have hlaunched : ∀ day, launchedOn since ks day =
        launchedOn since js day := fun day => any_perm hk _
    have htraded : ∀ day, tradedOn since ts day = tradedOn since us day :=
      fun day => any_perm ht _
    cases hdelta : since.isDelta with
    | true =>
        simp only [tablesOf, hdelta, if_true, htokens f hf, htokens g hg,
          Tables.mk.injEq] at hrows ⊢
        refine ⟨hview, ?_, ?_, hrows⟩
        · rw [hlaunches]
          exact List.filter_congr (fun r _ => hlaunched r.day)
        · rw [hdays]
          exact List.filter_congr (fun r _ => htraded r.day)
    | false =>
        simp only [tablesOf, hdelta, Bool.false_eq_true, if_false,
          htokens f hf, htokens g hg, Tables.mk.injEq] at hrows ⊢
        exact ⟨hview, hlaunches, hdays, hrows⟩

end Congr

end AnalyticsExport
