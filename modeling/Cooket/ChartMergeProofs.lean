import Cooket.AggregateProofs
import Cooket.IndexerAnalyticsProofs

/-! # Candles of one width, out of candles of another

    `ChartRange` of `apps/api/internal/api/repository.go` computes candles of
    any interval from the trades of a token; `rebuildAnalyticsTx` of the
    indexer stores those of one hour.  Both cut time by a GRID whose cells start
    at the edges of the interval, and every edge of a coarse interval is an
    edge of a finer one that divides it.  So a coarse candle is taken over a
    group of groups, and `Aggregate` says what that makes of its columns:
    counts and volumes add up, the extremes are the extremes of the extremes.
    The first and the last price are those of the first and last fine candle
    as long as the block times do not go back, since rows are ordered by their
    place in the chain and candles by time.

    The number of distinct traders is the one column that does not add up. -/

namespace ChartMerge

open Ascending Aggregate Contract IndexerStore TradeRows Keyset

/-! ## The grid -/

/-- Where the cells of an interval start counting: a Monday, for weeks. -/
def epoch (i : ChartInterval) : Int := if i.weekly then 4 * 86400 else 0

/-- The start of a bucket. -/
def Edge (i : ChartInterval) (x : Int) : Prop :=
  (i.seconds : Int) ∣ x - epoch i

instance (i : ChartInterval) (x : Int) : Decidable (Edge i x) :=
  inferInstanceAs (Decidable ((i.seconds : Int) ∣ x - epoch i))

section
variable {i fine coarse : ChartInterval} {b : Int} {ts : Nat}

theorem bucketStart_edge (i : ChartInterval) (ts : Nat) :
    Edge i (bucketStart i ts) := by
  cases i <;>
    simp only [Edge, epoch, bucketStart, ChartInterval.weekly,
      ChartInterval.seconds, dateTruncWeek, reduceCtorEq, decide_false,
      decide_true, if_true, Bool.false_eq_true, if_false] <;>
    omega

/-- A stamp lies in its bucket. -/
theorem bucketStart_le (i : ChartInterval) (ts : Nat) :
    bucketStart i ts ≤ ts ∧ (ts : Int) < bucketStart i ts + i.seconds := by
  cases i <;>
    simp only [bucketStart, ChartInterval.weekly, ChartInterval.seconds,
      dateTruncWeek, reduceCtorEq, decide_false, decide_true, if_true,
      Bool.false_eq_true, if_false] <;>
    omega

/-- An edge after another is a whole cell after it. -/
theorem Edge.next {x y : Int} (hx : Edge i x) (hy : Edge i y) (h : x < y) :
    x + i.seconds ≤ y := by
  have hdvd : (i.seconds : Int) ∣ y - x := by
    have h := Int.dvd_sub hy hx
    rwa [sub_sub_sub_cancel_right] at h
  have := Int.le_of_dvd (by omega) hdvd
  omega

/-- A bucket starts before an edge if the stamp does. -/
theorem le_bucketStart_iff (hb : Edge i b) :
    b ≤ bucketStart i ts ↔ b ≤ (ts : Int) := by
  obtain ⟨hle, hlt⟩ := bucketStart_le i ts
  constructor
  · exact fun h => h.trans hle
  · intro h
    by_contra hnot
    have := (bucketStart_edge i ts).next hb (not_le.mp hnot)
    omega

theorem Edge.add (hb : Edge i b) : Edge i (b + i.seconds) := by
  have h := Int.dvd_add hb (Int.dvd_refl (i.seconds : Int))
  rw [Edge]
  rwa [show b + (i.seconds : Int) - epoch i = b - epoch i + i.seconds by omega]

theorem bucketStart_eq_iff (hb : Edge i b) :
    bucketStart i ts = b ↔ b ≤ (ts : Int) ∧ (ts : Int) < b + i.seconds := by
  have hnext : b + i.seconds ≤ bucketStart i ts ↔ b + i.seconds ≤ (ts : Int) :=
    le_bucketStart_iff hb.add
  constructor
  · rintro rfl
    exact bucketStart_le i ts
  · rintro ⟨hle, hlt⟩
    have hfrom := (le_bucketStart_iff hb).mpr hle
    by_contra hne
    have := hb.next (bucketStart_edge i ts)
      (lt_of_le_of_ne hfrom (Ne.symm hne))
    omega

/-- **THE GRIDS ARE NESTED**: a coarse edge is an edge of what divides it. -/
theorem Edge.of_dvd (hdvd : fine.seconds ∣ coarse.seconds)
    (hb : Edge coarse b) : Edge fine b := by
  have hseconds : (fine.seconds : Int) ∣ coarse.seconds :=
    Int.natCast_dvd_natCast.mpr hdvd
  have hepoch : (fine.seconds : Int) ∣ epoch coarse - epoch fine := by
    cases fine <;> cases coarse <;> revert hdvd <;> decide
  have h := Int.dvd_add (Int.dvd_trans hseconds hb) hepoch
  rwa [sub_add_sub_cancel] at h

/-- A coarse bucket holds the fine buckets that start in it. -/
theorem bucketStart_coarse (hdvd : fine.seconds ∣ coarse.seconds)
    (hb : Edge coarse b) :
    bucketStart coarse ts = b ↔
      b ≤ bucketStart fine ts ∧ bucketStart fine ts < b + coarse.seconds := by
  rw [bucketStart_eq_iff hb, le_bucketStart_iff (hb.of_dvd hdvd), ← not_le,
    ← not_le, le_bucketStart_iff (hb.add.of_dvd hdvd)]

end

/-! ## The query -/

/-- `LEFT JOIN` of the token's decimals: without a canonical row of the token
    they are `NULL`, and so is the price of a pool trade.  With one they are
    18, by the check of the table. -/
def quoted (known : Bool) (p : Priced) : Priced :=
  if p.row.source = .uniswapV3 ∧ known = false then { p with price := none }
  else p

theorem quoted_row (known : Bool) (p : Priced) : (quoted known p).row = p.row := by
  rw [quoted]
  split <;> rfl

/-- The trades the query joins with their canonical blocks. -/
def joined (live : List Body) (token : Address) : List TradeRow :=
  onCanonicalBlock live (ofToken token (tradesOf live))

/-- `priced` of `ChartRange`. -/
def chartRows (env : Env) (live : List Body) (token : Address) : List Priced :=
  if env.excluded token then []
  else (priced env.div (joined live token)).map
    (quoted ((tokensOf live).any (·.tokenAddress = token)))

/-- The bucket of a priced row. -/
def startOf (live : List Body) (i : ChartInterval) (p : Priced) : Int :=
  rowStart (stampIn live) i p.row

/-- `ranged`. -/
def ranged (env : Env) (live : List Body) (token : Address)
    (r : ChartRequest) : List ChartPoint :=
  let rows := chartRows env live token
  ((ascend (rows.map (startOf live r.interval))).map fun b =>
    candle b (fibre (startOf live r.interval) rows b)).filter
      (fun c => r.covers c.bucketStart)

/-- **`ChartRange`** over the canonical rows of the database. -/
def chartPage (env : Env) (live : List Body) (token : Address)
    (r : ChartRequest) : List ChartPoint :=
  (ranged env live token r).rtake r.limit

/-- The limit is not reached. -/
def Whole (env : Env) (live : List Body) (token : Address)
    (r : ChartRequest) : Prop :=
  (ranged env live token r).length ≤ r.limit

/-- The request for `[a,b)`. -/
def between (i : ChartInterval) (a b : Int) (limit : Nat) : ChartRequest :=
  ⟨i, some a, some b, limit⟩

section
variable {env : Env} {live : List Body} {token : Address} {r : ChartRequest}

theorem chartPage_of_whole (h : Whole env live token r) :
    chartPage env live token r = ranged env live token r := by
  rw [chartPage, List.rtake, Nat.sub_eq_zero_of_le h, List.drop_zero]

/-- A token that has a row and is shown is queried as it is. -/
theorem ranged_shown {t : TokenRow} (ht : t ∈ tokensOf live)
    (hshown : env.excluded t.tokenAddress = false) :
    ranged env live t.tokenAddress r =
      (buckets env.div (stampIn live) r.interval
        (joined live t.tokenAddress)).filter
          (fun c => r.covers c.bucketStart) := by
  have hknown : (tokensOf live).any
      (·.tokenAddress = t.tokenAddress) = true :=
    List.any_eq_true.mpr ⟨t, ht, decide_eq_true rfl⟩
  have hquoted : quoted true = id := by
    funext p
    exact if_neg (fun h => Bool.noConfusion h.2)
  have hrows : chartRows env live t.tokenAddress =
      priced env.div (joined live t.tokenAddress) := by
    rw [chartRows, hshown, hknown, hquoted, List.map_id]
    rfl
  rw [ranged, hrows]
  rfl

/-- Of such a token the page is that of `TradeRows.chartRange`. -/
theorem chartPage_eq {t : TokenRow} (ht : t ∈ tokensOf live)
    (hshown : env.excluded t.tokenAddress = false) :
    chartPage env live t.tokenAddress r =
      chartRange env.div (stampIn live) t.tokenAddress r
        (onCanonicalBlock live (tradesOf live)) := by
  have hjoined : joined live t.tokenAddress =
      ofToken t.tokenAddress (onCanonicalBlock live (tradesOf live)) :=
    List.filter_comm _ _ _
  rw [chartPage, ranged_shown ht hshown, hjoined]
  rfl

/-- The candles in range, by their starts. -/
theorem ranged_eq :
    ranged env live token r =
      (ascend (((chartRows env live token).map
        (startOf live r.interval)).filter (r.covers ·))).map fun b =>
          candle b (fibre (startOf live r.interval)
            (chartRows env live token) b) := by
  rw [ranged, ← ascend_filter, List.filter_map]
  rfl

theorem mem_ranged {c : ChartPoint} :
    c ∈ ranged env live token r ↔
      (∃ p ∈ chartRows env live token,
        startOf live r.interval p = c.bucketStart) ∧
      r.covers c.bucketStart = true ∧
      c = candle c.bucketStart (fibre (startOf live r.interval)
        (chartRows env live token) c.bucketStart) := by
  rw [ranged_eq, List.mem_map]
  constructor
  · rintro ⟨b, hb, rfl⟩
    obtain ⟨hb, hcovers⟩ := List.mem_filter.mp (mem_ascend.mp hb)
    exact ⟨List.mem_map.mp hb, hcovers, rfl⟩
  · rintro ⟨hrow, hcovers, hc⟩
    exact ⟨c.bucketStart, mem_ascend.mpr
      (List.mem_filter.mpr ⟨List.mem_map.mpr hrow, hcovers⟩), hc.symm⟩

/-- The rows are in the order of the chain. -/
theorem chartRows_ordered :
    (chartRows env live token).Pairwise fun p q =>
      p.row ∈ joined live token ∧ q.row ∈ joined live token ∧
        p.row.blockNumber ≤ q.row.blockNumber := by
  have hsorted : (inChainOrder (joined live token)).Pairwise fun t u =>
      t ∈ joined live token ∧ u ∈ joined live token ∧
        t.blockNumber ≤ u.blockNumber := by
    have hmem : ∀ t ∈ inChainOrder (joined live token),
        t ∈ joined live token := fun t ht =>
      (List.mergeSort_perm _ _).mem_iff.mp ht
    have hchain : (inChainOrder (joined live token)).Pairwise fun t u =>
        (decide (chainKey t ≤ chainKey u)) = true := by
      refine List.pairwise_mergeSort ?_ ?_ _
      · intro t u v htu huv
        rw [decide_eq_true_eq] at htu huv ⊢
        exact htu.trans huv
      · intro t u
        simpa using le_total (chainKey t) (chainKey u)
    refine (List.Pairwise.and_mem.mp hchain).imp ?_
    rintro t u ⟨ht, hu, htu⟩
    rw [decide_eq_true_eq, chainKey, chainKey, Prod.Lex.le_iff] at htu
    refine ⟨hmem t ht, hmem u hu, ?_⟩
    rcases htu with h | h
    · exact Nat.le_of_lt h
    · exact Nat.le_of_eq h.1
  rw [chartRows]
  split
  · exact .nil
  · rw [List.pairwise_map]
    simp only [quoted_row]
    rw [← pricedFrom_rows env.div (inChainOrder (joined live token)) 0 0,
      List.pairwise_map] at hsorted
    exact hsorted

end

/-! ## The merge -/

/-- The fine candles that start in a coarse bucket. -/
def inside (i : ChartInterval) (start : Int) (fs : List ChartPoint) :
    List ChartPoint :=
  fs.filter fun f => start ≤ f.bucketStart ∧ f.bucketStart < start + i.seconds

/-- **THE MERGE** of candles: counts and volumes added, the first open, the
    last close, the extremes, and no price at all if one candle has none. -/
def merge (start : Int) (fs : List ChartPoint) : ChartPoint where
  bucketStart := start
  tradeCount := (fs.map (·.tradeCount)).sum
  buyCount := (fs.map (·.buyCount)).sum
  sellCount := (fs.map (·.sellCount)).sum
  volume := (fs.map (·.volume)).sum
  uniqueTraderCount := (fs.map (·.uniqueTraderCount)).sum
  openPrice := aggregate (·.openPrice) List.head? fs
  highPrice := aggregate (·.highPrice) List.max? fs
  lowPrice := aggregate (·.lowPrice) List.min? fs
  closePrice := aggregate (·.closePrice) List.getLast? fs

/-- A candle is the merge of others, but for its distinct traders; its first
    and last price if block times follow the chain (`forward`). -/
structure MergeOf (forward : Prop) (c : ChartPoint) (fs : List ChartPoint) :
    Prop where
  nonempty : fs ≠ []
  tally : c.tally = (merge c.bucketStart fs).tally
  high : c.highPrice = (merge c.bucketStart fs).highPrice
  low : c.lowPrice = (merge c.bucketStart fs).lowPrice
  absent : ∀ x ∈ [c.openPrice, c.highPrice, c.lowPrice, c.closePrice],
    x = none ↔ ∃ f ∈ fs, f.openPrice = none
  opened : forward → c.openPrice = (merge c.bucketStart fs).openPrice
  closed : forward → c.closePrice = (merge c.bucketStart fs).closePrice
  traders_le : c.uniqueTraderCount ≤ (merge c.bucketStart fs).uniqueTraderCount
  le_traders : ∀ f ∈ fs, f.uniqueTraderCount ≤ c.uniqueTraderCount

/-- The candles of a list of groups. -/
def candles (k : Priced → Int) (rows : List Priced) : List ChartPoint :=
  (ascend (rows.map k)).map fun b => candle b (fibre k rows b)

section
variable {k : Priced → Int} {rows : List Priced}

theorem candle_prices (b : Int) (g : List Priced) :
    (candle b g).openPrice = aggregate Priced.price List.head? g ∧
    (candle b g).highPrice = aggregate Priced.price List.max? g ∧
    (candle b g).lowPrice = aggregate Priced.price List.min? g ∧
    (candle b g).closePrice = aggregate Priced.price List.getLast? g :=
  ⟨rfl, rfl, rfl, rfl⟩

/-- A column of the candles is a column of the groups. -/
theorem candles_map {γ : Type} (column : ChartPoint → γ)
    (of : List Priced → γ) (h : ∀ b g, column (candle b g) = of g) :
    (candles k rows).map column = (groups k rows).map of := by
  rw [candles, groups, List.map_map, List.map_map]
  refine List.map_congr_left ?_
  intro b _
  exact h b _

theorem candles_mapM {γ : Type} (column : ChartPoint → Option γ)
    (of : List Priced → Option γ) (h : ∀ b g, column (candle b g) = of g) :
    (candles k rows).mapM column = (groups k rows).mapM of := by
  rw [candles, groups, List.mapM_map, List.mapM_map]
  congr 1
  funext b
  exact h b _

/-- A count of the rows is the sum of the counts of the groups. -/
theorem sum_groups (k : Priced → Int) (rows : List Priced)
    (f : List TradeRow → Nat)
    (hperm : ∀ ts us : List TradeRow, ts.Perm us → f ts = f us)
    (hnil : f [] = 0) (happend : ∀ ts us, f (ts ++ us) = f ts + f us) :
    f (rows.map (·.row)) =
      ((groups k rows).map fun g => f (g.map (·.row))).sum := by
  rw [← hperm _ _ ((groups_perm k rows).map (·.row))]
  induction groups k rows with
  | nil => exact hnil
  | cons g gs ih =>
      rw [List.flatten_cons, List.map_append, happend, ih, List.map_cons,
        List.sum_cons]

/-- A price is missing in a group exactly if it is in one of its candles. -/
theorem candles_absent :
    (∃ f ∈ candles k rows, f.openPrice = none) ↔
      ∃ p ∈ rows, p.price = none := by
  have hperm := groups_perm k rows
  constructor
  · rintro ⟨f, hf, hnone⟩
    obtain ⟨b, hb, rfl⟩ := List.mem_map.mp hf
    have hne : fibre k rows b ≠ [] :=
      groups_ne_nil _ (List.mem_map_of_mem hb)
    obtain ⟨p, hp, hprice⟩ := (aggregate_eq_none merges_head hne).mp hnone
    exact ⟨p, (mem_fibre.mp hp).1, hprice⟩
  · rintro ⟨p, hp, hprice⟩
    obtain ⟨g, hg, hpg⟩ := List.mem_flatten.mp (hperm.mem_iff.mpr hp)
    obtain ⟨b, hb, rfl⟩ := List.mem_map.mp hg
    exact ⟨_, List.mem_map_of_mem hb,
      (aggregate_eq_none merges_head (groups_ne_nil _ hg)).mpr ⟨p, hpg, hprice⟩⟩

theorem buys_append (ts us : List TradeRow) :
    buys (ts ++ us) = buys ts + buys us := by
  rw [buys, List.filter_append, List.length_append]
  rfl

theorem sells_append (ts us : List TradeRow) :
    sells (ts ++ us) = sells ts + sells us := by
  rw [sells, List.filter_append, List.length_append]
  rfl

theorem volumeOf_append (ts us : List TradeRow) :
    volumeOf (ts ++ us) = volumeOf ts + volumeOf us := by
  rw [volumeOf, List.map_append, List.sum_append]
  rfl

/-- Counts and volume add up. -/
theorem candle_tally (b : Int) :
    (candle b rows).tally = (merge b (candles k rows)).tally := by
  have htrades := sum_groups k rows List.length
    (fun _ _ h => h.length_eq) rfl (fun _ _ => List.length_append)
  have hbuys := sum_groups k rows buys
    (fun _ _ h => (h.filter _).length_eq) rfl buys_append
  have hsells := sum_groups k rows sells
    (fun _ _ h => (h.filter _).length_eq) rfl sells_append
  have hvolume := sum_groups k rows volumeOf
    (fun _ _ h => (h.map _).sum_eq) rfl volumeOf_append
  simp only [ChartPoint.tally, candle, merge, Tally.mk.injEq, true_and]
  rw [candles_map (·.tradeCount) (fun g => (g.map Priced.row).length)
      (fun _ g => (List.length_map Priced.row).symm),
    candles_map (·.buyCount) (fun g => buys (g.map (·.row))) (fun _ _ => rfl),
    candles_map (·.sellCount) (fun g => sells (g.map (·.row))) (fun _ _ => rfl),
    candles_map (·.volume) (fun g => volumeOf (g.map (·.row))) (fun _ _ => rfl)]
  exact ⟨(List.length_map Priced.row).symm.trans htrades,
    hbuys, hsells, hvolume⟩

/-- **A CANDLE OF A GROUP OF GROUPS**. -/
theorem candle_merge (hrows : rows ≠ []) (b : Int) :
    MergeOf (rows.Pairwise fun p q => k p ≤ k q) (candle b rows)
      (candles k rows) := by
  have hperm := groups_perm k rows
  have hhigh : aggregate Priced.price List.max? rows =
      aggregate ChartPoint.highPrice List.max? (candles k rows) := by
    rw [← aggregate_perm unordered_max hperm,
      aggregate_flatten merges_max groups_ne_nil, aggregate, aggregate,
      candles_mapM _ _ (fun b g => (candle_prices b g).2.1)]
  have hlow : aggregate Priced.price List.min? rows =
      aggregate ChartPoint.lowPrice List.min? (candles k rows) := by
    rw [← aggregate_perm unordered_min hperm,
      aggregate_flatten merges_min groups_ne_nil, aggregate, aggregate,
      candles_mapM _ _ (fun b g => (candle_prices b g).2.2.1)]
  refine ⟨?_, candle_tally b, hhigh, hlow, ?_, ?_, ?_, ?_, ?_⟩
  · intro hnone
    obtain ⟨p, hp⟩ := List.exists_mem_of_ne_nil rows hrows
    have hb : k p ∈ ascend (rows.map k) :=
      mem_ascend.mpr (List.mem_map_of_mem hp)
    have hc := List.mem_map_of_mem (f := fun b => candle b (fibre k rows b)) hb
    rw [candles] at hnone
    rw [hnone] at hc
    exact List.not_mem_nil hc
  · obtain ⟨hopen, hhigh', hlow', hclose⟩ := candle_prices b rows
    rw [candles_absent]
    intro x hx
    simp only [List.mem_cons, List.not_mem_nil, or_false] at hx
    rcases hx with rfl | rfl | rfl | rfl
    · exact hopen ▸ aggregate_eq_none merges_head hrows
    · exact hhigh' ▸ aggregate_eq_none merges_max hrows
    · exact hlow' ▸ aggregate_eq_none merges_min hrows
    · exact hclose ▸ aggregate_eq_none merges_last hrows
  · intro hforward
    show aggregate Priced.price List.head? rows =
      aggregate ChartPoint.openPrice List.head? (candles k rows)
    rw [aggregate, aggregate,
      candles_mapM _ _ (fun b g => (candle_prices b g).1)]
    nth_rewrite 1 [← groups_flatten hforward]
    exact aggregate_flatten merges_head groups_ne_nil
  · intro hforward
    show aggregate Priced.price List.getLast? rows =
      aggregate ChartPoint.closePrice List.getLast? (candles k rows)
    rw [aggregate, aggregate,
      candles_mapM _ _ (fun b g => (candle_prices b g).2.2.2)]
    nth_rewrite 1 [← groups_flatten hforward]
    exact aggregate_flatten merges_last groups_ne_nil
  · show ((rows.map (·.row.traderAddress)).dedup).length ≤
      ((candles k rows).map (·.uniqueTraderCount)).sum
    rw [candles_map (·.uniqueTraderCount)
      (fun g => ((g.map (·.row.traderAddress)).dedup).length)
      (fun _ _ => rfl)]
    refine le_trans ?_ (distinct_flatten_le _ _)
    exact distinct_le _ (fun p hp => hperm.mem_iff.mpr hp)
  · intro f hf
    obtain ⟨c, hc, rfl⟩ := List.mem_map.mp hf
    exact distinct_le _ (fun p hp => (mem_fibre.mp hp).1)

end

/-! ## Coarse and fine -/

/-- A trade in a later block was not mined earlier. -/
def Forward (live : List Body) (token : Address) : Prop :=
  ∀ t ∈ joined live token, ∀ u ∈ joined live token,
    t.blockNumber ≤ u.blockNumber →
      stampIn live t.blockHash ≤ stampIn live u.blockHash

section
variable {env : Env} {live : List Body} {token : Address}
  {fine coarse : ChartInterval} {a b : Int} {m n : Nat}

theorem bucketStart_mono (i : ChartInterval) {ts ts' : Nat} (h : ts ≤ ts') :
    bucketStart i ts ≤ bucketStart i ts' := by
  refine (le_bucketStart_iff (bucketStart_edge i ts)).mpr ?_
  have := (bucketStart_le i ts).1
  omega

/-- Buckets follow the rows, where block times follow the chain. -/
theorem chartRows_forward (h : Forward live token) (i : ChartInterval) :
    (chartRows env live token).Pairwise fun p q =>
      startOf live i p ≤ startOf live i q := by
  refine chartRows_ordered.imp ?_
  rintro p q ⟨hp, hq, hle⟩
  exact bucketStart_mono i (h _ hp _ hq hle)

theorem covers_between {i : ChartInterval} {x : Int} :
    (between i a b m).covers x = true ↔ a ≤ x ∧ x < b := by
  simp [between, ChartRequest.covers]

/-- The candles of `[a,b)`, by their starts. -/
theorem ranged_between (i : ChartInterval) :
    ranged env live token (between i a b n) =
      (ascend (((chartRows env live token).map (startOf live i)).filter
        fun s => decide (a ≤ s) && decide (s < b))).map fun s =>
          candle s (fibre (startOf live i) (chartRows env live token) s) :=
  ranged_eq

/-- The fine candles inside a coarse one are the candles of its rows. -/
theorem inside_ranged (hdvd : fine.seconds ∣ coarse.seconds)
    (hb : Edge coarse b) {c : ChartPoint}
    (hc : c ∈ ranged env live token (between coarse a b m)) :
    inside coarse c.bucketStart (ranged env live token (between fine a b n)) =
      candles (startOf live fine) (fibre (startOf live coarse)
        (chartRows env live token) c.bucketStart) := by
  obtain ⟨⟨p₀, -, hp₀⟩, hcovers, -⟩ := mem_ranged.mp hc
  rw [covers_between] at hcovers
  have hedge : Edge coarse c.bucketStart := hp₀ ▸ bucketStart_edge _ _
  have hend := hedge.next hb hcovers.2
  have hin : ∀ p : Priced, startOf live coarse p = c.bucketStart ↔
      c.bucketStart ≤ startOf live fine p ∧
        startOf live fine p < c.bucketStart + coarse.seconds := fun p =>
    bucketStart_coarse hdvd hedge
  have hstarts : ascend ((((chartRows env live token).map
        (startOf live fine)).filter
          fun s => decide (a ≤ s) && decide (s < b)).filter
          fun s => c.bucketStart ≤ s ∧ s < c.bucketStart + coarse.seconds) =
      ascend ((fibre (startOf live coarse) (chartRows env live token)
        c.bucketStart).map (startOf live fine)) := by
    refine ascend_eq ?_
    intro s
    simp only [List.mem_filter, List.mem_map, mem_fibre, decide_eq_true_eq,
      Bool.and_eq_true]
    constructor
    · rintro ⟨⟨⟨p, hp, rfl⟩, -⟩, hs⟩
      exact ⟨p, ⟨hp, (hin p).mpr hs⟩, rfl⟩
    · rintro ⟨p, ⟨hp, hpc⟩, rfl⟩
      have hs := (hin p).mp hpc
      exact ⟨⟨⟨p, hp, rfl⟩, by omega⟩, hs⟩
  rw [inside, ranged_between, List.filter_map, candles, ← hstarts,
    ← ascend_filter, ← ascend_filter, ← ascend_filter]
  refine List.map_congr_left ?_
  intro s hs
  have hs : c.bucketStart ≤ s ∧ s < c.bucketStart + coarse.seconds :=
    of_decide_eq_true (List.mem_filter.mp hs).2
  have hfibre : fibre (startOf live fine) (fibre (startOf live coarse)
      (chartRows env live token) c.bucketStart) s =
        fibre (startOf live fine) (chartRows env live token) s := by
    rw [fibre, fibre, fibre, List.filter_filter]
    refine List.filter_congr ?_
    intro p _
    by_cases hp : startOf live fine p = s
    · simp [hp, (hin p).mpr (hp ▸ hs)]
    · simp [hp]
  rw [hfibre]

/-- **EVERY COARSE CANDLE IS THE MERGE OF THE FINE ONES INSIDE IT**. -/
theorem ranged_merge (hdvd : fine.seconds ∣ coarse.seconds)
    (hb : Edge coarse b) {c : ChartPoint}
    (hc : c ∈ ranged env live token (between coarse a b m)) :
    MergeOf (Forward live token) c
      (inside coarse c.bucketStart
        (ranged env live token (between fine a b n))) := by
  obtain ⟨⟨p, hp, hstart⟩, -, hcandle⟩ := mem_ranged.mp hc
  have hrows : fibre (startOf live coarse) (chartRows env live token)
      c.bucketStart ≠ [] :=
    List.ne_nil_of_mem (mem_fibre.mpr ⟨hp, hstart⟩)
  have hmerge := candle_merge (k := startOf live fine) hrows c.bucketStart
  rw [inside_ranged hdvd hb hc]
  have hforward : Forward live token → (fibre (startOf live coarse)
      (chartRows env live token) c.bucketStart).Pairwise fun p q =>
        startOf live fine p ≤ startOf live fine q :=
    fun h => (chartRows_forward h fine).filter _
  have hcandle' : candle c.bucketStart (fibre (startOf live coarse)
      (chartRows env live token) c.bucketStart) = c := hcandle.symm
  rw [hcandle'] at hmerge
  exact { hmerge with
    opened := fun h => hmerge.opened (hforward h)
    closed := fun h => hmerge.closed (hforward h) }

/-- No fine candle is left over. -/
theorem ranged_covered (hdvd : fine.seconds ∣ coarse.seconds)
    (ha : Edge coarse a) {f : ChartPoint}
    (hf : f ∈ ranged env live token (between fine a b n)) :
    ∃ c ∈ ranged env live token (between coarse a b m),
      f ∈ inside coarse c.bucketStart
        (ranged env live token (between fine a b n)) := by
  obtain ⟨⟨p, hp, hstart⟩, hcovers, -⟩ := mem_ranged.mp hf
  rw [covers_between, ← hstart] at hcovers
  have hedge : Edge coarse (startOf live coarse p) := bucketStart_edge _ _
  have hin : startOf live coarse p ≤ startOf live fine p ∧
      startOf live fine p < startOf live coarse p + coarse.seconds :=
    (bucketStart_coarse hdvd hedge).mp rfl
  have hcoarse : a ≤ startOf live coarse p ∧ startOf live coarse p < b := by
    have hle := (le_bucketStart_iff (ha.of_dvd hdvd)).mp hcovers.1
    refine ⟨(le_bucketStart_iff ha).mpr hle, ?_⟩
    exact lt_of_le_of_lt hin.1 hcovers.2
  refine ⟨candle (startOf live coarse p) (fibre (startOf live coarse)
    (chartRows env live token) (startOf live coarse p)), ?_, ?_⟩
  · exact mem_ranged.mpr ⟨⟨p, hp, rfl⟩, covers_between.mpr hcoarse, rfl⟩
  · refine List.mem_filter.mpr ⟨hf, ?_⟩
    rw [← hstart, decide_eq_true_eq]
    exact hin

/-- **ADJACENT RANGES CONCATENATE**. -/
theorem ranged_append {i : ChartInterval} {mid : Int} {l : Nat}
    (ham : a ≤ mid) (hmb : mid ≤ b) :
    ranged env live token (between i a b l) =
      ranged env live token (between i a mid l) ++
        ranged env live token (between i mid b l) := by
  rw [ranged_between, ranged_between, ranged_between, ← List.map_append]
  congr 1
  refine eq_of_members (ascend_pairwise _) ?_ ?_
  · refine List.pairwise_append.mpr
      ⟨ascend_pairwise _, ascend_pairwise _, ?_⟩
    intro x hx y hy
    have hx := (List.mem_filter.mp (mem_ascend.mp hx)).2
    have hy := (List.mem_filter.mp (mem_ascend.mp hy)).2
    rw [Bool.and_eq_true, decide_eq_true_eq, decide_eq_true_eq] at hx hy
    omega
  · intro x
    simp only [List.mem_append, mem_ascend, List.mem_filter, Bool.and_eq_true,
      decide_eq_true_eq]
    constructor
    · rintro ⟨hx, hax, hxb⟩
      rcases lt_or_ge x mid with h | h
      · exact .inl ⟨hx, hax, h⟩
      · exact .inr ⟨hx, h, hxb⟩
    · rintro (⟨hx, hax, hxm⟩ | ⟨hx, hmx, hxb⟩)
      · exact ⟨hx, hax, by omega⟩
      · exact ⟨hx, by omega, hxb⟩

end

/-! ## What the indexer stores -/

/-- The stored candles of a token. -/
def stored (env : Env) (live : List Body) (token : Address) :
    List ChartPoint :=
  ((rebuild env live).tradeBuckets.filter (·.tokenAddress = token)).map (·.point)

/-- Of rows made for keys, those of one key are those made for it. -/
theorem flatMap_filter_key {α ρ κ : Type} [DecidableEq κ] {key : α → κ}
    {rowKey : ρ → κ} {make : α → List ρ}
    (hmake : ∀ a, ∀ r ∈ make a, rowKey r = key a) {l : List α} {a : α}
    (hdistinct : l.Pairwise fun a b => key a ≠ key b) (ha : a ∈ l) :
    (l.flatMap make).filter (fun r => rowKey r = key a) = make a := by
  have hother : ∀ (bs : List α), (∀ b ∈ bs, key b ≠ key a) →
      (bs.flatMap make).filter (fun r => rowKey r = key a) = [] := by
    intro bs hbs
    refine List.filter_eq_nil_iff.mpr ?_
    intro r hr
    obtain ⟨b, hb, hrb⟩ := List.mem_flatMap.mp hr
    rw [decide_eq_true_eq, hmake b r hrb]
    exact hbs b hb
  have hown : (make a).filter (fun r => rowKey r = key a) = make a :=
    List.filter_eq_self.mpr (fun r hr => decide_eq_true (hmake a r hr))
  induction l with
  | nil => exact absurd ha List.not_mem_nil
  | cons b l ih =>
      obtain ⟨hb, hl⟩ := List.pairwise_cons.mp hdistinct
      rw [List.flatMap_cons, List.filter_append]
      rcases List.mem_cons.mp ha with rfl | ha
      · rw [hown, hother l (fun c hc => (hb c hc).symm), List.append_nil]
      · have hnone : (make b).filter (fun r => rowKey r = key a) = [] := by
          have h := hother [b] (fun c hc => by
            rw [List.mem_singleton.mp hc]
            exact hb a ha)
          rwa [List.flatMap_cons, List.flatMap_nil, List.append_nil] at h
        rw [hnone, List.nil_append, ih hl ha]

theorem stored_eq {env : Env} {live : List Body} {t : TokenRow}
    (ht : t ∈ canonicalTokens live) :
    stored env live t.tokenAddress =
      buckets env.div (stampIn live) .h1 (joined live t.tokenAddress) := by
  have hrows : (rebuild env live).tradeBuckets.filter
      (·.tokenAddress = t.tokenAddress) = bucketRows env live t := by
    refine flatMap_filter_key ?_ (distinctOn_pairwise _ _) ht
    intro u r hr
    obtain ⟨point, -, rfl⟩ := List.mem_map.mp hr
    rfl
  rw [stored, hrows, bucketRows, List.map_map]
  exact List.map_id _

/-- A token with a joined trade has a stored candle. -/
theorem stored_ne_nil {env : Env} {live : List Body} {t : TokenRow}
    {u : TradeRow} (ht : t ∈ canonicalTokens live)
    (hu : u ∈ joined live t.tokenAddress) :
    stored env live t.tokenAddress ≠ [] := by
  have hstarts := buckets_start env.div (stampIn live) .h1
    (joined live t.tokenAddress)
  have hstart : rowStart (stampIn live) .h1 u ∈ ascend
      ((joined live t.tokenAddress).map (rowStart (stampIn live) .h1)) :=
    mem_ascend.mpr (List.mem_map_of_mem hu)
  intro hnone
  rw [← hstarts, ← @stored_eq env live t ht, hnone] at hstart
  exact List.not_mem_nil hstart

/-- An excluded token has no page. -/
theorem chartPage_excluded {env : Env} {live : List Body} {token : Address}
    {r : ChartRequest} (h : env.excluded token = true) :
    chartPage env live token r = [] := by
  have hrows : chartRows env live token = [] := if_pos h
  have hranged : ranged env live token r = [] := by
    refine List.eq_nil_iff_forall_not_mem.mpr ?_
    intro c hc
    obtain ⟨⟨p, hp, -⟩, -⟩ := mem_ranged.mp hc
    rw [hrows] at hp
    exact List.not_mem_nil hp
  rw [chartPage, hranged]
  exact List.drop_nil

/-- **THE ONE-HOUR CANDLES ARE THE STORED ONES**. -/
theorem chartPage_stored {env : Env} {live : List Body} {t : TokenRow}
    {r : ChartRequest} (ht : t ∈ canonicalTokens live)
    (hshown : env.excluded t.tokenAddress = false) (hr : r.interval = .h1)
    (hwhole : Whole env live t.tokenAddress r) :
    chartPage env live t.tokenAddress r =
      (stored env live t.tokenAddress).filter
        (fun c => r.covers c.bucketStart) := by
  rw [chartPage_of_whole hwhole, ranged_shown (mem_of_mem_distinctOn ht) hshown,
    stored_eq ht, hr]

/-! ## The law -/

section
variable {env : Env} {live : List Body} {token : Address}
  {fine coarse i : ChartInterval} {a b mid : Int} {m n l : Nat}

/-- Half a range that fits a limit fits it too. -/
theorem Whole.halves (ham : a ≤ mid) (hmb : mid ≤ b)
    (h : Whole env live token (between i a b l)) :
    Whole env live token (between i a mid l) ∧
      Whole env live token (between i mid b l) := by
  have hlength := congrArg List.length
    (@ranged_append env live token a b i mid l ham hmb)
  rw [List.length_append] at hlength
  have hle : (ranged env live token (between i a b l)).length ≤ l := h
  constructor
  · show (ranged env live token (between i a mid l)).length ≤ l
    omega
  · show (ranged env live token (between i mid b l)).length ≤ l
    omega

/-- A page is the page of its first half and that of its second. -/
theorem chartPage_append (ham : a ≤ mid) (hmb : mid ≤ b)
    (h : Whole env live token (between i a b l)) :
    chartPage env live token (between i a b l) =
      chartPage env live token (between i a mid l) ++
        chartPage env live token (between i mid b l) := by
  obtain ⟨hfirst, hsecond⟩ := h.halves ham hmb
  rw [chartPage_of_whole h, chartPage_of_whole hfirst,
    chartPage_of_whole hsecond]
  exact ranged_append ham hmb

end

/-- **CANDLE AGGREGATION**.  Over edges of the coarse interval and below the
    limits, every coarse candle is the merge of the fine ones inside it, no
    fine candle is left over, adjacent ranges concatenate, and the one-hour
    candles of a token that has a row and is shown are the stored ones. -/
theorem chart_merge (env : Env) (live : List Body) (token : Address)
    {fine coarse : ChartInterval} {a b : Int} {m n : Nat}
    (hdvd : fine.seconds ∣ coarse.seconds)
    (ha : Edge coarse a) (hb : Edge coarse b)
    (hcoarse : Whole env live token (between coarse a b m))
    (hfine : Whole env live token (between fine a b n)) :
    (∀ c ∈ chartPage env live token (between coarse a b m),
      MergeOf (Forward live token) c (inside coarse c.bucketStart
        (chartPage env live token (between fine a b n)))) ∧
    (∀ f ∈ chartPage env live token (between fine a b n),
      ∃ c ∈ chartPage env live token (between coarse a b m),
        f ∈ inside coarse c.bucketStart
          (chartPage env live token (between fine a b n))) ∧
    (∀ mid, a ≤ mid → mid ≤ b →
      chartPage env live token (between coarse a b m) =
          chartPage env live token (between coarse a mid m) ++
            chartPage env live token (between coarse mid b m) ∧
        chartPage env live token (between fine a b n) =
          chartPage env live token (between fine a mid n) ++
            chartPage env live token (between fine mid b n)) ∧
    (∀ t ∈ canonicalTokens live, t.tokenAddress = token →
      env.excluded token = false → ∀ r : ChartRequest, r.interval = .h1 →
        Whole env live token r →
          chartPage env live token r = (stored env live token).filter
            (fun c => r.covers c.bucketStart)) := by
  rw [chartPage_of_whole hcoarse, chartPage_of_whole hfine]
  refine ⟨?_, ?_, ?_, ?_⟩
  · intro c hc
    exact ranged_merge hdvd hb hc
  · intro f hf
    exact ranged_covered hdvd ha hf
  · intro mid ham hmb
    rw [← chartPage_of_whole hcoarse, ← chartPage_of_whole hfine]
    exact ⟨chartPage_append ham hmb hcoarse, chartPage_append ham hmb hfine⟩
  · rintro t ht rfl hshown r hr hwhole
    exact chartPage_stored ht hshown hr hwhole

/-! ## Where the terms of the law matter -/

/-- A database whose queries divide exactly. -/
def exactEnv (excluded : Bool) : Env where
  excluded := fun _ => excluded
  roots := ⟨1, 2, 3⟩
  mixedCase := fun _ => false
  div := fun x y => x / y

/-- One buyer, buying in the pool of token 7. -/
def poolBuy (block reserve : Nat) : TradeRow where
  tokenAddress := 7
  traderAddress := 5
  side := .buy
  tokenAmount := 1
  reserveAmount := reserve
  curveValue := reserve
  protocolFee := 0
  creatorFee := 0
  source := .uniswapV3
  transactionIndex := 0
  blockNumber := block
  blockHash := block + 10
  transactionHash := block + 20
  logIndex := 0

/-- Two blocks with the given times, and a buy in each. -/
def twoBuys (tokens : List Body) (first second : Nat) : List Body :=
  tokens ++ [.block ⟨1, 11, 10, first⟩, .block ⟨2, 12, 11, second⟩,
    .trade (poolBuy 1 1), .trade (poolBuy 2 2)]

def tokenSeven : TokenRow := ⟨7, 5, [], [], 18, 1000, ⟨1, 11, 21, 0⟩⟩

section
variable {env : Env} {live : List Body} {token : Address} {r : ChartRequest}
  {rows : List Priced} {starts : List Int}

/-- The candles in range over given rows, by the starts that are in range. -/
theorem ranged_of_rows (hrows : chartRows env live token = rows)
    (hstarts : ((rows.map (startOf live r.interval)).filter
      (r.covers ·)).dedup.insertionSort (· ≤ ·) = starts) :
    ranged env live token r =
      starts.map fun s => candle s (fibre (startOf live r.interval) rows s) := by
  have hascend : ∀ xs : List Int,
      ascend xs = xs.dedup.insertionSort (· ≤ ·) := fun xs =>
    List.mergeSort_eq_insertionSort (· ≤ ·) _
  rw [ranged_eq, hrows, hascend, hstarts]

theorem whole_of_rows (starts : List Int)
    (hrows : chartRows env live token = rows)
    (hstarts : ((rows.map (startOf live r.interval)).filter
      (r.covers ·)).dedup.insertionSort (· ≤ ·) = starts)
    (hfew : starts.length ≤ r.limit) : Whole env live token r := by
  show (ranged env live token r).length ≤ r.limit
  rw [ranged_of_rows hrows hstarts, List.length_map]
  exact hfew

theorem chartPage_of_rows (starts : List Int)
    (hrows : chartRows env live token = rows)
    (hstarts : ((rows.map (startOf live r.interval)).filter
      (r.covers ·)).dedup.insertionSort (· ≤ ·) = starts)
    (hfew : starts.length ≤ r.limit) :
    chartPage env live token r =
      starts.map fun s => candle s (fibre (startOf live r.interval) rows s) := by
  rw [chartPage_of_whole (whole_of_rows starts hrows hstarts hfew),
    ranged_of_rows hrows hstarts]

end

theorem priced_twoBuys :
    priced (exactEnv false).div [poolBuy 1 1, poolBuy 2 2] =
      [⟨poolBuy 1 1, some (10 ^ 30)⟩, ⟨poolBuy 2 2, some (2 * 10 ^ 30)⟩] := by
  have horder : inChainOrder [poolBuy 1 1, poolBuy 2 2] =
      [poolBuy 1 1, poolBuy 2 2] := by
    refine List.mergeSort_of_pairwise ?_
    decide
  rw [priced, horder]
  decide +kernel

theorem chartRows_twoBuys (tokens : List Body)
    (htokens : tokens = [] ∨ tokens = [.token tokenSeven])
    (first second : Nat) :
    chartRows (exactEnv false) (twoBuys tokens first second) 7 =
      [⟨poolBuy 1 1, if tokens = [] then none else some (10 ^ 30)⟩,
        ⟨poolBuy 2 2, if tokens = [] then none else some (2 * 10 ^ 30)⟩] := by
  rcases htokens with rfl | rfl
  · have hjoined : joined (twoBuys [] first second) 7 =
        [poolBuy 1 1, poolBuy 2 2] := rfl
    rw [chartRows, hjoined, priced_twoBuys]
    rfl
  · have hjoined : joined (twoBuys [.token tokenSeven] first second) 7 =
        [poolBuy 1 1, poolBuy 2 2] := rfl
    rw [chartRows, hjoined, priced_twoBuys]
    rfl

/-- **THE LAW NEEDS ITS TERMS.**  One trader in two minutes of the same five
    counts once in the coarse candle and twice in the fine ones.  When the
    later block has the earlier time, the coarse candle opens with the trade of
    the earlier block, the first fine candle with the other.  And for an
    excluded token, or trades without a token row, the two services differ. -/
theorem merge_not_law :
    (¬ ∀ c ∈ chartPage (exactEnv false) (twoBuys [.token tokenSeven] 0 60) 7
        (between .m5 0 300 10),
      c = merge c.bucketStart (inside .m5 c.bucketStart
        (chartPage (exactEnv false) (twoBuys [.token tokenSeven] 0 60) 7
          (between .m1 0 300 10)))) ∧
    (¬ ∀ c ∈ chartPage (exactEnv false) (twoBuys [.token tokenSeven] 60 0) 7
        (between .m5 0 300 10),
      c.openPrice = (merge c.bucketStart (inside .m5 c.bucketStart
        (chartPage (exactEnv false) (twoBuys [.token tokenSeven] 60 0) 7
          (between .m1 0 300 10)))).openPrice) ∧
    chartPage (exactEnv true) (twoBuys [.token tokenSeven] 0 60) 7
      ⟨.h1, none, none, 10⟩ ≠
        stored (exactEnv true) (twoBuys [.token tokenSeven] 0 60) 7 ∧
    chartPage (exactEnv false) (twoBuys [] 0 60) 7 ⟨.h1, none, none, 10⟩ ≠
        stored (exactEnv false) (twoBuys [] 0 60) 7 := by
  have hrows := chartRows_twoBuys [.token tokenSeven] (.inr rfl)
  refine ⟨?_, ?_, ?_, ?_⟩
  · rw [chartPage_of_rows [0] (hrows 0 60) (by decide) (by decide),
      chartPage_of_rows [0, 60] (hrows 0 60) (by decide) (by decide)]
    decide +kernel
  · rw [chartPage_of_rows [0] (hrows 60 0) (by decide) (by decide),
      chartPage_of_rows [0, 60] (hrows 60 0) (by decide) (by decide)]
    decide +kernel
  · rw [chartPage_excluded rfl]
    exact (stored_ne_nil (t := tokenSeven) (u := poolBuy 1 1)
      List.mem_cons_self List.mem_cons_self).symm
  · rw [chartPage_of_rows [0] (chartRows_twoBuys [] (.inl rfl) 0 60)
      (by decide) (by decide)]
    exact List.cons_ne_nil _ _

/-- The law on the two buys, with the block times in order. -/
theorem chart_merge_twoBuys :
    (∀ c ∈ chartPage (exactEnv false) (twoBuys [.token tokenSeven] 0 60) 7
        (between .m5 0 300 10),
      MergeOf (Forward (twoBuys [.token tokenSeven] 0 60) 7) c
        (inside .m5 c.bucketStart
          (chartPage (exactEnv false) (twoBuys [.token tokenSeven] 0 60) 7
            (between .m1 0 300 10)))) ∧
    chartPage (exactEnv false) (twoBuys [.token tokenSeven] 0 60) 7
        (between .m1 0 300 10) =
      chartPage (exactEnv false) (twoBuys [.token tokenSeven] 0 60) 7
          (between .m1 0 60 10) ++
        chartPage (exactEnv false) (twoBuys [.token tokenSeven] 0 60) 7
          (between .m1 60 300 10) := by
  have hrows := chartRows_twoBuys [.token tokenSeven] (.inr rfl) 0 60
  have hcoarse : Whole (exactEnv false) (twoBuys [.token tokenSeven] 0 60) 7
      (between .m5 0 300 10) :=
    whole_of_rows [0] hrows (by decide) (by decide)
  have hfine : Whole (exactEnv false) (twoBuys [.token tokenSeven] 0 60) 7
      (between .m1 0 300 10) :=
    whole_of_rows [0, 60] hrows (by decide) (by decide)
  obtain ⟨hmerge, -, happend, -⟩ := chart_merge (exactEnv false)
    (twoBuys [.token tokenSeven] 0 60) 7 (by decide) (by decide) (by decide)
    hcoarse hfine
  exact ⟨hmerge, (happend 60 (by decide) (by decide)).2⟩

end ChartMerge
