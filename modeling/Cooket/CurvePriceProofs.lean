import Cooket.CurveLawProofs
import Cooket.TradeRowsProofs
import Mathlib.Tactic.Linarith
import Mathlib.Tactic.Positivity
import Mathlib.Tactic.GCongr
import Mathlib.Algebra.Order.Floor.Ring

/-! # The projected price of a curve

    The contract prices from its virtual reserves, `2415 * 10^18` of native
    USDC among them.  The indexer and the API price from the sums of the trade
    rows, with `10^18` written where the contract has its virtual reserve.

    The sums are right: after every event they are the sold supply and the
    reserve of the contract (`projected_price`).  The CONSTANT is not, so after
    every event all the projected prices differ from `spotPrice()`
    (`projected_price_iff`). -/

namespace CurvePrice

open Ascending CeilDiv CheckedArith Contract CurveMachine CurveQuote CurveRun
  CurveTrade CurveWorld Endpoint MarketLog Reentrant TokenLedger TradeRows

/-! ## From events to rows -/

/-- The log a trade leaves. -/
def payloadOf (token : Address) : Address × Trade → Payload
  | (trader, .bought q) => .tokensBought token trader q
  | (trader, .sold q) => .tokensSold token trader q

/-- The place of a log in the chain. -/
def logKey (l : Log) : Nat ×ₗ Nat ×ₗ Nat ×ₗ Nat :=
  toLex (l.blockNumber, toLex (l.txIndex, toLex (l.index, l.txHash)))

/-- **THE LOGS OF A SEQUENCE OF EVENTS**: one for each, in chain order. -/
structure Logged (token : Address) (evs : List (Address × Trade))
    (ls : List Log) : Prop where
  payloads : ls.map Log.payload = evs.map (payloadOf token)
  ordered : ls.Pairwise fun a b => logKey a < logKey b

/-- The rows the indexer keeps of a list of logs. -/
def indexed (usdc : Address) (lookup : Lookup) (ls : List Log) :
    List TradeRow :=
  ls.filterMap fun l => match projection usdc lookup l with
    | .ok row => row
    | .error _ => none

/-- A row that reports a trade of the token's curve. -/
structure Reports (token : Address) (t : Trade) (row : TradeRow) : Prop where
  token : row.tokenAddress = token
  source : row.source = .curve
  sold : soldDelta row = t.tokensOut - t.tokensIn
  reserve : reserveDelta row = t.netIn - t.grossOut

/-- One log, one row. -/
theorem projection_reports (usdc : Address) {token : Address} {lookup : Lookup}
    (hincluded : lookup.excluded token = false) {l : Log} {ev : Address × Trade}
    (hl : l.payload = payloadOf token ev) :
    ∃ row, projection usdc lookup l = .ok (some row) ∧
      Reports token ev.2 row ∧ chainKey row = logKey l := by
  obtain ⟨trader, q | q⟩ := ev
  · refine ⟨rowOf l token trader .buy q.tokensOut q.acceptedGross
      q.netCurveInput q.protocolFee q.creatorFee .curve, ?_,
      ⟨rfl, rfl, ?_, ?_⟩, rfl⟩
    · simp only [projection, hl, payloadOf, hincluded, Bool.false_eq_true,
        if_false]
    · simp [soldDelta, rowOf, Trade.tokensOut, Trade.tokensIn]
    · simp [reserveDelta, rowOf, Trade.netIn, Trade.grossOut]
  · refine ⟨rowOf l token trader .sell q.tokensIn q.netSellerOutput
      q.grossCurveOutput q.protocolFee q.creatorFee .curve, ?_,
      ⟨rfl, rfl, ?_, ?_⟩, rfl⟩
    · simp only [projection, hl, payloadOf, hincluded, Bool.false_eq_true,
        if_false]
    · simp [soldDelta, rowOf, Trade.tokensOut, Trade.tokensIn]
    · simp [reserveDelta, rowOf, Trade.netIn, Trade.grossOut]

/-- **THE ROWS OF A SEQUENCE OF EVENTS**: one for each, in chain order. -/
theorem indexed_reports (usdc : Address) {token : Address} {lookup : Lookup}
    (hincluded : lookup.excluded token = false) :
    ∀ {evs : List (Address × Trade)} {ls : List Log}, Logged token evs ls →
      List.Forall₂ (Reports token) (evs.map Prod.snd) (indexed usdc lookup ls)
      ∧ (indexed usdc lookup ls).map chainKey = ls.map logKey := by
  intro evs
  induction evs with
  | nil =>
      intro ls h
      obtain rfl : ls = [] := by simpa using h.payloads
      exact ⟨.nil, rfl⟩
  | cons ev evs ih =>
      intro ls h
      match ls with
      | [] => exact absurd h.payloads (by simp)
      | l :: ls =>
          have hp := h.payloads
          rw [List.map_cons, List.map_cons, List.cons.injEq] at hp
          obtain ⟨row, hrow, hreports, hkey⟩ :=
            projection_reports usdc hincluded hp.1
          obtain ⟨hall, hkeys⟩ := ih ⟨hp.2, (List.pairwise_cons.mp h.ordered).2⟩
          have hcons : indexed usdc lookup (l :: ls)
              = row :: indexed usdc lookup ls := by
            rw [indexed, List.filterMap_cons_some]
            · rfl
            · rw [hrow]
          rw [hcons]
          refine ⟨.cons hreports hall, ?_⟩
          rw [List.map_cons, List.map_cons, hkey, hkeys]

theorem reports_mem {token : Address} {ts : List Trade}
    {rows : List TradeRow} (h : List.Forall₂ (Reports token) ts rows) :
    ∀ row ∈ rows, ∃ t, Reports token t row := by
  induction h with
  | nil => exact fun _ hrow => absurd hrow List.not_mem_nil
  | @cons t _ _ _ ht _ ih =>
      intro row hrow
      rcases List.mem_cons.mp hrow with rfl | hrow
      · exact ⟨t, ht⟩
      · exact ih row hrow

/-- Rows in chain order are left where they are. -/
theorem inChainOrder_eq {rows : List TradeRow}
    (h : (rows.map chainKey).Pairwise (· < ·)) : inChainOrder rows = rows := by
  refine List.mergeSort_of_pairwise ?_
  refine (List.pairwise_map.mp h).imp ?_
  intro a b hab
  exact decide_eq_true (le_of_lt hab)

/-! ## The projected price after an event -/

section Projected

variable [MulDiv] (div : ℚ → ℚ → ℚ)

/-- What both queries compute from the contract's own coordinates. -/
def projectedPrice (s : CurveStorage) : Int :=
  ⌈div ((1000000000000000000 + (reserveCoordinate s : Int))
      * 1000000000000000000)
    (1066666666666666666666666667 - (s.soldSupply : Int))⌉

omit [MulDiv] in
/-- On the curve the price is never `NULL`. -/
theorem curvePrice_onCurve {s : CurveStorage} (h : OnCurve s) :
    curvePrice div s.soldSupply (reserveCoordinate s)
      = some (projectedPrice div s) := by
  have hsold : s.soldSupply ≤ CURVE_ALLOCATION := by
    cases hg : s.graduated with
    | true => rw [h.closed hg]
    | false => exact Nat.le_of_lt (h.sold_lt hg)
  have hlt : CURVE_ALLOCATION < 1066666666666666666666666667 :=
    curveAllocation_lt
  rw [curvePrice, if_pos]
  · rfl
  · omega

/-- **THE RUNNING SUMS ARE THE CONTRACT'S STATE**: from the coordinates of one
    state, the rows of a run are all priced, and the last one's price is the
    one of the state the run ends in. -/
theorem pricedFrom_run {token : Address} {s s' : CurveStorage}
    {ts : List Trade} (hrun : Run s ts s') (h : OnCurve s) :
    ∀ {rows : List TradeRow}, List.Forall₂ (Reports token) ts rows →
      (∀ p ∈ pricedFrom div s.soldSupply (reserveCoordinate s) rows,
        p.price ≠ none) ∧
      (ts ≠ [] → ∃ last,
        (pricedFrom div s.soldSupply (reserveCoordinate s) rows).getLast?
          = some last ∧ last.price = some (projectedPrice div s')) := by
  induction hrun with
  | refl s =>
      intro rows hrows
      cases hrows
      exact ⟨fun _ hp => absurd hp List.not_mem_nil, fun h => absurd rfl h⟩
  | @step s s₁ s' t ts hstep hrest ih =>
      intro rows hrows
      cases hrows with
      | @cons _ row _ rows hrow hrows =>
          have hcurve := hstep.onCurve h
          obtain ⟨hall, hlast⟩ := ih hcurve hrows
          -- the running sums after this row are the coordinates after it
          have hsold : (s.soldSupply : Int) + soldDelta row = s₁.soldSupply := by
            have := hstep.sold h
            rw [hrow.sold]
            omega
          have hreserve : (reserveCoordinate s : Int) + reserveDelta row
              = reserveCoordinate s₁ := by
            have := hstep.reserve h
            rw [hrow.reserve]
            omega
          have hcons : pricedFrom div s.soldSupply (reserveCoordinate s)
              (row :: rows) = ⟨row, some (projectedPrice div s₁)⟩ ::
                pricedFrom div s₁.soldSupply (reserveCoordinate s₁) rows := by
            rw [pricedFrom, hsold, hreserve]
            simp only [hrow.source]
            rw [curvePrice_onCurve div hcurve]
          rw [hcons]
          refine ⟨?_, ?_⟩
          · intro p hp
            rcases List.mem_cons.mp hp with rfl | hp
            · exact Option.some_ne_none _
            · exact hall p hp
          · intro _
            by_cases hempty : ts = []
            · subst hempty
              cases hrows
              cases hrest
              exact ⟨_, rfl, rfl⟩
            · obtain ⟨last, hget, hlp⟩ := hlast hempty
              refine ⟨last, ?_, hlp⟩
              rw [List.getLast?_cons, hget]
              rfl

/-- The sums over all rows are the coordinates at the end of the run. -/
theorem sums_of_run {token : Address} {s s' : CurveStorage} {ts : List Trade}
    (hrun : Run s ts s') (h : OnCurve s) {rows : List TradeRow}
    (hrows : List.Forall₂ (Reports token) ts rows) :
    (s.soldSupply : Int) + (rows.map soldDelta).sum = s'.soldSupply ∧
      (reserveCoordinate s : Int) + (rows.map reserveDelta).sum
        = reserveCoordinate s' := by
  induction hrun generalizing rows with
  | refl s =>
      cases hrows
      exact ⟨Int.add_zero _, Int.add_zero _⟩
  | @step s s₁ s' t ts hstep _ ih =>
      cases hrows with
      | @cons _ row _ rows hrow hrows =>
          obtain ⟨hsold, hreserve⟩ := ih (hstep.onCurve h) hrows
          have hs := hstep.sold h
          have hr := hstep.reserve h
          rw [List.map_cons, List.map_cons, List.sum_cons, List.sum_cons,
            hrow.sold, hrow.reserve]
          omega

/-- The close of the candle the last event falls in: what a chart ends with. -/
def lastClose (stamp : Nat → Nat) (i : ChartInterval) (rows : List TradeRow) :
    Option Int :=
  match (inChainOrder rows).getLast? with
  | none => none
  | some t =>
      ((buckets div stamp i rows).find?
        (·.bucketStart = rowStart stamp i t)).bind ChartPoint.closePrice

omit [MulDiv] in
/-- A group without `NULL` prices closes at the price of its last row. -/
theorem whenComplete_getLast {group : List Priced} {last : Priced} {p : Int}
    (hall : ∀ x ∈ group, x.price ≠ none) (hlast : group.getLast? = some last)
    (hp : last.price = some p) :
    whenComplete group List.getLast? = some p := by
  have hmap : ∃ ps, group.mapM Priced.price = some ps ∧
      ps.getLast? = some p := by
    induction group with
    | nil => exact nomatch hlast
    | cons x xs ih =>
        obtain ⟨y, hy⟩ := Option.ne_none_iff_exists'.mp (hall x (by simp))
        cases xs with
        | nil =>
            obtain rfl : x = last := by simpa using hlast
            exact ⟨[p], by simp [hp], rfl⟩
        | cons x' xs =>
            obtain ⟨ps, hps, hget⟩ := ih
              (fun z hz => hall z (List.mem_cons_of_mem _ hz))
              (by simpa using hlast)
            refine ⟨y :: ps, ?_, ?_⟩
            · simp [List.mapM_cons, hy] at hps ⊢
              simp [hps]
            · rw [List.getLast?_cons, hget]
              rfl
  obtain ⟨ps, hps, hget⟩ := hmap
  rw [whenComplete, hps]
  exact hget

omit [MulDiv] in
/-- The chart ends with the price of the last row. -/
theorem lastClose_eq {stamp : Nat → Nat} {i : ChartInterval}
    {rows : List TradeRow} {last : Priced} {p : Int}
    (hall : ∀ x ∈ priced div rows, x.price ≠ none)
    (hlast : (priced div rows).getLast? = some last)
    (hp : last.price = some p) : lastClose div stamp i rows = some p := by
  have hrow : (inChainOrder rows).getLast? = some last.row := by
    rw [← pricedFrom_rows div (inChainOrder rows) 0 0, List.getLast?_map]
    show ((priced div rows).getLast?).map _ = _
    rw [hlast]
    rfl
  set b := rowStart stamp i last.row with hb
  set group := (priced div rows).filter
    (fun p => rowStart stamp i p.row = b) with hgroup
  have hmem : b ∈ ascend ((priced div rows).map
      (fun p => rowStart stamp i p.row)) := by
    rw [mem_ascend, List.mem_map]
    exact ⟨last, List.mem_of_getLast? hlast, rfl⟩
  have hfind : ∀ {keys : List Int} (f : Int → ChartPoint),
      (∀ k, (f k).bucketStart = k) → b ∈ keys →
      (keys.map f).find? (·.bucketStart = b) = some (f b) := by
    intro keys f hf hk
    induction keys with
    | nil => exact absurd hk List.not_mem_nil
    | cons k keys ih =>
        by_cases hkb : k = b
        · subst hkb
          simp [hf]
        · rw [List.map_cons, List.find?_cons_of_neg (by simpa [hf] using hkb)]
          exact ih ((List.mem_cons.mp hk).resolve_left (Ne.symm hkb))
  have hgl : group.getLast? = some last := by
    obtain ⟨front, hfront⟩ := List.getLast?_eq_some_iff.mp hlast
    rw [hgroup, hfront, List.filter_append]
    simp [hb]
  rw [lastClose, hrow]
  show ((buckets div stamp i rows).find? (·.bucketStart = b)).bind _ = _
  have hcandle : (buckets div stamp i rows).find? (·.bucketStart = b)
      = some (candle b group) := hfind _ (fun _ => rfl) hmem
  rw [hcandle]
  exact whenComplete_getLast (fun x hx => hall x (List.mem_of_mem_filter hx))
    hgl hp

/-- **THE PROJECTED PRICE.**  After every event of a curve the price in
    `token_metrics` and the close of every chart are the same expression in
    the contract's own sold supply and reserve. -/
theorem projected_price (usdc : Address) {token : Address} {lookup : Lookup}
    (hincluded : lookup.excluded token = false) (stamp : Nat → Nat)
    (supply : Nat) {evs : List (Address × Trade)} {ls : List Log}
    (hlogs : Logged token evs ls) {s : CurveStorage}
    (hrun : Run .fresh (evs.map Prod.snd) s) (hsome : evs ≠ []) :
    (tokenMetrics div supply token (indexed usdc lookup ls)).currentPrice
        = some (projectedPrice div s) ∧
      ∀ i, lastClose div stamp i (ofToken token (indexed usdc lookup ls))
        = some (projectedPrice div s) := by
  obtain ⟨hrows, hkeys⟩ := indexed_reports usdc hincluded hlogs
  generalize indexed usdc lookup ls = rows at hrows hkeys ⊢
  have hreports := reports_mem hrows
  have hof : ofToken token rows = rows :=
    List.filter_eq_self.mpr (fun row hrow =>
      decide_eq_true (hreports row hrow).choose_spec.token)
  have horder : inChainOrder rows = rows := by
    refine inChainOrder_eq ?_
    rw [hkeys]
    exact List.pairwise_map.mpr hlogs.ordered
  rw [hof]
  refine ⟨?_, ?_⟩
  · -- no row of the pool, so the price is the curve's
    have hpool : rows.filter (·.source = .uniswapV3) = [] := by
      refine List.filter_eq_nil_iff.mpr ?_
      intro row hrow hsource
      obtain ⟨t, ht⟩ := hreports row hrow
      rw [ht.source] at hsource
      exact nomatch hsource
    have hsums := sums_of_run hrun onCurve_fresh hrows
    have hfresh : reserveCoordinate CurveStorage.fresh = 0 := rfl
    have hfresh' : CurveStorage.fresh.soldSupply = 0 := rfl
    rw [hfresh, hfresh'] at hsums
    show currentPrice div (ofToken token rows) = _
    have hnone : inChainOrder [] = [] := List.mergeSort_nil
    rw [hof, currentPrice, hpool, hnone]
    show curvePrice div _ _ = _
    rw [← curvePrice_onCurve div (hrun.onCurve onCurve_fresh)]
    congr 1
    · omega
    · omega
  · intro i
    obtain ⟨hall, hlast⟩ := pricedFrom_run div hrun onCurve_fresh hrows
    obtain ⟨last, hget, hprice⟩ := hlast (by simpa using hsome)
    have hpriced : priced div rows = pricedFrom div
        CurveStorage.fresh.soldSupply
        (reserveCoordinate CurveStorage.fresh) rows := by
      rw [priced, horder]
      rfl
    rw [← hpriced] at hall hget
    exact lastClose_eq div hall hget hprice

/-! ## Against the contract -/

/-- The quotient of `numeric` values is the exact one, rounded to a scale that
    is never coarser than the units. -/
def Rounds : Prop := ∀ a b : ℚ, 0 < b → |div a b - a / b| ≤ 1 / 2

omit [MulDiv] in
/-- **THE PROJECTED PRICE IS TOO LOW**, on the whole curve. -/
theorem projectedPrice_lt (hdiv : Rounds div) {s : CurveStorage}
    (h : OnCurve s) : projectedPrice div s < priceAt s := by
  have hsold : s.soldSupply ≤ CURVE_ALLOCATION := by
    cases hg : s.graduated with
    | true => rw [h.closed hg]
    | false => exact Nat.le_of_lt (h.sold_lt hg)
  have hlt : CURVE_ALLOCATION < VIRTUAL_TOKEN_RESERVE := curveAllocation_lt
  obtain ⟨left, hleft⟩ := Nat.exists_eq_add_of_le
    (Nat.le_of_lt (lt_of_le_of_lt hsold hlt))
  have hpos : 0 < left := by omega
  have hbound : left ≤ VIRTUAL_TOKEN_RESERVE := by omega
  set r := reserveCoordinate s with hr
  have hden : (1066666666666666666666666667 - (s.soldSupply : Int) : ℚ)
      = (left : ℚ) := by
    have : (1066666666666666666666666667 : Nat) = s.soldSupply + left := hleft
    have hcast := congrArg (Nat.cast (R := ℚ)) this
    push_cast at hcast ⊢
    linarith
  have hq : (0 : ℚ) < left := by exact_mod_cast hpos
  set x : ℚ := (1000000000000000000 + (r : ℚ)) * 1000000000000000000 with hx
  -- the rounded quotient and its ceiling are within two of the quotient
  have hceil : (projectedPrice div s : ℚ) < x / left + 2 := by
    have hle := abs_le.mp (hdiv x left hq)
    have hup := Int.ceil_lt_add_one (div x left)
    have hp : projectedPrice div s = ⌈div x left⌉ := by
      rw [projectedPrice, ← hr]
      push_cast
      rw [← hden]
      push_cast
      rfl
    rw [hp]
    linarith [hle.2]
  -- the contract's numerator is more than two supplies above
  have hnum : x + 2 * left ≤ (2415 * 10 ^ 18 + (r : ℚ)) * 10 ^ 18 := by
    have hb : (left : ℚ) ≤ 1066666666666666666666666667 := by
      exact_mod_cast hbound
    rw [hx]
    nlinarith [hb]
  have hspot : (2415 * 10 ^ 18 + (r : ℚ)) * 10 ^ 18 / left ≤ (priceAt s : ℚ) := by
    rw [div_le_iff₀ hq]
    have hmul : (VIRTUAL_NATIVE_USDC_RESERVE + r) * TOKEN_UNIT
        ≤ left * priceAt s := by
      have hsub : VIRTUAL_TOKEN_RESERVE - s.soldSupply = left := by omega
      rw [priceAt, hsub, ← hr]
      exact le_mul_ceilDiv hpos
    have hcast : (((VIRTUAL_NATIVE_USDC_RESERVE + r) * TOKEN_UNIT : Nat) : ℚ)
        ≤ ((left * priceAt s : Nat) : ℚ) := by
      exact_mod_cast hmul
    simp only [VIRTUAL_NATIVE_USDC_RESERVE, NATIVE_USDC_UNIT, TOKEN_UNIT]
      at hcast
    push_cast at hcast
    linarith
  have hstep : x / left + 2 ≤ (2415 * 10 ^ 18 + (r : ℚ)) * 10 ^ 18 / left := by
    rw [le_div_iff₀ hq, add_mul, div_mul_cancel₀ _ (ne_of_gt hq)]
    linarith
  have hfinal : (projectedPrice div s : ℚ) < (priceAt s : ℚ) := by linarith
  exact_mod_cast hfinal

/-- The prices a reader finds after the events of a list of logs, all equal to
    a given one: in the token's metrics, at the end of its hourly candles, and
    at the end of the chart of any interval. -/
structure Follows (stamp : Nat → Nat) (supply : Nat) (token : Address)
    (rows : List TradeRow) (price : Nat) : Prop where
  metrics : (tokenMetrics div supply token rows).currentPrice
    = some (price : Int)
  hourly : lastClose div stamp .h1 (ofToken token rows) = some (price : Int)
  chart : ∀ i, lastClose div stamp i (ofToken token rows) = some (price : Int)

variable {τ : Type} [Erc20 Address Revert τ] {D : Deployment} {c : Address}
  {w₀ : World τ}

/-- **WHEN THE PROJECTED PRICE IS THE CONTRACT'S.**  In a run from launch, the
    prices after each event equal `spotPrice()` in the state after it exactly
    if there has been no event; after every event each of them differs. -/
theorem projected_price_iff (h : Launched D c w₀)
    (txs : List (Call × Script Call)) (usdc : Address) {token : Address}
    {lookup : Lookup}
    (hincluded : lookup.excluded token = false) (stamp : Nat → Nat)
    (supply : Nat) {ls : List Log}
    (hlogs : Logged token (trades c ((machine D).runTxs txs w₀)) ls)
    (hdiv : Rounds div) :
    let evs := trades c ((machine D).runTxs txs w₀)
    let rows := fun k => indexed usdc lookup (ls.take k)
    ((∀ k s, 0 < k → k ≤ evs.length →
        Run .fresh ((evs.take k).map Prod.snd) s →
        ∃ price, spotPrice s = .ok price ∧
          Follows div stamp supply token (rows k) price) ↔ evs = []) ∧
    ∀ k s price, 0 < k → k ≤ evs.length →
      Run .fresh ((evs.take k).map Prod.snd) s → spotPrice s = .ok price →
      (tokenMetrics div supply token (rows k)).currentPrice
          ≠ some (price : Int) ∧
        ∀ i, lastClose div stamp i (ofToken token (rows k))
          ≠ some (price : Int) := by
  intro evs rows
  have hdiffer : ∀ k s price, 0 < k → k ≤ evs.length →
      Run .fresh ((evs.take k).map Prod.snd) s → spotPrice s = .ok price →
      (tokenMetrics div supply token (rows k)).currentPrice
          ≠ some (price : Int) ∧
        ∀ i, lastClose div stamp i (ofToken token (rows k))
          ≠ some (price : Int) := by
    intro k s price hk hlen hrun hspot
    have hcurve := hrun.onCurve onCurve_fresh
    rw [spotPrice_eq hcurve] at hspot
    obtain rfl := Except.ok.inj hspot
    have hne : some (projectedPrice div s) ≠ some (priceAt s : Int) :=
      fun heq => ne_of_lt (projectedPrice_lt div hdiv hcurve)
        (Option.some.inj heq)
    have hsome : evs.take k ≠ [] := by
      intro hnil
      have := congrArg List.length hnil
      rw [List.length_take, List.length_nil] at this
      omega
    have hprefix : Logged token (evs.take k) (ls.take k) := by
      refine ⟨?_, hlogs.ordered.sublist (List.take_sublist _ _)⟩
      rw [List.map_take, List.map_take, hlogs.payloads]
    obtain ⟨hmetrics, hclose⟩ := projected_price div usdc hincluded stamp
      supply hprefix hrun hsome
    refine ⟨?_, ?_⟩
    · rw [hmetrics]
      exact hne
    · intro i
      rw [hclose i]
      exact hne
  refine ⟨⟨?_, ?_⟩, hdiffer⟩
  · intro hall
    by_contra hsome
    have hlen : 0 < evs.length := List.length_pos_iff.mpr hsome
    have hrun : Run .fresh ((evs.take evs.length).map Prod.snd)
        (((machine D).runTxs txs w₀).curves c) := by
      rw [List.take_length]
      exact (h.traded txs).run
    obtain ⟨price, hspot, hfollows⟩ := hall _ _ hlen (Nat.le_refl _) hrun
    exact (hdiffer _ _ _ hlen (Nat.le_refl _) hrun hspot).1 hfollows.metrics
  · intro hnil k s hk hlen
    rw [hnil] at hlen
    exact absurd hlen (Nat.not_le_of_lt hk)

end Projected

/-! ## The first buy -/

/-- A chain on which nothing answers. -/
def noAnswers : Settlement.Answers where
  hasCode _ := false
  sqrtPriceX96 := 0
  newCustodian := 0
  newEscrow := 0
  mint _ := .error .external
  pulled _ := (0, 0)
  ownerOf _ := 0
  positions _ := none
  isToken _ := false
  curveOf _ := 0

/-- The launched world after one USDC has been spent on the curve. -/
def firstBuy : World (Ledger Address) :=
  (@machine _ plainToken exactMulDiv oneCurve).runTxs
    [(.buy 30 20 (10 ^ 18) 1 100 noAnswers, .halt true)] oneLaunch

/-- The log of that buy. -/
def firstLogs : List Log :=
  (trades 20 firstBuy).map fun ev =>
    ⟨20, payloadOf 21 ev, 7, 70, 700, 0, 0, false⟩

/-- An indexer that knows no pool and excludes no token. -/
def curvesOnly : Lookup := ⟨fun _ => false, fun _ => none, fun _ => none⟩

/-- **THE FIRST PROJECTED PRICE** is off by a factor of over a thousand. -/
theorem first_price_differs :
    (trades 20 firstBuy).length = 1 ∧
    @spotPrice exactMulDiv (firstBuy.curves 20) = .ok 2265919130474 ∧
    (tokenMetrics (· / ·) 0 21 (indexed 1 curvesOnly firstLogs)).currentPrice
      = some 1866389791 := by
  refine ⟨by decide +kernel, ?_, by decide +kernel⟩
  let _ := plainToken
  let _ := exactMulDiv
  have hcurve : OnCurve (firstBuy.curves 20) :=
    (launched_oneLaunch.traded
      [(.buy 30 20 (10 ^ 18) 1 100 noAnswers, .halt true)]).run.onCurve
        onCurve_fresh
  have hprice : priceAt (firstBuy.curves 20) = 2265919130474 := by
    decide +kernel
  rw [spotPrice_eq hcurve, hprice]

theorem logged_firstLogs : Logged 21 (trades 20 firstBuy) firstLogs := by
  obtain ⟨ev, hev⟩ := List.length_eq_one_iff.mp
    (show (trades 20 firstBuy).length = 1 by decide +kernel)
  refine ⟨?_, ?_⟩
  · rw [firstLogs, List.map_map]
    rfl
  · rw [firstLogs, hev]
    exact List.pairwise_singleton _ _

theorem rounds_exact : Rounds (· / ·) := by
  intro a b _
  simp

theorem projected_price_iff_firstBuy :
    (tokenMetrics (· / ·) 0 21
        (indexed 1 curvesOnly (firstLogs.take 1))).currentPrice
      ≠ some ((priceAt (firstBuy.curves 20) : Nat) : Int) := by
  let _ := plainToken
  let _ := exactMulDiv
  have hlen : (trades 20 firstBuy).length = 1 := by decide +kernel
  have hlaw := projected_price_iff (· / ·) launched_oneLaunch
    [(.buy 30 20 (10 ^ 18) 1 100 noAnswers, .halt true)] 1
    (show curvesOnly.excluded 21 = false from rfl) (fun _ => 60) 0
    logged_firstLogs rounds_exact
  have hrun : Run .fresh (((trades 20 firstBuy).take 1).map Prod.snd)
      (firstBuy.curves 20) := by
    rw [List.take_of_length_le (Nat.le_of_eq hlen)]
    exact (launched_oneLaunch.traded _).run
  exact (hlaw.2 1 _ _ (by decide) (Nat.le_of_eq hlen.symm) hrun
    (spotPrice_eq (hrun.onCurve onCurve_fresh))).1

end CurvePrice
