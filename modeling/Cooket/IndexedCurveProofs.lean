import Cooket.CurvePriceProofs
import Cooket.IndexerForksProofs

/-! # The indexed state of a curve

    The contracts trade, the node serves the events as logs of blocks, and the
    indexer turns the blocks into rows and sums the rows up.  At the end of it
    stand three columns of `curves`: `sold_supply`, `reserve_balance` and the
    graduation.

    These columns ARE the storage of the contract (`indexed_curve`): after any
    run of transactions on the contracts, and any history of blocks and
    reorganisations at the indexer whose surviving chain carries the curve's
    events. -/

namespace IndexedCurve

open CheckedArith Contract CurveMachine CurvePrice CurveQuote CurveRun
  CurveTrade CurveWorld Endpoint IndexerEvents IndexerStore Keyset Reentrant
  RowTable TokenLedger TradeRows

/-! ## The row of a curve trade -/

/-- The row a log of a curve trade leaves; a pool's swap leaves none here. -/
def curveRow (env : Env) (l : IndexerEvents.Log) : Option TradeRow :=
  match projection ArcCanonicalUsdc ⟨env.excluded, fun _ => none, fun _ => none⟩
      (marketLog l) with
  | .ok row => row
  | .error _ => none

section
variable {env : Env} {look : IndexerStore.Lookup} {b : Block}
  {l : IndexerEvents.Log} {r : TradeRow} {rows : List Body}

/-- A row of a swap has another source. -/
theorem swap_source {usdc : Address} {lookup : TradeRows.Lookup}
    {m : MarketLog.Log} {amount0 amount1 : Int}
    (h : projectUniswapV3Swap usdc lookup m amount0 amount1 = .ok (some r)) :
    r.source = .uniswapV3 := by
  obtain ⟨token, trader, -, rfl⟩ := projectUniswapV3Swap_ok h
  rfl

/-- The row of a curve trade, by its log. -/
theorem curveRow_cases (h : curveRow env l = some r) :
    ∃ token, env.excluded token = false ∧
      ((∃ buyer q, l.event = .tokensBought token buyer q ∧
        r = rowOf (marketLog l) token buyer .buy q.tokensOut q.acceptedGross
          q.netCurveInput q.protocolFee q.creatorFee .curve) ∨
      ∃ seller q, l.event = .tokensSold token seller q ∧
        r = rowOf (marketLog l) token seller .sell q.tokensIn q.netSellerOutput
          q.grossCurveOutput q.protocolFee q.creatorFee .curve) := by
  rw [curveRow] at h
  cases hevent : l.event with
  | tokensBought token buyer q =>
      simp only [marketLog, hevent, projection] at h
      cases hexcluded : env.excluded token with
      | true => simp [hexcluded] at h
      | false =>
          refine ⟨token, hexcluded, .inl ⟨buyer, q, rfl, ?_⟩⟩
          simp only [hexcluded, Bool.false_eq_true, if_false,
            Option.some.injEq] at h
          rw [marketLog, hevent]
          exact h.symm
  | tokensSold token seller q =>
      simp only [marketLog, hevent, projection] at h
      cases hexcluded : env.excluded token with
      | true => simp [hexcluded] at h
      | false =>
          refine ⟨token, hexcluded, .inr ⟨seller, q, rfl, ?_⟩⟩
          simp only [hexcluded, Bool.false_eq_true, if_false,
            Option.some.injEq] at h
          rw [marketLog, hevent]
          exact h.symm
  | swap amount0 amount1 =>
      simp [marketLog, hevent, projection, projectUniswapV3Swap] at h
  | _ => simp [marketLog, hevent, projection] at h

/-- **A CURVE TRADE** leaves its row, whatever is looked up. -/
theorem projected_curveRow (h : curveRow env l = some r) :
    projected env look b l = .ok [.trade r] := by
  obtain ⟨token, hexcluded, ⟨buyer, q, hevent, rfl⟩ | ⟨seller, q, hevent, rfl⟩⟩ :=
    curveRow_cases h
  · rw [projected, hevent]
    simp only [tradeRows, marketLog, hevent, projection, hexcluded,
      Bool.false_eq_true, if_false]
  · rw [projected, hevent]
    simp only [tradeRows, marketLog, hevent, projection, hexcluded,
      Bool.false_eq_true, if_false]

theorem curveRow_source (h : curveRow env l = some r) : r.source = .curve := by
  obtain ⟨token, -, ⟨buyer, q, -, rfl⟩ | ⟨seller, q, -, rfl⟩⟩ := curveRow_cases h
  · rfl
  · rfl

theorem curveRow_key (h : curveRow env l = some r) :
    (Body.trade r).key = .log .trades l.txHash l.index := by
  obtain ⟨token, -, ⟨buyer, q, -, rfl⟩ | ⟨seller, q, -, rfl⟩⟩ := curveRow_cases h
  · rfl
  · rfl

theorem curveRow_position (h : curveRow env l = some r) :
    l.position = toLex (r.blockNumber, toLex (r.transactionIndex, r.logIndex)) := by
  obtain ⟨token, -, ⟨buyer, q, -, rfl⟩ | ⟨seller, q, -, rfl⟩⟩ := curveRow_cases h
  · rfl
  · rfl

/-- The row of a curve trade is only left by its log. -/
theorem curveRow_of_projected (h : projected env look b l = .ok rows)
    (hr : .trade r ∈ rows) (hsource : r.source = .curve) :
    curveRow env l = some r := by
  have htrade : tradeRows env look b l = .ok rows →
      projection ArcCanonicalUsdc ⟨env.excluded, look.pool, b.senders⟩
        (marketLog l) = .ok (some r) := by
    intro h
    rw [tradeRows] at h
    split at h
    · cases h
    · obtain rfl := Except.ok.inj h
      exact absurd hr List.not_mem_nil
    · next r' hr' =>
        obtain rfl := Except.ok.inj h
        obtain rfl := Body.trade.inj (List.mem_singleton.mp hr)
        exact hr'
  cases hevent : l.event with
  | tokensBought token buyer q =>
      rw [projected, hevent] at h
      have hproj := htrade h
      rw [curveRow]
      simp only [marketLog, hevent, projection] at hproj ⊢
      rw [hproj]
  | tokensSold token seller q =>
      rw [projected, hevent] at h
      have hproj := htrade h
      rw [curveRow]
      simp only [marketLog, hevent, projection] at hproj ⊢
      rw [hproj]
  | swap amount0 amount1 =>
      rw [projected, hevent] at h
      have hproj := htrade h
      simp only [marketLog, hevent, projection] at hproj
      rw [swap_source hproj] at hsource
      cases hsource
  | tokenLaunchedV3 creator token curve totalSupply curveAllocation lpAllocation
      payout pool =>
      rw [projected, hevent] at h
      dsimp only at h
      split at h
      · obtain rfl := Except.ok.inj h
        exact absurd hr List.not_mem_nil
      · split at h
        · cases h
        · split at h
          · cases h
          · obtain rfl := Except.ok.inj h
            simp [launchRows] at hr
  | graduated token manager tokenAmount nativeUsdcAmount soldSupply =>
      rw [projected, hevent] at h
      dsimp only at h
      split at h
      · obtain rfl := Except.ok.inj h
        exact absurd hr List.not_mem_nil
      · obtain rfl := Except.ok.inj h
        cases List.mem_singleton.mp hr
  | graduatedV3 token custodian tokenId liquidity =>
      rw [projected, hevent] at h
      dsimp only at h
      split at h
      · obtain rfl := Except.ok.inj h
        exact absurd hr List.not_mem_nil
      · obtain rfl := Except.ok.inj h
        cases List.mem_singleton.mp hr
  | _ =>
      rw [projected, hevent] at h
      obtain rfl := Except.ok.inj h
      exact absurd hr List.not_mem_nil

/-- A log that leaves the row of a curve trade is always stored. -/
theorem selected_of_curveRow (h : curveRow env l = some r)
    (look : IndexerStore.Lookup) : selected env look l = true := by
  obtain ⟨token, -, ⟨buyer, q, hevent, -⟩ | ⟨seller, q, hevent, -⟩⟩ :=
    curveRow_cases h
  · rw [selected, hevent]
  · rw [selected, hevent]

end

/-! ## The rows of a chain -/

/-- The live rows of curve trades are those of some logs. -/
def Trades (env : Env) (ls : IndexerEvents.Log → Prop) (t : Rows) : Prop :=
  ∀ r : TradeRow, r.source = .curve →
    (.trade r ∈ t.live ↔ ∃ l, ls l ∧ curveRow env l = some r)

section
variable {env : Env} {known ls : IndexerEvents.Log → Prop} {b : Block}
  {l : IndexerEvents.Log} {t t' : Rows} {bs : List Block} {s : Store}

/-- **ONE LOG** adds the row of its trade. -/
theorem Trades.insertEvent (hid : Identified known) (hknown : ∀ a, ls a → known a)
    (hl : known l) (hold : Trades env ls t)
    (h : IndexerStore.insertEvent env b t l = .ok t') :
    Trades env (fun a => ls a ∨ a = l) t' := by
  intro r hsource
  constructor
  · intro hr
    have hinsert := h
    rw [IndexerStore.insertEvent, bind_ok] at hinsert
    obtain ⟨rows, hrows, hinsert⟩ := hinsert
    rcases live_inserts hinsert hr with hr | hr
    · obtain ⟨a, ha, har⟩ := (hold r hsource).mp hr
      exact ⟨a, .inl ha, har⟩
    · rw [statements] at hrows
      split at hrows
      · rw [bind_ok] at hrows
        obtain ⟨rest, hrest, hrows⟩ := hrows
        obtain rfl := Except.ok.inj hrows
        rcases List.mem_cons.mp hr with heq | hr
        · cases heq
        · exact ⟨l, .inr rfl, curveRow_of_projected hrest hr hsource⟩
      · obtain rfl := Except.ok.inj hrows
        exact absurd hr List.not_mem_nil
  · rintro ⟨a, hfrom, har⟩
    have hown : ∀ {r'}, curveRow env l = some r' → .trade r' ∈ t'.live := by
      intro r' hr'
      rcases insertEvent_cases h with ⟨hsel, -⟩ | ⟨-, rows, hrows, hinsert⟩
      · rw [selected_of_curveRow hr'] at hsel
        cases hsel
      · rw [projected_curveRow hr'] at hrows
        obtain rfl := Except.ok.inj hrows
        exact inserted_live [.event (eventRow l)] [] (by simp) hinsert
    rcases hfrom with ha | rfl
    · by_cases hof : OfLog l (.trade r)
      · -- The row is stored under the log, so its log is this one.
        obtain ⟨table, hkey⟩ := hof
        rw [curveRow_key har] at hkey
        injection hkey with _ htx hindex
        obtain rfl := hid a l (hknown a ha) hl (Prod.ext htx hindex)
        exact hown har
      · exact (insertEvent_frame hof h).mpr ((hold r hsource).mpr ⟨a, ha, har⟩)
    · exact hown har

/-- **THE LOGS OF A BLOCK** add the rows of their trades. -/
theorem Trades.logs (known : IndexerEvents.Log → Prop)
    (hid : Identified known) {logs : List IndexerEvents.Log}
    (hlogs : ∀ a ∈ logs, known a) (hknown : ∀ a, ls a → known a)
    (hold : Trades env ls t) (h : logs.foldlM (applyLog env b) t = .ok t') :
    Trades env (fun a => ls a ∨ a ∈ logs) t' := by
  induction logs generalizing t ls with
  | nil =>
      obtain rfl := Except.ok.inj h
      intro r hr
      simp [hold r hr]
  | cons l logs ih =>
      rw [List.foldlM_cons, bind_ok] at h
      obtain ⟨u, hu, h⟩ := h
      have hl := hlogs l (List.mem_cons_self ..)
      have hrest := ih (fun a ha => hlogs a (List.mem_cons_of_mem _ ha)) (by
        rintro a (ha | rfl)
        · exact hknown a ha
        · exact hl) (hold.insertEvent hid hknown hl (applyLog_ok hu).2.2) h
      intro r hr
      rw [hrest r hr]
      simp only [List.mem_cons, or_assoc]

/-- **A CHAIN** leaves the rows of its curve trades. -/
theorem trades_applyAll (hserved : Served env bs)
    (h : applyAll env fresh bs = .ok s) : Trades env (LogOf bs) s.rows := by
  induction bs using List.reverseRecOn generalizing s with
  | nil =>
      obtain rfl := Except.ok.inj h
      intro r _
      constructor
      · intro hr
        exact absurd hr List.not_mem_nil
      · rintro ⟨l, ⟨b, hb, -⟩, -⟩
        exact absurd hb List.not_mem_nil
  | append_singleton bs b ih =>
      rw [applyAll_append, bind_ok] at h
      obtain ⟨s₀, h₀, h⟩ := h
      have hground := (canon_applyAll hserved.init h₀).grounded
      rw [applyWithProvenance_eq, bind_ok] at h
      obtain ⟨t, ht, hfinish⟩ := h
      obtain ⟨u, hu, hlogs⟩ := logged_ok ht
      have hstart : Trades env (LogOf bs) u := by
        intro r hsource
        rw [← ih hserved.init h₀ r hsource, insert_eq hu, Table.mem_live_upsert,
          Table.live_orphan, List.mem_filter]
        constructor
        · rintro (heq | ⟨⟨hr, -⟩, -⟩)
          · cases heq
          · exact hr
        · intro hr
          refine .inr ⟨⟨hr, ?_⟩, fun hkey => by cases hkey⟩
          obtain ⟨c, hc, hplace⟩ := (hground.sourced _ hr rfl).place
          rw [replacedBy_below (by rw [hplace]; exact hserved.lt_last hc)]
          rfl
      have hend := hstart.logs (LogOf (bs ++ [b])) hserved.identified
        (fun a ha => ⟨b, List.mem_append_right _ (List.mem_singleton_self b), ha⟩)
        (fun a ⟨c, hc, ha⟩ => ⟨c, List.mem_append_left _ hc, ha⟩) hlogs
      intro r hsource
      rw [(finish_spec hfinish).1 _ rfl, hend r hsource]
      refine exists_congr fun l => and_congr_left fun _ => ?_
      simp only [LogOf, List.mem_append, List.mem_singleton, or_and_right,
        exists_or, exists_eq_left]

end

/-! ## The events of a curve, and their logs -/

/-- The event that names the token, of the events a line may be. -/
def eventOf (token : Address) : Line → Option Event
  | .tokensBought _ trader q => some (.tokensBought token trader q)
  | .tokensSold _ trader q => some (.tokensSold token trader q)
  | .graduated _ named manager lpTokens nativeUsdcReserve soldSupply =>
      some (.graduated named manager lpTokens nativeUsdcReserve soldSupply)
  | _ => none

/-- **THE EVENTS OF A CURVE** that name its token, in order. -/
def curveEvents {τ : Type} (D : Deployment) (c : Address) (w : World τ) :
    List Event :=
  (ownLines c w).filterMap (eventOf (D.tokenOf c))

/-- The event is of the token's curve. -/
def namesCurve (token : Address) : Event → Bool
  | .tokensBought named _ _ => named = token
  | .tokensSold named _ _ => named = token
  | .graduated named _ _ _ _ => named = token
  | _ => false

/-- **THE CHAIN CARRIES THE EVENTS**: its logs of the token's curve are these
    events, in this order. -/
structure Carries (bs : List Block) (token : Address) (events : List Event)
    (ls : List IndexerEvents.Log) : Prop where
  events : ls.map (·.event) = events
  ordered : ls.Pairwise fun a b => a.position < b.position
  mem : ∀ l, l ∈ ls ↔ LogOf bs l ∧ namesCurve token l.event = true

section
variable {env : Env} {token : Address}

theorem curveRow_reports (hincluded : env.excluded token = false)
    {l : IndexerEvents.Log} {ev : Address × Trade}
    (h : (marketLog l).payload = payloadOf token ev) :
    ∃ r, curveRow env l = some r ∧ Reports token ev.2 r := by
  obtain ⟨r, hr, hreports, -⟩ := @projection_reports ArcCanonicalUsdc token
    ⟨env.excluded, fun _ => none, fun _ => none⟩ hincluded
    (marketLog l) ev h
  refine ⟨r, ?_, hreports⟩
  rw [curveRow, hr]

/-- **THE ROWS REPORT THE TRADES**, one for one and in order. -/
theorem rows_report (hincluded : env.excluded token = false)
    (lines : List Line) {ls : List IndexerEvents.Log}
    (h : ls.map (·.event) = lines.filterMap (eventOf token)) :
    List.Forall₂ (Reports token) ((lines.filterMap tradeOf).map Prod.snd)
      (ls.filterMap (curveRow env)) := by
  induction lines generalizing ls with
  | nil =>
      obtain rfl := List.map_eq_nil_iff.mp h
      exact .nil
  | cons line lines ih =>
      -- A trade's line takes one log and one row with it.
      have htrade : ∀ {ev : Address × Trade} {event : Event},
          tradeOf line = some ev → eventOf token line = some event →
          (∀ l : IndexerEvents.Log, l.event = event →
            (marketLog l).payload = payloadOf token ev) →
          List.Forall₂ (Reports token)
            (((line :: lines).filterMap tradeOf).map Prod.snd)
            (ls.filterMap (curveRow env)) := by
        intro ev event htradeOf hevent hpayload
        rw [List.filterMap_cons_some hevent] at h
        obtain ⟨l, rest, rfl, hl, hrest⟩ := List.map_eq_cons_iff.mp h
        obtain ⟨r, hr, hreports⟩ := curveRow_reports hincluded (hpayload l hl)
        rw [List.filterMap_cons_some htradeOf, List.filterMap_cons_some hr]
        exact .cons hreports (ih hrest)
      -- Any other line takes no row.
      have hother : eventOf token line = none → tradeOf line = none →
          List.Forall₂ (Reports token)
            (((line :: lines).filterMap tradeOf).map Prod.snd)
            (ls.filterMap (curveRow env)) := by
        intro hevent htradeOf
        rw [List.filterMap_cons_none hevent] at h
        rw [List.filterMap_cons_none htradeOf]
        exact ih h
      cases line with
      | tokensBought curve trader q =>
          refine htrade rfl rfl fun l hl => ?_
          rw [marketLog, hl]
          rfl
      | tokensSold curve trader q =>
          refine htrade rfl rfl fun l hl => ?_
          rw [marketLog, hl]
          rfl
      | graduated curve named manager lpTokens nativeUsdcReserve soldSupply =>
          have hevent : eventOf token (.graduated curve named manager lpTokens
              nativeUsdcReserve soldSupply) = some (.graduated named manager
                lpTokens nativeUsdcReserve soldSupply) := rfl
          rw [List.filterMap_cons_some hevent] at h
          obtain ⟨l, rest, rfl, hl, hrest⟩ := List.map_eq_cons_iff.mp h
          have hrow : curveRow env l = none := by
            rw [curveRow, marketLog, hl]
            rfl
          rw [List.filterMap_cons_none rfl, List.filterMap_cons_none hrow]
          exact ih hrest
      | _ => exact hother rfl rfl

end

/-! ## The sums over the rows -/

section
variable {env : Env} {bs : List Block} {token : Address} {s : Store}
  {events : List Event} {ls : List IndexerEvents.Log}

/-- Only the rows of the curve count for its state. -/
theorem sum_ofSource {f : TradeRow → Int} (hf : ∀ r, r.source = .uniswapV3 →
    f r = 0) (rows : List TradeRow) :
    (rows.map f).sum = ((rows.filter (·.source = .curve)).map f).sum := by
  induction rows with
  | nil => rfl
  | cons r rows ih =>
      cases hsource : r.source with
      | curve => simp [hsource, ih]
      | uniswapV3 => simp [hsource, ih, hf r hsource]

theorem mem_tradesOf {live : List Body} {r : TradeRow} :
    r ∈ tradesOf live ↔ .trade r ∈ live := by
  rw [tradesOf, (Keyset.orderBy_perm _ _).mem_iff, List.mem_filterMap]
  constructor
  · rintro ⟨c, hc, hr⟩
    cases c with
    | trade r' =>
        obtain rfl := Option.some.inj hr
        exact hc
    | _ => cases hr
  · intro hr
    exact ⟨_, hr, rfl⟩

theorem tradesOf_nodup (t : Rows) : (tradesOf t.live).Nodup := by
  rw [tradesOf, (Keyset.orderBy_perm _ _).nodup_iff]
  refine t.live_nodup.filterMap ?_
  intro a b r ha hb
  cases a with
  | trade r' =>
      cases b with
      | trade r'' =>
          obtain rfl := Option.some.inj ha
          obtain rfl := Option.some.inj hb
          rfl
      | _ => cases hb
  | _ => cases ha

/-- A row is of the token its log names. -/
theorem curveRow_names {l : IndexerEvents.Log} {r : TradeRow}
    (h : curveRow env l = some r) :
    namesCurve token l.event = true ↔ r.tokenAddress = token := by
  obtain ⟨named, -, ⟨buyer, q, hevent, rfl⟩ | ⟨seller, q, hevent, rfl⟩⟩ :=
    curveRow_cases h
  · rw [hevent]
    exact decide_eq_true_iff
  · rw [hevent]
    exact decide_eq_true_iff

/-- **THE TOKEN'S CURVE ROWS** are the rows of its curve's logs. -/
theorem curveRows_perm (hserved : Served env bs)
    (h : applyAll env fresh bs = .ok s)
    (hcarries : Carries bs token events ls) :
    ((ofToken token (tradesOf s.rows.live)).filter (·.source = .curve)).Perm
      (ls.filterMap (curveRow env)) := by
  have hleft : ((ofToken token (tradesOf s.rows.live)).filter
      (·.source = .curve)).Nodup :=
    ((tradesOf_nodup s.rows).filter _).filter _
  have hright : (ls.filterMap (curveRow env)).Nodup := by
    refine List.pairwise_filterMap.mpr (hcarries.ordered.imp ?_)
    intro a l hlt r hr r' hr' heq
    rw [curveRow_position hr, curveRow_position hr', heq] at hlt
    exact absurd hlt (lt_irrefl _)
  refine (List.perm_ext_iff_of_nodup hleft hright).mpr fun r => ?_
  rw [List.mem_filter, ofToken, List.mem_filter, mem_tradesOf,
    List.mem_filterMap, decide_eq_true_iff, decide_eq_true_iff]
  constructor
  · rintro ⟨⟨hr, htoken⟩, hsource⟩
    obtain ⟨l, hl, hrow⟩ := (trades_applyAll hserved h r hsource).mp hr
    exact ⟨l, (hcarries.mem l).mpr ⟨hl, (curveRow_names hrow).mpr htoken⟩, hrow⟩
  · rintro ⟨l, hl, hrow⟩
    obtain ⟨hlog, hnames⟩ := (hcarries.mem l).mp hl
    have hsource := curveRow_source hrow
    exact ⟨⟨(trades_applyAll hserved h r hsource).mpr ⟨l, hlog, hrow⟩,
      (curveRow_names hrow).mp hnames⟩, hsource⟩

/-! ## The graduation -/

/-- A log that graduates the token. -/
def graduatesToken (token : Address) : Event → Bool
  | .graduated named _ _ _ _ => named = token
  | _ => false

theorem graduatesToken_iff {event : Event} :
    graduatesToken token event = true ↔
      ∃ manager tokenAmount nativeUsdcAmount soldSupply, event =
        .graduated token manager tokenAmount nativeUsdcAmount soldSupply := by
  cases event with
  | graduated named manager tokenAmount nativeUsdcAmount soldSupply =>
      simp [graduatesToken]
  | _ => simp [graduatesToken]

/-- A row graduates the token exactly when its log does. -/
theorem graduates_eventRow (l : IndexerEvents.Log) :
    graduates token (eventRow l) = graduatesToken token l.event := by
  cases hevent : l.event with
  | cto e =>
      obtain ⟨e', he', -⟩ := normalized_cto e
      simp [graduates, eventRow, hevent, he', graduatesToken]
  | _ =>
      simp [graduates, eventRow, hevent, normalizedEventValues, graduatesToken]

/-- **THE INDEXER'S GRADUATION** is a log of the chain. -/
theorem graduates_iff (hserved : Served env bs)
    (h : applyAll env fresh bs = .ok s) :
    (eventsOf s.rows.live).any (graduates token) = true ↔
      ∃ l, LogOf bs l ∧ graduatesToken token l.event = true := by
  have hcanon := canon_applyAll hserved h
  rw [List.any_eq_true]
  constructor
  · rintro ⟨r, hr, hgraduates⟩
    cases hcanon.grounded.sourced _ (mem_eventsOf.mp hr) rfl with
    | log hb hl _ _ _ _ hevent =>
        obtain rfl := hevent r rfl
        rw [graduates_eventRow] at hgraduates
        exact ⟨_, ⟨_, hb, hl⟩, hgraduates⟩
  · rintro ⟨l, hl, hgraduates⟩
    have hstored : AlwaysStored env l := by
      obtain ⟨_, _, _, _, hevent⟩ := graduatesToken_iff.mp hgraduates
      intro look
      rw [selected, hevent]
    refine ⟨_, mem_eventsOf.mpr (hcanon.complete.events l hl hstored), ?_⟩
    rw [graduates_eventRow]
    exact hgraduates

end

section
variable {τ : Type} [Erc20 Address Revert τ] [MulDiv] {D : Deployment}
  {c : Address} {w w₀ : World τ}

/-- A run graduates the curve by a buy that reaches it. -/
theorem run_graduated {s s' : CurveStorage} {ts : List Trade} (h : Run s ts s') :
    s'.graduated = true ↔ s.graduated = true ∨
      ∃ q, .bought q ∈ ts ∧ q.reachesGraduation = true := by
  induction h with
  | refl s => simp
  | @step s s₁ s' t ts hstep _ ih =>
      rw [ih]
      cases t with
      | bought q =>
          obtain ⟨-, -, hopen, hgraduated⟩ := bought_storage hstep
          simp [hopen, hgraduated]
      | sold q =>
          obtain ⟨-, -, hopen, hgraduated⟩ := sold_storage hstep
          simp [hopen, hgraduated]

omit [MulDiv] in
/-- The line of a graduation is one of a buy that reaches it. -/
theorem mem_tradeLines_graduated {t : Address × Trade} :
    (∃ line ∈ tradeLines D c t, ∃ event, eventOf (D.tokenOf c) line = some event ∧
      graduatesToken (D.tokenOf c) event = true) ↔
      ∃ q, t.2 = .bought q ∧ q.reachesGraduation = true := by
  obtain ⟨trader, q | q⟩ := t
  · cases hreach : q.reachesGraduation with
    | false =>
        by_cases hrefund : q.refund ≠ 0 <;>
          simp [tradeLines, buyLines, hreach, hrefund, eventOf, graduatesToken]
    | true =>
        by_cases hrefund : q.refund ≠ 0 <;>
          simp [tradeLines, buyLines, forwardLines, hreach, hrefund, eventOf,
            graduatesToken]
  · simp [tradeLines, sellLines, eventOf, graduatesToken]

omit [Erc20 Address Revert τ] in
/-- **THE CONTRACT'S GRADUATION** is one of its events. -/
theorem graduated_iff (h : Traded D c w) : (w.curves c).graduated = true ↔
    ∃ event ∈ curveEvents D c w, graduatesToken (D.tokenOf c) event = true := by
  have hfresh : CurveStorage.fresh.graduated = false := rfl
  rw [run_graduated h.run, hfresh]
  simp only [Bool.false_eq_true, false_or]
  constructor
  · rintro ⟨q, hq, hreach⟩
    obtain ⟨t, ht, htq⟩ := List.mem_map.mp hq
    obtain ⟨line, hline, event, hevent, hgraduates⟩ :=
      mem_tradeLines_graduated.mpr ⟨q, htq, hreach⟩
    refine ⟨event, List.mem_filterMap.mpr ⟨line, ?_, hevent⟩, hgraduates⟩
    rw [h.lines]
    exact List.mem_flatMap.mpr ⟨t, ht, hline⟩
  · rintro ⟨event, hmem, hgraduates⟩
    obtain ⟨line, hline, hevent⟩ := List.mem_filterMap.mp hmem
    rw [h.lines] at hline
    obtain ⟨t, ht, hline⟩ := List.mem_flatMap.mp hline
    obtain ⟨q, htq, hreach⟩ :=
      mem_tradeLines_graduated.mp ⟨line, hline, event, hevent, hgraduates⟩
    exact ⟨q, List.mem_map.mpr ⟨t, ht, htq⟩, hreach⟩

/-! ## The refinement -/

variable {env : Env} {bs : List Block} {s : Store}
  {ls : List IndexerEvents.Log}

/-- **THE INDEXED STATE IS THE CONTRACT'S**: after any transactions from the
    launch of a curve, and any history of the indexer whose surviving chain
    carries the curve's events, every row the indexer keeps of the curve has
    the sold supply, the reserve and the graduation of the contract. -/
theorem indexed_curve (hlaunch : Launched D c w₀) (txs : List (Call × Script Call))
    (hincluded : env.excluded (D.tokenOf c) = false) (h : History env bs s)
    (hcarries : Carries bs (D.tokenOf c)
      (curveEvents D c ((machine D).runTxs txs w₀)) ls) :
    ∀ r, .curve r ∈ s.rows.live → r.tokenAddress = D.tokenOf c →
      ⟨(Body.curve r).key,
        (((machine D).runTxs txs w₀).curves c).soldSupply,
        reserveCoordinate (((machine D).runTxs txs w₀).curves c),
        (((machine D).runTxs txs w₀).curves c).graduated⟩ ∈
          s.derived.curveStates := by
  have htraded := hlaunch.traded txs
  generalize (machine D).runTxs txs w₀ = w at htraded hcarries ⊢
  obtain ⟨s₀, h₀, hsame, hderived⟩ := h.rebuilt
  have hserved := h.served
  intro r hr htoken
  obtain ⟨u, d, hfinish⟩ := (canon_applyAll hserved h₀).settled
  rw [hderived, (finish_spec hfinish).2.1]
  refine List.mem_map.mpr ⟨r, mem_curvesOf.mpr ((hsame _).mp hr), ?_⟩
  -- The rows of the curve are those of its trades.
  have hreports := rows_report hincluded (ownLines c w) hcarries.events
  have hperm := curveRows_perm hserved h₀ hcarries
  obtain ⟨hsold, hreserve⟩ := sums_of_run htraded.run onCurve_fresh hreports
  have hsum : ∀ {f : TradeRow → Int}, (∀ r, r.source = .uniswapV3 → f r = 0) →
      ((ofToken (D.tokenOf c) (tradesOf s₀.rows.live)).map f).sum =
        ((ls.filterMap (curveRow env)).map f).sum := by
    intro f hf
    rw [sum_ofSource hf]
    exact (hperm.map f).sum_eq
  have hsold' : ((ofToken (D.tokenOf c) (tradesOf s₀.rows.live)).map
      soldDelta).sum = (w.curves c).soldSupply := by
    rw [hsum fun r hr => by rw [soldDelta, hr], ← hsold]
    exact (Int.zero_add _).symm
  have hreserve' : ((ofToken (D.tokenOf c) (tradesOf s₀.rows.live)).map
      reserveDelta).sum = reserveCoordinate (w.curves c) := by
    rw [hsum fun r hr => by rw [reserveDelta, hr], ← hreserve]
    exact (Int.zero_add _).symm
  have hgraduated : (eventsOf s₀.rows.live).any (graduates (D.tokenOf c)) =
      (w.curves c).graduated := by
    rw [Bool.eq_iff_iff, graduates_iff hserved h₀, graduated_iff htraded,
      ← hcarries.events]
    constructor
    · rintro ⟨l, hl, hgraduates⟩
      refine ⟨_, List.mem_map.mpr ⟨l, (hcarries.mem l).mpr ⟨hl, ?_⟩, rfl⟩,
        hgraduates⟩
      obtain ⟨_, _, _, _, hevent⟩ := graduatesToken_iff.mp hgraduates
      rw [hevent]
      exact decide_eq_true rfl
    · rintro ⟨event, hmem, hgraduates⟩
      obtain ⟨l, hl, rfl⟩ := List.mem_map.mp hmem
      exact ⟨l, ((hcarries.mem l).mp hl).1, hgraduates⟩
  rw [curveState, htoken, hsold', hreserve', hgraduated]

end

/-! ## The first buy, indexed -/

/-- The quote of the first buy. -/
def firstQuote : BuyQuote :=
  ⟨1000000000000000000, 1000000000000000000, 10000000000000000,
    3500000000000000, 3000000000000000, 2000000000000000, 1500000000000000,
    990000000000000000, 0, 437087901853898401897358, false⟩

/-- A block with the launch of the token and its first buy. -/
def firstBlock : Block :=
  ⟨1, 11, 10, 100,
    [⟨10, .tokenLaunchedV3 22 21 20 0 0 0 22 23, 1, 11, 50, 0, 0⟩,
      ⟨20, .tokensBought 21 30 firstQuote, 1, 11, 51, 1, 0⟩],
    fun _ => some ⟨[67], [67], 18⟩, fun _ => none⟩

theorem firstBlock_served : Served sampleEnv [firstBlock] where
  ascending := List.pairwise_singleton ..
  hashes := List.pairwise_singleton ..
  identified := by
    rintro a l ⟨b, hb, ha⟩ ⟨c, hc, hl⟩ hidentity
    obtain rfl := List.mem_singleton.mp hb
    obtain rfl := List.mem_singleton.mp hc
    simp only [firstBlock, List.mem_cons, List.not_mem_nil, or_false] at ha hl
    rcases ha with rfl | rfl <;> rcases hl with rfl | rfl
    · rfl
    · cases hidentity
    · cases hidentity
    · rfl
  opened := by
    intro b hb l hl id hupdates
    obtain rfl := List.mem_singleton.mp hb
    obtain ⟨-, e, he, -⟩ := hupdates
    simp only [firstBlock, List.mem_cons, List.not_mem_nil, or_false] at hl
    rcases hl with rfl | rfl
    · cases he
    · cases he

theorem firstBlock_history : ∃ s, History sampleEnv [firstBlock] s := by
  have hok : (applyWithProvenance sampleEnv fresh firstBlock).isOk = true := by
    decide +kernel
  cases happly : applyWithProvenance sampleEnv fresh firstBlock with
  | error e =>
      rw [happly] at hok
      cases hok
  | ok s =>
      exact ⟨s, .apply .start (by simp) (by simp) firstBlock_served happly⟩

theorem firstBlock_carries : Carries [firstBlock] 21
    (curveEvents oneCurve 20 firstBuy)
    [⟨20, .tokensBought 21 30 firstQuote, 1, 11, 51, 1, 0⟩] where
  events := by decide +kernel
  ordered := List.pairwise_singleton ..
  mem := by
    intro l
    rw [List.mem_singleton]
    constructor
    · rintro rfl
      exact ⟨⟨firstBlock, List.mem_singleton_self _, by simp [firstBlock]⟩, rfl⟩
    · rintro ⟨⟨b, hb, hl⟩, hnames⟩
      obtain rfl := List.mem_singleton.mp hb
      simp only [firstBlock, List.mem_cons, List.not_mem_nil, or_false] at hl
      rcases hl with rfl | rfl
      · cases hnames
      · rfl

/-- The first buy is indexed as the contract stored it. -/
theorem indexed_firstBuy : ∃ s, History sampleEnv [firstBlock] s ∧
    ∀ r, .curve r ∈ s.rows.live → r.tokenAddress = 21 →
      ⟨(Body.curve r).key, (firstBuy.curves 20).soldSupply,
        reserveCoordinate (firstBuy.curves 20),
        (firstBuy.curves 20).graduated⟩ ∈ s.derived.curveStates := by
  let _ := plainToken
  let _ := exactMulDiv
  obtain ⟨s, h⟩ := firstBlock_history
  exact ⟨s, h, indexed_curve launched_oneLaunch
    [(.buy 30 20 (10 ^ 18) 1 100 noAnswers, .halt true)] rfl h
    firstBlock_carries⟩

end IndexedCurve
