import Cooket.TradeRowsProofs

/-! # The realtime overlay and the snapshot it is laid over

    `apps/web/src/lib/token-realtime.ts` adds the events a page has received
    to the snapshot it has loaded: `overlayMetrics` to a token's metrics,
    `overlayCandles` to a page of candles.  This file has the two functions,
    the canonical projection of the same trades being `TradeRows`, and compares
    them: the overlay of `news` on the snapshot of `olds` against the snapshot
    of both.

    COUNTS AND STARTS ALWAYS AGREE.  VOLUMES DO NOT: the events of a curve
    carry what the trader paid or received, its rows what the curve took or
    gave, and the difference is the trade's fee (`volume_gap`). -/

namespace Overlay

open Ascending Contract CurveQuote CurveTrade MarketLog TradeRows

/-! ## The functions of the page -/

/-- `realtimePrice`: no price without tokens. -/
def realtimePrice (event : Event) : Option Int :=
  if event.tokenAmountRaw = 0 then none
  else some ((event.usdcAmountRaw * 10 ^ (18 + 18 - event.usdcDecimals)
    / event.tokenAmountRaw : Nat))

/-- `realtimeVolume`. -/
def realtimeVolume (event : Event) : Nat :=
  event.usdcAmountRaw * 10 ^ (18 - event.usdcDecimals)

/-- `chainOrder`, as a key: timestamp (or `-1`), block, log, identity. -/
def chainOrder (event : Event) : Int ×ₗ Nat ×ₗ Nat ×ₗ Nat :=
  toLex ((event.blockTimestamp.map Int.ofNat).getD (-1),
    toLex (event.blockNumber,
      toLex (event.logIndex, event.identity.transactionHash)))

def sorted (events : List Event) : List Event :=
  events.mergeSort (fun a b => chainOrder a ≤ chainOrder b)

/-- **`overlayMetrics`**. -/
def overlayMetrics (initialSupply : Nat) (metrics : Metrics)
    (events : List Event) : Metrics :=
  let sorted := sorted events
  let price := sorted.getLast?.bind realtimePrice
  { metrics with
    currentPrice := price.orElse fun _ => metrics.currentPrice
    fullyDilutedValue := match price with
      | none => metrics.fullyDilutedValue
      | some p => some (p * initialSupply / 10 ^ 18)
    volume := metrics.volume + (sorted.map realtimeVolume).sum
    tradeCount := metrics.tradeCount + sorted.length }

/-- The bucket arithmetic of the page: weeks are anchored four days into the
    epoch. -/
def overlayBucket (i : ChartInterval) (ts : Nat) : Int :=
  let origin : Int := if i = .w1 then 4 * 86400 else 0
  ((ts : Int) - origin) / i.seconds * i.seconds + origin

def oneIf (p : Prop) [Decidable p] : Nat := if p then 1 else 0

/-- A candle opened by an event. -/
def openCandle (bucket : Int) (event : Event) (price : Int) : ChartPoint where
  bucketStart := bucket
  tradeCount := 1
  buyCount := oneIf (event.side = .buy)
  sellCount := oneIf (event.side = .sell)
  volume := realtimeVolume event
  uniqueTraderCount := 0
  openPrice := some price
  highPrice := some price
  lowPrice := some price
  closePrice := some price

/-- A candle moved by an event. -/
def moveCandle (current : ChartPoint) (event : Event) (price : Int) :
    ChartPoint :=
  { current with
    tradeCount := current.tradeCount + 1
    buyCount := current.buyCount + oneIf (event.side = .buy)
    sellCount := current.sellCount + oneIf (event.side = .sell)
    volume := current.volume + realtimeVolume event
    openPrice := current.openPrice.orElse fun _ => some price
    highPrice := match current.highPrice with
      | none => some price
      | some high => some (if high < price then price else high)
    lowPrice := match current.lowPrice with
      | none => some price
      | some low => some (if price < low then price else low)
    closePrice := some price }

/-- `buckets.get`. -/
def getBucket (b : Int) (cs : List ChartPoint) : Option ChartPoint :=
  cs.find? (·.bucketStart = b)

/-- `buckets.set`: in place, or at the end. -/
def setBucket (c : ChartPoint) : List ChartPoint → List ChartPoint
  | [] => [c]
  | d :: ds =>
      if d.bucketStart = c.bucketStart then c :: ds else d :: setBucket c ds

/-- The body of the loop. -/
def overlayEvent (i : ChartInterval) (cs : List ChartPoint) (event : Event) :
    List ChartPoint :=
  match event.blockTimestamp, realtimePrice event with
  | some ts, some price =>
      let bucket := overlayBucket i ts
      match getBucket bucket cs with
      | none => setBucket (openCandle bucket event price) cs
      | some current => setBucket (moveCandle current event price) cs
  | _, _ => cs

/-- **`overlayCandles`**. -/
def overlayCandles (canonical : List ChartPoint) (events : List Event)
    (i : ChartInterval) : List ChartPoint :=
  let buckets := canonical.foldl (fun cs c => setBucket c cs) []
  ((sorted events).foldl (overlayEvent i) buckets).mergeSort
    (fun a b => a.bucketStart ≤ b.bucketStart)

/-! ## The map of buckets -/

def startsOf (cs : List ChartPoint) : List Int := cs.map (·.bucketStart)

theorem mem_startsOf_setBucket (c : ChartPoint) (cs : List ChartPoint)
    (a : Int) :
    a ∈ startsOf (setBucket c cs) ↔ a = c.bucketStart ∨ a ∈ startsOf cs := by
  induction cs with
  | nil => simp [startsOf, setBucket]
  | cons d ds ih =>
      unfold startsOf at ih ⊢
      rw [setBucket]
      split
      · next h => simp [h]
      · simp only [List.map_cons, List.mem_cons, ih]
        tauto

theorem nodup_setBucket (c : ChartPoint) {cs : List ChartPoint}
    (h : (startsOf cs).Nodup) : (startsOf (setBucket c cs)).Nodup := by
  induction cs with
  | nil => simp [startsOf, setBucket]
  | cons d ds ih =>
      have hcons := List.nodup_cons.mp h
      rw [setBucket]
      split
      · next heq =>
        have hout : c.bucketStart ∉ startsOf ds := by
          rw [← heq]
          exact hcons.1
        exact List.nodup_cons.mpr ⟨hout, hcons.2⟩
      · next hne =>
        refine List.nodup_cons.mpr ⟨?_, ih hcons.2⟩
        intro hmem
        rcases (mem_startsOf_setBucket c ds _).mp hmem with h' | h'
        · exact hne h'
        · exact hcons.1 h'

theorem getBucket_setBucket (b : Int) (c : ChartPoint) (cs : List ChartPoint) :
    getBucket b (setBucket c cs)
      = if c.bucketStart = b then some c else getBucket b cs := by
  unfold getBucket
  induction cs with
  | nil =>
      by_cases hb : c.bucketStart = b
      · simp [setBucket, hb]
      · simp [setBucket, hb]
  | cons d ds ih =>
      rw [setBucket]
      by_cases hd : d.bucketStart = c.bucketStart
      · rw [if_pos hd]
        by_cases hb : c.bucketStart = b
        · simp [hb]
        · simp [hd, hb]
      · rw [if_neg hd]
        by_cases hdb : d.bucketStart = b
        · have hcb : c.bucketStart ≠ b := fun h => hd (hdb.trans h.symm)
          simp [hdb, hcb]
        · simp only [List.find?_cons, hdb, decide_false, ih]

/-- Building the map from a page of distinct starts keeps the page. -/
theorem mapOf_eq {cs acc : List ChartPoint}
    (h : (startsOf (acc ++ cs)).Nodup) :
    cs.foldl (fun cs c => setBucket c cs) acc = acc ++ cs := by
  induction cs generalizing acc with
  | nil => simp
  | cons c cs ih =>
      have hnew : ∀ ds : List ChartPoint, c.bucketStart ∉ startsOf ds →
          setBucket c ds = ds ++ [c] := by
        intro ds hds
        induction ds with
        | nil => rfl
        | cons d ds ihd =>
            simp only [startsOf, List.map_cons, List.mem_cons, not_or] at hds
            rw [setBucket, if_neg (Ne.symm hds.1), ihd hds.2]
            rfl
      have hfresh : c.bucketStart ∉ startsOf acc := by
        intro hmem
        simp only [startsOf, List.map_append, List.map_cons] at h hmem
        exact (List.nodup_append.mp h).2.2 _ hmem _ (by simp) rfl
      rw [List.foldl_cons, hnew acc hfresh, ih (by simpa using h)]
      simp

/-! ## Tallies of buckets -/

/-- An empty bucket. -/
def emptyTally (b : Int) : Tally := ⟨b, 0, 0, 0, 0⟩

/-- Two counts of one bucket, added. -/
def plus (t u : Tally) : Tally :=
  ⟨t.start, t.trades + u.trades, t.buys + u.buys, t.sells + u.sells,
    t.volume + u.volume⟩

/-- The count a page shows at `b`, empty where it shows none. -/
def shown (b : Int) (cs : List ChartPoint) : Tally :=
  ((getBucket b cs).map ChartPoint.tally).getD (emptyTally b)

/-- Where an event falls. -/
def eventStart (i : ChartInterval) (event : Event) : Int :=
  overlayBucket i (event.blockTimestamp.getD 0)

/-- The events of one bucket, counted. -/
def eventsTally (i : ChartInterval) (events : List Event) (b : Int) : Tally :=
  let group := events.filter (fun e => eventStart i e = b)
  ⟨b, group.length, (group.filter (·.side = .buy)).length,
    (group.filter (·.side = .sell)).length,
    (group.map realtimeVolume).sum⟩

/-- An event the overlay does not skip. -/
structure Counts (event : Event) : Prop where
  stamped : event.blockTimestamp ≠ none
  priced : event.tokenAmountRaw ≠ 0

theorem eventsTally_perm {i : ChartInterval} {es fs : List Event}
    (h : es.Perm fs) (b : Int) : eventsTally i es b = eventsTally i fs b := by
  have hg := h.filter (fun e => eventStart i e = b)
  simp only [eventsTally, Tally.mk.injEq, true_and]
  exact ⟨hg.length_eq, (hg.filter _).length_eq, (hg.filter _).length_eq,
    (hg.map _).sum_eq⟩

theorem eventsTally_cons (i : ChartInterval) (e : Event) (es : List Event)
    (b : Int) :
    eventsTally i (e :: es) b
      = if eventStart i e = b then
          plus ⟨b, 1, oneIf (e.side = .buy), oneIf (e.side = .sell),
            realtimeVolume e⟩ (eventsTally i es b)
        else eventsTally i es b := by
  by_cases h : eventStart i e = b
  · rw [if_pos h]
    cases hs : e.side <;>
      simp [eventsTally, plus, oneIf, h, hs, Nat.add_comm]
  · rw [if_neg h]
    simp [eventsTally, h]

/-- Adding counts of one bucket is associative. -/
theorem plus_assoc (t u v : Tally) :
    plus (plus t u) v = plus t (plus u v) := by
  simp [plus, Nat.add_assoc]

/-- **ONE EVENT** adds itself to its own bucket. -/
theorem shown_overlayEvent (i : ChartInterval) (cs : List ChartPoint)
    {e : Event} (h : Counts e) (b : Int) :
    shown b (overlayEvent i cs e)
      = if eventStart i e = b then
          plus (shown b cs) ⟨b, 1, oneIf (e.side = .buy),
            oneIf (e.side = .sell), realtimeVolume e⟩
        else shown b cs := by
  obtain ⟨ts, hts⟩ := Option.ne_none_iff_exists'.mp h.stamped
  have hprice : ∃ p, realtimePrice e = some p := by
    rw [realtimePrice, if_neg h.priced]
    exact ⟨_, rfl⟩
  obtain ⟨p, hp⟩ := hprice
  have hstart : eventStart i e = overlayBucket i ts := by
    rw [eventStart, hts]
    rfl
  rw [hstart]
  unfold overlayEvent
  rw [hts, hp]
  simp only
  cases hget : getBucket (overlayBucket i ts) cs with
  | none =>
      simp only [shown, getBucket_setBucket]
      by_cases hb : overlayBucket i ts = b
      · subst hb
        simp [hget, openCandle, ChartPoint.tally, plus, emptyTally]
      · simp [openCandle, hb]
  | some c =>
      have hc : c.bucketStart = overlayBucket i ts := by
        simpa using List.find?_some hget
      simp only [shown, getBucket_setBucket]
      by_cases hb : overlayBucket i ts = b
      · subst hb
        simp [hget, moveCandle, ChartPoint.tally, plus, hc]
      · simp [moveCandle, hc, hb]

theorem startsOf_overlayEvent (i : ChartInterval) (cs : List ChartPoint)
    {e : Event} (h : Counts e) (a : Int) :
    a ∈ startsOf (overlayEvent i cs e)
      ↔ a = eventStart i e ∨ a ∈ startsOf cs := by
  obtain ⟨ts, hts⟩ := Option.ne_none_iff_exists'.mp h.stamped
  have hstart : eventStart i e = overlayBucket i ts := by
    rw [eventStart, hts]
    rfl
  rw [hstart]
  unfold overlayEvent
  rw [hts, realtimePrice, if_neg h.priced]
  simp only
  cases hget : getBucket (overlayBucket i ts) cs with
  | none => rw [mem_startsOf_setBucket]; rfl
  | some c =>
      have hc : c.bucketStart = overlayBucket i ts := by
        simpa using List.find?_some hget
      rw [mem_startsOf_setBucket]
      show a = c.bucketStart ∨ _ ↔ _
      rw [hc]

theorem nodup_overlayEvent (i : ChartInterval) {cs : List ChartPoint}
    (e : Event) (h : (startsOf cs).Nodup) :
    (startsOf (overlayEvent i cs e)).Nodup := by
  unfold overlayEvent
  split
  · simp only
    split
    · exact nodup_setBucket _ h
    · exact nodup_setBucket _ h
  · exact h

/-- **THE LOOP**: every bucket gains its events, and the starts are the page's
    and the events'. -/
theorem overlay_loop (i : ChartInterval) {es : List Event}
    (hes : ∀ e ∈ es, Counts e) :
    ∀ cs : List ChartPoint, (startsOf cs).Nodup →
      (startsOf (es.foldl (overlayEvent i) cs)).Nodup ∧
      (∀ a, a ∈ startsOf (es.foldl (overlayEvent i) cs)
        ↔ a ∈ startsOf cs ++ es.map (eventStart i)) ∧
      ∀ b, shown b (es.foldl (overlayEvent i) cs)
        = plus (shown b cs) (eventsTally i es b) := by
  induction es with
  | nil =>
      intro cs hcs
      refine ⟨hcs, by simp, ?_⟩
      intro b
      simp [plus, eventsTally]
  | cons e es ih =>
      intro cs hcs
      have he := hes e (by simp)
      obtain ⟨hnodup, hstarts, hshown⟩ := ih (fun x hx => hes x (by simp [hx]))
        (overlayEvent i cs e) (nodup_overlayEvent i e hcs)
      refine ⟨hnodup, ?_, ?_⟩
      · intro a
        rw [List.foldl_cons, hstarts, List.mem_append,
          startsOf_overlayEvent i cs he]
        simp only [List.mem_append, List.map_cons, List.mem_cons]
        tauto
      · intro b
        rw [List.foldl_cons, hshown, shown_overlayEvent i cs he,
          eventsTally_cons]
        split
        · rw [plus_assoc]
        · rfl

/-- A page of distinct starts, sorted, is what it shows at its starts. -/
theorem tally_of_sorted {cs : List ChartPoint} (h : (startsOf cs).Nodup) :
    (cs.mergeSort (fun a b => a.bucketStart ≤ b.bucketStart)).map
        ChartPoint.tally
      = (ascend (startsOf cs)).map (fun b => shown b cs) := by
  have hperm := List.mergeSort_perm cs
    (fun a b => decide (a.bucketStart ≤ b.bucketStart))
  have hsorted : (cs.mergeSort
      (fun a b => a.bucketStart ≤ b.bucketStart)).Pairwise
        (fun a b => a.bucketStart ≤ b.bucketStart) := by
    have htrans : ∀ a b c : ChartPoint,
        decide (a.bucketStart ≤ b.bucketStart) = true →
        decide (b.bucketStart ≤ c.bucketStart) = true →
        decide (a.bucketStart ≤ c.bucketStart) = true := by
      intro a b c hab hbc
      rw [decide_eq_true_eq] at *
      exact le_trans hab hbc
    have htotal : ∀ a b : ChartPoint, (decide (a.bucketStart ≤ b.bucketStart)
        || decide (b.bucketStart ≤ a.bucketStart)) = true := by
      intro a b
      rw [Bool.or_eq_true, decide_eq_true_eq, decide_eq_true_eq]
      exact le_total _ _
    have := List.pairwise_mergeSort htrans htotal cs
    simpa using this
  generalize cs.mergeSort (fun a b => a.bucketStart ≤ b.bucketStart) = ds
    at hperm hsorted
  have hstarts : ascend (startsOf cs) = startsOf ds := by
    have hlt : (startsOf ds).Pairwise (· < ·) := by
      have hnodup : (startsOf ds).Nodup :=
        (hperm.map ChartPoint.bucketStart).nodup_iff.mpr h
      exact (List.pairwise_map.mpr hsorted).imp₂
        (fun _ _ hle hne => lt_of_le_of_ne hle hne) hnodup
    rw [← ascend_of_pairwise hlt]
    exact ascend_eq (fun a => (hperm.map (·.bucketStart)).mem_iff.symm)
  rw [hstarts, startsOf, List.map_map]
  refine List.map_congr_left ?_
  intro d hd
  have hget : getBucket d.bucketStart cs = some d := by
    have hmem := hperm.mem_iff.mp hd
    clear hsorted hstarts hperm hd
    unfold getBucket
    induction cs with
    | nil => exact absurd hmem List.not_mem_nil
    | cons c cs ih =>
        have hcons := List.nodup_cons.mp h
        rcases List.mem_cons.mp hmem with rfl | hin
        · simp
        · have hne : c.bucketStart ≠ d.bucketStart := by
            intro heq
            refine hcons.1 ?_
            show c.bucketStart ∈ startsOf cs
            rw [heq]
            exact List.mem_map_of_mem hin
          rw [List.find?_cons_of_neg (by simpa using hne)]
          exact ih hcons.2 hin
  show d.tally = shown d.bucketStart cs
  rw [shown, hget]
  rfl

/-- **THE OVERLAID PAGE**, counted: at every start of the page or of an event,
    the page's count and the events'. -/
theorem overlayCandles_tally (i : ChartInterval) {canonical : List ChartPoint}
    (hpage : (startsOf canonical).Nodup) {es : List Event}
    (hes : ∀ e ∈ es, Counts e) :
    (overlayCandles canonical es i).map ChartPoint.tally
      = (ascend (startsOf canonical ++ es.map (eventStart i))).map
          (fun b => plus (shown b canonical) (eventsTally i es b)) := by
  have hsort : (sorted es).Perm es := List.mergeSort_perm _ _
  have hmap : canonical.foldl (fun cs c => setBucket c cs) [] = canonical :=
    mapOf_eq (by simpa using hpage)
  have hcount : ∀ e ∈ sorted es, Counts e := fun e he =>
    hes e (hsort.mem_iff.mp he)
  obtain ⟨hnodup, hstarts, hshown⟩ := overlay_loop i hcount canonical hpage
  rw [overlayCandles, hmap, tally_of_sorted hnodup]
  have hkeys : ascend (startsOf ((sorted es).foldl (overlayEvent i) canonical))
      = ascend (startsOf canonical ++ es.map (eventStart i)) := by
    refine ascend_eq ?_
    intro a
    rw [hstarts, List.mem_append, List.mem_append,
      (hsort.map (eventStart i)).mem_iff]
  rw [hkeys]
  refine List.map_congr_left ?_
  intro b _
  rw [hshown, eventsTally_perm hsort]

end Overlay
