import Cooket.OverlayProofs
import Mathlib.Tactic.LinearCombination

/-! # When the overlay agrees with the later snapshot

    A trade that follows a snapshot reaches the page twice: first as an event
    of the realtime service, then as a row of the indexer.  `Reported` is such
    a trade with both readings.

    The counts and the starts of the overlaid page are those of the later
    snapshot in every case.  The volumes differ by the fees, with opposite
    signs for buys and sells, so THE OVERLAY AGREES exactly if in every minute
    the fees of the curve's buys and of its sells are the same
    (`overlay_agrees_iff`). -/

namespace OverlayLaw

open Ascending CheckedArith Contract CurveQuote CurveTrade MarketLog Overlay
  TradeRows

section Law

variable [MulDiv]

/-! ## Trades both programs read -/

/-- **A TRADE OF THE TOKEN**, as the service and the indexer read it, each
    under what it knew when it read. -/
structure Reported (usdc token : Address) where
  log : Log
  genuine : Genuine log.payload
  registry : Address → Option Registration
  registration : Registration
  registered : registry log.address = some registration
  listed : registration.market.token = token
  decoded : Event
  decodes : decode usdc registry log = .ok decoded
  lookup : Lookup
  row : TradeRow
  projects : projection usdc lookup log = .ok (some row)
  indexed : row.tokenAddress = token

/-- The published event: the decoded one with its block's timestamp. -/
def Reported.event {usdc token : Address} (stamp : Nat → Nat)
    (t : Reported usdc token) : Event :=
  { t.decoded with blockTimestamp := some (stamp t.log.blockHash) }

/-- The fee of a curve buy, zero for any other trade. -/
def buyFee : Payload → Nat
  | .tokensBought _ _ q => q.totalFee
  | _ => 0

/-- The fee of a curve sell, zero for any other trade. -/
def sellFee : Payload → Nat
  | .tokensSold _ _ q => q.totalFee
  | _ => 0

/-- How far the realtime volume of a trade is above its row's. -/
def gap (p : Payload) : Int := buyFee p - sellFee p

section OneTrade

variable {usdc token : Address} (stamp : Nat → Nat)

/-- The two readings of one trade, side by side. -/
structure SameTrade (l : Log) (e : Event) (row : TradeRow) : Prop where
  side : e.side = row.side
  priced : e.tokenAmountRaw ≠ 0
  blockHash : row.blockHash = l.blockHash
  volume : (realtimeVolume e : Int) = rowVolume row + gap l.payload

/-- **THE VOLUME GAP.**  A buy is over by its fee, a sell is under by its fee,
    a pool trade is exact. -/
theorem volume_gap (t : Reported usdc token) :
    SameTrade t.log t.decoded t.row := by
  obtain ⟨log, hgenuine, registry, registration, hreg, hlist, e, hdec, lookup,
    row, hrow, htoken⟩ := t
  simp only
  unfold decode at hdec
  rw [hreg] at hdec
  simp only at hdec
  cases hsource : registration.source with
  | curve =>
      rw [hsource] at hdec
      rcases decodeCurve_ok hdec with ⟨buyer, q, hp, rfl⟩ | ⟨seller, q, hp, rfl⟩
      · rw [projection, hp] at hrow
        simp only at hrow
        split at hrow
        · cases hrow
        · obtain rfl := Option.some.inj (Except.ok.inj hrow)
          rw [hp] at hgenuine
          obtain ⟨s, gross, -, hq⟩ := hgenuine
          obtain ⟨hpaid, hpos⟩ := quoteBuy_paid hq
          refine ⟨rfl, Nat.ne_of_gt hpos, rfl, ?_⟩
          rw [hp]
          simp only [realtimeVolume, baseEvent, rowVolume, rowOf, gap, buyFee,
            sellFee]
          omega
      · rw [projection, hp] at hrow
        simp only at hrow
        split at hrow
        · cases hrow
        · obtain rfl := Option.some.inj (Except.ok.inj hrow)
          rw [hp] at hgenuine
          obtain ⟨s, tokensIn, -, hq⟩ := hgenuine
          obtain ⟨hin, hpaid, -⟩ := quoteSell_amounts hq
          have hpos : 0 < q.tokensIn := by
            rw [hin]
            exact (quoteSell_active hq).2.1
          refine ⟨rfl, Nat.ne_of_gt hpos, rfl, ?_⟩
          rw [hp]
          simp only [realtimeVolume, baseEvent, rowVolume, rowOf, gap, buyFee,
            sellFee]
          omega
  | uniswapV3 =>
      rw [hsource] at hdec
      obtain ⟨amount0, amount1, hp, hvalid, rfl⟩ := decodeSwap_ok hdec
      rw [projection, hp] at hrow
      obtain ⟨other, trader, -, rfl⟩ := projectUniswapV3Swap_ok hrow
      -- the indexer found the token by the pool, the service by its registry
      have hother : other = registration.market.token := by
        rw [hlist]
        exact htoken
      subst hother
      have hpos := (orderDeltas_pos hvalid registration.market.token usdc).1
      refine ⟨rfl, Nat.ne_of_gt hpos, rfl, ?_⟩
      rw [hp]
      simp only [realtimeVolume, baseEvent, rowVolume, rowOf, gap, buyFee,
        sellFee]
      omega

end OneTrade

/-! ## Buckets of the two programs -/

omit [MulDiv] in
/-- The week of the page is the week of the database. -/
theorem overlayBucket_eq (i : ChartInterval) (ts : Nat) :
    overlayBucket i ts = bucketStart i ts := by
  cases i <;>
    simp [overlayBucket, bucketStart, ChartInterval.weekly,
      ChartInterval.seconds, dateTruncWeek]
  omega

omit [MulDiv] in
theorem bucketStart_mono (i : ChartInterval) {ts ts' : Nat} (h : ts ≤ ts') :
    bucketStart i ts ≤ bucketStart i ts' := by
  cases i <;>
    simp only [bucketStart, ChartInterval.weekly, ChartInterval.seconds,
      dateTruncWeek, reduceCtorEq, decide_false, decide_true, if_true,
      Bool.false_eq_true, if_false] <;>
    omega

omit [MulDiv] in
/-- A minute lies in one bucket of every interval. -/
theorem bucketStart_minute (i : ChartInterval) (ts : Nat) :
    bucketStart i ts = bucketStart i (ts / 60 * 60) := by
  cases i <;>
    simp only [bucketStart, ChartInterval.weekly, ChartInterval.seconds,
      dateTruncWeek, reduceCtorEq, decide_false, decide_true, if_true,
      Bool.false_eq_true, if_false] <;>
    omega

/-! ## The comparison -/

section Compare

variable {usdc token : Address} (div : ℚ → ℚ → ℚ) (stamp : Nat → Nat)
  (supply : Nat) (olds later : List TradeRow) (news : List (Reported usdc token))

/-- The page a client shows for a request: the overlaid candles that the
    request asks for. -/
def overlaidPage (r : ChartRequest) : List ChartPoint :=
  ((overlayCandles (chartRange div stamp token r olds)
    (news.map (Reported.event stamp)) r.interval).filter
      (fun c => r.covers c.bucketStart)).rtake r.limit

/-- **AGREEMENT** with the later snapshot: the same totals, and for every
    request the same starts, counts and volumes. -/
structure Agrees : Prop where
  tradeCount :
    (overlayMetrics supply (tokenMetrics div supply token olds)
      (news.map (Reported.event stamp))).tradeCount
      = (tokenMetrics div supply token later).tradeCount
  volume :
    (overlayMetrics supply (tokenMetrics div supply token olds)
      (news.map (Reported.event stamp))).volume
      = (tokenMetrics div supply token later).volume
  candles : ∀ r : ChartRequest,
    (overlaidPage div stamp olds news r).map ChartPoint.tally
      = (chartRange div stamp token r later).map ChartPoint.tally

/-- The minute of a trade. -/
def minute (t : Reported usdc token) : Nat := stamp t.log.blockHash / 60

/-- The fees the trades of one minute paid. -/
def feesIn (fee : Payload → Nat) (m : Nat) : Nat :=
  ((news.filter (fun t => minute stamp t = m)).map (fun t => fee t.log.payload)).sum

/-- What all the trades of a group are over, together. -/
def gapIn (p : Reported usdc token → Bool) : Int :=
  groupSum (fun t => gap t.log.payload) p news

theorem gapIn_minute (m : Nat) :
    gapIn news (fun t => decide (minute stamp t = m))
      = feesIn stamp news buyFee m - feesIn stamp news sellFee m := by
  unfold gapIn feesIn groupSum
  generalize news.filter (fun t => minute stamp t = m) = group
  induction group with
  | nil => rfl
  | cons t ts ih =>
      simp only [List.map_cons, List.sum_cons, Nat.cast_add]
      rw [ih, gap]
      omega

/-- What a group of trades adds to the realtime volume. -/
theorem volume_group (p : Reported usdc token → Bool) :
    (((news.filter p).map (fun t => realtimeVolume (t.event stamp))).sum : Int)
      = (((news.filter p).map (fun t => rowVolume t.row)).sum : Nat)
        + gapIn news p := by
  unfold gapIn groupSum
  generalize news.filter p = group
  induction group with
  | nil => rfl
  | cons t ts ih =>
      have ht := (volume_gap t).volume
      have hv : realtimeVolume (t.event stamp) = realtimeVolume t.decoded := rfl
      simp only [List.map_cons, List.sum_cons, Nat.cast_add, hv, ht, ih]
      omega

/-- The counts of a bucket: the events' and the rows' differ in volume only. -/
theorem tally_group (i : ChartInterval) (b : Int) :
    let es := eventsTally i (news.map (Reported.event stamp)) b
    let rs := tallyAt stamp i (news.map Reported.row) b
    es.start = rs.start ∧ es.trades = rs.trades ∧ es.buys = rs.buys ∧
      es.sells = rs.sells ∧
      (es.volume : Int) = rs.volume + gapIn news
        (fun t => decide (bucketStart i (stamp t.log.blockHash) = b)) := by
  have hevent : ∀ t : Reported usdc token,
      eventStart i (t.event stamp) = bucketStart i (stamp t.log.blockHash) :=
    fun t => overlayBucket_eq i _
  have hrow : ∀ t : Reported usdc token,
      rowStart stamp i t.row = bucketStart i (stamp t.log.blockHash) := by
    intro t
    rw [rowStart, (volume_gap t).blockHash]
  have hside : ∀ t : Reported usdc token,
      (t.event stamp).side = t.row.side := fun t => (volume_gap t).side
  simp only [eventsTally, tallyAt, buys, sells, volumeOf, List.filter_map,
    List.length_map, List.map_map, Function.comp_def, hevent, hrow, hside,
    true_and]
  exact volume_group stamp news _

/-! ## The law -/

omit [MulDiv] in
/-- Rows of one bucket, appended. -/
theorem tallyAt_append (i : ChartInterval) (ts us : List TradeRow) (b : Int) :
    tallyAt stamp i (ts ++ us) b
      = plus (tallyAt stamp i ts b) (tallyAt stamp i us b) := by
  simp [tallyAt, plus, buys, sells, volumeOf]

omit [MulDiv] in
theorem tallyAt_none (i : ChartInterval) {ts : List TradeRow} {b : Int}
    (h : b ∉ ts.map (rowStart stamp i)) :
    tallyAt stamp i ts b = emptyTally b := by
  have hnone : ts.filter (fun t => rowStart stamp i t = b) = [] := by
    refine List.filter_eq_nil_iff.mpr ?_
    intro t ht hb
    exact h (List.mem_map.mpr ⟨t, ht, of_decide_eq_true hb⟩)
  simp only [tallyAt, hnone]
  rfl

omit [MulDiv] in
/-- A page shows the counts of its own starts and nothing elsewhere. -/
theorem shown_of_tally {cs : List ChartPoint} {keys : List Int}
    {T : Int → Tally} (hT : ∀ b, (T b).start = b)
    (h : cs.map ChartPoint.tally = keys.map T) (b : Int) :
    shown b cs = if b ∈ keys then T b else emptyTally b := by
  unfold shown getBucket
  induction keys generalizing cs with
  | nil =>
      obtain rfl : cs = [] := by simpa using h
      simp
  | cons k keys ih =>
      match cs with
      | [] => exact nomatch h
      | c :: cs =>
          rw [List.map_cons, List.map_cons, List.cons.injEq] at h
          have hc : c.bucketStart = k := by
            have := congrArg Tally.start h.1
            rwa [hT] at this
          by_cases hb : k = b
          · subst hb
            simp [hc, h.1]
          · rw [List.find?_cons_of_neg (by simpa [hc] using hb), ih h.2]
            simp [Ne.symm hb]

omit [MulDiv] in
theorem startsOf_of_tally {cs : List ChartPoint} {keys : List Int}
    {T : Int → Tally} (hT : ∀ b, (T b).start = b)
    (h : cs.map ChartPoint.tally = keys.map T) : startsOf cs = keys := by
  have := congrArg (List.map Tally.start) h
  rw [List.map_map, List.map_map] at this
  refine Eq.trans this ?_
  simp [Function.comp_def, hT]

/-- The window of starts a request shows once the new trades are indexed. -/
def laterStarts (r : ChartRequest) : List Int :=
  ((ascend ((ofToken token olds).map (rowStart stamp r.interval)
    ++ news.map (fun t => bucketStart r.interval (stamp t.log.blockHash)))).filter
      (r.covers ·)).rtake r.limit

variable {olds later news}

/-- **THE OVERLAID PAGE** shows the later window of starts, each with the old
    rows' count and the new events'. -/
theorem overlaidPage_tally (r : ChartRequest)
    (hfollows : ∀ o ∈ ofToken token olds, ∀ t ∈ news,
      stamp o.blockHash ≤ stamp t.log.blockHash) :
    (overlaidPage div stamp olds news r).map ChartPoint.tally
      = (laterStarts stamp olds news r).map (fun b =>
          plus (tallyAt stamp r.interval (ofToken token olds) b)
            (eventsTally r.interval (news.map (Reported.event stamp)) b)) := by
  set i := r.interval with hi
  set old := (ofToken token olds).map (rowStart stamp i) with hold
  set new := news.map (fun t => bucketStart i (stamp t.log.blockHash)) with hnew
  -- the page that was loaded, and the starts on it
  have hpage := chartRange_tally div stamp token r olds
  rw [← hi, ← hold, ascend_filter] at hpage
  set keys := (ascend (old.filter (r.covers ·))).rtake r.limit with hkeys
  have hT : ∀ b, (tallyAt stamp i (ofToken token olds) b).start = b :=
    fun _ => rfl
  have hstarts := startsOf_of_tally hT hpage
  have hnodup : (startsOf (chartRange div stamp token r olds)).Nodup := by
    rw [hstarts]
    exact ((ascend_pairwise _).imp ne_of_lt).sublist (List.drop_sublist _ _)
  have hcounts : ∀ e ∈ news.map (Reported.event stamp), Counts e := by
    intro e he
    obtain ⟨t, _, rfl⟩ := List.mem_map.mp he
    exact ⟨Option.some_ne_none _, (volume_gap t).priced⟩
  have hevents : (news.map (Reported.event stamp)).map (eventStart i) = new := by
    rw [List.map_map, hnew]
    refine List.map_congr_left ?_
    intro t _
    exact overlayBucket_eq i _
  have hover := overlayCandles_tally i hnodup hcounts
  rw [hstarts, hevents] at hover
  -- cutting to the request again leaves the later window
  have hcut : (ascend (keys ++ new)).filter (r.covers ·)
      = ascend (keys ++ new.filter (r.covers ·)) := by
    rw [ascend_filter, List.filter_append]
    congr 2
    refine List.filter_eq_self.mpr ?_
    intro a ha
    exact (List.mem_filter.mp (mem_ascend.mp (mem_of_mem_rtake ha))).2
  have hbelow : ∀ a ∈ old.filter (r.covers ·), ∀ b ∈ new.filter (r.covers ·),
      a ≤ b := by
    intro a ha b hb
    obtain ⟨o, ho, rfl⟩ := List.mem_map.mp (List.mem_filter.mp ha).1
    obtain ⟨t, ht, rfl⟩ := List.mem_map.mp (List.mem_filter.mp hb).1
    exact bucketStart_mono i (hfollows o ho t ht)
  have hwindow : laterStarts stamp olds news r
      = (ascend (old.filter (r.covers ·) ++ new.filter (r.covers ·))).rtake
          r.limit := by
    rw [laterStarts, ascend_filter, List.filter_append]
  have hcovers : ∀ cs : List ChartPoint,
      (cs.filter (fun c => r.covers c.bucketStart)).map ChartPoint.tally
        = (cs.map ChartPoint.tally).filter (fun t => r.covers t.start) := by
    intro cs
    rw [List.filter_map]
    rfl
  rw [overlaidPage, map_rtake, hcovers, hover, List.filter_map, ← map_rtake]
  have hkeep : (fun t : Tally => r.covers t.start) ∘ (fun b =>
      plus (shown b (chartRange div stamp token r olds))
        (eventsTally i (news.map (Reported.event stamp)) b))
      = (r.covers ·) := by
    funext b
    simp only [Function.comp_apply, plus, shown_of_tally hT hpage]
    split <;> rfl
  rw [hkeep, hcut, window_extend r.limit hbelow, hwindow]
  refine List.map_congr_left ?_
  intro b hb
  rw [shown_of_tally hT hpage]
  by_cases hkey : b ∈ keys
  · rw [if_pos hkey]
  · rw [if_neg hkey, tallyAt_none]
    intro hmem
    have hcov : r.covers b = true := by
      have := mem_ascend.mp (mem_of_mem_rtake hb)
      rcases List.mem_append.mp this with h | h
      · exact (List.mem_filter.mp h).2
      · exact (List.mem_filter.mp h).2
    exact hkey (mem_window hbelow hb (List.mem_filter.mpr ⟨hmem, hcov⟩))

/-- The later page, counted from the old rows and the new ones. -/
theorem laterPage_tally (r : ChartRequest)
    (hlater : ofToken token later = ofToken token olds ++ news.map Reported.row) :
    (chartRange div stamp token r later).map ChartPoint.tally
      = (laterStarts stamp olds news r).map (fun b =>
          plus (tallyAt stamp r.interval (ofToken token olds) b)
            (tallyAt stamp r.interval (news.map Reported.row) b)) := by
  rw [chartRange_tally, hlater, List.map_append, List.map_map, laterStarts]
  have hrow : (rowStart stamp r.interval ∘ Reported.row)
      = fun t : Reported usdc token =>
          bucketStart r.interval (stamp t.log.blockHash) := by
    funext t
    rw [Function.comp_apply, rowStart, (volume_gap t).blockHash]
  rw [hrow]
  refine List.map_congr_left ?_
  intro b _
  rw [tallyAt_append]

/-- **WHEN THE OVERLAY AGREES.**  Exactly if in every minute the curve's buys
    and its sells paid the same fees. -/
theorem overlay_agrees_iff
    (hlater : ofToken token later = ofToken token olds ++ news.map Reported.row)
    (hfollows : ∀ o ∈ ofToken token olds, ∀ t ∈ news,
      stamp o.blockHash ≤ stamp t.log.blockHash) :
    Agrees div stamp supply olds later news ↔
      ∀ m, feesIn stamp news buyFee m = feesIn stamp news sellFee m := by
  constructor
  · intro h m
    -- look at the whole page of minutes, at this minute
    have hminute : ∀ ts, decide (bucketStart .m1 ts = ((m * 60 : Nat) : Int))
        = decide (ts / 60 = m) := by
      intro ts
      refine decide_eq_decide.mpr ?_
      simp only [bucketStart, ChartInterval.weekly, ChartInterval.seconds,
        reduceCtorEq, decide_false, Bool.false_eq_true, if_false]
      omega
    by_cases hnone : ∃ t ∈ news, minute stamp t = m
    · obtain ⟨t, ht, htm⟩ := hnone
      set all := ascend ((ofToken token olds).map (rowStart stamp .m1)
        ++ news.map (fun t => bucketStart .m1 (stamp t.log.blockHash))) with hall
      have hpages := h.candles ⟨.m1, none, none, all.length⟩
      rw [overlaidPage_tally div stamp _ hfollows,
        laterPage_tally div stamp _ hlater] at hpages
      have hstarts : laterStarts stamp olds news ⟨.m1, none, none, all.length⟩
          = all := by
        rw [laterStarts, ← hall]
        have hcovers : all.filter
            ((⟨.m1, none, none, all.length⟩ : ChartRequest).covers ·) = all :=
          List.filter_eq_self.mpr (fun _ _ => rfl)
        rw [hcovers, List.rtake, Nat.sub_self, List.drop_zero]
      rw [hstarts] at hpages
      have hmem : ((m * 60 : Nat) : Int) ∈ all := by
        rw [hall, mem_ascend, List.mem_append]
        refine Or.inr (List.mem_map.mpr ⟨t, ht, ?_⟩)
        have := hminute (stamp t.log.blockHash)
        rw [decide_eq_decide] at this
        exact this.mpr htm
      have hat := congrArg Tally.volume
        (List.map_inj_left.mp hpages _ hmem)
      obtain ⟨-, -, -, -, hvolume⟩ := tally_group stamp news .m1
        ((m * 60 : Nat) : Int)
      simp only [plus] at hat
      have hzero : gapIn news (fun t => decide (bucketStart .m1
          (stamp t.log.blockHash) = ((m * 60 : Nat) : Int))) = 0 := by
        omega
      simp only [hminute] at hzero
      have hfees := gapIn_minute stamp news m
      unfold minute at hfees
      rw [hzero] at hfees
      omega
    · have hempty : news.filter (fun t => minute stamp t = m) = [] := by
        refine List.filter_eq_nil_iff.mpr ?_
        intro t ht hm
        exact hnone ⟨t, ht, of_decide_eq_true hm⟩
      rw [feesIn, feesIn, hempty]
      rfl
  · intro h
    have hfibre : ∀ m, groupSum (fun t : Reported usdc token => gap t.log.payload)
        (fun t => decide (minute stamp t = m)) news = 0 := by
      intro m
      have := gapIn_minute stamp news m
      rw [h m] at this
      unfold gapIn at this
      omega
    have hcoarse : ∀ g : Nat → Bool, gapIn news (fun t => g (minute stamp t)) = 0 :=
      fun g => groupSum_of_fibres g _ news le_rfl hfibre
    refine ⟨?_, ?_, ?_⟩
    · show (ofToken token olds).length + (sorted _).length
        = (ofToken token later).length
      rw [hlater, List.length_append, List.length_map, sorted,
        (List.mergeSort_perm _ _).length_eq, List.length_map]
    · show volumeOf (ofToken token olds) + ((sorted _).map realtimeVolume).sum
        = volumeOf (ofToken token later)
      rw [hlater, sorted,
        ((List.mergeSort_perm (news.map (Reported.event stamp)) _).map _).sum_eq]
      have hall := volume_group stamp news (fun _ => true)
      rw [hcoarse (fun _ => true), List.filter_true] at hall
      simp only [volumeOf, List.map_append, List.map_map, List.sum_append,
        Function.comp_def]
      omega
    · intro r
      rw [overlaidPage_tally div stamp r hfollows,
        laterPage_tally div stamp r hlater]
      refine List.map_congr_left ?_
      intro b _
      congr 1
      obtain ⟨hstart, htrades, hbuys, hsells, hvolume⟩ :=
        tally_group stamp news r.interval b
      -- the bucket is a union of minutes
      have hzero : gapIn news (fun t =>
          decide (bucketStart r.interval (stamp t.log.blockHash) = b)) = 0 := by
        have hg := hcoarse (fun m => decide (bucketStart r.interval (m * 60) = b))
        refine Eq.trans ?_ hg
        congr 1
        funext t
        rw [bucketStart_minute]
        rfl
      rw [hzero, add_zero, Nat.cast_inj] at hvolume
      revert hstart htrades hbuys hsells hvolume
      generalize eventsTally r.interval (news.map (Reported.event stamp)) b = u
      generalize tallyAt stamp r.interval (news.map Reported.row) b = v
      obtain ⟨a, c, d, e, f⟩ := u
      obtain ⟨a', c', d', e', f'⟩ := v
      rintro rfl rfl rfl rfl rfl
      rfl

end Compare

end Law

/-! ## The first buy of a curve -/

/-- One USDC, spent on a fresh curve. -/
def oneUsdcQuote : BuyQuote := insideQuote .fresh (10 ^ 18)

theorem oneUsdcQuote_quoted [MulDiv] :
    quoteBuy .fresh (10 ^ 18) = .ok oneUsdcQuote :=
  quoteBuy_inside onCurve_fresh rfl (by decide) (by decide +kernel)
    (by decide +kernel)

/-- Its log, in block 7, emitted by the curve at 3 of the token at 2. -/
def oneUsdcLog : Log :=
  ⟨3, .tokensBought 2 9 oneUsdcQuote, 7, 70, 700, 0, 0, false⟩

/-- The service's reading of it, the block being a minute into the epoch. -/
def oneUsdcEvent : Event :=
  { baseEvent 2 3 .curve .buy oneUsdcLog oneUsdcQuote.tokensOut
      oneUsdcQuote.acceptedGross 18 with blockTimestamp := some 60 }

/-- The indexer's reading of it. -/
def oneUsdcRow : TradeRow :=
  rowOf oneUsdcLog 2 9 .buy oneUsdcQuote.tokensOut oneUsdcQuote.acceptedGross
    oneUsdcQuote.netCurveInput oneUsdcQuote.protocolFee
    oneUsdcQuote.creatorFee .curve

/-- Both of them. -/
def oneUsdcBuy : @Reported exactMulDiv 1 2 :=
  @Reported.mk exactMulDiv 1 2 oneUsdcLog
    ⟨.fresh, 10 ^ 18, onCurve_fresh, @oneUsdcQuote_quoted exactMulDiv⟩
    (fun a => if a = 3 then some ⟨⟨2, 3, .curve, 0, 1⟩, .curve⟩ else none)
    ⟨⟨2, 3, .curve, 0, 1⟩, .curve⟩ rfl rfl
    { oneUsdcEvent with blockTimestamp := none } rfl
    ⟨fun _ => false, fun _ => none, fun _ => none⟩ oneUsdcRow rfl rfl

/-- **THE OVERLAY IS OVER BY THE FEE.**  After the first buy the page shows a
    volume of one USDC, the later snapshot one of 0.99. -/
theorem overlay_over_by_fee :
    ofToken 2 [oneUsdcRow] = ofToken 2 [] ++ [oneUsdcRow] ∧
    (overlayMetrics 0 (tokenMetrics (· / ·) 0 2 []) [oneUsdcEvent]).volume
      = 1000000000000000000 ∧
    (tokenMetrics (· / ·) 0 2 [oneUsdcRow]).volume = 990000000000000000 ∧
    ¬ @Agrees exactMulDiv 1 2 (· / ·) (fun _ => 60) 0 [] [oneUsdcRow]
      [oneUsdcBuy] := by
  have hover : (overlayMetrics 0 (tokenMetrics (· / ·) 0 2 [])
      [oneUsdcEvent]).volume = 1000000000000000000 := by
    decide +kernel
  have hlater : (tokenMetrics (· / ·) 0 2 [oneUsdcRow]).volume
      = 990000000000000000 := by
    decide +kernel
  refine ⟨rfl, hover, hlater, ?_⟩
  rintro ⟨-, hvolume, -⟩
  exact absurd (hover.symm.trans (hvolume.trans hlater)) (by decide)

theorem overlay_agrees_iff_oneUsdcBuy :
    @Agrees exactMulDiv 1 2 (· / ·) (fun _ => 60) 0 [] [oneUsdcRow]
        [oneUsdcBuy] ↔
      ∀ m, @feesIn exactMulDiv 1 2 (fun _ => 60) [oneUsdcBuy] buyFee m
        = @feesIn exactMulDiv 1 2 (fun _ => 60) [oneUsdcBuy] sellFee m :=
  @overlay_agrees_iff exactMulDiv 1 2 (· / ·) (fun _ => 60) 0 []
    [oneUsdcRow] [oneUsdcBuy] rfl
    (fun _ ho => absurd ho List.not_mem_nil)

end OverlayLaw
