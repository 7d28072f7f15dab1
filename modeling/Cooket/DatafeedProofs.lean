import Cooket.OverlayProofs

/-! # The bars a chart subscription is fed

    `apps/web/src/lib/tradingview-datafeed.ts` feeds the subscriptions of a
    chart from two sources that do not know of each other: `syncRealtime`
    replaces the realtime events, of all subscriptions at once, and
    `reconcileCanonical` the snapshot of one.  Each ends in
    `emitSubscription`, which lays the events over the snapshot and sends the
    last bar, or asks for a reset where that bar has gone backwards.

    What a subscription shows follows two things one can say of the calls
    alone: the latest snapshot ACCEPTED and the events CURRENT.  This file has
    the functions, says which events are current (`activeOf_spec`) and which
    bar is sent (`lastBar_isLast`). -/

namespace Datafeed

open Contract MarketLog Overlay TradeRows

/-! ## Bars -/

/-- A `TradingViewBar`, its numbers those of the display. -/
structure Bar (Num : Type) where
  time : Int
  openNumber : Num
  high : Num
  low : Num
  close : Num
  volume : Num
  deriving DecidableEq

section Model

variable {Num : Type}
variable (toNumber : Nat → Option Num)

/-- `nativeUsdc18ToDisplayNumber`: only digits are converted; `toNumber` is
    `Number` of the decimal, where it is finite. -/
def nativeUsdc18ToDisplayNumber (value : Int) : Option Num :=
  if 0 ≤ value then toNumber value.toNat else none

/-- `candleToTradingViewBar`: no bar of a candle that lacks a price. -/
def candleToTradingViewBar (point : ChartPoint) : Option (Bar Num) := do
  let openPrice ← point.openPrice
  let highPrice ← point.highPrice
  let lowPrice ← point.lowPrice
  let closePrice ← point.closePrice
  let openNumber ← nativeUsdc18ToDisplayNumber toNumber openPrice
  let high ← nativeUsdc18ToDisplayNumber toNumber highPrice
  let low ← nativeUsdc18ToDisplayNumber toNumber lowPrice
  let close ← nativeUsdc18ToDisplayNumber toNumber closePrice
  let volume ← nativeUsdc18ToDisplayNumber toNumber point.volume
  return { time := point.bucketStart * 1000, openNumber, high, low, close,
           volume }

/-! ## The datafeed -/

/-- `TRADINGVIEW_RESOLUTION_INTERVAL`. -/
def resolutionInterval : List (String × ChartInterval) :=
  [ ("1", .m1), ("5", .m5), ("15", .m15), ("60", .h1), ("240", .h4),
    ("D", .d1), ("W", .w1) ]

/-- `cooketIntervalForResolution`. -/
def cooketIntervalForResolution (resolution : String) :
    Option ChartInterval :=
  resolutionInterval.lookup resolution

/-- A `ChartPage`. -/
structure ChartPage where
  indexedThroughBlock : Option Nat
  interval : ChartInterval
  candles : List ChartPoint
  deriving DecidableEq

/-- A `Subscription`, with the interval of its resolution; of its `reset` only
    that it was supplied. -/
structure Subscription where
  interval : ChartInterval
  reset : Bool
  canonical : List ChartPoint
  indexedThroughBlock : Option Nat
  lastEmittedTime : Option Int
  deriving DecidableEq

/-- The datafeed: its map of subscriptions in the order of insertion, and the
    realtime events. -/
structure Feed where
  subscriptions : List (String × Subscription)
  realtime : List Event

/-- A callback that is made, for the listener it is made to. -/
inductive Output (Num : Type) where
  | callback (listener : String) (bar : Bar Num)
  | reset (listener : String)
  deriving DecidableEq

def Output.listener : Output Num → String
  | .callback g _ => g
  | .reset g => g

/-- `reconcileRealtimeTrades`, without canonical trades. -/
def reconcileRealtimeTrades (events : List Event)
    (indexedThroughBlock : Option Nat) : List Event :=
  sorted (events.filter fun event =>
    match indexedThroughBlock with
    | none => true
    | some block => block < event.blockNumber)

/-- The candles a subscription shows. -/
def overlaid (realtime : List Event) (canonical : List ChartPoint)
    (indexedThroughBlock : Option Nat) (interval : ChartInterval) :
    List ChartPoint :=
  overlayCandles canonical
    (reconcileRealtimeTrades realtime indexedThroughBlock) interval

/-- The last of them that makes a bar. -/
def lastBar (candles : List ChartPoint) : Option (Bar Num) :=
  (candles.filterMap (candleToTradingViewBar toNumber)).getLast?

/-- A bar that would move time backwards. -/
def backwards (lastEmittedTime : Option Int) (bar : Bar Num) : Bool :=
  match lastEmittedTime with
  | none => false
  | some time => bar.time < time

/-- The branch without a bar to send. -/
def requestReset (guid : String) (s : Subscription) :
    Subscription × List (Output Num) :=
  match s.lastEmittedTime with
  | none => (s, [])
  | some _ => ({ s with lastEmittedTime := none },
      if s.reset then [.reset guid] else [])

def emitSubscription (realtime : List Event) (guid : String)
    (s : Subscription) : Subscription × List (Output Num) :=
  match lastBar toNumber
      (overlaid realtime s.canonical s.indexedThroughBlock s.interval) with
  | none => requestReset guid s
  | some bar =>
      if backwards s.lastEmittedTime bar then requestReset guid s
      else ({ s with lastEmittedTime := some bar.time },
        [.callback guid bar])

variable (token : Address)

/-- `active.set`: in place, or at the end. -/
def setActive (event : Event) : List Event → List Event
  | [] => [event]
  | e :: es =>
      if e.identity = event.identity then event :: es
      else e :: setActive event es

/-- The body of the loop of `syncRealtime`. -/
def track (active : List Event) (event : Event) : List Event :=
  if event.token ≠ token then active
  else if event.removed then
    active.filter fun e => e.identity ≠ event.identity
  else setActive event active

/-- The events that are left. -/
def activeOf (events : List Event) : List Event :=
  events.foldl (track token) []

namespace Feed

def get (guid : String) (feed : Feed) : Option Subscription :=
  feed.subscriptions.lookup guid

/-- `subscriptions.set`. -/
def setIn (guid : String) (s : Subscription) :
    List (String × Subscription) → List (String × Subscription)
  | [] => [(guid, s)]
  | (g, t) :: rest =>
      if g = guid then (g, s) :: rest else (g, t) :: setIn guid s rest

def set (guid : String) (s : Subscription) (feed : Feed) : Feed :=
  { feed with subscriptions := setIn guid s feed.subscriptions }

end Feed

/-- The calls of the datafeed that touch subscriptions. -/
inductive Call where
  | syncRealtime (events : List Event)
  | reconcileCanonical (guid : String) (page : ChartPage)
  | subscribeBars (resolution guid : String) (reset : Bool)
  | unsubscribeBars (guid : String)

/-- The page is older than what the subscription has, or does not say. -/
def stale (indexedThroughBlock : Option Nat) (page : ChartPage) : Bool :=
  match indexedThroughBlock with
  | none => false
  | some block =>
      match page.indexedThroughBlock with
      | none => true
      | some block' => block' < block

/-- `reconcileCanonical`, for a subscription that is there. -/
def reconcile (realtime : List Event) (guid : String) (page : ChartPage)
    (s : Subscription) : Subscription × List (Output Num) :=
  if page.interval ≠ s.interval then (s, [])
  else if stale s.indexedThroughBlock page then (s, [])
  else emitSubscription toNumber realtime guid
    { s with canonical := page.candles
             indexedThroughBlock := page.indexedThroughBlock }

def step (feed : Feed) : Call → Feed × List (Output Num)
  | .syncRealtime events =>
      let realtime := activeOf token events
      let emitted := feed.subscriptions.map fun entry =>
        (entry.1, emitSubscription toNumber realtime entry.1 entry.2)
      ({ subscriptions := emitted.map fun entry => (entry.1, entry.2.1)
         realtime := realtime },
        emitted.flatMap fun entry => entry.2.2)
  | .reconcileCanonical guid page =>
      match feed.get guid with
      | none => (feed, [])
      | some s =>
          let done := reconcile toNumber feed.realtime guid page s
          (feed.set guid done.1, done.2)
  | .subscribeBars resolution guid reset =>
      match cooketIntervalForResolution resolution with
      | none => (feed, [])
      | some interval =>
          (feed.set guid
            { interval := interval, reset := reset, canonical := []
              indexedThroughBlock := none, lastEmittedTime := none }, [])
  | .unsubscribeBars guid =>
      ({ feed with subscriptions :=
          feed.subscriptions.filter fun entry => entry.1 ≠ guid }, [])

def run (feed : Feed) : List Call → Feed × List (Output Num)
  | [] => (feed, [])
  | call :: calls =>
      let first := step toNumber token feed call
      let rest := run first.1 calls
      (rest.1, first.2 ++ rest.2)

/-- A new datafeed. -/
def initial : Feed := { subscriptions := [], realtime := [] }

/-! ## What one can say of the calls -/

/-- The calls that leave a subscription in place. -/
def Keeps (guid : String) : Call → Prop
  | .subscribeBars resolution g _ =>
      g ≠ guid ∨ cooketIntervalForResolution resolution = none
  | .unsubscribeBars g => g ≠ guid
  | _ => True

/-- The events of the last `syncRealtime`. -/
def current (calls : List Call) : List Event :=
  calls.foldl (fun events call => match call with
    | .syncRealtime new => activeOf token new
    | _ => events) []

/-- The latest snapshot a subscription accepted: of its interval, and none
    that is stale after the one before. -/
def latestFrom (interval : ChartInterval) (guid : String) :
    Option ChartPage → List Call → Option ChartPage :=
  List.foldl fun last call => match call with
    | .reconcileCanonical g page =>
        if g = guid ∧ page.interval = interval ∧
          stale (last.bind ChartPage.indexedThroughBlock) page = false
        then some page else last
    | _ => last

/-- The candles of a snapshot under the events after its block. -/
def shownCandles (interval : ChartInterval) (events : List Event)
    (snapshot : Option ChartPage) : List ChartPoint :=
  overlaid events ((snapshot.map ChartPage.candles).getD [])
    (snapshot.bind ChartPage.indexedThroughBlock) interval

/-- The bar of the one candle that comes after all others that make one. -/
def IsLast (candles : List ChartPoint) (bar : Bar Num) : Prop :=
  ∃ c ∈ candles, candleToTradingViewBar toNumber c = some bar ∧
    ∀ d ∈ candles, candleToTradingViewBar toNumber d ≠ none →
      d = c ∨ d.bucketStart < c.bucketStart

/-- An event that counts: it was reported for the token, and the last report
    of its identity is not a removal. -/
def Current (events : List Event) (e : Event) : Prop :=
  ∃ before after, events = before ++ e :: after ∧ e.token = token ∧
    e.removed = false ∧
    ∀ later ∈ after, later.token = token → later.identity ≠ e.identity

end Model

/-! ## The current events -/

theorem current_concat {token : Address} {events : List Event}
    {x e : Event} :
    Current token (events ++ [x]) e ↔
      (e = x ∧ x.token = token ∧ x.removed = false) ∨
      (Current token events e ∧
        (x.token = token → x.identity ≠ e.identity)) := by
  constructor
  · rintro ⟨before, after, hsplit, htoken, hremoved, hlater⟩
    rcases List.eq_nil_or_concat' after with rfl | ⟨after', y, rfl⟩
    · obtain ⟨-, hx⟩ := List.append_inj' hsplit rfl
      cases hx
      exact Or.inl ⟨rfl, htoken, hremoved⟩
    · rw [show before ++ e :: (after' ++ [y]) =
        (before ++ e :: after') ++ [y] by simp] at hsplit
      obtain ⟨hevents, hy⟩ := List.append_inj' hsplit rfl
      cases hy
      refine Or.inr ⟨⟨before, after', hevents, htoken, hremoved, ?_⟩, ?_⟩
      · intro later hmem
        exact hlater later (List.mem_append_left _ hmem)
      · exact hlater x (by simp)
  · rintro (⟨rfl, htoken, hremoved⟩ |
      ⟨⟨before, after, rfl, htoken, hremoved, hlater⟩, hx⟩)
    · exact ⟨events, [], rfl, htoken, hremoved, fun l hl => nomatch hl⟩
    · refine ⟨before, after ++ [x], by simp, htoken, hremoved, ?_⟩
      intro later hmem
      rcases List.mem_append.mp hmem with h | h
      · exact hlater later h
      · rw [List.mem_singleton.mp h]
        exact hx

/-- `active.set` puts the event in the place of the one of its identity. -/
theorem setActive_spec (x : Event) {es : List Event}
    (h : (es.map Event.identity).Nodup) :
    ((setActive x es).map Event.identity).Nodup ∧
    ∀ e, e ∈ setActive x es ↔
      e = x ∨ (e ∈ es ∧ e.identity ≠ x.identity) := by
  induction es with
  | nil => simp [setActive]
  | cons a es ih =>
      rw [List.map_cons, List.nodup_cons] at h
      obtain ⟨ha, hrest⟩ := h
      obtain ⟨hnodup, hmem⟩ := ih hrest
      have hout : ∀ e ∈ es, e.identity ≠ a.identity := by
        intro e he heq
        exact ha (List.mem_map.mpr ⟨e, he, heq⟩)
      rw [setActive]
      split
      case isTrue heq =>
          refine ⟨?_, ?_⟩
          · rw [List.map_cons, List.nodup_cons, ← heq]
            exact ⟨ha, hrest⟩
          · intro e
            rw [List.mem_cons, List.mem_cons]
            constructor
            · rintro (rfl | he)
              · exact Or.inl rfl
              · exact Or.inr ⟨Or.inr he, heq ▸ hout e he⟩
            · rintro (rfl | ⟨rfl | he, hne⟩)
              · exact Or.inl rfl
              · exact absurd heq hne
              · exact Or.inr he
      case isFalse hne =>
          refine ⟨?_, ?_⟩
          · rw [List.map_cons, List.nodup_cons]
            refine ⟨?_, hnodup⟩
            intro hin
            obtain ⟨e, he, heq⟩ := List.mem_map.mp hin
            rcases (hmem e).mp he with rfl | ⟨he', -⟩
            · exact hne heq.symm
            · exact hout e he' heq
          · intro e
            rw [List.mem_cons, List.mem_cons, hmem]
            constructor
            · rintro (rfl | rfl | ⟨he, hx⟩)
              · exact Or.inr ⟨Or.inl rfl, hne⟩
              · exact Or.inl rfl
              · exact Or.inr ⟨Or.inr he, hx⟩
            · rintro (rfl | ⟨rfl | he, hx⟩)
              · exact Or.inr (Or.inl rfl)
              · exact Or.inl rfl
              · exact Or.inr (Or.inr ⟨he, hx⟩)

/-- **THE CURRENT EVENTS** are what `syncRealtime` keeps, one an identity. -/
theorem activeOf_spec (token : Address) (events : List Event) :
    ((activeOf token events).map Event.identity).Nodup ∧
    ∀ e, e ∈ activeOf token events ↔ Current token events e := by
  induction events using List.reverseRecOn with
  | nil =>
      refine ⟨List.nodup_nil, ?_⟩
      intro e
      refine iff_of_false (fun h => nomatch h) ?_
      rintro ⟨before, after, h, -⟩
      cases before <;> cases h
  | append_singleton events x ih =>
      obtain ⟨hnodup, hmem⟩ := ih
      have hstep : activeOf token (events ++ [x]) =
          track token (activeOf token events) x := by
        rw [activeOf, List.foldl_append]
        rfl
      rw [hstep]
      simp only [current_concat]
      unfold track
      split
      case isTrue hother =>
          refine ⟨hnodup, ?_⟩
          intro e
          rw [hmem]
          constructor
          · intro h
            exact Or.inr ⟨h, fun h' => absurd h' hother⟩
          · rintro (⟨-, h, -⟩ | ⟨h, -⟩)
            · exact absurd h hother
            · exact h
      case isFalse hours =>
          have hours : x.token = token := not_not.mp hours
          split
          case isTrue hremoved =>
              refine ⟨(List.filter_sublist.map _).nodup hnodup, ?_⟩
              intro e
              rw [List.mem_filter, hmem, decide_eq_true_eq]
              constructor
              · rintro ⟨h, hne⟩
                exact Or.inr ⟨h, fun _ => hne.symm⟩
              · rintro (⟨-, -, h⟩ | ⟨h, hne⟩)
                · rw [hremoved] at h
                  cases h
                · exact ⟨h, (hne hours).symm⟩
          case isFalse hkept =>
              have hkept : x.removed = false := Bool.eq_false_iff.mpr hkept
              obtain ⟨hnodup', hmem'⟩ := setActive_spec x hnodup
              refine ⟨hnodup', ?_⟩
              intro e
              rw [hmem', hmem]
              constructor
              · rintro (rfl | ⟨h, hne⟩)
                · exact Or.inl ⟨rfl, hours, hkept⟩
                · exact Or.inr ⟨h, fun _ => hne.symm⟩
              · rintro (⟨rfl, -, -⟩ | ⟨h, hne⟩)
                · exact Or.inl rfl
                · exact Or.inr ⟨h, (hne hours).symm⟩

/-! ## The last bar -/

/-- The overlay has one candle a bucket, in order. -/
theorem overlaid_ascending (realtime : List Event)
    (canonical : List ChartPoint) (block : Option Nat)
    (interval : ChartInterval) :
    (overlaid realtime canonical block interval).Pairwise
      (fun a b => a.bucketStart < b.bucketStart) := by
  have hmap : ∀ (cs acc : List ChartPoint), (startsOf acc).Nodup →
      (startsOf (cs.foldl (fun cs c => setBucket c cs) acc)).Nodup := by
    intro cs
    induction cs with
    | nil => exact fun _ h => h
    | cons c cs ih => exact fun acc h => ih _ (nodup_setBucket c h)
  have hloop : ∀ (es : List Event) (cs : List ChartPoint),
      (startsOf cs).Nodup →
      (startsOf (es.foldl (overlayEvent interval) cs)).Nodup := by
    intro es
    induction es with
    | nil => exact fun _ h => h
    | cons e es ih =>
        exact fun cs h => ih _ (nodup_overlayEvent interval e h)
  have hnodup := hloop (sorted (reconcileRealtimeTrades realtime block)) _
    (hmap canonical [] List.nodup_nil)
  unfold overlaid overlayCandles
  dsimp only
  generalize List.foldl (overlayEvent interval) _ _ = cs at hnodup
  have hperm := List.mergeSort_perm cs
    (fun a b => decide (a.bucketStart ≤ b.bucketStart))
  have hle : (cs.mergeSort
      (fun a b => a.bucketStart ≤ b.bucketStart)).Pairwise
        (fun a b => a.bucketStart ≤ b.bucketStart) := by
    have htrans : ∀ a b c : ChartPoint,
        decide (a.bucketStart ≤ b.bucketStart) = true →
        decide (b.bucketStart ≤ c.bucketStart) = true →
        decide (a.bucketStart ≤ c.bucketStart) = true := by
      intro a b c
      simp only [decide_eq_true_eq]
      exact le_trans
    have htotal : ∀ a b : ChartPoint, (decide (a.bucketStart ≤ b.bucketStart)
        || decide (b.bucketStart ≤ a.bucketStart)) = true := by
      intro a b
      rw [Bool.or_eq_true, decide_eq_true_eq, decide_eq_true_eq]
      exact le_total _ _
    exact (List.pairwise_mergeSort htrans htotal cs).imp
      (fun h => of_decide_eq_true h)
  have hne : (cs.mergeSort
      (fun a b => a.bucketStart ≤ b.bucketStart)).Pairwise
        (fun a b => a.bucketStart ≠ b.bucketStart) := by
    rw [← List.pairwise_map (f := ChartPoint.bucketStart)]
    exact (hperm.map _).nodup_iff.mpr hnodup
  exact hle.imp₂ (fun _ _ h h' => lt_of_le_of_ne h h') hne

/-- Of the elements a function has a value for, the last of a list that is in
    relation comes after the others. -/
theorem getLast_filterMap {α β : Type} {f : α → Option β}
    {R : α → α → Prop} {l : List α} (hl : l.Pairwise R) {b : β}
    (h : (l.filterMap f).getLast? = some b) :
    ∃ a ∈ l, f a = some b ∧ ∀ d ∈ l, f d ≠ none → d = a ∨ R d a := by
  induction l using List.reverseRecOn with
  | nil => cases h
  | append_singleton l x ih =>
      obtain ⟨hl, -, hx⟩ := List.pairwise_append.mp hl
      rw [List.filterMap_append] at h
      cases hfx : f x with
      | some y =>
          have hlast : List.filterMap f [x] = [y] := by simp [hfx]
          rw [hlast, List.getLast?_concat] at h
          cases h
          refine ⟨x, by simp, hfx, ?_⟩
          intro d hd _
          rcases List.mem_append.mp hd with hd | hd
          · exact Or.inr (hx d hd x (by simp))
          · exact Or.inl (List.mem_singleton.mp hd)
      | none =>
          have hlast : List.filterMap f [x] = [] := by simp [hfx]
          rw [hlast, List.append_nil] at h
          obtain ⟨a, ha, hfa, hafter⟩ := ih hl h
          refine ⟨a, List.mem_append_left _ ha, hfa, ?_⟩
          intro d hd hfd
          rcases List.mem_append.mp hd with hd | hd
          · exact hafter d hd hfd
          · rw [List.mem_singleton.mp hd] at hfd
            exact absurd hfx hfd

section Laws

variable {Num : Type} {toNumber : Nat → Option Num} {token : Address}

theorem lastBar_isLast {realtime : List Event} {canonical : List ChartPoint}
    {block : Option Nat} {interval : ChartInterval} {bar : Bar Num}
    (h : lastBar toNumber (overlaid realtime canonical block interval) =
      some bar) :
    IsLast toNumber (overlaid realtime canonical block interval) bar :=
  getLast_filterMap (overlaid_ascending _ _ _ _) h

end Laws

end Datafeed
