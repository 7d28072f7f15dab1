import Cooket.DatafeedProofs

/-! # The law of the datafeed — every run of calls

    A subscription sees only its own part of the feed: while it is kept, it
    does as it would alone (`step_lone`).  Alone, it follows the latest
    accepted snapshot and the current events (`loneStep_spec`), and what its
    listener hears is STEADY: a bar is not before the one heard last, unless a
    reset came between.

    `datafeed_law` is the law of every run of calls from a subscription on:
    times do not go back between two resets, every bar is the last one of the
    latest accepted snapshot under the current events, and a stale snapshot
    might as well not have come. -/

namespace Datafeed

open Contract MarketLog Overlay TradeRows

section Laws

variable {Num : Type} {toNumber : Nat → Option Num} {token : Address}

/-! ## One subscription of many -/

/-- What one listener hears. -/
def heard (guid : String) (outs : List (Output Num)) : List (Output Num) :=
  outs.filter fun o => o.listener = guid

/-- A map has one entry a key. -/
def Feed.Distinct (feed : Feed) : Prop :=
  (feed.subscriptions.map Prod.fst).Nodup

theorem lookup_map {F : String → Subscription → Subscription}
    (guid : String) (subs : List (String × Subscription)) :
    (subs.map fun entry => (entry.1, F entry.1 entry.2)).lookup guid =
      (subs.lookup guid).map (F guid) := by
  induction subs with
  | nil => rfl
  | cons entry subs ih =>
      obtain ⟨g, s⟩ := entry
      rw [List.map_cons, List.lookup_cons, List.lookup_cons]
      by_cases h : guid = g
      · subst h
        simp
      · rw [beq_false_of_ne h]
        exact ih

theorem lookup_setIn (g guid : String) (s : Subscription)
    (subs : List (String × Subscription)) :
    (Feed.setIn g s subs).lookup guid =
      if g = guid then some s else subs.lookup guid := by
  induction subs with
  | nil =>
      by_cases h : g = guid
      · simp [Feed.setIn, h]
      · rw [if_neg h]
        simp [Feed.setIn, List.lookup_cons, beq_false_of_ne (Ne.symm h)]
  | cons entry subs ih =>
      obtain ⟨k, t⟩ := entry
      rw [Feed.setIn]
      by_cases hk : k = g
      · subst hk
        rw [if_pos rfl, List.lookup_cons, List.lookup_cons]
        by_cases h : k = guid
        · subst h
          simp
        · rw [if_neg h, beq_false_of_ne (Ne.symm h)]
      · rw [if_neg hk, List.lookup_cons, List.lookup_cons, ih]
        by_cases h : k = guid
        · subst h
          simp [Ne.symm hk]
        · rw [beq_false_of_ne (Ne.symm h)]

theorem keys_setIn (g : String) (s : Subscription)
    (subs : List (String × Subscription)) (k : String) :
    k ∈ (Feed.setIn g s subs).map Prod.fst ↔
      k = g ∨ k ∈ subs.map Prod.fst := by
  induction subs with
  | nil => simp [Feed.setIn]
  | cons entry subs ih =>
      obtain ⟨k', t⟩ := entry
      rw [Feed.setIn]
      by_cases hk : k' = g
      · rw [if_pos hk]
        simp [hk]
      · rw [if_neg hk, List.map_cons, List.mem_cons, ih, List.map_cons,
          List.mem_cons]
        tauto

theorem distinct_setIn (g : String) (s : Subscription)
    {subs : List (String × Subscription)}
    (h : (subs.map Prod.fst).Nodup) :
    ((Feed.setIn g s subs).map Prod.fst).Nodup := by
  induction subs with
  | nil => simp [Feed.setIn]
  | cons entry subs ih =>
      obtain ⟨k, t⟩ := entry
      rw [List.map_cons, List.nodup_cons] at h
      rw [Feed.setIn]
      by_cases hk : k = g
      · rw [if_pos hk, List.map_cons, List.nodup_cons]
        exact h
      · rw [if_neg hk, List.map_cons, List.nodup_cons, keys_setIn]
        refine ⟨?_, ih h.2⟩
        rintro (heq | hmem)
        · exact hk heq
        · exact h.1 hmem

theorem lookup_filter {g guid : String} (h : g ≠ guid)
    (subs : List (String × Subscription)) :
    (subs.filter fun entry => entry.1 ≠ g).lookup guid =
      subs.lookup guid := by
  induction subs with
  | nil => rfl
  | cons entry subs ih =>
      obtain ⟨k, t⟩ := entry
      rw [List.filter_cons, List.lookup_cons]
      by_cases hk : k = g
      · subst hk
        rw [if_neg (by simp), ih, beq_false_of_ne (Ne.symm h)]
      · rw [if_pos (by simpa using hk), List.lookup_cons, ih]

theorem requestReset_listener {guid : String} {s : Subscription} :
    ∀ o ∈ (requestReset guid s : Subscription × List (Output Num)).2,
      o.listener = guid := by
  intro o ho
  unfold requestReset at ho
  split at ho
  case h_1 => cases ho
  case h_2 =>
      cases hr : s.reset with
      | false =>
          rw [hr] at ho
          cases ho
      | true =>
          rw [hr] at ho
          rw [List.mem_singleton.mp ho]
          rfl

/-- What a subscription emits goes to its own listener. -/
theorem emitSubscription_listener {realtime : List Event} {guid : String}
    {s : Subscription} :
    ∀ o ∈ (emitSubscription toNumber realtime guid s).2,
      o.listener = guid := by
  intro o ho
  unfold emitSubscription at ho
  split at ho
  case h_1 => exact requestReset_listener o ho
  case h_2 =>
      split at ho
      case isTrue => exact requestReset_listener o ho
      case isFalse =>
          rw [List.mem_singleton.mp ho]
          rfl

theorem reconcile_listener {realtime : List Event} {guid : String}
    {page : ChartPage} {s : Subscription} :
    ∀ o ∈ (reconcile toNumber realtime guid page s).2,
      o.listener = guid := by
  intro o ho
  unfold reconcile at ho
  split at ho
  case isTrue => cases ho
  case isFalse =>
      split at ho
      case isTrue => cases ho
      case isFalse => exact emitSubscription_listener o ho

theorem heard_own {guid : String} {outs : List (Output Num)}
    (h : ∀ o ∈ outs, o.listener = guid) : heard guid outs = outs := by
  rw [heard, List.filter_eq_self]
  intro o ho
  exact decide_eq_true (h o ho)

theorem heard_other {g guid : String} (hne : g ≠ guid)
    {outs : List (Output Num)} (h : ∀ o ∈ outs, o.listener = g) :
    heard guid outs = [] := by
  rw [heard, List.filter_eq_nil_iff]
  intro o ho heq
  exact hne ((h o ho).symm.trans (of_decide_eq_true heq))

/-- Of a round of emissions a listener hears its own. -/
theorem heard_round {realtime : List Event} {guid : String}
    {s : Subscription} :
    ∀ {subs : List (String × Subscription)},
      (subs.map Prod.fst).Nodup → subs.lookup guid = some s →
      heard guid (subs.flatMap fun entry =>
        (emitSubscription toNumber realtime entry.1 entry.2).2) =
      (emitSubscription toNumber realtime guid s).2 := by
  have habsent : ∀ {subs : List (String × Subscription)},
      guid ∉ subs.map Prod.fst →
      heard guid (subs.flatMap fun entry =>
        (emitSubscription toNumber realtime entry.1 entry.2).2) = [] := by
    intro subs hout
    rw [heard, List.filter_eq_nil_iff]
    intro o ho heq
    obtain ⟨entry, hentry, ho⟩ := List.mem_flatMap.mp ho
    rw [decide_eq_true_eq, emitSubscription_listener o ho] at heq
    exact hout (List.mem_map.mpr ⟨entry, hentry, heq⟩)
  intro subs
  induction subs with
  | nil =>
      intro _ h
      cases h
  | cons entry subs ih =>
      intro hnodup hget
      obtain ⟨g, t⟩ := entry
      rw [List.map_cons, List.nodup_cons] at hnodup
      rw [List.lookup_cons] at hget
      rw [List.flatMap_cons, heard, List.filter_append]
      by_cases hg : guid = g
      · subst hg
        rw [beq_self_eq_true] at hget
        cases hget
        have hrest := habsent hnodup.1
        rw [heard] at hrest
        rw [hrest, List.append_nil]
        exact heard_own emitSubscription_listener
      · rw [beq_false_of_ne hg] at hget
        have hown := heard_other (Ne.symm hg)
          (@emitSubscription_listener Num toNumber realtime g t)
        rw [heard] at hown
        show List.filter _ (emitSubscription toNumber realtime g t).2 ++
          List.filter _ _ = _
        rw [hown, List.nil_append]
        exact ih hnodup.2 hget

/-- A subscription on its own, with the events of the feed. -/
def loneStep (toNumber : Nat → Option Num) (token : Address) (guid : String)
    (p : List Event × Subscription) :
    Call → (List Event × Subscription) × List (Output Num)
  | .syncRealtime events =>
      let realtime := activeOf token events
      let done := emitSubscription toNumber realtime guid p.2
      ((realtime, done.1), done.2)
  | .reconcileCanonical g page =>
      if g = guid then
        let done := reconcile toNumber p.1 guid page p.2
        ((p.1, done.1), done.2)
      else (p, [])
  | _ => (p, [])

theorem step_distinct {feed : Feed} (h : feed.Distinct) (call : Call) :
    (step toNumber token feed call).1.Distinct := by
  cases call with
  | syncRealtime events =>
      show ((List.map _ (List.map _ feed.subscriptions)).map
        Prod.fst).Nodup
      rw [List.map_map, List.map_map]
      exact h
  | reconcileCanonical g page =>
      cases hget : feed.get g with
      | none =>
          simp only [step, hget]
          exact h
      | some s =>
          simp only [step, hget]
          exact distinct_setIn _ _ h
  | subscribeBars resolution g reset =>
      cases hr : cooketIntervalForResolution resolution with
      | none =>
          simp only [step, hr]
          exact h
      | some interval =>
          simp only [step, hr]
          exact distinct_setIn _ _ h
  | unsubscribeBars g =>
      exact (List.filter_sublist.map _).nodup h

/-- **ONE OF MANY**: while it is kept, a subscription of the feed does as it
    would on its own, and its listener hears what it emits. -/
theorem step_lone {feed : Feed} {guid : String} {s : Subscription}
    {call : Call} (hdistinct : feed.Distinct)
    (hget : feed.get guid = some s) (hkeeps : Keeps guid call) :
    ∃ s', (step toNumber token feed call).1.get guid = some s' ∧
      loneStep toNumber token guid (feed.realtime, s) call =
        (((step toNumber token feed call).1.realtime, s'),
          heard guid (step toNumber token feed call).2) := by
  cases call with
  | syncRealtime events =>
      refine ⟨(emitSubscription toNumber (activeOf token events) guid s).1,
        ?_, ?_⟩
      · show (List.map _ (List.map _ feed.subscriptions)).lookup guid = _
        rw [List.map_map]
        refine (lookup_map (F := fun g t => (emitSubscription toNumber
          (activeOf token events) g t).1) guid feed.subscriptions).trans ?_
        rw [show feed.subscriptions.lookup guid = some s from hget]
        rfl
      · have hround := @heard_round Num toNumber (activeOf token events)
          guid s feed.subscriptions hdistinct hget
        show ((_, _), _) = ((_, _), heard guid (List.flatMap _
          (List.map _ feed.subscriptions)))
        rw [List.flatMap_map]
        exact congrArg _ hround.symm
  | reconcileCanonical g page =>
      by_cases hg : g = guid
      · subst hg
        refine ⟨(reconcile toNumber feed.realtime g page s).1, ?_, ?_⟩
        · simp only [step, hget]
          show (Feed.setIn g _ feed.subscriptions).lookup g = _
          rw [lookup_setIn, if_pos rfl]
        · simp only [loneStep, if_pos, step, hget, Feed.set,
            heard_own reconcile_listener]
      · cases hother : feed.get g with
        | none =>
            refine ⟨s, ?_, ?_⟩
            · simp only [step, hother]
              exact hget
            · simp only [loneStep, if_neg hg, step, hother]
              rfl
        | some t =>
            refine ⟨s, ?_, ?_⟩
            · simp only [step, hother]
              show (Feed.setIn g _ feed.subscriptions).lookup guid = _
              rw [lookup_setIn, if_neg hg]
              exact hget
            · simp only [loneStep, if_neg hg, step, hother, Feed.set,
                heard_other hg reconcile_listener]
  | subscribeBars resolution g reset =>
      cases hr : cooketIntervalForResolution resolution with
      | none =>
          refine ⟨s, ?_, ?_⟩
          · simp only [step, hr]
            exact hget
          · simp only [loneStep, step, hr]
            rfl
      | some interval =>
          have hg : g ≠ guid := by
            rcases hkeeps with h | h
            · exact h
            · rw [hr] at h
              cases h
          refine ⟨s, ?_, ?_⟩
          · simp only [step, hr]
            show (Feed.setIn g _ feed.subscriptions).lookup guid = _
            rw [lookup_setIn, if_neg hg]
            exact hget
          · simp only [loneStep, step, hr]
            rfl
  | unsubscribeBars g =>
      refine ⟨s, ?_, rfl⟩
      exact (lookup_filter hkeeps feed.subscriptions).trans hget

/-! ## What a subscription follows -/

/-- What is heard from a time on: no bar goes back, until a reset. -/
def Steady : Option Int → List (Output Num) → Prop
  | _, [] => True
  | last, .callback _ bar :: rest =>
      (∀ time ∈ last, time ≤ bar.time) ∧ Steady (some bar.time) rest
  | _, .reset _ :: rest => Steady none rest

/-- Bars that are heard in a row do not go back. -/
theorem Steady.bars {guid : String} {post : List (Output Num)} :
    ∀ {bars : List (Bar Num)} {last : Option Int},
      Steady last (bars.map (Output.callback guid) ++ post) →
      (∀ time ∈ last, ∀ bar ∈ bars, time ≤ bar.time) ∧
      bars.Pairwise (fun a b => a.time ≤ b.time) := by
  intro bars
  induction bars with
  | nil =>
      intro last _
      exact ⟨fun _ _ _ h => (nomatch h), List.Pairwise.nil⟩
  | cons bar bars ih =>
      intro last h
      obtain ⟨hfirst, hrest⟩ := h
      obtain ⟨hall, hpair⟩ := ih hrest
      refine ⟨?_, List.pairwise_cons.mpr ⟨hall bar.time rfl, hpair⟩⟩
      intro time htime b hb
      rcases List.mem_cons.mp hb with rfl | hb
      · exact hfirst time htime
      · exact le_trans (hfirst time htime) (hall bar.time rfl b hb)

theorem Steady.drop {post : List (Output Num)} :
    ∀ {pre : List (Output Num)} {last : Option Int},
      Steady last (pre ++ post) → ∃ last', Steady last' post := by
  intro pre
  induction pre with
  | nil => exact fun h => ⟨_, h⟩
  | cons o pre ih =>
      intro last h
      cases o with
      | callback g bar => exact ih h.2
      | reset g => exact ih h

/-- **ONE EMISSION** of a subscription that has a reset: it keeps all but the
    time, sends only the last bar, and is steady. -/
theorem emitSubscription_spec {realtime : List Event} {guid : String}
    {s : Subscription} (hreset : s.reset = true) :
    (∃ time, (emitSubscription toNumber realtime guid s).1 =
      { s with lastEmittedTime := time }) ∧
    (∀ g bar, .callback g bar ∈
      (emitSubscription toNumber realtime guid s).2 →
        lastBar toNumber (overlaid realtime s.canonical
          s.indexedThroughBlock s.interval) = some bar) ∧
    ∀ rest, Steady
      (emitSubscription toNumber realtime guid s).1.lastEmittedTime rest →
        Steady s.lastEmittedTime
          ((emitSubscription toNumber realtime guid s).2 ++ rest) := by
  have hrequest : (∃ time, (requestReset guid s :
        Subscription × List (Output Num)).1 =
          { s with lastEmittedTime := time }) ∧
      (∀ g bar, .callback g bar ∉ (requestReset guid s :
        Subscription × List (Output Num)).2) ∧
      ∀ rest : List (Output Num), Steady (requestReset guid s :
        Subscription × List (Output Num)).1.lastEmittedTime rest →
          Steady s.lastEmittedTime ((requestReset guid s).2 ++ rest) := by
    unfold requestReset
    split
    case h_1 hnone =>
        exact ⟨⟨s.lastEmittedTime, rfl⟩, fun _ _ h => (nomatch h),
          fun _ h => h⟩
    case h_2 time _ =>
        rw [hreset]
        refine ⟨⟨none, rfl⟩, ?_, fun _ h => h⟩
        intro g bar h
        cases List.mem_singleton.mp h
  obtain ⟨hkeep, hnobar, hsteady⟩ := hrequest
  unfold emitSubscription
  split
  case h_1 =>
      exact ⟨hkeep, fun g bar h => absurd h (hnobar g bar), hsteady⟩
  case h_2 bar hbar =>
      split
      case isTrue =>
          exact ⟨hkeep, fun g bar h => absurd h (hnobar g bar), hsteady⟩
      case isFalse hforward =>
          refine ⟨⟨some bar.time, rfl⟩, ?_, ?_⟩
          · intro g bar' h
            cases List.mem_singleton.mp h
            exact hbar
          · intro rest h
            refine ⟨?_, h⟩
            intro time htime
            rw [Option.mem_def] at htime
            simp only [backwards, htime, decide_eq_true_eq, not_lt]
              at hforward
            exact hforward

/-- A subscription that follows the events and the snapshot. -/
structure Tracks (interval : ChartInterval) (events : List Event)
    (snapshot : Option ChartPage) (realtime : List Event)
    (s : Subscription) : Prop where
  realtime_eq : realtime = events
  interval_eq : s.interval = interval
  reset_eq : s.reset = true
  canonical_eq : s.canonical = (snapshot.map ChartPage.candles).getD []
  block_eq : s.indexedThroughBlock =
    snapshot.bind ChartPage.indexedThroughBlock

/-- The events after one more call. -/
def nextEvents (token : Address) (events : List Event) : Call → List Event
  | .syncRealtime new => activeOf token new
  | _ => events

theorem current_append_call (calls : List Call) (call : Call) :
    current token (calls ++ [call]) =
      nextEvents token (current token calls) call := by
  rw [current, List.foldl_append]
  cases call <;> rfl

/-- **THE STEP**: one call keeps a subscription on track, is steady, and sends
    only the last bar of what the subscription then follows. -/
theorem loneStep_spec {interval : ChartInterval} {events : List Event}
    {snapshot : Option ChartPage} {guid : String} {realtime : List Event}
    {s : Subscription}
    (h : Tracks interval events snapshot realtime s) (call : Call) :
    Tracks interval (nextEvents token events call)
      (latestFrom interval guid snapshot [call])
      (loneStep toNumber token guid (realtime, s) call).1.1
      (loneStep toNumber token guid (realtime, s) call).1.2 ∧
    (∀ g bar, .callback g bar ∈
      (loneStep toNumber token guid (realtime, s) call).2 →
        IsLast toNumber (shownCandles interval (nextEvents token events call)
          (latestFrom interval guid snapshot [call])) bar) ∧
    ∀ rest, Steady (loneStep toNumber token guid
        (realtime, s) call).1.2.lastEmittedTime rest →
      Steady s.lastEmittedTime
        ((loneStep toNumber token guid (realtime, s) call).2 ++ rest) := by
  have hquiet : (∀ g bar, .callback g bar ∈ ([] : List (Output Num)) →
      IsLast toNumber (shownCandles interval events snapshot) bar) ∧
      ∀ rest : List (Output Num), Steady s.lastEmittedTime rest →
        Steady s.lastEmittedTime ([] ++ rest) :=
    ⟨fun _ _ h => (nomatch h), fun _ h => h⟩
  cases call with
  | syncRealtime new =>
      obtain ⟨⟨time, hkeep⟩, hbar, hsteady⟩ :=
        @emitSubscription_spec Num toNumber (activeOf token new) guid s
          h.reset_eq
      refine ⟨?_, ?_, hsteady⟩
      · show Tracks _ _ _ (activeOf token new)
          (emitSubscription toNumber (activeOf token new) guid s).1
        rw [hkeep]
        exact ⟨rfl, h.interval_eq, h.reset_eq, h.canonical_eq, h.block_eq⟩
      · intro g bar hmem
        have hlast := hbar g bar hmem
        rw [h.canonical_eq, h.block_eq, h.interval_eq] at hlast
        exact lastBar_isLast hlast
  | reconcileCanonical g page =>
      by_cases hg : g = guid
      · subst hg
        by_cases hother : page.interval ≠ s.interval
        · have hlatest : latestFrom interval g snapshot
              [.reconcileCanonical g page] = snapshot := by
            refine if_neg ?_
            rintro ⟨-, hint, -⟩
            exact hother (hint.trans h.interval_eq.symm)
          simp only [loneStep, if_pos, reconcile, if_pos hother, hlatest,
            nextEvents]
          exact ⟨h, hquiet⟩
        · have hint : page.interval = s.interval := not_not.mp hother
          cases hstale : stale s.indexedThroughBlock page with
          | true =>
              have hlatest : latestFrom interval g snapshot
                  [.reconcileCanonical g page] = snapshot := by
                refine if_neg ?_
                rintro ⟨-, -, hfresh⟩
                rw [← h.block_eq, hstale] at hfresh
                cases hfresh
              simp only [loneStep, if_pos, reconcile, if_neg hother, hstale,
                hlatest, nextEvents]
              exact ⟨h, hquiet⟩
          | false =>
              have hlatest : latestFrom interval g snapshot
                  [.reconcileCanonical g page] = some page := by
                refine if_pos ⟨rfl, hint.trans h.interval_eq, ?_⟩
                rw [← h.block_eq]
                exact hstale
              obtain ⟨⟨time, hkeep⟩, hbar, hsteady⟩ :=
                @emitSubscription_spec Num toNumber realtime g
                  { s with canonical := page.candles
                           indexedThroughBlock := page.indexedThroughBlock }
                  h.reset_eq
              simp only [loneStep, if_pos, reconcile, if_neg hother, hstale,
                hlatest, nextEvents]
              refine ⟨?_, ?_, hsteady⟩
              · rw [if_neg Bool.false_ne_true, hkeep]
                exact ⟨h.realtime_eq, h.interval_eq, h.reset_eq, rfl, rfl⟩
              · intro k bar hmem
                have hlast := hbar k bar hmem
                rw [h.realtime_eq] at hlast
                have := lastBar_isLast hlast
                rw [show s.interval = interval from h.interval_eq] at this
                exact this
      · have hlatest : latestFrom interval guid snapshot
            [.reconcileCanonical g page] = snapshot :=
          if_neg (fun hc => hg hc.1)
        simp only [loneStep, if_neg hg, hlatest, nextEvents]
        exact ⟨h, hquiet⟩
  | subscribeBars resolution g reset => exact ⟨h, hquiet⟩
  | unsubscribeBars g => exact ⟨h, hquiet⟩

/-! ## Runs -/

theorem run_append (feed : Feed) (first second : List Call) :
    run toNumber token feed (first ++ second) =
      ((run toNumber token (run toNumber token feed first).1 second).1,
        (run toNumber token feed first).2 ++
          (run toNumber token (run toNumber token feed first).1 second).2) := by
  induction first generalizing feed with
  | nil => rfl
  | cons call first ih =>
      rw [List.cons_append, run, ih, run]
      simp only [List.append_assoc]

theorem run_concat (feed : Feed) (calls : List Call) (call : Call) :
    (run toNumber token feed (calls ++ [call])).1 =
      (step toNumber token (run toNumber token feed calls).1 call).1 := by
  rw [run_append]
  rfl

/-- The realtime events of a feed are the current ones. -/
theorem run_realtime (calls : List Call) :
    (run toNumber token initial calls).1.Distinct ∧
    (run toNumber token initial calls).1.realtime = current token calls := by
  induction calls using List.reverseRecOn with
  | nil => exact ⟨List.nodup_nil, rfl⟩
  | append_singleton calls call ih =>
      obtain ⟨hdistinct, hrealtime⟩ := ih
      rw [run_concat, current_append_call]
      refine ⟨step_distinct hdistinct call, ?_⟩
      cases call with
      | syncRealtime events => rfl
      | reconcileCanonical g page =>
          simp only [step]
          split
          · exact hrealtime
          · exact hrealtime
      | subscribeBars resolution g reset =>
          simp only [step]
          split
          · exact hrealtime
          · exact hrealtime
      | unsubscribeBars g => exact hrealtime

/-- The subscription of a listener in a feed, on track. -/
def Following (interval : ChartInterval) (guid : String)
    (events : List Event) (snapshot : Option ChartPage) (feed : Feed)
    (s : Subscription) : Prop :=
  feed.Distinct ∧ feed.get guid = some s ∧
    Tracks interval events snapshot feed.realtime s

/-- One call of a feed, for one subscription. -/
theorem step_following {interval : ChartInterval} {guid : String}
    {events : List Event} {snapshot : Option ChartPage} {feed : Feed}
    {s : Subscription} (h : Following interval guid events snapshot feed s)
    {call : Call} (hkeeps : Keeps guid call) :
    ∃ s', Following interval guid (nextEvents token events call)
        (latestFrom interval guid snapshot [call])
        (step toNumber token feed call).1 s' ∧
      (∀ bar, .callback guid bar ∈ (step toNumber token feed call).2 →
        IsLast toNumber (shownCandles interval (nextEvents token events call)
          (latestFrom interval guid snapshot [call])) bar) ∧
      ∀ rest, Steady s'.lastEmittedTime rest →
        Steady s.lastEmittedTime
          (heard guid (step toNumber token feed call).2 ++ rest) := by
  obtain ⟨hdistinct, hget, htracks⟩ := h
  obtain ⟨s', hget', hlone⟩ :=
    @step_lone Num toNumber token feed guid s call hdistinct hget hkeeps
  obtain ⟨htracks', hbars, hsteady⟩ :=
    @loneStep_spec Num toNumber token interval events snapshot guid
      feed.realtime s htracks call
  rw [hlone] at htracks' hbars hsteady
  refine ⟨s', ⟨step_distinct hdistinct call, hget', htracks'⟩, ?_, hsteady⟩
  intro bar hmem
  exact hbars guid bar
    (List.mem_filter.mpr ⟨hmem, decide_eq_true rfl⟩)

theorem latestFrom_append (interval : ChartInterval) (guid : String)
    (snapshot : Option ChartPage) (first second : List Call) :
    latestFrom interval guid snapshot (first ++ second) =
      latestFrom interval guid (latestFrom interval guid snapshot first)
        second :=
  List.foldl_append

/-- **THE RUN**: a subscription stays on track, and what is heard of it is
    steady. -/
theorem run_following {interval : ChartInterval} {guid : String}
    {before : List Call} :
    ∀ {calls done : List Call} {feed : Feed} {s : Subscription},
      Following interval guid (current token (before ++ done))
        (latestFrom interval guid none done) feed s →
      (∀ call ∈ calls, Keeps guid call) →
      (∃ s', Following interval guid
        (current token (before ++ (done ++ calls)))
        (latestFrom interval guid none (done ++ calls))
        (run toNumber token feed calls).1 s') ∧
      Steady s.lastEmittedTime
        (heard guid (run toNumber token feed calls).2) := by
  intro calls
  induction calls with
  | nil =>
      intro done feed s h _
      refine ⟨⟨s, ?_⟩, trivial⟩
      rw [List.append_nil]
      exact h
  | cons call calls ih =>
      intro done feed s h hkeeps
      obtain ⟨s', hnext, -, hsteady⟩ :=
        @step_following Num toNumber token interval guid _ _ feed s h call
          (hkeeps call (by simp))
      have hnext' : Following interval guid
          (current token (before ++ (done ++ [call])))
          (latestFrom interval guid none (done ++ [call]))
          (step toNumber token feed call).1 s' := by
        rw [← List.append_assoc, current_append_call, latestFrom_append]
        exact hnext
      obtain ⟨⟨s'', hend⟩, hrest⟩ :=
        ih hnext' (fun c hc => hkeeps c (List.mem_cons_of_mem _ hc))
      refine ⟨⟨s'', ?_⟩, ?_⟩
      · rw [List.append_assoc] at hend
        exact hend
      · show Steady _ (List.filter _ (_ ++ _))
        rw [List.filter_append]
        exact hsteady _ hrest

/-- A stale snapshot leaves the feed as it is. -/
theorem step_stale {interval : ChartInterval} {guid : String}
    {events : List Event} {snapshot : Option ChartPage} {feed : Feed}
    {s : Subscription} (h : Following interval guid events snapshot feed s)
    {page : ChartPage}
    (hstale : stale (snapshot.bind ChartPage.indexedThroughBlock) page =
      true) :
    step toNumber token feed (.reconcileCanonical guid page) = (feed, []) := by
  obtain ⟨-, hget, htracks⟩ := h
  have hsame : ∀ subs : List (String × Subscription),
      subs.lookup guid = some s → Feed.setIn guid s subs = subs := by
    intro subs
    induction subs with
    | nil =>
        intro hlookup
        cases hlookup
    | cons entry subs ih =>
        intro hlookup
        obtain ⟨g, t⟩ := entry
        rw [Feed.setIn]
        by_cases hg : g = guid
        · subst hg
          rw [List.lookup_cons, beq_self_eq_true] at hlookup
          cases hlookup
          rw [if_pos rfl]
        · rw [if_neg hg]
          rw [List.lookup_cons, beq_false_of_ne (Ne.symm hg)] at hlookup
          rw [ih hlookup]
  have hdone : (reconcile toNumber feed.realtime guid page s :
      Subscription × List (Output Num)) = (s, []) := by
    unfold reconcile
    split
    case isTrue => rfl
    case isFalse =>
        rw [htracks.block_eq, hstale]
        rfl
  have hset : feed.set guid s = feed := by
    rw [Feed.set, hsame feed.subscriptions hget]
  simp only [step, hget, hdone, hset]

variable (toNumber token)

/-- **THE LAW OF THE DATAFEED**: in every run of calls after a listener
    subscribed with a reset, and while it is not unsubscribed or subscribed
    anew: bars it is sent in a row do not go back in time; a bar it is sent is
    that of the last candle that makes one, in the latest accepted snapshot
    under the current events after its block; and a stale snapshot changes
    nothing that follows. -/
theorem datafeed_law (before during : List Call)
    {resolution guid : String} {interval : ChartInterval}
    (hresolution : cooketIntervalForResolution resolution = some interval)
    (hkeeps : ∀ call ∈ during, Keeps guid call) :
    let feed := (step toNumber token
      (run toNumber token initial before).1
      (.subscribeBars resolution guid true)).1
    (∀ (pre post : List (Output Num)) (bars : List (Bar Num)),
      heard guid (run toNumber token feed during).2 =
        pre ++ (bars.map (Output.callback guid) ++ post) →
      bars.Pairwise (fun a b => a.time ≤ b.time)) ∧
    (∀ done call rest bar, during = done ++ call :: rest →
      .callback guid bar ∈
        (step toNumber token (run toNumber token feed done).1 call).2 →
        IsLast toNumber (shownCandles interval
          (current token (before ++ (done ++ [call])))
          (latestFrom interval guid none (done ++ [call]))) bar) ∧
    ∀ done page rest,
      during = done ++ .reconcileCanonical guid page :: rest →
      stale ((latestFrom interval guid none done).bind
        ChartPage.indexedThroughBlock) page = true →
        run toNumber token feed during =
          run toNumber token feed (done ++ rest) := by
  intro feed
  obtain ⟨hdistinct, hrealtime⟩ := @run_realtime Num toNumber token before
  have hstart : Following interval guid (current token (before ++ []))
      (latestFrom interval guid none []) feed
      { interval := interval, reset := true, canonical := []
        indexedThroughBlock := none, lastEmittedTime := none } := by
    refine ⟨step_distinct hdistinct _, ?_, ?_, rfl, rfl, rfl, rfl⟩
    · simp only [feed, step, hresolution]
      show (Feed.setIn guid _ _).lookup guid = _
      rw [lookup_setIn, if_pos rfl]
    · simp only [feed, step, hresolution]
      rw [List.append_nil]
      exact hrealtime
  have hat : ∀ done : List Call, (∀ call ∈ done, Keeps guid call) →
      ∃ s, Following interval guid (current token (before ++ done))
        (latestFrom interval guid none done)
        (run toNumber token feed done).1 s := by
    intro done hdone
    exact (@run_following Num toNumber token interval guid before done []
      feed _ hstart hdone).1
  refine ⟨?_, ?_, ?_⟩
  · intro pre post bars heq
    have hsteady := (@run_following Num toNumber token interval guid before
      during [] feed _ hstart hkeeps).2
    rw [heq] at hsteady
    obtain ⟨last, hlast⟩ := hsteady.drop
    exact hlast.bars.2
  · intro done call rest bar heq hmem
    rw [heq] at hkeeps
    obtain ⟨s, hs⟩ := hat done
      (fun c hc => hkeeps c (List.mem_append_left _ hc))
    obtain ⟨-, -, hbars, -⟩ :=
      @step_following Num toNumber token interval guid _ _ _ s hs call
        (hkeeps call (by simp))
    rw [← List.append_assoc, current_append_call, latestFrom_append]
    exact hbars bar hmem
  · intro done page rest heq hstale
    rw [heq] at hkeeps
    obtain ⟨s, hs⟩ := hat done
      (fun c hc => hkeeps c (List.mem_append_left _ hc))
    rw [heq, run_append, run_append, run, step_stale hs hstale]
    rfl

end Laws

/-! ## A snapshot that comes late -/

/-- A page of one candle. -/
def candlePage (block : Nat) (bucketStart : Int) : ChartPage where
  indexedThroughBlock := some block
  interval := .m1
  candles := [
    { bucketStart := bucketStart, tradeCount := 1, buyCount := 1
      sellCount := 0, volume := 5, uniqueTraderCount := 1
      openPrice := some 2, highPrice := some 3, lowPrice := some 2
      closePrice := some 3 }]

/-- The law at two snapshots of which the second is older: the run is that of
    the first. -/
theorem datafeed_law_stale :
    run some 1 (step some 1 initial (.subscribeBars "1" "chart" true)).1
      [.reconcileCanonical "chart" (candlePage 10 120),
        .reconcileCanonical "chart" (candlePage 9 60)] =
    run some 1 (step some 1 initial (.subscribeBars "1" "chart" true)).1
      [.reconcileCanonical "chart" (candlePage 10 120)] :=
  (datafeed_law some 1 []
    [.reconcileCanonical "chart" (candlePage 10 120),
      .reconcileCanonical "chart" (candlePage 9 60)]
    (show cooketIntervalForResolution "1" = some .m1 by decide)
    (by
      intro call hcall
      rcases List.mem_cons.mp hcall with rfl | hcall
      · trivial
      · rw [List.mem_singleton.mp hcall]
        trivial)).2.2
    [.reconcileCanonical "chart" (candlePage 10 120)] (candlePage 9 60) []
    rfl (by decide)

end Datafeed
