import Cooket.RealtimeConnectionProofs

/-! # What a reconnect can catch up on

    After an outage every registered source is queued from the CURSOR on, and
    a source may be caught up on only if that is at most `maximumBackfillBlocks`
    below the head.  The comment over `queueReconnectBackfill` wants the check
    to fail "when the interruption exceeds the operational bound".  But the
    cursor is the block of the newest event that was written, not the block the
    service was live at: it stands still while nothing trades.  So a reconnect
    succeeds not after every short outage but exactly when the time since the
    newest event is short too (`reconnect_recovers_iff`). -/

namespace Reconnect

open Contract MarketLog MapAssign Keyset RealtimeService

/-! ## The cursor -/

/-- The newest block among events that were not removals, from a first one. -/
def delivered (events : List Event) (first : Nat) : Nat :=
  ((events.filter (!·.removed)).map (·.blockNumber)).foldl max first

theorem delivered_append (es fs : List Event) (n : Nat) :
    delivered (es ++ fs) n = delivered fs (delivered es n) := by
  rw [delivered, List.filter_append, List.map_append, List.foldl_append]
  rfl

/-- The service has only written events and moved its cursor with them. -/
structure Follows (x x' : Realtime) : Prop where
  loaded : x.registryLoaded = true → x'.registryLoaded = true
  moved : ∃ es, x'.output = x.output ++ es ∧
    ∀ n, x.service.reconnectFrom = some n →
      x'.service.reconnectFrom = some (delivered es n)

theorem Follows.refl (x : Realtime) : Follows x x :=
  ⟨id, [], (List.append_nil _).symm, fun _ h => h⟩

theorem Follows.trans {x y z : Realtime} (h : Follows x y) (h' : Follows y z) :
    Follows x z := by
  obtain ⟨es, hes, hcursor⟩ := h.moved
  obtain ⟨fs, hfs, hcursor'⟩ := h'.moved
  refine ⟨fun hx => h'.loaded (h.loaded hx), es ++ fs, ?_, ?_⟩
  · rw [hfs, hes, List.append_assoc]
  · intro n hn
    rw [delivered_append]
    exact hcursor' _ (hcursor n hn)

section
variable (usdc source : Address) (start head : Nat) (filter : Filter)

/-- Stamping an event leaves its place. -/
theorem stampEvent_place {s : Service} {a : Answer} {entry : Log}
    {event stamped : Event} {cache : BlockTimestampCache}
    (h : stampEvent s a entry event = (.ok stamped, cache)) :
    stamped.blockNumber = event.blockNumber ∧
      stamped.removed = event.removed := by
  rw [stampEvent] at h
  by_cases hremoved : entry.removed = true
  · rw [if_pos hremoved] at h
    obtain rfl := Except.ok.inj (congrArg Prod.fst h)
    exact ⟨rfl, rfl⟩
  · rw [if_neg hremoved] at h
    generalize s.blockTimestamps.get entry.blockHash a.fetched = got at h
    obtain ⟨timestamp | timestamp, cache'⟩ := got
    · cases congrArg Prod.fst h
    · obtain rfl := Except.ok.inj (congrArg Prod.fst h)
      exact ⟨rfl, rfl⟩

/-- **THE CURSOR MOVES WITH WHAT IS WRITTEN**, and with nothing else. -/
theorem handleLog_cursor (resolve : Address → Option Registration)
    (s : Service) (a : Answer) (entry : Log) :
    (∃ event, published (handleLog usdc resolve s a entry).2 = some event ∧
      event.blockNumber = entry.blockNumber ∧ event.removed = entry.removed ∧
      (handleLog usdc resolve s a entry).1.reconnectFrom =
        advanceCursor entry s.reconnectFrom) ∨
    (published (handleLog usdc resolve s a entry).2 = none ∧
      (handleLog usdc resolve s a entry).1.reconnectFrom = s.reconnectFrom) := by
  rw [handleLog]
  cases hdecode : decode usdc resolve entry with
  | error e => exact .inr ⟨rfl, rfl⟩
  | ok event =>
      have hnames := decode_names hdecode
      dsimp only
      generalize hstamp : stampEvent s a entry event = r
      obtain ⟨e | stamped, cache⟩ := r
      · exact .inr ⟨rfl, rfl⟩
      · obtain ⟨hnumber, hremoved⟩ := stampEvent_place hstamp
        dsimp only
        generalize s.deduper.Accept entry.id entry.removed = w
        obtain ⟨accepted, deduper⟩ := w
        cases accepted with
        | false => exact .inr ⟨rfl, rfl⟩
        | true =>
            cases hencodes : a.encodes with
            | false => exact .inr ⟨rfl, rfl⟩
            | true =>
                exact .inl ⟨stamped, rfl, hnumber.trans hnames.blockNumber,
                  hremoved.trans hnames.removed, rfl⟩

/-- One log moves the cursor by the event it makes. -/
theorem handle_follows (x : Realtime) (a : Answer) (entry : Log) :
    Follows x (x.handle usdc a entry).1 := by
  refine ⟨id, _, rfl, ?_⟩
  intro n hn
  rcases handleLog_cursor usdc
    (fun s => x.registry.bySource.lookup s) x.service a entry with
    ⟨event, hevent, hnumber, hremoved, hcursor⟩ | ⟨hnone, hcursor⟩
  · show (handleLog _ _ _ _ _).1.reconnectFrom = _
    rw [hcursor, hevent, hn, advanceCursor, delivered, Option.toList_some]
    cases hflag : entry.removed with
    | true =>
        rw [List.filter_cons_of_neg (by simp [hremoved, hflag])]
        exact if_neg (fun h => Bool.noConfusion h.1)
    | false =>
        rw [List.filter_cons_of_pos (by simp [hremoved, hflag])]
        show _ = some (max n event.blockNumber)
        rw [hnumber]
        by_cases hlt : n < entry.blockNumber
        · rw [if_pos ⟨rfl, hlt⟩, Nat.max_eq_right (Nat.le_of_lt hlt)]
        · rw [if_neg (fun h => hlt h.2), Nat.max_eq_left (Nat.le_of_not_lt hlt)]
  · show (handleLog _ _ _ _ _).1.reconnectFrom = _
    rw [hcursor, hnone, hn]
    rfl

theorem handle_pending (x : Realtime) (a : Answer) (entry : Log) :
    (x.handle usdc a entry).1.pendingBackfills = x.pendingBackfills := rfl

/-- A replay writes events, and leaves what is pending. -/
theorem replay_follows (logs : List (Log × Answer)) (x : Realtime) :
    Follows x (replay usdc source start head logs x).1 ∧
      (replay usdc source start head logs x).1.pendingBackfills =
        x.pendingBackfills := by
  induction logs generalizing x with
  | nil => exact ⟨.refl x, rfl⟩
  | cons first rest ih =>
      obtain ⟨entry, a⟩ := first
      have hone := handle_follows usdc x a entry
      have hpending := handle_pending usdc x a entry
      rw [replay]
      split
      · exact ⟨.refl x, rfl⟩
      · generalize x.handle usdc a entry = r at hone hpending
        obtain ⟨x', e | out⟩ := r
        · exact ⟨hone, hpending⟩
        · obtain ⟨hrest, hsame⟩ := ih x'
          exact ⟨hone.trans hrest, hsame.trans hpending⟩

/-- A replay does not fail by the limit. -/
theorem replay_error (logs : List (Log × Answer)) (x : Realtime) :
    ∀ e, (replay usdc source start head logs x).2 = some e →
      ∀ a n, e ≠ .spans a n := by
  induction logs generalizing x with
  | nil =>
      intro e h
      cases h
  | cons first rest ih =>
      obtain ⟨entry, answer⟩ := first
      rw [replay]
      split
      · rintro e h a n rfl
        cases h
      · generalize x.handle usdc answer entry = r
        obtain ⟨x', failure | out⟩ := r
        · rintro e h a n rfl
          cases h
        · exact ih x'

/-- What one source's turn does: nothing but writing events on failure, and on
    success its check has passed and it alone is no longer pending. -/
theorem catchUpSource_spec (x : Realtime) :
    Follows x (catchUpSource usdc filter head source x).1 ∧
      ((catchUpSource usdc filter head source x).2 = none →
        (∀ r, x.pendingBackfills.lookup source = some r →
          head - r.market.sourceStartBlock ≤ maximumBackfillBlocks) ∧
        (catchUpSource usdc filter head source x).1.pendingBackfills.lookup
          source = none ∧
        ∀ a, a ≠ source →
          (catchUpSource usdc filter head source x).1.pendingBackfills.lookup a =
            x.pendingBackfills.lookup a) ∧
      ∀ a n, (catchUpSource usdc filter head source x).2 = some (.spans a n) →
        ∃ r, x.pendingBackfills.lookup a = some r ∧
          n = head - r.market.sourceStartBlock ∧ maximumBackfillBlocks < n := by
  rw [catchUpSource]
  cases hpending : x.pendingBackfills.lookup source with
  | none =>
      refine ⟨.refl x, fun _ => ⟨?_, hpending, fun _ _ => rfl⟩, ?_⟩
      · intro r hr
        cases hr
      · intro a n h
        cases h
  | some registration =>
      dsimp only
      by_cases hfuture : head < registration.market.sourceStartBlock
      · rw [if_pos hfuture]
        refine ⟨.refl x, fun h => ?_, fun a n h => ?_⟩
        · cases h
        · cases h
      · rw [if_neg hfuture]
        by_cases hspan : maximumBackfillBlocks <
            head - registration.market.sourceStartBlock
        · rw [if_pos hspan]
          refine ⟨.refl x, fun h => ?_, fun a n h => ?_⟩
          · cases h
          · cases h
            exact ⟨registration, hpending, rfl, hspan⟩
        · rw [if_neg hspan]
          cases filter source with
          | none =>
              refine ⟨.refl x, fun h => ?_, fun a n h => ?_⟩
              · cases h
              · cases h
          | some logs =>
              dsimp only
              have hspec := replay_follows usdc source
                registration.market.sourceStartBlock head (orderBy replayRank logs) x
              have herror := replay_error usdc source
                registration.market.sourceStartBlock head (orderBy replayRank logs) x
              generalize replay usdc source registration.market.sourceStartBlock
                head (orderBy replayRank logs) x = r at hspec herror
              obtain ⟨x', result⟩ := r
              obtain ⟨hfollows, hsame⟩ := hspec
              cases result with
              | some e =>
                  refine ⟨hfollows, fun h => ?_, fun a n h => ?_⟩
                  · cases h
                  · exact absurd (Option.some.inj h) (herror e rfl a n)
              | none =>
                  refine ⟨⟨hfollows.loaded, hfollows.moved⟩,
                    fun _ => ⟨?_, AList.lookup_erase _ _, ?_⟩, fun a n h => ?_⟩
                  · intro r hr
                    obtain rfl := Option.some.inj hr
                    exact Nat.le_of_not_lt hspan
                  · intro a ha
                    rw [← hsame]
                    exact AList.lookup_erase_ne ha
                  · cases h

/-- **WHAT THE LIMIT DECIDES**.  A catch-up that succeeds has found every source
    it visits within the limit; one that fails by the limit has found the
    source it names beyond it. -/
theorem catchUp_spec (sources : List Address) (x : Realtime) :
    Follows x (catchUp usdc filter head sources x).1 ∧
      ((catchUp usdc filter head sources x).2 = none →
        ∀ a ∈ sources, ∀ r, x.pendingBackfills.lookup a = some r →
          head - r.market.sourceStartBlock ≤ maximumBackfillBlocks) ∧
      ∀ a n, (catchUp usdc filter head sources x).2 = some (.spans a n) →
        ∃ r, x.pendingBackfills.lookup a = some r ∧
          n = head - r.market.sourceStartBlock ∧ maximumBackfillBlocks < n := by
  induction sources generalizing x with
  | nil =>
      refine ⟨.refl x, fun _ a ha => absurd ha List.not_mem_nil, fun a n h => ?_⟩
      cases h
  | cons source rest ih =>
      have hone := catchUpSource_spec usdc source head filter x
      rw [catchUp]
      generalize catchUpSource usdc filter head source x = r at hone
      obtain ⟨x', result⟩ := r
      obtain ⟨hfollows, hok, hspans⟩ := hone
      cases result with
      | some e =>
          refine ⟨hfollows, fun h => ?_, hspans⟩
          cases h
      | none =>
          obtain ⟨hlimit, hgone, hother⟩ := hok rfl
          obtain ⟨hrest, hrestok, hrestspans⟩ := ih x'
          refine ⟨hfollows.trans hrest, ?_, ?_⟩
          · intro h a ha r hr
            by_cases heq : a = source
            · exact hlimit r (heq ▸ hr)
            · refine hrestok h a ((List.mem_cons.mp ha).resolve_left heq) r ?_
              rw [← hr]
              exact hother a heq
          · intro a n h
            obtain ⟨r, hr, hn⟩ := hrestspans a n h
            by_cases heq : a = source
            · rw [heq, hgone] at hr
              cases hr
            · exact ⟨r, (hother a heq).symm.trans hr, hn⟩

theorem backfillPending_spec (S : HexSort) (read : Option Nat) (x : Realtime) :
    Follows x (backfillPending S usdc filter read x).1 ∧
      (∀ head, read = some head →
        (backfillPending S usdc filter read x).2 = none →
          ∀ a r, x.pendingBackfills.lookup a = some r →
            head - r.market.sourceStartBlock ≤ maximumBackfillBlocks) ∧
      ∀ a n, (backfillPending S usdc filter read x).2 = some (.spans a n) →
        ∃ head r, read = some head ∧ x.pendingBackfills.lookup a = some r ∧
          n = head - r.market.sourceStartBlock ∧ maximumBackfillBlocks < n := by
  have hkeys : ∀ a r, x.pendingBackfills.lookup a = some r →
      a ∈ S.run x.pendingBackfills.keys := by
    intro a r hr
    refine (S.perm _).mem_iff.mpr (AList.mem_keys.mp ?_)
    exact AList.lookup_isSome.mp (hr ▸ rfl)
  rw [backfillPending.eq_def]
  by_cases hempty : x.pendingBackfills.keys.isEmpty = true
  · rw [if_pos hempty]
    refine ⟨.refl x, fun head _ _ a r hr => ?_, fun a n h => ?_⟩
    · have hnone := (S.perm x.pendingBackfills.keys).mem_iff.mp (hkeys a r hr)
      rw [List.isEmpty_iff.mp hempty] at hnone
      exact absurd hnone List.not_mem_nil
    · cases h
  · rw [if_neg hempty]
    cases read with
    | none =>
        refine ⟨.refl x, fun head h => ?_, fun a n h => ?_⟩
        · cases h
        · cases h
    | some head =>
        obtain ⟨hfollows, hok, hspans⟩ := catchUp_spec usdc head
          filter (S.run x.pendingBackfills.keys) x
        refine ⟨hfollows, ?_, ?_⟩
        · intro head' hhead h a r hr
          obtain rfl := Option.some.inj hhead
          exact hok h a (hkeys a r hr) r hr
        · intro a n h
          obtain ⟨r, hr, hn⟩ := hspans a n h
          exact ⟨head, r, rfl, hr, hn⟩

end

/-! ## What a reconnect queues -/

/-- Reloading the registry writes nothing and leaves the service. -/
theorem reconcile_ok {answer : Option (List Market)} {x x' : Realtime}
    {changed : Bool} (h : reconcile answer x = .ok (changed, x')) :
    x'.service = x.service ∧ x'.output = x.output ∧ x'.registryLoaded = true ∧
      (x.registryLoaded = true → x'.pendingBackfills =
        restrict (· ∈ x'.registry.bySource)
          (assign (registeredAnew x.registry.bySource) x'.registry.bySource
            x.pendingBackfills)) := by
  rw [reconcile.eq_def] at h
  cases answer with
  | none => cases h
  | some markets =>
      dsimp only at h
      cases hreplace : x.registry.Replace markets with
      | error e =>
          rw [hreplace] at h
          cases h
      | ok next =>
          obtain ⟨next, different⟩ := next
          rw [hreplace] at h
          dsimp only at h
          cases hloaded : x.registryLoaded with
          | true =>
              rw [hloaded, if_pos rfl] at h
              obtain ⟨-, rfl⟩ := Prod.mk.inj (Except.ok.inj h)
              exact ⟨rfl, rfl, rfl, fun _ => rfl⟩
          | false =>
              rw [hloaded, if_neg Bool.false_ne_true] at h
              obtain ⟨-, rfl⟩ := Prod.mk.inj (Except.ok.inj h)
              refine ⟨rfl, rfl, rfl, fun hfalse => ?_⟩
              cases hfalse

/-- What is pending for a source after a reload. -/
theorem reconcile_pending {answer : Option (List Market)} {x x' : Realtime}
    {changed : Bool} (h : reconcile answer x = .ok (changed, x'))
    (hloaded : x.registryLoaded = true) (a : Address) :
    x'.pendingBackfills.lookup a =
      match x'.registry.bySource.lookup a with
      | none => none
      | some r =>
          if x.registry.bySource.lookup a = some r then
            x.pendingBackfills.lookup a
          else some r := by
  obtain ⟨-, -, -, hpending⟩ := reconcile_ok h
  rw [hpending hloaded, lookup_restrict, lookup_assign]
  cases hnext : x'.registry.bySource.lookup a with
  | none =>
      have hgone : a ∉ x'.registry.bySource := AList.lookup_eq_none.mp hnext
      rw [decide_eq_false hgone]
      rfl
  | some r =>
      have hhere : a ∈ x'.registry.bySource :=
        AList.lookup_isSome.mp (hnext ▸ rfl)
      rw [decide_eq_true hhere, if_pos rfl]
      dsimp only
      rw [registeredAnew]
      by_cases hsame : x.registry.bySource.lookup a = some r
      · rw [if_pos hsame, if_pos hsame]
        rfl
      · rw [if_neg hsame, if_neg hsame]
        rfl

/-- Preparing a connection writes nothing.  It moves no cursor that is set, and
    sets one that is not to the head, if it succeeds. -/
theorem prepare_spec (c : Attempt) (head : Nat) (x : Realtime) :
    (prepare c head x).1.output = x.output ∧
      (x.registryLoaded = true → (prepare c head x).1.registryLoaded = true) ∧
      (∀ n, x.service.reconnectFrom = some n →
        (prepare c head x).1.service.reconnectFrom = some n) ∧
      (x.service.reconnectFrom = none →
        (prepare c head x).1.service.reconnectFrom = none ∨
          (prepare c head x).1.service.reconnectFrom = some head ∧
            (prepare c head x).1.registryLoaded = true) ∧
      ((prepare c head x).2 = none →
        (prepare c head x).1.service.reconnectFrom.isSome) := by
  rw [prepare.eq_def]
  by_cases hdials : c.dials = false
  · rw [if_pos hdials]
    refine ⟨rfl, id, fun _ h => h, .inl, fun h => ?_⟩
    cases h
  · rw [if_neg hdials]
    cases hreconcile : reconcile c.markets x with
    | error e =>
        refine ⟨rfl, id, fun _ h => h, .inl, fun h => ?_⟩
        cases h
    | ok r =>
        obtain ⟨changed, x'⟩ := r
        obtain ⟨hservice, houtput, hloaded, -⟩ := reconcile_ok hreconcile
        dsimp only
        by_cases hsubscribe : replaceSubscription c.subscribes x' = false
        · rw [if_pos hsubscribe]
          refine ⟨houtput, fun _ => hloaded, fun n h => ?_, fun h => .inl ?_,
            fun h => ?_⟩
          · exact (congrArg _ hservice).trans h
          · exact (congrArg _ hservice).trans h
          · cases h
        · rw [if_neg hsubscribe, hservice]
          cases hcursor : x.service.reconnectFrom with
          | some n =>
              refine ⟨houtput, fun _ => hloaded, fun m h => ?_, fun h => ?_,
                fun _ => ?_⟩
              · exact (congrArg _ hservice).trans (hcursor.trans h)
              · cases h
              · show x'.service.reconnectFrom.isSome = true
                rw [hservice, hcursor]
                rfl
          | none =>
              cases c.headRead with
              | true =>
                  refine ⟨houtput, fun _ => hloaded, fun m h => ?_,
                    fun _ => .inr ⟨rfl, hloaded⟩, fun _ => rfl⟩
                  cases h
              | false =>
                  refine ⟨houtput, fun _ => hloaded, fun m h => ?_,
                    fun _ => .inl ?_, fun h => ?_⟩
                  · cases h
                  · exact (congrArg _ hservice).trans hcursor
                  · cases h

/-- **WHAT A RECONNECT QUEUES**: a new or changed registration as it is, a
    source that was pending as it was, and any other one from the cursor on. -/
theorem prepare_pending {c : Attempt} {head n : Nat} {x x' : Realtime}
    (h : prepare c head x = (x', none)) (hloaded : x.registryLoaded = true)
    (hcursor : x.service.reconnectFrom = some n) (a : Address) :
    x'.pendingBackfills.lookup a =
      match x'.registry.bySource.lookup a with
      | none => none
      | some r =>
          if x.registry.bySource.lookup a = some r then
            match x.pendingBackfills.lookup a with
            | some p => some p
            | none => some { r with
                market := { r.market with
                  sourceStartBlock := max r.market.sourceStartBlock n } }
          else some r := by
  rw [prepare.eq_def] at h
  by_cases hdials : c.dials = false
  · rw [if_pos hdials] at h
    cases congrArg Prod.snd h
  · rw [if_neg hdials] at h
    cases hreconcile : reconcile c.markets x with
    | error e =>
        rw [hreconcile] at h
        cases congrArg Prod.snd h
    | ok r =>
        obtain ⟨changed, y⟩ := r
        obtain ⟨hservice, -, -, -⟩ := reconcile_ok hreconcile
        have hpending := reconcile_pending hreconcile hloaded a
        rw [hreconcile] at h
        dsimp only at h
        by_cases hsubscribe : replaceSubscription c.subscribes y = false
        · rw [if_pos hsubscribe] at h
          cases congrArg Prod.snd h
        · rw [if_neg hsubscribe, hservice, hcursor] at h
          obtain rfl : queueReconnectBackfill n y = x' := congrArg Prod.fst h
          show (assign (resumed n) y.registry.bySource
            y.pendingBackfills).lookup a = _
          rw [lookup_assign, hpending]
          show _ = match y.registry.bySource.lookup a with
            | none => none
            | some r => _
          cases y.registry.bySource.lookup a with
          | none => rfl
          | some r =>
              dsimp only
              by_cases hsame : x.registry.bySource.lookup a = some r
              · rw [if_pos hsame, if_pos hsame]
                cases x.pendingBackfills.lookup a with
                | none => rfl
                | some p => rfl
              · rw [if_neg hsame, if_neg hsame]
                rfl

theorem prepare_follows (c : Attempt) (head : Nat) (x : Realtime) :
    Follows x (prepare c head x).1 := by
  obtain ⟨houtput, hloaded, hcursor, -, -⟩ := prepare_spec c head x
  exact ⟨hloaded, [], houtput.trans (List.append_nil _).symm, hcursor⟩

section
variable (S : HexSort) (usdc : Address)

/-- A connection that is not prepared stops there, and one that is has a
    cursor. -/
theorem connect_spec (c : Attempt) (head : Nat) (x : Realtime) :
    Follows (prepare c head x).1 (connect S usdc c head x).1 ∧
      ((prepare c head x).1.service.reconnectFrom = none →
        (connect S usdc c head x).1 = (prepare c head x).1 ∧
          (connect S usdc c head x).2.isNone = false) := by
  obtain ⟨-, -, -, -, hready⟩ := prepare_spec c head x
  rw [connect]
  generalize prepare c head x = r at hready
  obtain ⟨y, e | e⟩ := r
  · refine ⟨(backfillPending_spec usdc c.filter S _ y).1, fun hnone => ?_⟩
    have hsome : y.service.reconnectFrom.isSome = true := hready rfl
    rw [show y.service.reconnectFrom = none from hnone] at hsome
    cases hsome
  · exact ⟨.refl y, fun _ => ⟨rfl, rfl⟩⟩

theorem tick_follows (c : Tick) (head : Nat) (x : Realtime) :
    Follows x (tick S usdc c head x).1 := by
  rw [tick.eq_def]
  cases hreconcile : reconcile c.markets x with
  | error e => exact .refl x
  | ok r =>
      obtain ⟨changed, y⟩ := r
      obtain ⟨hservice, houtput, hloaded, -⟩ := reconcile_ok hreconcile
      have hreload : Follows x y :=
        ⟨fun _ => hloaded, [], houtput.trans (List.append_nil _).symm,
          fun n hn => (congrArg _ hservice).trans hn⟩
      dsimp only
      split
      · exact hreload
      · exact hreload.trans (backfillPending_spec usdc c.filter S _ y).1

end

/-! ## Every run -/

/-- The block of the newest event written, or the first head. -/
def newest (w : World) : Nat := delivered w.realtime.output (w.origin.getD 0)

/-- **THE CURSOR IS THE NEWEST EVENT'S BLOCK**, once there is a cursor. -/
structure Tracked (w : World) : Prop where
  cursor : w.realtime.service.reconnectFrom = w.origin.map fun _ => newest w
  silent : w.origin = none → w.realtime.output = []
  loaded : w.origin.isSome → w.realtime.registryLoaded = true
  begun : w.live = true ∨ w.lost.isSome → w.origin.isSome

theorem tracked_new (head : Nat) : Tracked (World.new head) where
  cursor := rfl
  silent := fun _ => rfl
  loaded := fun h => nomatch h
  begun := by
    rintro (h | h)
    · cases h
    · cases h

/-- Writing events keeps the cursor at the newest of them. -/
theorem Tracked.follows {w : World} {x : Realtime} (h : Tracked w)
    (ho : w.origin.isSome) (hx : Follows w.realtime x) :
    x.service.reconnectFrom =
        w.origin.map (fun _ => delivered x.output (w.origin.getD 0)) ∧
      x.registryLoaded = true := by
  obtain ⟨o, ho'⟩ := Option.isSome_iff_exists.mp ho
  obtain ⟨es, hes, hmoved⟩ := hx.moved
  have hcursor := h.cursor
  rw [newest, ho'] at hcursor
  refine ⟨?_, hx.loaded (h.loaded ho)⟩
  rw [hmoved _ hcursor, hes, ho', ← delivered_append]
  rfl

section
variable (S : HexSort) (usdc : Address)

/-- A connection keeps it: it resumes from the cursor there is, or starts one
    at the head. -/
theorem connect_tracked {w : World} (h : Tracked w) (c : Attempt) :
    Tracked { w with
      realtime := (connect S usdc c w.head w.realtime).1
      head := w.head + c.mined
      live := (connect S usdc c w.head w.realtime).2.isNone
      origin := match w.origin with
        | some o => some o
        | none => (connect S usdc c w.head w.realtime).1.service.reconnectFrom.map
            fun _ => w.head } := by
  obtain ⟨houtput, hloaded, hset, hunset, -⟩ :=
    prepare_spec c w.head w.realtime
  obtain ⟨hfollows, hstopped⟩ :=
    connect_spec S usdc c w.head w.realtime
  obtain ⟨es, hes, hmoved⟩ := hfollows.moved
  have hcursor := h.cursor
  cases ho : w.origin with
  | some o =>
      rw [ho, newest, ho] at hcursor
      have hmove := hmoved _ (hset _ hcursor)
      have hsome : w.origin.isSome = true := ho ▸ rfl
      refine ⟨?_, fun hnone => ?_, fun _ => ?_, fun _ => rfl⟩
      · show (connect S usdc c w.head w.realtime).1.service.reconnectFrom =
          some (delivered (connect S usdc c w.head w.realtime).1.output o)
        rw [hmove, hes, houtput, delivered_append]
        rfl
      · cases hnone
      · exact hfollows.loaded (hloaded (h.loaded hsome))
  | none =>
      rw [ho] at hcursor
      have hquiet := h.silent ho
      rcases hunset hcursor with hnone | ⟨hstart, hknown⟩
      · obtain ⟨hsame, hfailed⟩ := hstopped hnone
        rw [hsame, hnone, hfailed]
        refine ⟨hnone, fun _ => houtput.trans hquiet, fun hsome => ?_, ?_⟩
        · cases hsome
        · rintro (hl | hl)
          · cases hl
          · have hsome := h.begun (.inr hl)
            rw [ho] at hsome
            cases hsome
      · have hmove := hmoved _ hstart
        rw [hmove]
        refine ⟨?_, fun hnone => ?_, fun _ => hfollows.loaded hknown,
          fun _ => rfl⟩
        · show (connect S usdc c w.head w.realtime).1.service.reconnectFrom =
            some (delivered (connect S usdc c w.head w.realtime).1.output w.head)
          rw [hmove, hes, houtput, hquiet, List.nil_append]
        · cases hnone

/-- **ONE STEP KEEPS IT**. -/
theorem step_tracked {w : World} (h : Tracked w) (act : Act) :
    Tracked (w.step S usdc act) := by
  have hlive : w.live = true → w.origin.isSome := fun hl => h.begun (.inl hl)
  have hknown : w.live = true → w.origin ≠ none := fun hl =>
    Option.isSome_iff_ne_none.mp (hlive hl)
  cases act with
  | mine blocks => exact ⟨h.cursor, h.silent, h.loaded, h.begun⟩
  | connect c =>
      cases hdown : w.live with
      | true =>
          rw [World.step, hdown, if_pos rfl]
          exact h
      | false =>
          rw [World.step, hdown, if_neg Bool.false_ne_true]
          exact connect_tracked S usdc h c
  | deliver entry a =>
      cases hup : w.live with
      | false =>
          rw [World.step, hup, if_neg Bool.false_ne_true]
          exact h
      | true =>
          obtain ⟨hcursor, hloaded⟩ := h.follows (hlive hup)
            (handle_follows usdc w.realtime a entry)
          rw [World.step, hup, if_pos rfl]
          exact ⟨hcursor, fun ho => absurd ho (hknown hup),
            fun _ => hloaded, fun _ => hlive hup⟩
  | tick c =>
      cases hup : w.live with
      | false =>
          rw [World.step, hup, if_neg Bool.false_ne_true]
          exact h
      | true =>
          obtain ⟨hcursor, hloaded⟩ := h.follows (hlive hup)
            (tick_follows S usdc c w.head w.realtime)
          rw [World.step, hup, if_pos rfl]
          generalize tick S usdc c w.head w.realtime = r at hcursor hloaded
          obtain ⟨x, e | e⟩ := r
          · exact ⟨hcursor, fun ho => absurd ho (hknown hup),
              fun _ => hloaded, fun _ => hlive hup⟩
          · exact ⟨hcursor, fun ho => absurd ho (hknown hup),
              fun _ => hloaded, fun _ => hlive hup⟩
  | disconnect =>
      cases hup : w.live with
      | false =>
          rw [World.step, hup, if_neg Bool.false_ne_true]
          exact h
      | true =>
          rw [World.step, hup, if_pos rfl]
          exact ⟨h.cursor, h.silent, h.loaded, fun _ => hlive hup⟩

/-- **EVERY RUN KEEPS IT**. -/
theorem run_tracked (acts : List Act) {w : World} (h : Tracked w) :
    Tracked (w.run S usdc acts) := by
  induction acts generalizing w with
  | nil => exact h
  | cons act acts ih => exact ih (step_tracked S usdc h act)

end

/-! ## The law -/

/-- A connection that reaches its catch-up at most `maximumBackfillBlocks`
    blocks after the loop of the last one ended, with the sources registered
    then. -/
structure ShortOutage (w : World) (c : Attempt) (x : Realtime)
    (sources : List Address) : Prop where
  down : w.live = false
  lost : ∃ at_, w.lost = some (at_, sources) ∧
    w.head + c.mined - at_ ≤ maximumBackfillBlocks
  prepared : prepare c w.head w.realtime = (x, none)

/-- The limit check of `backfillPending`. -/
def PassesLimit (head : Nat) (r : Registration) : Prop :=
  head - r.market.sourceStartBlock ≤ maximumBackfillBlocks

/-- **RECOVERY**: after a short outage every source that was registered before
    it passes the limit check. -/
def Recovers (w : World) (c : Attempt) : Prop :=
  ∀ x sources, ShortOutage w c x sources → ∀ a ∈ sources, ∀ r,
    x.pendingBackfills.lookup a = some r → PassesLimit (w.head + c.mined) r

/-- The block a source resumes from, by what was there before the reconnect:
    its own start if its registration is new or changed, the start of its
    catch-up if that is still pending, and else the newest event's block. -/
def resumeBlock (w : World) (a : Address) (r : Registration) : Nat :=
  if w.realtime.registry.bySource.lookup a = some r then
    match w.realtime.pendingBackfills.lookup a with
    | some p => p.market.sourceStartBlock
    | none => max r.market.sourceStartBlock (newest w)
  else r.market.sourceStartBlock

/-- The head is near the block each source resumes from. -/
def Near (w : World) (c : Attempt) : Prop :=
  ∀ x sources, ShortOutage w c x sources → ∀ a ∈ sources, ∀ r,
    x.registry.bySource.lookup a = some r →
      w.head + c.mined ≤ resumeBlock w a r + maximumBackfillBlocks

/-- What is queued for a source starts at the block it resumes from. -/
theorem queued_from {w : World} (h : Tracked w) {c : Attempt} {x : Realtime}
    {sources : List Address} (hs : ShortOutage w c x sources) (a : Address) :
    (∀ r, x.pendingBackfills.lookup a = some r →
      ∃ r₀, x.registry.bySource.lookup a = some r₀ ∧
        r.market.sourceStartBlock = resumeBlock w a r₀) ∧
    (∀ r₀, x.registry.bySource.lookup a = some r₀ →
      ∃ r, x.pendingBackfills.lookup a = some r ∧
        r.market.sourceStartBlock = resumeBlock w a r₀) := by
  obtain ⟨at_, hlost, -⟩ := hs.lost
  have hbegun : w.origin.isSome = true := h.begun (.inr (hlost ▸ rfl))
  obtain ⟨o, ho⟩ := Option.isSome_iff_exists.mp hbegun
  have hcursor := h.cursor
  rw [ho] at hcursor
  have hpending := prepare_pending hs.prepared (h.loaded hbegun) hcursor a
  cases hnext : x.registry.bySource.lookup a with
  | none =>
      rw [hnext] at hpending
      refine ⟨fun r hr => ?_, fun r₀ hr₀ => ?_⟩
      · rw [hpending] at hr
        cases hr
      · cases hr₀
  | some r₀ =>
      rw [hnext] at hpending
      obtain ⟨r, hr, hstart⟩ : ∃ r, x.pendingBackfills.lookup a = some r ∧
          r.market.sourceStartBlock = resumeBlock w a r₀ := by
        rw [hpending, resumeBlock]
        dsimp only
        by_cases hsame : w.realtime.registry.bySource.lookup a = some r₀
        · rw [if_pos hsame, if_pos hsame]
          cases w.realtime.pendingBackfills.lookup a with
          | some p => exact ⟨p, rfl, rfl⟩
          | none => exact ⟨_, rfl, rfl⟩
        · rw [if_neg hsame, if_neg hsame]
          exact ⟨r₀, rfl, rfl⟩
      refine ⟨fun r' hr' => ⟨r₀, rfl, ?_⟩, fun r₁ hr₁ => ⟨r, hr, ?_⟩⟩
      · rw [hr] at hr'
        obtain rfl := Option.some.inj hr'
        exact hstart
      · obtain rfl := Option.some.inj hr₁
        exact hstart

/-- **WHEN A RECONNECT RECOVERS**: in every run, after every short outage,
    exactly when the head is near the block each source resumes from. -/
theorem reconnect_recovers_iff (S : HexSort) (usdc : Address) (head : Nat)
    (acts : List Act) (c : Attempt) :
    Recovers ((World.new head).run S usdc acts) c ↔
      Near ((World.new head).run S usdc acts) c := by
  have h := run_tracked S usdc acts (tracked_new head)
  constructor
  · intro hrecovers x sources hs a ha r₀ hr₀
    obtain ⟨r, hr, hstart⟩ := (queued_from h hs a).2 r₀ hr₀
    have hlimit : _ - _ ≤ _ := hrecovers x sources hs a ha r hr
    rw [hstart] at hlimit
    omega
  · intro hnear x sources hs a ha r hr
    obtain ⟨r₀, hr₀, hstart⟩ := (queued_from h hs a).1 r hr
    have hle := hnear x sources hs a ha r₀ hr₀
    show _ - _ ≤ _
    rw [hstart]
    omega

/-- **WHAT A CONNECTION MAKES OF THE CHECK**: it comes up only if every pending
    source passes, and it fails by the limit only if the source it names does
    not. -/
theorem connect_limit (S : HexSort) (usdc : Address) (c : Attempt) (head : Nat)
    (x y : Realtime) (h : prepare c head x = (y, none)) :
    ((connect S usdc c head x).2 = none → c.headReadAgain = true →
      ∀ a r, y.pendingBackfills.lookup a = some r →
        PassesLimit (head + c.mined) r) ∧
    (∀ a n, (connect S usdc c head x).2 = some (.spans a n) →
      ∃ r, y.pendingBackfills.lookup a = some r ∧
        ¬ PassesLimit (head + c.mined) r) := by
  obtain ⟨-, hok, hspans⟩ := backfillPending_spec usdc c.filter S
    (if c.headReadAgain then some (head + c.mined) else none) y
  rw [connect, h]
  refine ⟨fun hnone hread a r hr => ?_, fun a n hfail => ?_⟩
  · exact hok (head + c.mined) (if_pos hread) hnone a r hr
  · obtain ⟨head', r, hhead, hr, rfl, hlt⟩ := hspans a n hfail
    refine ⟨r, hr, fun hpass => ?_⟩
    cases hread : c.headReadAgain with
    | false =>
        rw [hread] at hhead
        cases hhead
    | true =>
        rw [hread] at hhead
        obtain rfl := Option.some.inj hhead
        exact absurd hpass (Nat.not_le.mpr hlt)

/-! ## A quiet market -/

/-- Addresses in the order they come. -/
def asListed : HexSort := ⟨id, fun _ => .refl _⟩

/-- An attempt that meets one market and no logs. -/
def oneMarket (mined : Nat) : Attempt where
  dials := true
  markets := some [⟨1, 100, .curve, 0, 1⟩]
  subscribes := true
  headRead := true
  mined := mined
  headReadAgain := true
  filter := fun _ => some []

/-- **ONE BLOCK OF OUTAGE AFTER 513 QUIET ONES** is not recovered from. -/
theorem quiet_market_not_recovered :
    ¬ Recovers ((World.new 1000).run asListed 9
      [.connect (oneMarket 0), .mine 513, .disconnect]) (oneMarket 1) := by
  intro h
  have hlimit : 1514 - 1000 ≤ 512 :=
    h _ [100] ⟨rfl, ⟨1513, rfl, by decide⟩, rfl⟩ 100 List.mem_cons_self
      ⟨⟨1, 100, .curve, 0, 1000⟩, .curve⟩ rfl
  exact absurd hlimit (by decide)

end Reconnect
