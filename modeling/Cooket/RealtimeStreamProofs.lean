import Cooket.RealtimeServiceProofs
import Cooket.RunLawProofs
import Cooket.TokenRealtimeProofs

/-! # The realtime stream against the chain

    A node delivers logs and removals of logs.  The service publishes some of
    them; a page applies what is published, in order, as
    `useTokenRealtimeTrades` of `apps/web/src/lib/token-realtime.ts` does.

    The CHAIN is what the deliveries say it is: the last one about a log puts
    it on or takes it off.  A delivery may repeat the last one about its log,
    and a log that was taken off may come back, in the same block or another
    one.  The page is IN SYNC if it holds exactly the trades on the chain.

    The deduplicator remembers a delivery state longer than it lasts: a log
    that comes back within the window is refused, and so is its next removal.
    `stream_in_sync_iff` is the exact condition. -/

namespace RealtimeStream

open Contract MarketLog RealtimeService RunLaw TokenRealtime

/-! ## The system -/

/-- A delivery and what the surroundings answered meanwhile.  The market of an
    address never changes, but the registry may not have it yet, or not any
    more. -/
structure Delivery where
  entry : Log
  answer : Answer
  registered : Bool

/-- The registry as the delivery finds it. -/
def Delivery.registry (resolve : Address → Option Registration)
    (d : Delivery) : Address → Option Registration :=
  if d.registered then resolve else fun _ => none

/-- A log as it stands on the chain. -/
def onto (entry : Log) : Log := { entry with removed := false }

/-- The service, a page, and the last delivery about each log: the log, and
    whether it is on the chain. -/
structure Sys where
  service : Service
  page : List Event
  status : EventID → Option (Log × Bool)

/-- Nothing delivered yet. -/
def Sys.start : Sys := ⟨Service.new, [], fun _ => none⟩

section System

variable (usdc : Address) (resolve : Address → Option Registration)
  (token : Address) (watermark : Option Nat) (stamp : Nat → Nat)

/-- **ONE DELIVERY** through the service to the page. -/
def deliver (s : Sys) (d : Delivery) : Sys where
  service :=
    (handleLog usdc (d.registry resolve) s.service d.answer d.entry).1
  page := match published
      (handleLog usdc (d.registry resolve) s.service d.answer d.entry).2 with
    | none => s.page
    | some event => receive token watermark s.page event
  status := Function.update s.status d.entry.id
    (some (onto d.entry, !d.entry.removed))

/-- The trade a log on the chain is, for this token. -/
def tradeOf (l : Log) : Option Event :=
  match decode usdc resolve l with
  | .error _ => none
  | .ok event =>
      if event.token = token then
        some { event with blockTimestamp := some (stamp l.blockHash) }
      else none

/-- The log is on the chain. -/
def OnChain (s : Sys) (l : Log) : Prop := s.status l.id = some (l, true)

/-- **IN SYNC**: the page holds the trades on the chain, above its
    watermark. -/
def InSync (s : Sys) : Prop :=
  ∀ event, event ∈ s.page ↔ ∃ l, OnChain s l ∧
    tradeOf usdc resolve token stamp l = some event ∧
    retired watermark event.blockNumber = false

/-- **A CONSISTENT DELIVERY**: what comes first about a log is that it was
    added; a log on the chain is added again or removed, unchanged; one off the
    chain is removed again, unchanged, or comes back in any block.  Headers are
    their blocks'. -/
def Consistent (s : Sys) (d : Delivery) : Prop :=
  Genuine stamp d.answer.fetched ∧
  match s.status d.entry.id with
  | none => d.entry.removed = false
  | some (l, true) => onto d.entry = l
  | some (l, false) => d.entry.removed = false ∨ onto d.entry = l

/-- The delivery changes what the chain is. -/
def Changes (s : Sys) (d : Delivery) : Prop :=
  (∃ l, s.status d.entry.id = some (l, true)) ↔ d.entry.removed = true

/-- The delivery is about a trade of the token, above the watermark. -/
def Concerns (d : Delivery) : Prop :=
  ∃ event, tradeOf usdc resolve token stamp (onto d.entry) = some event ∧
    retired watermark event.blockNumber = false

/-- What an addition needs besides. -/
structure Admitted (s : Sys) (d : Delivery) : Prop where
  stamped : ∃ t, (s.service.blockTimestamps.get d.entry.blockHash
    d.answer.fetched).1 = .ok t
  block : d.entry.blockNumber ≤ maxSafeInteger
  index : d.entry.index ≤ maxSafeInteger
  timestamp : stamp d.entry.blockHash ≤ maxSafeInteger
  room : s.page.length < DEDUPE_CAPACITY

/-- **THE CONDITION** on a delivery that changes the chain for the page: the
    registry has its market, its delivery state is not in the window of the
    deduplicator, the output takes it, and if it is an addition its block's
    header can be had, its numbers are safe and the page has room. -/
def Passes (s : Sys) (d : Delivery) : Prop :=
  Changes s d → Concerns usdc resolve token watermark stamp d →
    d.registered = true ∧
    s.service.deduper.seen ⟨d.entry.id, d.entry.removed⟩ = false ∧
    d.answer.encodes = true ∧
    (d.entry.removed = false → Admitted stamp s d)

end System

/-! ## Decoding a removal -/

/-- Whether a log is removed does not change how it is read. -/
theorem decode_onto (usdc : Address)
    (resolve : Address → Option Registration) (entry : Log) :
    decode usdc resolve (onto entry)
      = (decode usdc resolve entry).map (fun e => { e with removed := false }) := by
  obtain ⟨address, payload, blockNumber, blockHash, txHash, txIndex, index,
    removed⟩ := entry
  unfold decode onto
  simp only
  cases resolve address with
  | none => rfl
  | some registration =>
      simp only
      cases registration.source with
      | curve =>
          cases payload with
          | tokensBought t buyer q =>
              simp only [decodeCurve]
              split
              · rfl
              · rfl
          | tokensSold t seller q =>
              simp only [decodeCurve]
              split
              · rfl
              · rfl
          | swap amount0 amount1 => rfl
          | other => rfl
      | uniswapV3 =>
          cases payload with
          | tokensBought t buyer q => rfl
          | tokensSold t seller q => rfl
          | swap amount0 amount1 =>
              simp only [decodeSwap]
              split
              · rfl
              · rfl
          | other => rfl

/-! ## What the page does with an event -/

section Receive

variable {token : Address} {watermark : Option Nat} {current : List Event}
  {event : Event}

theorem receive_foreign (h : event.token ≠ token) :
    receive token watermark current event = current := by
  cases hp : parses token event with
  | false => exact receive_refused hp
  | true => exact absurd (parses_token hp) h

/-- A removal of what is not there changes nothing. -/
theorem receive_removed_absent (hr : event.removed = true)
    (h : ∀ item ∈ current, item.identity ≠ event.identity) :
    receive token watermark current event = current := by
  cases hp : parses token event with
  | false => exact receive_refused hp
  | true =>
      rw [receive_parsed hp, received_removed hr]
      refine List.filter_eq_self.mpr ?_
      intro item hitem
      exact decide_eq_true (h item hitem)

/-- An event of a retired block changes nothing. -/
theorem receive_retired (hr : event.removed = false)
    (hw : retired watermark event.blockNumber = true) :
    receive token watermark current event = current := by
  cases hp : parses token event with
  | false => exact receive_refused hp
  | true => rw [receive_parsed hp, received_retired hr hw]

/-- An event the page has changes nothing. -/
theorem receive_known (hr : event.removed = false)
    (h : ∃ item ∈ current, item.identity = event.identity) :
    receive token watermark current event = current := by
  cases hp : parses token event with
  | false => exact receive_refused hp
  | true => rw [receive_parsed hp, received_known hr h]

end Receive

/-! ## What is published of a delivery -/

section Deliver

variable {usdc : Address} {resolve : Address → Option Registration}
  {token : Address} {watermark : Option Nat} {stamp : Nat → Nat}
  {s : Sys} {d : Delivery}

/-- The trade of a log, taken apart. -/
theorem tradeOf_some {l : Log} {event : Event}
    (h : tradeOf usdc resolve token stamp l = some event) :
    ∃ e, decode usdc resolve l = .ok e ∧ e.token = token ∧
      event = { e with blockTimestamp := some (stamp l.blockHash) } := by
  unfold tradeOf at h
  split at h
  · cases h
  · next e he =>
    split at h
    · next htoken =>
      exact ⟨e, he, htoken, (Option.some.inj h).symm⟩
    · cases h

theorem tradeOf_identity {l : Log} {event : Event}
    (h : tradeOf usdc resolve token stamp l = some event) :
    event.identity = l.id ∧ event.blockNumber = l.blockNumber ∧
      event.logIndex = l.index ∧ event.removed = l.removed := by
  obtain ⟨e, hdec, -, rfl⟩ := tradeOf_some h
  have hn := decode_names hdec
  exact ⟨hn.identity, hn.blockNumber, hn.logIndex, hn.removed⟩

@[simp] theorem onto_id (entry : Log) : (onto entry).id = entry.id := rfl

theorem onto_eq {entry : Log} (h : entry.removed = false) :
    onto entry = entry := by
  obtain ⟨⟩ := entry
  simp only at h
  subst h
  rfl

/-- A registry that has the market reads the log as it is. -/
theorem registry_of_registered (h : d.registered = true) :
    d.registry resolve = resolve := by
  rw [Delivery.registry, if_pos h]

theorem decode_of_registry {l : Log} {event : Event}
    (h : decode usdc (d.registry resolve) l = .ok event) :
    decode usdc resolve l = .ok event := by
  cases hreg : d.registered with
  | true => rwa [registry_of_registered hreg] at h
  | false =>
      rw [Delivery.registry, hreg] at h
      cases h

/-- Without a market nothing is published. -/
theorem published_unregistered (h : d.registered = false) :
    published (handleLog usdc (d.registry resolve) s.service d.answer
      d.entry).2 = none := by
  rw [Delivery.registry, h]
  rfl

/-- What the service publishes names the delivered log. -/
theorem published_names {event : Event}
    (h : published (handleLog usdc resolve s.service d.answer d.entry).2
      = some event) :
    event.identity = d.entry.id ∧ event.blockNumber = d.entry.blockNumber ∧
      event.removed = d.entry.removed ∧
      ∃ e, decode usdc resolve d.entry = .ok e ∧ event.token = e.token := by
  rw [published_eq] at h
  split at h
  · cases h
  · next e hdec =>
    have hn := decode_names hdec
    unfold stampEvent at h
    by_cases hr : d.entry.removed = true
    · rw [if_pos hr] at h
      simp only at h
      split at h
      · obtain rfl := Option.some.inj h
        exact ⟨hn.identity, hn.blockNumber, hn.removed, e, hdec, rfl⟩
      · cases h
    · rw [if_neg hr] at h
      split at h
      · cases h
      · next heq =>
        split at heq
        · cases heq
        · obtain rfl := Except.ok.inj heq
          split at h
          · obtain rfl := Option.some.inj h
            exact ⟨hn.identity, hn.blockNumber, hn.removed, e, hdec, rfl⟩
          · cases h

/-- What an addition needs to be published: its timestamp, a fresh delivery
    state, and an output that takes it. -/
def Publishes (s : Sys) (d : Delivery) : Prop :=
  (∃ t, (s.service.blockTimestamps.get d.entry.blockHash
      d.answer.fetched).1 = .ok t) ∧
    s.service.deduper.seen ⟨d.entry.id, false⟩ = false ∧
    d.answer.encodes = true

/-- **AN ADDITION** is published exactly if its delivery state is fresh, its
    timestamp can be had and the output takes it; what is published is the
    trade on the chain. -/
theorem published_added {event : Event}
    (hinv : s.service.blockTimestamps.Faithful stamp)
    (hgen : Genuine stamp d.answer.fetched) (hr : d.entry.removed = false)
    (htrade : tradeOf usdc resolve token stamp d.entry = some event) :
    (Publishes s d ∧
        published (handleLog usdc resolve s.service d.answer d.entry).2
          = some event) ∨
      (¬ Publishes s d ∧
        published (handleLog usdc resolve s.service d.answer d.entry).2
          = none) := by
  obtain ⟨e, hdec, -, rfl⟩ := tradeOf_some htrade
  have hstamp : ∀ t, (s.service.blockTimestamps.get d.entry.blockHash
      d.answer.fetched).1 = .ok t → t = stamp d.entry.blockHash :=
    (get_faithful hinv hgen).2
  rw [published_eq, hdec]
  simp only [stampEvent, hr, Bool.false_eq_true, if_false, Publishes]
  generalize s.service.blockTimestamps.get d.entry.blockHash d.answer.fetched
    = r at hstamp ⊢
  obtain ⟨res, cache⟩ := r
  cases res with
  | error err =>
      refine Or.inr ⟨?_, rfl⟩
      rintro ⟨⟨_, h⟩, -⟩
      exact nomatch h
  | ok t =>
      obtain rfl := hstamp t rfl
      by_cases hpass : s.service.deduper.seen ⟨d.entry.id, false⟩ = false ∧
          d.answer.encodes = true
      · exact Or.inl ⟨⟨⟨_, rfl⟩, hpass⟩, if_pos hpass⟩
      · exact Or.inr ⟨fun h => hpass h.2, if_neg hpass⟩

/-- **A REMOVAL** is published exactly if its delivery state is fresh and the
    output takes it. -/
theorem published_removed {event : Event}
    (hr : d.entry.removed = true)
    (htrade : tradeOf usdc resolve token stamp (onto d.entry) = some event) :
    (s.service.deduper.seen ⟨d.entry.id, true⟩ = false ∧
        d.answer.encodes = true ∧
      ∃ e, published (handleLog usdc resolve s.service d.answer d.entry).2
        = some e ∧ e.token = token ∧ e.identity = d.entry.id ∧
          e.removed = true ∧ e.blockNumber = d.entry.blockNumber ∧
          e.logIndex = d.entry.index ∧ wellFormed e = true ∧
          e.blockTimestamp
            = s.service.blockTimestamps.values d.entry.blockHash) ∨
    (¬ (s.service.deduper.seen ⟨d.entry.id, true⟩ = false ∧
        d.answer.encodes = true) ∧
      published (handleLog usdc resolve s.service d.answer d.entry).2
        = none) := by
  obtain ⟨e', hdec', htoken, -⟩ := tradeOf_some htrade
  rw [decode_onto] at hdec'
  cases hdec : decode usdc resolve d.entry with
  | error err =>
      rw [hdec] at hdec'
      cases hdec'
  | ok e =>
      rw [hdec] at hdec'
      obtain rfl := Except.ok.inj hdec'
      have hn := decode_names hdec
      have hformed := decode_wellFormed hdec
      rw [published_eq, hdec]
      simp only [stampEvent, hr, if_true]
      by_cases hpass : s.service.deduper.seen ⟨d.entry.id, true⟩ = false ∧
          d.answer.encodes = true
      · refine Or.inl ⟨hpass.1, hpass.2, _, if_pos hpass, htoken, hn.identity,
          ?_, hn.blockNumber, hn.logIndex, hformed, rfl⟩
        exact hn.removed.trans hr
      · exact Or.inr ⟨hpass, if_neg hpass⟩

/-! ## What every delivery keeps -/

/-- The cache knows the blocks, and the page holds parsed events of distinct
    identities. -/
structure Sound (token : Address) (stamp : Nat → Nat) (s : Sys) : Prop where
  faithful : s.service.blockTimestamps.Faithful stamp
  distinct : (s.page.map Event.identity).Nodup
  parsed : ∀ event ∈ s.page, parses token event = true

theorem sound_start : Sound token stamp Sys.start where
  faithful _ _ h := nomatch h
  distinct := .nil
  parsed _ h := absurd h List.not_mem_nil

theorem receive_sound {current : List Event} {event : Event}
    (hd : (current.map Event.identity).Nodup)
    (hp : ∀ e ∈ current, parses token e = true) :
    ((receive token watermark current event).map Event.identity).Nodup ∧
      ∀ e ∈ receive token watermark current event, parses token e = true := by
  cases hparse : parses token event with
  | false =>
      rw [receive_refused hparse]
      exact ⟨hd, hp⟩
  | true =>
      cases hr : event.removed with
      | true =>
          rw [receive_parsed hparse, received_removed hr]
          refine ⟨hd.sublist (List.filter_sublist.map _), ?_⟩
          intro e he
          exact hp e (List.mem_of_mem_filter he)
      | false =>
          cases hw : retired watermark event.blockNumber with
          | true =>
              rw [receive_retired hr hw]
              exact ⟨hd, hp⟩
          | false =>
              by_cases hknown : ∃ item ∈ current, item.identity = event.identity
              · rw [receive_known hr hknown]
                exact ⟨hd, hp⟩
              · have hnew : ∀ item ∈ current, item.identity ≠ event.identity :=
                  fun item hitem heq => hknown ⟨item, hitem, heq⟩
                rw [receive_parsed hparse, received_new hr hw hnew]
                have hall : ((current ++ [event]).map Event.identity).Nodup := by
                  rw [List.map_append]
                  refine List.nodup_append.mpr ⟨hd, List.nodup_singleton _, ?_⟩
                  intro a ha b hb hab
                  obtain ⟨item, hitem, rfl⟩ := List.mem_map.mp ha
                  rw [List.map_singleton, List.mem_singleton] at hb
                  exact hnew item hitem (hab.trans hb)
                refine ⟨hall.sublist ((List.drop_sublist _ _).map _), ?_⟩
                intro e he
                rcases List.mem_append.mp (List.mem_of_mem_drop he) with h | h
                · exact hp e h
                · rw [List.mem_singleton.mp h]
                  exact hparse

/-- **SOUNDNESS IS KEPT** by every delivery with genuine headers. -/
theorem deliver_sound (h : Sound token stamp s)
    (hc : Consistent stamp s d) :
    Sound token stamp (deliver usdc resolve token watermark s d) where
  faithful :=
    handleLog_faithful h.faithful hc.1 usdc (d.registry resolve) d.entry
  distinct := by
    show (List.map _ (match published _ with
      | none => s.page
      | some event => receive token watermark s.page event)).Nodup
    split
    · exact h.distinct
    · exact (receive_sound h.distinct h.parsed).1
  parsed := by
    intro e he
    change e ∈ (match published _ with
      | none => s.page
      | some event => receive token watermark s.page event) at he
    split at he
    · exact h.parsed e he
    · exact (receive_sound h.distinct h.parsed).2 e he

/-! ## The chain after a delivery -/

@[simp] theorem deliver_status (s : Sys) (d : Delivery) :
    (deliver usdc resolve token watermark s d).status
      = Function.update s.status d.entry.id
          (some (onto d.entry, !d.entry.removed)) := rfl

/-- Logs of another identity stay where they are. -/
theorem onChain_other {l : Log} (h : l.id ≠ d.entry.id) :
    OnChain (deliver usdc resolve token watermark s d) l ↔ OnChain s l := by
  rw [OnChain, OnChain, deliver_status, Function.update_of_ne h]

/-- The delivered log is on the chain exactly if it was added. -/
theorem onChain_same {l : Log} (h : l.id = d.entry.id) :
    OnChain (deliver usdc resolve token watermark s d) l
      ↔ l = onto d.entry ∧ d.entry.removed = false := by
  rw [OnChain, deliver_status, h, Function.update_self, Option.some.injEq,
    Prod.mk.injEq, Bool.not_eq_true', eq_comm]

/-- What is off the chain is off a page in sync. -/
theorem absent_of_off
    (hsync : InSync usdc resolve token watermark stamp s) {id : EventID}
    (h : ∀ l, s.status id ≠ some (l, true)) :
    ∀ item ∈ s.page, item.identity ≠ id := by
  intro item hitem heq
  obtain ⟨l, hon, htrade, -⟩ := (hsync item).mp hitem
  have hid := (tradeOf_identity htrade).1
  rw [hid] at heq
  rw [OnChain, heq] at hon
  exact h l hon

/-- A page that stays, over a chain that stays for it, stays in sync. -/
theorem sync_of_same (hsync : InSync usdc resolve token watermark stamp s)
    (hpage : (deliver usdc resolve token watermark s d).page = s.page)
    (hsame : ∀ l event, l.id = d.entry.id →
      tradeOf usdc resolve token stamp l = some event →
      retired watermark event.blockNumber = false →
      (OnChain (deliver usdc resolve token watermark s d) l ↔ OnChain s l)) :
    InSync usdc resolve token watermark stamp
      (deliver usdc resolve token watermark s d) := by
  intro event
  rw [hpage, hsync event]
  refine exists_congr ?_
  intro l
  constructor
  · rintro ⟨hon, htrade, hw⟩
    refine ⟨?_, htrade, hw⟩
    by_cases hid : l.id = d.entry.id
    · exact (hsame l event hid htrade hw).mpr hon
    · exact (onChain_other hid).mpr hon
  · rintro ⟨hon, htrade, hw⟩
    refine ⟨?_, htrade, hw⟩
    by_cases hid : l.id = d.entry.id
    · exact (hsame l event hid htrade hw).mp hon
    · exact (onChain_other hid).mp hon

theorem page_of_none
    (h : published (handleLog usdc (d.registry resolve) s.service d.answer
      d.entry).2 = none) :
    (deliver usdc resolve token watermark s d).page = s.page := by
  simp only [deliver, h]

theorem page_of_some {event : Event}
    (h : published (handleLog usdc (d.registry resolve) s.service d.answer
      d.entry).2 = some event) :
    (deliver usdc resolve token watermark s d).page
      = receive token watermark s.page event := by
  simp only [deliver, h]

/-- **A DELIVERY THAT LEAVES THE PAGE ALONE** although it changes the chain for
    the page puts it out of sync. -/
theorem not_sync_of_silent
    (hsync : InSync usdc resolve token watermark stamp s)
    (hc : Consistent stamp s d) (hchange : Changes s d)
    (hconcern : Concerns usdc resolve token watermark stamp d)
    (hpage : (deliver usdc resolve token watermark s d).page = s.page) :
    ¬ InSync usdc resolve token watermark stamp
      (deliver usdc resolve token watermark s d) := by
  obtain ⟨event, htrade, hw⟩ := hconcern
  have hid := (tradeOf_identity htrade).1
  intro hs
  cases hr : d.entry.removed with
  | false =>
      -- the trade came, and the page lacks it
      have hoff : ∀ l, s.status d.entry.id ≠ some (l, true) := by
        intro l hl
        have := hchange.mp ⟨l, hl⟩
        rw [hr] at this
        exact nomatch this
      have hon : OnChain (deliver usdc resolve token watermark s d)
          (onto d.entry) :=
        (onChain_same (onto_id d.entry)).mpr ⟨rfl, hr⟩
      have hheld := (hs event).mpr ⟨onto d.entry, hon, htrade, hw⟩
      rw [hpage] at hheld
      exact absent_of_off hsync hoff event hheld hid
  | true =>
      -- the trade went, and the page still has it
      have hon : OnChain s (onto d.entry) := by
        obtain ⟨l, hl⟩ := hchange.mpr hr
        have hcase := hc.2
        rw [hl] at hcase
        rw [OnChain, onto_id, hl, show onto d.entry = l from hcase]
      have hheld := (hsync event).mpr ⟨onto d.entry, hon, htrade, hw⟩
      rw [← hpage] at hheld
      obtain ⟨l, hl, htl, -⟩ := (hs event).mp hheld
      have hsame := (onChain_same
        ((tradeOf_identity htl).1.symm.trans hid)).mp hl
      rw [hr] at hsame
      exact nomatch hsame.2

/-- Whatever is published of a delivery that does not concern the page leaves
    the page alone, if it is off the page. -/
theorem page_of_unconcerned
    (hconcern : ¬ Concerns usdc resolve token watermark stamp d)
    (habsent : d.entry.removed = true →
      ∀ item ∈ s.page, item.identity ≠ d.entry.id) :
    (deliver usdc resolve token watermark s d).page = s.page := by
  cases hpub : published (handleLog usdc (d.registry resolve) s.service
      d.answer d.entry).2 with
  | none => exact page_of_none hpub
  | some event =>
      rw [page_of_some hpub]
      obtain ⟨hid, hblock, hrem, e, hdec, htok⟩ := published_names hpub
      have hdec := decode_of_registry hdec
      by_cases htoken : event.token = token
      · cases hr : d.entry.removed with
        | true =>
            refine receive_removed_absent (hrem.trans hr) ?_
            rw [hid]
            exact habsent hr
        | false =>
            -- a trade of the token, so its block is retired
            refine receive_retired (hrem.trans hr) ?_
            by_contra hw
            refine hconcern
              ⟨{ e with blockTimestamp := some (stamp d.entry.blockHash) },
                ?_, ?_⟩
            · rw [onto_eq hr, tradeOf, hdec]
              exact if_pos (htok.symm.trans htoken)
            · have hn := decode_names hdec
              show retired watermark e.blockNumber = false
              rw [hn.blockNumber, ← hblock]
              exact Bool.eq_false_of_not_eq_true hw
      · exact receive_foreign htoken

/-! ## One delivery -/

/-- An addition that concerns the page, of a registered market. -/
theorem added_sync_iff (h : Sound token stamp s) (hc : Consistent stamp s d)
    (hsync : InSync usdc resolve token watermark stamp s)
    (hreg : d.registered = true) (hr : d.entry.removed = false)
    (hchange : Changes s d) {event : Event}
    (htrade : tradeOf usdc resolve token stamp d.entry = some event)
    (hw : retired watermark event.blockNumber = false) :
    InSync usdc resolve token watermark stamp
        (deliver usdc resolve token watermark s d) ↔
      s.service.deduper.seen ⟨d.entry.id, false⟩ = false ∧
        d.answer.encodes = true ∧ Admitted stamp s d := by
  have hresolve : d.registry resolve = resolve := registry_of_registered hreg
  obtain ⟨hid, hblock, hindex, hrem⟩ := tradeOf_identity htrade
  obtain ⟨e, hdec, htok, hevent⟩ := tradeOf_some htrade
  have hoff : ∀ l, s.status d.entry.id ≠ some (l, true) := by
    intro l hl
    have := hchange.mp ⟨l, hl⟩
    rw [hr] at this
    exact Bool.false_ne_true this
  have habsent := absent_of_off hsync hoff
  have hnew : event ∉ s.page := fun hmem => habsent event hmem hid
  have hon : OnChain (deliver usdc resolve token watermark s d) d.entry :=
    (onChain_same rfl).mpr ⟨(onto_eq hr).symm, hr⟩
  have hsilent := not_sync_of_silent hsync hc hchange
    ⟨event, (onto_eq hr).symm ▸ htrade, hw⟩
  have hstill : ∀ item ∈ s.page, ∃ l,
      OnChain (deliver usdc resolve token watermark s d) l ∧
      tradeOf usdc resolve token stamp l = some item ∧
      retired watermark item.blockNumber = false := by
    intro item hitem
    obtain ⟨l, hl, htl, hwl⟩ := (hsync item).mp hitem
    refine ⟨l, (onChain_other ?_).mpr hl, htl, hwl⟩
    intro heq
    exact habsent item hitem ((tradeOf_identity htl).1.trans heq)
  have hparses : parses token event = true ↔
      d.entry.blockNumber ≤ maxSafeInteger ∧ d.entry.index ≤ maxSafeInteger ∧
        stamp d.entry.blockHash ≤ maxSafeInteger := by
    have htoken : event.token = token := by
      rw [hevent]
      exact htok
    have hts : event.blockTimestamp = some (stamp d.entry.blockHash) := by
      rw [hevent]
    have hformed : wellFormed event = true := by
      have hdecoded := decode_wellFormed hdec
      rw [hevent]
      exact hdecoded
    simp only [parses, htoken, hformed, hblock, hindex, hts, Bool.and_eq_true,
      decide_eq_true_eq, true_and, and_assoc]
  rcases published_added h.faithful hc.1 hr htrade with
    ⟨⟨hstamp, hseen, hen⟩, hpub⟩ | ⟨hnot, hpub⟩
  · rw [← hresolve] at hpub
    have hpage : (deliver usdc resolve token watermark s d).page = _ :=
      page_of_some hpub
    cases hp : parses token event with
    | false =>
        -- the page does not read the event
        have hsame : (deliver usdc resolve token watermark s d).page = s.page := by
          rw [hpage, receive_refused hp]
        refine iff_of_false (hsilent hsame) ?_
        rintro ⟨-, -, hadm⟩
        rw [hparses.mpr ⟨hadm.block, hadm.index, hadm.timestamp⟩] at hp
        exact Bool.false_ne_true hp.symm
    | true =>
        have hother : ∀ item ∈ s.page, item.identity ≠ event.identity :=
          fun item hitem heq => habsent item hitem (heq.trans hid)
        rw [receive_parsed hp] at hpage
        obtain ⟨hnum, hidx, hts⟩ := hparses.mp hp
        rcases Nat.lt_or_ge s.page.length DEDUPE_CAPACITY with hroom | hfull
        · -- there is room: the page gains exactly the event
          rw [received_room (hrem.trans hr) hw hother hroom] at hpage
          refine ⟨fun _ => ⟨hseen, hen, hstamp, hnum, hidx, hts, hroom⟩, ?_⟩
          intro _ item
          rw [hpage, List.mem_append, List.mem_singleton]
          constructor
          · rintro (hitem | rfl)
            · exact hstill item hitem
            · exact ⟨d.entry, hon, htrade, hw⟩
          · rintro ⟨l, hl, htl, hwl⟩
            by_cases hidl : l.id = d.entry.id
            · obtain ⟨rfl, -⟩ := (onChain_same hidl).mp hl
              rw [onto_eq hr, htrade] at htl
              exact Or.inr (Option.some.inj htl).symm
            · exact Or.inl ((hsync item).mpr
                ⟨l, (onChain_other hidl).mp hl, htl, hwl⟩)
        · -- the oldest event is cut off while its trade stays on the chain
          refine iff_of_false ?_
            (fun hadm => Nat.not_lt_of_ge hfull hadm.2.2.room)
          intro hs
          obtain ⟨first, rest, hfirst⟩ := List.exists_cons_of_length_pos
            (Nat.lt_of_lt_of_le (by decide) hfull)
          have hmem : first ∈ s.page := hfirst ▸ List.mem_cons_self
          have hkept := (hs first).mpr (hstill first hmem)
          rw [hfirst] at hpage hother hfull
          rw [hpage, received_full (hrem.trans hr) hw hother hfull] at hkept
          have hdist := h.distinct
          rw [hfirst, List.map_cons, List.nodup_cons] at hdist
          rcases List.mem_append.mp (List.mem_of_mem_drop hkept)
            with hin | hlast
          · exact hdist.1 (List.mem_map_of_mem hin)
          · exact hother first List.mem_cons_self
              (congrArg Event.identity (List.mem_singleton.mp hlast))
  · rw [← hresolve] at hpub
    refine iff_of_false (hsilent (page_of_none hpub)) ?_
    rintro ⟨hseen, hen, hadm⟩
    exact hnot ⟨hadm.stamped, hseen, hen⟩

/-- A removal that concerns the page, of a registered market. -/
theorem removed_sync_iff (h : Sound token stamp s) (hc : Consistent stamp s d)
    (hsync : InSync usdc resolve token watermark stamp s)
    (hreg : d.registered = true) (hr : d.entry.removed = true)
    (hchange : Changes s d) {event : Event}
    (htrade : tradeOf usdc resolve token stamp (onto d.entry) = some event)
    (hw : retired watermark event.blockNumber = false) :
    InSync usdc resolve token watermark stamp
        (deliver usdc resolve token watermark s d) ↔
      s.service.deduper.seen ⟨d.entry.id, true⟩ = false ∧
        d.answer.encodes = true := by
  have hresolve : d.registry resolve = resolve := registry_of_registered hreg
  obtain ⟨hid, hblock, hindex, -⟩ := tradeOf_identity htrade
  have hon : s.status d.entry.id = some (onto d.entry, true) := by
    obtain ⟨l, hl⟩ := hchange.mpr hr
    have hcase := hc.2
    rw [hl] at hcase
    rw [hl, show onto d.entry = l from hcase]
  have hheld : event ∈ s.page :=
    (hsync event).mpr ⟨onto d.entry, hon, htrade, hw⟩
  have hgone : ∀ l, l.id = d.entry.id →
      ¬ OnChain (deliver usdc resolve token watermark s d) l := by
    intro l hl hcon
    have := ((onChain_same hl).mp hcon).2
    rw [hr] at this
    exact nomatch this
  rcases published_removed hr htrade with
    ⟨hseen, hen, out, hpub, htok, hoid, horem, hoblock, hoindex, hoformed,
      hots⟩
    | ⟨hnot, hpub⟩
  · -- the page reads the removal, since it read the addition
    have hparse : parses token out = true := by
      have hp := h.parsed event hheld
      simp only [parses, Bool.and_eq_true, decide_eq_true_eq] at hp ⊢
      obtain ⟨⟨⟨-, hnum⟩, hidx⟩, htime⟩ := hp
      refine ⟨⟨⟨⟨htok, hoformed⟩, ?_⟩, ?_⟩, ?_⟩
      · rw [hoblock]
        exact hblock ▸ hnum
      · rw [hoindex]
        exact hindex ▸ hidx
      · rw [hots]
        cases hv : s.service.blockTimestamps.values d.entry.blockHash with
        | none => exact horem
        | some t =>
            obtain rfl := h.faithful _ t hv
            obtain ⟨e, -, -, rfl⟩ := tradeOf_some htrade
            exact htime
    rw [← hresolve] at hpub
    have hpage : (deliver usdc resolve token watermark s d).page = _ :=
      page_of_some hpub
    rw [receive_parsed hparse, received_removed horem] at hpage
    refine ⟨fun _ => ⟨hseen, hen⟩, ?_⟩
    intro _ item
    rw [hpage, List.mem_filter, decide_eq_true_eq, hoid, hsync item]
    constructor
    · rintro ⟨⟨l, hl, htl, hwl⟩, hne⟩
      have hidl : l.id ≠ d.entry.id := by
        rw [← (tradeOf_identity htl).1]
        exact hne
      exact ⟨l, (onChain_other hidl).mpr hl, htl, hwl⟩
    · rintro ⟨l, hl, htl, hwl⟩
      have hidl : l.id ≠ d.entry.id := fun heq => hgone l heq hl
      refine ⟨⟨l, (onChain_other hidl).mp hl, htl, hwl⟩, ?_⟩
      rw [(tradeOf_identity htl).1]
      exact hidl
  · rw [← hresolve] at hpub
    refine iff_of_false ?_ hnot
    exact not_sync_of_silent hsync hc hchange ⟨event, htrade, hw⟩
      (page_of_none hpub)

/-- What does not matter to the page leaves it in sync. -/
theorem sync_of_unconcerned
    (hsync : InSync usdc resolve token watermark stamp s)
    (hc : Consistent stamp s d)
    (hconcern : ¬ Concerns usdc resolve token watermark stamp d) :
    InSync usdc resolve token watermark stamp
      (deliver usdc resolve token watermark s d) := by
  have hcase := hc.2
  have hnone : ∀ l event, l.id = d.entry.id → OnChain s l →
      tradeOf usdc resolve token stamp l = some event →
      retired watermark event.blockNumber = false → False := by
    intro l event hid hl htl hwl
    have hst : s.status d.entry.id = some (l, true) := hid ▸ hl
    rw [hst] at hcase
    have hcase : onto d.entry = l := hcase
    exact hconcern ⟨event, hcase ▸ htl, hwl⟩
  refine sync_of_same hsync (page_of_unconcerned hconcern ?_) ?_
  · intro _ item hitem heq
    obtain ⟨l, hl, htl, hwl⟩ := (hsync item).mp hitem
    exact hnone l item ((tradeOf_identity htl).1.symm.trans heq) hl htl hwl
  · intro l event hid htl hwl
    refine ⟨fun hl => ?_, fun hl => (hnone l event hid hl htl hwl).elim⟩
    obtain ⟨rfl, -⟩ := (onChain_same hid).mp hl
    exact absurd ⟨event, htl, hwl⟩ hconcern

/-- The chain has what a repeat delivers. -/
theorem status_of_repeat (hc : Consistent stamp s d)
    (hchange : ¬ Changes s d) :
    s.status d.entry.id = some (onto d.entry, !d.entry.removed) := by
  have hcase := hc.2
  unfold Changes at hchange
  cases hst : s.status d.entry.id with
  | none =>
      rw [hst] at hcase hchange
      have hr : d.entry.removed = false := hcase
      exact absurd (by simp [hr]) hchange
  | some p =>
      obtain ⟨l, on⟩ := p
      rw [hst] at hcase hchange
      cases on with
      | true =>
          have hl : onto d.entry = l := hcase
          cases hr : d.entry.removed with
          | false => rw [hl]; rfl
          | true => exact absurd (by simp [hr]) hchange
      | false =>
          cases hr : d.entry.removed with
          | false => exact absurd (by simp [hr]) hchange
          | true =>
              rcases hcase with h' | hl
              · rw [hr] at h'
                exact nomatch h'
              · rw [hl]
                rfl

/-- A repeat leaves the page in sync. -/
theorem sync_of_repeat
    (hsync : InSync usdc resolve token watermark stamp s)
    (hc : Consistent stamp s d) (hchange : ¬ Changes s d) :
    InSync usdc resolve token watermark stamp
      (deliver usdc resolve token watermark s d) := by
  have hstatus := status_of_repeat hc hchange
  have hsame : ∀ l, OnChain (deliver usdc resolve token watermark s d) l
      ↔ OnChain s l := by
    intro l
    rw [OnChain, OnChain, deliver_status, ← hstatus, Function.update_eq_self]
  refine sync_of_same hsync ?_ (fun l _ _ _ _ => hsame l)
  cases hr : d.entry.removed with
  | true =>
      -- a removal again: nothing of that identity is on the page
      have hoff : ∀ l, s.status d.entry.id ≠ some (l, true) := by
        intro l hl
        rw [hstatus, hr] at hl
        exact nomatch hl
      have habsent := absent_of_off hsync hoff
      cases hpub : published (handleLog usdc (d.registry resolve)
          s.service d.answer d.entry).2 with
      | none => exact page_of_none hpub
      | some out =>
          rw [page_of_some hpub]
          obtain ⟨hoid, -, horem, -⟩ := published_names hpub
          refine receive_removed_absent (horem.trans hr) ?_
          rw [hoid]
          exact habsent
  | false =>
      -- an addition again: the page has the trade
      by_cases hconcern : Concerns usdc resolve token watermark stamp d
      · obtain ⟨event, htrade, hw⟩ := hconcern
        rw [hr] at hstatus
        have hheld : event ∈ s.page :=
          (hsync event).mpr ⟨onto d.entry, hstatus, htrade, hw⟩
        have hid := (tradeOf_identity htrade).1
        cases hpub : published (handleLog usdc (d.registry resolve)
            s.service d.answer d.entry).2 with
        | none => exact page_of_none hpub
        | some out =>
            rw [page_of_some hpub]
            obtain ⟨hoid, -, horem, -⟩ := published_names hpub
            exact receive_known (horem.trans hr)
              ⟨event, hheld, hid.trans hoid.symm⟩
      · refine page_of_unconcerned hconcern ?_
        intro htrue
        rw [hr] at htrue
        exact nomatch htrue

/-- **ONE DELIVERY** keeps the page in sync exactly if it passes. -/
theorem deliver_sync_iff (h : Sound token stamp s)
    (hsync : InSync usdc resolve token watermark stamp s)
    (hc : Consistent stamp s d) :
    InSync usdc resolve token watermark stamp
        (deliver usdc resolve token watermark s d) ↔
      Passes usdc resolve token watermark stamp s d := by
  by_cases hchange : Changes s d
  · -- the status of the log changes
    by_cases hconcern : Concerns usdc resolve token watermark stamp d
    · cases hreg : d.registered with
      | false =>
          refine iff_of_false (not_sync_of_silent hsync hc hchange hconcern
            (page_of_none (published_unregistered hreg))) ?_
          intro hp
          have hknown := (hp hchange hconcern).1
          rw [hreg] at hknown
          exact nomatch hknown
      | true =>
          have hpasses : Passes usdc resolve token watermark stamp s d ↔
              s.service.deduper.seen ⟨d.entry.id, d.entry.removed⟩ = false ∧
                d.answer.encodes = true ∧
                (d.entry.removed = false → Admitted stamp s d) :=
            ⟨fun hp => (hp hchange hconcern).2, fun hp _ _ => ⟨hreg, hp⟩⟩
          rw [hpasses]
          obtain ⟨event, htrade, hw⟩ := hconcern
          cases hr : d.entry.removed with
          | false =>
              have htrade' := htrade
              rw [onto_eq hr] at htrade'
              rw [added_sync_iff h hc hsync hreg hr hchange htrade' hw]
              simp only [forall_const]
          | true =>
              rw [removed_sync_iff h hc hsync hreg hr hchange htrade hw]
              simp
    · -- it does not matter to the page
      exact ⟨fun _ _ hcon => absurd hcon hconcern,
        fun _ => sync_of_unconcerned hsync hc hconcern⟩
  · -- the status stays what it was
    exact ⟨fun _ hcon => absurd hcon hchange,
      fun _ => sync_of_repeat hsync hc hchange⟩

/-! ## Every run -/

theorem sync_start :
    InSync usdc resolve token watermark stamp Sys.start := by
  intro event
  refine ⟨fun h => absurd h List.not_mem_nil, ?_⟩
  rintro ⟨l, hl, -⟩
  exact nomatch hl

/-- **WHEN THE STREAM NETS OUT TO THE CHAIN.**  Over every consistent run from
    the start, the page holds exactly the trades on the chain in every state
    reached if and only if every delivery passes in the state it finds. -/
theorem stream_in_sync_iff (usdc : Address)
    (resolve : Address → Option Registration) (token : Address)
    (watermark : Option Nat) (stamp : Nat → Nat) (ds : List Delivery)
    (hds : Throughout (deliver usdc resolve token watermark)
      (Consistent stamp) Sys.start ds) :
    Always (deliver usdc resolve token watermark)
        (InSync usdc resolve token watermark stamp) Sys.start ds ↔
      Throughout (deliver usdc resolve token watermark)
        (Passes usdc resolve token watermark stamp) Sys.start ds :=
  always_iff (deliver usdc resolve token watermark)
    (fun _ _ h hc => deliver_sound h hc)
    (fun _ _ h hsync hc => deliver_sync_iff h hsync hc)
    sound_start sync_start hds

end Deliver

/-! ## A log that comes back -/

/-- One graduated market: the token at 2, traded in the pool at 3. -/
def onePool (a : Address) : Option Registration :=
  if a = 3 then some ⟨⟨2, 4, .graduated, 3, 1⟩, .uniswapV3⟩ else none

/-- A swap in it, in block 7. -/
def oneSwap : Log := ⟨3, .swap (-5) 7, 7, 70, 700, 0, 0, false⟩

/-- The swap as it is published, the block being a minute into the epoch. -/
def oneSwapEvent : Event :=
  { baseEvent 2 3 .uniswapV3 .sell oneSwap 7 5 6 with
    blockTimestamp := some 60 }

def answered : Answer := ⟨some ⟨70, 60⟩, true⟩

/-- It is added, removed by a reorganisation, and added again. -/
def comesBack : List Delivery :=
  [⟨oneSwap, answered, true⟩,
    ⟨{ oneSwap with removed := true }, answered, true⟩,
    ⟨oneSwap, answered, true⟩]

theorem consistent_comesBack :
    Throughout (deliver 1 onePool 2 none) (Consistent fun _ => 60) Sys.start
      comesBack := by
  have hgen : Genuine (fun _ => 60) answered.fetched := by
    rintro header h
    obtain rfl := Option.some.inj h
    rfl
  exact ⟨⟨hgen, rfl⟩, ⟨hgen, rfl⟩, ⟨hgen, Or.inl rfl⟩, trivial⟩

/-- **THE TRADE IS LOST.**  The swap is on the chain again and the page is
    empty: the deduplicator still remembers its first delivery. -/
theorem comesBack_out_of_sync :
    Throughout (deliver 1 onePool 2 none) (Consistent fun _ => 60) Sys.start
        comesBack ∧
      (comesBack.foldl (deliver 1 onePool 2 none) Sys.start).page = [] ∧
      OnChain (comesBack.foldl (deliver 1 onePool 2 none) Sys.start) oneSwap ∧
      tradeOf 1 onePool 2 (fun _ => 60) oneSwap = some oneSwapEvent ∧
      ¬ InSync 1 onePool 2 none (fun _ => 60)
        (comesBack.foldl (deliver 1 onePool 2 none) Sys.start) := by
  have hpage : (comesBack.foldl (deliver 1 onePool 2 none) Sys.start).page
      = [] := by
    decide +kernel
  have hon : OnChain (comesBack.foldl (deliver 1 onePool 2 none) Sys.start)
      oneSwap := by
    unfold OnChain
    decide +kernel
  have htrade : tradeOf 1 onePool 2 (fun _ => 60) oneSwap
      = some oneSwapEvent := by
    decide +kernel
  refine ⟨consistent_comesBack, hpage, hon, htrade, ?_⟩
  intro hsync
  have hmem := (hsync oneSwapEvent).mpr ⟨oneSwap, hon, htrade, rfl⟩
  rw [hpage] at hmem
  exact absurd hmem List.not_mem_nil

theorem stream_in_sync_iff_comesBack :
    Always (deliver 1 onePool 2 none)
        (InSync 1 onePool 2 none fun _ => 60) Sys.start comesBack ↔
      Throughout (deliver 1 onePool 2 none)
        (Passes 1 onePool 2 none fun _ => 60) Sys.start comesBack :=
  stream_in_sync_iff 1 onePool 2 none (fun _ => 60) comesBack
    consistent_comesBack

end RealtimeStream
