import Cooket.MarketLogProofs

/-! # One log through the realtime service

    `handleLog` of `apps/realtime/internal/service/service.go` decodes a log,
    stamps it with its block's time, drops it if it has been delivered before,
    and publishes it.  Two bounded memories take part: the cache of block
    timestamps and the window of the DEDUPLICATOR.

    What the node answers to a header request, and whether the output accepts
    the event, is the ENVIRONMENT of the call. -/

namespace RealtimeService

open Contract MarketLog

/-! ## The deduplicator -/

/-- A delivery state of a log: its identity and whether it was removed. -/
structure Key where
  id : EventID
  removed : Bool
  deriving DecidableEq, Repr

/-- `market.Deduper`. -/
structure Deduper where
  capacity : Nat
  seen : Key → Bool
  order : List Key

/-- `NewDeduper`. -/
def NewDeduper (capacity : Nat) : Deduper :=
  ⟨if capacity < 1 then 1 else capacity, fun _ => false, []⟩

/-- **`Deduper.Accept`**: a key in the window is refused, any other one enters
    it, and the oldest key leaves a full window. -/
def Deduper.Accept (d : Deduper) (id : EventID) (removed : Bool) :
    Bool × Deduper :=
  let key : Key := ⟨id, removed⟩
  if d.seen key then (false, d)
  else
    match d.order with
    | oldest :: rest =>
        if d.order.length = d.capacity then
          (true, ⟨d.capacity,
            Function.update (Function.update d.seen oldest false) key true,
            rest ++ [key]⟩)
        else
          (true, ⟨d.capacity, Function.update d.seen key true,
            d.order ++ [key]⟩)
    | [] => (true, ⟨d.capacity, Function.update d.seen key true, [key]⟩)

/-- What is accepted is what is not in the window. -/
theorem Accept_fst (d : Deduper) (id : EventID) (removed : Bool) :
    (d.Accept id removed).1 = !d.seen ⟨id, removed⟩ := by
  unfold Deduper.Accept
  cases h : d.seen ⟨id, removed⟩ with
  | true => simp [h]
  | false =>
      simp only [h, Bool.false_eq_true, if_false, Bool.not_false]
      split
      · split
        · rfl
        · rfl
      · rfl

/-! ## Block timestamps -/

/-- A block header, as far as it is read. -/
structure Header where
  hash : Nat
  time : Nat
  deriving DecidableEq, Repr

/-- `blockTimestampCache`. -/
structure BlockTimestampCache where
  capacity : Nat
  values : Nat → Option Nat
  order : List Nat

/-- `newBlockTimestampCache`. -/
def newBlockTimestampCache (capacity : Nat) : BlockTimestampCache :=
  ⟨capacity, fun _ => none, []⟩

/-- `store`. -/
def BlockTimestampCache.store (c : BlockTimestampCache) (hash time : Nat) :
    BlockTimestampCache :=
  match c.values hash with
  | some _ => c
  | none =>
      match c.order with
      | oldest :: rest =>
          if c.order.length = c.capacity then
            ⟨c.capacity,
              Function.update (Function.update c.values oldest none) hash
                (some time), rest ++ [hash]⟩
          else
            ⟨c.capacity, Function.update c.values hash (some time),
              c.order ++ [hash]⟩
      | [] => ⟨c.capacity, Function.update c.values hash (some time), [hash]⟩

/-- How handling a log fails. -/
inductive HandleError where
  | decode (e : DecodeError)
  | noBlockHash
  | headerUnavailable
  | headerMismatch
  | publish
  deriving DecidableEq, Repr

/-- `get`.  The fetched header is the node's answer, if it came in time. -/
def BlockTimestampCache.get (c : BlockTimestampCache) (hash : Nat)
    (fetched : Option Header) :
    Except HandleError Nat × BlockTimestampCache :=
  if hash = 0 then (.error .noBlockHash, c)
  else
    match c.values hash with
    | some timestamp => (.ok timestamp, c)
    | none =>
        match fetched with
        | none => (.error .headerUnavailable, c)
        | some header =>
            if header.hash ≠ hash then (.error .headerMismatch, c)
            else (.ok header.time, c.store hash header.time)

/-- Every cached timestamp is the block's. -/
def BlockTimestampCache.Faithful (stamp : Nat → Nat)
    (c : BlockTimestampCache) : Prop :=
  ∀ hash time, c.values hash = some time → time = stamp hash

/-- A header is its block's. -/
def Genuine (stamp : Nat → Nat) (fetched : Option Header) : Prop :=
  ∀ header, fetched = some header → header.time = stamp header.hash

theorem store_faithful {stamp : Nat → Nat} {c : BlockTimestampCache}
    (h : c.Faithful stamp) {hash time : Nat} (ht : time = stamp hash) :
    (c.store hash time).Faithful stamp := by
  have hput : ∀ values : Nat → Option Nat,
      (∀ a t, values a = some t → t = stamp a) →
      ∀ a t, Function.update values hash (some time) a = some t →
        t = stamp a := by
    intro values hv a t hat
    by_cases ha : a = hash
    · subst ha
      rw [Function.update_self] at hat
      rw [← Option.some.inj hat]
      exact ht
    · rw [Function.update_of_ne ha] at hat
      exact hv a t hat
  have hdrop : ∀ oldest a t,
      Function.update c.values oldest none a = some t → t = stamp a := by
    intro oldest a t hat
    by_cases ha : a = oldest
    · subst ha
      rw [Function.update_self] at hat
      exact nomatch hat
    · rw [Function.update_of_ne ha] at hat
      exact h a t hat
  unfold BlockTimestampCache.store
  split
  · exact h
  · split
    · split
      · exact hput _ (hdrop _)
      · exact hput _ h
    · exact hput _ h

/-- A timestamp that is got is the block's, and the cache stays faithful. -/
theorem get_faithful {stamp : Nat → Nat} {c : BlockTimestampCache}
    (h : c.Faithful stamp) {hash : Nat} {fetched : Option Header}
    (hf : Genuine stamp fetched) :
    (c.get hash fetched).2.Faithful stamp ∧
      ∀ t, (c.get hash fetched).1 = .ok t → t = stamp hash := by
  unfold BlockTimestampCache.get
  split
  · exact ⟨h, fun _ ht => nomatch ht⟩
  · split
    · next time hv =>
      exact ⟨h, fun t ht => Except.ok.inj ht ▸ h hash time hv⟩
    · split
      · exact ⟨h, fun _ ht => nomatch ht⟩
      · next header =>
        split
        · exact ⟨h, fun _ ht => nomatch ht⟩
        · next hmatch =>
          obtain rfl := not_not.mp hmatch
          have htime := hf header rfl
          exact ⟨store_faithful h htime, fun t ht => by
            rw [← Except.ok.inj ht]
            exact htime⟩

/-! ## The handler -/

/-- The parts of `Service` a log meets. -/
structure Service where
  deduper : Deduper
  blockTimestamps : BlockTimestampCache
  reconnectFrom : Option Nat

/-- `dedupCapacity`. -/
def dedupCapacity : Nat := 10000

/-- `blockTimestampCacheCapacity`. -/
def blockTimestampCacheCapacity : Nat := 1024

/-- A service that has just been made. -/
def Service.new : Service :=
  ⟨NewDeduper dedupCapacity,
    newBlockTimestampCache blockTimestampCacheCapacity, none⟩

/-- What the surroundings answer while one log is handled: the header request,
    and the output. -/
structure Answer where
  fetched : Option Header
  encodes : Bool

/-- The timestamp stage: a removed log takes what is cached, any other one
    must have it. -/
def stampEvent (s : Service) (a : Answer) (entry : Log) (event : Event) :
    Except HandleError Event × BlockTimestampCache :=
  if entry.removed then
    (.ok { event with
      blockTimestamp := s.blockTimestamps.values entry.blockHash },
      s.blockTimestamps)
  else
    match s.blockTimestamps.get entry.blockHash a.fetched with
    | (.error e, cache) => (.error e, cache)
    | (.ok timestamp, cache) =>
        (.ok { event with blockTimestamp := some timestamp }, cache)

/-- The cursor a reconnect resumes from. -/
def advanceCursor (entry : Log) (reconnectFrom : Option Nat) : Option Nat :=
  match reconnectFrom with
  | none => none
  | some from' =>
      if entry.removed = false ∧ from' < entry.blockNumber then
        some entry.blockNumber
      else some from'

/-- **`handleLog`**: the service after the log, and the event it published, if
    it did. -/
def handleLog (usdc : Address) (resolve : Address → Option Registration)
    (s : Service) (a : Answer) (entry : Log) :
    Service × Except HandleError (Option Event) :=
  match decode usdc resolve entry with
  | .error e => (s, .error (.decode e))
  | .ok event =>
      match stampEvent s a entry event with
      | (.error e, cache) => ({ s with blockTimestamps := cache }, .error e)
      | (.ok event, cache) =>
          match s.deduper.Accept entry.id entry.removed with
          | (false, _) => ({ s with blockTimestamps := cache }, .ok none)
          | (true, deduper) =>
              if a.encodes then
                (⟨deduper, cache, advanceCursor entry s.reconnectFrom⟩,
                  .ok (some event))
              else
                ({ s with deduper := deduper, blockTimestamps := cache },
                  .error .publish)

/-- What was published, whatever else came of the log. -/
def published (r : Except HandleError (Option Event)) : Option Event :=
  match r with
  | .ok event => event
  | .error _ => none

/-- **WHAT IS PUBLISHED**: a decoded log whose delivery state is not in the
    window, once it has its timestamp and the output takes it. -/
theorem published_eq (usdc : Address) (resolve : Address → Option Registration)
    (s : Service) (a : Answer) (entry : Log) :
    published (handleLog usdc resolve s a entry).2
      = match decode usdc resolve entry with
        | .error _ => none
        | .ok event =>
            match (stampEvent s a entry event).1 with
            | .error _ => none
            | .ok event =>
                if s.deduper.seen ⟨entry.id, entry.removed⟩ = false
                    ∧ a.encodes = true then some event
                else none := by
  unfold handleLog
  cases decode usdc resolve entry with
  | error e => rfl
  | ok event =>
      simp only
      generalize hstamp : stampEvent s a entry event = r
      obtain ⟨res, cache⟩ := r
      cases res with
      | error e => rfl
      | ok event' =>
          have hfst := Accept_fst s.deduper entry.id entry.removed
          generalize hacc : s.deduper.Accept entry.id entry.removed = w at hfst
          obtain ⟨accepted, deduper⟩ := w
          simp only at hfst
          cases hseen : s.deduper.seen ⟨entry.id, entry.removed⟩ with
          | true =>
              rw [hseen] at hfst
              subst hfst
              rfl
          | false =>
              rw [hseen] at hfst
              subst hfst
              cases hen : a.encodes with
              | true =>
                  simp [published]
              | false =>
                  simp [published]

theorem stampEvent_faithful {stamp : Nat → Nat} {s : Service} {a : Answer}
    (h : s.blockTimestamps.Faithful stamp) (ha : Genuine stamp a.fetched)
    (entry : Log) (event : Event) :
    (stampEvent s a entry event).2.Faithful stamp := by
  unfold stampEvent
  split
  · exact h
  · have : (s.blockTimestamps.get entry.blockHash a.fetched).2.Faithful stamp :=
      (get_faithful h ha).1
    split
    · next e cache heq =>
      rw [heq] at this
      exact this
    · next t cache heq =>
      rw [heq] at this
      exact this

/-- **THE CACHE STAYS FAITHFUL** through every log. -/
theorem handleLog_faithful {stamp : Nat → Nat} {s : Service} {a : Answer}
    (h : s.blockTimestamps.Faithful stamp) (ha : Genuine stamp a.fetched)
    (usdc : Address) (resolve : Address → Option Registration) (entry : Log) :
    (handleLog usdc resolve s a entry).1.blockTimestamps.Faithful stamp := by
  unfold handleLog
  cases decode usdc resolve entry with
  | error e => exact h
  | ok event =>
      have hcache := stampEvent_faithful h ha entry event
      simp only
      generalize stampEvent s a entry event = r at hcache
      obtain ⟨res, cache⟩ := r
      cases res with
      | error e => exact hcache
      | ok event' =>
          simp only
          generalize s.deduper.Accept entry.id entry.removed = w
          obtain ⟨accepted, deduper⟩ := w
          cases accepted with
          | false => exact hcache
          | true =>
              simp only
              split
              · exact hcache
              · exact hcache

end RealtimeService
