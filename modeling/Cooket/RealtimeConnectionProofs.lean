import Cooket.KeysetProofs
import Cooket.MapAssignProofs
import Cooket.RealtimeServiceProofs

/-! # The connections of the realtime service

    `Run` of `apps/realtime/internal/service/service.go` keeps one connection
    to the node at a time.  A connection reloads the market registry,
    subscribes to its sources, CATCHES UP on the sources that need it, and then
    handles the logs it is sent until something fails.  What survives from one
    connection to the next is the registry, the sources still to be caught up
    (`pendingBackfills`) and the cursor a reconnect resumes from
    (`reconnectFrom`).

    What the database, the node and the output answer is the environment of
    each step.  The addresses of a catch-up are visited in the order of their
    checksummed texts; since that order matters to nothing below, it is any
    reordering (`HexSort`). -/

namespace RealtimeService

open Contract MarketLog MapAssign Keyset

/-! ## The registry -/

/-- How `Registry.Replace` fails. -/
inductive RegistryError where
  | zeroAddress
  | noCanonicalPool (token : Address)
  | noStartBlock (token : Address)
  | duplicateToken (token : Address)
  | sharedSource (source : Address)
  deriving DecidableEq, Repr

/-- `Market.Validate`. -/
def validate (m : Market) : Except RegistryError Unit :=
  if m.token = 0 ∨ m.curve = 0 then .error .zeroAddress
  else if m.stage = .graduated ∧ m.canonicalPool = 0 then
    .error (.noCanonicalPool m.token)
  else if m.sourceStartBlock = 0 then .error (.noStartBlock m.token)
  else .ok ()

/-- The address a market's logs come from, and their kind. -/
def sourceOf (m : Market) : Address × Source :=
  match m.stage with
  | .curve => (m.curve, .curve)
  | .graduated => (m.canonicalPool, .uniswapV3)

/-- `Registry`. -/
structure Registry where
  byToken : Map Address Market
  bySource : Map Address Registration

/-- `NewRegistry`. -/
def NewRegistry : Registry := ⟨∅, ∅⟩

/-- One turn of the loop of `Replace`. -/
def register (next : Registry) (entry : Market) :
    Except RegistryError Registry := do
  validate entry
  if entry.token ∈ next.byToken then .error (.duplicateToken entry.token)
  else if (sourceOf entry).1 ∈ next.bySource then
    .error (.sharedSource (sourceOf entry).1)
  else
    .ok
      { byToken := next.byToken.insert entry.token entry
        bySource :=
          next.bySource.insert (sourceOf entry).1 ⟨entry, (sourceOf entry).2⟩ }

/-- `equalMarkets`. -/
def equalMarkets (left right : Map Address Market) : Bool :=
  left.keys.length = right.keys.length &&
    left.entries.all fun e => right.lookup e.1 = some e.2

/-- **`Replace`**: the next registry, and whether it is another one. -/
def Registry.Replace (r : Registry) (markets : List Market) :
    Except RegistryError (Registry × Bool) := do
  let next ← markets.foldlM register NewRegistry
  .ok (next, !equalMarkets r.byToken next.byToken)

/-! ## The service between two connections -/

/-- `Service`, with the events it has written to its output. -/
structure Realtime where
  service : Service
  registry : Registry
  registryLoaded : Bool
  pendingBackfills : Map Address Registration
  output : List Event

/-- `New`. -/
def Realtime.new : Realtime := ⟨.new, NewRegistry, false, ∅, []⟩

/-- How a connection ends. -/
inductive ConnectionError where
  | dial
  | loader
  | registry (e : RegistryError)
  | subscribe
  | head
  | futureStart (source : Address) (start head : Nat)
  | spans (source : Address) (blocks : Nat)
  | filter (source : Address)
  | outOfBound (source : Address)
  | decode (source : Address) (e : HandleError)
  | closed
  deriving DecidableEq, Repr

/-- `maximumBackfillBlocks`. -/
def maximumBackfillBlocks : Nat := 512

/-- A source whose registration is not the one there was before. -/
def registeredAnew (previous : Map Address Registration) (a : Address)
    (registration : Registration) (_ : Option Registration) :
    Option Registration :=
  if previous.lookup a = some registration then none else some registration

/-- **`reconcile`**: the registry is replaced by what the database answers; new
    and changed sources become pending, unless it is the first load, and those
    that are gone are no longer pending. -/
def reconcile (answer : Option (List Market)) (x : Realtime) :
    Except ConnectionError (Bool × Realtime) :=
  match answer with
  | none => .error .loader
  | some markets =>
      match x.registry.Replace markets with
      | .error e => .error (.registry e)
      | .ok (next, changed) =>
          if x.registryLoaded then
            .ok (changed,
              { x with
                registry := next
                pendingBackfills := restrict (· ∈ next.bySource)
                  (assign (registeredAnew x.registry.bySource) next.bySource
                    x.pendingBackfills) })
          else .ok (changed, { x with registry := next, registryLoaded := true })

/-- `replaceSubscription`: nothing to subscribe to, or the node's answer. -/
def replaceSubscription (accepted : Bool) (x : Realtime) : Bool :=
  x.registry.bySource.keys.isEmpty || accepted

/-- A registered source is queued from the cursor on, unless it is pending. -/
def resumed (from_ : Nat) (_ : Address) (registration : Registration)
    (pending : Option Registration) : Option Registration :=
  match pending with
  | some _ => none
  | none =>
      some { registration with
        market := { registration.market with
          sourceStartBlock := max registration.market.sourceStartBlock from_ } }

/-- **`queueReconnectBackfill`**. -/
def queueReconnectBackfill (from_ : Nat) (x : Realtime) : Realtime :=
  { x with
    pendingBackfills :=
      assign (resumed from_) x.registry.bySource x.pendingBackfills }

/-! ## Catching up -/

/-- The order in which the addresses are visited. -/
structure HexSort where
  run : List Address → List Address
  perm : ∀ l, (run l).Perm l

/-- `handleLog`, at the registry of the service. -/
def Realtime.handle (usdc : Address) (x : Realtime) (a : Answer) (entry : Log) :
    Realtime × Except HandleError (Option Event) :=
  let r := handleLog usdc (fun s => x.registry.bySource.lookup s) x.service a
    entry
  ({ x with service := r.1, output := x.output ++ (published r.2).toList }, r.2)

/-- `sort.Slice(logs, …)`. -/
def replayRank (entry : Log × Answer) : List Nat :=
  [entry.1.blockNumber, entry.1.txIndex, entry.1.index, entry.1.txHash]

/-- The logs of a source are handled one by one. -/
def replay (usdc source : Address) (start head : Nat) :
    List (Log × Answer) → Realtime → Realtime × Option ConnectionError
  | [], x => (x, none)
  | (entry, a) :: rest, x =>
      if entry.address ≠ source ∨ entry.blockNumber < start ∨
          head < entry.blockNumber then
        (x, some (.outOfBound source))
      else
        match x.handle usdc a entry with
        | (x, .error e) => (x, some (.decode source e))
        | (x, .ok _) => replay usdc source start head rest x

/-- What the node answers to `FilterLogs`, by source. -/
abbrev Filter : Type := Address → Option (List (Log × Answer))

/-- One turn of the loop of `backfillPending`. -/
def catchUpSource (usdc : Address) (filter : Filter) (head : Nat)
    (source : Address) (x : Realtime) : Realtime × Option ConnectionError :=
  match x.pendingBackfills.lookup source with
  | none => (x, none)
  | some registration =>
      let start := registration.market.sourceStartBlock
      if head < start then (x, some (.futureStart source start head))
      else if maximumBackfillBlocks < head - start then
        (x, some (.spans source (head - start)))
      else
        match filter source with
        | none => (x, some (.filter source))
        | some logs =>
            match replay usdc source start head (orderBy replayRank logs) x with
            | (x, some e) => (x, some e)
            | (x, none) =>
                ({ x with pendingBackfills := x.pendingBackfills.erase source },
                  none)

/-- The loop of `backfillPending`. -/
def catchUp (usdc : Address) (filter : Filter) (head : Nat) :
    List Address → Realtime → Realtime × Option ConnectionError
  | [], x => (x, none)
  | source :: rest, x =>
      match catchUpSource usdc filter head source x with
      | (x, some e) => (x, some e)
      | (x, none) => catchUp usdc filter head rest x

/-- **`backfillPending`**, at the head the node answers. -/
def backfillPending (S : HexSort) (usdc : Address) (filter : Filter)
    (head : Option Nat) (x : Realtime) : Realtime × Option ConnectionError :=
  if x.pendingBackfills.keys.isEmpty then (x, none)
  else
    match head with
    | none => (x, some .head)
    | some head =>
        catchUp usdc filter head (S.run x.pendingBackfills.keys) x

/-! ## One connection -/

/-- What an attempt to connect meets: the answers of the database and of the
    node, and the blocks mined between the first and the last of them. -/
structure Attempt where
  dials : Bool
  markets : Option (List Market)
  subscribes : Bool
  headRead : Bool
  mined : Nat
  headReadAgain : Bool
  filter : Filter

/-- `runConnection` up to the catch-up. -/
def prepare (c : Attempt) (head : Nat) (x : Realtime) :
    Realtime × Option ConnectionError :=
  if c.dials = false then (x, some .dial)
  else
    match reconcile c.markets x with
    | .error e => (x, some e)
    | .ok (_, x) =>
        if replaceSubscription c.subscribes x = false then (x, some .subscribe)
        else
          match x.service.reconnectFrom with
          | some cursor => (queueReconnectBackfill cursor x, none)
          | none =>
              if c.headRead then
                ({ x with service := { x.service with reconnectFrom := some head } },
                  none)
              else (x, some .head)

/-- `runConnection` up to its loop. -/
def connect (S : HexSort) (usdc : Address) (c : Attempt) (head : Nat)
    (x : Realtime) : Realtime × Option ConnectionError :=
  match prepare c head x with
  | (x, some e) => (x, some e)
  | (x, none) =>
      backfillPending S usdc c.filter
        (if c.headReadAgain then some (head + c.mined) else none) x

/-- What a turn of the ticker meets. -/
structure Tick where
  markets : Option (List Market)
  subscribes : Bool
  headRead : Bool
  filter : Filter

/-- `case <-ticker.C`. -/
def tick (S : HexSort) (usdc : Address) (c : Tick) (head : Nat)
    (x : Realtime) : Realtime × Option ConnectionError :=
  match reconcile c.markets x with
  | .error e => (x, some e)
  | .ok (changed, x) =>
      if changed && !replaceSubscription c.subscribes x then
        (x, some .subscribe)
      else
        backfillPending S usdc c.filter (if c.headRead then some head else none) x

/-! ## Runs -/

/-- The service in its world: the head of the chain, whether the loop of a
    connection is running, the head at the first connection, and the head and
    the registered sources when the last running loop ended. -/
structure World where
  realtime : Realtime
  head : Nat
  live : Bool
  origin : Option Nat
  lost : Option (Nat × List Address)

/-- Before the first connection. -/
def World.new (head : Nat) : World := ⟨.new, head, false, none, none⟩

/-- What happens to the service. -/
inductive Act where
  | mine (blocks : Nat)
  | connect (c : Attempt)
  | deliver (entry : Log) (a : Answer)
  | tick (c : Tick)
  | disconnect

/-- The loop ends. -/
def World.lose (w : World) : World :=
  { w with live := false
           lost := some (w.head, w.realtime.registry.bySource.keys) }

/-- **ONE STEP OF THE WORLD**.  A log that fails in the loop is discarded; a
    catch-up that fails ends the connection. -/
def World.step (S : HexSort) (usdc : Address) (w : World) : Act → World
  | .mine blocks => { w with head := w.head + blocks }
  | .connect c =>
      if w.live then w
      else
        let r := RealtimeService.connect S usdc c w.head w.realtime
        { w with
          realtime := r.1
          head := w.head + c.mined
          live := r.2.isNone
          origin := match w.origin with
            | some o => some o
            | none => r.1.service.reconnectFrom.map fun _ => w.head }
  | .deliver entry a =>
      if w.live then { w with realtime := (w.realtime.handle usdc a entry).1 }
      else w
  | .tick c =>
      if w.live then
        match RealtimeService.tick S usdc c w.head w.realtime with
        | (x, none) => { w with realtime := x }
        | (x, some _) => { w with realtime := x }.lose
      else w
  | .disconnect => if w.live then w.lose else w

/-- A run of the world. -/
def World.run (S : HexSort) (usdc : Address) (w : World) (acts : List Act) :
    World :=
  acts.foldl (World.step S usdc) w

end RealtimeService
