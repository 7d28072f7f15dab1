import Cooket.CTOTablesProofs

/-! # The indexed state of a hand-over

    The registry and the fee manager hand a token over, the node serves their
    events as logs of blocks, the indexer refills its CTO tables from these,
    and the API answers three questions from the tables: what became of a
    proposal, who runs a token, and which creator fees are still to be claimed.

    The answers ARE the state of the contracts (`indexed_handover`): after any
    run of transactions on the contracts, and any history of blocks and
    reorganisations at the indexer whose surviving chain carries the events. -/

namespace IndexedCTO

open CheckedArith Contract CTOJournal CTORegistry CTOSystem IndexerEvents
  IndexerStore Keyset Lockstep LPVault Reentrant RowTable
open FeeManager (Routes Views)

/-! ## What the API answers -/

/-- How a read fails. -/
inductive ReadError where
  | notFound
  | inconsistentAccounting
  deriving DecidableEq, Repr

/-- `canonicalTokenExists`. -/
def canonicalTokenExists (env : Env) (live : List Body) (token : Address) :
    Bool :=
  live.any fun
    | .token r => r.tokenAddress = token && !env.excluded r.tokenAddress
    | _ => false

/-- `requireCanonicalToken`. -/
def requireCanonicalToken (env : Env) (live : List Body) (token : Address) :
    Except ReadError Unit :=
  if canonicalTokenExists env live token then .ok () else .error .notFound

/-- `CTOStatus`; the chain and the token are those of the request. -/
structure CTOStatus where
  active : Bool
  registry : Option Address
  treasury : Option Address
  controller : Option Address
  previousRecipient : Option Address
  activeProposalId : Option Nat
  activation : Option Origin
  deriving DecidableEq, Repr

/-- The answer for a token that was never handed over. -/
def CTOStatus.inactive : CTOStatus := ⟨false, none, none, none, none, none, none⟩

/-- `LEFT JOIN`: one row without a partner when there is none. -/
def leftJoin {α : Type} : List α → List (Option α)
  | [] => [none]
  | xs => xs.map some

def tokenStateRows (live : List Body) : List TokenStateRow :=
  live.filterMap fun
    | .tokenState r => some r
    | _ => none

def treasuryRows (live : List Body) : List TreasuryRow :=
  live.filterMap fun
    | .treasury r => some r
    | _ => none

def proposalRows (live : List Body) : List ProposalRow :=
  live.filterMap fun
    | .proposal r => some r
    | _ => none

def ledgerRows (live : List Body) : List LedgerRow :=
  live.filterMap fun
    | .ledger r => some r
    | _ => none

/-- The joined rows of the query of `CTOStatus`. -/
def statusRows (live : List Body) (token : Address) :
    List (TokenStateRow × Option TreasuryRow × Option ProposalRow) :=
  ((tokenStateRows live).filter (·.tokenAddress = token)).flatMap fun s =>
    (leftJoin ((treasuryRows live).filter
      (·.treasuryAddress = s.treasuryAddress))).flatMap fun tr =>
      (leftJoin ((proposalRows live).filter fun p =>
        p.registryAddress = s.registryAddress && p.proposalId = s.proposalId)).map
        fun p => (s, tr, p)

/-- **`CTOStatus`**. -/
def ctoStatus (env : Env) (live : List Body) (token : Address) :
    Except ReadError CTOStatus := do
  requireCanonicalToken env live token
  match (statusRows live token).head? with
  | none => .ok .inactive
  | some (s, tr, p) => .ok {
      active := true
      registry := some s.registryAddress
      treasury := some s.treasuryAddress
      -- `COALESCE(tr.controller_address, p.controller_address)`
      controller := (tr.map (·.controllerAddress)).or
        (p.map (·.controllerAddress))
      previousRecipient := some s.previousRecipientAddress
      activeProposalId := some s.proposalId
      activation := some s.origin }

/-- **`CTOProposal`**: by its id alone, whatever the registry. -/
def ctoProposal (live : List Body) (id : Nat) : Except ReadError ProposalRow :=
  match (proposalRows live).find? (·.proposalId = id) with
  | none => .error .notFound
  | some r => .ok r

/-- `CTOCheckpointAggregate`. -/
structure CTOCheckpointAggregate where
  token : Address
  recipient : Address
  checkpointed : Nat
  claimed : Nat
  outstanding : Nat
  deriving DecidableEq, Repr

/-- The ledger of a token. -/
def ledgerOf (live : List Body) (token : Address) : List LedgerRow :=
  (ledgerRows live).filter (·.tokenAddress = token)

/-- `sum(amount) FILTER (WHERE action=…)` of a recipient's group. -/
def sumOf (action : LedgerAction) (recipient : Address) (rows : List LedgerRow) :
    Nat :=
  ((rows.filter fun r => r.recipientAddress = recipient && r.action = action).map
    (·.amount)).sum

/-- The recipients, one for each group, in order. -/
def recipientsOf (rows : List LedgerRow) : List Address :=
  orderBy (fun a : Address => a) (rows.map (·.recipientAddress)).dedup

/-- One group. -/
def aggregateOf (token : Address) (rows : List LedgerRow) (recipient : Address) :
    Except ReadError CTOCheckpointAggregate :=
  let checkpointed := sumOf .checkpoint recipient rows
  let claimed := sumOf .claim recipient rows
  if checkpointed < claimed then .error .inconsistentAccounting
  else .ok ⟨token, recipient, checkpointed, claimed, checkpointed - claimed⟩

/-- **`ctoCheckpointAggregates`**. -/
def ctoCheckpointAggregates (live : List Body) (token : Address) :
    Except ReadError (List CTOCheckpointAggregate) :=
  let rows := ledgerOf live token
  (recipientsOf rows).mapM (aggregateOf token rows)
/-! ## Rows by their kind -/

section
variable {live : List Body}

theorem mem_tokenStateRows {r : TokenStateRow} :
    r ∈ tokenStateRows live ↔ .tokenState r ∈ live := by
  rw [tokenStateRows, List.mem_filterMap]
  constructor
  · rintro ⟨c, hc, hr⟩
    cases c with
    | tokenState r' =>
        obtain rfl := Option.some.inj hr
        exact hc
    | _ => cases hr
  · intro hr
    exact ⟨_, hr, rfl⟩

theorem mem_treasuryRows {r : TreasuryRow} :
    r ∈ treasuryRows live ↔ .treasury r ∈ live := by
  rw [treasuryRows, List.mem_filterMap]
  constructor
  · rintro ⟨c, hc, hr⟩
    cases c with
    | treasury r' =>
        obtain rfl := Option.some.inj hr
        exact hc
    | _ => cases hr
  · intro hr
    exact ⟨_, hr, rfl⟩

theorem mem_proposalRows {r : ProposalRow} :
    r ∈ proposalRows live ↔ .proposal r ∈ live := by
  rw [proposalRows, List.mem_filterMap]
  constructor
  · rintro ⟨c, hc, hr⟩
    cases c with
    | proposal r' =>
        obtain rfl := Option.some.inj hr
        exact hc
    | _ => cases hr
  · intro hr
    exact ⟨_, hr, rfl⟩

theorem mem_ledgerRows {r : LedgerRow} :
    r ∈ ledgerRows live ↔ .ledger r ∈ live := by
  rw [ledgerRows, List.mem_filterMap]
  constructor
  · rintro ⟨c, hc, hr⟩
    cases c with
    | ledger r' =>
        obtain rfl := Option.some.inj hr
        exact hc
    | _ => cases hr
  · intro hr
    exact ⟨_, hr, rfl⟩

theorem ledgerRows_nodup (t : Rows) : (ledgerRows t.live).Nodup := by
  refine t.live_nodup.filterMap ?_
  intro a b r ha hb
  cases a with
  | ledger r' =>
      cases b with
      | ledger r'' =>
          obtain rfl := Option.some.inj ha
          obtain rfl := Option.some.inj hb
          rfl
      | _ => cases hb
  | _ => cases ha

theorem mem_leftJoin {α : Type} {xs : List α} {a : Option α}
    (h : a ∈ leftJoin xs) : (a = none ∧ xs = []) ∨ ∃ x ∈ xs, a = some x := by
  cases xs with
  | nil => exact .inl ⟨List.mem_singleton.mp h, rfl⟩
  | cons x xs =>
      obtain ⟨y, hy, rfl⟩ := List.mem_map.mp h
      exact .inr ⟨y, hy, rfl⟩

theorem leftJoin_ne_nil {α : Type} (xs : List α) : leftJoin xs ≠ [] := by
  cases xs with
  | nil => exact List.cons_ne_nil _ _
  | cons x xs => exact List.cons_ne_nil _ _

/-- The first of matches that are all the same. -/
theorem find?_of_all {α : Type} {xs : List α} {p : α → Bool} {a : α}
    (ha : a ∈ xs) (hp : p a = true) (hall : ∀ x ∈ xs, p x = true → x = a) :
    xs.find? p = some a := by
  obtain ⟨b, hb⟩ := Option.isSome_iff_exists.mp
    (List.find?_isSome.mpr ⟨a, ha, hp⟩)
  rw [hb, hall b (List.mem_of_find?_eq_some hb) (List.find?_some hb)]

end

/-! ## The chain carries the journal -/

/-- The event as `chain_events` keeps it. -/
def storedEvent : CTOEvent → CTOEvent
  | .proposed id token creator controller treasury previous nonce deadline hash
      uri =>
      .proposed id token creator controller treasury previous nonce deadline hash
        (jsonString uri)
  | e => e

theorem normalized_storedEvent (e : CTOEvent) :
    normalizedEventValues (.cto e) = .cto (storedEvent e) := by
  cases e <;> rfl

theorem storedEvent_kind (e : CTOEvent) : (storedEvent e).kind = e.kind := by
  cases e <;> rfl

theorem storedEvent_about (e : CTOEvent) : about (storedEvent e) = about e := by
  cases e <;> rfl

/-- The contract that emits the events of a kind; a treasury's are not looked
    at here. -/
def emitterOf (env : Env) : CTOKind → Option Address
  | .registry => some env.roots.registry
  | .feeManager => some env.roots.feeManager
  | .treasury => none

/-- The log is one of the registry or of the fee manager. -/
def ofContracts (env : Env) (l : IndexerEvents.Log) : Bool :=
  match l.event with
  | .cto e => emitterOf env e.kind = some l.address
  | _ => false

/-- The logs of one half of a call: its events, in a block of its time, all in
    one transaction. -/
structure Carried (bs : List Block) (m : Emission) (ls : List IndexerEvents.Log) :
    Prop where
  events : ls.map (·.event) = m.events.map .cto
  timed : ∀ l ∈ ls, ∃ b ∈ bs, b.hash = l.blockHash ∧ b.time = m.time
  together : ∀ a ∈ ls, ∀ l ∈ ls, a.txHash = l.txHash

/-- **THE CHAIN CARRIES THE JOURNAL**: its logs of the two contracts are the
    events of the journal, in this order. -/
structure Carries (env : Env) (bs : List Block) (journal : List Emission)
    (lss : List (List IndexerEvents.Log)) : Prop where
  carried : List.Forall₂ (Carried bs) journal lss
  ordered : lss.flatten.Pairwise fun a b => a.position < b.position
  mem : ∀ l, l ∈ lss.flatten ↔ LogOf bs l ∧ ofContracts env l = true

/-! ## The rows of the two contracts -/

/-- The row is of an event of the registry or of the fee manager. -/
def watched (r : EventRow) : Bool :=
  match r.decoded with
  | .cto e => e.kind ≠ .treasury
  | _ => false

section
variable {env : Env} {bs : List Block} {s : Store} {l : IndexerEvents.Log}

theorem watched_eventRow {e : CTOEvent} (h : l.event = .cto e) :
    watched (eventRow l) = decide (e.kind ≠ .treasury) := by
  rw [watched, eventRow, h, normalized_storedEvent]
  dsimp only
  rw [storedEvent_kind]

theorem watched_of_ofContracts (h : ofContracts env l = true) :
    watched (eventRow l) = true := by
  rw [ofContracts] at h
  split at h
  · next e hevent =>
      rw [watched_eventRow hevent, decide_eq_true_iff]
      intro hkind
      rw [hkind] at h
      simp [emitterOf] at h
  · cases h

/-- The trust the indexer needs: both roots are known. -/
structure Rooted (env : Env) : Prop where
  registry : env.roots.registry ≠ 0
  feeManager : env.roots.feeManager ≠ 0

/-- A log of one of the two contracts is always stored. -/
theorem alwaysStored_of_ofContracts (hrooted : Rooted env)
    (h : ofContracts env l = true) : AlwaysStored env l := by
  intro look
  rw [ofContracts] at h
  split at h
  · next e hevent =>
      have hroots : ¬ (env.roots.registry = 0 ∨ env.roots.feeManager = 0) := by
        rw [not_or]
        exact ⟨hrooted.registry, hrooted.feeManager⟩
      rw [selected, hevent]
      show trustedCTOEmitter env look l.address e.kind = true
      cases hkind : e.kind with
      | registry =>
          rw [hkind] at h
          rw [trustedCTOEmitter, if_neg hroots]
          simpa [emitterOf, eq_comm] using h
      | feeManager =>
          rw [hkind] at h
          rw [trustedCTOEmitter, if_neg hroots]
          simpa [emitterOf, eq_comm] using h
      | treasury =>
          rw [hkind] at h
          simp [emitterOf] at h
  · cases h

/-- A stored log of that kind is of one of the two contracts. -/
theorem ofContracts_of_selected {look : IndexerStore.Lookup}
    (h : selected env look l = true) (hwatched : watched (eventRow l) = true) :
    ofContracts env l = true := by
  cases hevent : l.event with
  | cto e =>
      rw [watched_eventRow hevent, decide_eq_true_iff] at hwatched
      rw [selected, hevent] at h
      change trustedCTOEmitter env look l.address e.kind = true at h
      rw [ofContracts, hevent]
      cases hkind : e.kind with
      | registry =>
          rw [hkind, trustedCTOEmitter] at h
          split at h
          · cases h
          · simpa [hkind, emitterOf, eq_comm] using h
      | feeManager =>
          rw [hkind, trustedCTOEmitter] at h
          split at h
          · cases h
          · simpa [hkind, emitterOf, eq_comm] using h
      | treasury => exact absurd hkind hwatched
  | _ => simp [watched, eventRow, hevent, normalizedEventValues] at hwatched

/-- **THE ROWS OF THE TWO CONTRACTS** are those of the logs, in order. -/
theorem watched_rows (hrooted : Rooted env) (hserved : Served env bs)
    (h : applyAll env fresh bs = .ok s) {ls : List IndexerEvents.Log}
    (hordered : ls.Pairwise fun a b => a.position < b.position)
    (hmem : ∀ l, l ∈ ls ↔ LogOf bs l ∧ ofContracts env l = true) :
    (eventsOf s.rows.live).filter watched = ls.map eventRow := by
  have hcanon := canon_applyAll hserved h
  have hranks : (ls.map eventRow).Pairwise fun a b => a.rank < b.rank :=
    List.pairwise_map.mpr (hordered.imp fun hlt => rank_lt hlt)
  have hright : (ls.map eventRow).Nodup :=
    hranks.imp fun hlt heq => absurd (heq ▸ hlt) (lt_irrefl _)
  have hperm : ((eventsOf s.rows.live).filter watched).Perm
      (ls.map eventRow) := by
    refine (List.perm_ext_iff_of_nodup ((eventsOf_nodup s.rows).filter _)
      hright).mpr fun r => ?_
    rw [List.mem_filter, mem_eventsOf, List.mem_map]
    constructor
    · rintro ⟨hr, hwatched⟩
      obtain ⟨l, hl, rfl, look, hsel⟩ := selected_applyAll hserved h hr
      exact ⟨l, (hmem l).mpr ⟨hl, ofContracts_of_selected hsel hwatched⟩, rfl⟩
    · rintro ⟨l, hl, rfl⟩
      obtain ⟨hlog, hof⟩ := (hmem l).mp hl
      exact ⟨hcanon.complete.events l hlog
        (alwaysStored_of_ofContracts hrooted hof), watched_of_ofContracts hof⟩
  refine @List.Perm.eq_of_pairwise _ (fun a b => a.rank ≤ b.rank) _ _ ?_
    ((orderBy_pairwise _ _).filter _) (hranks.imp fun hlt => hlt.le) hperm
  intro a b ha hb hab hba
  -- One rank is one log.
  have hrank : a.rank = b.rank := le_antisymm hab hba
  have hlive := mem_eventsOf.mp (List.mem_filter.mp ha).1
  have hlive' := mem_eventsOf.mp
    (List.mem_filter.mp (hperm.mem_iff.mpr hb)).1
  refine Body.event.inj (Table.live_eq_of_key hlive hlive' ?_)
  simp only [EventRow.rank, List.cons.injEq] at hrank
  show a.origin.key .chainEvents = b.origin.key .chainEvents
  rw [Origin.key, Origin.key, hrank.2.2.1, hrank.2.2.2.1]

/-- The timestamp of a block of the chain. -/
theorem stampOf_block (hserved : Served env bs)
    (h : applyAll env fresh bs = .ok s) {b : Block} (hb : b ∈ bs) :
    stampOf s.rows.live b.hash = some b.time := by
  have hcanon := canon_applyAll hserved h
  have hsome := stampOf_isSome (hcanon.complete.blocks b hb)
  rw [stampOf, Option.isSome_map] at hsome
  obtain ⟨r, hr⟩ := Option.isSome_iff_exists.mp hsome
  have hfound : decide (r.blockHash = b.hash) = true := List.find?_some (p :=
    fun x : BlockRow => decide (x.blockHash = (blockRow b).blockHash)) hr
  have hhash := of_decide_eq_true hfound
  have hlive := mem_blocksOf.mp (List.mem_of_find?_eq_some hr)
  rw [stampOf]
  change Option.map _ ((blocksOf s.rows.live).find?
    (fun x => x.blockHash = (blockRow b).blockHash)) = _
  rw [hr]
  cases hcanon.grounded.sourced _ hlive rfl with
  | @block c hc =>
      -- One hash is one block.
      have hnodup : (bs.map (·.hash)).Nodup := List.pairwise_map.mpr hserved.hashes
      obtain rfl := List.inj_on_of_nodup_map hnodup hc hb hhash
      rfl
  | log _ _ _ _ hof _ _ =>
      obtain ⟨table, hkey⟩ := hof
      cases hkey

end
/-! ## The events the tables are refilled from -/

/-- The events of the two contracts, as `rebuildCTOTx` reads them. -/
def contractEvents (live : List Body) : List CanonicalCTOEvent :=
  (ctoEvents live).filter fun e => e.event.kind ≠ .treasury

/-- What is read is what was said. -/
structure Reads (env : Env) (x : Nat × CTOEvent) (e : CanonicalCTOEvent) :
    Prop where
  event : e.event = storedEvent x.2
  time : e.timestamp = x.1
  emitter : emitterOf env x.2.kind = some e.emitter

theorem Reads.about {env : Env} {x : Nat × CTOEvent} {e : CanonicalCTOEvent}
    (h : Reads env x e) : CTOJournal.about e.event = CTOJournal.about x.2 := by
  rw [h.event, storedEvent_about]

section
variable {env : Env} {bs : List Block} {s : Store} {journal : List Emission}
  {lss : List (List IndexerEvents.Log)}

/-- The events come from the watched rows. -/
theorem contractEvents_eq (live : List Body) : contractEvents live =
    ((eventsOf live).filter watched).filterMap (ctoEventOf live) := by
  rw [contractEvents, ctoEvents_eq, List.filter_filterMap,
    List.filterMap_filter]
  refine List.filterMap_congr fun r _ => ?_
  cases hr : ctoEventOf live r with
  | none => simp
  | some e =>
      rw [watched, (ctoEventOf_some hr).1]
      simp [Option.filter]

/-- The logs of one half of a call, read. -/
theorem reads_emission {live : List Body} {time : Nat} {es : List CTOEvent}
    {ls : List IndexerEvents.Log}
    (hevents : ls.map (·.event) = es.map .cto)
    (hread : ∀ l ∈ ls, stampOf live l.blockHash = some time ∧
      ofContracts env l = true) :
    List.Forall₂ (Reads env) (es.map fun e => (time, e))
      (ls.filterMap fun l => ctoEventOf live (eventRow l)) := by
  induction es generalizing ls with
  | nil =>
      obtain rfl := List.map_eq_nil_iff.mp hevents
      exact .nil
  | cons e es ih =>
      rw [List.map_cons] at hevents
      obtain ⟨l, rest, rfl, hl, hrest⟩ := List.map_eq_cons_iff.mp hevents
      obtain ⟨hstamp, hof⟩ := hread l (List.mem_cons_self ..)
      have hevent : ctoEventOf live (eventRow l) =
          some ⟨storedEvent e, l.address, time, originOf l⟩ := by
        have hdecoded : (eventRow l).decoded = .cto (storedEvent e) := by
          rw [← normalized_storedEvent, ← hl]
          rfl
        have hblock : stampOf live (eventRow l).origin.blockHash = some time :=
          hstamp
        rw [ctoEventOf, hdecoded]
        dsimp only
        rw [hblock]
        rfl
      rw [List.map_cons, List.filterMap_cons_some (a := l) hevent]
      refine .cons ⟨rfl, rfl, ?_⟩
        (ih hrest fun a ha => hread a (List.mem_cons_of_mem _ ha))
      rw [ofContracts, hl] at hof
      simpa using hof

/-- The logs of every call, read. -/
theorem reads_journal {live : List Body}
    (hstamps : ∀ b ∈ bs, stampOf live b.hash = some b.time)
    (hof : ∀ l ∈ lss.flatten, ofContracts env l = true)
    (h : List.Forall₂ (Carried bs) journal lss) :
    List.Forall₂ (Reads env) (said journal)
      (lss.flatten.filterMap fun l => ctoEventOf live (eventRow l)) := by
  induction h with
  | nil => exact .nil
  | @cons m ls journal lss hm _ ih =>
      rw [List.flatten_cons] at hof ⊢
      rw [List.filterMap_append, said, List.flatMap_cons]
      refine List.rel_append (reads_emission hm.events ?_)
        (ih fun l hl => hof l (List.mem_append_right _ hl))
      intro l hl
      obtain ⟨b, hb, hhash, htime⟩ := hm.timed l hl
      rw [← hhash, hstamps b hb, htime]
      exact ⟨rfl, hof l (List.mem_append_left _ hl)⟩

/-- **WHAT THE TABLES ARE REFILLED FROM** is the journal. -/
theorem contractEvents_reads (hrooted : Rooted env) (hserved : Served env bs)
    (h : applyAll env fresh bs = .ok s) (hcarries : Carries env bs journal lss) :
    List.Forall₂ (Reads env) (said journal) (contractEvents s.rows.live) := by
  rw [contractEvents_eq,
    watched_rows hrooted hserved h hcarries.ordered hcarries.mem,
    List.filterMap_map]
  exact reads_journal (fun b hb => stampOf_block hserved h hb)
    (fun l hl => ((hcarries.mem l).mp hl).2) hcarries.carried

/-- An activation stands beside its route in the rows, too. -/
theorem routes_of_activated (hrooted : Rooted env) (hserved : Served env bs)
    (h : applyAll env fresh bs = .ok s) (hcarries : Carries env bs journal lss)
    {m : Emission} (hm : m ∈ journal) {id : Nat}
    {token treasury controller previous executor : Address}
    (hactivated : .activated id token treasury controller previous executor ∈
      m.events)
    (hroute : .feeRouteActivated token previous treasury ∈ m.events) :
    ∃ e ∈ contractEvents s.rows.live,
      e.event = .activated id token treasury controller previous executor ∧
        env.roots.feeManager ∈ routesOf s.rows.live e := by
  -- Both logs are among those of the one half of a call.
  have hlogs : ∃ ls, ls ∈ lss ∧ Carried bs m ls := by
    have hcarried := hcarries.carried
    clear hcarries
    induction hcarried with
    | nil => exact absurd hm List.not_mem_nil
    | cons hfirst _ ih =>
        rcases List.mem_cons.mp hm with rfl | hm
        · exact ⟨_, List.mem_cons_self .., hfirst⟩
        · obtain ⟨ls, hls, hcarried⟩ := ih hm
          exact ⟨ls, List.mem_cons_of_mem _ hls, hcarried⟩
  obtain ⟨ls, hls, hcarried⟩ := hlogs
  have hlog : ∀ e ∈ m.events, ∃ l ∈ ls, l.event = .cto e := by
    intro e he
    have hmem : Event.cto e ∈ ls.map (·.event) := by
      rw [hcarried.events]
      exact List.mem_map_of_mem he
    exact List.mem_map.mp hmem
  obtain ⟨l₁, hl₁, hevent₁⟩ := hlog _ hactivated
  obtain ⟨l₂, hl₂, hevent₂⟩ := hlog _ hroute
  have hmem : ∀ l ∈ ls, eventRow l ∈
      (eventsOf s.rows.live).filter watched := by
    intro l hl
    rw [watched_rows hrooted hserved h hcarries.ordered hcarries.mem]
    exact List.mem_map_of_mem (List.mem_flatten.mpr ⟨ls, hls, hl⟩)
  obtain ⟨b, hb, hhash, -⟩ := hcarried.timed l₁ hl₁
  have hstamp := stampOf_block hserved h hb
  have hread : ctoEventOf s.rows.live (eventRow l₁) =
      some ⟨.activated id token treasury controller previous executor,
        l₁.address, b.time, originOf l₁⟩ := by
    have hdecoded : (eventRow l₁).decoded = .cto (.activated id token treasury
        controller previous executor) := by
      rw [eventRow, hevent₁]
      rfl
    have hblock : stampOf s.rows.live (eventRow l₁).origin.blockHash =
        some b.time := by
      rw [← hstamp, hhash]
      rfl
    rw [ctoEventOf, hdecoded]
    dsimp only
    rw [hblock]
    rfl
  refine ⟨⟨.activated id token treasury controller previous executor,
    l₁.address, b.time, originOf l₁⟩, ?_, rfl, ?_⟩
  · rw [contractEvents_eq]
    exact List.mem_filterMap.mpr ⟨_, hmem l₁ hl₁, hread⟩
  · show env.roots.feeManager ∈ feeRoutes s.rows.live l₁.txHash token treasury
    have hdecoded : (eventRow l₂).decoded =
        .cto (.feeRouteActivated token previous treasury) := by
      rw [eventRow, hevent₂]
      rfl
    have haddress : l₂.address = env.roots.feeManager := by
      have hof := ((hcarries.mem l₂).mp
        (List.mem_flatten.mpr ⟨ls, hls, hl₂⟩)).2
      rw [ofContracts, hevent₂] at hof
      exact (Option.some.inj (of_decide_eq_true hof)).symm
    rw [feeRoutes]
    refine List.mem_filterMap.mpr
      ⟨eventRow l₂, (List.mem_filter.mp (hmem l₂ hl₂)).1, ?_⟩
    have htx : (eventRow l₂).origin.transactionHash = l₁.txHash :=
      hcarried.together l₂ hl₂ l₁ hl₁
    have hsender : (eventRow l₂).contractAddress = env.roots.feeManager :=
      haddress
    rw [hdecoded]
    simp [htx, hsender]

end
/-! ## The row of a proposal and its history -/

/-- When a deed of a history was done. -/
def timeOf (deed : Deed) (h : List Record) : Option Nat :=
  (h.find? (·.deed = deed)).map (·.time)

/-- The state of the row after a deed. -/
def rowState : Deed → IndexerStore.ProposalState
  | .created => .proposed
  | .accepted => .accepted
  | .cancelled => .cancelled
  | .expired => .expired
  | .executed => .active

/-- The state of a stored proposal, as the table spells it. -/
def stateOf : CTORegistry.ProposalState → Option IndexerStore.ProposalState
  | .none => none
  | .proposed => some .proposed
  | .accepted => some .accepted
  | .cancelled => some .cancelled
  | .expired => some .expired
  | .active => some .active

/-- **THE ROW SHOWS THE PROPOSAL**, and when everything was done to it. -/
structure Shows (registry : Address) (id : Nat) (p : Proposal)
    (h : List Record) (r : ProposalRow) : Prop where
  registry : r.registryAddress = registry
  proposalId : r.proposalId = id
  token : r.tokenAddress = p.token
  treasury : r.treasuryAddress = p.treasury
  creator : r.creatorAddress = p.creator
  controller : r.controllerAddress = p.controller
  previousRecipient : r.previousRecipientAddress = p.previousRecipient
  metadataHash : r.metadataHash = p.metadataHash
  nonce : r.tokenNonce = p.nonce
  acceptanceDeadline : r.acceptanceDeadline = p.createdAt + ACCEPTANCE_WINDOW
  state : some r.state = h.getLast?.map fun last => rowState last.deed
  created : some r.createdTimestamp = timeOf .created h
  accepted : r.acceptedTimestamp = timeOf .accepted h
  executeAfter : r.executeAfter =
    (timeOf .accepted h).map fun time => time + EXECUTION_DELAY
  executeDeadline : r.executeDeadline = (timeOf .accepted h).map fun time =>
    time + EXECUTION_DELAY + EXECUTION_GRACE_PERIOD
  cancelled : r.cancelledTimestamp = timeOf .cancelled h
  expired : r.expiredTimestamp = timeOf .expired h
  activated : r.activatedTimestamp = timeOf .executed h

section
variable {env : Env} {registry : Address} {id : Nat} {p : Proposal}
  {h : List Record} {record : Record} {row : ProposalRow}
  {ys : List (Nat × CTOEvent)} {es : List CanonicalCTOEvent}

theorem timeOf_append_self (hnew : ∀ r ∈ h, r.deed ≠ record.deed) :
    timeOf record.deed (h ++ [record]) = some record.time := by
  have hnone : h.find? (·.deed = record.deed) = none := by
    rw [List.find?_eq_none]
    intro r hr
    simpa using hnew r hr
  rw [timeOf, List.find?_append, hnone]
  simp

theorem timeOf_append_of_ne {deed : Deed} (hne : record.deed ≠ deed) :
    timeOf deed (h ++ [record]) = timeOf deed h := by
  have hnone : [record].find? (·.deed = deed) = none := by
    rw [List.find?_singleton, if_neg (by simpa using hne)]
  rw [timeOf, List.find?_append, hnone, Option.or_none, timeOf]

/-- The row after the creation. -/
theorem shows_created (hdeed : record.deed = .created)
    (hdeeds : Deeds id p record ys) (hreads : List.Forall₂ (Reads env) ys es) :
    ∃ row, es.foldl rowStep none = some row ∧
      Shows env.roots.registry id p [record] row := by
  simp only [Deeds, hdeed] at hdeeds
  obtain ⟨uri, rfl⟩ := hdeeds
  cases hreads with
  | @cons _ e _ _ he hnil =>
      cases hnil
      have hevent : e.event = .proposed id p.token p.creator p.controller
          p.treasury p.previousRecipient p.nonce
          (p.createdAt + ACCEPTANCE_WINDOW) p.metadataHash (jsonString uri) :=
        he.event
      have hemitter : env.roots.registry = e.emitter := Option.some.inj he.emitter
      refine ⟨proposalRow e id p.token p.creator p.controller p.treasury
        p.previousRecipient p.nonce (p.createdAt + ACCEPTANCE_WINDOW)
        p.metadataHash (jsonString uri), ?_, ?_⟩
      · simp only [List.foldl_cons, List.foldl_nil, rowStep, hevent]
      have hother : ∀ deed, deed ≠ .created → timeOf deed [record] = none := by
        intro deed hne
        have hdeed' : record.deed ≠ deed := hdeed ▸ hne.symm
        rw [timeOf, List.find?_singleton, if_neg (by simpa using hdeed')]
        rfl
      refine ⟨hemitter.symm, rfl, rfl, rfl, rfl, rfl, rfl, rfl, rfl, rfl, ?_, ?_,
        ?_, ?_, ?_, ?_, ?_, ?_⟩
      · rw [List.getLast?_singleton, Option.map_some, hdeed]
        rfl
      · rw [timeOf, List.find?_singleton, if_pos (by simpa using hdeed)]
        exact congrArg some he.time
      · exact (hother _ (by decide)).symm
      · rw [hother _ (by decide)]
        rfl
      · rw [hother _ (by decide)]
        rfl
      · exact (hother _ (by decide)).symm
      · exact (hother _ (by decide)).symm
      · exact (hother _ (by decide)).symm

/-- **ONE MORE DEED**, shown by the events it is told by. -/
theorem Shows.step (hshows : Shows registry id p h row)
    (hnew : ∀ r ∈ h, r.deed ≠ record.deed)
    (hcreated : record.deed ≠ .created)
    (hfit : record.deed = .accepted → uint64 record.time = record.time)
    (hdeeds : Deeds id p record ys) (hreads : List.Forall₂ (Reads env) ys es) :
    ∃ row', es.foldl rowStep (some row) = some row' ∧
      Shows registry id p (h ++ [record]) row' := by
  have hself := timeOf_append_self hnew
  have hstate : (h ++ [record]).getLast?.map (fun last => rowState last.deed) =
      some (rowState record.deed) := by
    rw [List.getLast?_append, List.getLast?_singleton]
    rfl
  have hother : ∀ deed, record.deed ≠ deed →
      timeOf deed h = timeOf deed (h ++ [record]) :=
    fun deed hne => (timeOf_append_of_ne hne).symm
  cases hdeed : record.deed with
  | created => exact absurd hdeed hcreated
  | accepted =>
      rw [hdeed] at hself hstate hother
      simp only [Deeds, hdeed, hfit hdeed] at hdeeds
      subst hdeeds
      cases hreads with
      | @cons _ e₁ _ _ he₁ hrest =>
          cases hrest with
          | @cons _ e₂ _ _ he₂ hnil =>
              cases hnil
              have hevent₁ : e₁.event = .accepted id p.token p.treasury
                p.controller record.time := he₁.event
              have hevent₂ : e₂.event = .ready id p.token
                (record.time + EXECUTION_DELAY)
                (record.time + EXECUTION_DELAY + EXECUTION_GRACE_PERIOD) :=
                he₂.event
              refine ⟨changed e₂ (changed e₁ row), ?_, ?_⟩
              · simp only [List.foldl_cons, List.foldl_nil, rowStep, hevent₁,
                  hevent₂, Option.map_some]
              simp only [changed, hevent₁, hevent₂]
              exact {
                hshows with
                state := hstate.symm
                created := hshows.created.trans (hother _ (by decide))
                accepted := hself.symm
                executeAfter := by rw [hself]; rfl
                executeDeadline := by rw [hself]; rfl
                cancelled := hshows.cancelled.trans (hother _ (by decide))
                expired := hshows.expired.trans (hother _ (by decide))
                activated := hshows.activated.trans (hother _ (by decide)) }
  | cancelled =>
      rw [hdeed] at hself hstate hother
      simp only [Deeds, hdeed] at hdeeds
      subst hdeeds
      cases hreads with
      | @cons _ e _ _ he hnil =>
          cases hnil
          have hevent : e.event = .cancelled id p.token record.caller := he.event
          refine ⟨changed e row, ?_, ?_⟩
          · simp only [List.foldl_cons, List.foldl_nil, rowStep, hevent,
              Option.map_some]
          simp only [changed, hevent, he.time]
          exact {
            hshows with
            state := hstate.symm
            created := hshows.created.trans (hother _ (by decide))
            accepted := hshows.accepted.trans (hother _ (by decide))
            executeAfter := by
              rw [← hother _ (by decide)]
              exact hshows.executeAfter
            executeDeadline := by
              rw [← hother _ (by decide)]
              exact hshows.executeDeadline
            cancelled := hself.symm
            expired := hshows.expired.trans (hother _ (by decide))
            activated := hshows.activated.trans (hother _ (by decide)) }
  | expired =>
      rw [hdeed] at hself hstate hother
      simp only [Deeds, hdeed] at hdeeds
      obtain ⟨n, rfl⟩ := hdeeds
      cases hreads with
      | @cons _ e _ _ he hnil =>
          cases hnil
          have hevent : e.event = .expired id p.token n := he.event
          refine ⟨changed e row, ?_, ?_⟩
          · simp only [List.foldl_cons, List.foldl_nil, rowStep, hevent,
              Option.map_some]
          simp only [changed, hevent, he.time]
          exact {
            hshows with
            state := hstate.symm
            created := hshows.created.trans (hother _ (by decide))
            accepted := hshows.accepted.trans (hother _ (by decide))
            executeAfter := by
              rw [← hother _ (by decide)]
              exact hshows.executeAfter
            executeDeadline := by
              rw [← hother _ (by decide)]
              exact hshows.executeDeadline
            cancelled := hshows.cancelled.trans (hother _ (by decide))
            expired := hself.symm
            activated := hshows.activated.trans (hother _ (by decide)) }
  | executed =>
      rw [hdeed] at hself hstate hother
      simp only [Deeds, hdeed] at hdeeds
      subst hdeeds
      cases hreads with
      | @cons _ e _ _ he hnil =>
          cases hnil
          have hevent : e.event = .activated id p.token p.treasury p.controller
            p.previousRecipient record.caller := he.event
          refine ⟨changed e row, ?_, ?_⟩
          · simp only [List.foldl_cons, List.foldl_nil, rowStep, hevent,
              Option.map_some]
          simp only [changed, hevent, he.time]
          exact {
            hshows with
            state := hstate.symm
            created := hshows.created.trans (hother _ (by decide))
            accepted := hshows.accepted.trans (hother _ (by decide))
            executeAfter := by
              rw [← hother _ (by decide)]
              exact hshows.executeAfter
            executeDeadline := by
              rw [← hother _ (by decide)]
              exact hshows.executeDeadline
            cancelled := hshows.cancelled.trans (hother _ (by decide))
            expired := hshows.expired.trans (hother _ (by decide))
            activated := hself.symm }

/-- **THE DEEDS AFTER THE CREATION**, one after the other. -/
theorem Shows.steps {rest : List Record} {ess : List (List (Nat × CTOEvent))}
    (hshows : Shows registry id p h row)
    (hdeeds : (h ++ rest).Pairwise fun a b => a.deed ≠ b.deed)
    (hcreated : ∀ r ∈ rest, r.deed ≠ .created)
    (hfit : ∀ r ∈ rest, r.deed = .accepted → uint64 r.time = r.time)
    (htold : List.Forall₂ (Deeds id p) rest ess)
    (hreads : List.Forall₂ (Reads env) ess.flatten es) :
    ∃ row', es.foldl rowStep (some row) = some row' ∧
      Shows registry id p (h ++ rest) row' := by
  induction htold generalizing h row es with
  | nil =>
      cases hreads
      exact ⟨row, rfl, by rw [List.append_nil]; exact hshows⟩
  | @cons record ys rest ess hrecord htold ih =>
      rw [List.flatten_cons] at hreads
      have hfirst := (List.forall₂_take_append _ ys ess.flatten
        hreads.flip).flip
      have hlast := (List.forall₂_drop_append _ ys ess.flatten
        hreads.flip).flip
      have hsplit : h ++ record :: rest = (h ++ [record]) ++ rest := by
        rw [List.append_assoc]
        rfl
      have hnew : ∀ r ∈ h, r.deed ≠ record.deed := fun r hr =>
        (List.pairwise_append.mp hdeeds).2.2 r hr record (List.mem_cons_self ..)
      obtain ⟨row₁, hrow₁, hshows₁⟩ := hshows.step hnew
        (hcreated record (List.mem_cons_self ..))
        (hfit record (List.mem_cons_self ..)) hrecord hfirst
      rw [hsplit] at hdeeds ⊢
      obtain ⟨row₂, hrow₂, hshows₂⟩ := ih hshows₁ hdeeds
        (fun r hr => hcreated r (List.mem_cons_of_mem _ hr))
        (fun r hr => hfit r (List.mem_cons_of_mem _ hr)) hlast
      refine ⟨row₂, ?_, hshows₂⟩
      rw [← hrow₂, ← hrow₁, ← List.foldl_append, List.take_append_drop]

/-- What a life looks like: it starts with the creation, does nothing twice,
    and ends in the deed its state is named after. -/
theorem life_cases (hlife : Life p h) :
    (p.state = .none ∧ h = []) ∨
    ∃ first rest, h = first :: rest ∧ first.deed = .created ∧
      (∀ r ∈ rest, r.deed ≠ .created) ∧
      h.Pairwise (fun a b => a.deed ≠ b.deed) ∧
      (∀ r ∈ h, r.deed = .accepted → r.time = p.acceptedAt) ∧
      stateOf p.state = h.getLast?.map fun last => rowState last.deed := by
  rw [Life] at hlife
  -- A proposal that was ended, by a last deed of its own.
  have hended : ∀ {last : Record → Prop} {deed : Deed}, Ended p h last →
      (∀ r, last r → r.deed = deed) → deed ≠ .created → deed ≠ .accepted →
      stateOf p.state = some (rowState deed) →
      ∃ first rest, h = first :: rest ∧ first.deed = .created ∧
        (∀ r ∈ rest, r.deed ≠ .created) ∧
        h.Pairwise (fun a b => a.deed ≠ b.deed) ∧
        (∀ r ∈ h, r.deed = .accepted → r.time = p.acceptedAt) ∧
        stateOf p.state = h.getLast?.map fun last => rowState last.deed := by
    rintro last deed ⟨r₀, r, hcreated, hlast, hhist⟩ hdeed hne hne' hstate
    have hr := hdeed r hlast
    rcases hhist with rfl | ⟨r₁, haccepted, rfl⟩
    · refine ⟨r₀, [r], rfl, hcreated.deed, ?_, ?_, ?_, ?_⟩
      · simp [hr, hne]
      · simp [hr, hcreated.deed, hne.symm]
      · simp [hr, hcreated.deed, hne']
      · simp [hr, hstate]
    · refine ⟨r₀, [r₁, r], rfl, hcreated.deed, ?_, ?_, ?_, ?_⟩
      · simp [hr, hne, haccepted.deed]
      · simp [hr, hcreated.deed, haccepted.deed, hne.symm, hne'.symm]
      · simp [hr, hcreated.deed, haccepted.deed, hne', haccepted.time]
      · simp [hr, hstate]
  cases hstate : p.state with
  | none =>
      rw [hstate] at hlife
      exact .inl ⟨rfl, hlife⟩
  | proposed =>
      rw [hstate] at hlife
      obtain ⟨r₀, hcreated, rfl⟩ := hlife
      refine .inr ⟨r₀, [], rfl, hcreated.deed, ?_, ?_, ?_, ?_⟩
      · simp
      · simp
      · simp [hcreated.deed]
      · simp [stateOf, hcreated.deed, rowState]
  | accepted =>
      rw [hstate] at hlife
      obtain ⟨r₀, r₁, hcreated, haccepted, rfl⟩ := hlife
      refine .inr ⟨r₀, [r₁], rfl, hcreated.deed, ?_, ?_, ?_, ?_⟩
      · simp [haccepted.deed]
      · simp [hcreated.deed, haccepted.deed]
      · simp [hcreated.deed, haccepted.time]
      · simp [stateOf, haccepted.deed, rowState]
  | active =>
      rw [hstate] at hlife
      obtain ⟨r₀, r₁, r₂, hcreated, haccepted, hexecuted, rfl⟩ := hlife
      refine .inr ⟨r₀, [r₁, r₂], rfl, hcreated.deed, ?_, ?_, ?_, ?_⟩
      · simp [haccepted.deed, hexecuted.deed]
      · simp [hcreated.deed, haccepted.deed, hexecuted.deed]
      · simp [hcreated.deed, haccepted.time, hexecuted.deed]
      · simp [stateOf, hexecuted.deed, rowState]
  | cancelled =>
      rw [hstate] at hlife
      rw [hstate] at hended
      exact .inr (hended hlife (fun r hr => hr.1) (by decide) (by decide) rfl)
  | expired =>
      rw [hstate] at hlife
      rw [hstate] at hended
      exact .inr (hended hlife (fun r hr => hr) (by decide) (by decide) rfl)

/-- **A TALE MAKES THE ROW** that shows the proposal, or none. -/
theorem shows_tale {xs : List (Nat × CTOEvent)} (hlife : Life p h)
    (hfit : p.state ≠ .none → p.acceptedAt < uint64Bound) (htale : Tale id p h xs)
    (hreads : List.Forall₂ (Reads env) xs es) :
    (p.state = .none ∧ es.foldl rowStep none = none) ∨
    ∃ row, es.foldl rowStep none = some row ∧
      Shows env.roots.registry id p h row ∧ stateOf p.state = some row.state := by
  obtain ⟨ess, hforall, rfl⟩ := htale
  rcases life_cases hlife with ⟨hstate, rfl⟩ |
    ⟨first, rest, rfl, hcreated, hrest, hdeeds, haccepted, hlast⟩
  · cases hforall
    cases hreads
    exact .inl ⟨hstate, rfl⟩
  · have hne : p.state ≠ .none := by
      intro hstate
      rw [hstate, List.getLast?_cons] at hlast
      cases hlast
    cases hforall with
    | @cons _ ys _ ess hfirst hothers =>
        rw [List.flatten_cons] at hreads
        have hhead := (List.forall₂_take_append _ ys ess.flatten
          hreads.flip).flip
        have htail := (List.forall₂_drop_append _ ys ess.flatten
          hreads.flip).flip
        obtain ⟨row₁, hrow₁, hshows₁⟩ := shows_created hcreated hfirst hhead
        have hall : ([first] ++ rest).Pairwise fun a b => a.deed ≠ b.deed :=
          hdeeds
        obtain ⟨row, hrow, hshows⟩ := hshows₁.steps hall hrest
          (fun r hr hr' => uint64_eq (haccepted r (List.mem_cons_of_mem _ hr)
            hr' ▸ hfit hne)) hothers htail
        refine .inr ⟨row, ?_, hshows, ?_⟩
        · rw [← hrow, ← hrow₁, ← List.foldl_append, List.take_append_drop]
        · rw [hlast, hshows.state]
          rfl

end

/-! ## What the tables hold of a journal -/

/-- **THE TABLES REST ON THE JOURNAL**: they hold what the events say, the
    events of the two contracts are the journal's, and a route that was opened
    beside an activation is found there. -/
structure Rests (env : Env) (journal : List Emission) (t : Rows) : Prop where
  filled : Filled t.live (ctoEvents t.live) t
  reads : List.Forall₂ (Reads env) (said journal) (contractEvents t.live)
  routes : ∀ m ∈ journal, ∀ id token treasury controller previous executor,
    .activated id token treasury controller previous executor ∈ m.events →
    .feeRouteActivated token previous treasury ∈ m.events →
    ∃ e ∈ contractEvents t.live,
      e.event = .activated id token treasury controller previous executor ∧
        env.roots.feeManager ∈ routesOf t.live e

section
variable {env : Env} {bs : List Block} {s : Store} {journal : List Emission}
  {lss : List (List IndexerEvents.Log)} {t u : Rows}

/-- Only the live rows matter. -/
theorem Rests.of_same (h : Rests env journal u) (hsame : t.Same u) :
    Rests env journal t := by
  have hout : SameOutside t u := .of_same hsame
  have hevents := ctoEvents_same hout
  have hroutes : ∀ e, routesOf t.live e = routesOf u.live e := by
    intro e
    rw [routesOf, routesOf, feeRoutes_same hout]
  refine ⟨⟨?_, ?_, ?_, ?_, ?_⟩, ?_, ?_⟩
  · intro r
    rw [hsame, hevents]
    exact h.filled.proposals r
  · intro r
    rw [hsame, hevents]
    exact h.filled.ledger r
  · intro r hr
    rw [hevents]
    exact h.filled.treasuries r ((hsame _).mp hr)
  · intro r hr
    rw [hevents]
    obtain ⟨e, he, hm, hrow⟩ := h.filled.routed r ((hsame _).mp hr)
    exact ⟨e, he, hroutes e ▸ hm, hrow⟩
  · intro e he m hm r hrow
    rw [hevents] at he
    rw [hroutes] at hm
    exact (h.filled.activated e he m hm r hrow).of_same hsame.symm
  · rw [contractEvents, hevents]
    exact h.reads
  · intro m hm id token treasury controller previous executor hactivated hroute
    obtain ⟨e, he, hevent, hmanager⟩ := h.routes m hm id token treasury
      controller previous executor hactivated hroute
    refine ⟨e, ?_, hevent, hroutes e ▸ hmanager⟩
    rw [contractEvents, hevents]
    exact he

/-- **WHATEVER THE INDEXER WENT THROUGH**, its tables rest on the journal its
    chain carries. -/
theorem rests_history (hrooted : Rooted env) (h : History env bs s)
    (hcarries : Carries env bs journal lss) : Rests env journal s.rows := by
  obtain ⟨s₀, h₀, hsame, -⟩ := h.rebuilt
  refine Rests.of_same ⟨filled_applyAll h.served h₀,
    contractEvents_reads hrooted h.served h₀ hcarries, ?_⟩ hsame
  intro m hm id token treasury controller previous executor hactivated hroute
  exact routes_of_activated hrooted h.served h₀ hcarries hm hactivated hroute

/-- An event of one of the contracts was said. -/
theorem Rests.said (h : Rests env journal t) {e : CanonicalCTOEvent}
    (he : e ∈ ctoEvents t.live)
    (hkind : e.event.kind = .registry ∨ e.event.kind = .feeManager) :
    ∃ x ∈ CTOJournal.said journal, Reads env x e := by
  have hmem : e ∈ contractEvents t.live := by
    refine List.mem_filter.mpr ⟨he, decide_eq_true ?_⟩
    rcases hkind with hkind | hkind <;> rw [hkind] <;> decide
  obtain ⟨i, hi, rfl⟩ := List.mem_iff_getElem.mp hmem
  have hreads := h.reads
  rw [List.forall₂_iff_get] at hreads
  obtain ⟨hlength, hget⟩ := hreads
  have hi' : i < (CTOJournal.said journal).length := hlength ▸ hi
  exact ⟨_, List.getElem_mem hi', hget i hi' hi⟩

/-- **THE EVENTS ABOUT A PROPOSAL** are its tale. -/
theorem Rests.concerning (h : Rests env journal t) (id : Nat) :
    List.Forall₂ (Reads env) (CTOJournal.concerning id journal)
      ((ctoEvents t.live).filter fun e => e.emitter = env.roots.registry &&
        about e.event = some id) := by
  have hfilter : (ctoEvents t.live).filter (fun e =>
      e.emitter = env.roots.registry && about e.event = some id) =
      (contractEvents t.live).filter fun e => about e.event = some id := by
    rw [contractEvents, List.filter_filter]
    refine List.filter_congr fun e he => ?_
    by_cases habout : about e.event = some id
    · -- Only the registry speaks about proposals.
      have hkind := kind_of_about habout
      obtain ⟨x, -, hx⟩ := h.said he (.inl hkind)
      have hemitter := hx.emitter
      have hkind' : x.2.kind = .registry := by
        rw [← storedEvent_kind, ← hx.event, hkind]
      rw [hkind'] at hemitter
      simp [habout, hkind, ← Option.some.inj hemitter]
    · simp [habout]
  rw [hfilter, CTOJournal.concerning]
  refine List.rel_filter ?_ h.reads
  intro x e hx
  show decide (about x.2 = some id) = true ↔
    decide (about e.event = some id) = true
  rw [hx.about]

end

/-! ## What became of a proposal -/

section
variable [Keccak] {π : Type} {P : Protocol} {env : Env} {w : Told π} {t : Rows}

omit [Keccak] in
/-- Every proposal's row is of the registry. -/
theorem Rests.registry (h : Rests env w.journal t) {r : ProposalRow}
    (hr : .proposal r ∈ t.live) : r.registryAddress = env.roots.registry := by
  have hrow := (h.filled.proposals r).mp hr
  have hne : (ctoEvents t.live).filter (fun e => e.emitter = r.registryAddress &&
      about e.event = some r.proposalId) ≠ [] := by
    intro hnil
    rw [rowOf, hnil] at hrow
    cases hrow
  obtain ⟨e, he⟩ := List.exists_mem_of_ne_nil _ hne
  obtain ⟨he, hmatch⟩ := List.mem_filter.mp he
  rw [Bool.and_eq_true, decide_eq_true_iff, decide_eq_true_iff] at hmatch
  have hkind := kind_of_about hmatch.2
  obtain ⟨x, -, hx⟩ := h.said he (.inl hkind)
  have hemitter := hx.emitter
  have hkind' : x.2.kind = .registry := by
    rw [← storedEvent_kind, ← hx.event, hkind]
  rw [hkind'] at hemitter
  exact hmatch.1.symm.trans (Option.some.inj hemitter).symm

/-- **THE ROWS OF A PROPOSAL**: none before it exists, else the one that shows
    it. -/
theorem Rests.proposal (h : Rests env w.journal t) (hw : Reported P w)
    (id : Nat) :
    ((w.system.chain.registry.proposals id).state = .none ∧
      ∀ r, .proposal r ∈ t.live → r.proposalId ≠ id) ∨
    ∃ row, .proposal row ∈ t.live ∧
      Shows env.roots.registry id (w.system.chain.registry.proposals id)
        (w.system.history id) row ∧
      stateOf (w.system.chain.registry.proposals id).state = some row.state ∧
      ∀ r, .proposal r ∈ t.live → r.proposalId = id → r = row := by
  rcases shows_tale (hw.timeline.life id)
    (fun hne => (hw.timeline.stored id hne).acceptedAt) (hw.chronicle.told id)
    (h.concerning id) with ⟨hstate, hnone⟩ | ⟨row, hrow, hshows, hstate⟩
  · refine .inl ⟨hstate, ?_⟩
    rintro r hr rfl
    have hsome := (h.filled.proposals r).mp hr
    rw [h.registry hr, rowOf, hnone] at hsome
    cases hsome
  · refine .inr ⟨row, ?_, hshows, hstate, ?_⟩
    · rw [h.filled.proposals, hshows.registry, hshows.proposalId]
      exact hrow
    · rintro r hr rfl
      have hsome := (h.filled.proposals r).mp hr
      rw [h.registry hr, rowOf, hrow] at hsome
      exact (Option.some.inj hsome).symm

/-- **THE ANSWER ABOUT A PROPOSAL** is the registry's. -/
theorem ctoProposal_eq (h : Rests env w.journal t) (hw : Reported P w)
    (id : Nat) :
    ((w.system.chain.registry.proposals id).state = .none ∧
      ctoProposal t.live id = .error .notFound) ∨
    ∃ row, ctoProposal t.live id = .ok row ∧
      Shows env.roots.registry id (w.system.chain.registry.proposals id)
        (w.system.history id) row ∧
      stateOf (w.system.chain.registry.proposals id).state = some row.state := by
  rcases h.proposal hw id with ⟨hstate, hnone⟩ | ⟨row, hrow, hshows, hstate, hall⟩
  · refine .inl ⟨hstate, ?_⟩
    have hfind : (proposalRows t.live).find? (·.proposalId = id) = none := by
      rw [List.find?_eq_none]
      intro r hr
      simpa using hnone r (mem_proposalRows.mp hr)
    rw [ctoProposal, hfind]
  · refine .inr ⟨row, ?_, hshows, hstate⟩
    have hfind : (proposalRows t.live).find? (·.proposalId = id) = some row := by
      refine find?_of_all (mem_proposalRows.mpr hrow)
        (decide_eq_true hshows.proposalId) fun r hr hid => ?_
      exact hall r (mem_proposalRows.mp hr) (of_decide_eq_true hid)
    rw [ctoProposal, hfind]

end
/-! ## Who runs a token -/

theorem storedEvent_activated {e : CTOEvent} {id : Nat}
    {token treasury controller previous executor : Address}
    (h : storedEvent e =
      .activated id token treasury controller previous executor) :
    e = .activated id token treasury controller previous executor := by
  cases e with
  | activated => exact h
  | _ => cases h

theorem storedEvent_deployed {e : CTOEvent}
    {token controller treasury : Address} {nonce salt : Nat}
    (h : storedEvent e = .treasuryDeployed token controller treasury nonce salt) :
    e = .treasuryDeployed token controller treasury nonce salt := by
  cases e with
  | treasuryDeployed => exact h
  | _ => cases h

theorem mem_said {journal : List Emission} {x : Nat × CTOEvent}
    (hx : x ∈ said journal) : ∃ m ∈ journal, x.2 ∈ m.events := by
  obtain ⟨m, hm, hx⟩ := List.mem_flatMap.mp hx
  obtain ⟨e, he, rfl⟩ := List.mem_map.mp hx
  exact ⟨m, hm, he⟩

/-- Only a proposal that was executed is active. -/
theorem life_executed {p : Proposal} {h : List Record} {r : Record}
    (hlife : Life p h) (hr : r ∈ h) (hdeed : r.deed = .executed) :
    p.state = .active := by
  have hended : ∀ {last : Record → Prop} {deed : Deed}, Ended p h last →
      (∀ r, last r → r.deed = deed) → deed ≠ .executed → False := by
    rintro last deed ⟨r₀, r', hcreated, hlast, hhist⟩ hlastDeed hne
    have hr' := hlastDeed r' hlast
    rcases hhist with rfl | ⟨r₁, haccepted, rfl⟩
    · simp only [List.mem_cons, List.not_mem_nil, or_false] at hr
      rcases hr with rfl | rfl
      · cases hcreated.deed.symm.trans hdeed
      · exact hne (hr'.symm.trans hdeed)
    · simp only [List.mem_cons, List.not_mem_nil, or_false] at hr
      rcases hr with rfl | rfl | rfl
      · cases hcreated.deed.symm.trans hdeed
      · cases haccepted.deed.symm.trans hdeed
      · exact hne (hr'.symm.trans hdeed)
  rw [Life] at hlife
  cases hstate : p.state with
  | active => rfl
  | none =>
      rw [hstate] at hlife
      subst hlife
      cases hr
  | proposed =>
      rw [hstate] at hlife
      obtain ⟨r₀, hcreated, rfl⟩ := hlife
      obtain rfl := List.mem_singleton.mp hr
      cases hcreated.deed.symm.trans hdeed
  | accepted =>
      rw [hstate] at hlife
      obtain ⟨r₀, r₁, hcreated, haccepted, rfl⟩ := hlife
      simp only [List.mem_cons, List.not_mem_nil, or_false] at hr
      rcases hr with rfl | rfl
      · cases hcreated.deed.symm.trans hdeed
      · cases haccepted.deed.symm.trans hdeed
  | cancelled =>
      rw [hstate] at hlife
      exact (hended hlife (fun _ hr => hr.1) (by decide)).elim
  | expired =>
      rw [hstate] at hlife
      exact (hended hlife (fun _ hr => hr) (by decide)).elim

section
variable [Keccak] {π : Type} {P : Protocol} {env : Env} {w : Told π} {t : Rows}

/-- An activation that was told is that of an active proposal. -/
theorem activated_active (hw : Reported P w) {x : Nat × CTOEvent} {id : Nat}
    {token treasury controller previous executor : Address}
    (hx : x ∈ said w.journal)
    (hevent : x.2 = .activated id token treasury controller previous executor) :
    let p := w.system.chain.registry.proposals id
    p.state = .active ∧ token = p.token ∧ treasury = p.treasury ∧
      previous = p.previousRecipient := by
  have hmem : x ∈ concerning id w.journal := by
    refine List.mem_filter.mpr ⟨hx, ?_⟩
    rw [hevent]
    exact decide_eq_true rfl
  obtain ⟨ess, hforall, hess⟩ := hw.chronicle.told id
  rw [hess] at hmem
  obtain ⟨ys, hys, hx⟩ := List.mem_flatten.mp hmem
  obtain ⟨i, hi, rfl⟩ := List.mem_iff_getElem.mp hys
  rw [List.forall₂_iff_get] at hforall
  obtain ⟨hlength, hget⟩ := hforall
  have hi' : i < (w.system.history id).length := hlength ▸ hi
  have hdeeds := hget i hi' hi
  simp only [List.get_eq_getElem] at hdeeds
  generalize hrecord : (w.system.history id)[i] = record at hdeeds
  have hr : record ∈ w.system.history id := hrecord ▸ List.getElem_mem hi'
  obtain ⟨time, event⟩ := x
  subst hevent
  rw [Deeds] at hdeeds
  split at hdeeds
  · obtain ⟨uri, hdeeds⟩ := hdeeds
    simp [hdeeds] at hx
  · simp [hdeeds] at hx
  · simp [hdeeds] at hx
  · obtain ⟨n, hdeeds⟩ := hdeeds
    simp [hdeeds] at hx
  · next hdeed =>
      simp only [hdeeds, List.mem_singleton, Prod.mk.injEq,
        CTOEvent.activated.injEq] at hx
      obtain ⟨-, -, htoken, htreasury, -, hprevious, -⟩ := hx
      exact ⟨life_executed (hw.timeline.life id) hr hdeed, htoken, htreasury,
        hprevious⟩

/-- The activation of an active proposal was told, beside its route. -/
theorem active_told (hw : Reported P w) {id : Nat}
    (hstate : (w.system.chain.registry.proposals id).state = .active) :
    let p := w.system.chain.registry.proposals id
    ∃ m ∈ w.journal, ∃ executor,
      .activated id p.token p.treasury p.controller p.previousRecipient
        executor ∈ m.events ∧
      .feeRouteActivated p.token p.previousRecipient p.treasury ∈ m.events := by
  have hlife := hw.timeline.life id
  rw [Life, hstate] at hlife
  obtain ⟨r₀, r₁, r₂, -, -, hexecuted, hhistory⟩ := hlife
  obtain ⟨ess, hforall, hess⟩ := hw.chronicle.told id
  rw [hhistory] at hforall
  cases hforall with
  | cons _ hforall =>
      cases hforall with
      | cons _ hforall =>
          cases hforall with
          | @cons _ ys _ _ hdeeds _ =>
              rw [Deeds, hexecuted.deed] at hdeeds
              have hmem : (r₂.time, CTOEvent.activated id
                  (w.system.chain.registry.proposals id).token
                  (w.system.chain.registry.proposals id).treasury
                  (w.system.chain.registry.proposals id).controller
                  (w.system.chain.registry.proposals id).previousRecipient
                  r₂.caller) ∈ concerning id w.journal := by
                rw [hess, hdeeds]
                simp
              obtain ⟨m, hm, hevent⟩ := mem_said (List.mem_filter.mp hmem).1
              exact ⟨m, hm, r₂.caller, hevent,
                hw.chronicle.routed m hm _ _ _ _ _ _ hevent⟩

/-- **THE ROW OF A TOKEN** shows its hand-over. -/
theorem Rests.tokenState (h : Rests env w.journal t) (hw : Reported P w)
    {r : TokenStateRow} (hr : .tokenState r ∈ t.live) :
    let c := w.system.chain
    let id := c.registry.currentProposalId r.tokenAddress
    c.fees.ctoActive r.tokenAddress = true ∧
      r.registryAddress = env.roots.registry ∧ r.proposalId = id ∧
      r.treasuryAddress = c.fees.ctoTreasuryOf r.tokenAddress ∧
      (c.registry.proposals id).token = r.tokenAddress ∧
      (c.registry.proposals id).treasury = r.treasuryAddress ∧
      (c.registry.proposals id).state = .active ∧
      r.previousRecipientAddress = (c.registry.proposals id).previousRecipient := by
  obtain ⟨e, he, -, hrow⟩ := h.filled.routed r hr
  rw [tokenStateOf] at hrow
  split at hrow
  · next id token treasury controller previous executor hevent =>
      obtain ⟨x, hx, hreads⟩ := h.said he (.inl (by rw [hevent]; rfl))
      have hsaid := storedEvent_activated (hreads.event.symm.trans hevent)
      obtain ⟨hstate, htoken, htreasury, hprevious⟩ :=
        activated_active hw hx hsaid
      have hrowOf := Option.some.inj hrow
      have hemitter := hreads.emitter
      rw [hsaid] at hemitter
      have hcurrent := Joint.live_current hw.joint id (by rw [hstate]; rfl)
      rw [← htoken] at hcurrent
      have hiff : (∃ id, (w.system.chain.registry.proposals id).token = token ∧
          (w.system.chain.registry.proposals id).state = .active) ↔
          w.system.chain.fees.ctoActive token = true :=
        (Joint.tfae hw.joint token).out 1 0
      have hactive := hiff.mp ⟨id, htoken.symm, hstate⟩
      obtain ⟨id', htoken', hstate', -, -, htreasury', -⟩ :=
        Joint.active hw.joint token hactive
      have hsame : id' = id := Joint.live_unique hw.joint
        (by rw [hstate']; rfl) (by rw [hstate]; rfl) (htoken'.trans htoken)
      subst hsame
      rw [← hrowOf]
      dsimp only
      rw [hcurrent]
      exact ⟨hactive, (Option.some.inj hemitter).symm, rfl,
        htreasury.trans htreasury'.symm, htoken.symm, htreasury.symm, hstate,
        hprevious⟩
  · cases hrow

/-- A token that was handed over has its row. -/
theorem Rests.tokenState_active (h : Rests env w.journal t)
    (hw : Reported P w) {token : Address}
    (hactive : w.system.chain.fees.ctoActive token = true) :
    ∃ r, .tokenState r ∈ t.live ∧ r.tokenAddress = token := by
  obtain ⟨id, rfl, hstate, -⟩ := Joint.active hw.joint token hactive
  obtain ⟨m, hm, executor, hactivated, hroute⟩ := active_told hw hstate
  obtain ⟨e, he, hevent, hmanager⟩ := h.routes m hm _ _ _ _ _ _ hactivated hroute
  obtain ⟨c, hc, hkey⟩ := h.filled.activated e (List.mem_filter.mp he).1
    env.roots.feeManager hmanager _ (by rw [tokenStateOf, hevent])
  cases c with
  | tokenState r =>
      injection hkey with _ htoken
      exact ⟨r, hc, htoken⟩
  | _ => cases hkey

/-- The row of a proposal's treasury names its controller. -/
theorem Rests.treasury (h : Rests env w.journal t) (hw : Reported P w)
    {r : TreasuryRow} (hr : .treasury r ∈ t.live) {id : Nat}
    (hstate : (w.system.chain.registry.proposals id).state ≠ .none)
    (htreasury : r.treasuryAddress =
      (w.system.chain.registry.proposals id).treasury) :
    r.controllerAddress = (w.system.chain.registry.proposals id).controller := by
  obtain ⟨e, he, nonce, salt, hevent⟩ := h.filled.treasuries r hr
  obtain ⟨x, hx, hreads⟩ := h.said he (.inl (by rw [hevent]; rfl))
  have hsaid := storedEvent_deployed (hreads.event.symm.trans hevent)
  obtain ⟨m, hm, hmem⟩ := mem_said hx
  rw [hsaid] at hmem
  have hdeployed := hw.chronicle.deployed m hm _ _ _ _ _ hmem
  rw [htreasury, (hw.timeline.stored id hstate).deployed] at hdeployed
  exact (congrArg Treasury.controller (Option.some.inj hdeployed)).symm

/-- What the contracts say of a token, as the API spells it. -/
def statusOf {π : Type} (registry : Address) (c : Chain π) (token : Address) :
    CTOStatus :=
  if c.fees.ctoActive token then
    let id := c.registry.currentProposalId token
    { active := true
      registry := some registry
      treasury := some (c.fees.ctoTreasuryOf token)
      controller := some (c.registry.proposals id).controller
      previousRecipient := some (c.registry.proposals id).previousRecipient
      activeProposalId := some id
      activation := none }
  else .inactive

/-- The joined rows of a token that was handed over all name one hand-over. -/
theorem mem_statusRows (h : Rests env w.journal t) (hw : Reported P w)
    {token : Address} {s : TokenStateRow} {tr : Option TreasuryRow}
    {p : Option ProposalRow} (hmem : (s, tr, p) ∈ statusRows t.live token) :
    .tokenState s ∈ t.live ∧ s.tokenAddress = token ∧
      (tr.map (·.controllerAddress)).or (p.map (·.controllerAddress)) =
        some (w.system.chain.registry.proposals s.proposalId).controller := by
  simp only [statusRows, List.mem_flatMap, List.mem_map, Prod.mk.injEq] at hmem
  obtain ⟨s', hs, tr', htr, p', hp, rfl, rfl, rfl⟩ := hmem
  obtain ⟨hs, htoken⟩ := List.mem_filter.mp hs
  have hlive := mem_tokenStateRows.mp hs
  have htoken := of_decide_eq_true htoken
  refine ⟨hlive, htoken, ?_⟩
  obtain ⟨-, hregistry, hid, -, -, htreasury, hstate, -⟩ := h.tokenState hw hlive
  rw [← hid] at htreasury hstate
  have hne : (w.system.chain.registry.proposals s'.proposalId).state ≠ .none := by
    rw [hstate]
    exact CTORegistry.ProposalState.noConfusion
  rcases mem_leftJoin htr with ⟨rfl, -⟩ | ⟨row, hrow, rfl⟩
  · -- Without a treasury's row the proposal's is taken, and it is there.
    rcases h.proposal hw s'.proposalId with ⟨hnone, -⟩ |
      ⟨row, hrow, hshows, -, hall⟩
    · exact absurd hnone hne
    · rcases mem_leftJoin hp with ⟨-, hnil⟩ | ⟨row', hrow', rfl⟩
      · have hmem : row ∈ (proposalRows t.live).filter fun p =>
            p.registryAddress = s'.registryAddress &&
              p.proposalId = s'.proposalId := by
          refine List.mem_filter.mpr ⟨mem_proposalRows.mpr hrow, ?_⟩
          simp [hshows.registry, hshows.proposalId, hregistry]
        rw [hnil] at hmem
        cases hmem
      · obtain ⟨hrow', hmatch⟩ := List.mem_filter.mp hrow'
        rw [Bool.and_eq_true, decide_eq_true_iff, decide_eq_true_iff] at hmatch
        obtain rfl := hall row' (mem_proposalRows.mp hrow') hmatch.2
        exact congrArg some hshows.controller
  · obtain ⟨hrow, hmatch⟩ := List.mem_filter.mp hrow
    have hmatch := of_decide_eq_true hmatch
    exact congrArg some (h.treasury hw (mem_treasuryRows.mp hrow) hne
      (hmatch.trans htreasury.symm))

/-- **THE ANSWER ABOUT A TOKEN** is what the contracts say. -/
theorem ctoStatus_eq (h : Rests env w.journal t) (hw : Reported P w)
    {token : Address} {out : CTOStatus}
    (hout : ctoStatus env t.live token = .ok out) :
    { out with activation := none } =
      statusOf env.roots.registry w.system.chain token := by
  rw [ctoStatus, bind_ok] at hout
  obtain ⟨_, -, hout⟩ := hout
  cases hhead : (statusRows t.live token).head? with
  | none =>
      rw [hhead] at hout
      obtain rfl := Except.ok.inj hout
      have hinactive : w.system.chain.fees.ctoActive token = false := by
        by_contra hactive
        rw [Bool.not_eq_false] at hactive
        obtain ⟨r, hr, htoken⟩ := h.tokenState_active hw hactive
        obtain ⟨tr, htr⟩ := List.exists_mem_of_ne_nil _ (leftJoin_ne_nil
          ((treasuryRows t.live).filter
            (·.treasuryAddress = r.treasuryAddress)))
        obtain ⟨p, hp⟩ := List.exists_mem_of_ne_nil _ (leftJoin_ne_nil
          ((proposalRows t.live).filter fun p =>
            p.registryAddress = r.registryAddress &&
              p.proposalId = r.proposalId))
        have hmem : (r, tr, p) ∈ statusRows t.live token := by
          simp only [statusRows, List.mem_flatMap, List.mem_map, Prod.mk.injEq]
          exact ⟨r, List.mem_filter.mpr ⟨mem_tokenStateRows.mpr hr,
            decide_eq_true htoken⟩, tr, htr, p, hp, rfl, rfl, rfl⟩
        rw [List.head?_eq_none_iff.mp hhead] at hmem
        cases hmem
      rw [statusOf, hinactive]
      rfl
  | some row =>
      obtain ⟨s, tr, p⟩ := row
      rw [hhead] at hout
      obtain rfl := Except.ok.inj hout
      obtain ⟨hs, rfl, hcontroller⟩ := mem_statusRows h hw
        (List.mem_of_head? hhead)
      obtain ⟨hactive, hregistry, hid, htreasury, -, -, -, hprevious⟩ :=
        h.tokenState hw hs
      rw [statusOf, hactive, ← hid, ← htreasury, ← hregistry]
      rw [← hid] at hprevious
      dsimp only
      rw [hcontroller, hprevious]
      rfl

end
/-! ## The creator fees still to be claimed -/

/-- What a row counts for a sum of the ledger. -/
def counts (action : LedgerAction) (token recipient : Address) (r : LedgerRow) :
    Nat :=
  if r.tokenAddress = token ∧ r.recipientAddress = recipient ∧ r.action = action
  then r.amount else 0

/-- A sum over a filter counts the others for nothing. -/
theorem sumOf_counts (action : LedgerAction) (token recipient : Address)
    (rows : List LedgerRow) :
    sumOf action recipient (rows.filter (·.tokenAddress = token)) =
      (rows.map (counts action token recipient)).sum := by
  rw [sumOf, List.filter_filter]
  induction rows with
  | nil => rfl
  | cons r rows ih =>
      rw [List.filter_cons, List.map_cons, List.sum_cons, ← ih, counts]
      by_cases htoken : r.tokenAddress = token <;>
        by_cases hrecipient : r.recipientAddress = recipient <;>
          by_cases haction : r.action = action <;>
            simp [htoken, hrecipient, haction]

theorem sum_filterMap {α β : Type} (f : α → Option β) (g : β → Nat)
    (xs : List α) :
    ((xs.filterMap f).map g).sum = (xs.map fun x => (f x).elim 0 g).sum := by
  induction xs with
  | nil => rfl
  | cons x xs ih =>
      rw [List.map_cons, List.sum_cons, ← ih]
      cases hx : f x with
      | none =>
          rw [List.filterMap_cons_none hx]
          exact (Nat.zero_add _).symm
      | some y =>
          rw [List.filterMap_cons_some hx]
          rfl

/-- What an event says a sum of the ledger counts. -/
def saidCounts (action : LedgerAction) (token recipient : Address) :
    CTOEvent → Nat :=
  match action with
  | .checkpoint => credit token recipient
  | .claim => debit token recipient

section
variable {env : Env} {journal : List Emission} {t : Rows}

/-- **THE LEDGER** is the rows of the events. -/
theorem Rests.ledger_perm (h : Rests env journal t) :
    (ledgerRows t.live).Perm
      ((contractEvents t.live).filterMap ledgerRowOf) := by
  have hkinds : (contractEvents t.live).filterMap ledgerRowOf =
      (ctoEvents t.live).filterMap ledgerRowOf := by
    rw [contractEvents, List.filterMap_filter]
    refine List.filterMap_congr fun e _ => ?_
    cases hrow : ledgerRowOf e with
    | none => simp
    | some r =>
        rw [ledgerRowOf] at hrow
        split at hrow
        · next hevent => simp [hevent, CTOEvent.kind]
        · next hevent => simp [hevent, CTOEvent.kind]
        · cases hrow
  have hright : ((ctoEvents t.live).filterMap ledgerRowOf).Nodup := by
    refine List.pairwise_filterMap.mpr ((ctoEvents_distinct t).imp ?_)
    intro a b hne r hr r' hr' heq
    rw [← ledgerRowOf_origin hr, ← ledgerRowOf_origin hr', heq] at hne
    exact hne rfl
  rw [hkinds]
  refine (List.perm_ext_iff_of_nodup (ledgerRows_nodup t) hright).mpr fun r => ?_
  rw [mem_ledgerRows, h.filled.ledger, List.mem_filterMap]

/-- An event counts what its row counts. -/
theorem Reads.counts {x : Nat × CTOEvent} {e : CanonicalCTOEvent}
    (h : Reads env x e) (action : LedgerAction) (token recipient : Address) :
    saidCounts action token recipient x.2 =
      (ledgerRowOf e).elim 0 (IndexedCTO.counts action token recipient) := by
  rw [ledgerRowOf, h.event]
  cases x.2 <;> cases action <;>
    simp [saidCounts, storedEvent, credit, debit, IndexedCTO.counts]

/-- **THE SUMS OF THE LEDGER** are those of the journal. -/
theorem Rests.sumOf_eq (h : Rests env journal t) (action : LedgerAction)
    (token recipient : Address) :
    sumOf action recipient (ledgerOf t.live token) =
      ((CTOJournal.said journal).map fun x =>
        saidCounts action token recipient x.2).sum := by
  rw [ledgerOf, sumOf_counts, (h.ledger_perm.map _).sum_eq, sum_filterMap]
  refine congrArg List.sum ?_
  have hsame : List.Forall₂ Eq
      ((CTOJournal.said journal).map fun x =>
        saidCounts action token recipient x.2)
      ((contractEvents t.live).map fun e =>
        (ledgerRowOf e).elim 0 (IndexedCTO.counts action token recipient)) := by
    rw [List.forall₂_map_left_iff, List.forall₂_map_right_iff]
    exact h.reads.imp fun x e hx => hx.counts action token recipient
  exact (List.forall₂_eq_eq_eq ▸ hsame).symm

theorem said_events (journal : List Emission) :
    (CTOJournal.said journal).map Prod.snd = journal.flatMap Emission.events := by
  rw [CTOJournal.said, List.map_flatMap]
  refine congrArg (List.flatMap · journal) ?_
  funext m
  rw [List.map_map]
  exact List.map_id _

/-- Credits less claims, over the journal. -/
theorem net_said (token recipient : Address) (journal : List Emission) :
    net token recipient (journal.flatMap Emission.events) =
      (((CTOJournal.said journal).map fun x =>
        saidCounts .checkpoint token recipient x.2).sum : Nat) -
      (((CTOJournal.said journal).map fun x =>
        saidCounts .claim token recipient x.2).sum : Nat) := by
  rw [← said_events, net, List.map_map]
  induction CTOJournal.said journal with
  | nil => rfl
  | cons x xs ih =>
      simp only [List.map_cons, List.sum_cons, ih, Function.comp_apply,
        saidCounts, Nat.cast_add]
      ring

end

theorem mapM_of_ok {α β ε : Type} {f : α → Except ε β} {g : α → β} {xs : List α}
    (h : ∀ x ∈ xs, f x = .ok (g x)) : xs.mapM f = .ok (xs.map g) := by
  induction xs with
  | nil => rfl
  | cons x xs ih =>
      rw [List.mapM_cons, h x (List.mem_cons_self ..),
        ih fun y hy => h y (List.mem_cons_of_mem _ hy)]
      rfl

section
variable [Keccak] {π : Type} {P : Protocol} {env : Env} {w : Told π} {t : Rows}

/-- **THE ANSWER ABOUT FEES** never fails, and what it calls outstanding is what
    the fee manager owes; nobody who is owed something is left out. -/
theorem ctoCheckpointAggregates_eq (h : Rests env w.journal t)
    (hw : Reported P w) (token : Address) :
    ∃ as, ctoCheckpointAggregates t.live token = .ok as ∧
      (as.map (·.recipient)).Nodup ∧
      (∀ a ∈ as, a.outstanding =
        w.system.chain.fees.checkpointedCreatorFees token a.recipient) ∧
      ∀ recipient,
        w.system.chain.fees.checkpointedCreatorFees token recipient ≠ 0 →
        ∃ a ∈ as, a.recipient = recipient := by
  have hsums : ∀ recipient,
      sumOf .checkpoint recipient (ledgerOf t.live token) =
        sumOf .claim recipient (ledgerOf t.live token) +
          w.system.chain.fees.checkpointedCreatorFees token recipient := by
    intro recipient
    have hsettled := hw.settled token recipient
    rw [net_said, ← h.sumOf_eq, ← h.sumOf_eq] at hsettled
    omega
  have hgroups : ∀ recipient ∈ recipientsOf (ledgerOf t.live token),
      aggregateOf token (ledgerOf t.live token) recipient =
        .ok ⟨token, recipient,
          sumOf .checkpoint recipient (ledgerOf t.live token),
          sumOf .claim recipient (ledgerOf t.live token),
          w.system.chain.fees.checkpointedCreatorFees token recipient⟩ := by
    intro recipient _
    have hsum := hsums recipient
    rw [aggregateOf, if_neg (by omega)]
    rw [hsum, Nat.add_sub_cancel_left]
  refine ⟨_, mapM_of_ok hgroups, ?_, ?_, ?_⟩
  · rw [List.map_map]
    show (List.map (fun recipient => recipient)
      (recipientsOf (ledgerOf t.live token))).Nodup
    rw [List.map_id', recipientsOf, (Keyset.orderBy_perm _ _).nodup_iff]
    exact List.nodup_dedup _
  · intro a ha
    obtain ⟨recipient, -, rfl⟩ := List.mem_map.mp ha
    rfl
  · intro recipient hne
    have hsum := hsums recipient
    -- Something was credited to the recipient, so its group is there.
    have hrow : ∃ r ∈ ledgerOf t.live token, r.recipientAddress = recipient := by
      by_contra hnone
      have hzero : sumOf .checkpoint recipient (ledgerOf t.live token) = 0 := by
        have hnil : (ledgerOf t.live token).filter (fun r =>
            r.recipientAddress = recipient && r.action = .checkpoint) = [] := by
          rw [List.filter_eq_nil_iff]
          intro r hr hmatch
          rw [Bool.and_eq_true, decide_eq_true_iff] at hmatch
          exact hnone ⟨r, hr, hmatch.1⟩
        rw [sumOf, hnil]
        rfl
      omega
    obtain ⟨r, hr, rfl⟩ := hrow
    refine ⟨_, List.mem_map.mpr ⟨r.recipientAddress, ?_, rfl⟩, rfl⟩
    rw [recipientsOf, (Keyset.orderBy_perm _ _).mem_iff, List.mem_dedup]
    exact List.mem_map_of_mem hr

end

/-! ## The refinement -/

section
variable [Keccak] [MulDiv] {π : Type} [PositionManager π] {env : Env}
  {bs : List Block} {s : Store}
  {lss : List (List IndexerEvents.Log)}

/-- **WHAT THE API SAYS OF A HAND-OVER IS THE STATE OF THE CONTRACTS**: after any
    transactions since deployment, and any history of the indexer whose
    surviving chain carries what the two contracts emitted, every proposal, the
    status of every token and the creator fees that are still owed are answered
    as the registry and the fee manager have them. -/
theorem indexed_handover (salt : Salt) (P : Protocol) (now : Nat)
    (governance initialTreasury : Address) (lp : LPState π)
    (txs : List (Call π × Script (Call π))) (hrooted : Rooted env)
    (h : History env bs s)
    (hcarries : Carries env bs ((told salt P).runTxs txs
      ⟨deployed now governance initialTreasury lp, []⟩).journal lss) :
    let w := (machine P).runTxs txs (deployed now governance initialTreasury lp)
    (∀ id, ((w.chain.registry.proposals id).state = .none ∧
        ctoProposal s.rows.live id = .error .notFound) ∨
      ∃ row, ctoProposal s.rows.live id = .ok row ∧
        Shows env.roots.registry id (w.chain.registry.proposals id)
          (w.history id) row ∧
        stateOf (w.chain.registry.proposals id).state = some row.state) ∧
    (∀ token out, ctoStatus env s.rows.live token = .ok out →
      { out with activation := none } =
        statusOf env.roots.registry w.chain token) ∧
    ∀ token, ∃ as, ctoCheckpointAggregates s.rows.live token = .ok as ∧
      (as.map (·.recipient)).Nodup ∧
      (∀ a ∈ as, a.outstanding =
        w.chain.fees.checkpointedCreatorFees token a.recipient) ∧
      ∀ recipient, w.chain.fees.checkpointedCreatorFees token recipient ≠ 0 →
        ∃ a ∈ as, a.recipient = recipient := by
  have hreported := reported_runTxs salt P now governance initialTreasury lp txs
  have hrests := rests_history hrooted h hcarries
  rw [← system_runTxs salt]
  exact ⟨ctoProposal_eq hrests hreported,
    fun _ _ hout => ctoStatus_eq hrests hreported hout,
    ctoCheckpointAggregates_eq hrests hreported⟩

end
/-! ## One hand-over, indexed -/

/-- The token is launched and has not graduated. -/
def launchedLP : LPState Unit :=
  { emptyLP with
    launches := fun t =>
      if t = 21 then ⟨20, 22, true, false⟩ else ⟨0, 0, false, false⟩ }

/-- The creator 22 hands the token to the controller 30. -/
def firstCalls : List (Call Unit × Script (Call Unit)) :=
  [(.fees 40 0 knownViews (.setFactoryOnce 10), .halt true),
    (.fees 10 0 knownViews (.registerToken 21 20 22), .halt true),
    (.outside launchedLP, .halt true),
    (.proposeCTO 22 knownViews 21 30 0 [], .halt true),
    (.wait 100, .halt true),
    (.treasuryAcceptCTO 30 1 firstId, .halt true),
    (.wait 259200, .halt true),
    (.executeCTO 50 knownViews firstId, .halt true)]

def firstEnv : Env where
  excluded := fun _ => false
  roots := ⟨10, 11, 12⟩
  mixedCase := fun _ => false
  div := fun a b => a / b

def launchLog : IndexerEvents.Log :=
  ⟨10, .tokenLaunchedV3 22 21 20 0 0 0 22 23, 1, 11, 50, 0, 0⟩

def deployedLog : IndexerEvents.Log :=
  ⟨12, .cto (.treasuryDeployed 21 30 1 1 1), 1, 11, 51, 1, 1⟩

def proposedLog : IndexerEvents.Log :=
  ⟨12, .cto (.proposed firstId 21 22 30 1 22 1 604800 0 []), 1, 11, 51, 1, 2⟩

def acceptedLog : IndexerEvents.Log :=
  ⟨12, .cto (.accepted firstId 21 1 30 100), 2, 12, 52, 0, 0⟩

def readyLog : IndexerEvents.Log :=
  ⟨12, .cto (.ready firstId 21 259300 864100), 2, 12, 52, 0, 1⟩

def routeLog : IndexerEvents.Log :=
  ⟨11, .cto (.feeRouteActivated 21 22 1), 3, 13, 53, 0, 0⟩

def activatedLog : IndexerEvents.Log :=
  ⟨12, .cto (.activated firstId 21 1 30 22 50), 3, 13, 53, 0, 1⟩

/-- The three blocks of the hand-over. -/
def firstBlocks : List Block :=
  [⟨1, 11, 10, 0, [launchLog, deployedLog, proposedLog],
      fun _ => some ⟨[67], [67], 18⟩, fun _ => none⟩,
    ⟨2, 12, 11, 100, [acceptedLog, readyLog], fun _ => none, fun _ => none⟩,
    ⟨3, 13, 12, 259300, [routeLog, activatedLog], fun _ => none, fun _ => none⟩]

theorem firstBlocks_logs {l : IndexerEvents.Log} : LogOf firstBlocks l ↔
    l ∈ [launchLog, deployedLog, proposedLog, acceptedLog, readyLog, routeLog,
      activatedLog] := by
  simp [LogOf, firstBlocks, or_assoc]

theorem firstBlocks_served : Served firstEnv firstBlocks where
  ascending := by simp [firstBlocks]
  hashes := by simp [firstBlocks]
  identified := by
    have hlogs : ∀ a ∈ [launchLog, deployedLog, proposedLog, acceptedLog,
        readyLog, routeLog, activatedLog], ∀ l ∈ [launchLog, deployedLog,
        proposedLog, acceptedLog, readyLog, routeLog, activatedLog],
        a.identity = l.identity → a = l := by decide +kernel
    intro a l ha hl
    exact hlogs a (firstBlocks_logs.mp ha) l (firstBlocks_logs.mp hl)
  opened := by
    rintro b hb l hl id ⟨-, e, hevent, hupdates⟩
    have hlog := firstBlocks_logs.mp ⟨b, hb, hl⟩
    -- Only the later blocks change the proposal, and the first one opened it.
    have hopened : id = firstId → proposedLog.position < l.position →
        ∃ c ∈ firstBlocks, c.number ≤ b.number ∧ ∃ a ∈ c.logs,
          OpensAt firstEnv id a ∧ a.position < l.position := by
      rintro rfl hposition
      refine ⟨firstBlocks[0], List.getElem_mem _, ?_, proposedLog, ?_,
        ⟨rfl, _, rfl, rfl⟩, hposition⟩
      · simp only [firstBlocks, List.mem_cons, List.not_mem_nil, or_false] at hb
        rcases hb with rfl | rfl | rfl <;> decide
      · simp [firstBlocks]
    simp only [List.mem_cons, List.not_mem_nil, or_false] at hlog
    rcases hlog with rfl | rfl | rfl | rfl | rfl | rfl | rfl
    · cases hevent
    · cases hevent
      cases hupdates
    · cases hevent
      cases hupdates
    · cases hevent
      exact hopened (Option.some.inj hupdates).symm (by decide)
    · cases hevent
      exact hopened (Option.some.inj hupdates).symm (by decide)
    · cases hevent
      cases hupdates
    · cases hevent
      exact hopened (Option.some.inj hupdates).symm (by decide)

theorem firstBlocks_history : ∃ s, History firstEnv firstBlocks s := by
  have hok : (applyAll firstEnv fresh firstBlocks).isOk = true := by
    decide +kernel
  cases happly : applyAll firstEnv fresh firstBlocks with
  | error e =>
      rw [happly] at hok
      cases hok
  | ok s => exact ⟨s, history_applyAll firstBlocks_served happly⟩

/-- What the contracts emitted, half a call after half a call. -/
theorem firstCalls_journal :
    let _ := plainKeccak
    let _ := exactMulDiv
    let _ := noPositions
    ((told (fun _ _ nonce => nonce) oneProtocol).runTxs firstCalls
      ⟨deployed 0 40 41 emptyLP, []⟩).journal =
      [⟨0, []⟩, ⟨0, []⟩, ⟨0, []⟩, ⟨0, []⟩, ⟨0, []⟩, ⟨0, []⟩,
        ⟨0, [.treasuryDeployed 21 30 1 1 1,
          .proposed firstId 21 22 30 1 22 1 604800 0 []]⟩, ⟨0, []⟩, ⟨0, []⟩,
        ⟨100, []⟩, ⟨100, [.accepted firstId 21 1 30 100,
          .ready firstId 21 259300 864100]⟩, ⟨100, []⟩, ⟨100, []⟩,
        ⟨259300, []⟩, ⟨259300, [.feeRouteActivated 21 22 1,
          .activated firstId 21 1 30 22 50]⟩, ⟨259300, []⟩] := by
  decide +kernel

/-- The logs of the registry and the fee manager, call by call. -/
def firstLogs : List (List IndexerEvents.Log) :=
  [[], [], [], [], [], [], [deployedLog, proposedLog], [], [], [],
    [acceptedLog, readyLog], [], [], [], [routeLog, activatedLog], []]

theorem firstBlocks_carries :
    let _ := plainKeccak
    let _ := exactMulDiv
    let _ := noPositions
    Carries firstEnv firstBlocks
      ((told (fun _ _ nonce => nonce) oneProtocol).runTxs firstCalls
        ⟨deployed 0 40 41 emptyLP, []⟩).journal firstLogs := by
  intro _ _ _
  refine ⟨?_, ?_, ?_⟩
  · rw [firstCalls_journal]
    have hnone : ∀ time, Carried firstBlocks ⟨time, []⟩ [] := fun time =>
      ⟨rfl, fun l hl => absurd hl List.not_mem_nil,
        fun l hl => absurd hl List.not_mem_nil⟩
    have hfirst : Carried firstBlocks ⟨0, [.treasuryDeployed 21 30 1 1 1,
        .proposed firstId 21 22 30 1 22 1 604800 0 []]⟩
        [deployedLog, proposedLog] :=
      ⟨rfl, by decide +kernel, by decide +kernel⟩
    have hsecond : Carried firstBlocks ⟨100, [.accepted firstId 21 1 30 100,
        .ready firstId 21 259300 864100]⟩ [acceptedLog, readyLog] :=
      ⟨rfl, by decide +kernel, by decide +kernel⟩
    have hthird : Carried firstBlocks ⟨259300, [.feeRouteActivated 21 22 1,
        .activated firstId 21 1 30 22 50]⟩ [routeLog, activatedLog] :=
      ⟨rfl, by decide +kernel, by decide +kernel⟩
    exact .cons (hnone _) <| .cons (hnone _) <| .cons (hnone _) <|
      .cons (hnone _) <| .cons (hnone _) <| .cons (hnone _) <| .cons hfirst <|
      .cons (hnone _) <| .cons (hnone _) <| .cons (hnone _) <| .cons hsecond <|
      .cons (hnone _) <| .cons (hnone _) <| .cons (hnone _) <| .cons hthird <|
      .cons (hnone _) .nil
  · decide +kernel
  · have hto : ∀ l ∈ firstLogs.flatten, l ∈ [launchLog, deployedLog,
        proposedLog, acceptedLog, readyLog, routeLog, activatedLog] ∧
        ofContracts firstEnv l = true := by decide +kernel
    have hof : ∀ l ∈ [launchLog, deployedLog, proposedLog, acceptedLog, readyLog,
        routeLog, activatedLog], ofContracts firstEnv l = true →
        l ∈ firstLogs.flatten := by decide +kernel
    intro l
    rw [firstBlocks_logs]
    exact ⟨hto l, fun h => hof l h.1 h.2⟩

/-- The token is shown to be in the hands of its controller. -/
theorem indexed_firstCalls : ∃ s, History firstEnv firstBlocks s ∧
    ∀ out, ctoStatus firstEnv s.rows.live 21 = .ok out →
      { out with activation := none } =
        ⟨true, some 12, some 1, some 30, some 22, some firstId, none⟩ := by
  let _ := plainKeccak
  let _ := exactMulDiv
  let _ := noPositions
  obtain ⟨s, h⟩ := firstBlocks_history
  obtain ⟨-, hstatus, -⟩ := indexed_handover (fun _ _ nonce => nonce)
    oneProtocol 0 40 41 emptyLP firstCalls ⟨by decide, by decide⟩ h
    firstBlocks_carries
  refine ⟨s, h, fun out hout => (hstatus 21 out hout).trans ?_⟩
  decide +kernel

end IndexedCTO
