import Cooket.IndexerEventsProofs
import Cooket.RowTableProofs

/-! # The indexer's database

    `Store` of `apps/indexer/store.go` and `rebuildCTOTx` of
    `cto_projection.go`, over the tables of `db/migrations`.

    Every table an event writes has a primary key and an `is_canonical` flag,
    and a reorg withdraws rows of all of them by one predicate on the block
    number and hash.  The tables are therefore ONE keyed table here (`Rows`):
    the constructor of a `Body` is the SQL table, and the `Key` starts with it.
    Rows that the two `rebuild` functions recompute from scratch in every
    transaction (holders, metrics, candles, the state columns of a curve) are a
    function of the live rows, `rebuild`.

    Timestamps the database makes up (`created_at`, `updated_at`,
    `orphaned_at`), the metadata the API writes and columns no query of the
    indexer reads are left out. -/

namespace IndexerStore

open Contract IndexerEvents Keyset RowTable TradeRows

/-! ## Rows -/

/-- The columns that tie a row to its log. -/
structure Origin where
  blockNumber : Nat
  blockHash : Hash
  transactionHash : Hash
  logIndex : Nat
  deriving DecidableEq, Repr

/-- `chain_blocks`. -/
structure BlockRow where
  blockNumber : Nat
  blockHash : Hash
  parentHash : Hash
  blockTimestamp : Nat
  deriving DecidableEq, Repr

/-- `chain_events`; `decoded` is what a reader of the JSON column gets. -/
structure EventRow where
  contractAddress : Address
  decoded : Event
  transactionIndex : Nat
  origin : Origin
  deriving DecidableEq, Repr

/-- `tokens`. -/
structure TokenRow where
  tokenAddress : Address
  creatorAddress : Address
  name : Bytes
  symbol : Bytes
  tokenDecimals : Nat
  initialSupply : Nat
  origin : Origin
  deriving DecidableEq, Repr

/-- `curves`, without the columns `rebuildCurveStateTx` sets. -/
structure CurveRow where
  tokenAddress : Address
  curveAddress : Address
  creatorAddress : Address
  curveSupply : Nat
  canonicalPoolAddress : Address
  origin : Origin
  deriving DecidableEq, Repr

/-- `graduations`. -/
structure GraduationRow where
  tokenAddress : Address
  soldSupply : Nat
  tokenAmount : Nat
  graduationManagerAddress : Address
  nativeUsdcAmount : Nat
  origin : Origin
  deriving DecidableEq, Repr

/-- `liquidity_events`. -/
structure LiquidityEventRow where
  tokenAddress : Address
  graduationManagerAddress : Address
  lpCustodianAddress : Address
  positionTokenId : Nat
  liquidityAmount : Nat
  origin : Origin
  deriving DecidableEq, Repr

/-- `cto_treasuries`. -/
structure TreasuryRow where
  registryAddress : Address
  treasuryAddress : Address
  tokenAddress : Address
  controllerAddress : Address
  tokenNonce : Nat
  create2Salt : Nat
  origin : Origin
  deriving DecidableEq, Repr

/-- `cto_proposals.state`. -/
inductive ProposalState where
  | proposed
  | accepted
  | cancelled
  | expired
  | active
  deriving DecidableEq, Repr

/-- `cto_proposals`. -/
structure ProposalRow where
  registryAddress : Address
  proposalId : Nat
  tokenAddress : Address
  treasuryAddress : Address
  creatorAddress : Address
  controllerAddress : Address
  previousRecipientAddress : Address
  metadataHash : Nat
  metadataUri : Bytes
  tokenNonce : Nat
  state : ProposalState
  createdTimestamp : Nat
  acceptanceDeadline : Nat
  acceptedTimestamp : Option Nat
  executeAfter : Option Nat
  executeDeadline : Option Nat
  cancelledTimestamp : Option Nat
  expiredTimestamp : Option Nat
  activatedTimestamp : Option Nat
  created : Origin
  accepted : Option Origin
  ready : Option Origin
  cancelled : Option Origin
  expired : Option Origin
  activated : Option Origin
  lifecycle : Origin
  deriving DecidableEq, Repr

/-- `cto_token_state`; `active` is always true. -/
structure TokenStateRow where
  feeManagerAddress : Address
  tokenAddress : Address
  registryAddress : Address
  treasuryAddress : Address
  proposalId : Nat
  previousRecipientAddress : Address
  origin : Origin
  deriving DecidableEq, Repr

/-- `cto_creator_fee_checkpoint_ledger.action`. -/
inductive LedgerAction where
  | checkpoint
  | claim
  deriving DecidableEq, Repr

/-- `cto_creator_fee_checkpoint_ledger`. -/
structure LedgerRow where
  feeManagerAddress : Address
  tokenAddress : Address
  recipientAddress : Address
  action : LedgerAction
  amount : Nat
  triggeredByAddress : Option Address
  origin : Origin
  deriving DecidableEq, Repr

/-- `cto_supported_assets`. -/
structure SupportedAssetRow where
  treasuryAddress : Address
  assetAddress : Address
  controllerAddress : Address
  origin : Origin
  deriving DecidableEq, Repr

/-- `cto_treasury_transfers`. -/
structure TreasuryTransferRow where
  treasuryAddress : Address
  assetAddress : Address
  recipientAddress : Address
  amount : Nat
  controllerAddress : Address
  origin : Origin
  deriving DecidableEq, Repr

/-- `cto_fee_pulls`. -/
structure FeePullRow where
  treasuryAddress : Address
  tokenAddress : Address
  assetAddress : Address
  amount : Nat
  triggeredByAddress : Address
  origin : Origin
  deriving DecidableEq, Repr

/-- A row of some table. -/
inductive Body where
  | block (r : BlockRow)
  | event (r : EventRow)
  | token (r : TokenRow)
  | curve (r : CurveRow)
  | trade (r : TradeRow)
  | graduation (r : GraduationRow)
  | liquidityEvent (r : LiquidityEventRow)
  | treasury (r : TreasuryRow)
  | proposal (r : ProposalRow)
  | tokenState (r : TokenStateRow)
  | ledger (r : LedgerRow)
  | supportedAsset (r : SupportedAssetRow)
  | treasuryTransfer (r : TreasuryTransferRow)
  | feePull (r : FeePullRow)
  deriving DecidableEq, Repr

/-- The tables whose primary key is `(transaction_hash, log_index)`. -/
inductive LogTable where
  | chainEvents
  | tokens
  | curves
  | trades
  | graduations
  | liquidityEvents
  | ctoTreasuries
  | ctoCreatorFeeCheckpointLedger
  | ctoSupportedAssets
  | ctoTreasuryTransfers
  | ctoFeePulls
  deriving DecidableEq, Repr

/-- Primary keys. -/
inductive Key where
  | block (hash : Hash)
  | log (table : LogTable) (transactionHash : Hash) (logIndex : Nat)
  | proposal (registry : Address) (proposalId : Nat)
  | tokenState (feeManager token : Address)
  deriving DecidableEq, Repr

def Origin.key (o : Origin) (table : LogTable) : Key :=
  .log table o.transactionHash o.logIndex

def Body.key : Body → Key
  | .block r => .block r.blockHash
  | .event r => r.origin.key .chainEvents
  | .token r => r.origin.key .tokens
  | .curve r => r.origin.key .curves
  | .trade r => .log .trades r.transactionHash r.logIndex
  | .graduation r => r.origin.key .graduations
  | .liquidityEvent r => r.origin.key .liquidityEvents
  | .treasury r => r.origin.key .ctoTreasuries
  | .proposal r => .proposal r.registryAddress r.proposalId
  | .tokenState r => .tokenState r.feeManagerAddress r.tokenAddress
  | .ledger r => r.origin.key .ctoCreatorFeeCheckpointLedger
  | .supportedAsset r => r.origin.key .ctoSupportedAssets
  | .treasuryTransfer r => r.origin.key .ctoTreasuryTransfers
  | .feePull r => r.origin.key .ctoFeePulls

/-- The block number and hash `orphanCanonicalByBlock` compares; those of the
    lifecycle for a proposal. -/
def Body.place : Body → Nat × Hash
  | .block r => (r.blockNumber, r.blockHash)
  | .trade r => (r.blockNumber, r.blockHash)
  | .proposal r => (r.lifecycle.blockNumber, r.lifecycle.blockHash)
  | .event r => (r.origin.blockNumber, r.origin.blockHash)
  | .token r => (r.origin.blockNumber, r.origin.blockHash)
  | .curve r => (r.origin.blockNumber, r.origin.blockHash)
  | .graduation r => (r.origin.blockNumber, r.origin.blockHash)
  | .liquidityEvent r => (r.origin.blockNumber, r.origin.blockHash)
  | .treasury r => (r.origin.blockNumber, r.origin.blockHash)
  | .tokenState r => (r.origin.blockNumber, r.origin.blockHash)
  | .ledger r => (r.origin.blockNumber, r.origin.blockHash)
  | .supportedAsset r => (r.origin.blockNumber, r.origin.blockHash)
  | .treasuryTransfer r => (r.origin.blockNumber, r.origin.blockHash)
  | .feePull r => (r.origin.blockNumber, r.origin.blockHash)

/-- The tables `rebuildCTOTx` starts from scratch. -/
def Body.isCTO : Body → Bool
  | .treasury _ | .proposal _ | .tokenState _ | .ledger _ | .supportedAsset _
  | .treasuryTransfer _ | .feePull _ => true
  | _ => false

/-- The unique indexes `WHERE is_canonical`. -/
inductive UniqueKey where
  | blockHeight (number : Nat)
  | treasuryAddress (treasury : Address)
  | treasuryNonce (registry token : Address) (nonce : Nat)
  | proposalNonce (registry token : Address) (nonce : Nat)
  | supportedAsset (treasury asset : Address)
  deriving DecidableEq, Repr

def Body.uniqueKeys : Body → List UniqueKey
  | .block r => [.blockHeight r.blockNumber]
  | .treasury r => [.treasuryAddress r.treasuryAddress,
      .treasuryNonce r.registryAddress r.tokenAddress r.tokenNonce]
  | .proposal r => [.proposalNonce r.registryAddress r.tokenAddress r.tokenNonce]
  | .supportedAsset r => [.supportedAsset r.treasuryAddress r.assetAddress]
  | _ => []

/-- All the tables. -/
abbrev Rows := Table Body.key

/-! ## Writing rows -/

/-- What stays fixed while the indexer runs: the exclusion list, the roots it
    discovered, which addresses have an upper-case letter in their checksummed
    spelling, and PostgreSQL's division of two `numeric` values. -/
structure Env where
  excluded : Address → Bool
  roots : CTOProvenance
  mixedCase : Address → Bool
  div : ℚ → ℚ → ℚ

/-- What PostgreSQL holds against a row. -/
inductive Violation where
  | textEncoding
  | jsonEncoding
  | tokenDecimals
  | metadataUriLength
  | feeManagerCase
  | positiveAmount
  | uniqueIndex
  | conflictTwice
  deriving DecidableEq, Repr

/-- How applying a block fails. -/
inductive IndexError where
  | pairs (e : PairError)
  | provenanceMismatch (blockNumber : Nat) (txHash : Hash) (logIndex : Nat)
  | missingMetadata (token : Address)
  | projection (pool : Address) (e : ProjectionError)
  | violation (v : Violation)
  | numericOverflow
  deriving DecidableEq, Repr

/-- `JSONB` refuses `\u0000`; only a proposal's URI is a string. -/
def jsonEncodable : Event → Bool
  | .cto (.proposed _ _ _ _ _ _ _ _ _ uri) => !uri.contains 0
  | _ => true

/-- The `CHECK` constraints and encodings of a row.  The address columns of the
    CTO tables must be lower case: every address written there is lowered on
    the way, except the fee manager of `cto_token_state`, which is copied from
    `chain_events` as it was written. -/
def Body.violation (env : Env) : Body → Option Violation
  | .event r => if jsonEncodable r.decoded then none else some .jsonEncoding
  | .token r =>
      if !(isText r.name && isText r.symbol) then some .textEncoding
      else if r.tokenDecimals ≠ 18 then some .tokenDecimals
      else none
  | .proposal r =>
      if 256 < r.metadataUri.length then some .metadataUriLength else none
  | .tokenState r =>
      if env.mixedCase r.feeManagerAddress then some .feeManagerCase else none
  | .treasuryTransfer r => if r.amount = 0 then some .positiveAmount else none
  | .feePull r => if r.amount = 0 then some .positiveAmount else none
  | _ => none

/-- Two rows of different primary keys share a unique index entry. -/
def Body.clashes (b c : Body) : Bool :=
  c.key ≠ b.key && c.uniqueKeys.any (b.uniqueKeys.contains ·)

/-- `INSERT … ON CONFLICT … DO UPDATE`, with the constraints of the table. -/
def insert (env : Env) (t : Rows) (b : Body) : Except IndexError Rows :=
  match b.violation env with
  | some v => .error (.violation v)
  | none =>
      if t.live.any b.clashes then .error (.violation .uniqueIndex)
      else .ok (t.upsert b)

/-! ## Reading rows

    Every query takes the live rows.  An `ORDER BY` that leaves ties is
    completed with the primary key: PostgreSQL may break a tie either way, and
    no two logs of a chain make one. -/

/-- `block_number,transaction_index,log_index`. -/
def EventRow.rank (r : EventRow) : List Nat :=
  [r.origin.blockNumber, r.transactionIndex, r.origin.logIndex,
    r.origin.transactionHash]

def eventsOf (live : List Body) : List EventRow :=
  orderBy EventRow.rank (live.filterMap fun
    | .event r => some r
    | _ => none)

/-- `block_number DESC,log_index DESC,token_address ASC`. -/
def TokenRow.rank (r : TokenRow) : List Int :=
  [-(r.origin.blockNumber : Int), -(r.origin.logIndex : Int),
    (r.tokenAddress.val : Int), (r.origin.transactionHash : Int)]

def tokensOf (live : List Body) : List TokenRow :=
  orderBy TokenRow.rank (live.filterMap fun
    | .token r => some r
    | _ => none)

/-- `block_number DESC,log_index DESC`. -/
def CurveRow.rank (r : CurveRow) : List Int :=
  [-(r.origin.blockNumber : Int), -(r.origin.logIndex : Int),
    (r.origin.transactionHash : Int)]

def curvesOf (live : List Body) : List CurveRow :=
  orderBy CurveRow.rank (live.filterMap fun
    | .curve r => some r
    | _ => none)

/-- `block_number,transaction_index,log_index,transaction_hash`. -/
def tradeRank (r : TradeRow) : List Nat :=
  [r.blockNumber, r.transactionIndex, r.logIndex, r.transactionHash]

def tradesOf (live : List Body) : List TradeRow :=
  orderBy tradeRank (live.filterMap fun
    | .trade r => some r
    | _ => none)

def BlockRow.rank (r : BlockRow) : List Nat := [r.blockNumber, r.blockHash]

def blocksOf (live : List Body) : List BlockRow :=
  orderBy BlockRow.rank (live.filterMap fun
    | .block r => some r
    | _ => none)

/-- The timestamp of the canonical block with a hash. -/
def stampOf (live : List Body) (hash : Hash) : Option Nat :=
  ((blocksOf live).find? (·.blockHash = hash)).map (·.blockTimestamp)

/-- `CanonicalBlockHash`. -/
def canonicalBlockHash (live : List Body) (number : Nat) : Option Hash :=
  ((blocksOf live).find? (·.blockNumber = number)).map (·.blockHash)

/-- What `insertEvent` looks up in the database. -/
structure Lookup where
  pool : Address → Option (Address × Nat)
  deployed : Address → Bool

/-- The query of `projectUniswapV3Swap`: the newest curve of the pool, joined
    with the newest row of its token. -/
def poolToken (live : List Body) (pool : Address) : Option (Address × Nat) :=
  (((curvesOf live).filter (·.canonicalPoolAddress = pool)).flatMap fun c =>
    ((tokensOf live).filter (·.tokenAddress = c.tokenAddress)).map fun t =>
      (t.tokenAddress, t.tokenDecimals)).head?

/-- The query of `trustedCTOEmitter`. -/
def deployedTreasury (roots : CTOProvenance) (live : List Body)
    (emitter : Address) : Bool :=
  live.any fun
    | .treasury r => r.treasuryAddress = emitter
    | .event r =>
        match r.decoded with
        | .cto (.treasuryDeployed _ _ treasury _ _) =>
            r.contractAddress = roots.registry && treasury = emitter
        | _ => false
    | _ => false

def lookupOf (env : Env) (live : List Body) : Lookup where
  pool := poolToken live
  deployed := deployedTreasury env.roots live

/-! ## Projecting an event -/

/-- `trustedCTOEmitter`. -/
def trustedCTOEmitter (env : Env) (look : Lookup) (emitter : Address)
    (kind : CTOKind) : Bool :=
  if env.roots.registry = 0 ∨ env.roots.feeManager = 0 then false
  else
    match kind with
    | .registry => emitter = env.roots.registry
    | .feeManager => emitter = env.roots.feeManager
    | .treasury => look.deployed emitter

/-- Whether `insertEvent` stores the log at all. -/
def selected (env : Env) (look : Lookup) (l : Log) : Bool :=
  match l.event with
  | .unknown => false
  | .cto e => trustedCTOEmitter env look l.address e.kind
  | _ => true

def originOf (l : Log) : Origin := ⟨l.blockNumber, l.blockHash, l.txHash, l.index⟩

/-- `normalizedEventValues`, encoded and read back. -/
def normalizedEventValues : Event → Event
  | .cto (.proposed id token creator controller treasury previous nonce deadline
      hash uri) =>
      .cto (.proposed id token creator controller treasury previous nonce deadline
        hash (jsonString uri))
  | e => e

def eventRow (l : Log) : EventRow :=
  ⟨l.address, normalizedEventValues l.event, l.txIndex, originOf l⟩

/-- `ArcCanonicalUsdc`. -/
def ArcCanonicalUsdc : Address := 0x3600000000000000000000000000000000000000

/-- The log as a market log. -/
def marketLog (l : Log) : MarketLog.Log where
  address := l.address
  payload :=
    match l.event with
    | .tokensBought token buyer q => .tokensBought token buyer q
    | .tokensSold token seller q => .tokensSold token seller q
    | .swap amount0 amount1 => .swap amount0 amount1
    | _ => .other
  blockNumber := l.blockNumber
  blockHash := l.blockHash
  txHash := l.txHash
  txIndex := l.txIndex
  index := l.index
  removed := false

def launchRows (m : TokenMetadata) (l : Log)
    (creator token curve : Address) (totalSupply curveAllocation : Nat)
    (canonicalPool : Address) : List Body :=
  [.token ⟨token, creator, m.name, m.symbol, m.decimals, totalSupply, originOf l⟩,
    .curve ⟨token, curve, creator, curveAllocation, canonicalPool, originOf l⟩]

/-- The rows a market log adds to `trades`. -/
def tradeRows (env : Env) (look : Lookup) (b : Block) (l : Log) :
    Except IndexError (List Body) :=
  match projection ArcCanonicalUsdc ⟨env.excluded, look.pool, b.senders⟩
      (marketLog l) with
  | .error e => .error (.projection l.address e)
  | .ok none => .ok []
  | .ok (some r) => .ok [.trade r]

/-- **`projection`**: the rows an event adds besides its own. -/
def projected (env : Env) (look : Lookup) (b : Block) (l : Log) :
    Except IndexError (List Body) :=
  match l.event with
  | .tokenLaunchedV3 creator token curve totalSupply curveAllocation _ _ pool =>
      if env.excluded token then .ok []
      else
        match b.metadata token with
        | none => .error (.missingMetadata token)
        | some m =>
            if m.name = [] ∨ m.symbol = [] then .error (.missingMetadata token)
            else .ok (launchRows m l creator token curve totalSupply
              curveAllocation pool)
  | .tokensBought .. | .tokensSold .. | .swap .. => tradeRows env look b l
  | .graduated token manager tokenAmount nativeUsdcAmount soldSupply =>
      if env.excluded token then .ok []
      else .ok [.graduation ⟨token, soldSupply, tokenAmount, manager,
        nativeUsdcAmount, originOf l⟩]
  | .graduatedV3 token custodian tokenId liquidity =>
      if env.excluded token then .ok []
      else .ok [.liquidityEvent ⟨token, l.address, custodian, tokenId, liquidity,
        originOf l⟩]
  | _ => .ok []

/-- The rows `insertEvent` writes, the event's own first. -/
def statements (env : Env) (look : Lookup) (b : Block) (l : Log) :
    Except IndexError (List Body) :=
  if selected env look l then do
    let rows ← projected env look b l
    .ok (.event (eventRow l) :: rows)
  else .ok []

/-- **`insertEvent`**. -/
def insertEvent (env : Env) (b : Block) (t : Rows) (l : Log) :
    Except IndexError Rows := do
  let rows ← statements env (lookupOf env t.live) b l
  rows.foldlM (insert env) t

/-! ## The CTO tables -/

/-- `canonicalCTOEvent`. -/
structure CanonicalCTOEvent where
  event : CTOEvent
  emitter : Address
  timestamp : Nat
  origin : Origin
  deriving DecidableEq, Repr

/-- The query of `rebuildCTOTx`. -/
def ctoEvents (live : List Body) : List CanonicalCTOEvent :=
  (eventsOf live).filterMap fun r =>
    match r.decoded with
    | .cto e =>
        (stampOf live r.origin.blockHash).map fun stamp =>
          ⟨e, r.contractAddress, stamp, r.origin⟩
    | _ => none

/-- `UPDATE cto_proposals SET … WHERE registry_address=… AND proposal_id=…`:
    the row is found whether or not it is canonical. -/
def updateProposal (env : Env) (t : Rows) (registry : Address) (id : Nat)
    (f : ProposalRow → ProposalRow) : Except IndexError Rows :=
  match t.stored (.proposal registry id) with
  | some (.proposal r) => insert env t (.proposal (f r))
  | _ => .ok t

/-- The fee managers that routed the token to the treasury in a transaction. -/
def feeRoutes (live : List Body) (tx : Hash) (token treasury : Address) :
    List Address :=
  (eventsOf live).filterMap fun r =>
    match r.decoded with
    | .cto (.feeRouteActivated routed _ target) =>
        if r.origin.transactionHash = tx && routed = token && target = treasury
        then some r.contractAddress
        else none
    | _ => none

def proposalRow (e : CanonicalCTOEvent) (id : Nat)
    (token creator controller treasury previous : Address)
    (nonce deadline hash : Nat) (uri : Bytes) : ProposalRow where
  registryAddress := e.emitter
  proposalId := id
  tokenAddress := token
  treasuryAddress := treasury
  creatorAddress := creator
  controllerAddress := controller
  previousRecipientAddress := previous
  metadataHash := hash
  metadataUri := uri
  tokenNonce := nonce
  state := .proposed
  createdTimestamp := e.timestamp
  acceptanceDeadline := deadline
  acceptedTimestamp := none
  executeAfter := none
  executeDeadline := none
  cancelledTimestamp := none
  expiredTimestamp := none
  activatedTimestamp := none
  created := e.origin
  accepted := none
  ready := none
  cancelled := none
  expired := none
  activated := none
  lifecycle := e.origin

/-- **`projectCanonicalCTOEvent`**. -/
def projectCanonicalCTOEvent (env : Env) (t : Rows) (e : CanonicalCTOEvent) :
    Except IndexError Rows :=
  match e.event with
  | .treasuryDeployed token controller treasury nonce salt =>
      insert env t (.treasury ⟨e.emitter, treasury, token, controller, nonce, salt,
        e.origin⟩)
  | .proposed id token creator controller treasury previous nonce deadline hash
      uri =>
      insert env t (.proposal (proposalRow e id token creator controller treasury
        previous nonce deadline hash uri))
  | .accepted id _ _ _ acceptedAt =>
      updateProposal env t e.emitter id fun r =>
        { r with
          state := .accepted
          acceptedTimestamp := some acceptedAt
          accepted := some e.origin
          lifecycle := e.origin }
  | .ready id _ executeAfter executeDeadline =>
      updateProposal env t e.emitter id fun r =>
        { r with
          executeAfter := some executeAfter
          executeDeadline := some executeDeadline
          ready := some e.origin
          lifecycle := e.origin }
  | .cancelled id _ _ =>
      updateProposal env t e.emitter id fun r =>
        { r with
          state := .cancelled
          cancelledTimestamp := some e.timestamp
          cancelled := some e.origin
          lifecycle := e.origin }
  | .expired id _ _ =>
      updateProposal env t e.emitter id fun r =>
        { r with
          state := .expired
          expiredTimestamp := some e.timestamp
          expired := some e.origin
          lifecycle := e.origin }
  | .activated id token treasury _ previous _ => do
      let t ← updateProposal env t e.emitter id fun r =>
        { r with
          state := .active
          activatedTimestamp := some e.timestamp
          activated := some e.origin
          lifecycle := e.origin }
      match feeRoutes t.live e.origin.transactionHash token treasury with
      | [] => .ok t
      | [feeManager] =>
          insert env t (.tokenState ⟨feeManager, token, e.emitter, treasury, id,
            previous, e.origin⟩)
      | _ => .error (.violation .conflictTwice)
  | .creatorFeeCheckpointed token previous amount =>
      insert env t (.ledger ⟨e.emitter, token, previous, .checkpoint, amount, none,
        e.origin⟩)
  | .checkpointedCreatorFeesClaimed token recipient triggeredBy amount =>
      insert env t (.ledger ⟨e.emitter, token, recipient, .claim, amount,
        some triggeredBy, e.origin⟩)
  | .supportedAssetRegistered asset controller =>
      insert env t (.supportedAsset ⟨e.emitter, asset, controller, e.origin⟩)
  | .treasuryAssetTransferred asset recipient amount controller =>
      insert env t (.treasuryTransfer ⟨e.emitter, asset, recipient, amount,
        controller, e.origin⟩)
  | .creatorFeesPulled token asset amount triggeredBy =>
      insert env t (.feePull ⟨e.emitter, token, asset, amount, triggeredBy,
        e.origin⟩)
  | .pendingCreatorPayoutInvalidated .. | .feeRouteActivated ..
  | .acceptanceSubmitted .. => .ok t

/-- **`rebuildCTOTx`**. -/
def rebuildCTOTx (env : Env) (t : Rows) : Except IndexError Rows :=
  let t := t.orphan Body.isCTO
  (ctoEvents t.live).foldlM (projectCanonicalCTOEvent env) t

end IndexerStore
