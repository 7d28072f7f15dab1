import Cooket.LogScanProofs
import Cooket.IndexerAnalyticsProofs

/-! # The batch step of the indexer

    One turn of the loop `for last < target` of `Run`: the contracts to scan
    are read from the database, the logs of a range of blocks are collected,
    and the blocks that hold any, with the two ends of the range, are applied
    in order.

    Collecting has four parts.  The known contracts are scanned; every token
    launched in the range is followed from its launch on; the settlement of
    every graduation is fetched from the manager it declares; every CTO
    treasury deployed in the range is followed from its deployment on.  The
    last three are BOUNDED: more than `limit` launches or graduations in one
    range are refused.  In the source the limit is 32.

    The RPC answers from one chain.  Whether a treasury passes the calls of
    `validateCanonicalTreasury` is a parameter of the chain. -/

namespace IndexerBatch

open CheckedArith Contract IndexerEvents IndexerStore LogScan Keyset

/-! ## The chain -/

/-- The topics some query selects. -/
inductive Topic where
  | transfer
  | tokensBought
  | tokensSold
  | graduated
  | graduatedV3
  | ctoAcceptanceSubmitted
  | supportedAssetRegistered
  | treasuryAssetTransferred
  | creatorFeesPulled
  | other
  deriving DecidableEq, Repr

/-- `l.Topics[0]`. -/
def topic : Event → Topic
  | .transfer .. => .transfer
  | .tokensBought .. => .tokensBought
  | .tokensSold .. => .tokensSold
  | .graduated .. => .graduated
  | .graduatedV3 .. => .graduatedV3
  | .cto (.acceptanceSubmitted ..) => .ctoAcceptanceSubmitted
  | .cto (.supportedAssetRegistered ..) => .supportedAssetRegistered
  | .cto (.treasuryAssetTransferred ..) => .treasuryAssetTransferred
  | .cto (.creatorFeesPulled ..) => .creatorFeesPulled
  | _ => .other

/-- What the RPC serves.  `metadata` and `senders` of a block answer the calls
    made for its launches and its pool swaps. -/
structure Chain where
  block : Nat → Block
  canonicalTreasury : CTOProvenance → Address → Address → Address → Nat → Bool

namespace Chain

/-- The logs of a range of blocks. -/
def logsBetween (c : Chain) (fromBlock toBlock : Nat) : List Log :=
  (List.range' fromBlock (toBlock + 1 - fromBlock)).flatMap
    fun n => (c.block n).logs

/-- The query selects the log. -/
def selects (q : FilterQuery Topic) (l : Log) : Bool :=
  l.address ∈ q.addresses &&
    match q.topics with
    | [] => true
    | first :: _ => topic l.event ∈ first

/-- `FilterLogs`. -/
def filterLogs (c : Chain) (q : FilterQuery Topic) : List Log :=
  (c.logsBetween q.fromBlock q.toBlock).filter (selects q)

end Chain

/-! ## Errors -/

/-- How a batch step fails. -/
inductive BatchError where
  | invalidRange
  | scan (e : ScanError Empty)
  | invalidLaunch
  | contradictoryLaunch (token : Address)
  | tooManyLaunches (count : Nat)
  | launchLogOutsideRange
  | unexpectedLaunchLog (emitter : Address)
  | invalidGraduation
  | tooManyGraduations (count : Nat)
  | inconsistentSettlement
  | pairs (e : PairError)
  | contradictory (id : Hash × Hash × Nat)
  | treasury (treasury : Address)
  | treasuryProvenance
  | swapSender (txHash : Hash)
  | parentMismatch (blockNumber : Nat)
  | metadata (token : Address)
  | apply (e : IndexError)
  deriving DecidableEq, Repr

/-- `canonicalLogs`, as a part of the step. -/
def canonical (order : ChainSort Log) (logs : List Log) :
    Except BatchError (List Log) :=
  (canonicalLogs order logs).mapError .contradictory

/-! ## The contracts to scan -/

/-- The addresses a launch of an excluded token is followed by. -/
def excludedLaunch (env : Env) (r : EventRow) : List Address :=
  match r.decoded with
  | .tokenLaunchedV3 _ token curve _ _ _ _ pool =>
      if env.excluded token then [token, curve, pool] else []
  | _ => []

/-- The query of `ScanContracts`; a `UNION` has no order. -/
def knownContracts (env : Env) (live : List Body) : List Address :=
  (curvesOf live).map (·.curveAddress) ++
  (tokensOf live).map (·.tokenAddress) ++
  (curvesOf live).map (·.canonicalPoolAddress) ++
  live.filterMap (fun
    | .treasury r => some r.treasuryAddress
    | _ => none) ++
  (eventsOf live).flatMap (excludedLaunch env)

/-- `x.cfg.Contracts`. -/
def configured (roots : CTOProvenance) : List Address :=
  [roots.factory, roots.feeManager, roots.registry]

/-- **`ScanContracts`**. -/
def scanContracts (env : Env) (live : List Body) : List Address :=
  configured env.roots ++
    ((knownContracts env live).filter (· ∉ configured env.roots)).dedup

/-! ## Launches -/

/-- `launchDiscovery`. -/
structure LaunchDiscovery where
  token : Address
  curve : Address
  block : Nat
  deriving DecidableEq, Repr

def launchDiscovery (l : Log) : Option LaunchDiscovery :=
  match l.event with
  | .tokenLaunchedV3 _ token curve _ _ _ _ _ =>
      some ⟨token, curve, l.blockNumber⟩
  | _ => none

/-- The map `seen`, in order of first sight. -/
def seenLaunches :
    List LaunchDiscovery → List Log → Except BatchError (List LaunchDiscovery)
  | seen, [] => .ok seen
  | seen, l :: rest =>
      match launchDiscovery l with
      | none => seenLaunches seen rest
      | some d =>
          if d.token = 0 ∨ d.curve = 0 then .error .invalidLaunch
          else
            match seen.find? (·.token = d.token) with
            | some prior =>
                if prior = d then seenLaunches seen rest
                else .error (.contradictoryLaunch d.token)
            | none => seenLaunches (seen ++ [d]) rest

/-- **THE MAP `seen`** has one entry for each launched token, the discovery of
    its launch. -/
theorem seenLaunches_spec {seen out : List LaunchDiscovery} {logs : List Log}
    (hnodup : (seen.map (·.token)).Nodup)
    (h : seenLaunches seen logs = .ok out) :
    (out.map (·.token)).Nodup ∧
      ∀ d, d ∈ out ↔ d ∈ seen ∨ d ∈ logs.filterMap launchDiscovery := by
  induction logs generalizing seen with
  | nil =>
      obtain rfl := Except.ok.inj h
      exact ⟨hnodup, fun d => by simp⟩
  | cons l rest ih =>
      rw [seenLaunches] at h
      cases hd : launchDiscovery l with
      | none =>
          rw [hd] at h
          rw [List.filterMap_cons_none hd]
          exact ih hnodup h
      | some d =>
          rw [hd] at h
          rw [List.filterMap_cons_some hd]
          dsimp only at h
          split at h
          · cases h
          · split at h
            · next prior hprior =>
                have hmem := List.mem_of_find?_eq_some hprior
                split at h
                · next hsame =>
                    subst hsame
                    obtain ⟨hn, hall⟩ := ih hnodup h
                    refine ⟨hn, fun e => (hall e).trans ?_⟩
                    rw [List.mem_cons]
                    constructor
                    · rintro (hs | hr)
                      · exact .inl hs
                      · exact .inr (.inr hr)
                    · rintro (hs | rfl | hr)
                      · exact .inl hs
                      · exact .inl hmem
                      · exact .inr hr
                · cases h
            · next hnone =>
                have hfresh : ∀ b ∈ seen, b.token ≠ d.token := by
                  simpa using List.find?_eq_none.mp hnone
                have hnodup' : ((seen ++ [d]).map (·.token)).Nodup := by
                  rw [List.map_append, List.map_singleton]
                  refine List.nodup_append.mpr
                    ⟨hnodup, List.nodup_singleton _, ?_⟩
                  intro t ht u hu
                  obtain ⟨b, hb, rfl⟩ := List.mem_map.mp ht
                  rw [List.mem_singleton.mp hu]
                  exact hfresh b hb
                obtain ⟨hn, hall⟩ := ih hnodup' h
                refine ⟨hn, fun e => (hall e).trans ?_⟩
                rw [List.mem_append, List.mem_singleton, List.mem_cons, or_assoc]

/-- The order of the discoveries: by block and token. -/
def LaunchDiscovery.rank (d : LaunchDiscovery) : List Nat :=
  [d.block, d.token.val, d.curve.val]

/-- What the query for a launch may answer with. -/
def checkLaunchLog (fromBlock toBlock : Nat) (emitter : Address)
    (topics : List Topic) (l : Log) : Except BatchError Unit :=
  if l.blockNumber < fromBlock ∨ toBlock < l.blockNumber then
    .error .launchLogOutsideRange
  else if l.address ≠ emitter ∨ topic l.event ∉ topics then
    .error (.unexpectedLaunchLog l.address)
  else .ok ()

/-- The topics of `isCurveRuntimeTopic`. -/
def curveRuntimeTopics : List Topic := [.tokensBought, .tokensSold, .graduated]

/-- The logs of one launch up to the end of the range. -/
def launchLogs (c : Chain) (toBlock : Nat) (d : LaunchDiscovery) :
    Except BatchError (List Log) := do
  let transfers := c.filterLogs ⟨d.block, toBlock, [d.token], [[.transfer]]⟩
  let curveLogs :=
    c.filterLogs ⟨d.block, toBlock, [d.curve], [curveRuntimeTopics]⟩
  transfers.forM (checkLaunchLog d.block toBlock d.token [.transfer])
  curveLogs.forM (checkLaunchLog d.block toBlock d.curve curveRuntimeTopics)
  .ok (transfers ++ curveLogs)

/-- **`discoverLaunchLogs`**. -/
def discoverLaunchLogs (limit : Nat) (c : Chain) (toBlock : Nat)
    (logs : List Log) : Except BatchError (List Log) := do
  let seen ← seenLaunches [] logs
  if limit < seen.length then .error (.tooManyLaunches seen.length)
  else
    let found ←
      (orderBy LaunchDiscovery.rank seen).mapM (launchLogs c toBlock)
    .ok (logs ++ found.flatten)

/-! ## Graduations -/

/-- `curveGraduation`, with the block of its log. -/
structure CurveGraduation where
  token : Address
  manager : Address
  block : Nat
  deriving DecidableEq, Repr

def graduationOf (l : Log) : Option CurveGraduation :=
  match l.event with
  | .graduated token manager _ _ _ => some ⟨token, manager, l.blockNumber⟩
  | _ => none

def checkGraduation (g : CurveGraduation) : Except BatchError Unit :=
  if g.token = 0 ∨ g.manager = 0 then .error .invalidGraduation else .ok ()

/-- The settlements at the block of a graduation. -/
def settlementLogs (c : Chain) (q : Nat × Address) :
    Except BatchError (List Log) := do
  let settlements := c.filterLogs ⟨q.1, q.1, [q.2], [[.graduatedV3]]⟩
  settlements.forM fun l =>
    if l.address ≠ q.2 ∨ l.blockNumber ≠ q.1 then
      .error .inconsistentSettlement
    else .ok ()
  .ok settlements

/-- **`discoverGraduationSettlements`**.  The queries are made in the order of
    their keys; `canonicalLogs` puts the answers in order. -/
def discoverGraduationSettlements (order : ChainSort Log) (limit : Nat)
    (c : Chain) (logs : List Log) : Except BatchError (List Log) := do
  let graduations := logs.filterMap graduationOf
  graduations.forM checkGraduation
  let queries := (graduations.map fun g => (g.block, g.manager)).dedup
  if limit < graduations.length ∨ limit < queries.length then
    .error (.tooManyGraduations graduations.length)
  else
    let found ← queries.mapM (settlementLogs c)
    let out ← canonical order (logs ++ found.flatten)
    (validateGraduationPairs out).mapError .pairs
    .ok out

/-! ## CTO treasuries -/

/-- `deployment`. -/
structure Deployment where
  token : Address
  controller : Address
  treasury : Address
  block : Nat
  deriving DecidableEq, Repr

def deploymentOf (roots : CTOProvenance) (l : Log) : Option Deployment :=
  match l.event with
  | .cto (.treasuryDeployed token controller treasury _ _) =>
      if l.address = roots.registry then
        some ⟨token, controller, treasury, l.blockNumber⟩
      else none
  | _ => none

def checkDeployment (c : Chain) (roots : CTOProvenance) (d : Deployment) :
    Except BatchError Unit :=
  if c.canonicalTreasury roots d.token d.controller d.treasury d.block then .ok ()
  else .error (.treasury d.treasury)

def treasuryTopics : List Topic :=
  [.ctoAcceptanceSubmitted, .supportedAssetRegistered,
    .treasuryAssetTransferred, .creatorFeesPulled]

/-- The logs of one treasury up to the end of the range. -/
def treasuryLogs (c : Chain) (toBlock : Nat) (d : Deployment) :
    Except BatchError (List Log) := do
  let discovered :=
    c.filterLogs ⟨d.block, toBlock, [d.treasury], [treasuryTopics]⟩
  discovered.forM fun l =>
    if l.address ≠ d.treasury ∨ l.blockNumber < d.block ∨ toBlock < l.blockNumber
    then .error .treasuryProvenance
    else .ok ()
  .ok discovered

/-- **`discoverCTOTreasuryLogs`**. -/
def discoverCTOTreasuryLogs (order : ChainSort Log) (c : Chain)
    (roots : CTOProvenance) (toBlock : Nat) (logs : List Log) :
    Except BatchError (List Log) := do
  let deployments := logs.filterMap (deploymentOf roots)
  deployments.forM (checkDeployment c roots)
  let found ← deployments.mapM (treasuryLogs c toBlock)
  canonical order (logs ++ found.flatten)

/-! ## Collecting the logs of a range -/

/-- What the four discoveries of a range need. -/
structure Collector where
  env : Env
  order : ChainSort Log
  limit : Nat
  chain : Chain

/-- The limit of the source. -/
def discoveryLimit : Nat := 32

namespace Collector

/-- The logs of the contracts known before the range. -/
def scanned (k : Collector) (live : List Body) (fromBlock toBlock : Nat) :
    Except BatchError (List Log) :=
  (filterLogsByAddressChunks k.order (fun _ q => .ok (k.chain.filterLogs q))
    ⟨fromBlock, toBlock, scanContracts k.env live, []⟩).2.mapError .scan

/-- The logs of a range. -/
def collect (k : Collector) (live : List Body) (fromBlock toBlock : Nat) :
    Except BatchError (List Log) := do
  let logs ← k.scanned live fromBlock toBlock
  let logs ← discoverLaunchLogs k.limit k.chain toBlock logs
  let logs ← discoverGraduationSettlements k.order k.limit k.chain logs
  let logs ← discoverCTOTreasuryLogs k.order k.chain k.env.roots toBlock logs
  canonical k.order logs

/-- What a collection went through. -/
theorem collect_ok_iff {k : Collector} {live : List Body}
    {fromBlock toBlock : Nat} {out : List Log} :
    k.collect live fromBlock toBlock = .ok out ↔
      ∃ logs followed settled treasuries,
        k.scanned live fromBlock toBlock = .ok logs ∧
        discoverLaunchLogs k.limit k.chain toBlock logs = .ok followed ∧
        discoverGraduationSettlements k.order k.limit k.chain followed =
          .ok settled ∧
        discoverCTOTreasuryLogs k.order k.chain k.env.roots toBlock settled =
          .ok treasuries ∧
        canonical k.order treasuries = .ok out := by
  simp only [collect, bind_ok]
  constructor
  · rintro ⟨logs, h₁, followed, h₂, settled, h₃, treasuries, h₄, h₅⟩
    exact ⟨logs, followed, settled, treasuries, h₁, h₂, h₃, h₄, h₅⟩
  · rintro ⟨logs, followed, settled, treasuries, h₁, h₂, h₃, h₄, h₅⟩
    exact ⟨logs, h₁, followed, h₂, settled, h₃, treasuries, h₄, h₅⟩

end Collector

/-! ## Applying the blocks -/

/-- `uniswapSwapSenders`: the sender of every transaction with a pool swap. -/
def swapSender (c : Chain) (l : Log) : Except BatchError Unit :=
  match l.event with
  | .swap .. =>
      if ((c.block l.blockNumber).senders l.txHash).isSome then .ok ()
      else .error (.swapSender l.txHash)
  | _ => .ok ()

/-- `v3Metadata`: the calls to every token launched in the block answer. -/
def v3Metadata (c : Chain) (l : Log) : Except BatchError Unit :=
  match launchDiscovery l with
  | some d =>
      if ((c.block l.blockNumber).metadata d.token).isSome then .ok ()
      else .error (.metadata d.token)
  | none => .ok ()

/-- `last` and `lastHash`. -/
structure Cursor where
  last : Nat
  hash : Option Hash
  deriving DecidableEq, Repr

/-- `n == last+1 && b.ParentHash.Hex() != lastHash && …`. -/
def Cursor.mismatch (at_ : Cursor) (b : Block) : Bool :=
  b.number = at_.last + 1 && 0 < at_.last &&
    match at_.hash with
    | none => false
    | some hash => b.parentHash ≠ hash

/-- The blocks of the range that are applied. -/
def blockNumbers (fromBlock toBlock : Nat) (logs : List Log) : List Nat :=
  orderBy id (fromBlock :: toBlock :: logs.map (·.blockNumber)).dedup

theorem mem_blockNumbers {fromBlock toBlock n : Nat} {logs : List Log} :
    n ∈ blockNumbers fromBlock toBlock logs ↔
      n = fromBlock ∨ n = toBlock ∨ ∃ l ∈ logs, l.blockNumber = n := by
  rw [blockNumbers, orderBy, List.mem_insertionSort, List.mem_dedup]
  simp

/-- The blocks come in ascending order, each once. -/
theorem blockNumbers_pairwise (fromBlock toBlock : Nat) (logs : List Log) :
    (blockNumbers fromBlock toBlock logs).Pairwise (· < ·) := by
  have htotal : Std.Total (fun a b : Nat => id a ≤ id b) :=
    ⟨fun a b => le_total _ _⟩
  have htrans : IsTrans Nat (fun a b => id a ≤ id b) := ⟨fun _ _ _ => le_trans⟩
  have hsorted := List.pairwise_insertionSort (fun a b : Nat => id a ≤ id b)
    (fromBlock :: toBlock :: logs.map (·.blockNumber)).dedup
  have hnodup := (List.perm_insertionSort (fun a b : Nat => id a ≤ id b)
    (fromBlock :: toBlock :: logs.map (·.blockNumber)).dedup).nodup_iff.mpr
      (List.nodup_dedup _)
  exact hsorted.imp₂ (fun _ _ hle hne => lt_of_le_of_ne hle hne) hnodup

/-- The block as it is applied: the header with the collected logs. -/
def collectedBlock (c : Chain) (logs : List Log) (n : Nat) : Block :=
  { c.block n with
    logs := logs.filter (·.blockNumber = n) }

/-- One turn of the loop over the blocks. -/
def applyBlock (env : Env) (c : Chain) (logs : List Log) (at_ : Cursor)
    (s : Store) (n : Nat) : Except BatchError Store := do
  let b := collectedBlock c logs n
  if at_.mismatch b then .error (.parentMismatch n)
  else
    b.logs.forM (v3Metadata c)
    (applyWithProvenance env s b).mapError .apply

/-- The loop over the blocks: every applied block is committed by itself. -/
def applyBlocks (env : Env) (c : Chain) (logs : List Log) :
    Cursor → Store → List Nat → Store × Option BatchError
  | _, s, [] => (s, none)
  | at_, s, n :: rest =>
      match applyBlock env c logs at_ s n with
      | .error e => (s, some e)
      | .ok s' => applyBlocks env c logs ⟨n, some (c.block n).hash⟩ s' rest

/-- `initialCheckpoint`. -/
def initialCheckpoint (checkpoint : Option (Nat × Option Hash)) (start : Nat) :
    Cursor :=
  let stored : Cursor :=
    match checkpoint with
    | none => ⟨0, none⟩
    | some (last, hash) => ⟨last, hash⟩
  if 0 < start ∧ stored.last < start then ⟨start - 1, none⟩ else stored

/-- The indexer's configuration: `StartBlock` and `BatchSize`. -/
structure Indexer extends Collector where
  start : Nat
  batchSize : Nat
  positive : 0 < batchSize

namespace Indexer

/-- Where the indexer stands: after a restart as after an applied block, the
    checkpoint of the database. -/
def cursor (x : Indexer) (s : Store) : Cursor := initialCheckpoint s.checkpoint x.start

/-- The last block of the range.  The sum is taken in 64 bits: a batch size
    near 2^64 puts the end below the start. -/
def rangeEnd (x : Indexer) (s : Store) (target : Nat) : Nat :=
  min (((x.cursor s).last + x.batchSize) % 2 ^ 64) target

/-- A sum that fits puts the end at or above the start. -/
theorem start_le_rangeEnd {x : Indexer} {s : Store} {target : Nat}
    (hlt : (x.cursor s).last < target)
    (hfits : (x.cursor s).last + x.batchSize < 2 ^ 64) :
    (x.cursor s).last + 1 ≤ x.rangeEnd s target := by
  have hpos := x.positive
  rw [rangeEnd, Nat.mod_eq_of_lt hfits]
  omega

/-- **THE BATCH STEP**.  A node refuses a query whose range ends before it
    starts. -/
def batchStep (x : Indexer) (target : Nat) (s : Store) :
    Store × Option BatchError :=
  let at_ := x.cursor s
  if target ≤ at_.last then (s, none)
  else
    let toBlock := x.rangeEnd s target
    if toBlock < at_.last + 1 then (s, some .invalidRange)
    else
      match x.collect s.rows.live (at_.last + 1) toBlock with
      | .error e => (s, some e)
      | .ok logs =>
          match logs.forM (swapSender x.chain) with
          | .error e => (s, some e)
          | .ok () =>
              applyBlocks x.env x.chain logs at_ s
                (blockNumbers (at_.last + 1) toBlock logs)

/-- Batch steps one after the other, with the targets the head allows; a step
    that fails is followed by a restart. -/
def run (x : Indexer) (targets : List Nat) (s : Store) : Store :=
  targets.foldl (fun s target => (x.batchStep target s).1) s

end Indexer

end IndexerBatch
