import Cooket.FeeManagerProofs
import Cooket.LPVaultProofs

/-! # The hand-over registry

    `CTORegistryV3` with the treasuries it deploys.  A creator proposes to hand
    a token's fees to a treasury, the treasury's controller accepts, and after
    a delay anybody executes; the last step reaches into the LP custodian, the
    LP vault and the fee manager.

    The functions here run on the joint state of all of them (`Chain`).  Hashes
    are a PARAMETER: proposal ids are assumed collision-free and non-zero,
    about the predicted treasury address nothing is assumed. -/

namespace CTORegistry

open CheckedArith Contract LPVault
open FeeManager (FeeManagerStorage Views)

/-- `7 days`. -/
def ACCEPTANCE_WINDOW : Nat := 7 * 86400

/-- `72 hours`. -/
def EXECUTION_DELAY : Nat := 72 * 3600

/-- `7 days`. -/
def EXECUTION_GRACE_PERIOD : Nat := 7 * 86400

def MAX_METADATA_URI_LENGTH : Nat := 256

/-- `ProposalState`. -/
inductive ProposalState where
  | none
  | proposed
  | accepted
  | active
  | cancelled
  | expired
  deriving DecidableEq, Repr

/-- The states `_requireNoLiveProposal` stops at. -/
def ProposalState.live : ProposalState → Bool
  | .proposed | .accepted | .active => true
  | _ => false

/-- `Proposal`. -/
structure Proposal where
  token : Address
  creator : Address
  controller : Address
  treasury : Address
  previousRecipient : Address
  metadataHash : Nat
  nonce : Nat
  createdAt : Nat
  acceptedAt : Nat
  state : ProposalState
  deriving DecidableEq, Repr

/-- What an unwritten slot of `_proposals` reads as. -/
def Proposal.empty : Proposal := ⟨0, 0, 0, 0, 0, 0, 0, 0, 0, .none⟩

/-- What `_proposalId` hashes beside the constants of the deployment. -/
structure ProposalKey where
  token : Address
  nonce : Nat
  treasury : Address
  controller : Address
  metadataHash : Nat
  deriving DecidableEq, Repr

/-- The hashes the registry takes. -/
class Keccak where
  proposalId : ProposalKey → Nat
  uriHash : List UInt8 → Nat
  /-- `_predictTreasury`, by token, controller and nonce. -/
  predictTreasury : Address → Address → Nat → Address
  proposalId_injective : Function.Injective proposalId
  proposalId_ne_zero : ∀ k, proposalId k ≠ 0

/-- The storage of `CTORegistryV3`. -/
structure RegistryStorage where
  entered : Bool
  tokenNonce : Address → Nat
  currentProposalId : Address → Nat
  activeTreasury : Address → Address
  isCanonicalTreasury : Address → Address → Bool
  proposals : Nat → Proposal

/-- The storage after the constructor. -/
def RegistryStorage.deployed : RegistryStorage where
  entered := false
  tokenNonce _ := 0
  currentProposalId _ := 0
  activeTreasury _ := 0
  isCanonicalTreasury _ _ := false
  proposals _ := Proposal.empty

/-- The immutables of a `CTOTreasuryV3`. -/
structure Treasury where
  registry : Address
  launchToken : Address
  controller : Address
  canonicalUsdc : Address
  deriving DecidableEq, Repr

/-- The contracts of one deployment, as their constructors and one-time
    bindings fix them. -/
structure Protocol where
  feeManager : Address
  ctoRegistry : Address
  graduationManager : Address
  /-- `manager.factory()`. -/
  managerFactory : Address
  /-- `manager.permanentLPCustodianDeployer()`. -/
  custodianDeployer : Address
  deployerManager : Address
  deployerFactory : Address
  deployerFeeVault : Address
  /-- `manager.permanentLPFeeVault()`. -/
  vault : VaultImmutables

def Protocol.fees (P : Protocol) : FeeManager.Immutables :=
  ⟨P.feeManager, P.ctoRegistry⟩

/-- The joint state of the fee manager, the registry, the treasuries, and the
    LP vault with its custodians. -/
structure Chain (π : Type) where
  fees : FeeManagerStorage
  registry : RegistryStorage
  treasuries : Address → Option Treasury
  lp : LPState π

/-- The events of `ICTORegistryV3`. -/
inductive RegistryEvent where
  | ctoTreasuryDeployed (token controller treasury : Address) (nonce : Nat)
  | ctoProposed (proposalId : Nat) (token creator controller treasury
      previousRecipient : Address) (nonce acceptanceDeadline
      metadataHash : Nat) (metadataURI : List UInt8)
  | ctoAccepted (proposalId : Nat) (token treasury controller : Address)
      (acceptedAt : Nat)
  | ctoReady (proposalId : Nat) (token : Address)
      (executeAfter executeDeadline : Nat)
  | ctoCancelled (proposalId : Nat) (token creator : Address)
  | ctoExpired (proposalId : Nat) (token : Address)
      (previousState : ProposalState)
  | ctoActivated (proposalId : Nat) (token treasury controller
      previousRecipient executor : Address)
  deriving DecidableEq, Repr

section Functions

variable [Keccak] [MulDiv] {π : Type} [PositionManager π] (P : Protocol)
  (V : Views) (msg : Msg) (c : Chain π)

/-- An account with code: a deployed treasury, or whatever else answers. -/
def hasCode (a : Address) : Bool := (c.treasuries a).isSome || V.hasCode a

/-- What the registry's own view functions add to the answers. -/
def views : Views :=
  { V with
    hasCode := hasCode V c
    isCanonicalTreasury := fun registry token treasury =>
      if registry = P.ctoRegistry then
        c.registry.isCanonicalTreasury token treasury
      else V.isCanonicalTreasury registry token treasury }

/-- `_requireFactoryAndTokenRelationships`. -/
def requireFactoryAndTokenRelationships (factory token creator
    curve : Address) : Except Revert Unit := do
  revertIf (creator = 0 ∨ curve = 0 ∨ V.hasCode curve = false)
    (.registry .invalidCanonicalRelationship)
  let (factoryCreator, factoryCurve) := V.tokenInfo factory token
  revertIf (V.isToken factory token = false ∨ V.curveOf factory token ≠ curve
      ∨ factoryCreator ≠ creator ∨ factoryCurve ≠ curve
      ∨ V.factory token ≠ factory ∨ V.creator token ≠ creator
      ∨ V.initialized token = false ∨ V.factory curve ≠ factory
      ∨ V.token curve ≠ token ∨ V.creator curve ≠ creator)
    (.registry .invalidCanonicalRelationship)

/-- `_canonicalRelationships`; the factory's graduation manager is the one of
    the deployment. -/
def canonicalRelationships (token : Address) :
    Except Revert (Address × Address × Bool) := do
  let factory := c.fees.factory
  revertIf (token = 0 ∨ V.hasCode token = false ∨ factory = 0
      ∨ V.hasCode factory = false) (.registry .invalidCanonicalRelationship)
  let creator := c.fees.creatorOf token
  let curve := c.fees.curveOf token
  requireFactoryAndTokenRelationships V factory token creator curve
  revertIf (P.graduationManager = 0 ∨ V.hasCode P.graduationManager = false)
    (.registry .invalidCanonicalRelationship)
  revertIf (V.feeManager curve ≠ P.feeManager
      ∨ V.graduationManager curve ≠ P.graduationManager)
    (.registry .invalidCanonicalRelationship)
  let launch := c.lp.launches token
  revertIf (P.managerFactory ≠ factory ∨ launch.registered = false
      ∨ launch.curve ≠ curve ∨ launch.creator ≠ creator)
    (.registry .invalidCanonicalRelationship)
  pure (creator, curve, launch.graduated)

/-- `_requireProposal`. -/
def requireProposal (proposalId : Nat) : Except Revert Proposal := do
  revertIf ((c.registry.proposals proposalId).state = .none)
    (.registry .proposalNotFound)
  pure (c.registry.proposals proposalId)

/-- `_requireTreasury`. -/
def requireTreasury (details : Proposal) : Except Revert Unit :=
  match c.treasuries details.treasury with
  | .none => .error (.registry .invalidTreasury)
  | some treasury =>
      revertIf (c.registry.isCanonicalTreasury details.token details.treasury
            = false
          ∨ treasury.registry ≠ P.ctoRegistry
          ∨ treasury.launchToken ≠ details.token
          ∨ treasury.controller ≠ details.controller)
        (.registry .invalidTreasury)

/-- `_requireNoLiveProposal`. -/
def requireNoLiveProposal (token : Address) : Except Revert Unit :=
  let current := c.registry.currentProposalId token
  revertIf (current ≠ 0 ∧ (c.registry.proposals current).state.live = true)
    (.registry .liveProposalExists)

/-- `_resolveMetadata`. -/
def resolveMetadata (metadataHash : Nat) (metadataURI : List UInt8) :
    Except Revert Nat := do
  revertIf (MAX_METADATA_URI_LENGTH < metadataURI.length)
    (.registry .invalidMetadata)
  if metadataURI.length = 0 then pure metadataHash
  else do
    let calculated := Keccak.uriHash metadataURI
    revertIf (metadataHash ≠ 0 ∧ metadataHash ≠ calculated)
      (.registry .invalidMetadata)
    pure calculated

/-- The constructor of `CTOTreasuryV3`, called by the registry. -/
def newTreasury (token controller : Address) : Except Revert Treasury := do
  revertIf (P.ctoRegistry = 0) (.treasury .invalidRegistry)
  revertIf (token = 0 ∨ V.hasCode token = false) (.treasury .invalidAsset)
  revertIf (controller = 0 ∨ hasCode V c controller = false)
    (.treasury .invalidController)
  revertIf (CANONICAL_USDC = 0 ∨ V.hasCode CANONICAL_USDC = false)
    (.treasury .invalidAsset)
  pure ⟨P.ctoRegistry, token, controller, CANONICAL_USDC⟩

/-- `_deployTreasury`: `CREATE2` deploys at the predicted address, and fails
    where there is code already. -/
def deployTreasury (token controller : Address) (nonce : Nat) :
    Except Revert (Chain π × Address) := do
  let predicted := Keccak.predictTreasury token controller nonce
  revertIf (controller = predicted) (.registry .controllerIsTreasury)
  revertIf (hasCode V c predicted = true) .external
  let treasury ← newTreasury P V c token controller
  pure
    ({ c with
      treasuries := Function.update c.treasuries predicted (some treasury)
      registry := { c.registry with
        isCanonicalTreasury :=
          Function.update c.registry.isCanonicalTreasury token
            (Function.update (c.registry.isCanonicalTreasury token) predicted
              true) } },
      predicted)

/-- `proposeCTO`. -/
def proposeCTO (token controller : Address) (metadataHash : Nat)
    (metadataURI : List UInt8) :
    Except Revert (Chain π × List RegistryEvent) := do
  revertIf (c.registry.entered = true) .reentrantCall
  let (creator, _, _) ← canonicalRelationships P V c token
  revertIf (msg.sender ≠ creator) (.registry .unauthorizedCreator)
  revertIf (c.fees.ctoActive token = true) (.registry .tokenAlreadyCTOActive)
  revertIf (controller = 0 ∨ hasCode V c controller = false)
    (.registry .invalidController)
  requireNoLiveProposal c token
  let resolvedMetadataHash ← resolveMetadata metadataHash metadataURI
  let nonce ← add64 (c.registry.tokenNonce token) 1
  let (c, treasury) ← deployTreasury P V c token controller nonce
  let details : Proposal :=
    { token
      creator
      controller
      treasury
      previousRecipient := c.fees.creatorPayoutOf token
      metadataHash := resolvedMetadataHash
      nonce
      createdAt := uint64 msg.timestamp
      acceptedAt := 0
      state := .proposed }
  let proposalId := Keccak.proposalId
    ⟨token, nonce, treasury, controller, resolvedMetadataHash⟩
  let acceptanceDeadline ← add64 details.createdAt ACCEPTANCE_WINDOW
  pure
    ({ c with
      registry := { c.registry with
        tokenNonce := Function.update c.registry.tokenNonce token nonce
        currentProposalId :=
          Function.update c.registry.currentProposalId token proposalId
        proposals :=
          Function.update c.registry.proposals proposalId details } },
      [.ctoTreasuryDeployed token controller treasury nonce,
        .ctoProposed proposalId token creator controller treasury
          details.previousRecipient nonce acceptanceDeadline
          resolvedMetadataHash metadataURI])

/-- One proposal rewritten. -/
def setProposal (proposalId : Nat) (details : Proposal) : Chain π :=
  { c with
    registry := { c.registry with
      proposals := Function.update c.registry.proposals proposalId details } }

/-- `acceptCTO`. -/
def acceptCTO (proposalId : Nat) :
    Except Revert (Chain π × List RegistryEvent) := do
  revertIf (c.registry.entered = true) .reentrantCall
  let details ← requireProposal c proposalId
  revertIf (details.state ≠ .proposed) (.registry .invalidProposalState)
  let acceptanceDeadline ← add64 details.createdAt ACCEPTANCE_WINDOW
  revertIf (acceptanceDeadline < msg.timestamp)
    (.registry .acceptanceWindowExpired)
  revertIf (msg.sender ≠ details.treasury
      ∨ c.registry.isCanonicalTreasury details.token msg.sender = false)
    (.registry .unauthorizedTreasury)
  requireTreasury P c details
  let acceptedAt := uint64 msg.timestamp
  let executeAfter ← add64 acceptedAt EXECUTION_DELAY
  let executeDeadline ← add64 executeAfter EXECUTION_GRACE_PERIOD
  pure
    (setProposal c proposalId { details with acceptedAt, state := .accepted },
      [.ctoAccepted proposalId details.token details.treasury
          details.controller acceptedAt,
        .ctoReady proposalId details.token executeAfter executeDeadline])

/-- `acceptCTO` of a treasury: only its controller may submit it. -/
def treasuryAcceptCTO (treasury : Address) (proposalId : Nat) :
    Except Revert (Chain π × List RegistryEvent) :=
  match c.treasuries treasury with
  | .none => .error .external
  | some t => do
      revertIf (msg.sender ≠ t.controller) (.treasury .unauthorizedController)
      acceptCTO P { msg with sender := treasury } c proposalId

/-- `cancelCTO`. -/
def cancelCTO (proposalId : Nat) :
    Except Revert (Chain π × List RegistryEvent) := do
  let details ← requireProposal c proposalId
  revertIf (msg.sender ≠ details.creator) (.registry .unauthorizedCreator)
  revertIf (details.state ≠ .proposed ∧ details.state ≠ .accepted)
    (.registry .invalidProposalState)
  pure
    (setProposal c proposalId { details with state := .cancelled },
      [.ctoCancelled proposalId details.token msg.sender])

/-- `_executionDeadline`. -/
def executionDeadline (details : Proposal) : Except Revert Nat := do
  let executeAfter ← add details.acceptedAt EXECUTION_DELAY
  add executeAfter EXECUTION_GRACE_PERIOD

/-- `expireCTO`. -/
def expireCTO (proposalId : Nat) :
    Except Revert (Chain π × List RegistryEvent) := do
  let details ← requireProposal c proposalId
  let previousState := details.state
  match previousState with
  | .proposed => do
      let deadline ← add64 details.createdAt ACCEPTANCE_WINDOW
      revertIf (msg.timestamp ≤ deadline) (.registry .invalidProposalState)
  | .accepted => do
      let deadline ← executionDeadline details
      revertIf (msg.timestamp ≤ deadline) (.registry .invalidProposalState)
  | _ => .error (.registry .invalidProposalState)
  pure
    (setProposal c proposalId { details with state := .expired },
      [.ctoExpired proposalId details.token previousState])

/-- What the fee manager answers the vault about a token. -/
def feeRoute (fees : FeeManagerStorage) (token : Address) : FeeRoute :=
  ⟨fees.treasury, fees.creatorPayoutOf token, fees.curveOf token,
    fees.creatorOf token⟩

/-- `collectFees` of a custodian, on the joint state. -/
def collectLPFees (custodian : Address) : Except Revert (Chain π) := do
  let (lp, _, _) ← collectFees P.vault (hasCode V c)
    (feeRoute c.fees (c.lp.custodians custodian).launchToken) c.lp custodian
  pure { c with lp }

/-- `_collectCanonicalLPFees`. -/
def collectCanonicalLPFees (token curve : Address) :
    Except Revert (Chain π) := do
  revertIf (c.lp.settled token = false)
    (.registry .invalidCanonicalRelationship)
  let vault := P.vault.self
  revertIf (P.custodianDeployer = 0 ∨ V.hasCode P.custodianDeployer = false
      ∨ vault = 0 ∨ V.hasCode vault = false)
    (.registry .invalidCanonicalRelationship)
  let custodianAddress := c.lp.custodianOf token
  revertIf (custodianAddress = 0 ∨ V.hasCode custodianAddress = false)
    (.registry .invalidCanonicalRelationship)
  let custodian := c.lp.custodians custodianAddress
  revertIf (P.deployerManager ≠ P.graduationManager
      ∨ P.deployerFactory ≠ P.managerFactory ∨ P.deployerFeeVault ≠ vault
      ∨ custodian.launchToken ≠ token
      ∨ custodian.graduationManager ≠ P.graduationManager
      ∨ custodian.feeVault ≠ vault
      ∨ custodian.canonicalFactory ≠ P.managerFactory
      ∨ custodian.positionRegistered = false ∨ custodian.positionTokenId = 0
      ∨ c.fees.curveOf token ≠ curve)
    (.registry .invalidCanonicalRelationship)
  collectLPFees P V c custodianAddress

/-- `executeCTO`. -/
def executeCTO (proposalId : Nat) :
    Except Revert (Chain π × List RegistryEvent) := do
  revertIf (c.registry.entered = true) .reentrantCall
  let details ← requireProposal c proposalId
  revertIf (details.state ≠ .accepted) (.registry .invalidProposalState)
  let executeAfter ← add details.acceptedAt EXECUTION_DELAY
  revertIf (msg.timestamp < executeAfter) (.registry .timelockNotElapsed)
  let deadline ← add executeAfter EXECUTION_GRACE_PERIOD
  revertIf (deadline < msg.timestamp) (.registry .executionGraceExpired)
  let (_, curve, graduated) ← canonicalRelationships P V c details.token
  requireTreasury P c details
  revertIf (c.fees.creatorPayoutOf details.token ≠ details.previousRecipient)
    (.registry .staleCreatorPayout)
  let c := setProposal c proposalId { details with state := .active }
  let c := { c with
    registry := { c.registry with
      activeTreasury := Function.update c.registry.activeTreasury
        details.token details.treasury } }
  let c ← (if graduated = true then
      collectCanonicalLPFees P V c details.token curve
    else pure c)
  let out ← FeeManager.activateCTO P.fees (views P V c)
    ⟨P.ctoRegistry, 0, msg.timestamp⟩ c.fees details.token details.treasury
  pure
    ({ c with fees := out.storage },
      [.ctoActivated proposalId details.token details.treasury
        details.controller details.previousRecipient msg.sender])

end Functions

/-! ## What each function does, once it returns -/

section Inversion

variable [Keccak] [MulDiv] {π : Type} [PositionManager π] {P : Protocol}
  {V : Views} {msg : Msg} {c c' : Chain π} {proposalId : Nat}
  {token : Address} {events : List RegistryEvent}

omit [Keccak] [MulDiv] [PositionManager π] in
theorem canonicalRelationships_ok {r : Address × Address × Bool}
    (h : canonicalRelationships P V c token = .ok r) :
    r = (c.fees.creatorOf token, c.fees.curveOf token,
        (c.lp.launches token).graduated)
      ∧ c.fees.creatorOf token ≠ 0 ∧ c.fees.curveOf token ≠ 0 := by
  simp only [canonicalRelationships, requireFactoryAndTokenRelationships,
    bind_ok, revertIf_ok, pure_ok, not_or] at h
  obtain ⟨_, -, _, ⟨_, ⟨hcreator, hcurve, -⟩, -⟩, _, -, _, -, _, -, rfl⟩ := h
  exact ⟨rfl, hcreator, hcurve⟩

omit [Keccak] [MulDiv] [PositionManager π] in
theorem requireProposal_ok {details : Proposal}
    (h : requireProposal c proposalId = .ok details) :
    details = c.registry.proposals proposalId
      ∧ (c.registry.proposals proposalId).state ≠ .none := by
  simp only [requireProposal, bind_ok, revertIf_ok, pure_ok] at h
  obtain ⟨_, hne, rfl⟩ := h
  exact ⟨rfl, hne⟩

omit [Keccak] [MulDiv] [PositionManager π] in
theorem requireTreasury_ok {details : Proposal} {u : Unit}
    (h : requireTreasury P c details = .ok u) :
    ∃ treasury, c.treasuries details.treasury = some treasury
      ∧ c.registry.isCanonicalTreasury details.token details.treasury = true
      ∧ treasury.launchToken = details.token
      ∧ treasury.controller = details.controller := by
  unfold requireTreasury at h
  cases ht : c.treasuries details.treasury with
  | none =>
      rw [ht] at h
      exact nomatch h
  | some treasury =>
      rw [ht] at h
      simp only [revertIf_ok, not_or, not_not, Bool.not_eq_false] at h
      obtain ⟨hcanonical, -, htoken, hcontroller⟩ := h
      exact ⟨treasury, rfl, hcanonical, htoken, hcontroller⟩

omit [Keccak] [MulDiv] [PositionManager π] in
theorem requireNoLiveProposal_ok {u : Unit}
    (h : requireNoLiveProposal c token = .ok u) :
    c.registry.currentProposalId token ≠ 0 →
      (c.registry.proposals
        (c.registry.currentProposalId token)).state.live = false := by
  simp only [requireNoLiveProposal, revertIf_ok, not_and,
    Bool.not_eq_true] at h
  exact h

omit [MulDiv] [PositionManager π] in
theorem deployTreasury_ok {controller : Address} {nonce : Nat}
    {r : Chain π × Address}
    (h : deployTreasury P V c token controller nonce = .ok r) :
    c.treasuries (Keccak.predictTreasury token controller nonce) = none
      ∧ r = ({ c with
        treasuries := Function.update c.treasuries
          (Keccak.predictTreasury token controller nonce)
          (some ⟨P.ctoRegistry, token, controller, CANONICAL_USDC⟩)
        registry := { c.registry with
          isCanonicalTreasury :=
            Function.update c.registry.isCanonicalTreasury token
              (Function.update (c.registry.isCanonicalTreasury token)
                (Keccak.predictTreasury token controller nonce) true) } },
        Keccak.predictTreasury token controller nonce) := by
  simp only [deployTreasury, newTreasury, hasCode, bind_ok, revertIf_ok,
    pure_ok, Bool.or_eq_true, not_or] at h
  obtain ⟨_, -, _, ⟨hnone, -⟩, _, ⟨_, -, _, -, _, -, _, -, rfl⟩, rfl⟩ := h
  refine ⟨?_, rfl⟩
  simpa using hnone

/-- The proposal `proposeCTO` stores. -/
def newProposal (msg : Msg) (c : Chain π) (token controller : Address)
    (metadataHash : Nat) : Proposal where
  token := token
  creator := c.fees.creatorOf token
  controller := controller
  treasury := Keccak.predictTreasury token controller
    (c.registry.tokenNonce token + 1)
  previousRecipient := c.fees.creatorPayoutOf token
  metadataHash := metadataHash
  nonce := c.registry.tokenNonce token + 1
  createdAt := uint64 msg.timestamp
  acceptedAt := 0
  state := .proposed

/-- The id of a proposal. -/
def proposalIdOf (details : Proposal) : Nat :=
  Keccak.proposalId ⟨details.token, details.nonce, details.treasury,
    details.controller, details.metadataHash⟩

omit [MulDiv] [PositionManager π] in
/-- **A PROPOSAL** is made by the token's creator while no other is live, under
    the next nonce. -/
theorem proposeCTO_ok {controller : Address} {metadataHash : Nat}
    {metadataURI : List UInt8}
    (h : proposeCTO P V msg c token controller metadataHash metadataURI
      = .ok (c', events)) :
    ∃ resolved,
      let details := newProposal msg c token controller resolved
      msg.sender = c.fees.creatorOf token
        ∧ c.fees.creatorOf token ≠ 0
        ∧ c.fees.ctoActive token = false
        ∧ (c.registry.currentProposalId token ≠ 0 →
          (c.registry.proposals
            (c.registry.currentProposalId token)).state.live = false)
        ∧ uint64 msg.timestamp + ACCEPTANCE_WINDOW < uint64Bound
        ∧ c.treasuries details.treasury = none
        ∧ c' = { c with
          treasuries := Function.update c.treasuries details.treasury
            (some ⟨P.ctoRegistry, token, controller, CANONICAL_USDC⟩)
          registry := { c.registry with
            isCanonicalTreasury :=
              Function.update c.registry.isCanonicalTreasury token
                (Function.update (c.registry.isCanonicalTreasury token)
                  details.treasury true)
            tokenNonce :=
              Function.update c.registry.tokenNonce token details.nonce
            currentProposalId :=
              Function.update c.registry.currentProposalId token
                (proposalIdOf details)
            proposals := Function.update c.registry.proposals
              (proposalIdOf details) details } } := by
  simp only [proposeCTO, bind_ok, revertIf_ok, add64_ok, pure_ok, not_not,
    Bool.not_eq_true, Prod.mk.injEq] at h
  obtain ⟨_, -, r, hr, _, hsender, _, hactive, _, -, _, hlive, resolved, -,
    _, ⟨-, rfl⟩, d, hd, _, ⟨hdeadline, -⟩, rfl, -⟩ := h
  obtain ⟨rfl, hcreator, -⟩ := canonicalRelationships_ok hr
  obtain ⟨hnone, rfl⟩ := deployTreasury_ok hd
  exact ⟨resolved, hsender, hcreator, hactive, requireNoLiveProposal_ok hlive,
    hdeadline, hnone, rfl⟩

omit [Keccak] [MulDiv] [PositionManager π] in
/-- **AN ACCEPTANCE** comes from the proposal's canonical treasury, within the
    window. -/
theorem acceptCTO_ok
    (h : acceptCTO P msg c proposalId = .ok (c', events)) :
    let details := c.registry.proposals proposalId
    details.state = .proposed
      ∧ msg.timestamp ≤ details.createdAt + ACCEPTANCE_WINDOW
      ∧ details.createdAt + ACCEPTANCE_WINDOW < uint64Bound
      ∧ msg.sender = details.treasury
      ∧ c.registry.isCanonicalTreasury details.token details.treasury = true
      ∧ c' = setProposal c proposalId { details with
        acceptedAt := uint64 msg.timestamp, state := .accepted } := by
  simp only [acceptCTO, bind_ok, revertIf_ok, add64_ok, pure_ok, not_not,
    not_or, not_lt, Bool.not_eq_false, Prod.mk.injEq] at h
  obtain ⟨_, -, details, hdetails, _, hstate, _, ⟨hfit, rfl⟩, _, htime, _,
    ⟨hsender, hcanonical⟩, _, -, _, -, _, -, rfl, -⟩ := h
  obtain ⟨rfl, -⟩ := requireProposal_ok hdetails
  rw [hsender] at hcanonical
  exact ⟨hstate, htime, hfit, hsender, hcanonical, rfl⟩

omit [Keccak] [MulDiv] [PositionManager π] in
theorem treasuryAcceptCTO_ok {treasury : Address}
    (h : treasuryAcceptCTO P msg c treasury proposalId = .ok (c', events)) :
    ∃ t, c.treasuries treasury = some t ∧ msg.sender = t.controller
      ∧ acceptCTO P { msg with sender := treasury } c proposalId
        = .ok (c', events) := by
  unfold treasuryAcceptCTO at h
  cases ht : c.treasuries treasury with
  | none =>
      rw [ht] at h
      exact nomatch h
  | some t =>
      rw [ht] at h
      simp only [bind_ok, revertIf_ok, not_not] at h
      obtain ⟨_, hsender, hk⟩ := h
      exact ⟨t, rfl, hsender, hk⟩

omit [Keccak] [MulDiv] [PositionManager π] in
/-- **A CANCELLATION** comes from the proposal's creator. -/
theorem cancelCTO_ok (h : cancelCTO msg c proposalId = .ok (c', events)) :
    let details := c.registry.proposals proposalId
    msg.sender = details.creator
      ∧ (details.state = .proposed ∨ details.state = .accepted)
      ∧ c' = setProposal c proposalId { details with state := .cancelled } := by
  simp only [cancelCTO, bind_ok, revertIf_ok, pure_ok, not_not, not_and,
    Prod.mk.injEq] at h
  obtain ⟨details, hdetails, _, hsender, _, hstate, rfl, -⟩ := h
  obtain ⟨rfl, -⟩ := requireProposal_ok hdetails
  refine ⟨hsender, ?_, rfl⟩
  by_cases hp : (c.registry.proposals proposalId).state = .proposed
  · exact Or.inl hp
  · exact Or.inr (hstate hp)

omit [Keccak] [MulDiv] [PositionManager π] in
/-- **AN EXPIRY** comes after the deadline of the state it ends. -/
theorem expireCTO_ok (h : expireCTO msg c proposalId = .ok (c', events)) :
    let details := c.registry.proposals proposalId
    ((details.state = .proposed
        ∧ details.createdAt + ACCEPTANCE_WINDOW < msg.timestamp) ∨
      (details.state = .accepted
        ∧ details.acceptedAt + EXECUTION_DELAY + EXECUTION_GRACE_PERIOD
          < msg.timestamp))
      ∧ c' = setProposal c proposalId { details with state := .expired } := by
  simp only [expireCTO, bind_ok] at h
  obtain ⟨details, hdetails, h⟩ := h
  obtain ⟨rfl, -⟩ := requireProposal_ok hdetails
  cases hstate : (c.registry.proposals proposalId).state with
  | proposed =>
      simp only [hstate, bind_ok, revertIf_ok, add64_ok, pure_ok, not_le,
        Prod.mk.injEq] at h
      obtain ⟨_, ⟨-, rfl⟩, _, htime, rfl, -⟩ := h
      exact ⟨Or.inl ⟨hstate, htime⟩, rfl⟩
  | accepted =>
      simp only [hstate, executionDeadline, bind_ok, revertIf_ok, add_ok,
        pure_ok, not_le, Prod.mk.injEq] at h
      obtain ⟨_, ⟨_, ⟨-, rfl⟩, -, rfl⟩, _, htime, rfl, -⟩ := h
      exact ⟨Or.inr ⟨hstate, htime⟩, rfl⟩
  | none => simp [hstate] at h
  | active => simp [hstate] at h
  | cancelled => simp [hstate] at h
  | expired => simp [hstate] at h

omit [Keccak] in
theorem collectLPFees_ok {custodian : Address}
    (h : collectLPFees P V c custodian = .ok c') :
    ∃ lp amount0 amount1,
      collectFees P.vault (hasCode V c)
          (feeRoute c.fees (c.lp.custodians custodian).launchToken) c.lp
          custodian = .ok (lp, amount0, amount1)
        ∧ c' = { c with lp } := by
  simp only [collectLPFees, bind_ok, pure_ok] at h
  obtain ⟨⟨lp, amount0, amount1⟩, hcollect, rfl⟩ := h
  exact ⟨lp, amount0, amount1, hcollect, rfl⟩

omit [Keccak] in
theorem collectCanonicalLPFees_ok {curve : Address}
    (h : collectCanonicalLPFees P V c token curve = .ok c') :
    (c.lp.custodians (c.lp.custodianOf token)).launchToken = token
      ∧ collectLPFees P V c (c.lp.custodianOf token) = .ok c' := by
  simp only [collectCanonicalLPFees, bind_ok, revertIf_ok, not_or,
    not_not] at h
  obtain ⟨_, -, _, -, _, -, _, ⟨-, -, -, htoken, -⟩, hcollect⟩ := h
  exact ⟨htoken, hcollect⟩

/-- The state `executeCTO` calls out from: the proposal is active already. -/
def activated (c : Chain π) (proposalId : Nat) : Chain π :=
  { c with
    registry := { c.registry with
      proposals := Function.update c.registry.proposals proposalId
        { c.registry.proposals proposalId with state := .active }
      activeTreasury := Function.update c.registry.activeTreasury
        (c.registry.proposals proposalId).token
        (c.registry.proposals proposalId).treasury } }

omit [Keccak] in
/-- **AN EXECUTION** happens inside its window, under the recipient recorded at
    creation; it collects first and switches afterwards. -/
theorem executeCTO_ok
    (h : executeCTO P V msg c proposalId = .ok (c', events)) :
    let details := c.registry.proposals proposalId
    details.state = .accepted
      ∧ details.acceptedAt + EXECUTION_DELAY ≤ msg.timestamp
      ∧ msg.timestamp
        ≤ details.acceptedAt + EXECUTION_DELAY + EXECUTION_GRACE_PERIOD
      ∧ c.fees.creatorPayoutOf details.token = details.previousRecipient
      ∧ c.fees.curveOf details.token ≠ 0
      ∧ c.registry.isCanonicalTreasury details.token details.treasury = true
      ∧ ∃ c₁ out,
        (if (c.lp.launches details.token).graduated = true then
            collectCanonicalLPFees P V (activated c proposalId) details.token
              (c.fees.curveOf details.token)
          else .ok (activated c proposalId)) = .ok c₁
        ∧ FeeManager.activateCTO P.fees (views P V c₁)
          ⟨P.ctoRegistry, 0, msg.timestamp⟩ c₁.fees details.token
          details.treasury = .ok out
        ∧ c' = { c₁ with fees := out.storage } := by
  simp only [executeCTO, bind_ok, revertIf_ok, add_ok, pure_ok, not_not,
    not_lt, Prod.mk.injEq] at h
  obtain ⟨_, -, details, hdetails, _, hstate, _, ⟨-, rfl⟩, _, hafter, _,
    ⟨-, rfl⟩, _, hbefore, r, hr, _, ht, _, hstale, c₁, hc₁, out, hout, rfl,
    -⟩ := h
  obtain ⟨rfl, -⟩ := requireProposal_ok hdetails
  obtain ⟨rfl, -, hcurve⟩ := canonicalRelationships_ok hr
  obtain ⟨treasury, -, hcanonical, -, -⟩ := requireTreasury_ok ht
  exact ⟨hstate, hafter, hbefore, hstale, hcurve, hcanonical, c₁, out, hc₁,
    hout, rfl⟩

end Inversion

end CTORegistry
