import Cooket.ContractProofs
import Cooket.LedgerSumProofs

/-! # The fee manager

    `FeeManagerV3`: the fees of every curve, who may claim them, and the
    one-way hand-over of a token's creator fees to a treasury.

    Every external function is one definition that returns an `Outcome`: the
    new storage, the events, and at most one payout.  A payout hands control
    to its recipient, so what the function still does afterwards (release the
    lock, emit the last event) is a separate definition, `finish`.  Beside each
    function stands its inversion lemma; nothing below unfolds a function
    again. -/

namespace FeeManager

open CheckedArith Contract

/-- `keccak256("endpoint-cp-v3")`. -/
def PROTOCOL_VERSION_HASH : Nat :=
  0x1f8f6fc3909aa7786076bff8f2f475ac6403b972e58be98da17d63acb32541a5

/-- `keccak256("cooket-fee-design-b-v3")`. -/
def FEE_POLICY_HASH : Nat :=
  0xa5a507f1285d3d4b950a0ced096593acb9e00198e6a29e46122315ca3c9f1b93

/-- `48 hours`. -/
def TREASURY_ROTATION_DELAY : Nat := 48 * 3600

/-- What the manager owes, and to whom. -/
structure Books where
  creatorFeesAccrued : Address → Nat
  protocolFeesAccrued : Nat
  totalCreatorFeesAccrued : Nat
  communityFeesAccrued : Nat
  traderRewardsFeesAccrued : Nat
  communityFeesAccruedByToken : Address → Nat
  traderRewardsFeesAccruedByToken : Address → Nat
  checkpointedCreatorFees : Address → Address → Nat

/-- Whose fees are whose: the registration of a token, its payout slots, and
    whether it is handed over. -/
structure Routes where
  curveOf : Address → Address
  creatorOf : Address → Address
  creatorPayoutOf : Address → Address
  pendingCreatorPayoutOf : Address → Address
  ctoActive : Address → Bool
  ctoTreasuryOf : Address → Address

/-- The storage of `FeeManagerV3`, with that of the ownership and the
    re-entrancy guard it inherits. -/
structure FeeManagerStorage extends Books, Routes where
  owner : Address
  pendingOwner : Address
  entered : Bool
  factory : Address
  factoryBootstrapAuthority : Address
  ecosystemBootstrapAuthority : Address
  treasury : Address
  pendingTreasury : Address
  pendingTreasuryAcceptAfter : Nat
  communityVault : Address
  traderRewardsVault : Address

/-- The storage after the constructor. -/
def FeeManagerStorage.deployed (governance initialTreasury : Address) :
    FeeManagerStorage where
  creatorFeesAccrued _ := 0
  protocolFeesAccrued := 0
  totalCreatorFeesAccrued := 0
  communityFeesAccrued := 0
  traderRewardsFeesAccrued := 0
  communityFeesAccruedByToken _ := 0
  traderRewardsFeesAccruedByToken _ := 0
  checkpointedCreatorFees _ _ := 0
  owner := governance
  pendingOwner := 0
  entered := false
  factory := 0
  factoryBootstrapAuthority := governance
  ecosystemBootstrapAuthority := governance
  treasury := initialTreasury
  pendingTreasury := 0
  pendingTreasuryAcceptAfter := 0
  curveOf _ := 0
  creatorOf _ := 0
  creatorPayoutOf _ := 0
  pendingCreatorPayoutOf _ := 0
  communityVault := 0
  traderRewardsVault := 0
  ctoActive _ := false
  ctoTreasuryOf _ := 0

/-- The manager's own address and its registry. -/
structure Immutables where
  self : Address
  ctoRegistry : Address

/-- What the view functions of other contracts answer during a call, by the
    address that is asked. -/
structure Views where
  hasCode : Address → Bool
  protocolVersionHash : Address → Nat
  feePolicyHash : Address → Nat
  feeManager : Address → Address
  graduationManager : Address → Address
  tokenInfo : Address → Address → Address × Address
  isToken : Address → Address → Bool
  curveOf : Address → Address → Address
  factory : Address → Address
  token : Address → Address
  creator : Address → Address
  initialized : Address → Bool
  isCanonicalTreasury : Address → Address → Address → Bool

/-- The events of `IFeeManagerV3`. -/
inductive FeeManagerEvent where
  | factorySet (factory : Address)
  | factoryBootstrapConsumed (previousBootstrapAuthority : Address)
  | tokenRegistered (token curve creator payout : Address)
  | feesDeposited (token curve : Address) (isBuy : Bool)
      (totalFee creatorFee protocolFee communityFee traderRewardsFee : Nat)
  | ecosystemVaultsSet (communityVault traderRewardsVault : Address)
  | communityVaultFunded (token vault : Address) (amount : Nat)
      (caller : Address)
  | traderRewardsVaultFunded (token vault : Address) (amount : Nat)
      (caller : Address)
  | creatorPayoutProposed (token currentPayout proposedPayout : Address)
  | creatorPayoutAccepted (token previousPayout newPayout : Address)
  | creatorPayoutCancelled (token cancelledPayout : Address)
  | treasuryProposed (currentTreasury proposedTreasury : Address)
      (acceptAfter : Nat)
  | treasuryAccepted (previousTreasury newTreasury : Address)
  | treasuryProposalCancelled (cancelledTreasury : Address)
  | treasuryProposalInvalidated (cancelledTreasury newOwner : Address)
  | protocolFeesClaimed (treasury triggeredBy : Address) (amount : Nat)
  | creatorFeesClaimed (token payout triggeredBy : Address) (amount : Nat)
  | creatorFeeCheckpointed (token previousRecipient : Address) (amount : Nat)
  | pendingCreatorPayoutInvalidated (token cancelledPayout : Address)
  | ctoFeeRouteActivated (token previousRecipient treasury : Address)
  | checkpointedCreatorFeesClaimed (token recipient triggeredBy : Address)
      (amount : Nat)
  deriving DecidableEq, Repr

/-- What a paying function has left to do once its recipient gives control
    back. -/
inductive Receipt where
  | protocolFeesClaimed (triggeredBy : Address) (amount : Nat)
  | emit (e : FeeManagerEvent)
  deriving DecidableEq, Repr

/-- A transfer of native value out of the manager. -/
structure Payout where
  recipient : Address
  amount : Nat
  receipt : Receipt
  deriving DecidableEq, Repr

/-- What a function returns with. -/
structure Outcome where
  storage : FeeManagerStorage
  events : List FeeManagerEvent
  payout : Option Payout

/-- The value that leaves the manager. -/
def Outcome.paid (out : Outcome) : Nat :=
  match out.payout with
  | none => 0
  | some p => p.amount

/-- What happens after the payout: the last event, and the lock released. -/
def finish (receipt : Option Receipt) (s : FeeManagerStorage) :
    FeeManagerStorage × List FeeManagerEvent :=
  match receipt with
  | none => (s, [])
  | some (.protocolFeesClaimed triggeredBy amount) =>
      -- the event reads the treasury again, after the payout
      ({ s with entered := false },
        [.protocolFeesClaimed s.treasury triggeredBy amount])
  | some (.emit e) => ({ s with entered := false }, [e])

/-- The external functions of `FeeManagerV3` that write. -/
inductive FeeManagerCall where
  | setFactoryOnce (factory_ : Address)
  | bindEcosystemVaultsOnce (communityVault_ traderRewardsVault_ : Address)
  | registerToken (token curve creator : Address)
  | depositFees (token : Address) (totalFee creatorFee protocolFee
      communityFee traderRewardsFee : Nat) (isBuy : Bool)
  | proposeCreatorPayout (token proposedPayout : Address)
  | acceptCreatorPayout (token : Address)
  | cancelCreatorPayout (token : Address)
  | proposeTreasury (proposedTreasury : Address)
  | acceptTreasury
  | cancelTreasuryProposal
  | claimProtocolFees
  | claimCreatorFees (token : Address)
  | activateCTO (token ctoTreasury : Address)
  | claimCheckpointedCreatorFees (token recipient : Address)
  | fundCommunityVault (token : Address)
  | fundTraderRewardsVault (token : Address)
  | transferOwnership (newOwner : Address)
  | acceptOwnership
  | renounceOwnership
  deriving DecidableEq, Repr

section Functions

variable (I : Immutables) (V : Views) (msg : Msg) (s : FeeManagerStorage)

/-- `setFactoryOnce`. -/
def setFactoryOnce (factory_ : Address) : Except Revert Outcome := do
  revertIf (s.factory ≠ 0) (.fees .factoryAlreadySet)
  revertIf (msg.sender ≠ s.factoryBootstrapAuthority
      ∨ s.factoryBootstrapAuthority = 0) (.fees .unauthorizedBootstrap)
  revertIf (factory_ = 0 ∨ V.hasCode factory_ = false) (.fees .invalidFactory)
  revertIf (V.protocolVersionHash factory_ ≠ PROTOCOL_VERSION_HASH)
    (.fees .factoryVersionMismatch)
  pure
    { storage := { s with factory := factory_, factoryBootstrapAuthority := 0 }
      events := [.factorySet factory_,
        .factoryBootstrapConsumed s.factoryBootstrapAuthority]
      payout := none }

/-- `bindEcosystemVaultsOnce`. -/
def bindEcosystemVaultsOnce (communityVault_ traderRewardsVault_ : Address) :
    Except Revert Outcome := do
  revertIf (s.communityVault ≠ 0 ∨ s.traderRewardsVault ≠ 0)
    (.fees .ecosystemVaultsAlreadySet)
  revertIf (msg.sender ≠ s.ecosystemBootstrapAuthority
      ∨ s.ecosystemBootstrapAuthority = 0) (.fees .unauthorizedBootstrap)
  revertIf (communityVault_ = 0 ∨ traderRewardsVault_ = 0
      ∨ communityVault_ = traderRewardsVault_
      ∨ V.hasCode communityVault_ = false
      ∨ V.hasCode traderRewardsVault_ = false
      ∨ V.feeManager communityVault_ ≠ I.self
      ∨ V.feeManager traderRewardsVault_ ≠ I.self
      ∨ V.protocolVersionHash communityVault_ ≠ PROTOCOL_VERSION_HASH
      ∨ V.protocolVersionHash traderRewardsVault_ ≠ PROTOCOL_VERSION_HASH
      ∨ V.feePolicyHash communityVault_ ≠ FEE_POLICY_HASH
      ∨ V.feePolicyHash traderRewardsVault_ ≠ FEE_POLICY_HASH)
    (.fees .invalidEcosystemVault)
  pure
    { storage := { s with
        communityVault := communityVault_
        traderRewardsVault := traderRewardsVault_
        ecosystemBootstrapAuthority := 0 }
      events := [.ecosystemVaultsSet communityVault_ traderRewardsVault_]
      payout := none }

/-- `registerToken`. -/
def registerToken (token curve creator : Address) :
    Except Revert Outcome := do
  revertIf (s.factory = 0) (.fees .factoryNotSet)
  revertIf (msg.sender ≠ s.factory) (.fees .unauthorizedFactory)
  revertIf (token = 0 ∨ V.hasCode token = false) (.fees .invalidToken)
  revertIf (curve = 0 ∨ V.hasCode curve = false) (.fees .invalidCurve)
  revertIf (creator = 0) (.fees .invalidCreator)
  revertIf (s.curveOf token ≠ 0) (.fees .tokenAlreadyRegistered)
  let (registeredCreator, registeredCurve) := V.tokenInfo s.factory token
  revertIf (V.isToken s.factory token = false
      ∨ V.curveOf s.factory token ≠ curve
      ∨ registeredCurve ≠ curve ∨ registeredCreator ≠ creator
      ∨ V.factory curve ≠ s.factory ∨ V.token curve ≠ token
      ∨ V.creator curve ≠ creator ∨ V.factory token ≠ s.factory
      ∨ V.creator token ≠ creator ∨ V.initialized token = false)
    (.fees .tokenRelationshipMismatch)
  pure
    { storage := { s with
        curveOf := Function.update s.curveOf token curve
        creatorOf := Function.update s.creatorOf token creator
        creatorPayoutOf := Function.update s.creatorPayoutOf token creator }
      events := [.tokenRegistered token curve creator creator]
      payout := none }

/-- `depositFees`. -/
def depositFees (token : Address) (totalFee creatorFee protocolFee
    communityFee traderRewardsFee : Nat) (isBuy : Bool) :
    Except Revert Outcome := do
  revertIf (s.curveOf token ≠ msg.sender) (.fees .unauthorizedCurve)
  revertIf (msg.value ≠ totalFee) (.fees .invalidFeeValue)
  let remaining := totalFee
  revertIf (remaining < creatorFee) (.fees .invalidFeeSplit)
  let remaining ← sub remaining creatorFee
  revertIf (remaining < protocolFee) (.fees .invalidFeeSplit)
  let remaining ← sub remaining protocolFee
  revertIf (remaining < communityFee) (.fees .invalidFeeSplit)
  let remaining ← sub remaining communityFee
  revertIf (traderRewardsFee ≠ remaining) (.fees .invalidFeeSplit)
  let protocolFeesAccrued ← add s.protocolFeesAccrued protocolFee
  let creatorFees ← add (s.creatorFeesAccrued token) creatorFee
  let totalCreatorFeesAccrued ← add s.totalCreatorFeesAccrued creatorFee
  let communityFeesAccrued ← add s.communityFeesAccrued communityFee
  let traderRewardsFeesAccrued ←
    add s.traderRewardsFeesAccrued traderRewardsFee
  let communityFees ←
    add (s.communityFeesAccruedByToken token) communityFee
  let traderRewardsFees ←
    add (s.traderRewardsFeesAccruedByToken token) traderRewardsFee
  pure
    { storage := { s with
        protocolFeesAccrued
        creatorFeesAccrued :=
          Function.update s.creatorFeesAccrued token creatorFees
        totalCreatorFeesAccrued
        communityFeesAccrued
        traderRewardsFeesAccrued
        communityFeesAccruedByToken :=
          Function.update s.communityFeesAccruedByToken token communityFees
        traderRewardsFeesAccruedByToken :=
          Function.update s.traderRewardsFeesAccruedByToken token
            traderRewardsFees }
      events := [.feesDeposited token msg.sender isBuy totalFee creatorFee
        protocolFee communityFee traderRewardsFee]
      payout := none }

/-- `proposeCreatorPayout`. -/
def proposeCreatorPayout (token proposedPayout : Address) :
    Except Revert Outcome := do
  revertIf (s.ctoActive token = true) (.fees .ctoActive)
  revertIf (msg.sender ≠ s.creatorOf token) (.fees .unauthorizedCreator)
  revertIf (proposedPayout = 0) (.fees .invalidPayoutRecipient)
  revertIf (proposedPayout = s.creatorPayoutOf token)
    (.fees .creatorPayoutUnchanged)
  pure
    { storage := { s with
        pendingCreatorPayoutOf :=
          Function.update s.pendingCreatorPayoutOf token proposedPayout }
      events := [.creatorPayoutProposed token (s.creatorPayoutOf token)
        proposedPayout]
      payout := none }

/-- `acceptCreatorPayout`. -/
def acceptCreatorPayout (token : Address) : Except Revert Outcome := do
  revertIf (s.ctoActive token = true) (.fees .ctoActive)
  let proposedPayout := s.pendingCreatorPayoutOf token
  revertIf (msg.sender ≠ proposedPayout ∨ proposedPayout = 0)
    (.fees .unauthorizedPendingPayout)
  pure
    { storage := { s with
        creatorPayoutOf :=
          Function.update s.creatorPayoutOf token proposedPayout
        pendingCreatorPayoutOf :=
          Function.update s.pendingCreatorPayoutOf token 0 }
      events := [.creatorPayoutAccepted token (s.creatorPayoutOf token)
        proposedPayout]
      payout := none }

/-- `cancelCreatorPayout`. -/
def cancelCreatorPayout (token : Address) : Except Revert Outcome := do
  revertIf (s.ctoActive token = true) (.fees .ctoActive)
  revertIf (msg.sender ≠ s.creatorOf token) (.fees .unauthorizedCreator)
  let cancelledPayout := s.pendingCreatorPayoutOf token
  revertIf (cancelledPayout = 0) (.fees .noPendingProposal)
  pure
    { storage := { s with
        pendingCreatorPayoutOf :=
          Function.update s.pendingCreatorPayoutOf token 0 }
      events := [.creatorPayoutCancelled token cancelledPayout]
      payout := none }

/-- `onlyOwner`. -/
def onlyOwner : Except Revert Unit :=
  revertIf (msg.sender ≠ s.owner) (.fees .ownableUnauthorizedAccount)

/-- `proposeTreasury`. -/
def proposeTreasury (proposedTreasury : Address) :
    Except Revert Outcome := do
  onlyOwner msg s
  revertIf (proposedTreasury = 0) (.fees .invalidTreasury)
  revertIf (proposedTreasury = s.treasury) (.fees .treasuryUnchanged)
  let due ← add msg.timestamp TREASURY_ROTATION_DELAY
  let acceptAfter := uint64 due
  pure
    { storage := { s with
        pendingTreasury := proposedTreasury
        pendingTreasuryAcceptAfter := acceptAfter }
      events := [.treasuryProposed s.treasury proposedTreasury acceptAfter]
      payout := none }

/-- `acceptTreasury`. -/
def acceptTreasury : Except Revert Outcome := do
  let proposedTreasury := s.pendingTreasury
  revertIf (msg.sender ≠ proposedTreasury ∨ proposedTreasury = 0)
    (.fees .unauthorizedPendingTreasury)
  revertIf (msg.timestamp < s.pendingTreasuryAcceptAfter)
    (.fees .treasuryDelayNotElapsed)
  pure
    { storage := { s with
        treasury := proposedTreasury
        pendingTreasury := 0
        pendingTreasuryAcceptAfter := 0 }
      events := [.treasuryAccepted s.treasury proposedTreasury]
      payout := none }

/-- `cancelTreasuryProposal`. -/
def cancelTreasuryProposal : Except Revert Outcome := do
  onlyOwner msg s
  let cancelledTreasury := s.pendingTreasury
  revertIf (cancelledTreasury = 0) (.fees .noPendingProposal)
  pure
    { storage := { s with
        pendingTreasury := 0
        pendingTreasuryAcceptAfter := 0 }
      events := [.treasuryProposalCancelled cancelledTreasury]
      payout := none }

/-- `nonReentrant`. -/
def nonReentrant : Except Revert Unit :=
  revertIf (s.entered = true) .reentrantCall

/-- `claimProtocolFees`. -/
def claimProtocolFees : Except Revert Outcome := do
  nonReentrant s
  let amount := s.protocolFeesAccrued
  revertIf (amount = 0) (.fees .nothingToClaim)
  pure
    { storage := { s with entered := true, protocolFeesAccrued := 0 }
      events := []
      payout := some ⟨s.treasury, amount,
        .protocolFeesClaimed msg.sender amount⟩ }

/-- `claimCreatorFees`. -/
def claimCreatorFees (token : Address) : Except Revert Outcome := do
  nonReentrant s
  let amount := s.creatorFeesAccrued token
  revertIf (amount = 0) (.fees .nothingToClaim)
  let totalCreatorFeesAccrued ← sub s.totalCreatorFeesAccrued amount
  let payout := s.creatorPayoutOf token
  pure
    { storage := { s with
        entered := true
        creatorFeesAccrued := Function.update s.creatorFeesAccrued token 0
        totalCreatorFeesAccrued }
      events := []
      payout := some ⟨payout, amount,
        .emit (.creatorFeesClaimed token payout msg.sender amount)⟩ }

/-- The entries that `activateCTO` moves to the previous recipient. -/
def checkpoint (token : Address) (previousRecipient : Address) :
    Except Revert (FeeManagerStorage × List FeeManagerEvent) :=
  let checkpointed := s.creatorFeesAccrued token
  if checkpointed ≠ 0 then do
    let credited ←
      add (s.checkpointedCreatorFees token previousRecipient) checkpointed
    pure ({ s with
        creatorFeesAccrued := Function.update s.creatorFeesAccrued token 0
        checkpointedCreatorFees :=
          LedgerSum.update₂ s.checkpointedCreatorFees token previousRecipient
            credited },
      [.creatorFeeCheckpointed token previousRecipient checkpointed])
  else pure (s, [])

/-- `activateCTO`. -/
def activateCTO (token ctoTreasury : Address) : Except Revert Outcome := do
  revertIf (msg.sender ≠ I.ctoRegistry) (.fees .unauthorizedCTORegistry)
  revertIf (s.ctoActive token = true) (.fees .ctoAlreadyActive)
  let previousRecipient := s.creatorPayoutOf token
  revertIf (previousRecipient = 0 ∨ ctoTreasury = 0
      ∨ V.hasCode ctoTreasury = false
      ∨ V.isCanonicalTreasury I.ctoRegistry token ctoTreasury = false)
    (.fees .invalidCTOTreasury)
  let (s, checkpointEvents) ← checkpoint s token previousRecipient
  let cancelledPayout := s.pendingCreatorPayoutOf token
  pure
    { storage := { s with
        pendingCreatorPayoutOf :=
          Function.update s.pendingCreatorPayoutOf token 0
        creatorPayoutOf := Function.update s.creatorPayoutOf token ctoTreasury
        ctoTreasuryOf := Function.update s.ctoTreasuryOf token ctoTreasury
        ctoActive := Function.update s.ctoActive token true }
      events := checkpointEvents
        ++ (if cancelledPayout ≠ 0 then
              [.pendingCreatorPayoutInvalidated token cancelledPayout]
            else [])
        ++ [.ctoFeeRouteActivated token previousRecipient ctoTreasury]
      payout := none }

/-- `claimCheckpointedCreatorFees`. -/
def claimCheckpointedCreatorFees (token recipient : Address) :
    Except Revert Outcome := do
  nonReentrant s
  let amount := s.checkpointedCreatorFees token recipient
  revertIf (amount = 0) (.fees .nothingToClaim)
  let totalCreatorFeesAccrued ← sub s.totalCreatorFeesAccrued amount
  pure
    { storage := { s with
        entered := true
        checkpointedCreatorFees :=
          LedgerSum.update₂ s.checkpointedCreatorFees token recipient 0
        totalCreatorFeesAccrued }
      events := []
      payout := some ⟨recipient, amount,
        .emit (.checkpointedCreatorFeesClaimed token recipient msg.sender
          amount)⟩ }

/-- `fundCommunityVault`. -/
def fundCommunityVault (token : Address) : Except Revert Outcome := do
  nonReentrant s
  let vault := s.communityVault
  revertIf (vault = 0) (.fees .ecosystemVaultsNotSet)
  let amount := s.communityFeesAccruedByToken token
  revertIf (amount = 0) (.fees .nothingToFund)
  let communityFeesAccrued ← sub s.communityFeesAccrued amount
  pure
    { storage := { s with
        entered := true
        communityFeesAccruedByToken :=
          Function.update s.communityFeesAccruedByToken token 0
        communityFeesAccrued }
      events := []
      payout := some ⟨vault, amount,
        .emit (.communityVaultFunded token vault amount msg.sender)⟩ }

/-- `fundTraderRewardsVault`. -/
def fundTraderRewardsVault (token : Address) : Except Revert Outcome := do
  nonReentrant s
  let vault := s.traderRewardsVault
  revertIf (vault = 0) (.fees .ecosystemVaultsNotSet)
  let amount := s.traderRewardsFeesAccruedByToken token
  revertIf (amount = 0) (.fees .nothingToFund)
  let traderRewardsFeesAccrued ← sub s.traderRewardsFeesAccrued amount
  pure
    { storage := { s with
        entered := true
        traderRewardsFeesAccruedByToken :=
          Function.update s.traderRewardsFeesAccruedByToken token 0
        traderRewardsFeesAccrued }
      events := []
      payout := some ⟨vault, amount,
        .emit (.traderRewardsVaultFunded token vault amount msg.sender)⟩ }

/-- `totalLiabilities`. -/
def totalLiabilities : Except Revert Nat := do
  let t ← add s.protocolFeesAccrued s.totalCreatorFeesAccrued
  let t ← add t s.communityFeesAccrued
  add t s.traderRewardsFeesAccrued

/-- `_transferOwnership`: the pending treasury does not survive the owner who
    proposed it. -/
def transferOwnership_ (newOwner : Address) :
    FeeManagerStorage × List FeeManagerEvent :=
  let cancelledTreasury := s.pendingTreasury
  if cancelledTreasury ≠ 0 then
    ({ s with
        pendingTreasury := 0
        pendingTreasuryAcceptAfter := 0
        pendingOwner := 0
        owner := newOwner },
      [.treasuryProposalInvalidated cancelledTreasury newOwner])
  else ({ s with pendingOwner := 0, owner := newOwner }, [])

/-- The inherited `transferOwnership`. -/
def transferOwnership (newOwner : Address) : Except Revert Outcome := do
  onlyOwner msg s
  pure ⟨{ s with pendingOwner := newOwner }, [], none⟩

/-- The inherited `acceptOwnership`. -/
def acceptOwnership : Except Revert Outcome := do
  revertIf (msg.sender ≠ s.pendingOwner) (.fees .ownableUnauthorizedAccount)
  pure ⟨(transferOwnership_ s msg.sender).1,
    (transferOwnership_ s msg.sender).2, none⟩

/-- The inherited `renounceOwnership`. -/
def renounceOwnership : Except Revert Outcome := do
  onlyOwner msg s
  pure ⟨(transferOwnership_ s 0).1, (transferOwnership_ s 0).2, none⟩

/-- The function a call names. -/
def dispatch : FeeManagerCall → Except Revert Outcome
  | .setFactoryOnce factory_ => setFactoryOnce V msg s factory_
  | .bindEcosystemVaultsOnce communityVault_ traderRewardsVault_ =>
      bindEcosystemVaultsOnce I V msg s communityVault_ traderRewardsVault_
  | .registerToken token curve creator =>
      registerToken V msg s token curve creator
  | .depositFees token totalFee creatorFee protocolFee communityFee
      traderRewardsFee isBuy =>
      depositFees msg s token totalFee creatorFee protocolFee communityFee
        traderRewardsFee isBuy
  | .proposeCreatorPayout token proposedPayout =>
      proposeCreatorPayout msg s token proposedPayout
  | .acceptCreatorPayout token => acceptCreatorPayout msg s token
  | .cancelCreatorPayout token => cancelCreatorPayout msg s token
  | .proposeTreasury proposedTreasury => proposeTreasury msg s proposedTreasury
  | .acceptTreasury => acceptTreasury msg s
  | .cancelTreasuryProposal => cancelTreasuryProposal msg s
  | .claimProtocolFees => claimProtocolFees msg s
  | .claimCreatorFees token => claimCreatorFees msg s token
  | .activateCTO token ctoTreasury => activateCTO I V msg s token ctoTreasury
  | .claimCheckpointedCreatorFees token recipient =>
      claimCheckpointedCreatorFees msg s token recipient
  | .fundCommunityVault token => fundCommunityVault msg s token
  | .fundTraderRewardsVault token => fundTraderRewardsVault msg s token
  | .transferOwnership newOwner => transferOwnership msg s newOwner
  | .acceptOwnership => acceptOwnership msg s
  | .renounceOwnership => renounceOwnership msg s

/-- `depositFees` is the only payable function. -/
def FeeManagerCall.payable : FeeManagerCall → Bool
  | .depositFees .. => true
  | _ => false

/-- One call of the manager. -/
def call (k : FeeManagerCall) : Except Revert Outcome := do
  revertIf (k.payable = false ∧ msg.value ≠ 0) .nonPayable
  dispatch I V msg s k

end Functions

/-! ## What each function does, once it returns -/

section Inversion

variable {I : Immutables} {V : Views} {msg : Msg} {s : FeeManagerStorage}
  {out : Outcome} {token : Address}

theorem setFactoryOnce_ok {factory_ : Address}
    (h : setFactoryOnce V msg s factory_ = .ok out) :
    out.storage
        = { s with factory := factory_, factoryBootstrapAuthority := 0 }
      ∧ out.payout = none := by
  simp only [setFactoryOnce, bind_ok, revertIf_ok, pure_ok] at h
  obtain ⟨_, -, _, -, _, -, _, -, rfl⟩ := h
  exact ⟨rfl, rfl⟩

theorem bindEcosystemVaultsOnce_ok {communityVault_ traderRewardsVault_ : Address}
    (h : bindEcosystemVaultsOnce I V msg s communityVault_ traderRewardsVault_
      = .ok out) :
    out.storage = { s with
        communityVault := communityVault_
        traderRewardsVault := traderRewardsVault_
        ecosystemBootstrapAuthority := 0 }
      ∧ out.payout = none := by
  simp only [bindEcosystemVaultsOnce, bind_ok, revertIf_ok, pure_ok] at h
  obtain ⟨_, -, _, -, _, -, rfl⟩ := h
  exact ⟨rfl, rfl⟩

theorem registerToken_ok {curve creator : Address}
    (h : registerToken V msg s token curve creator = .ok out) :
    s.curveOf token = 0 ∧ curve ≠ 0 ∧ creator ≠ 0
      ∧ out.storage = { s with
        curveOf := Function.update s.curveOf token curve
        creatorOf := Function.update s.creatorOf token creator
        creatorPayoutOf := Function.update s.creatorPayoutOf token creator }
      ∧ out.payout = none := by
  simp only [registerToken, bind_ok, revertIf_ok, pure_ok, not_or,
    not_not] at h
  obtain ⟨_, -, _, -, _, -, _, ⟨hcurve, -⟩, _, hcreator, _, hfresh, _, -,
    rfl⟩ := h
  exact ⟨hfresh, hcurve, hcreator, rfl, rfl⟩

/-- **A DEPOSIT** is made by the token's curve, and its four shares are the
    value it carries. -/
theorem depositFees_ok {totalFee creatorFee protocolFee communityFee
    traderRewardsFee : Nat} {isBuy : Bool}
    (h : depositFees msg s token totalFee creatorFee protocolFee communityFee
      traderRewardsFee isBuy = .ok out) :
    s.curveOf token = msg.sender ∧ msg.value = totalFee
      ∧ creatorFee + protocolFee + communityFee + traderRewardsFee = totalFee
      ∧ out.storage = { s with
        protocolFeesAccrued := s.protocolFeesAccrued + protocolFee
        creatorFeesAccrued := Function.update s.creatorFeesAccrued token
          (s.creatorFeesAccrued token + creatorFee)
        totalCreatorFeesAccrued := s.totalCreatorFeesAccrued + creatorFee
        communityFeesAccrued := s.communityFeesAccrued + communityFee
        traderRewardsFeesAccrued :=
          s.traderRewardsFeesAccrued + traderRewardsFee
        communityFeesAccruedByToken :=
          Function.update s.communityFeesAccruedByToken token
            (s.communityFeesAccruedByToken token + communityFee)
        traderRewardsFeesAccruedByToken :=
          Function.update s.traderRewardsFeesAccruedByToken token
            (s.traderRewardsFeesAccruedByToken token + traderRewardsFee) }
      ∧ out.payout = none := by
  simp only [depositFees, bind_ok, revertIf_ok, sub_ok, add_ok, pure_ok,
    not_not] at h
  obtain ⟨_, hcurve, _, hvalue, _, hc, _, ⟨-, rfl⟩, _, hp, _, ⟨-, rfl⟩, _, hcm,
    _, ⟨-, rfl⟩, _, ht, _, ⟨-, rfl⟩, _, ⟨-, rfl⟩, _, ⟨-, rfl⟩, _, ⟨-, rfl⟩,
    _, ⟨-, rfl⟩, _, ⟨-, rfl⟩, _, ⟨-, rfl⟩, rfl⟩ := h
  refine ⟨hcurve, hvalue, ?_, rfl, rfl⟩
  omega

theorem proposeCreatorPayout_ok {proposedPayout : Address}
    (h : proposeCreatorPayout msg s token proposedPayout = .ok out) :
    s.ctoActive token = false ∧ msg.sender = s.creatorOf token
      ∧ out.storage = { s with
        pendingCreatorPayoutOf :=
          Function.update s.pendingCreatorPayoutOf token proposedPayout }
      ∧ out.payout = none := by
  simp only [proposeCreatorPayout, bind_ok, revertIf_ok, pure_ok, not_not,
    Bool.not_eq_true] at h
  obtain ⟨_, hcto, _, hsender, _, -, _, -, rfl⟩ := h
  exact ⟨hcto, hsender, rfl, rfl⟩

theorem acceptCreatorPayout_ok
    (h : acceptCreatorPayout msg s token = .ok out) :
    s.ctoActive token = false
      ∧ msg.sender = s.pendingCreatorPayoutOf token
      ∧ s.pendingCreatorPayoutOf token ≠ 0
      ∧ out.storage = { s with
        creatorPayoutOf := Function.update s.creatorPayoutOf token
          (s.pendingCreatorPayoutOf token)
        pendingCreatorPayoutOf :=
          Function.update s.pendingCreatorPayoutOf token 0 }
      ∧ out.payout = none := by
  simp only [acceptCreatorPayout, bind_ok, revertIf_ok, pure_ok, not_not,
    not_or, Bool.not_eq_true] at h
  obtain ⟨_, hcto, _, ⟨hsender, hne⟩, rfl⟩ := h
  exact ⟨hcto, hsender, hne, rfl, rfl⟩

theorem cancelCreatorPayout_ok
    (h : cancelCreatorPayout msg s token = .ok out) :
    s.ctoActive token = false
      ∧ out.storage = { s with
        pendingCreatorPayoutOf :=
          Function.update s.pendingCreatorPayoutOf token 0 }
      ∧ out.payout = none := by
  simp only [cancelCreatorPayout, bind_ok, revertIf_ok, pure_ok,
    Bool.not_eq_true] at h
  obtain ⟨_, hcto, _, -, _, -, rfl⟩ := h
  exact ⟨hcto, rfl, rfl⟩

theorem proposeTreasury_ok {proposedTreasury : Address}
    (h : proposeTreasury msg s proposedTreasury = .ok out) :
    out.storage = { s with
        pendingTreasury := proposedTreasury
        pendingTreasuryAcceptAfter :=
          uint64 (msg.timestamp + TREASURY_ROTATION_DELAY) }
      ∧ out.payout = none := by
  simp only [proposeTreasury, onlyOwner, bind_ok, revertIf_ok, add_ok,
    pure_ok] at h
  obtain ⟨_, -, _, -, _, -, _, ⟨-, rfl⟩, rfl⟩ := h
  exact ⟨rfl, rfl⟩

theorem acceptTreasury_ok (h : acceptTreasury msg s = .ok out) :
    out.storage = { s with
        treasury := s.pendingTreasury
        pendingTreasury := 0
        pendingTreasuryAcceptAfter := 0 }
      ∧ out.payout = none := by
  simp only [acceptTreasury, bind_ok, revertIf_ok, pure_ok] at h
  obtain ⟨_, -, _, -, rfl⟩ := h
  exact ⟨rfl, rfl⟩

theorem cancelTreasuryProposal_ok
    (h : cancelTreasuryProposal msg s = .ok out) :
    out.storage = { s with
        pendingTreasury := 0
        pendingTreasuryAcceptAfter := 0 }
      ∧ out.payout = none := by
  simp only [cancelTreasuryProposal, onlyOwner, bind_ok, revertIf_ok,
    pure_ok] at h
  obtain ⟨_, -, _, -, rfl⟩ := h
  exact ⟨rfl, rfl⟩

theorem claimProtocolFees_ok (h : claimProtocolFees msg s = .ok out) :
    s.entered = false
      ∧ out.storage = { s with entered := true, protocolFeesAccrued := 0 }
      ∧ out.payout = some ⟨s.treasury, s.protocolFeesAccrued,
        .protocolFeesClaimed msg.sender s.protocolFeesAccrued⟩ := by
  simp only [claimProtocolFees, nonReentrant, bind_ok, revertIf_ok, pure_ok,
    Bool.not_eq_true] at h
  obtain ⟨_, hent, _, -, rfl⟩ := h
  exact ⟨hent, rfl, rfl⟩

theorem claimCreatorFees_ok (h : claimCreatorFees msg s token = .ok out) :
    s.entered = false
      ∧ s.creatorFeesAccrued token ≤ s.totalCreatorFeesAccrued
      ∧ out.storage = { s with
        entered := true
        creatorFeesAccrued := Function.update s.creatorFeesAccrued token 0
        totalCreatorFeesAccrued :=
          s.totalCreatorFeesAccrued - s.creatorFeesAccrued token }
      ∧ out.payout = some ⟨s.creatorPayoutOf token,
        s.creatorFeesAccrued token,
        .emit (.creatorFeesClaimed token (s.creatorPayoutOf token) msg.sender
          (s.creatorFeesAccrued token))⟩ := by
  simp only [claimCreatorFees, nonReentrant, bind_ok, revertIf_ok, sub_ok,
    pure_ok, Bool.not_eq_true] at h
  obtain ⟨_, hent, _, -, _, ⟨hle, rfl⟩, rfl⟩ := h
  exact ⟨hent, hle, rfl, rfl⟩

/-- The books after a checkpoint. -/
theorem checkpoint_ok {previousRecipient : Address}
    {r : FeeManagerStorage × List FeeManagerEvent}
    (h : checkpoint s token previousRecipient = .ok r) :
    r.1 = { s with
      creatorFeesAccrued := Function.update s.creatorFeesAccrued token 0
      checkpointedCreatorFees :=
        LedgerSum.update₂ s.checkpointedCreatorFees token previousRecipient
          (s.checkpointedCreatorFees token previousRecipient
            + s.creatorFeesAccrued token) } := by
  unfold checkpoint at h
  by_cases h0 : s.creatorFeesAccrued token = 0
  · -- nothing accrued: both writes put back what is there
    rw [if_neg (not_not.mpr h0)] at h
    have hr := pure_ok.mp h
    have hcreator : Function.update s.creatorFeesAccrued token 0
        = s.creatorFeesAccrued := by
      rw [← h0, Function.update_eq_self]
    have hrow : LedgerSum.update₂ s.checkpointedCreatorFees token
        previousRecipient
        (s.checkpointedCreatorFees token previousRecipient + 0)
        = s.checkpointedCreatorFees := by
      simp only [LedgerSum.update₂, Nat.add_zero, Function.update_eq_self]
    rw [← hr, h0, hcreator, hrow]
  · rw [if_pos h0] at h
    simp only [bind_ok, add_ok, pure_ok] at h
    obtain ⟨_, ⟨-, rfl⟩, rfl⟩ := h
    rfl

/-- **ACTIVATION** checkpoints the old recipient's fees, drops the pending
    payout and points the payout at the treasury. -/
theorem activateCTO_ok {ctoTreasury : Address}
    (h : activateCTO I V msg s token ctoTreasury = .ok out) :
    msg.sender = I.ctoRegistry ∧ s.ctoActive token = false
      ∧ s.creatorPayoutOf token ≠ 0 ∧ ctoTreasury ≠ 0
      ∧ V.hasCode ctoTreasury = true
      ∧ V.isCanonicalTreasury I.ctoRegistry token ctoTreasury = true
      ∧ out.storage = { s with
        creatorFeesAccrued := Function.update s.creatorFeesAccrued token 0
        checkpointedCreatorFees :=
          LedgerSum.update₂ s.checkpointedCreatorFees token
            (s.creatorPayoutOf token)
            (s.checkpointedCreatorFees token (s.creatorPayoutOf token)
              + s.creatorFeesAccrued token)
        pendingCreatorPayoutOf :=
          Function.update s.pendingCreatorPayoutOf token 0
        creatorPayoutOf := Function.update s.creatorPayoutOf token ctoTreasury
        ctoTreasuryOf := Function.update s.ctoTreasuryOf token ctoTreasury
        ctoActive := Function.update s.ctoActive token true }
      ∧ out.payout = none := by
  simp only [activateCTO, bind_ok, revertIf_ok, pure_ok, not_not, not_or,
    Bool.not_eq_true, Bool.not_eq_false] at h
  obtain ⟨_, hsender, _, hcto, _, ⟨hpayout, htreasury, hcode, hcanonical⟩, r,
    hr, rfl⟩ := h
  refine ⟨hsender, hcto, hpayout, htreasury, hcode, hcanonical, ?_, rfl⟩
  simp only [checkpoint_ok hr]

theorem claimCheckpointedCreatorFees_ok {recipient : Address}
    (h : claimCheckpointedCreatorFees msg s token recipient = .ok out) :
    s.entered = false
      ∧ s.checkpointedCreatorFees token recipient ≤ s.totalCreatorFeesAccrued
      ∧ out.storage = { s with
        entered := true
        checkpointedCreatorFees :=
          LedgerSum.update₂ s.checkpointedCreatorFees token recipient 0
        totalCreatorFeesAccrued := s.totalCreatorFeesAccrued
          - s.checkpointedCreatorFees token recipient }
      ∧ out.payout = some ⟨recipient,
        s.checkpointedCreatorFees token recipient,
        .emit (.checkpointedCreatorFeesClaimed token recipient msg.sender
          (s.checkpointedCreatorFees token recipient))⟩ := by
  simp only [claimCheckpointedCreatorFees, nonReentrant, bind_ok, revertIf_ok,
    sub_ok, pure_ok, Bool.not_eq_true] at h
  obtain ⟨_, hent, _, -, _, ⟨hle, rfl⟩, rfl⟩ := h
  exact ⟨hent, hle, rfl, rfl⟩

theorem fundCommunityVault_ok (h : fundCommunityVault msg s token = .ok out) :
    s.entered = false
      ∧ s.communityFeesAccruedByToken token ≤ s.communityFeesAccrued
      ∧ out.storage = { s with
        entered := true
        communityFeesAccruedByToken :=
          Function.update s.communityFeesAccruedByToken token 0
        communityFeesAccrued := s.communityFeesAccrued
          - s.communityFeesAccruedByToken token }
      ∧ out.payout = some ⟨s.communityVault,
        s.communityFeesAccruedByToken token,
        .emit (.communityVaultFunded token s.communityVault
          (s.communityFeesAccruedByToken token) msg.sender)⟩ := by
  simp only [fundCommunityVault, nonReentrant, bind_ok, revertIf_ok, sub_ok,
    pure_ok, Bool.not_eq_true] at h
  obtain ⟨_, hent, _, -, _, -, _, ⟨hle, rfl⟩, rfl⟩ := h
  exact ⟨hent, hle, rfl, rfl⟩

theorem fundTraderRewardsVault_ok
    (h : fundTraderRewardsVault msg s token = .ok out) :
    s.entered = false
      ∧ s.traderRewardsFeesAccruedByToken token ≤ s.traderRewardsFeesAccrued
      ∧ out.storage = { s with
        entered := true
        traderRewardsFeesAccruedByToken :=
          Function.update s.traderRewardsFeesAccruedByToken token 0
        traderRewardsFeesAccrued := s.traderRewardsFeesAccrued
          - s.traderRewardsFeesAccruedByToken token }
      ∧ out.payout = some ⟨s.traderRewardsVault,
        s.traderRewardsFeesAccruedByToken token,
        .emit (.traderRewardsVaultFunded token s.traderRewardsVault
          (s.traderRewardsFeesAccruedByToken token) msg.sender)⟩ := by
  simp only [fundTraderRewardsVault, nonReentrant, bind_ok, revertIf_ok,
    sub_ok, pure_ok, Bool.not_eq_true] at h
  obtain ⟨_, hent, _, -, _, -, _, ⟨hle, rfl⟩, rfl⟩ := h
  exact ⟨hent, hle, rfl, rfl⟩

/-- A change of owner touches the owner and the pending treasury only. -/
theorem transferOwnership_eq (newOwner : Address) :
    ∃ pendingTreasury pendingTreasuryAcceptAfter,
      (transferOwnership_ s newOwner).1 = { s with
        pendingTreasury, pendingTreasuryAcceptAfter
        pendingOwner := 0
        owner := newOwner } := by
  unfold transferOwnership_
  by_cases h0 : s.pendingTreasury = 0
  · exact ⟨s.pendingTreasury, s.pendingTreasuryAcceptAfter, by simp [h0]⟩
  · exact ⟨0, 0, by simp [h0]⟩

theorem transferOwnership_ok {newOwner : Address}
    (h : transferOwnership msg s newOwner = .ok out) :
    out.storage = { s with pendingOwner := newOwner }
      ∧ out.payout = none := by
  simp only [transferOwnership, onlyOwner, bind_ok, revertIf_ok, pure_ok] at h
  obtain ⟨_, -, rfl⟩ := h
  exact ⟨rfl, rfl⟩

theorem acceptOwnership_ok (h : acceptOwnership msg s = .ok out) :
    out.storage = (transferOwnership_ s msg.sender).1
      ∧ out.payout = none := by
  simp only [acceptOwnership, bind_ok, revertIf_ok, pure_ok] at h
  obtain ⟨_, -, rfl⟩ := h
  exact ⟨rfl, rfl⟩

theorem renounceOwnership_ok (h : renounceOwnership msg s = .ok out) :
    out.storage = (transferOwnership_ s 0).1 ∧ out.payout = none := by
  simp only [renounceOwnership, onlyOwner, bind_ok, revertIf_ok, pure_ok] at h
  obtain ⟨_, -, rfl⟩ := h
  exact ⟨rfl, rfl⟩

theorem call_ok {k : FeeManagerCall} (h : call I V msg s k = .ok out) :
    (k.payable = false → msg.value = 0)
      ∧ dispatch I V msg s k = .ok out := by
  simp only [call, bind_ok, revertIf_ok, not_and, not_not] at h
  obtain ⟨_, hvalue, hk⟩ := h
  exact ⟨hvalue, hk⟩

/-! ## Which function ran -/

/-- **WHICH FUNCTION RAN**: either one that touches neither the books nor the
    routes and moves no value, or one of the eleven that do. -/
inductive Ran (I : Immutables) (V : Views) (msg : Msg) (s : FeeManagerStorage)
    (out : Outcome) : FeeManagerCall → Prop where
  | administrative {k : FeeManagerCall}
      (hbooks : out.storage.toBooks = s.toBooks)
      (hroutes : out.storage.toRoutes = s.toRoutes)
      (hpayout : out.payout = none) (hvalue : msg.value = 0) :
      Ran I V msg s out k
  | registerToken {token curve creator : Address} (hvalue : msg.value = 0)
      (h : registerToken V msg s token curve creator = .ok out) :
      Ran I V msg s out (.registerToken token curve creator)
  | depositFees {token : Address} {totalFee creatorFee protocolFee
      communityFee traderRewardsFee : Nat} {isBuy : Bool}
      (h : depositFees msg s token totalFee creatorFee protocolFee
        communityFee traderRewardsFee isBuy = .ok out) :
      Ran I V msg s out (.depositFees token totalFee creatorFee protocolFee
        communityFee traderRewardsFee isBuy)
  | proposeCreatorPayout {token proposedPayout : Address}
      (hvalue : msg.value = 0)
      (h : proposeCreatorPayout msg s token proposedPayout = .ok out) :
      Ran I V msg s out (.proposeCreatorPayout token proposedPayout)
  | acceptCreatorPayout {token : Address} (hvalue : msg.value = 0)
      (h : acceptCreatorPayout msg s token = .ok out) :
      Ran I V msg s out (.acceptCreatorPayout token)
  | cancelCreatorPayout {token : Address} (hvalue : msg.value = 0)
      (h : cancelCreatorPayout msg s token = .ok out) :
      Ran I V msg s out (.cancelCreatorPayout token)
  | claimProtocolFees (hvalue : msg.value = 0)
      (h : claimProtocolFees msg s = .ok out) :
      Ran I V msg s out .claimProtocolFees
  | claimCreatorFees {token : Address} (hvalue : msg.value = 0)
      (h : claimCreatorFees msg s token = .ok out) :
      Ran I V msg s out (.claimCreatorFees token)
  | activateCTO {token ctoTreasury : Address} (hvalue : msg.value = 0)
      (h : activateCTO I V msg s token ctoTreasury = .ok out) :
      Ran I V msg s out (.activateCTO token ctoTreasury)
  | claimCheckpointedCreatorFees {token recipient : Address}
      (hvalue : msg.value = 0)
      (h : claimCheckpointedCreatorFees msg s token recipient = .ok out) :
      Ran I V msg s out (.claimCheckpointedCreatorFees token recipient)
  | fundCommunityVault {token : Address} (hvalue : msg.value = 0)
      (h : fundCommunityVault msg s token = .ok out) :
      Ran I V msg s out (.fundCommunityVault token)
  | fundTraderRewardsVault {token : Address} (hvalue : msg.value = 0)
      (h : fundTraderRewardsVault msg s token = .ok out) :
      Ran I V msg s out (.fundTraderRewardsVault token)

/-- **EVERY CALL THAT RETURNS** ran one function of the list. -/
theorem call_ran {k : FeeManagerCall} (h : call I V msg s k = .ok out) :
    Ran I V msg s out k := by
  obtain ⟨hvalue, hk⟩ := call_ok h
  cases k with
  | setFactoryOnce factory_ =>
      obtain ⟨hs, hpayout⟩ := setFactoryOnce_ok hk
      exact .administrative (by rw [hs]) (by rw [hs]) hpayout (hvalue rfl)
  | bindEcosystemVaultsOnce communityVault_ traderRewardsVault_ =>
      obtain ⟨hs, hpayout⟩ := bindEcosystemVaultsOnce_ok hk
      exact .administrative (by rw [hs]) (by rw [hs]) hpayout (hvalue rfl)
  | proposeTreasury proposedTreasury =>
      obtain ⟨hs, hpayout⟩ := proposeTreasury_ok hk
      exact .administrative (by rw [hs]) (by rw [hs]) hpayout (hvalue rfl)
  | acceptTreasury =>
      obtain ⟨hs, hpayout⟩ := acceptTreasury_ok hk
      exact .administrative (by rw [hs]) (by rw [hs]) hpayout (hvalue rfl)
  | cancelTreasuryProposal =>
      obtain ⟨hs, hpayout⟩ := cancelTreasuryProposal_ok hk
      exact .administrative (by rw [hs]) (by rw [hs]) hpayout (hvalue rfl)
  | transferOwnership newOwner =>
      obtain ⟨hs, hpayout⟩ := transferOwnership_ok hk
      exact .administrative (by rw [hs]) (by rw [hs]) hpayout (hvalue rfl)
  | acceptOwnership =>
      obtain ⟨hs, hpayout⟩ := acceptOwnership_ok hk
      obtain ⟨p, after, howner⟩ := transferOwnership_eq (s := s) msg.sender
      exact .administrative (by rw [hs, howner]) (by rw [hs, howner]) hpayout
        (hvalue rfl)
  | renounceOwnership =>
      obtain ⟨hs, hpayout⟩ := renounceOwnership_ok hk
      obtain ⟨p, after, howner⟩ := transferOwnership_eq (s := s) 0
      exact .administrative (by rw [hs, howner]) (by rw [hs, howner]) hpayout
        (hvalue rfl)
  | registerToken token curve creator =>
      exact .registerToken (hvalue rfl) hk
  | depositFees token totalFee creatorFee protocolFee communityFee
      traderRewardsFee isBuy => exact .depositFees hk
  | proposeCreatorPayout token proposedPayout =>
      exact .proposeCreatorPayout (hvalue rfl) hk
  | acceptCreatorPayout token => exact .acceptCreatorPayout (hvalue rfl) hk
  | cancelCreatorPayout token => exact .cancelCreatorPayout (hvalue rfl) hk
  | claimProtocolFees => exact .claimProtocolFees (hvalue rfl) hk
  | claimCreatorFees token => exact .claimCreatorFees (hvalue rfl) hk
  | activateCTO token ctoTreasury => exact .activateCTO (hvalue rfl) hk
  | claimCheckpointedCreatorFees token recipient =>
      exact .claimCheckpointedCreatorFees (hvalue rfl) hk
  | fundCommunityVault token => exact .fundCommunityVault (hvalue rfl) hk
  | fundTraderRewardsVault token =>
      exact .fundTraderRewardsVault (hvalue rfl) hk

/-! ## The fee route -/

/-- What a call that is not the registry's leaves of a token's fee route: the
    hand-over flags always, the registration once it is made, and the payout
    slots once the token is handed over. -/
structure KeepsRoute (r r' : Routes) : Prop where
  active : r'.ctoActive = r.ctoActive
  treasuryOf : r'.ctoTreasuryOf = r.ctoTreasuryOf
  registered : ∀ t, r.curveOf t ≠ 0 →
    r'.curveOf t = r.curveOf t ∧ r'.creatorOf t = r.creatorOf t
  payout : ∀ t, r.curveOf t ≠ 0 → r.ctoActive t = true →
    r'.creatorPayoutOf t = r.creatorPayoutOf t
      ∧ r'.pendingCreatorPayoutOf t = r.pendingCreatorPayoutOf t

theorem KeepsRoute.of_eq {r r' : Routes} (h : r' = r) : KeepsRoute r r' := by
  rw [h]
  exact ⟨rfl, rfl, fun _ _ => ⟨rfl, rfl⟩, fun _ _ _ => ⟨rfl, rfl⟩⟩

/-- A write to the payout slots of a token that is not handed over. -/
theorem KeepsRoute.payouts {r : Routes} {payout pending : Address → Address}
    (hcto : r.ctoActive token = false)
    (hpayout : ∀ t, t ≠ token → payout t = r.creatorPayoutOf t)
    (hpending : ∀ t, t ≠ token → pending t = r.pendingCreatorPayoutOf t) :
    KeepsRoute r { r with
      creatorPayoutOf := payout
      pendingCreatorPayoutOf := pending } := by
  refine ⟨rfl, rfl, fun _ _ => ⟨rfl, rfl⟩, ?_⟩
  intro t _ hactive
  have hne : t ≠ token := by
    intro heq
    rw [heq, hcto] at hactive
    exact nomatch hactive
  exact ⟨hpayout t hne, hpending t hne⟩

/-- Every call but an activation keeps the fee routes. -/
theorem call_keepsRoute_of_ne {k : FeeManagerCall}
    (h : call I V msg s k = .ok out)
    (hother : ∀ token ctoTreasury, k ≠ .activateCTO token ctoTreasury) :
    KeepsRoute s.toRoutes out.storage.toRoutes := by
  cases call_ran h with
  | administrative _ hroutes _ _ => exact KeepsRoute.of_eq hroutes
  | @registerToken t curve creator _ hk =>
      obtain ⟨hfresh, -, -, hs, -⟩ := registerToken_ok hk
      have hne : ∀ t', s.curveOf t' ≠ 0 → t' ≠ t := by
        intro t' hreg heq
        rw [heq] at hreg
        exact hreg hfresh
      rw [hs]
      refine ⟨rfl, rfl, ?_, ?_⟩
      · intro t' hreg
        exact ⟨Function.update_of_ne (hne t' hreg) _ _,
          Function.update_of_ne (hne t' hreg) _ _⟩
      · intro t' hreg _
        exact ⟨Function.update_of_ne (hne t' hreg) _ _, rfl⟩
  | proposeCreatorPayout _ hk =>
      obtain ⟨hcto, -, hs, -⟩ := proposeCreatorPayout_ok hk
      rw [hs]
      exact KeepsRoute.payouts hcto (fun _ _ => rfl)
        (fun _ hne => Function.update_of_ne hne _ _)
  | acceptCreatorPayout _ hk =>
      obtain ⟨hcto, -, -, hs, -⟩ := acceptCreatorPayout_ok hk
      rw [hs]
      exact KeepsRoute.payouts hcto
        (fun _ hne => Function.update_of_ne hne _ _)
        (fun _ hne => Function.update_of_ne hne _ _)
  | cancelCreatorPayout _ hk =>
      obtain ⟨hcto, hs, -⟩ := cancelCreatorPayout_ok hk
      rw [hs]
      exact KeepsRoute.payouts hcto (fun _ _ => rfl)
        (fun _ hne => Function.update_of_ne hne _ _)
  | activateCTO _ _ => exact absurd rfl (hother _ _)
  | depositFees hk =>
      obtain ⟨-, -, -, hs, -⟩ := depositFees_ok hk
      exact KeepsRoute.of_eq (by rw [hs])
  | claimProtocolFees _ hk =>
      obtain ⟨-, hs, -⟩ := claimProtocolFees_ok hk
      exact KeepsRoute.of_eq (by rw [hs])
  | claimCreatorFees _ hk =>
      obtain ⟨-, -, hs, -⟩ := claimCreatorFees_ok hk
      exact KeepsRoute.of_eq (by rw [hs])
  | claimCheckpointedCreatorFees _ hk =>
      obtain ⟨-, -, hs, -⟩ := claimCheckpointedCreatorFees_ok hk
      exact KeepsRoute.of_eq (by rw [hs])
  | fundCommunityVault _ hk =>
      obtain ⟨-, -, hs, -⟩ := fundCommunityVault_ok hk
      exact KeepsRoute.of_eq (by rw [hs])
  | fundTraderRewardsVault _ hk =>
      obtain ⟨-, -, hs, -⟩ := fundTraderRewardsVault_ok hk
      exact KeepsRoute.of_eq (by rw [hs])

/-- **ONLY THE REGISTRY** moves the fee route of a token once it is handed
    over. -/
theorem call_keepsRoute {k : FeeManagerCall} (h : call I V msg s k = .ok out)
    (hsender : msg.sender ≠ I.ctoRegistry) :
    KeepsRoute s.toRoutes out.storage.toRoutes := by
  refine call_keepsRoute_of_ne h ?_
  rintro token ctoTreasury rfl
  exact hsender (activateCTO_ok (call_ok h).2).1

/-- **A REGISTRATION STAYS**, whoever calls what. -/
theorem call_registered {k : FeeManagerCall} (h : call I V msg s k = .ok out)
    {t : Address} (ht : s.curveOf t ≠ 0) :
    out.storage.curveOf t = s.curveOf t
      ∧ out.storage.creatorOf t = s.creatorOf t := by
  by_cases hk : ∃ token ctoTreasury, k = .activateCTO token ctoTreasury
  · obtain ⟨token, ctoTreasury, rfl⟩ := hk
    obtain ⟨-, -, -, -, -, -, hs, -⟩ := activateCTO_ok (call_ok h).2
    rw [hs]
    exact ⟨rfl, rfl⟩
  · refine (call_keepsRoute_of_ne h ?_).registered t ht
    exact fun token ctoTreasury heq => hk ⟨token, ctoTreasury, heq⟩

/-- Only the registry checkpoints: every other call lowers a checkpoint at
    most. -/
theorem call_checkpointed {k : FeeManagerCall}
    (h : call I V msg s k = .ok out) (hsender : msg.sender ≠ I.ctoRegistry)
    (t r : Address) :
    out.storage.checkpointedCreatorFees t r
      ≤ s.checkpointedCreatorFees t r := by
  cases call_ran h with
  | administrative hbooks _ _ _ =>
      exact Nat.le_of_eq (congrFun (congrFun
        (congrArg Books.checkpointedCreatorFees hbooks) t) r)
  | activateCTO _ hk => exact absurd (activateCTO_ok hk).1 hsender
  | @claimCheckpointedCreatorFees token recipient _ hk =>
      obtain ⟨-, -, hs, -⟩ := claimCheckpointedCreatorFees_ok hk
      rw [hs]
      show LedgerSum.update₂ s.checkpointedCreatorFees token recipient 0 t r
        ≤ s.checkpointedCreatorFees t r
      by_cases ht : t = token
      · subst ht
        by_cases hr : r = recipient
        · subst hr
          rw [LedgerSum.update₂_self]
          exact Nat.zero_le _
        · rw [LedgerSum.update₂_of_ne_right _ _ _ _ hr]
      · rw [LedgerSum.update₂_of_ne _ _ _ _ ht]
  | registerToken _ hk =>
      obtain ⟨-, -, -, hs, -⟩ := registerToken_ok hk
      rw [hs]
  | depositFees hk =>
      obtain ⟨-, -, -, hs, -⟩ := depositFees_ok hk
      rw [hs]
  | proposeCreatorPayout _ hk =>
      obtain ⟨-, -, hs, -⟩ := proposeCreatorPayout_ok hk
      rw [hs]
  | acceptCreatorPayout _ hk =>
      obtain ⟨-, -, -, hs, -⟩ := acceptCreatorPayout_ok hk
      rw [hs]
  | cancelCreatorPayout _ hk =>
      obtain ⟨-, hs, -⟩ := cancelCreatorPayout_ok hk
      rw [hs]
  | claimProtocolFees _ hk =>
      obtain ⟨-, hs, -⟩ := claimProtocolFees_ok hk
      rw [hs]
  | claimCreatorFees _ hk =>
      obtain ⟨-, -, hs, -⟩ := claimCreatorFees_ok hk
      rw [hs]
  | fundCommunityVault _ hk =>
      obtain ⟨-, -, hs, -⟩ := fundCommunityVault_ok hk
      rw [hs]
  | fundTraderRewardsVault _ hk =>
      obtain ⟨-, -, hs, -⟩ := fundTraderRewardsVault_ok hk
      rw [hs]

/-- What is left to do after a payout releases the lock and nothing else. -/
theorem finish_eq (receipt : Option Receipt) (s : FeeManagerStorage) :
    (finish receipt s).1
      = { s with entered := s.entered && receipt.isNone } := by
  match receipt with
  | none => simp [finish]
  | some (.protocolFeesClaimed _ _) => simp [finish]
  | some (.emit _) => simp [finish]

end Inversion

/-- What contracts answer that know one token, 21, of the curve 20 and the
    creator 22; these addresses have code. -/
def oneTokenViews (code : List Address) : Views where
  hasCode a := a ∈ code
  protocolVersionHash _ := PROTOCOL_VERSION_HASH
  feePolicyHash _ := 0
  feeManager _ := 11
  graduationManager _ := 13
  tokenInfo _ _ := (22, 20)
  isToken _ _ := true
  curveOf _ _ := 20
  factory _ := 10
  token _ := 21
  creator _ := 22
  initialized _ := true
  isCanonicalTreasury _ _ _ := false

end FeeManager
