import Cooket.CheckedArithProofs

/-! # What every contract of the protocol is written against

    Addresses, the errors a call can end with, and the one library function the
    sources import for their arithmetic but do not contain: OpenZeppelin's
    full-precision `Math.mulDiv`.  It is taken as a PARAMETER with the property
    its documentation promises, the exact quotient rounded the asked way
    whenever the quotient fits in a word. -/

namespace Contract

open CheckedArith

/-- A 20-byte account address. -/
abbrev Address := Fin (2 ^ 160)

/-- Some address is the zero address. -/
instance instNeZeroAddresses : NeZero (2 ^ 160) := ⟨by norm_num⟩

/-- Some word is the zero word. -/
instance instNeZeroWords : NeZero (2 ^ 256) := ⟨by norm_num⟩

instance instLawfulBEqAddress : @LawfulBEq Address instBEqOfDecidableEq :=
  inferInstance

/-- The context of a call. -/
structure Msg where
  sender : Address
  value : Nat
  timestamp : Nat
  deriving DecidableEq, Repr

/-- The conversion `uint64(n)`. -/
def uint64 (n : Nat) : Nat := n % uint64Bound

/-- The errors of `ICooketCurveV3`. -/
inductive CurveError where
  | deadlineExpired
  | dustTrade
  | graduationAccountingMismatch
  | insufficientCurveInventory
  | insufficientReserve
  | invalidAmount
  | invalidRecipient
  | nativeTransferFailed
  | slippageExceeded
  | tradingClosed
  | unexpectedNativeUsdc
  deriving DecidableEq, Repr

/-- The errors of `IFeeManagerV3`. -/
inductive FeeManagerError where
  | creatorPayoutUnchanged
  | factoryAlreadySet
  | factoryNotSet
  | invalidCreator
  | invalidCurve
  | invalidFactory
  | invalidFeeValue
  | invalidFeeSplit
  | ecosystemVaultsAlreadySet
  | ecosystemVaultsNotSet
  | invalidEcosystemVault
  | invalidPayoutRecipient
  | invalidToken
  | invalidTreasury
  | nativeTransferFailed
  | nothingToClaim
  | nothingToFund
  | tokenAlreadyRegistered
  | treasuryDelayNotElapsed
  | treasuryUnchanged
  | unauthorizedCreator
  | unauthorizedCurve
  | unauthorizedFactory
  | unauthorizedPendingPayout
  | unauthorizedPendingTreasury
  | noPendingProposal
  | unauthorizedBootstrap
  | factoryVersionMismatch
  | tokenRelationshipMismatch
  | ctoAlreadyActive
  | ctoActive
  | invalidCTOTreasury
  | unauthorizedCTORegistry
  | ownableUnauthorizedAccount
  deriving DecidableEq, Repr

/-- The errors of `ICTORegistryV3`. -/
inductive RegistryError where
  | acceptanceWindowExpired
  | controllerIsTreasury
  | executionGraceExpired
  | invalidCanonicalRelationship
  | invalidController
  | invalidMetadata
  | invalidProposalState
  | invalidTreasury
  | liveProposalExists
  | proposalNotFound
  | staleCreatorPayout
  | timelockNotElapsed
  | tokenAlreadyCTOActive
  | unauthorizedCreator
  | unauthorizedTreasury
  deriving DecidableEq, Repr

/-- The errors of `ICTOTreasuryV3` that the hand-over can meet. -/
inductive TreasuryError where
  | invalidAsset
  | invalidController
  | invalidRegistry
  | unauthorizedController
  deriving DecidableEq, Repr

/-- The errors of `IPermanentLPFeeVaultV3`. -/
inductive VaultError where
  | insufficientLPFeeBacking (asset : Address) (available required : Nat)
  | invalidEcosystemVault
  | invalidLPFeeAsset
  | nothingToClaimLPFees
  | unauthorizedPermanentCustodian
  deriving DecidableEq, Repr

/-- The errors of `IPermanentLPCustodianV3`. -/
inductive CustodianError where
  | alreadyRegistered
  | invalidDependency
  | invalidPosition
  | invalidTokenId
  | positionNotRegistered
  | unauthorizedGraduationManager
  deriving DecidableEq, Repr

/-- The errors of `IPermanentLPCustodianDeployerV3`. -/
inductive DeployerError where
  | custodianAlreadyDeployed
  | invalidDependency
  | invalidLaunchToken
  | unauthorizedGraduationManager
  deriving DecidableEq, Repr

/-- The errors of `IPermanentResidualEscrowV3`. -/
inductive EscrowError where
  | invalidDependency
  | unauthorizedDeposit
  | unsupportedAsset
  | zeroAmount
  | insufficientBacking
  | invalidNativeUsdcDust
  deriving DecidableEq, Repr

/-- The errors a graduation can meet in the manager and its boundary. -/
inductive ManagerError where
  | dependenciesNotBound
  | settlementMismatch
  | alreadyGraduated
  | factoryNotSet
  | invalidCreator
  | invalidCurve
  | invalidToken
  | launchAlreadyRegistered
  | launchNotRegistered
  | launchRelationshipMismatch
  | poolReservationMismatch
  | unauthorizedCurve
  | unauthorizedFactory
  deriving DecidableEq, Repr

/-- The errors of `GraduationSettlementExecutorV3`. -/
inductive ExecutorError where
  | invalidDependency
  | unauthorizedCaller
  | settlementMismatch
  deriving DecidableEq, Repr

/-- The errors of `ArcNativeUsdcV3`. -/
inductive ArcError where
  | nativeUsdcAmountNotExactlyRepresentable (nativeUsdcAmount : Nat)
  | usdc6ToNativeUsdcOverflow (usdc6Amount : Nat)
  deriving DecidableEq, Repr

/-- How a call can end without returning. -/
inductive Revert where
  /-- A checked arithmetic operation did not fit. -/
  | panic
  /-- OpenZeppelin's `nonReentrant`: the function was entered already. -/
  | reentrantCall
  /-- Value was sent to a function that takes none. -/
  | nonPayable
  /-- The sender of a value transfer does not hold the amount. -/
  | insufficientValue
  /-- Nobody can send a transaction from this address. -/
  | impossibleSender
  /-- A call into code outside the sources failed. -/
  | external
  | curve (e : CurveError)
  | fees (e : FeeManagerError)
  | registry (e : RegistryError)
  | treasury (e : TreasuryError)
  | vault (e : VaultError)
  | custodian (e : CustodianError)
  | deployer (e : DeployerError)
  | escrow (e : EscrowError)
  | manager (e : ManagerError)
  | executor (e : ExecutorError)
  | arc (e : ArcError)
  deriving DecidableEq, Repr

instance : Panics Revert := ⟨.panic⟩

/-- OpenZeppelin's `Math.mulDiv`, rounded down and rounded up. -/
class MulDiv where
  mulDiv : Nat → Nat → Nat → Except Revert Nat
  mulDivCeil : Nat → Nat → Nat → Except Revert Nat
  mulDiv_floor : ∀ x y d, x < uintBound → y < uintBound → d < uintBound →
    0 < d → x * y / d < uintBound → mulDiv x y d = .ok (x * y / d)
  mulDivCeil_ceil : ∀ x y d, x < uintBound → y < uintBound → d < uintBound →
    0 < d → (x * y) ⌈/⌉ d < uintBound → mulDivCeil x y d = .ok ((x * y) ⌈/⌉ d)

/-- The documented behaviour, as a program. -/
@[reducible] def exactMulDiv : MulDiv where
  mulDiv x y d :=
    if 0 < d ∧ x * y / d < uintBound then .ok (x * y / d) else .error .panic
  mulDivCeil x y d :=
    if 0 < d ∧ (x * y) ⌈/⌉ d < uintBound then .ok ((x * y) ⌈/⌉ d)
    else .error .panic
  mulDiv_floor x y d _ _ _ hd hq := by rw [if_pos ⟨hd, hq⟩]
  mulDivCeil_ceil x y d _ _ _ hd hq := by rw [if_pos ⟨hd, hq⟩]

/-- One percentage of an amount that fits. -/
theorem mulDiv_percent [MulDiv] {x p : Nat} (hx : x < uintBound)
    (hp : p ≤ 100) : MulDiv.mulDiv x p 100 = .ok (x * p / 100) := by
  have hq : x * p / 100 ≤ x :=
    Nat.div_le_of_le_mul (by
      rw [Nat.mul_comm 100 x]
      exact Nat.mul_le_mul_left x hp)
  have h100 : (100 : Nat) < uintBound := by decide
  exact MulDiv.mulDiv_floor x p 100 hx (by omega) h100 (by decide)
    (Nat.lt_of_le_of_lt hq hx)

end Contract
