import Cooket.LPVaultProofs
import Cooket.ReentrantProofs
import Cooket.TokenLedgerProofs

/-! # The community vault and the trader rewards vault

    `TokenCommunityVaultV3` and `TraderRewardsVaultV3`: what the fee manager
    and the LP fee vault set aside, booked by launch token and asset, and paid
    out to the treasury and to claimants.

    The native coin and the ERC-20 face of USDC are the SAME coins: a balance
    of the latter is the former divided by `10 ^ 12`, rounded down, and a
    transfer of one unit moves `10 ^ 12` of the native coin.  The two vaults
    book both, so one balance backs two ledgers.

    `Slack` is the argument: no call lowers what a vault holds by more than
    what it owes.  It is a PREORDER, and every call respects it with whatever
    its callee does in between, so the run rule carries it through every run.

    Both vaults keep their books alike.  Each function they share is written
    once, with the vault as its argument. -/

namespace EcosystemVault

open CheckedArith Contract Endpoint LedgerSum Reentrant TokenLedger
open LPVault (CANONICAL_USDC)

/-! ## State -/

/-- The errors of `ITokenCommunityVaultV3` and `ITraderRewardsVaultV3`. -/
inductive EcosystemError where
  | distributorAlreadySet
  | insufficientBacking (asset : Address) (available required : Nat)
  | insufficientRewardsBalance
  | invalidAmount
  | invalidDependency
  | invalidTreasury
  | lpFeeVaultAlreadySet
  | nativeTransferFailed
  | noPendingProposal
  | nothingToForward
  | treasuryDelayNotElapsed
  | treasuryUnchanged
  | unauthorizedBootstrap
  | unauthorizedDistributor
  | unauthorizedFundingSource
  | unauthorizedPendingTreasury
  deriving DecidableEq, Repr

/-- The errors of `ITraderRewardsDistributorV3`. -/
inductive DistributorError where
  | alreadyClaimed
  | distributionAlreadyPublished
  | distributionNotPublished
  | invalidAmount
  | invalidMerkleProof
  | invalidRoot
  | invalidToken
  deriving DecidableEq, Repr

/-- How a call of one of these contracts can end without returning. -/
inductive Failure where
  | panic
  | reentrantCall
  | insufficientValue
  | impossibleSender
  | external
  | ownableUnauthorizedAccount
  | feeVault (e : VaultError)
  | ecosystem (e : EcosystemError)
  | distributor (e : DistributorError)
  deriving DecidableEq, Repr

instance : Panics Failure := ⟨.panic⟩

/-- The two vaults. -/
inductive Vault where
  | community
  | rewards
  deriving DecidableEq, Repr

/-- The addresses of a deployment.  Governance wires each vault to a contract
    that answers as its fee vault, and the rewards vault to one that answers
    as its distributor; these are the ones deployed for it. -/
structure Deployment where
  feeManager : Address
  permanentLPFeeVault : Address
  distributor : Address
  address : Vault → Address
  answersAsFeeVault : Vault → Address → Bool
  answersAsDistributor : Address → Bool
  feeVault_unique : ∀ v a, answersAsFeeVault v a = true →
    a = permanentLPFeeVault
  distributor_unique : ∀ a, answersAsDistributor a = true → a = distributor
  address_ne : address .community ≠ address .rewards
  feeManager_ne : ∀ v, feeManager ≠ address v
  feeVault_ne : ∀ v, permanentLPFeeVault ≠ address v

/-- The part of their storage both vaults have. -/
structure VaultStorage where
  entered : Bool
  permanentLPFeeVault : Address
  /-- `lpFeeVaultBootstrapAuthority` of the community vault,
      `bootstrapAuthority` of the rewards vault. -/
  bootstrapAuthority : Address
  accrued : Address → Address → Nat
  totalAccrued : Address → Nat

/-- The governance of the community vault. -/
structure Governance where
  owner : Address
  pendingOwner : Address
  treasury : Address
  pendingTreasury : Address
  pendingTreasuryAcceptAfter : Nat
  deriving DecidableEq, Repr

/-- What was booked and what was paid. -/
inductive Line where
  | funded (v : Vault) (launchToken asset : Address) (amount : Nat)
  | forwarded (launchToken asset recipient : Address) (amount : Nat)
  | paid (launchToken asset claimant : Address) (amount : Nat)
  deriving DecidableEq, Repr

/-- The state of everything the vaults touch. -/
structure World (τ : Type) where
  now : Nat
  native : Address → Nat
  /-- The tokens other than USDC, by address. -/
  tokens : Address → τ
  books : Vault → VaultStorage
  governance : Governance
  distributor : Address
  feeVault : LPVault.VaultStorage
  journal : List Line

variable {τ : Type}

namespace World

def setBooks (w : World τ) (v : Vault) (s : VaultStorage) : World τ :=
  { w with books := Function.update w.books v s }

def log (w : World τ) (l : Line) : World τ :=
  { w with journal := w.journal ++ [l] }

section Assets

variable [Erc20 Address Failure τ]

/-- `IERC20(asset).balanceOf`. -/
def assetBalanceOf (w : World τ) (asset a : Address) : Nat :=
  if asset = CANONICAL_USDC then w.native a / NATIVE_PER_ERC20_BASE_UNIT
  else Erc20.balanceOf Failure (w.tokens asset) a

/-- `safeTransfer`. -/
def safeTransfer (w : World τ) (src asset dst : Address) (amount : Nat) :
    Except Failure (World τ) :=
  if asset = CANONICAL_USDC then do
    revertIf (w.native src < amount * NATIVE_PER_ERC20_BASE_UNIT) .external
    pure { w with
      native := move w.native src dst (amount * NATIVE_PER_ERC20_BASE_UNIT) }
  else do
    let t ← Erc20.transfer (w.tokens asset) src dst amount
    pure { w with tokens := Function.update w.tokens asset t }

end Assets

end World

/-! ## The functions -/

section Functions

variable [Erc20 Address Failure τ] (D : Deployment) (w : World τ)

/-- `depositNative` of either vault, with its value. -/
def deposit (v : Vault) (sender launchToken : Address) (value : Nat) :
    Except Failure (World τ) := do
  revertIf (w.native sender < value) .insufficientValue
  let w := { w with native := move w.native sender (D.address v) value }
  revertIf (sender ≠ D.feeManager) (.ecosystem .unauthorizedFundingSource)
  revertIf (launchToken = 0 ∨ value = 0) (.ecosystem .invalidAmount)
  let s := w.books v
  let entry ← add (s.accrued launchToken 0) value
  let total ← add (s.totalAccrued 0) value
  let w := w.setBooks v { s with
    accrued := update₂ s.accrued launchToken 0 entry
    totalAccrued := Function.update s.totalAccrued 0 total }
  pure (w.log (.funded v launchToken 0 value))

/-- `recordERC20Funding` of either vault. -/
def recordERC20Funding (v : Vault) (sender launchToken asset : Address)
    (amount : Nat) : Except Failure (World τ) := do
  let s := w.books v
  revertIf (s.entered = true) .reentrantCall
  revertIf (sender ≠ s.permanentLPFeeVault ∨ s.permanentLPFeeVault = 0)
    (.ecosystem .unauthorizedFundingSource)
  revertIf (launchToken = 0 ∨ asset = 0 ∨ amount = 0)
    (.ecosystem .invalidAmount)
  let required ← add (s.totalAccrued asset) amount
  let available := w.assetBalanceOf asset (D.address v)
  revertIf (available < required)
    (.ecosystem (.insufficientBacking asset available required))
  let entry ← add (s.accrued launchToken asset) amount
  let w := w.setBooks v { s with
    accrued := update₂ s.accrued launchToken asset entry
    totalAccrued := Function.update s.totalAccrued asset required }
  pure (w.log (.funded v launchToken asset amount))

/-- A vault pays.  The `receive` of both vaults reverts. -/
def pay (v : Vault) (asset recipient : Address) (amount : Nat) :
    Except Failure (World τ) :=
  if asset = 0 then do
    revertIf (w.native (D.address v) < amount
        ∨ recipient = D.address .community ∨ recipient = D.address .rewards)
      (.ecosystem .nativeTransferFailed)
    pure { w with native := move w.native (D.address v) recipient amount }
  else w.safeTransfer (D.address v) asset recipient amount

/-- `forwardToTreasury`, up to the moment the recipient has control. -/
def forwardToTreasury (launchToken asset : Address) :
    Except Failure (World τ) := do
  let s := w.books .community
  revertIf (s.entered = true) .reentrantCall
  let amount := s.accrued launchToken asset
  revertIf (amount = 0) (.ecosystem .nothingToForward)
  let total ← sub (s.totalAccrued asset) amount
  let recipient := w.governance.treasury
  let w := w.setBooks .community { s with
    entered := true
    accrued := update₂ s.accrued launchToken asset 0
    totalAccrued := Function.update s.totalAccrued asset total }
  let w ← pay D w .community asset recipient amount
  pure (w.log (.forwarded launchToken asset recipient amount))

/-- `payout`, up to the moment the claimant has control. -/
def payout (sender launchToken asset claimant : Address) (amount : Nat) :
    Except Failure (World τ) := do
  let s := w.books .rewards
  revertIf (s.entered = true) .reentrantCall
  revertIf (sender ≠ w.distributor ∨ w.distributor = 0)
    (.ecosystem .unauthorizedDistributor)
  revertIf (claimant = 0 ∨ amount = 0) (.ecosystem .invalidAmount)
  let available := s.accrued launchToken asset
  revertIf (available < amount) (.ecosystem .insufficientRewardsBalance)
  let total ← sub (s.totalAccrued asset) amount
  let w := w.setBooks .rewards { s with
    entered := true
    accrued := update₂ s.accrued launchToken asset (available - amount)
    totalAccrued := Function.update s.totalAccrued asset total }
  let w ← pay D w .rewards asset claimant amount
  pure (w.log (.paid launchToken asset claimant amount))

/-- The rows of the fee vault a vault is funded from. -/
def share (s : LPVault.VaultStorage) : Vault → Address → Address → Nat
  | .community => s.communityLPFeesAccrued
  | .rewards => s.traderRewardsLPFeesAccrued

/-- One of these rows is cleared. -/
def clearShare (s : LPVault.VaultStorage) (launchToken asset : Address) :
    Vault → LPVault.VaultStorage
  | .community =>
      { s with
        communityLPFeesAccrued :=
          update₂ s.communityLPFeesAccrued launchToken asset 0 }
  | .rewards =>
      { s with
        traderRewardsLPFeesAccrued :=
          update₂ s.traderRewardsLPFeesAccrued launchToken asset 0 }

/-- The fee vault's `fundCommunityVault` and `fundTraderRewardsVault`, up to
    the transfer, in which the code of the asset has control.  With the amount
    and the balance before it. -/
def fund (v : Vault) (launchToken asset : Address) :
    Except Failure (World τ × Nat × Nat) := do
  let s := w.feeVault
  revertIf (s.entered = true) .reentrantCall
  revertIf (asset = 0) (.feeVault .invalidLPFeeAsset)
  let amount := share s v launchToken asset
  revertIf (amount = 0) (.feeVault .nothingToClaimLPFees)
  let total ← sub (s.totalLPFeesAccrued asset) amount
  let s := { clearShare s launchToken asset v with
    entered := true
    totalLPFeesAccrued := Function.update s.totalLPFeesAccrued asset total }
  let w := { w with feeVault := s }
  let balanceBefore := w.assetBalanceOf asset (D.address v)
  let w ← w.safeTransfer D.permanentLPFeeVault asset (D.address v) amount
  pure (w, amount, balanceBefore)

/-- The same functions, after the transfer. -/
def fundRest (v : Vault) (launchToken asset : Address)
    (amount balanceBefore : Nat) : Except Failure (World τ) := do
  let expected ← add balanceBefore amount
  revertIf (w.assetBalanceOf asset (D.address v) ≠ expected)
    (.feeVault .invalidEcosystemVault)
  let w ← recordERC20Funding D w v D.permanentLPFeeVault launchToken asset
    amount
  pure { w with feeVault := { w.feeVault with entered := false } }

end Functions

/-! ## Governance -/

section Governance

variable (D : Deployment) (w : World τ)

/-- `setPermanentLPFeeVaultOnce` of the community vault. -/
def setCommunityFeeVaultOnce (sender vault : Address) :
    Except Failure (World τ) := do
  let s := w.books .community
  revertIf (s.permanentLPFeeVault ≠ 0) (.ecosystem .lpFeeVaultAlreadySet)
  revertIf (sender ≠ s.bootstrapAuthority ∨ s.bootstrapAuthority = 0)
    (.ecosystem .unauthorizedBootstrap)
  revertIf (vault = 0 ∨ D.answersAsFeeVault .community vault = false)
    (.ecosystem .invalidDependency)
  pure (w.setBooks .community
    { s with permanentLPFeeVault := vault, bootstrapAuthority := 0 })

/-- `_consumeBootstrapIfComplete`. -/
def consumeBootstrapIfComplete (s : VaultStorage) (distributor : Address) :
    VaultStorage :=
  if distributor ≠ 0 ∧ s.permanentLPFeeVault ≠ 0 then
    { s with bootstrapAuthority := 0 }
  else s

/-- `setPermanentLPFeeVaultOnce` of the rewards vault. -/
def setRewardsFeeVaultOnce (sender vault : Address) :
    Except Failure (World τ) := do
  let s := w.books .rewards
  revertIf (s.permanentLPFeeVault ≠ 0) (.ecosystem .lpFeeVaultAlreadySet)
  revertIf (sender ≠ s.bootstrapAuthority ∨ s.bootstrapAuthority = 0)
    (.ecosystem .unauthorizedBootstrap)
  revertIf (vault = 0 ∨ D.answersAsFeeVault .rewards vault = false)
    (.ecosystem .invalidDependency)
  pure (w.setBooks .rewards (consumeBootstrapIfComplete
    { s with permanentLPFeeVault := vault } w.distributor))

/-- `setDistributorOnce`. -/
def setDistributorOnce (sender distributor : Address) :
    Except Failure (World τ) := do
  let s := w.books .rewards
  revertIf (w.distributor ≠ 0) (.ecosystem .distributorAlreadySet)
  revertIf (sender ≠ s.bootstrapAuthority ∨ s.bootstrapAuthority = 0)
    (.ecosystem .unauthorizedBootstrap)
  revertIf (distributor = 0 ∨ D.answersAsDistributor distributor = false)
    (.ecosystem .invalidDependency)
  pure ({ w with distributor }.setBooks .rewards
    (consumeBootstrapIfComplete s distributor))

/-- `TREASURY_ROTATION_DELAY`. -/
def TREASURY_ROTATION_DELAY : Nat := 48 * 3600

/-- `proposeTreasury`. -/
def proposeTreasury (g : Governance) (now : Nat)
    (sender proposedTreasury : Address) : Except Failure Governance := do
  revertIf (sender ≠ g.owner) .ownableUnauthorizedAccount
  revertIf (proposedTreasury = 0) (.ecosystem .invalidTreasury)
  revertIf (proposedTreasury = g.treasury) (.ecosystem .treasuryUnchanged)
  let acceptAfter ← add now TREASURY_ROTATION_DELAY
  pure { g with
    pendingTreasury := proposedTreasury
    pendingTreasuryAcceptAfter := uint64 acceptAfter }

/-- `acceptTreasury`. -/
def acceptTreasury (g : Governance) (now : Nat) (sender : Address) :
    Except Failure Governance := do
  revertIf (sender ≠ g.pendingTreasury ∨ g.pendingTreasury = 0)
    (.ecosystem .unauthorizedPendingTreasury)
  revertIf (now < g.pendingTreasuryAcceptAfter)
    (.ecosystem .treasuryDelayNotElapsed)
  pure { g with
    treasury := g.pendingTreasury
    pendingTreasury := 0
    pendingTreasuryAcceptAfter := 0 }

/-- `cancelTreasuryProposal`. -/
def cancelTreasuryProposal (g : Governance) (sender : Address) :
    Except Failure Governance := do
  revertIf (sender ≠ g.owner) .ownableUnauthorizedAccount
  revertIf (g.pendingTreasury = 0) (.ecosystem .noPendingProposal)
  pure { g with pendingTreasury := 0, pendingTreasuryAcceptAfter := 0 }

/-- `_transferOwnership`, which takes a treasury proposal with it. -/
def setOwner (g : Governance) (newOwner : Address) : Governance :=
  if g.pendingTreasury = 0 then
    { g with owner := newOwner, pendingOwner := 0 }
  else
    { g with
      owner := newOwner
      pendingOwner := 0
      pendingTreasury := 0
      pendingTreasuryAcceptAfter := 0 }

/-- `transferOwnership`, `acceptOwnership` and `renounceOwnership` of
    `Ownable2Step`. -/
def transferOwnership (g : Governance) (sender newOwner : Address) :
    Except Failure Governance := do
  revertIf (sender ≠ g.owner) .ownableUnauthorizedAccount
  pure { g with pendingOwner := newOwner }

def acceptOwnership (g : Governance) (sender : Address) :
    Except Failure Governance := do
  revertIf (sender ≠ g.pendingOwner) .ownableUnauthorizedAccount
  pure (setOwner g sender)

def renounceOwnership (g : Governance) (sender : Address) :
    Except Failure Governance := do
  revertIf (sender ≠ g.owner) .ownableUnauthorizedAccount
  pure (setOwner g 0)

end Governance

/-! ## The machine -/

/-- What can happen. -/
inductive Call (τ : Type) where
  | depositNative (v : Vault) (sender launchToken : Address) (value : Nat)
  | recordERC20Funding (v : Vault) (sender launchToken asset : Address)
      (amount : Nat)
  | fundCommunityVault (launchToken asset : Address)
  | fundTraderRewardsVault (launchToken asset : Address)
  | forwardToTreasury (launchToken asset : Address)
  | payout (sender launchToken asset claimant : Address) (amount : Nat)
  | setPermanentLPFeeVaultOnce (v : Vault) (sender vault : Address)
  | setDistributorOnce (sender distributor : Address)
  | proposeTreasury (sender proposedTreasury : Address)
  | acceptTreasury (sender : Address)
  | cancelTreasuryProposal (sender : Address)
  | transferOwnership (sender newOwner : Address)
  | acceptOwnership (sender : Address)
  | renounceOwnership (sender : Address)
  /-- Whatever happens in other contracts: time passes, coins and tokens move,
      donations to the vaults among them, and the fee vault goes about its
      other business.  Neither vault approves a spender, so nobody else takes
      coins out of it. -/
  | elsewhere (now : Nat) (native : Address → Nat) (tokens : Address → τ)
      (feeVault : LPVault.VaultStorage)

/-- What the second half of a call needs. -/
inductive Return where
  | done
  | paid (v : Vault)
  | funded (v : Vault) (launchToken asset : Address)
      (amount balanceBefore : Nat)
  deriving DecidableEq, Repr

/-- A call that hands control to nobody. -/
def quiet (w : World τ) : Entry (World τ) Return := ⟨w, false, .done⟩

/-- A payment: the recipient, or the code of the asset, has control. -/
def paying (v : Vault) (w : World τ) : Entry (World τ) Return :=
  ⟨w, true, .paid v⟩

/-- A funding: the code of the asset has control. -/
def funding (v : Vault) (launchToken asset : Address)
    (first : World τ × Nat × Nat) : Entry (World τ) Return :=
  ⟨first.1, true, .funded v launchToken asset first.2.1 first.2.2⟩

section Machine

variable [Erc20 Address Failure τ] (D : Deployment)

/-- `fundCommunityVault`, its first half. -/
def fundCommunityVault (w : World τ) (launchToken asset : Address) :
    Except Failure (World τ × Nat × Nat) :=
  fund D w .community launchToken asset

/-- `fundTraderRewardsVault`, its first half. -/
def fundTraderRewardsVault (w : World τ) (launchToken asset : Address) :
    Except Failure (World τ × Nat × Nat) :=
  fund D w .rewards launchToken asset

/-- `setPermanentLPFeeVaultOnce` of either vault. -/
def setPermanentLPFeeVaultOnce (w : World τ) (v : Vault)
    (sender vault : Address) : Except Failure (World τ) :=
  match v with
  | .community => setCommunityFeeVaultOnce D w sender vault
  | .rewards => setRewardsFeeVaultOnce D w sender vault

/-- A step of the rest of the chain. -/
def elsewhere (w : World τ) (now : Nat) (native : Address → Nat)
    (tokens : Address → τ) (feeVault : LPVault.VaultStorage) :
    Except Failure (World τ) := do
  revertIf (now < w.now
    ∨ native (D.address .community) < w.native (D.address .community)
    ∨ native (D.address .rewards) < w.native (D.address .rewards)) .external
  pure { w with now, native, tokens, feeVault }

/-- The first half of every call.  The fee vault calls `recordERC20Funding`
    from its two funding functions only. -/
def enter (w : World τ) :
    Call τ → Except Failure (Entry (World τ) Return)
  | .depositNative v sender launchToken value => do
      let w ← deposit D w v sender launchToken value
      pure (quiet w)
  | .recordERC20Funding v sender launchToken asset amount => do
      revertIf (sender = D.permanentLPFeeVault) .impossibleSender
      let w ← recordERC20Funding D w v sender launchToken asset amount
      pure (quiet w)
  | .fundCommunityVault launchToken asset => do
      let first ← fundCommunityVault D w launchToken asset
      pure (funding .community launchToken asset first)
  | .fundTraderRewardsVault launchToken asset => do
      let first ← fundTraderRewardsVault D w launchToken asset
      pure (funding .rewards launchToken asset first)
  | .forwardToTreasury launchToken asset => do
      let w ← forwardToTreasury D w launchToken asset
      pure (paying .community w)
  | .payout sender launchToken asset claimant amount => do
      let w ← payout D w sender launchToken asset claimant amount
      pure (paying .rewards w)
  | .setPermanentLPFeeVaultOnce v sender vault => do
      let w ← setPermanentLPFeeVaultOnce D w v sender vault
      pure (quiet w)
  | .setDistributorOnce sender distributor => do
      let w ← setDistributorOnce D w sender distributor
      pure (quiet w)
  | .proposeTreasury sender proposedTreasury => do
      let g ← proposeTreasury w.governance w.now sender proposedTreasury
      pure (quiet { w with governance := g })
  | .acceptTreasury sender => do
      let g ← acceptTreasury w.governance w.now sender
      pure (quiet { w with governance := g })
  | .cancelTreasuryProposal sender => do
      let g ← cancelTreasuryProposal w.governance sender
      pure (quiet { w with governance := g })
  | .transferOwnership sender newOwner => do
      let g ← transferOwnership w.governance sender newOwner
      pure (quiet { w with governance := g })
  | .acceptOwnership sender => do
      let g ← acceptOwnership w.governance sender
      pure (quiet { w with governance := g })
  | .renounceOwnership sender => do
      let g ← renounceOwnership w.governance sender
      pure (quiet { w with governance := g })
  | .elsewhere now native tokens feeVault => do
      let w ← elsewhere D w now native tokens feeVault
      pure (quiet w)

/-- The second half of every call. -/
def leave (r : Return) (w : World τ) : Except Failure (World τ) :=
  match r with
  | .done => pure w
  | .paid v => pure (w.setBooks v { w.books v with entered := false })
  | .funded v launchToken asset amount balanceBefore =>
      fundRest D w v launchToken asset amount balanceBefore

/-- The entry points of the two vaults and of the fee vault. -/
def entries : Fallible (World τ) (Call τ) Return Failure where
  enter k w := enter D w k
  leave := leave D

/-- … as a machine. -/
def machine : Machine (World τ) (Call τ) (World τ × Return) Failure :=
  (entries D).machine

end Machine

/-- The state after deployment: both books are empty, on addresses that may
    hold coins already. -/
def deployed (now : Nat) (native : Address → Nat) (tokens : Address → τ)
    (feeVault : LPVault.VaultStorage) (governance treasury : Address) :
    World τ where
  now
  native
  tokens
  books _ := ⟨false, 0, governance, fun _ _ => 0, fun _ => 0⟩
  governance := ⟨governance, 0, treasury, 0, 0⟩
  distributor := 0
  feeVault
  journal := []

/-! ## The books -/

/-- Every total is the sum of its entries. -/
def Summed (s : VaultStorage) : Prop :=
  ∀ asset, s.totalAccrued asset = ∑ launchToken, s.accrued launchToken asset

/-- What a vault owes of the coins it holds, in native units. -/
def owed (s : VaultStorage) : Nat :=
  s.totalAccrued 0
    + NATIVE_PER_ERC20_BASE_UNIT * s.totalAccrued CANONICAL_USDC

/-- What an amount of an asset is in native units. -/
def worth (asset : Address) (amount : Nat) : Nat :=
  if asset = 0 then amount
  else if asset = CANONICAL_USDC then NATIVE_PER_ERC20_BASE_UNIT * amount
  else 0

theorem canonicalUsdc_ne : CANONICAL_USDC ≠ 0 := by decide

/-- The books after an entry and the total of its asset were written. -/
def written (s : VaultStorage) (launchToken asset : Address)
    (entry total : Nat) : VaultStorage :=
  { s with
    accrued := update₂ s.accrued launchToken asset entry
    totalAccrued := Function.update s.totalAccrued asset total }

section Books

variable {s s' : VaultStorage} {launchToken asset : Address}
  {entry total amount : Nat}

/-- Writing an entry and moving the total by as much keeps the sums. -/
theorem Summed.written (h : Summed s)
    (heq : total + s.accrued launchToken asset
      = s.totalAccrued asset + entry) :
    Summed (written s launchToken asset entry total) := by
  intro other
  by_cases ho : other = asset
  · subst ho
    have hsum := sum_column s.accrued launchToken other entry
    have htotal := h other
    show Function.update s.totalAccrued other total other = _
    rw [Function.update_self]
    show total = ∑ t, update₂ s.accrued launchToken other entry t other
    omega
  · show Function.update s.totalAccrued asset total other
      = ∑ t, update₂ s.accrued launchToken asset entry t other
    rw [Function.update_of_ne ho, sum_column_of_ne _ _ _ ho]
    exact h other

/-- A credit raises what is owed by what it is worth … -/
theorem owed_credit :
    owed (written s launchToken asset entry (s.totalAccrued asset + amount))
      = owed s + worth asset amount := by
  simp only [owed, written, worth]
  by_cases h0 : asset = 0
  · subst h0
    rw [if_pos rfl, Function.update_self,
      Function.update_of_ne canonicalUsdc_ne]
    omega
  · rw [if_neg h0, Function.update_of_ne (Ne.symm h0)]
    by_cases hu : asset = CANONICAL_USDC
    · subst hu
      rw [if_pos rfl, Function.update_self, Nat.mul_add]
      omega
    · rw [if_neg hu, Function.update_of_ne (Ne.symm hu), Nat.add_zero]

/-- … and a debit lowers it by as much. -/
theorem owed_debit (h : amount ≤ s.totalAccrued asset) :
    owed (written s launchToken asset entry (s.totalAccrued asset - amount))
      + worth asset amount = owed s := by
  rw [← @owed_credit (written s launchToken asset entry
    (s.totalAccrued asset - amount)) launchToken asset entry amount]
  simp only [owed, written, Function.update_idem, Function.update_self,
    Nat.sub_add_cancel h, Function.update_eq_self]

end Books

/-! ## Slack -/

/-- A vault is funded by the fee vault of the deployment or by none yet. -/
def Wired (D : Deployment) (w : World τ) : Prop :=
  ∀ v, (w.books v).permanentLPFeeVault = 0
    ∨ (w.books v).permanentLPFeeVault = D.permanentLPFeeVault

/-- **THE INVARIANT OF THE BOOKS.** -/
structure Sound (D : Deployment) (w : World τ) : Prop where
  wired : Wired D w
  summed : ∀ v, Summed (w.books v)

/-- No vault loses more coins than it stops owing. -/
def Slack (D : Deployment) (w w' : World τ) : Prop :=
  ∀ v, w.native (D.address v) + owed (w'.books v)
    ≤ w'.native (D.address v) + owed (w.books v)

/-- From sound books, the books stay sound and the slack does not fall. -/
def Safe (D : Deployment) (w w' : World τ) : Prop :=
  Sound D w → Sound D w' ∧ Slack D w w'

section Safe

variable {D : Deployment} {w w' w'' : World τ} {v : Vault} {s : VaultStorage}

theorem Safe.refl : Safe D w w :=
  fun h => ⟨h, fun _ => Nat.le_refl _⟩

theorem Safe.trans (h : Safe D w w') (h' : Safe D w' w'') :
    Safe D w w'' := by
  intro hw
  obtain ⟨hw', hslack⟩ := h hw
  obtain ⟨hw'', hslack'⟩ := h' hw'
  refine ⟨hw'', ?_⟩
  intro v
  have h1 := hslack v
  have h2 := hslack' v
  omega

/-- Books that only differ in guards and wiring, and coins that only come
    in. -/
theorem Safe.of_same
    (hbooks : ∀ v, (w'.books v).accrued = (w.books v).accrued
      ∧ (w'.books v).totalAccrued = (w.books v).totalAccrued)
    (hwired : Wired D w → Wired D w')
    (hnative : ∀ v, w.native (D.address v) ≤ w'.native (D.address v)) :
    Safe D w w' := by
  rintro ⟨hw, hsummed⟩
  refine ⟨⟨hwired hw, ?_⟩, ?_⟩
  · intro v asset
    rw [(hbooks v).1, (hbooks v).2]
    exact hsummed v asset
  · intro v
    have := hnative v
    simp only [owed, (hbooks v).2]
    omega

/-- Nothing the vaults know of happened. -/
theorem Safe.of_eq (hbooks : w'.books = w.books)
    (hnative : w'.native = w.native) : Safe D w w' := by
  refine Safe.of_same ?_ ?_ ?_
  · intro v
    rw [hbooks]
    exact ⟨rfl, rfl⟩
  · intro hw v
    rw [hbooks]
    exact hw v
  · intro v
    rw [hnative]

/-- One vault writes its books, and at most its own coins go out. -/
theorem Safe.of_update
    (hbooks : w'.books = Function.update w.books v s)
    (hvault : s.permanentLPFeeVault = (w.books v).permanentLPFeeVault)
    (hsummed : Summed (w.books v) → Summed s)
    (hown : w.native (D.address v) + owed s
      ≤ w'.native (D.address v) + owed (w.books v))
    (hother : ∀ u, u ≠ v →
      w.native (D.address u) ≤ w'.native (D.address u)) :
    Safe D w w' := by
  rintro ⟨hw, hs⟩
  refine ⟨⟨?_, ?_⟩, ?_⟩
  · intro u
    rw [hbooks]
    by_cases hu : u = v
    · subst hu
      rw [Function.update_self, hvault]
      exact hw u
    · rw [Function.update_of_ne hu]
      exact hw u
  · intro u
    rw [hbooks]
    by_cases hu : u = v
    · subst hu
      rw [Function.update_self]
      exact hsummed (hs u)
    · rw [Function.update_of_ne hu]
      exact hs u
  · intro u
    rw [hbooks]
    by_cases hu : u = v
    · subst hu
      rw [Function.update_self]
      exact hown
    · rw [Function.update_of_ne hu]
      have := hother u hu
      omega

end Safe

theorem Deployment.address_injective (D : Deployment) {u v : Vault}
    (h : u ≠ v) : D.address u ≠ D.address v := by
  cases u <;> cases v
  · exact absurd rfl h
  · exact D.address_ne
  · exact D.address_ne.symm
  · exact absurd rfl h

/-! ## Coins -/

section Coins

variable [Erc20 Address Failure τ] {D : Deployment} {w w' w'' : World τ}
  {v : Vault} {sender launchToken asset src dst : Address}
  {amount value : Nat}

/-- **A TRANSFER** moves what the amount is worth, and perhaps tokens. -/
theorem safeTransfer_ok (h0 : asset ≠ 0)
    (h : w.safeTransfer src asset dst amount = .ok w') :
    ∃ tokens, w' =
      { w with native := move w.native src dst (worth asset amount), tokens }
    := by
  unfold World.safeTransfer at h
  by_cases hu : asset = CANONICAL_USDC
  · rw [if_pos hu] at h
    simp only [bind_ok, revertIf_ok, pure_ok] at h
    obtain ⟨_, -, rfl⟩ := h
    refine ⟨w.tokens, ?_⟩
    rw [worth, if_neg h0, if_pos hu, Nat.mul_comm]
  · rw [if_neg hu] at h
    simp only [bind_ok, pure_ok] at h
    obtain ⟨t, -, rfl⟩ := h
    refine ⟨Function.update w.tokens asset t, ?_⟩
    rw [worth, if_neg h0, if_neg hu, move_zero]

/-- A payment does the same. -/
theorem pay_ok (h : pay D w v asset dst amount = .ok w') :
    ∃ tokens, w' =
      { w with
        native := move w.native (D.address v) dst (worth asset amount)
        tokens } := by
  unfold pay at h
  by_cases h0 : asset = 0
  · rw [if_pos h0] at h
    simp only [bind_ok, revertIf_ok, pure_ok] at h
    obtain ⟨_, -, rfl⟩ := h
    refine ⟨w.tokens, ?_⟩
    rw [worth, if_pos h0]
  · rw [if_neg h0] at h
    exact safeTransfer_ok h0 h

omit [Erc20 Address Failure τ] in
/-- What a deposit that returns did. -/
theorem deposit_ok (h : deposit D w v sender launchToken value = .ok w') :
    sender = D.feeManager
      ∧ w' = (({ w with
          native := move w.native sender (D.address v) value }).setBooks v
        (written (w.books v) launchToken 0
          ((w.books v).accrued launchToken 0 + value)
          ((w.books v).totalAccrued 0 + value))).log
            (.funded v launchToken 0 value) := by
  simp only [deposit, bind_ok, revertIf_ok, add_ok, pure_ok, ne_eq,
    Decidable.not_not] at h
  obtain ⟨_, -, _, hsender, _, -, _, ⟨-, rfl⟩, _, ⟨-, rfl⟩, rfl⟩ := h
  exact ⟨hsender, rfl⟩

/-- What a recorded funding did, and who recorded it. -/
theorem recordERC20Funding_ok
    (h : recordERC20Funding D w v sender launchToken asset amount = .ok w') :
    sender = (w.books v).permanentLPFeeVault
      ∧ (w.books v).permanentLPFeeVault ≠ 0 ∧ asset ≠ 0
      ∧ w' = (w.setBooks v (written (w.books v) launchToken asset
          ((w.books v).accrued launchToken asset + amount)
          ((w.books v).totalAccrued asset + amount))).log
            (.funded v launchToken asset amount) := by
  simp only [recordERC20Funding, bind_ok, revertIf_ok, add_ok, pure_ok,
    not_or, ne_eq, Decidable.not_not] at h
  obtain ⟨_, -, _, ⟨hsender, hset⟩, _, ⟨-, hasset, -⟩, _, ⟨-, rfl⟩, _, -, _,
    ⟨-, rfl⟩, rfl⟩ := h
  exact ⟨hsender, hset, hasset, rfl⟩

/-- What a forward did before the treasury has control. -/
theorem forwardToTreasury_ok
    (h : forwardToTreasury D w launchToken asset = .ok w') :
    ∃ amount tokens,
      amount = (w.books .community).accrued launchToken asset
      ∧ amount ≤ (w.books .community).totalAccrued asset
      ∧ w' = (({ w with
          native := move w.native (D.address .community)
            w.governance.treasury (worth asset amount)
          tokens }).setBooks .community
        { written (w.books .community) launchToken asset 0
            ((w.books .community).totalAccrued asset - amount) with
          entered := true }).log
            (.forwarded launchToken asset w.governance.treasury amount) := by
  simp only [forwardToTreasury, bind_ok, revertIf_ok, sub_ok, pure_ok] at h
  obtain ⟨_, -, _, -, _, ⟨hle, rfl⟩, w₁, hpay, rfl⟩ := h
  obtain ⟨tokens, rfl⟩ := pay_ok hpay
  exact ⟨_, tokens, rfl, hle, rfl⟩

/-- What a payout did before the claimant has control. -/
theorem payout_ok
    (h : payout D w sender launchToken asset dst amount = .ok w') :
    sender = w.distributor ∧ w.distributor ≠ 0
      ∧ amount ≤ (w.books .rewards).accrued launchToken asset
      ∧ amount ≤ (w.books .rewards).totalAccrued asset
      ∧ ∃ tokens, w' = (({ w with
          native := move w.native (D.address .rewards) dst
            (worth asset amount)
          tokens }).setBooks .rewards
        { written (w.books .rewards) launchToken asset
            ((w.books .rewards).accrued launchToken asset - amount)
            ((w.books .rewards).totalAccrued asset - amount) with
          entered := true }).log
            (.paid launchToken asset dst amount) := by
  simp only [payout, bind_ok, revertIf_ok, sub_ok, pure_ok, not_or, ne_eq,
    Decidable.not_not, Nat.not_lt] at h
  obtain ⟨_, -, _, ⟨hsender, hset⟩, _, -, _, hentry, _, ⟨hle, rfl⟩, w₁, hpay,
    rfl⟩ := h
  obtain ⟨tokens, rfl⟩ := pay_ok hpay
  exact ⟨hsender, hset, hentry, hle, tokens, rfl⟩

/-- What the first half of a funding did. -/
theorem fund_ok {first : World τ × Nat × Nat}
    (h : fund D w v launchToken asset = .ok first) :
    ∃ tokens feeVault, first.1 =
      { w with
        native := move w.native D.permanentLPFeeVault (D.address v)
          (worth asset first.2.1)
        tokens
        feeVault } := by
  simp only [fund, bind_ok, revertIf_ok, sub_ok, pure_ok] at h
  obtain ⟨_, -, _, h0, _, -, _, ⟨-, rfl⟩, w₁, htransfer, rfl⟩ := h
  obtain ⟨tokens, rfl⟩ := safeTransfer_ok h0 htransfer
  exact ⟨tokens, _, rfl⟩

/-- What the second half of a funding did. -/
theorem fundRest_ok {balanceBefore : Nat}
    (h : fundRest D w v launchToken asset amount balanceBefore = .ok w') :
    ∃ feeVault, w' =
      { (w.setBooks v (written (w.books v) launchToken asset
          ((w.books v).accrued launchToken asset + amount)
          ((w.books v).totalAccrued asset + amount))).log
            (.funded v launchToken asset amount) with feeVault } := by
  simp only [fundRest, bind_ok, revertIf_ok, add_ok, pure_ok] at h
  obtain ⟨_, -, _, -, w₁, hrecord, rfl⟩ := h
  obtain ⟨-, -, -, rfl⟩ := recordERC20Funding_ok hrecord
  exact ⟨_, rfl⟩

/-! ## Every function keeps the slack -/

omit [Erc20 Address Failure τ] in
theorem deposit_safe
    (h : deposit D w v sender launchToken value = .ok w') : Safe D w w' := by
  obtain ⟨rfl, rfl⟩ := deposit_ok h
  refine Safe.of_update rfl rfl (fun hs => hs.written (by omega)) ?_ ?_
  · show _ ≤ move w.native D.feeManager (D.address v) value (D.address v) + _
    rw [owed_credit, move_dst (D.feeManager_ne v), worth, if_pos rfl]
    omega
  · intro u _
    exact le_move (D.feeManager_ne u).symm

/-- Nobody but the fee vault records a funding. -/
theorem recordERC20Funding_safe
    (hsender : sender ≠ D.permanentLPFeeVault)
    (h : recordERC20Funding D w v sender launchToken asset amount = .ok w') :
    Safe D w w' := by
  obtain ⟨hvault, hset, -, -⟩ := recordERC20Funding_ok h
  rintro ⟨hwired, -⟩
  rcases hwired v with hzero | hcanonical
  · exact absurd hzero hset
  · exact absurd (hvault.trans hcanonical) hsender

omit [Erc20 Address Failure τ] in
/-- A payment of what is struck off the books. -/
theorem paid_safe {s : VaultStorage} {entry : Nat} {tokens : Address → τ}
    {l : Line}
    (hs : s = { written (w.books v) launchToken asset entry
      ((w.books v).totalAccrued asset - amount) with entered := true })
    (hentry : entry + amount = (w.books v).accrued launchToken asset)
    (hle : amount ≤ (w.books v).totalAccrued asset) :
    Safe D w ((({ w with
      native := move w.native (D.address v) dst (worth asset amount)
      tokens }).setBooks v s).log l) := by
  subst hs
  refine Safe.of_update rfl rfl ?_ ?_ ?_
  · intro hsummed
    exact @Summed.written _ launchToken asset entry _ hsummed (by omega)
  · have howed := @owed_debit (w.books v) launchToken asset entry amount hle
    have hmove := @le_move_add _ _ w.native (D.address v) dst (D.address v)
      (worth asset amount)
    show w.native (D.address v) + owed (written (w.books v) launchToken asset
        entry ((w.books v).totalAccrued asset - amount))
      ≤ move w.native (D.address v) dst (worth asset amount) (D.address v)
        + owed (w.books v)
    omega
  · intro u hu
    exact le_move (D.address_injective hu)

theorem forwardToTreasury_safe
    (h : forwardToTreasury D w launchToken asset = .ok w') :
    Safe D w w' := by
  obtain ⟨amount, tokens, hamount, hle, rfl⟩ := forwardToTreasury_ok h
  exact paid_safe rfl (by omega) hle

theorem payout_safe
    (h : payout D w sender launchToken asset dst amount = .ok w') :
    Safe D w w' := by
  obtain ⟨-, -, hentry, hle, tokens, rfl⟩ := payout_ok h
  exact paid_safe rfl (by omega) hle

theorem fund_safe {first : World τ × Nat × Nat}
    (h : fund D w v launchToken asset = .ok first) : Safe D w first.1 := by
  obtain ⟨tokens, feeVault, hfirst⟩ := fund_ok h
  rw [hfirst]
  refine Safe.of_same (fun _ => ⟨rfl, rfl⟩) (fun hw => hw) ?_
  intro u
  exact le_move (D.feeVault_ne u).symm

/-- **A FUNDING IS SAFE AROUND ITS CALLEE**: what the transfer brought in
    covers what is recorded after it, whatever happened in between. -/
theorem funded_safe {first : World τ × Nat × Nat}
    (h : fund D w v launchToken asset = .ok first)
    (hbetween : Safe D first.1 w')
    (hrest : fundRest D w' v launchToken asset first.2.1 first.2.2
      = .ok w'') : Safe D w w'' := by
  have hfirst := fund_safe h
  obtain ⟨tokens, feeVault, hw₁⟩ := fund_ok h
  obtain ⟨feeVault', rfl⟩ := fundRest_ok hrest
  intro hw
  obtain ⟨⟨hwired, hsummed⟩, hslack⟩ := hfirst.trans hbetween hw
  obtain ⟨-, hslack'⟩ := hbetween (hfirst hw).1
  have hbooks : ∀ u, u ≠ v → Function.update w'.books v
      (written (w'.books v) launchToken asset
        ((w'.books v).accrued launchToken asset + first.2.1)
        ((w'.books v).totalAccrued asset + first.2.1)) u = w'.books u :=
    fun u hu => Function.update_of_ne hu _ _
  refine ⟨⟨?_, ?_⟩, ?_⟩
  · intro u
    show (Function.update w'.books v _ u).permanentLPFeeVault = 0
      ∨ (Function.update w'.books v _ u).permanentLPFeeVault = _
    by_cases hu : u = v
    · subst hu
      rw [Function.update_self]
      exact hwired u
    · rw [hbooks u hu]
      exact hwired u
  · intro u
    show Summed (Function.update w'.books v _ u)
    by_cases hu : u = v
    · subst hu
      rw [Function.update_self]
      exact (hsummed u).written (by omega)
    · rw [hbooks u hu]
      exact hsummed u
  · intro u
    show w.native (D.address u) + owed (Function.update w'.books v _ u)
      ≤ w'.native (D.address u) + owed (w.books u)
    by_cases hu : u = v
    · -- the transfer raised the balance by what the record adds
      subst hu
      have hin : first.1.native (D.address u)
          = w.native (D.address u) + worth asset first.2.1 := by
        rw [hw₁]
        exact move_dst (D.feeVault_ne u)
      have hsame : first.1.books u = w.books u := by
        rw [hw₁]
      have hlate := hslack' u
      rw [hin, hsame] at hlate
      rw [Function.update_self, owed_credit]
      omega
    · rw [hbooks u hu]
      exact hslack u

end Coins

/-! ## Every call keeps the slack -/

section Run

variable [Erc20 Address Failure τ] {D : Deployment} {w w' : World τ}
  {v : Vault}

omit [Erc20 Address Failure τ] in
/-- Wiring a vault touches neither its books nor its coins. -/
theorem wired_safe {s : VaultStorage}
    (hbooks : w'.books = Function.update w.books v s)
    (hnative : w'.native = w.native)
    (haccrued : s.accrued = (w.books v).accrued)
    (htotal : s.totalAccrued = (w.books v).totalAccrued)
    (hvault : s.permanentLPFeeVault = (w.books v).permanentLPFeeVault
      ∨ s.permanentLPFeeVault = D.permanentLPFeeVault) : Safe D w w' := by
  refine Safe.of_same ?_ ?_ ?_
  · intro u
    rw [hbooks]
    by_cases hu : u = v
    · subst hu
      rw [Function.update_self]
      exact ⟨haccrued, htotal⟩
    · rw [Function.update_of_ne hu]
      exact ⟨rfl, rfl⟩
  · intro hw u
    rw [hbooks]
    by_cases hu : u = v
    · subst hu
      rw [Function.update_self]
      rcases hvault with hsame | hset
      · rw [hsame]
        exact hw u
      · exact Or.inr hset
    · rw [Function.update_of_ne hu]
      exact hw u
  · intro u
    rw [hnative]

omit [Erc20 Address Failure τ] in
theorem setPermanentLPFeeVaultOnce_safe {sender vault : Address}
    (h : setPermanentLPFeeVaultOnce D w v sender vault = .ok w') :
    Safe D w w' := by
  cases v with
  | community =>
      simp only [setPermanentLPFeeVaultOnce, setCommunityFeeVaultOnce,
        bind_ok, revertIf_ok, pure_ok, not_or, Bool.not_eq_false] at h
      obtain ⟨_, -, _, -, _, ⟨-, hanswers⟩, rfl⟩ := h
      exact wired_safe (v := .community) rfl rfl rfl rfl
        (Or.inr (D.feeVault_unique _ _ hanswers))
  | rewards =>
      simp only [setPermanentLPFeeVaultOnce, setRewardsFeeVaultOnce,
        bind_ok, revertIf_ok, pure_ok, not_or, Bool.not_eq_false] at h
      obtain ⟨_, -, _, -, _, ⟨-, hanswers⟩, rfl⟩ := h
      have hvault := D.feeVault_unique _ _ hanswers
      unfold consumeBootstrapIfComplete
      split
      · exact wired_safe (v := .rewards) rfl rfl rfl rfl (Or.inr hvault)
      · exact wired_safe (v := .rewards) rfl rfl rfl rfl (Or.inr hvault)

omit [Erc20 Address Failure τ] in
theorem setDistributorOnce_safe {sender distributor : Address}
    (h : setDistributorOnce D w sender distributor = .ok w') :
    Safe D w w' := by
  simp only [setDistributorOnce, bind_ok, revertIf_ok, pure_ok] at h
  obtain ⟨_, -, _, -, _, -, rfl⟩ := h
  unfold consumeBootstrapIfComplete
  split
  · exact wired_safe (v := .rewards) rfl rfl rfl rfl (Or.inl rfl)
  · exact wired_safe (v := .rewards) rfl rfl rfl rfl (Or.inl rfl)

omit [Erc20 Address Failure τ] in
theorem elsewhere_safe {now : Nat} {native : Address → Nat}
    {tokens : Address → τ} {feeVault : LPVault.VaultStorage}
    (h : elsewhere D w now native tokens feeVault = .ok w') :
    Safe D w w' := by
  simp only [elsewhere, bind_ok, revertIf_ok, pure_ok, not_or,
    Nat.not_lt] at h
  obtain ⟨_, ⟨-, hcommunity, hrewards⟩, rfl⟩ := h
  refine Safe.of_same (fun _ => ⟨rfl, rfl⟩) (fun hw => hw) ?_
  intro u
  cases u with
  | community => exact hcommunity
  | rewards => exact hrewards

/-- The first half of a call is safe, and so is the second after it, whatever
    the callee did safely in between. -/
def Covered (D : Deployment) (w : World τ)
    (e : Entry (World τ) Return) : Prop :=
  Safe D w e.state
    ∧ ∀ w' w'', Safe D e.state w' → leave D e.ret w' = .ok w'' → Safe D w w''

theorem covered_quiet (h : Safe D w w') : Covered D w (quiet w') := by
  refine ⟨h, ?_⟩
  intro w₁ w₂ hbetween hleave
  obtain rfl := Except.ok.inj hleave
  exact h.trans hbetween

theorem covered_paying (h : Safe D w w') : Covered D w (paying v w') := by
  refine ⟨h, ?_⟩
  intro w₁ w₂ hbetween hleave
  obtain rfl := Except.ok.inj hleave
  refine (h.trans hbetween).trans ?_
  exact wired_safe (v := v) rfl rfl rfl rfl (Or.inl rfl)

theorem covered_funding {launchToken asset : Address}
    {first : World τ × Nat × Nat}
    (h : fund D w v launchToken asset = .ok first) :
    Covered D w (funding v launchToken asset first) :=
  ⟨fund_safe h, fun _ _ hbetween hleave => funded_safe h hbetween hleave⟩

/-- **EVERY CALL IS COVERED.** -/
theorem enter_covered (k : Call τ) {e : Entry (World τ) Return}
    (h : enter D w k = .ok e) : Covered D w e := by
  cases k with
  | depositNative v sender launchToken value =>
      simp only [enter, bind_ok, pure_ok] at h
      obtain ⟨w', hw', rfl⟩ := h
      exact covered_quiet (deposit_safe hw')
  | recordERC20Funding v sender launchToken asset amount =>
      simp only [enter, bind_ok, pure_ok, revertIf_ok] at h
      obtain ⟨_, hsender, w', hw', rfl⟩ := h
      exact covered_quiet (recordERC20Funding_safe hsender hw')
  | fundCommunityVault launchToken asset =>
      simp only [enter, bind_ok, pure_ok] at h
      obtain ⟨first, hfirst, rfl⟩ := h
      exact covered_funding hfirst
  | fundTraderRewardsVault launchToken asset =>
      simp only [enter, bind_ok, pure_ok] at h
      obtain ⟨first, hfirst, rfl⟩ := h
      exact covered_funding hfirst
  | forwardToTreasury launchToken asset =>
      simp only [enter, bind_ok, pure_ok] at h
      obtain ⟨w', hw', rfl⟩ := h
      exact covered_paying (forwardToTreasury_safe hw')
  | payout sender launchToken asset claimant amount =>
      simp only [enter, bind_ok, pure_ok] at h
      obtain ⟨w', hw', rfl⟩ := h
      exact covered_paying (payout_safe hw')
  | setPermanentLPFeeVaultOnce v sender vault =>
      simp only [enter, bind_ok, pure_ok] at h
      obtain ⟨w', hw', rfl⟩ := h
      exact covered_quiet (setPermanentLPFeeVaultOnce_safe hw')
  | setDistributorOnce sender distributor =>
      simp only [enter, bind_ok, pure_ok] at h
      obtain ⟨w', hw', rfl⟩ := h
      exact covered_quiet (setDistributorOnce_safe hw')
  | proposeTreasury sender proposedTreasury =>
      simp only [enter, bind_ok, pure_ok] at h
      obtain ⟨g, -, rfl⟩ := h
      exact covered_quiet (Safe.of_eq rfl rfl)
  | acceptTreasury sender =>
      simp only [enter, bind_ok, pure_ok] at h
      obtain ⟨g, -, rfl⟩ := h
      exact covered_quiet (Safe.of_eq rfl rfl)
  | cancelTreasuryProposal sender =>
      simp only [enter, bind_ok, pure_ok] at h
      obtain ⟨g, -, rfl⟩ := h
      exact covered_quiet (Safe.of_eq rfl rfl)
  | transferOwnership sender newOwner =>
      simp only [enter, bind_ok, pure_ok] at h
      obtain ⟨g, -, rfl⟩ := h
      exact covered_quiet (Safe.of_eq rfl rfl)
  | acceptOwnership sender =>
      simp only [enter, bind_ok, pure_ok] at h
      obtain ⟨g, -, rfl⟩ := h
      exact covered_quiet (Safe.of_eq rfl rfl)
  | renounceOwnership sender =>
      simp only [enter, bind_ok, pure_ok] at h
      obtain ⟨g, -, rfl⟩ := h
      exact covered_quiet (Safe.of_eq rfl rfl)
  | elsewhere now native tokens feeVault =>
      simp only [enter, bind_ok, pure_ok] at h
      obtain ⟨w', hw', rfl⟩ := h
      exact covered_quiet (elsewhere_safe hw')

/-- Wherever somebody else has control, the books are sound and no vault lost
    more coins than it stopped owing. -/
theorem observable_safe {w₀ w : World τ}
    (h : (machine D).Observable w₀ w) : Safe D w₀ w := by
  have hcovers : (entries (τ := τ) D).Covers (Safe D) :=
    fun k _ _ he => enter_covered k he
  exact hcovers.observable (fun _ => Safe.refl)
    (fun _ _ _ h h' => h.trans h') h

omit [Erc20 Address Failure τ] in
theorem sound_deployed {now : Nat} {native : Address → Nat}
    {tokens : Address → τ} {feeVault : LPVault.VaultStorage}
    {governance treasury : Address} :
    Sound D (deployed now native tokens feeVault governance treasury) where
  wired _ := Or.inl rfl
  summed _ _ := by
    show 0 = ∑ _t : Address, 0
    rw [Finset.sum_const_zero]

/-- **THE VAULTS STAY SOLVENT**: wherever somebody else has control, every
    total of either vault is the sum of its entries, and the coins the vault
    holds cover the native ledger and the USDC ledger TOGETHER. -/
theorem vaults_solvent (D : Deployment) (now : Nat) (native : Address → Nat)
    (tokens : Address → τ) (feeVault : LPVault.VaultStorage)
    (governance treasury : Address) :
    ∀ w, (machine D).Observable
        (deployed now native tokens feeVault governance treasury) w →
      ∀ v,
        (∀ asset, (w.books v).totalAccrued asset
          = ∑ launchToken, (w.books v).accrued launchToken asset)
        ∧ (w.books v).totalAccrued 0
            + 10 ^ 12 * (w.books v).totalAccrued CANONICAL_USDC
          ≤ w.native (D.address v)
        ∧ w.assetBalanceOf CANONICAL_USDC (D.address v)
          = w.native (D.address v) / 10 ^ 12 := by
  intro w hw v
  obtain ⟨⟨-, hsummed⟩, hslack⟩ := observable_safe hw sound_deployed
  refine ⟨hsummed v, ?_, ?_⟩
  · have h := hslack v
    have hnone : owed ((deployed now native tokens feeVault governance
        treasury).books v) = 0 := rfl
    rw [hnone] at h
    have howed : owed (w.books v) ≤ w.native (D.address v) := by omega
    exact howed
  · rw [World.assetBalanceOf, if_pos rfl]
    rfl

end Run

/-- A deployment at small addresses. -/
def smallVaults : Deployment where
  feeManager := 1
  permanentLPFeeVault := 2
  distributor := 3
  address
    | .community => 4
    | .rewards => 5
  answersAsFeeVault _ a := decide (a = 2)
  answersAsDistributor a := decide (a = 3)
  feeVault_unique _ _ h := of_decide_eq_true h
  distributor_unique _ h := of_decide_eq_true h
  address_ne := by decide
  feeManager_ne v := by cases v <;> decide
  feeVault_ne v := by cases v <;> decide

/-- The community vault is wired, three coins are deposited for token 0x70,
    and the five USDC that the fee vault keeps for it are funded. -/
def fundedVaults : World (Ledger Address) :=
  letI := @Ledger.erc20 Address _ Failure _ .external
  (machine smallVaults).runTxs
    [(.setPermanentLPFeeVaultOnce .community 8 2, .halt true),
     (.depositNative .community 1 0x70 (3 * 10 ^ 18), .halt true),
     (.fundCommunityVault 0x70 CANONICAL_USDC, .halt true)]
    (deployed 0 (fun _ => 10 ^ 19) (fun _ => ⟨fun _ => 0, fun _ _ => 0⟩)
      ⟨false, 0, fun _ _ => 0, fun _ _ => 0, fun _ _ => 5 * 10 ^ 6,
        fun _ _ => 0, fun _ => 5 * 10 ^ 6⟩ 8 9)

/-- Eight coins stand behind what the vault owes. -/
theorem vaults_solvent_funded :
    (fundedVaults.books .community).totalAccrued 0 = 3 * 10 ^ 18
      ∧ (fundedVaults.books .community).totalAccrued CANONICAL_USDC
        = 5 * 10 ^ 6
      ∧ (fundedVaults.books .community).totalAccrued 0
          + 10 ^ 12
            * (fundedVaults.books .community).totalAccrued CANONICAL_USDC
        ≤ fundedVaults.native (smallVaults.address .community) := by
  refine ⟨by decide +kernel, by decide +kernel, ?_⟩
  exact (@vaults_solvent (Ledger Address)
    (@Ledger.erc20 Address _ Failure _ .external) smallVaults 0 _ _ _ 8 9
    fundedVaults (.runTxs _ .start) .community).2.1

end EcosystemVault
