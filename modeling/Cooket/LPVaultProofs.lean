import Cooket.ContractProofs
import Cooket.EndpointProofs
import Cooket.LedgerSumProofs

/-! # The permanent LP fee vault and its custodians

    `PermanentLPFeeVaultV3` and `PermanentLPCustodianV3`: fees of a locked
    position are collected by the token's custodian into the vault, which
    credits them to recipients in four shares.

    The position manager is not part of the sources.  It is a PARAMETER with
    the documented behaviour of `collect`: what is owed, up to the maximum
    asked for, is paid and returned.

    Two facts are exported.  A collection credits exactly the closed form of
    the split to the recipients the fee manager names AT THAT MOMENT
    (`collectFees_ok`), and a claim only ever lowers the claimer's own row. -/

namespace LPVault

open CheckedArith Contract Endpoint LedgerSum

/-- `ArcNativeUsdcV3.CANONICAL_USDC`. -/
def CANONICAL_USDC : Address := 0x3600000000000000000000000000000000000000

/-- `type(uint128).max`. -/
def UINT128_MAX : Nat := 2 ^ 128 - 1

def POOL_FEE : Nat := 10000
def FULL_RANGE_TICK_LOWER : Int := -887200
def FULL_RANGE_TICK_UPPER : Int := 887200

/-- A decoded answer of `positions`. -/
structure Position where
  token0 : Address
  token1 : Address
  fee : Nat
  tickLower : Int
  tickUpper : Int
  deriving DecidableEq, Repr

/-- The position manager: who owns a position, what its tuple decodes to, what
    it owes, and the collection of what it owes. -/
class PositionManager (π : Type) where
  ownerOf : π → Nat → Address
  positions : π → Nat → Option Position
  collectable : π → Nat → Nat × Nat
  collect : π → Address → Nat → Nat → Nat → Except Revert (π × Nat × Nat)
  /-- What is owed is kept in `uint128` fields. -/
  collectable_le : ∀ p id,
    (collectable p id).1 ≤ UINT128_MAX ∧ (collectable p id).2 ≤ UINT128_MAX
  /-- `collect` pays what is owed, up to the maxima. -/
  collect_amounts : ∀ p sender id max0 max1 p' amount0 amount1,
    collect p sender id max0 max1 = .ok (p', amount0, amount1) →
    amount0 = min (collectable p id).1 max0
      ∧ amount1 = min (collectable p id).2 max1

/-- The two assets of a token's pool, in pool order. -/
def sortedPair (launchToken : Address) : Address × Address :=
  if launchToken < CANONICAL_USDC then (launchToken, CANONICAL_USDC)
  else (CANONICAL_USDC, launchToken)

/-- `CanonicalPositionV3.isCanonicalFullRangePosition`, on the decoded
    answer. -/
def isCanonicalFullRangePosition (answer : Option Position)
    (expected : Address × Address) : Bool :=
  answer == some ⟨expected.1, expected.2, POOL_FEE, FULL_RANGE_TICK_LOWER,
    FULL_RANGE_TICK_UPPER⟩

/-- The immutables and the storage of a `PermanentLPCustodianV3`. -/
structure Custodian where
  launchToken : Address
  graduationManager : Address
  feeVault : Address
  nonfungiblePositionManager : Address
  canonicalFactory : Address
  positionTokenId : Nat
  positionRegistered : Bool
  deriving DecidableEq, Repr

/-- `GraduationManagerV3Boundary.launchOf`. -/
structure Launch where
  curve : Address
  creator : Address
  registered : Bool
  graduated : Bool
  deriving DecidableEq, Repr

/-- The immutables of the vault, with its own address and the position manager
    its custodian deployer answers with. -/
structure VaultImmutables where
  self : Address
  factory : Address
  graduationManager : Address
  communityVault : Address
  traderRewardsVault : Address
  nonfungiblePositionManager : Address

/-- The storage of `PermanentLPFeeVaultV3`. -/
structure VaultStorage where
  entered : Bool
  permanentLPCustodianDeployer : Address
  protocolLPFeesAccrued : Address → Address → Nat
  creatorLPFeesAccrued : Address → Address → Nat
  communityLPFeesAccrued : Address → Address → Nat
  traderRewardsLPFeesAccrued : Address → Address → Nat
  totalLPFeesAccrued : Address → Nat

/-- Everything the vault and the custodians read: their own storage, the
    positions, the balances of the vault, and the registers of the deployer
    and of the graduation manager. -/
structure LPState (π : Type) where
  positions : π
  vault : VaultStorage
  vaultBalance : Address → Nat
  custodianOf : Address → Address
  custodians : Address → Custodian
  launches : Address → Launch
  settled : Address → Bool

/-- What the fee manager answers about a token. -/
structure FeeRoute where
  treasury : Address
  creatorPayout : Address
  curve : Address
  creator : Address
  deriving DecidableEq, Repr

/-- The shares of a collected amount. -/
structure LPShares where
  protocolShare : Nat
  creatorShare : Nat
  communityShare : Nat
  traderRewardsShare : Nat
  deriving DecidableEq, Repr

/-- The shares in closed form. -/
def lpShares (amount : Nat) : LPShares where
  protocolShare := amount - amount * 25 / 100 - amount * 30 / 100
    - amount * 15 / 100
  creatorShare := amount * 25 / 100
  communityShare := amount * 30 / 100
  traderRewardsShare := amount * 15 / 100

/-- The four shares are the whole amount. -/
theorem lpShares_sum (amount : Nat) :
    (lpShares amount).protocolShare + (lpShares amount).creatorShare
      + (lpShares amount).communityShare
      + (lpShares amount).traderRewardsShare = amount := by
  simp only [lpShares]
  omega

/-- The storage after one amount of one asset is credited. -/
def credited (s : VaultStorage) (launchToken asset : Address) (amount : Nat)
    (route : FeeRoute) : VaultStorage :=
  { s with
    protocolLPFeesAccrued := update₂ s.protocolLPFeesAccrued route.treasury
      asset (s.protocolLPFeesAccrued route.treasury asset
        + (lpShares amount).protocolShare)
    creatorLPFeesAccrued := update₂ s.creatorLPFeesAccrued route.creatorPayout
      asset (s.creatorLPFeesAccrued route.creatorPayout asset
        + (lpShares amount).creatorShare)
    communityLPFeesAccrued := update₂ s.communityLPFeesAccrued launchToken
      asset (s.communityLPFeesAccrued launchToken asset
        + (lpShares amount).communityShare)
    traderRewardsLPFeesAccrued := update₂ s.traderRewardsLPFeesAccrued
      launchToken asset (s.traderRewardsLPFeesAccrued launchToken asset
        + (lpShares amount).traderRewardsShare)
    totalLPFeesAccrued := Function.update s.totalLPFeesAccrued asset
      (s.totalLPFeesAccrued asset + amount) }

/-- A credit raises one entry of the creator rows. -/
theorem credited_creator (s : VaultStorage) (launchToken asset : Address)
    (amount : Nat) (route : FeeRoute) (r a : Address) :
    (credited s launchToken asset amount route).creatorLPFeesAccrued r a
      = s.creatorLPFeesAccrued r a
        + (if r = route.creatorPayout ∧ a = asset then
            (lpShares amount).creatorShare else 0) := by
  show update₂ s.creatorLPFeesAccrued route.creatorPayout asset _ r a = _
  by_cases hr : r = route.creatorPayout
  · subst hr
    by_cases ha : a = asset
    · subst ha
      rw [update₂_self, if_pos ⟨rfl, rfl⟩]
    · rw [update₂_of_ne_right _ _ _ _ ha, if_neg (fun h => ha h.2),
        Nat.add_zero]
  · rw [update₂_of_ne _ _ _ _ hr, if_neg (fun h => hr h.1), Nat.add_zero]

section Vault

variable [MulDiv] {π : Type} [PositionManager π]

open MulDiv

/-- `_requireBacking`. -/
def requireBacking (s : VaultStorage) (balance : Address → Nat)
    (asset : Address) (amount : Nat) : Except Revert Unit := do
  let required ← add (s.totalLPFeesAccrued asset) amount
  revertIf (balance asset < required)
    (.vault (.insufficientLPFeeBacking asset (balance asset) required))

/-- `_accrue`. -/
def accrue (s : VaultStorage) (launchToken asset : Address) (amount : Nat)
    (route : FeeRoute) : Except Revert VaultStorage :=
  if amount = 0 then pure s
  else do
    let creatorShare ←
      mulDiv amount LP_CREATOR_FEE_PERCENT FEE_SPLIT_DENOMINATOR
    let communityShare ←
      mulDiv amount LP_COMMUNITY_FEE_PERCENT FEE_SPLIT_DENOMINATOR
    let traderRewardsShare ←
      mulDiv amount LP_TRADER_REWARDS_FEE_PERCENT FEE_SPLIT_DENOMINATOR
    let left ← sub amount creatorShare
    let left ← sub left communityShare
    let protocolShare ← sub left traderRewardsShare
    let protocolFees ←
      add (s.protocolLPFeesAccrued route.treasury asset) protocolShare
    let creatorFees ←
      add (s.creatorLPFeesAccrued route.creatorPayout asset) creatorShare
    let communityFees ←
      add (s.communityLPFeesAccrued launchToken asset) communityShare
    let traderRewardsFees ←
      add (s.traderRewardsLPFeesAccrued launchToken asset) traderRewardsShare
    let totalFees ← add (s.totalLPFeesAccrued asset) amount
    pure
      { s with
        protocolLPFeesAccrued := update₂ s.protocolLPFeesAccrued
          route.treasury asset protocolFees
        creatorLPFeesAccrued := update₂ s.creatorLPFeesAccrued
          route.creatorPayout asset creatorFees
        communityLPFeesAccrued := update₂ s.communityLPFeesAccrued
          launchToken asset communityFees
        traderRewardsLPFeesAccrued := update₂ s.traderRewardsLPFeesAccrued
          launchToken asset traderRewardsFees
        totalLPFeesAccrued :=
          Function.update s.totalLPFeesAccrued asset totalFees }

/-- `notifyPermanentLPFees`. -/
def notifyPermanentLPFees (I : VaultImmutables) (hasCode : Address → Bool)
    (route : FeeRoute) (st : LPState π) (sender launchToken : Address)
    (amount0 amount1 : Nat) : Except Revert VaultStorage := do
  let s := st.vault
  revertIf (s.permanentLPCustodianDeployer = 0 ∨ launchToken = 0)
    (.vault .unauthorizedPermanentCustodian)
  revertIf (sender ≠ st.custodianOf launchToken ∨ hasCode sender = false)
    (.vault .unauthorizedPermanentCustodian)
  let custodian := st.custodians sender
  revertIf (custodian.positionRegistered = false
      ∨ custodian.launchToken ≠ launchToken ∨ custodian.feeVault ≠ I.self
      ∨ custodian.canonicalFactory ≠ I.factory
      ∨ custodian.graduationManager ≠ I.graduationManager
      ∨ custodian.nonfungiblePositionManager ≠ I.nonfungiblePositionManager)
    (.vault .unauthorizedPermanentCustodian)
  if amount0 = 0 ∧ amount1 = 0 then pure s
  else do
    let launch := st.launches launchToken
    revertIf (route.treasury = 0 ∨ route.creatorPayout = 0
        ∨ launch.registered = false ∨ launch.curve = 0 ∨ launch.creator = 0
        ∨ route.curve ≠ launch.curve ∨ route.creator ≠ launch.creator)
      (.vault .unauthorizedPermanentCustodian)
    let (token0, token1) := sortedPair launchToken
    revertIf (isCanonicalFullRangePosition
        (PositionManager.positions st.positions custodian.positionTokenId)
        (token0, token1) = false)
      (.vault .unauthorizedPermanentCustodian)
    requireBacking s st.vaultBalance token0 amount0
    requireBacking s st.vaultBalance token1 amount1
    let s ← accrue s launchToken token0 amount0 route
    accrue s launchToken token1 amount1 route

/-- The balances of the vault after a collection paid it. -/
def paidInto (balance : Address → Nat) (answer : Option Position)
    (amount0 amount1 : Nat) : Address → Nat :=
  match answer with
  | none => balance
  | some position =>
      let balance := Function.update balance position.token0
        (balance position.token0 + amount0)
      Function.update balance position.token1
        (balance position.token1 + amount1)

/-- `collectFees` of the custodian at an address.  The vault it pays and
    notifies is the one modelled here. -/
def collectFees (I : VaultImmutables) (hasCode : Address → Bool)
    (route : FeeRoute) (st : LPState π) (custodian : Address) :
    Except Revert (LPState π × Nat × Nat) := do
  let c := st.custodians custodian
  revertIf (c.positionRegistered = false)
    (.custodian .positionNotRegistered)
  revertIf (c.feeVault ≠ I.self) .external
  let (positions, amount0, amount1) ← PositionManager.collect st.positions
    custodian c.positionTokenId UINT128_MAX UINT128_MAX
  let st := { st with
    positions
    vaultBalance := paidInto st.vaultBalance
      (PositionManager.positions st.positions c.positionTokenId) amount0
      amount1 }
  let vault ← notifyPermanentLPFees I hasCode route st custodian c.launchToken
    amount0 amount1
  pure ({ st with vault }, amount0, amount1)

/-- `claimLPFees`. -/
def claimLPFees (st : LPState π) (sender asset : Address) :
    Except Revert (LPState π) := do
  let s := st.vault
  revertIf (s.entered = true) .reentrantCall
  revertIf (asset = 0) (.vault .invalidLPFeeAsset)
  let protocolAmount := s.protocolLPFeesAccrued sender asset
  let creatorAmount := s.creatorLPFeesAccrued sender asset
  let total ← add protocolAmount creatorAmount
  revertIf (total = 0) (.vault .nothingToClaimLPFees)
  let totalFees ← sub (s.totalLPFeesAccrued asset) total
  revertIf (st.vaultBalance asset < total) .external
  pure
    { st with
      vault := { s with
        protocolLPFeesAccrued := update₂ s.protocolLPFeesAccrued sender asset 0
        creatorLPFeesAccrued := update₂ s.creatorLPFeesAccrued sender asset 0
        totalLPFeesAccrued :=
          Function.update s.totalLPFeesAccrued asset totalFees }
      vaultBalance := Function.update st.vaultBalance asset
        (st.vaultBalance asset - total) }

/-- The vault's `fundCommunityVault`; `recorded` is whether the community vault
    received exactly the amount and recorded it. -/
def fundCommunityVault (st : LPState π) (launchToken asset : Address)
    (recorded : Bool) : Except Revert (LPState π) := do
  let s := st.vault
  revertIf (s.entered = true) .reentrantCall
  revertIf (asset = 0) (.vault .invalidLPFeeAsset)
  let amount := s.communityLPFeesAccrued launchToken asset
  revertIf (amount = 0) (.vault .nothingToClaimLPFees)
  let totalFees ← sub (s.totalLPFeesAccrued asset) amount
  revertIf (st.vaultBalance asset < amount) .external
  revertIf (recorded = false) (.vault .invalidEcosystemVault)
  pure
    { st with
      vault := { s with
        communityLPFeesAccrued :=
          update₂ s.communityLPFeesAccrued launchToken asset 0
        totalLPFeesAccrued :=
          Function.update s.totalLPFeesAccrued asset totalFees }
      vaultBalance := Function.update st.vaultBalance asset
        (st.vaultBalance asset - amount) }

/-- The vault's `fundTraderRewardsVault`. -/
def fundTraderRewardsVault (st : LPState π) (launchToken asset : Address)
    (recorded : Bool) : Except Revert (LPState π) := do
  let s := st.vault
  revertIf (s.entered = true) .reentrantCall
  revertIf (asset = 0) (.vault .invalidLPFeeAsset)
  let amount := s.traderRewardsLPFeesAccrued launchToken asset
  revertIf (amount = 0) (.vault .nothingToClaimLPFees)
  let totalFees ← sub (s.totalLPFeesAccrued asset) amount
  revertIf (st.vaultBalance asset < amount) .external
  revertIf (recorded = false) (.vault .invalidEcosystemVault)
  pure
    { st with
      vault := { s with
        traderRewardsLPFeesAccrued :=
          update₂ s.traderRewardsLPFeesAccrued launchToken asset 0
        totalLPFeesAccrued :=
          Function.update s.totalLPFeesAccrued asset totalFees }
      vaultBalance := Function.update st.vaultBalance asset
        (st.vaultBalance asset - amount) }

end Vault

/-! ## Inversion -/

section Inversion

variable [MulDiv] {s s' : VaultStorage} {launchToken asset : Address}
  {route : FeeRoute} {amount : Nat}

open MulDiv

omit [MulDiv] in
/-- Crediting nothing changes nothing. -/
theorem credited_zero : credited s launchToken asset 0 route = s := by
  have hshares : lpShares 0 = ⟨0, 0, 0, 0⟩ := rfl
  simp only [credited, hshares, Nat.add_zero, update₂,
    Function.update_eq_self]

/-- **AN ACCRUAL** credits the four shares of the amount. -/
theorem accrue_ok (hfit : amount < uintBound)
    (h : accrue s launchToken asset amount route = .ok s') :
    s' = credited s launchToken asset amount route := by
  unfold accrue at h
  by_cases h0 : amount = 0
  · rw [if_pos h0] at h
    rw [h0, credited_zero]
    exact (pure_ok.mp h).symm
  · rw [if_neg h0] at h
    have hcreator := mulDiv_percent (p := 25) hfit (by decide)
    have hcommunity := mulDiv_percent (p := 30) hfit (by decide)
    have htrader := mulDiv_percent (p := 15) hfit (by decide)
    simp only [LP_CREATOR_FEE_PERCENT, LP_COMMUNITY_FEE_PERCENT,
      LP_TRADER_REWARDS_FEE_PERCENT, FEE_SPLIT_DENOMINATOR, hcreator, hcommunity, htrader, bind_ok,
      sub_ok, add_ok, pure_ok, Except.ok.injEq, exists_eq_left'] at h
    obtain ⟨_, ⟨-, rfl⟩, _, ⟨-, rfl⟩, _, ⟨-, rfl⟩, _, ⟨-, rfl⟩, _, ⟨-, rfl⟩,
      _, ⟨-, rfl⟩, _, ⟨-, rfl⟩, _, ⟨-, rfl⟩, rfl⟩ := h
    rfl

variable {π : Type} [PositionManager π] {I : VaultImmutables}
  {hasCode : Address → Bool} {st st' : LPState π} {sender : Address}
  {amount0 amount1 : Nat}

/-- **A NOTIFICATION** credits both amounts to the recipients the fee manager
    names. -/
theorem notifyPermanentLPFees_ok (h0 : amount0 < uintBound)
    (h1 : amount1 < uintBound)
    (h : notifyPermanentLPFees I hasCode route st sender launchToken amount0
      amount1 = .ok s') :
    s' = credited
      (credited st.vault launchToken (sortedPair launchToken).1 amount0 route)
      launchToken (sortedPair launchToken).2 amount1 route := by
  unfold notifyPermanentLPFees at h
  simp only [bind_ok, revertIf_ok] at h
  obtain ⟨_, -, _, -, _, -, h⟩ := h
  by_cases hz : amount0 = 0 ∧ amount1 = 0
  · rw [if_pos hz] at h
    rw [hz.1, hz.2, credited_zero, credited_zero]
    exact (pure_ok.mp h).symm
  · rw [if_neg hz] at h
    simp only [bind_ok, revertIf_ok] at h
    obtain ⟨_, -, _, -, _, -, _, -, s₁, hs₁, hs'⟩ := h
    rw [accrue_ok h1 hs', accrue_ok h0 hs₁]

/-- **A COLLECTION** moves everything the position owes to the vault and
    credits it to the recipients the fee manager names at that moment. -/
theorem collectFees_ok {custodian : Address}
    (h : collectFees I hasCode route st custodian
      = .ok (st', amount0, amount1)) :
    let c := st.custodians custodian
    let owed := PositionManager.collectable st.positions c.positionTokenId
    c.positionRegistered = true ∧ amount0 = owed.1 ∧ amount1 = owed.2
      ∧ st'.vault = credited
        (credited st.vault c.launchToken (sortedPair c.launchToken).1 owed.1
          route) c.launchToken (sortedPair c.launchToken).2 owed.2 route
      ∧ st'.custodianOf = st.custodianOf ∧ st'.custodians = st.custodians
      ∧ st'.launches = st.launches ∧ st'.settled = st.settled := by
  simp only [collectFees, bind_ok, revertIf_ok, pure_ok, Bool.not_eq_false,
    Prod.mk.injEq] at h
  obtain ⟨_, hregistered, _, -, ⟨positions, a0, a1⟩, hcollect, vault, hnotify,
    rfl, rfl, rfl⟩ := h
  obtain ⟨hle0, hle1⟩ := PositionManager.collectable_le st.positions
    (st.custodians custodian).positionTokenId
  obtain ⟨ha0, ha1⟩ := PositionManager.collect_amounts _ _ _ _ _ _ _ _ hcollect
  rw [Nat.min_eq_left hle0] at ha0
  rw [Nat.min_eq_left hle1] at ha1
  have hmax : UINT128_MAX < uintBound := by decide
  have hfit0 : a0 < uintBound := by omega
  have hfit1 : a1 < uintBound := by omega
  have hvault := notifyPermanentLPFees_ok hfit0 hfit1 hnotify
  subst ha0 ha1
  exact ⟨hregistered, rfl, rfl, hvault, rfl, rfl, rfl, rfl⟩

omit [MulDiv] [PositionManager π] in
/-- **A CLAIM** pays the claimer's own row. -/
theorem claimLPFees_ok (h : claimLPFees st sender asset = .ok st') :
    ∃ totalFees, st' = { st with
      vault := { st.vault with
        protocolLPFeesAccrued :=
          update₂ st.vault.protocolLPFeesAccrued sender asset 0
        creatorLPFeesAccrued :=
          update₂ st.vault.creatorLPFeesAccrued sender asset 0
        totalLPFeesAccrued :=
          Function.update st.vault.totalLPFeesAccrued asset totalFees }
      vaultBalance := Function.update st.vaultBalance asset
        (st.vaultBalance asset
          - (st.vault.protocolLPFeesAccrued sender asset
            + st.vault.creatorLPFeesAccrued sender asset)) } := by
  simp only [claimLPFees, bind_ok, revertIf_ok, add_ok, sub_ok, pure_ok] at h
  obtain ⟨_, -, _, -, _, ⟨-, rfl⟩, _, -, _, ⟨-, rfl⟩, _, -, rfl⟩ := h
  exact ⟨_, rfl⟩

omit [MulDiv] [PositionManager π] in
theorem fundCommunityVault_ok {recorded : Bool}
    (h : fundCommunityVault st launchToken asset recorded = .ok st') :
    ∃ totalFees balance, st' = { st with
      vault := { st.vault with
        communityLPFeesAccrued :=
          update₂ st.vault.communityLPFeesAccrued launchToken asset 0
        totalLPFeesAccrued := totalFees }
      vaultBalance := balance } := by
  simp only [fundCommunityVault, bind_ok, revertIf_ok, sub_ok, pure_ok] at h
  obtain ⟨_, -, _, -, _, -, _, ⟨-, rfl⟩, _, -, _, -, rfl⟩ := h
  exact ⟨_, _, rfl⟩

omit [MulDiv] [PositionManager π] in
theorem fundTraderRewardsVault_ok {recorded : Bool}
    (h : fundTraderRewardsVault st launchToken asset recorded = .ok st') :
    ∃ totalFees balance, st' = { st with
      vault := { st.vault with
        traderRewardsLPFeesAccrued :=
          update₂ st.vault.traderRewardsLPFeesAccrued launchToken asset 0
        totalLPFeesAccrued := totalFees }
      vaultBalance := balance } := by
  simp only [fundTraderRewardsVault, bind_ok, revertIf_ok, sub_ok,
    pure_ok] at h
  obtain ⟨_, -, _, -, _, -, _, ⟨-, rfl⟩, _, -, _, -, rfl⟩ := h
  exact ⟨_, _, rfl⟩

end Inversion

/-- A position manager with one full-range position of the token 21, whose
    uncollected fees are the state. -/
@[reducible] def onePosition : PositionManager (Nat × Nat) where
  ownerOf _ _ := 50
  positions _ _ := some ⟨21, CANONICAL_USDC, POOL_FEE, FULL_RANGE_TICK_LOWER,
    FULL_RANGE_TICK_UPPER⟩
  collectable p _ := (min p.1 UINT128_MAX, min p.2 UINT128_MAX)
  collect p _ _ max0 max1 :=
    .ok ((p.1 - min (min p.1 UINT128_MAX) max0,
        p.2 - min (min p.2 UINT128_MAX) max1),
      min (min p.1 UINT128_MAX) max0, min (min p.2 UINT128_MAX) max1)
  collectable_le _ _ := ⟨Nat.min_le_right _ _, Nat.min_le_right _ _⟩
  collect_amounts _ _ _ _ _ _ _ _ h := by
    cases Except.ok.inj h
    exact ⟨rfl, rfl⟩

end LPVault
