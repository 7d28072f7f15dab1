import Cooket.LPVaultProofs
import Cooket.ReentrantProofs

/-! # The LP fee ledger stays backed

    The vault together with its custodians, as a machine: anybody calls
    anything, the recipients of the fees change as the fee manager likes, and
    tokens are donated to the vault.  A payment out of the vault hands control
    to the asset and its recipient, who may call the vault again.

    The vault credits two amounts after ONE balance check for each, so the two
    assets of a notification must differ.  They do because the constructor of
    a custodian refuses the canonical USDC as its launch token (`Canonical`).

    Per asset, the running total is the sum of the entries of all four bucket
    families and the vault holds at least that (`Backed`); ONE lemma for every
    write says what it does to the sum. -/

namespace LPLedger

open CheckedArith Contract LPVault LedgerSum Reentrant

/-! ## The outstanding entries -/

/-- All outstanding entries in one asset: protocol and creator by recipient,
    community and trader rewards by token. -/
def outstanding (s : VaultStorage) (asset : Address) : Nat :=
  ∑ recipient, s.protocolLPFeesAccrued recipient asset
    + ∑ recipient, s.creatorLPFeesAccrued recipient asset
    + ∑ launchToken, s.communityLPFeesAccrued launchToken asset
    + ∑ launchToken, s.traderRewardsLPFeesAccrued launchToken asset

section Writes

variable {s : VaultStorage} {launchToken asset other : Address}
  {route : FeeRoute} {amount : Nat}

/-- A credit raises what is outstanding in its asset by the amount. -/
theorem outstanding_credited :
    outstanding (credited s launchToken asset amount route) asset
      = outstanding s asset + amount := by
  have hprotocol := sum_column s.protocolLPFeesAccrued route.treasury asset
    (s.protocolLPFeesAccrued route.treasury asset
      + (lpShares amount).protocolShare)
  have hcreator := sum_column s.creatorLPFeesAccrued route.creatorPayout asset
    (s.creatorLPFeesAccrued route.creatorPayout asset
      + (lpShares amount).creatorShare)
  have hcommunity := sum_column s.communityLPFeesAccrued launchToken asset
    (s.communityLPFeesAccrued launchToken asset
      + (lpShares amount).communityShare)
  have htrader := sum_column s.traderRewardsLPFeesAccrued launchToken asset
    (s.traderRewardsLPFeesAccrued launchToken asset
      + (lpShares amount).traderRewardsShare)
  have hshares := lpShares_sum amount
  simp only [outstanding, credited]
  omega

/-- … and in no other asset. -/
theorem outstanding_credited_of_ne (h : other ≠ asset) :
    outstanding (credited s launchToken asset amount route) other
      = outstanding s other := by
  simp only [outstanding, credited, sum_column_of_ne _ _ _ h]

theorem totalLPFeesAccrued_credited :
    (credited s launchToken asset amount route).totalLPFeesAccrued asset
      = s.totalLPFeesAccrued asset + amount :=
  Function.update_self _ _ _

theorem totalLPFeesAccrued_credited_of_ne (h : other ≠ asset) :
    (credited s launchToken asset amount route).totalLPFeesAccrued other
      = s.totalLPFeesAccrued other :=
  Function.update_of_ne h _ _

end Writes

/-! ## Backing -/

/-- **ONE ASSET IS BACKED**: its total is the sum of its entries, and the
    vault holds at least that. -/
structure BackedIn (s : VaultStorage) (balance : Nat) (asset : Address) :
    Prop where
  total : s.totalLPFeesAccrued asset = outstanding s asset
  covered : s.totalLPFeesAccrued asset ≤ balance

/-- Every asset is backed. -/
def Backed (s : VaultStorage) (balance : Address → Nat) : Prop :=
  ∀ asset, BackedIn s (balance asset) asset

section Backing

variable {s : VaultStorage} {balance balance' : Address → Nat}

theorem Backed.of_le (h : Backed s balance)
    (hle : ∀ asset, balance asset ≤ balance' asset) : Backed s balance' := by
  intro asset
  obtain ⟨htotal, hcovered⟩ := h asset
  exact ⟨htotal, hcovered.trans (hle asset)⟩

/-- Backing reads the books only. -/
theorem Backed.of_same {s' : VaultStorage} (h : Backed s balance)
    (hout : outstanding s' = outstanding s)
    (htotal : s'.totalLPFeesAccrued = s.totalLPFeesAccrued) :
    Backed s' balance := by
  intro asset
  obtain ⟨hsum, hcovered⟩ := h asset
  refine ⟨?_, ?_⟩
  · rw [hout, htotal]
    exact hsum
  · rw [htotal]
    exact hcovered

/-- A credit that was checked against the balance. -/
theorem Backed.credited {launchToken asset : Address} {route : FeeRoute}
    {amount : Nat} (h : Backed s balance)
    (hle : s.totalLPFeesAccrued asset + amount ≤ balance asset) :
    Backed (credited s launchToken asset amount route) balance := by
  intro other
  obtain ⟨htotal, hcovered⟩ := h other
  by_cases ho : other = asset
  · subst ho
    refine ⟨?_, ?_⟩
    · rw [totalLPFeesAccrued_credited, outstanding_credited, htotal]
    · rw [totalLPFeesAccrued_credited]
      exact hle
  · refine ⟨?_, ?_⟩
    · rw [totalLPFeesAccrued_credited_of_ne ho,
        outstanding_credited_of_ne ho]
      exact htotal
    · rw [totalLPFeesAccrued_credited_of_ne ho]
      exact hcovered

/-- A payment: one asset's entries, total and balance fall together, and
    nothing happens to the others. -/
theorem Backed.paid {s' : VaultStorage} {asset : Address} {amount : Nat}
    (h : Backed s balance)
    (hout : outstanding s' asset + amount = outstanding s asset)
    (hother : ∀ other, other ≠ asset →
      outstanding s' other = outstanding s other)
    (htotal : s'.totalLPFeesAccrued = Function.update s.totalLPFeesAccrued
      asset (s.totalLPFeesAccrued asset - amount)) :
    Backed s' (Function.update balance asset (balance asset - amount)) := by
  intro other
  obtain ⟨hsum, hcovered⟩ := h other
  by_cases ho : other = asset
  · subst ho
    refine ⟨?_, ?_⟩
    · rw [htotal, Function.update_self]
      omega
    · rw [htotal, Function.update_self, Function.update_self]
      omega
  · refine ⟨?_, ?_⟩
    · rw [htotal, Function.update_of_ne ho, hother other ho]
      exact hsum
    · rw [htotal, Function.update_of_ne ho, Function.update_of_ne ho]
      exact hcovered

end Backing

/-! ## The functions -/

section Vault

variable [MulDiv] {π : Type} [PositionManager π] {I : VaultImmutables}
  {hasCode : Address → Bool} {route : FeeRoute} {st st' : LPState π}
  {sender launchToken asset : Address} {amount0 amount1 : Nat}

omit [MulDiv] in
/-- The two assets of a launch token's pool differ, unless the launch token is
    the canonical USDC itself. -/
theorem sortedPair_ne (h : launchToken ≠ CANONICAL_USDC) :
    (sortedPair launchToken).2 ≠ (sortedPair launchToken).1 := by
  unfold sortedPair
  split
  · exact h.symm
  · exact h

omit [MulDiv] [PositionManager π] in
theorem requireBacking_ok {s : VaultStorage} {balance : Address → Nat}
    {amount : Nat} {u : Unit}
    (h : requireBacking s balance asset amount = .ok u) :
    amount < uintBound
      ∧ s.totalLPFeesAccrued asset + amount ≤ balance asset := by
  simp only [requireBacking, bind_ok, add_ok, revertIf_ok, Nat.not_lt] at h
  obtain ⟨_, ⟨hfit, rfl⟩, hle⟩ := h
  exact ⟨by omega, hle⟩

/-- **A NOTIFICATION** comes from a custodian of its token, and either there is
    nothing to credit, or both amounts were checked against the balance and
    credited. -/
theorem notifyPermanentLPFees_credits {s' : VaultStorage}
    (h : notifyPermanentLPFees I hasCode route st sender launchToken amount0
      amount1 = .ok s') :
    (st.custodians sender).launchToken = launchToken
      ∧ s' = credited
        (credited st.vault launchToken (sortedPair launchToken).1 amount0
          route) launchToken (sortedPair launchToken).2 amount1 route
      ∧ (amount0 = 0 ∧ amount1 = 0
        ∨ st.vault.totalLPFeesAccrued (sortedPair launchToken).1 + amount0
            ≤ st.vaultBalance (sortedPair launchToken).1
          ∧ st.vault.totalLPFeesAccrued (sortedPair launchToken).2 + amount1
            ≤ st.vaultBalance (sortedPair launchToken).2) := by
  have hcall := h
  simp only [notifyPermanentLPFees, bind_ok, revertIf_ok, not_or,
    ne_eq, Decidable.not_not] at h
  obtain ⟨_, -, _, -, _, ⟨-, htoken, -⟩, h⟩ := h
  by_cases hzero : amount0 = 0 ∧ amount1 = 0
  · have hpos : 0 < uintBound := by decide
    refine ⟨htoken, notifyPermanentLPFees_ok ?_ ?_ hcall, Or.inl hzero⟩
    · rw [hzero.1]
      exact hpos
    · rw [hzero.2]
      exact hpos
  · rw [if_neg hzero] at h
    simp only [bind_ok, revertIf_ok] at h
    obtain ⟨_, -, _, -, _, h0, _, h1, -⟩ := h
    obtain ⟨hfit0, hle0⟩ := requireBacking_ok h0
    obtain ⟨hfit1, hle1⟩ := requireBacking_ok h1
    exact ⟨htoken, notifyPermanentLPFees_ok hfit0 hfit1 hcall,
      Or.inr ⟨hle0, hle1⟩⟩

/-- A notification keeps every asset backed. -/
theorem notifyPermanentLPFees_backed {s' : VaultStorage}
    (h : notifyPermanentLPFees I hasCode route st sender launchToken amount0
      amount1 = .ok s')
    (hcanonical : ∀ a, (st.custodians a).launchToken ≠ CANONICAL_USDC)
    (hb : Backed st.vault st.vaultBalance) : Backed s' st.vaultBalance := by
  obtain ⟨htoken, rfl, hzero | ⟨hle0, hle1⟩⟩ := notifyPermanentLPFees_credits h
  · rw [hzero.1, hzero.2, credited_zero, credited_zero]
    exact hb
  · have htoken' : launchToken ≠ CANONICAL_USDC := by
      rw [← htoken]
      exact hcanonical sender
    have hne := sortedPair_ne htoken'
    refine (hb.credited hle0).credited ?_
    rw [totalLPFeesAccrued_credited_of_ne hne]
    exact hle1

omit [MulDiv] [PositionManager π] in
/-- A claim keeps every asset backed. -/
theorem claimLPFees_backed (hb : Backed st.vault st.vaultBalance)
    (h : claimLPFees st sender asset = .ok st') :
    Backed st'.vault st'.vaultBalance := by
  simp only [claimLPFees, bind_ok, revertIf_ok, add_ok, sub_ok, pure_ok] at h
  obtain ⟨_, -, _, -, _, ⟨-, rfl⟩, _, -, _, ⟨-, rfl⟩, _, -, rfl⟩ := h
  refine hb.paid ?_ ?_ rfl
  · have hprotocol :=
      sum_column st.vault.protocolLPFeesAccrued sender asset 0
    have hcreator := sum_column st.vault.creatorLPFeesAccrued sender asset 0
    simp only [outstanding]
    omega
  · intro other hother
    simp only [outstanding, sum_column_of_ne _ _ _ hother]

omit [MulDiv] [PositionManager π] in
theorem fundCommunityVault_backed {recorded : Bool}
    (hb : Backed st.vault st.vaultBalance)
    (h : fundCommunityVault st launchToken asset recorded = .ok st') :
    Backed st'.vault st'.vaultBalance := by
  simp only [fundCommunityVault, bind_ok, revertIf_ok, sub_ok, pure_ok] at h
  obtain ⟨_, -, _, -, _, -, _, ⟨-, rfl⟩, _, -, _, -, rfl⟩ := h
  refine hb.paid ?_ ?_ rfl
  · have hcommunity :=
      sum_column st.vault.communityLPFeesAccrued launchToken asset 0
    simp only [outstanding]
    omega
  · intro other hother
    simp only [outstanding, sum_column_of_ne _ _ _ hother]

omit [MulDiv] [PositionManager π] in
theorem fundTraderRewardsVault_backed {recorded : Bool}
    (hb : Backed st.vault st.vaultBalance)
    (h : fundTraderRewardsVault st launchToken asset recorded = .ok st') :
    Backed st'.vault st'.vaultBalance := by
  simp only [fundTraderRewardsVault, bind_ok, revertIf_ok, sub_ok,
    pure_ok] at h
  obtain ⟨_, -, _, -, _, -, _, ⟨-, rfl⟩, _, -, _, -, rfl⟩ := h
  refine hb.paid ?_ ?_ rfl
  · have htrader :=
      sum_column st.vault.traderRewardsLPFeesAccrued launchToken asset 0
    simp only [outstanding]
    omega
  · intro other hother
    simp only [outstanding, sum_column_of_ne _ _ _ hother]

omit [MulDiv] [PositionManager π] in
/-- What a collection pays into the vault only adds to its balances. -/
theorem le_paidInto (balance : Address → Nat) (answer : Option Position)
    (amount0 amount1 : Nat) (a : Address) :
    balance a ≤ paidInto balance answer amount0 amount1 a := by
  cases answer with
  | none => exact Nat.le_refl _
  | some position =>
      exact (le_update_add _ _ _ _).trans (le_update_add _ _ _ _)

/-- A collection keeps every asset backed. -/
theorem collectFees_backed {custodian : Address}
    (hcanonical : ∀ a, (st.custodians a).launchToken ≠ CANONICAL_USDC)
    (hb : Backed st.vault st.vaultBalance)
    (h : collectFees I hasCode route st custodian
      = .ok (st', amount0, amount1)) :
    Backed st'.vault st'.vaultBalance ∧ st'.custodians = st.custodians := by
  simp only [collectFees, bind_ok, revertIf_ok, pure_ok, Prod.mk.injEq] at h
  obtain ⟨_, -, _, -, ⟨positions, a0, a1⟩, -, vault, hnotify, rfl, rfl,
    rfl⟩ := h
  have hlater := notifyPermanentLPFees_backed hnotify hcanonical
    (hb.of_le (le_paidInto _ _ _ _))
  exact ⟨hlater, rfl⟩

end Vault

/-! ## Custody -/

/-- What the rest of the protocol answers while a custodian is created, and
    the address it is created at. -/
structure CustodyAnswers where
  hasCode : Address → Bool
  newCustodian : Address
  /-- The version hashes and back references the constructor compares. -/
  dependenciesAgree : Bool
  /-- The factory's `isToken` and `curveOf`. -/
  isToken : Address → Bool
  curveOf : Address → Address

section Custody

variable {π : Type} (I : VaultImmutables) (C : CustodyAnswers)

/-- `setPermanentLPCustodianDeployerOnce`; the bootstrap authority is the
    graduation manager until a deployer is set. -/
def setPermanentLPCustodianDeployerOnce (st : LPState π)
    (sender deployer : Address) : Except Revert (LPState π) := do
  revertIf (st.vault.permanentLPCustodianDeployer ≠ 0) .external
  revertIf (sender ≠ I.graduationManager) .external
  revertIf (deployer = 0 ∨ C.hasCode deployer = false
    ∨ C.dependenciesAgree = false) .external
  pure { st with
    vault := { st.vault with permanentLPCustodianDeployer := deployer } }

/-- The constructor of `PermanentLPCustodianV3`. -/
def newCustodian (st : LPState π) (route : FeeRoute) (launchToken : Address) :
    Except Revert Custodian := do
  revertIf (launchToken = 0 ∨ launchToken = CANONICAL_USDC
      ∨ C.hasCode launchToken = false ∨ C.hasCode CANONICAL_USDC = false
      ∨ C.dependenciesAgree = false) (.custodian .invalidDependency)
  let launch := st.launches launchToken
  revertIf (launch.registered = false ∨ launch.curve = 0 ∨ launch.creator = 0
      ∨ C.isToken launchToken = false
      ∨ C.curveOf launchToken ≠ launch.curve ∨ route.curve ≠ launch.curve
      ∨ route.creator ≠ launch.creator) (.custodian .invalidDependency)
  pure ⟨launchToken, I.graduationManager, I.self,
    I.nonfungiblePositionManager, I.factory, 0, false⟩

/-- `deployCustodian`. -/
def deployCustodian (st : LPState π) (route : FeeRoute)
    (sender launchToken : Address) : Except Revert (LPState π) := do
  revertIf (sender ≠ I.graduationManager)
    (.deployer .unauthorizedGraduationManager)
  revertIf (launchToken = 0 ∨ C.hasCode launchToken = false)
    (.deployer .invalidLaunchToken)
  revertIf (st.custodianOf launchToken ≠ 0)
    (.deployer .custodianAlreadyDeployed)
  revertIf (C.hasCode C.newCustodian = true) .external
  let custodian ← newCustodian I C st route launchToken
  pure { st with
    custodians := Function.update st.custodians C.newCustodian custodian
    custodianOf :=
      Function.update st.custodianOf launchToken C.newCustodian }

/-- `bindPosition`. -/
def bindPosition [PositionManager π] (st : LPState π)
    (sender custodian : Address) (tokenId : Nat) :
    Except Revert (LPState π) := do
  let c := st.custodians custodian
  revertIf (sender ≠ c.graduationManager)
    (.custodian .unauthorizedGraduationManager)
  revertIf (tokenId = 0) (.custodian .invalidTokenId)
  revertIf (c.positionRegistered = true) (.custodian .alreadyRegistered)
  revertIf (PositionManager.ownerOf st.positions tokenId ≠ custodian)
    (.custodian .invalidPosition)
  revertIf (isCanonicalFullRangePosition
      (PositionManager.positions st.positions tokenId)
      (sortedPair c.launchToken) = false) (.custodian .invalidPosition)
  pure { st with
    custodians := Function.update st.custodians custodian
      { c with positionTokenId := tokenId, positionRegistered := true } }

/-- No custodian is for the canonical USDC. -/
def Canonical (st : LPState π) : Prop :=
  ∀ a, (st.custodians a).launchToken ≠ CANONICAL_USDC

variable {I C} {st st' : LPState π} {sender launchToken : Address}

theorem Canonical.update (h : Canonical st) {a : Address} {c : Custodian}
    (hc : c.launchToken ≠ CANONICAL_USDC)
    (hst : st'.custodians = Function.update st.custodians a c) :
    Canonical st' := by
  intro b
  rw [hst]
  by_cases hb : b = a
  · subst hb
    rw [Function.update_self]
    exact hc
  · rw [Function.update_of_ne hb]
    exact h b

theorem deployCustodian_canonical {route : FeeRoute} (hst : Canonical st)
    (h : deployCustodian I C st route sender launchToken = .ok st') :
    Canonical st' ∧ st'.vault = st.vault
      ∧ st'.vaultBalance = st.vaultBalance := by
  simp only [deployCustodian, newCustodian, bind_ok, revertIf_ok, not_or,
    pure_ok] at h
  obtain ⟨_, -, _, -, _, -, _, -, c, ⟨_, ⟨-, hne, -⟩, _, -, rfl⟩, rfl⟩ := h
  exact ⟨hst.update hne rfl, rfl, rfl⟩

theorem bindPosition_canonical [PositionManager π] {custodian : Address}
    {tokenId : Nat} (hst : Canonical st)
    (h : bindPosition st sender custodian tokenId = .ok st') :
    Canonical st' ∧ st'.vault = st.vault
      ∧ st'.vaultBalance = st.vaultBalance := by
  simp only [bindPosition, bind_ok, revertIf_ok, pure_ok] at h
  obtain ⟨_, -, _, -, _, -, _, -, _, -, rfl⟩ := h
  refine ⟨Canonical.update hst ?_ rfl, rfl, rfl⟩
  exact hst custodian

theorem setPermanentLPCustodianDeployerOnce_ok {deployer : Address}
    (h : setPermanentLPCustodianDeployerOnce I C st sender deployer
      = .ok st') :
    st' = { st with vault :=
      { st.vault with permanentLPCustodianDeployer := deployer } } := by
  simp only [setPermanentLPCustodianDeployerOnce, bind_ok, revertIf_ok,
    pure_ok] at h
  obtain ⟨_, -, _, -, _, -, rfl⟩ := h
  rfl

end Custody

/-! ## The machine -/

/-- The vault, its custodians, and what the fee manager answers about every
    token. -/
structure System (π : Type) where
  lp : LPState π
  routes : Address → FeeRoute

/-- What can happen. -/
inductive Call (π : Type) where
  | setPermanentLPCustodianDeployerOnce (C : CustodyAnswers)
      (sender deployer : Address)
  | deployCustodian (C : CustodyAnswers) (sender launchToken : Address)
  | bindPosition (sender custodian : Address) (tokenId : Nat)
  | notifyPermanentLPFees (hasCode : Address → Bool)
      (sender launchToken : Address) (amount0 amount1 : Nat)
  | collectFees (hasCode : Address → Bool) (custodian : Address)
  | claimLPFees (sender asset : Address)
  | fundCommunityVault (launchToken asset : Address) (recorded : Bool)
  | fundTraderRewardsVault (launchToken asset : Address) (recorded : Bool)
  /-- The fee manager changes the treasury, a creator payout or a
      registration. -/
  | reroute (routes : Address → FeeRoute)
  /-- A third party transfers tokens to the vault. -/
  | donate (asset : Address) (amount : Nat)
  /-- Launches and graduations. -/
  | register (launches : Address → Launch) (settled : Address → Bool)
  /-- Trading and other collections move the positions. -/
  | trade (positions : π)

section Machine

variable [MulDiv] {π : Type} [PositionManager π]

/-- A call that hands control to nobody. -/
def quiet (s : System π) : Entry (System π) Bool := ⟨s, false, false⟩

/-- A payment: the guard is held while the asset and its recipient run. -/
def paying (s : System π) (lp : LPState π) : Entry (System π) Bool where
  state :=
    { s with lp := { lp with vault := { lp.vault with entered := true } } }
  yields := true
  ret := true

/-- The vault and its custodians as a machine. -/
def machine (I : VaultImmutables) :
    Machine (System π) (Call π) Bool Revert where
  enter
    | .setPermanentLPCustodianDeployerOnce C sender deployer, s => do
        let lp ←
          setPermanentLPCustodianDeployerOnce I C s.lp sender deployer
        pure (quiet { s with lp })
    | .deployCustodian C sender launchToken, s => do
        let lp ← deployCustodian I C s.lp (s.routes launchToken) sender
          launchToken
        pure (quiet { s with lp })
    | .bindPosition sender custodian tokenId, s => do
        let lp ← bindPosition s.lp sender custodian tokenId
        pure (quiet { s with lp })
    | .notifyPermanentLPFees hasCode sender launchToken amount0 amount1,
        s => do
        let vault ← notifyPermanentLPFees I hasCode (s.routes launchToken)
          s.lp sender launchToken amount0 amount1
        pure (quiet { s with lp := { s.lp with vault } })
    | .collectFees hasCode custodian, s => do
        let (lp, _, _) ← collectFees I hasCode
          (s.routes (s.lp.custodians custodian).launchToken) s.lp custodian
        pure (quiet { s with lp })
    | .claimLPFees sender asset, s => do
        let lp ← claimLPFees s.lp sender asset
        pure (paying s lp)
    | .fundCommunityVault launchToken asset recorded, s => do
        let lp ← fundCommunityVault s.lp launchToken asset recorded
        pure (paying s lp)
    | .fundTraderRewardsVault launchToken asset recorded, s => do
        let lp ← fundTraderRewardsVault s.lp launchToken asset recorded
        pure (paying s lp)
    | .reroute routes, s => pure (quiet { s with routes })
    | .donate asset amount, s =>
        pure (quiet { s with lp := { s.lp with
          vaultBalance := Function.update s.lp.vaultBalance asset
            (s.lp.vaultBalance asset + amount) } })
    | .register launches settled, s =>
        pure (quiet { s with lp := { s.lp with launches, settled } })
    | .trade positions, s =>
        pure (quiet { s with lp := { s.lp with positions } })
  leave guarded s :=
    if guarded then
      { s with lp := { s.lp with
        vault := { s.lp.vault with entered := false } } }
    else s

/-- The state after deployment, on addresses that may hold tokens already. -/
def deployed (positions : π) (balance : Address → Nat)
    (routes : Address → FeeRoute) : System π where
  lp :=
    { positions
      vault :=
        { entered := false
          permanentLPCustodianDeployer := 0
          protocolLPFeesAccrued := fun _ _ => 0
          creatorLPFeesAccrued := fun _ _ => 0
          communityLPFeesAccrued := fun _ _ => 0
          traderRewardsLPFeesAccrued := fun _ _ => 0
          totalLPFeesAccrued := fun _ => 0 }
      vaultBalance := balance
      custodianOf := fun _ => 0
      custodians := fun _ => ⟨0, 0, 0, 0, 0, 0, false⟩
      launches := fun _ => ⟨0, 0, false, false⟩
      settled := fun _ => false }
  routes

/-- **THE INVARIANT**: every asset is backed, and no custodian is for the
    canonical USDC. -/
structure Sound (s : System π) : Prop where
  backed : Backed s.lp.vault s.lp.vaultBalance
  canonical : Canonical s.lp

omit [MulDiv] [PositionManager π] in
theorem sound_deployed (positions : π) (balance : Address → Nat)
    (routes : Address → FeeRoute) :
    Sound (deployed positions balance routes) where
  backed asset := by
    refine ⟨?_, Nat.zero_le _⟩
    simp [deployed, outstanding]
  canonical a := by
    show (0 : Address) ≠ CANONICAL_USDC
    decide

/-- **EVERY CALL KEEPS THE VAULT BACKED**, in both of its halves. -/
theorem keeps_sound (I : VaultImmutables) :
    (machine (π := π) I).Keeps Sound where
  enter := by
    intro k s e h hs
    obtain ⟨hbacked, hcanonical⟩ := hs
    cases k with
    | setPermanentLPCustodianDeployerOnce C sender deployer =>
        simp only [machine, bind_ok, pure_ok] at h
        obtain ⟨lp, hlp, rfl⟩ := h
        obtain rfl := setPermanentLPCustodianDeployerOnce_ok hlp
        exact ⟨hbacked.of_same rfl rfl, hcanonical⟩
    | deployCustodian C sender launchToken =>
        simp only [machine, bind_ok, pure_ok] at h
        obtain ⟨lp, hlp, rfl⟩ := h
        obtain ⟨hlater, hvault, hbalance⟩ :=
          deployCustodian_canonical hcanonical hlp
        refine ⟨?_, hlater⟩
        show Backed lp.vault lp.vaultBalance
        rw [hvault, hbalance]
        exact hbacked
    | bindPosition sender custodian tokenId =>
        simp only [machine, bind_ok, pure_ok] at h
        obtain ⟨lp, hlp, rfl⟩ := h
        obtain ⟨hlater, hvault, hbalance⟩ :=
          bindPosition_canonical hcanonical hlp
        refine ⟨?_, hlater⟩
        show Backed lp.vault lp.vaultBalance
        rw [hvault, hbalance]
        exact hbacked
    | notifyPermanentLPFees hasCode sender launchToken amount0 amount1 =>
        simp only [machine, bind_ok, pure_ok] at h
        obtain ⟨vault, hvault, rfl⟩ := h
        have hlater : Backed vault s.lp.vaultBalance :=
          notifyPermanentLPFees_backed hvault hcanonical hbacked
        exact ⟨hlater, hcanonical⟩
    | collectFees hasCode custodian =>
        simp only [machine, bind_ok, pure_ok] at h
        obtain ⟨⟨lp, a0, a1⟩, hlp, rfl⟩ := h
        obtain ⟨hlater, hcustodians⟩ :=
          collectFees_backed hcanonical hbacked hlp
        refine ⟨hlater, ?_⟩
        intro a
        show (lp.custodians a).launchToken ≠ CANONICAL_USDC
        rw [hcustodians]
        exact hcanonical a
    | claimLPFees sender asset =>
        simp only [machine, bind_ok, pure_ok] at h
        obtain ⟨lp, hlp, rfl⟩ := h
        have hlater := claimLPFees_backed hbacked hlp
        obtain ⟨totalFees, rfl⟩ := claimLPFees_ok hlp
        exact ⟨hlater.of_same rfl rfl, hcanonical⟩
    | fundCommunityVault launchToken asset recorded =>
        simp only [machine, bind_ok, pure_ok] at h
        obtain ⟨lp, hlp, rfl⟩ := h
        have hlater := fundCommunityVault_backed hbacked hlp
        obtain ⟨totalFees, balance, rfl⟩ := fundCommunityVault_ok hlp
        exact ⟨hlater.of_same rfl rfl, hcanonical⟩
    | fundTraderRewardsVault launchToken asset recorded =>
        simp only [machine, bind_ok, pure_ok] at h
        obtain ⟨lp, hlp, rfl⟩ := h
        have hlater := fundTraderRewardsVault_backed hbacked hlp
        obtain ⟨totalFees, balance, rfl⟩ := fundTraderRewardsVault_ok hlp
        exact ⟨hlater.of_same rfl rfl, hcanonical⟩
    | reroute routes =>
        cases Except.ok.inj h
        exact ⟨hbacked, hcanonical⟩
    | donate asset amount =>
        cases Except.ok.inj h
        exact ⟨hbacked.of_le (le_update_add _ _ _), hcanonical⟩
    | register launches settled =>
        cases Except.ok.inj h
        exact ⟨hbacked, hcanonical⟩
    | trade positions =>
        cases Except.ok.inj h
        exact ⟨hbacked, hcanonical⟩
  leave := by
    intro k s e _ s' hs'
    obtain ⟨hbacked, hcanonical⟩ := hs'
    cases hret : e.ret with
    | true => exact ⟨hbacked.of_same rfl rfl, hcanonical⟩
    | false => exact ⟨hbacked, hcanonical⟩

/-! ## The ledger -/

/-- **THE LP FEE LEDGER**: wherever somebody else has control, the total of
    every asset is the sum of its outstanding entries and the vault holds at
    least that; a notification credits four shares of each amount that add up
    to it; and a rejected call, or one whose callee fails, changes nothing. -/
theorem lp_fee_ledger (I : VaultImmutables) (positions : π)
    (balance : Address → Nat) (routes : Address → FeeRoute) :
    (∀ s, (machine I).Observable (deployed positions balance routes) s →
      ∀ asset,
        s.lp.vault.totalLPFeesAccrued asset
          = ∑ recipient, s.lp.vault.protocolLPFeesAccrued recipient asset
            + ∑ recipient, s.lp.vault.creatorLPFeesAccrued recipient asset
            + ∑ token, s.lp.vault.communityLPFeesAccrued token asset
            + ∑ token, s.lp.vault.traderRewardsLPFeesAccrued token asset
        ∧ s.lp.vault.totalLPFeesAccrued asset ≤ s.lp.vaultBalance asset) ∧
    (∀ hasCode route (st : LPState π) sender launchToken amount0 amount1
        vault,
      notifyPermanentLPFees I hasCode route st sender launchToken amount0
        amount1 = .ok vault →
      vault = credited
          (credited st.vault launchToken (sortedPair launchToken).1 amount0
            route) launchToken (sortedPair launchToken).2 amount1 route
        ∧ ∀ amount, (lpShares amount).protocolShare
          + (lpShares amount).creatorShare + (lpShares amount).communityShare
          + (lpShares amount).traderRewardsShare = amount) ∧
    (∀ k callback s, (∀ e, (machine I).enter k s = .ok e →
        e.yields = true ∧ (machine I).run callback e.state = none) →
      (machine (π := π) I).transact k callback s = s) := by
  refine ⟨?_, ?_, ?_⟩
  · intro s hs asset
    obtain ⟨hbacked, -⟩ := (keeps_sound I).observable
      (sound_deployed positions balance routes) hs
    obtain ⟨htotal, hcovered⟩ := hbacked asset
    exact ⟨htotal, hcovered⟩
  · intro hasCode route st sender launchToken amount0 amount1 vault h
    obtain ⟨-, hvault, -⟩ := notifyPermanentLPFees_credits h
    exact ⟨hvault, lpShares_sum⟩
  · intro k callback s hrejected
    rcases (machine I).complete_cases ((machine I).run callback) k s with
      hsame | ⟨e, s', he, hyields, -, -⟩
    · exact hsame
    · obtain ⟨hy, hnone⟩ := hrejected e he
      rw [hyields hy] at hnone
      exact nomatch hnone

end Machine

/-- What the protocol answers when the custodian 50 of the token 21 is
    created. -/
def oneCustody : CustodyAnswers where
  hasCode a := a ∈ ([17, 21, CANONICAL_USDC] : List Address)
  newCustodian := 50
  dependenciesAgree := true
  isToken a := a == 21
  curveOf a := if a = 21 then 20 else 0

/-- The vault is wired, the token 21 graduates, its custodian gets the position
    and collects 1000 of the token and 2000 of USDC; the creator 22 claims its
    USDC, and claims again while it is being paid. -/
def collectedFees : System (Nat × Nat) :=
  letI := exactMulDiv
  letI := onePosition
  let claim : Call (Nat × Nat) := .claimLPFees 22 CANONICAL_USDC
  (machine ⟨15, 10, 13, 18, 19, 16⟩).runTxs
    [(.setPermanentLPCustodianDeployerOnce oneCustody 13 17, .halt true),
     (.register (fun t => if t = 21 then ⟨20, 22, true, true⟩
       else ⟨0, 0, false, false⟩) (fun t => t == 21), .halt true),
     (.deployCustodian oneCustody 13 21, .halt true),
     (.bindPosition 13 50 7, .halt true),
     (.collectFees (fun _ => true) 50, .halt true),
     (claim, .call claim (.halt true) (.halt true))]
    (deployed (1000, 2000) (fun _ => 0) (fun _ => ⟨41, 22, 20, 22⟩))

/-- The creator was paid its 500 once, and what is left is owed. -/
theorem lp_fee_ledger_collected :
    collectedFees.lp.vault.creatorLPFeesAccrued 22 CANONICAL_USDC = 0
      ∧ collectedFees.lp.vaultBalance CANONICAL_USDC = 1500
      ∧ collectedFees.lp.vault.totalLPFeesAccrued CANONICAL_USDC
        ≤ collectedFees.lp.vaultBalance CANONICAL_USDC := by
  refine ⟨by decide +kernel, by decide +kernel, ?_⟩
  have hs : (@machine exactMulDiv _ onePosition
      ⟨15, 10, 13, 18, 19, 16⟩).Observable (deployed (1000, 2000)
        (fun _ => 0) (fun _ => ⟨41, 22, 20, 22⟩)) collectedFees := by
    unfold collectedFees
    exact .runTxs _ .start
  exact ((@lp_fee_ledger exactMulDiv (Nat × Nat) onePosition
    ⟨15, 10, 13, 18, 19, 16⟩ (1000, 2000) (fun _ => 0)
    (fun _ => ⟨41, 22, 20, 22⟩)).1 collectedFees hs CANONICAL_USDC).2

end LPLedger
