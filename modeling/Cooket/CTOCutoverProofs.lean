import Cooket.CTOJointProofs
import Cooket.FeeLedgerProofs

/-! # The cut-over attributes every fee

    `executeCTO` reaches into three ledgers: it collects the LP fees under the
    old recipient, checkpoints the curve fees under the old recipient, and only
    then points the payout at the treasury.  This file reads the ledgers off
    after an execution, follows them through every later state, and shows that
    an execution that fails anywhere leaves no trace. -/

namespace CTOSystem

open CheckedArith Contract LPVault CTORegistry Reentrant
open FeeManager (FeeManagerCall FeeManagerStorage Immutables Receipt Views)

section Cutover

variable [Keccak] [MulDiv] {π : Type} [PositionManager π] {P : Protocol}

/-! ## The LP side of an execution -/

omit [Keccak] in
/-- Without a graduation the LP side is not touched. -/
theorem afterCollection_active {V : Views} {c c₁ : Chain π} {id : Nat}
    (h : afterCollection P V c id = .ok c₁)
    (hg : (c.lp.launches (c.registry.proposals id).token).graduated = false) :
    c₁.lp = c.lp := by
  unfold afterCollection at h
  rw [if_neg (by simp [hg])] at h
  rw [← Except.ok.inj h]
  rfl

omit [Keccak] in
/-- After a graduation everything the position owes is credited, under the
    recipient of before the switch. -/
theorem afterCollection_graduated {V : Views} {c c₁ : Chain π} {id : Nat}
    (h : afterCollection P V c id = .ok c₁)
    (hg : (c.lp.launches (c.registry.proposals id).token).graduated = true) :
    let token := (c.registry.proposals id).token
    let owed := PositionManager.collectable c.lp.positions
      (c.lp.custodians (c.lp.custodianOf token)).positionTokenId
    c₁.lp.vault = credited
      (credited c.lp.vault token (sortedPair token).1 owed.1
        (feeRoute c.fees token))
      token (sortedPair token).2 owed.2 (feeRoute c.fees token) := by
  unfold afterCollection at h
  rw [if_pos hg] at h
  obtain ⟨htoken, hcollect⟩ := collectCanonicalLPFees_ok h
  obtain ⟨lp, amount0, amount1, hlp, rfl⟩ := collectLPFees_ok hcollect
  obtain ⟨-, -, -, hvault, -⟩ := collectFees_ok hlp
  have htoken' : (c.lp.custodians
      (c.lp.custodianOf (c.registry.proposals id).token)).launchToken
      = (c.registry.proposals id).token := htoken
  have hsame : (activated c id).lp = c.lp := rfl
  have hfees : (activated c id).fees = c.fees := rfl
  rw [hsame, hfees, htoken'] at hvault
  exact hvault

/-! ## Later on -/

omit [Keccak] [MulDiv] in
/-- **CREATOR FEES LEAVE TO THE PAYOUT ADDRESS ONLY.** -/
theorem creatorFees_leave {I : Immutables} {V : Views} {msg : Msg}
    {s : FeeManagerStorage} {out : FeeManager.Outcome} {k : FeeManagerCall}
    {t : Address} (h : FeeManager.call I V msg s k = .ok out)
    (hsender : msg.sender ≠ I.ctoRegistry)
    (hless : out.storage.creatorFeesAccrued t < s.creatorFeesAccrued t) :
    ∃ p, out.payout = some p ∧ p.recipient = s.creatorPayoutOf t
      ∧ p.amount = s.creatorFeesAccrued t := by
  have hsame : ∀ {f : Address → Nat}, f = s.creatorFeesAccrued →
      ¬ f t < s.creatorFeesAccrued t := by
    rintro f rfl
    exact Nat.lt_irrefl _
  cases FeeManager.call_ran h with
  | administrative hbooks _ _ _ =>
      exact absurd hless
        (hsame (congrArg FeeManager.Books.creatorFeesAccrued hbooks))
  | @claimCreatorFees token _ hk =>
      obtain ⟨-, -, hs, hpayout⟩ := FeeManager.claimCreatorFees_ok hk
      by_cases ht : t = token
      · subst ht
        exact ⟨_, hpayout, rfl, rfl⟩
      · rw [hs] at hless
        simp only [Function.update_of_ne ht] at hless
        exact absurd hless (Nat.lt_irrefl _)
  | activateCTO _ hk =>
      exact absurd (FeeManager.activateCTO_ok hk).1 hsender
  | @depositFees token totalFee creatorFee protocolFee communityFee
      traderRewardsFee isBuy hk =>
      obtain ⟨-, -, -, hs, -⟩ := FeeManager.depositFees_ok hk
      rw [hs] at hless
      by_cases ht : t = token
      · subst ht
        simp only [Function.update_self] at hless
        omega
      · simp only [Function.update_of_ne ht] at hless
        exact absurd hless (Nat.lt_irrefl _)
  | registerToken _ hk =>
      obtain ⟨-, -, -, hs, -⟩ := FeeManager.registerToken_ok hk
      exact absurd hless (hsame (by rw [hs]))
  | proposeCreatorPayout _ hk =>
      obtain ⟨-, -, hs, -⟩ := FeeManager.proposeCreatorPayout_ok hk
      exact absurd hless (hsame (by rw [hs]))
  | acceptCreatorPayout _ hk =>
      obtain ⟨-, -, -, hs, -⟩ := FeeManager.acceptCreatorPayout_ok hk
      exact absurd hless (hsame (by rw [hs]))
  | cancelCreatorPayout _ hk =>
      obtain ⟨-, hs, -⟩ := FeeManager.cancelCreatorPayout_ok hk
      exact absurd hless (hsame (by rw [hs]))
  | claimProtocolFees _ hk =>
      obtain ⟨-, hs, -⟩ := FeeManager.claimProtocolFees_ok hk
      exact absurd hless (hsame (by rw [hs]))
  | claimCheckpointedCreatorFees _ hk =>
      obtain ⟨-, -, hs, -⟩ := FeeManager.claimCheckpointedCreatorFees_ok hk
      exact absurd hless (hsame (by rw [hs]))
  | fundCommunityVault _ hk =>
      obtain ⟨-, -, hs, -⟩ := FeeManager.fundCommunityVault_ok hk
      exact absurd hless (hsame (by rw [hs]))
  | fundTraderRewardsVault _ hk =>
      obtain ⟨-, -, hs, -⟩ := FeeManager.fundTraderRewardsVault_ok hk
      exact absurd hless (hsame (by rw [hs]))

/-- A handed-over token is never checkpointed again. -/
theorem Effect.checkpointed {s s' : System π} (heff : Effect P s s')
    {t : Address} (ht : s.chain.fees.ctoActive t = true) (r : Address) :
    s'.chain.fees.checkpointedCreatorFees t r
      ≤ s.chain.fees.checkpointedCreatorFees t r := by
  cases heff with
  | wait seconds => exact Nat.le_refl _
  | outside lp _ => exact Nat.le_refl _
  | claim _ => exact Nat.le_refl _
  | community _ => exact Nat.le_refl _
  | traderRewards _ => exact Nat.le_refl _
  | fees hcall hsender =>
      exact FeeManager.call_checkpointed hcall hsender t r
  | finish receipt =>
      have hbooks := FeeLedger.finish_books receipt s.chain.fees
      exact Nat.le_of_eq (congrFun (congrFun
        (congrArg FeeManager.Books.checkpointedCreatorFees hbooks) t) r)
  | collect hc =>
      obtain ⟨lp, _, _, -, rfl⟩ := collectLPFees_ok hc
      exact Nat.le_refl _
  | propose hc =>
      obtain ⟨_, -, -, -, -, -, -, rfl⟩ := proposeCTO_ok hc
      exact Nat.le_refl _
  | accept hc =>
      obtain ⟨-, -, -, -, -, rfl⟩ := acceptCTO_ok hc
      exact Nat.le_refl _
  | cancel hc =>
      obtain ⟨-, -, rfl⟩ := cancelCTO_ok hc
      exact Nat.le_refl _
  | expire hc =>
      obtain ⟨-, rfl⟩ := expireCTO_ok hc
      exact Nat.le_refl _
  | @execute sender V id c events hc =>
      -- the execution is of another token
      obtain ⟨hcto, -, -, -, -, hbooks, -⟩ := executed_ok hc
      have hne : t ≠ (s.chain.registry.proposals id).token := by
        rintro rfl
        rw [hcto] at ht
        exact nomatch ht
      have hrows := congrArg FeeManager.Books.checkpointedCreatorFees hbooks
      refine Nat.le_of_eq ((congrFun (congrFun hrows t) r).trans ?_)
      exact LedgerSum.update₂_of_ne _ _ _ _ hne

theorem later_checkpointed {s s' : System π}
    (hlater : (machine P).Later s s') (hj : JointAt s) {t : Address}
    (ht : s.chain.fees.ctoActive t = true) (r : Address) :
    s'.chain.fees.checkpointedCreatorFees t r
      ≤ s.chain.fees.checkpointedCreatorFees t r := by
  have hrun : JointAt s ∧ s.chain.fees.ctoActive t = true →
      (JointAt s' ∧ s'.chain.fees.ctoActive t = true) ∧
        s'.chain.fees.checkpointedCreatorFees t r
          ≤ s.chain.fees.checkpointedCreatorFees t r := by
    refine Machine.Later.preorder (R := fun s s' =>
      JointAt s ∧ s.chain.fees.ctoActive t = true →
        (JointAt s' ∧ s'.chain.fees.ctoActive t = true) ∧
          s'.chain.fees.checkpointedCreatorFees t r
            ≤ s.chain.fees.checkpointedCreatorFees t r) ?_ ?_ ?_ hlater
    · intro s hs
      exact ⟨hs, Nat.le_refl _⟩
    · intro a b c hab hbc ha
      obtain ⟨hb, hle⟩ := hab ha
      obtain ⟨hc, hle'⟩ := hbc hb
      exact ⟨hc, hle'.trans hle⟩
    · rintro s s' hhalf ⟨hj, ht⟩
      have heff := half_effect hhalf
      obtain ⟨hj', hafter⟩ := heff.joint hj
      exact ⟨⟨hj', (hafter.routed t ht).1⟩, heff.checkpointed ht r⟩
  exact (hrun ⟨hj, ht⟩).2

/-! ## An execution that fails -/

/-- The ways an execution can fail after its own guards passed. -/
inductive Failure (P : Protocol) (V : Views) (msg : Msg) (c : Chain π)
    (id : Nat) : Prop where
  /-- The position manager refuses the collection. -/
  | collection (e : Revert)
      (hg : (c.lp.launches (c.registry.proposals id).token).graduated = true)
      (h : PositionManager.collect c.lp.positions
        (c.lp.custodianOf (c.registry.proposals id).token)
        (c.lp.custodians (c.lp.custodianOf
          (c.registry.proposals id).token)).positionTokenId
        UINT128_MAX UINT128_MAX = .error e)
  /-- The vault refuses the notification. -/
  | notification (e : Revert) (positions : π) (amount0 amount1 : Nat)
      (hg : (c.lp.launches (c.registry.proposals id).token).graduated = true)
      (h : PositionManager.collect c.lp.positions
        (c.lp.custodianOf (c.registry.proposals id).token)
        (c.lp.custodians (c.lp.custodianOf
          (c.registry.proposals id).token)).positionTokenId
        UINT128_MAX UINT128_MAX = .ok (positions, amount0, amount1))
      (hn : notifyPermanentLPFees P.vault (hasCode V (activated c id))
        (feeRoute c.fees (c.registry.proposals id).token)
        { c.lp with
          positions
          vaultBalance := paidInto c.lp.vaultBalance
            (PositionManager.positions c.lp.positions
              (c.lp.custodians (c.lp.custodianOf
                (c.registry.proposals id).token)).positionTokenId)
            amount0 amount1 }
        (c.lp.custodianOf (c.registry.proposals id).token)
        (c.registry.proposals id).token amount0 amount1 = .error e)
  /-- The fee manager refuses the activation. -/
  | activation (e : Revert) (c₁ : Chain π)
      (h : afterCollection P V c id = .ok c₁)
      (ha : FeeManager.activateCTO P.fees (views P V c₁)
        ⟨P.ctoRegistry, 0, msg.timestamp⟩ c₁.fees
        (c.registry.proposals id).token (c.registry.proposals id).treasury
        = .error e)

omit [Keccak] in
/-- No execution returns past a failure. -/
theorem Failure.not_ok {V : Views} {msg : Msg} {c c' : Chain π} {id : Nat}
    {events : List RegistryEvent} (hf : Failure P V msg c id) :
    executeCTO P V msg c id ≠ .ok (c', events) := by
  intro hc
  obtain ⟨-, -, -, -, -, -, c₁, out, hc₁, hout, -⟩ := executeCTO_ok hc
  have hcollected : afterCollection P V c id = .ok c₁ := hc₁
  have hlp : (activated c id).lp = c.lp := rfl
  have hfees : (activated c id).fees = c.fees := rfl
  cases hf with
  | collection e hg h =>
      rw [if_pos hg] at hc₁
      obtain ⟨-, hcollect⟩ := collectCanonicalLPFees_ok hc₁
      obtain ⟨lp, a0, a1, hcf, -⟩ := collectLPFees_ok hcollect
      simp only [collectFees, bind_ok, hlp, h] at hcf
      obtain ⟨_, -, _, -, _, hcf, -⟩ := hcf
      cases hcf
  | notification e positions amount0 amount1 hg h hn =>
      rw [if_pos hg] at hc₁
      obtain ⟨htoken, hcollect⟩ := collectCanonicalLPFees_ok hc₁
      obtain ⟨lp, a0, a1, hcf, -⟩ := collectLPFees_ok hcollect
      rw [hlp] at htoken
      simp only [collectFees, bind_ok, hlp, hfees, htoken, h] at hcf
      obtain ⟨_, -, _, -, _, hok, vault, hnotify, -⟩ := hcf
      obtain rfl := Except.ok.inj hok
      simp only [hn] at hnotify
      cases hnotify
  | activation e c₂ h ha =>
      rw [hcollected] at h
      obtain rfl := Except.ok.inj h
      rw [hout] at ha
      cases ha

/-- A failed execution leaves no trace, whatever its caller does. -/
theorem Failure.transact {s : System π} {sender : Address} {V : Views}
    {id : Nat} (hf : Failure P V ⟨sender, 0, s.now⟩ s.chain id)
    (callback : Script (Call π)) :
    (machine P).transact (.executeCTO sender V id) callback s = s := by
  cases hc : executeCTO P V ⟨sender, 0, s.now⟩ s.chain id with
  | ok r => exact absurd hc hf.not_ok
  | error e =>
      have henter : (machine P).enter (.executeCTO sender V id) s
          = .error e := by
        simp only [machine, hc]
        rfl
      exact (machine P).transact_error henter

/-! ## The cut-over -/

/-- **THE CUT-OVER.**  An execution that returns moves the token's unclaimed
    creator fees to the previous recipient's checkpoint, credits the creator
    share of everything collectable to the previous recipient, and touches no
    other entry.  From then on the token's creator fees leave to the treasury
    only, its checkpoints only shrink, and collections credit the treasury.  An
    execution that fails leaves no trace. -/
theorem cto_cutover (P : Protocol) (now : Nat)
    (governance initialTreasury : Address) (lp : LPState π) :
    ∀ s, (machine P).Later (deployed now governance initialTreasury lp) s →
      ∀ (sender : Address) (V : Views) (id : Nat),
      let p := s.chain.registry.proposals id
      let owed := PositionManager.collectable s.chain.lp.positions
        (s.chain.lp.custodians
          (s.chain.lp.custodianOf p.token)).positionTokenId
      let route : FeeRoute := ⟨s.chain.fees.treasury, p.previousRecipient,
        s.chain.fees.curveOf p.token, s.chain.fees.creatorOf p.token⟩
      (∀ c events, executeCTO P V ⟨sender, 0, s.now⟩ s.chain id
          = .ok (c, events) →
        c.fees.toBooks = { s.chain.fees.toBooks with
          creatorFeesAccrued :=
            Function.update s.chain.fees.creatorFeesAccrued p.token 0
          checkpointedCreatorFees :=
            LedgerSum.update₂ s.chain.fees.checkpointedCreatorFees p.token
              p.previousRecipient
              (s.chain.fees.checkpointedCreatorFees p.token
                  p.previousRecipient
                + s.chain.fees.creatorFeesAccrued p.token) } ∧
        (∀ t, t ≠ p.token → FeeLedger.accruals c.fees.toBooks t
          = FeeLedger.accruals s.chain.fees.toBooks t) ∧
        ((s.chain.lp.launches p.token).graduated = false →
          c.lp = s.chain.lp) ∧
        ((s.chain.lp.launches p.token).graduated = true →
          c.lp.vault = credited
            (credited s.chain.lp.vault p.token (sortedPair p.token).1 owed.1
              route) p.token (sortedPair p.token).2 owed.2 route ∧
          ∀ r asset, c.lp.vault.creatorLPFeesAccrued r asset
            = s.chain.lp.vault.creatorLPFeesAccrued r asset
              + (if r = p.previousRecipient ∧ asset = (sortedPair p.token).1
                  then (lpShares owed.1).creatorShare else 0)
              + (if r = p.previousRecipient ∧ asset = (sortedPair p.token).2
                  then (lpShares owed.2).creatorShare else 0)) ∧
        ∀ s', (machine P).Later (s.done c id .executed sender) s' →
          (∀ W msg k out, FeeManager.call P.fees W msg s'.chain.fees k
              = .ok out → msg.sender ≠ P.ctoRegistry →
            out.storage.creatorFeesAccrued p.token
              < s'.chain.fees.creatorFeesAccrued p.token →
            ∃ pay, out.payout = some pay ∧ pay.recipient = p.treasury
              ∧ pay.amount = s'.chain.fees.creatorFeesAccrued p.token) ∧
          (∀ r, s'.chain.fees.checkpointedCreatorFees p.token r
            ≤ c.fees.checkpointedCreatorFees p.token r) ∧
          (∀ W custodian c', collectLPFees P W s'.chain custodian = .ok c' →
            (s'.chain.lp.custodians custodian).launchToken = p.token →
            ∀ r asset, r ≠ p.treasury →
              c'.lp.vault.creatorLPFeesAccrued r asset
                = s'.chain.lp.vault.creatorLPFeesAccrued r asset) ∧
          (∀ claimer asset lp', claimLPFees s'.chain.lp claimer asset
              = .ok lp' → ∀ r a, r ≠ claimer →
            lp'.vault.creatorLPFeesAccrued r a
              = s'.chain.lp.vault.creatorLPFeesAccrued r a)) ∧
      (Failure P V ⟨sender, 0, s.now⟩ s.chain id →
        ∀ callback, (machine P).transact (.executeCTO sender V id) callback s
          = s) := by
  intro s hs sender V id
  have hj := (later_joint hs
    (jointAt_deployed now governance initialTreasury lp)).1
  refine ⟨?_, fun hf callback => hf.transact callback⟩
  intro c events hc
  obtain ⟨-, -, -, hstale, -⟩ := executeCTO_ok hc
  obtain ⟨-, -, -, -, ⟨c₁, hc₁, hlp⟩, hbooks, hroutes⟩ := executed_ok hc
  have hroute : feeRoute s.chain.fees (s.chain.registry.proposals id).token
      = ⟨s.chain.fees.treasury,
        (s.chain.registry.proposals id).previousRecipient,
        s.chain.fees.curveOf (s.chain.registry.proposals id).token,
        s.chain.fees.creatorOf (s.chain.registry.proposals id).token⟩ := by
    rw [feeRoute, hstale]
  refine ⟨hbooks, ?_, ?_, ?_, ?_⟩
  · intro t ht
    rw [hbooks]
    have hrow : ∀ v, LedgerSum.update₂ s.chain.fees.checkpointedCreatorFees
        (s.chain.registry.proposals id).token
        (s.chain.registry.proposals id).previousRecipient v t
        = s.chain.fees.checkpointedCreatorFees t :=
      fun v => Function.update_of_ne ht _ _
    simp only [FeeLedger.accruals, Function.update_of_ne ht, hrow]
  · intro hg
    rw [hlp]
    exact afterCollection_active hc₁ hg
  · intro hg
    have hvault := afterCollection_graduated hc₁ hg
    simp only [hroute] at hvault
    rw [hlp, hvault]
    refine ⟨rfl, ?_⟩
    intro r asset
    rw [credited_creator, credited_creator]
  · intro s' hs'
    have heff : Effect P s (s.done c id .executed sender) := .execute hc
    have hj₁ := (heff.joint hj).1
    have hactive : (s.done c id .executed sender).chain.fees.ctoActive
        (s.chain.registry.proposals id).token = true := by
      show c.fees.toRoutes.ctoActive _ = true
      rw [hroutes]
      exact Function.update_self _ _ _
    have hpaid : (s.done c id .executed sender).chain.fees.creatorPayoutOf
        (s.chain.registry.proposals id).token
        = (s.chain.registry.proposals id).treasury := by
      show c.fees.toRoutes.creatorPayoutOf _ = _
      rw [hroutes]
      exact Function.update_self _ _ _
    obtain ⟨hj', hafter⟩ := later_joint hs' hj₁
    have hpayout := (hafter.routed _ hactive).2.trans hpaid
    refine ⟨?_, fun r => later_checkpointed hs' hj₁ hactive r, ?_, ?_⟩
    · intro W msg k out hk hsender hless
      obtain ⟨pay, hpay, hrecipient, hamount⟩ :=
        creatorFees_leave hk hsender hless
      exact ⟨pay, hpay, hrecipient.trans hpayout, hamount⟩
    · intro W custodian c' hcollect htoken r asset hne
      obtain ⟨lp', a0, a1, hcf, rfl⟩ := collectLPFees_ok hcollect
      obtain ⟨-, -, -, hvault, -⟩ := collectFees_ok hcf
      have hcreator : (feeRoute s'.chain.fees
          (s'.chain.lp.custodians custodian).launchToken).creatorPayout
          = (s.chain.registry.proposals id).treasury := by
        rw [htoken]
        exact hpayout
      show lp'.vault.creatorLPFeesAccrued r asset = _
      rw [hvault, credited_creator, credited_creator, hcreator,
        if_neg (fun h => hne h.1), if_neg (fun h => hne h.1)]
      rfl
    · intro claimer asset lp' hclaim r a hne
      obtain ⟨totalFees, rfl⟩ := claimLPFees_ok hclaim
      exact LedgerSum.update₂_of_ne _ _ _ _ hne

end Cutover

/-- The execution of a graduated token's hand-over: the forty units of curve
    fees and a quarter of both collected fees go to the recipient of before. -/
theorem cto_cutover_handed : ∃ c events,
    @executeCTO exactMulDiv _ onePosition oneProtocol knownViews
        ⟨50, 0, (handed 7).now⟩ (handed 7).chain firstId = .ok (c, events) ∧
    c.fees.checkpointedCreatorFees 21 22 = 40 ∧
    c.fees.creatorFeesAccrued 21 = 0 ∧
    c.lp.vault.creatorLPFeesAccrued 22 21 = 250 ∧
    c.lp.vault.creatorLPFeesAccrued 22 CANONICAL_USDC = 500 := by
  have hlaw := @cto_cutover plainKeccak exactMulDiv _ onePosition oneProtocol 0
    40 41 graduatedLP
  let _ := plainKeccak
  let _ := exactMulDiv
  let _ := onePosition
  have hreturns : (executeCTO oneProtocol knownViews ⟨50, 0, (handed 7).now⟩
      (handed 7).chain firstId).isOk = true := by decide +kernel
  have hgraduated : ((handed 7).chain.lp.launches
      ((handed 7).chain.registry.proposals firstId).token).graduated = true := by
    decide +kernel
  cases hexecute : executeCTO oneProtocol knownViews ⟨50, 0, (handed 7).now⟩
      (handed 7).chain firstId with
  | error e =>
      rw [hexecute] at hreturns
      exact nomatch hreturns
  | ok r =>
      obtain ⟨c, events⟩ := r
      obtain ⟨hbooks, -, -, hlp, -⟩ := (hlaw (handed 7) (later_handed 7) 50
        knownViews firstId).1 c events hexecute
      refine ⟨c, events, rfl, ?_, ?_, ?_, ?_⟩
      · rw [hbooks]
        decide +kernel
      · rw [hbooks]
        decide +kernel
      · rw [(hlp hgraduated).2 22 21]
        decide +kernel
      · rw [(hlp hgraduated).2 22 CANONICAL_USDC]
        decide +kernel

end CTOSystem
