import Cooket.CTOSystemProofs

/-! # The two halves of a hand-over agree

    `Joint` and `After` along every run.  Each effect is one of the kinds of
    write of the previous file; the run rule does the rest.  The last theorem
    reads the agreement off: which proposal is live, when a token counts as
    handed over, and what never changes again. -/

namespace CTOSystem

open CheckedArith Contract LPVault CTORegistry Reentrant
open FeeManager (Routes Views KeepsRoute)

section Joint

variable [Keccak] [MulDiv] {π : Type} [PositionManager π] {P : Protocol}

/-- The invariant of a state. -/
def JointAt (s : System π) : Prop :=
  Joint s.chain.registry s.chain.fees.toRoutes

/-- What a later state keeps of an earlier one. -/
def AfterAt (s s' : System π) : Prop :=
  After s.chain.registry s.chain.fees.toRoutes s'.chain.registry
    s'.chain.fees.toRoutes

omit [MulDiv] [PositionManager π] in
/-- Nothing is proposed and nothing handed over at deployment. -/
theorem jointAt_deployed (now : Nat) (governance initialTreasury : Address)
    (lp : LPState π) : JointAt (deployed now governance initialTreasury lp) where
  stored _ h := absurd rfl h
  nonce_le _ h := absurd rfl h
  live_current _ h := nomatch h
  inactive _ _ := ⟨rfl, rfl, fun _ _ h => nomatch h⟩
  active _ h := nomatch h

/-- **EVERY HALF OF A CALL** keeps the invariant and takes nothing back. -/
theorem Effect.joint {s s' : System π} (heff : Effect P s s')
    (h : JointAt s) : JointAt s' ∧ AfterAt s s' := by
  cases heff with
  | wait seconds => exact ⟨h, After.refl _ _⟩
  | outside lp _ => exact ⟨h, After.refl _ _⟩
  | claim _ => exact ⟨h, After.refl _ _⟩
  | community _ => exact ⟨h, After.refl _ _⟩
  | traderRewards _ => exact ⟨h, After.refl _ _⟩
  | fees hcall hsender =>
      exact Joint.routes h (FeeManager.call_keepsRoute hcall hsender)
  | finish receipt =>
      refine Joint.routes h (KeepsRoute.of_eq ?_)
      show (FeeManager.finish receipt s.chain.fees).1.toRoutes = _
      rw [FeeManager.finish_eq]
  | collect hc =>
      obtain ⟨lp, _, _, -, rfl⟩ := collectLPFees_ok hc
      exact ⟨h, After.refl _ _⟩
  | propose hc =>
      obtain ⟨resolved, -, -, -, hlive, -, -, rfl⟩ := proposeCTO_ok hc
      exact Joint.propose h (newProposal _ s.chain _ _ resolved) rfl rfl hlive
  | accept hc =>
      obtain ⟨hstate, -, -, -, -, rfl⟩ := acceptCTO_ok hc
      exact Joint.rewrite h (Or.inl hstate)
        ⟨rfl, rfl, rfl, rfl, rfl, rfl, rfl, rfl⟩
        (fun hs => nomatch hs) (fun hs => nomatch hs)
  | cancel hc =>
      obtain ⟨-, hopen, rfl⟩ := cancelCTO_ok hc
      exact Joint.rewrite h hopen
        ⟨rfl, rfl, rfl, rfl, rfl, rfl, rfl, rfl⟩
        (fun hs => nomatch hs) (fun hs => nomatch hs)
  | expire hc =>
      obtain ⟨hdue, rfl⟩ := expireCTO_ok hc
      have hopen := hdue.imp And.left And.left
      exact Joint.rewrite h hopen
        ⟨rfl, rfl, rfl, rfl, rfl, rfl, rfl, rfl⟩
        (fun hs => nomatch hs) (fun hs => nomatch hs)
  | execute hc =>
      obtain ⟨hstate, -, -, -, hcurve, -⟩ := executeCTO_ok hc
      obtain ⟨hcto, htreasury, hregistry, -, -, -, hroutes⟩ := executed_ok hc
      have hexec := Joint.execute h hstate htreasury hcurve hcto
      refine ⟨?_, ?_⟩
      · show Joint _ _
        simp only [System.done, hregistry, hroutes]
        exact hexec.1
      · show After _ _ _ _
        simp only [System.done, hregistry, hroutes]
        exact hexec.2

/-- Along every run, the invariant holds and nothing is taken back. -/
theorem later_joint {s s' : System π} (hlater : (machine P).Later s s')
    (h : JointAt s) : JointAt s' ∧ AfterAt s s' := by
  refine Machine.Later.preorder
    (R := fun s s' => JointAt s → JointAt s' ∧ AfterAt s s') ?_ ?_ ?_ hlater h
  · intro s hs
    exact ⟨hs, After.refl _ _⟩
  · intro a b c hab hbc ha
    obtain ⟨hb, hafter⟩ := hab ha
    obtain ⟨hc, hafter'⟩ := hbc hb
    exact ⟨hc, After.trans hafter hafter'⟩
  · intro s s' hhalf hs
    exact (half_effect hhalf).joint hs

/-! ## Reading the agreement off -/

omit [MulDiv] [PositionManager π] in
/-- A token has one live proposal at most. -/
theorem Joint.live_unique {g : RegistryStorage} {r : Routes} (h : Joint g r)
    {id id' : Nat} (hid : (g.proposals id).state.live = true)
    (hid' : (g.proposals id').state.live = true)
    (htoken : (g.proposals id).token = (g.proposals id').token) :
    id = id' := by
  have hcurrent := h.live_current id hid
  rw [htoken, h.live_current id' hid'] at hcurrent
  exact hcurrent.symm

/-- The registry, the manager and the payout slot all name the treasury of the
    token's current proposal. -/
def HandedOver (g : RegistryStorage) (r : Routes) (t : Address) : Prop :=
  g.activeTreasury t ≠ 0 ∧ g.activeTreasury t = r.ctoTreasuryOf t
    ∧ r.ctoTreasuryOf t = r.creatorPayoutOf t
    ∧ (g.proposals (g.currentProposalId t)).token = t
    ∧ (g.proposals (g.currentProposalId t)).treasury = g.activeTreasury t

omit [MulDiv] [PositionManager π] in
/-- Three ways to say that a token is handed over. -/
theorem Joint.tfae {g : RegistryStorage} {r : Routes} (h : Joint g r)
    (t : Address) :
    [r.ctoActive t = true,
      ∃ id, (g.proposals id).token = t ∧ (g.proposals id).state = .active,
      HandedOver g r t].TFAE := by
  tfae_have 1 → 2 := by
    intro ht
    obtain ⟨id, htoken, hstate, -⟩ := h.active t ht
    exact ⟨id, htoken, hstate⟩
  tfae_have 2 → 1 := by
    rintro ⟨id, htoken, hstate⟩
    cases ht : r.ctoActive t with
    | true => rfl
    | false =>
        obtain ⟨-, -, hnone⟩ := h.inactive t ht
        exact absurd hstate (hnone id htoken)
  tfae_have 1 → 3 := by
    intro ht
    obtain ⟨id, htoken, hstate, hne, hactive, htreasury, hpayout, -, -⟩ :=
      h.active t ht
    have hcurrent := h.live_current id (by
      rw [hstate]
      rfl)
    rw [htoken] at hcurrent
    refine ⟨?_, ?_, ?_, ?_, ?_⟩
    · rw [hactive]
      exact hne
    · rw [hactive, htreasury]
    · rw [htreasury, hpayout]
    · rw [hcurrent]
      exact htoken
    · rw [hcurrent, hactive]
  tfae_have 3 → 1 := by
    rintro ⟨hne, -⟩
    cases ht : r.ctoActive t with
    | true => rfl
    | false => exact absurd (h.inactive t ht).1 hne
  tfae_finish

/-- **THE JOINT STATE OF A HAND-OVER.**  In every state that any order of calls
    leads to, a live proposal is its token's current one, a new proposal takes
    the next nonce and an id never used, and the registry's `Active`, the
    manager's `ctoActive` and the three treasury slots agree.  From such a state
    on, nonces only grow, ids stay used, `Active` stays, and the payout of a
    handed-over token stays. -/
theorem cto_joint_state (P : Protocol) (now : Nat)
    (governance initialTreasury : Address) (lp : LPState π) :
    ∀ s, (machine P).Later (deployed now governance initialTreasury lp) s →
      (∀ id, (s.chain.registry.proposals id).state.live = true →
        s.chain.registry.currentProposalId
            (s.chain.registry.proposals id).token = id
          ∧ ∀ id', (s.chain.registry.proposals id').state.live = true →
            (s.chain.registry.proposals id').token
              = (s.chain.registry.proposals id).token → id' = id) ∧
      (∀ V msg token controller metadataHash metadataURI c events,
        proposeCTO P V msg s.chain token controller metadataHash metadataURI
          = .ok (c, events) →
        s.chain.registry.tokenNonce token < c.registry.tokenNonce token
          ∧ (c.registry.proposals (c.registry.currentProposalId token)).state
            = .proposed
          ∧ (s.chain.registry.proposals
              (c.registry.currentProposalId token)).state = .none) ∧
      (∀ t, [s.chain.fees.ctoActive t = true,
        ∃ id, (s.chain.registry.proposals id).token = t
          ∧ (s.chain.registry.proposals id).state = .active,
        HandedOver s.chain.registry s.chain.fees.toRoutes t].TFAE) ∧
      (∀ t, s.chain.fees.ctoActive t = true →
        s.chain.fees.pendingCreatorPayoutOf t = 0) ∧
      ∀ s', (machine P).Later s s' →
        (∀ t, s.chain.registry.tokenNonce t ≤ s'.chain.registry.tokenNonce t) ∧
        (∀ id, (s.chain.registry.proposals id).state ≠ .none →
          (s'.chain.registry.proposals id).state ≠ .none) ∧
        (∀ id, (s.chain.registry.proposals id).state = .active →
          (s'.chain.registry.proposals id).state = .active) ∧
        (∀ t, s.chain.fees.ctoActive t = true →
          s'.chain.fees.ctoActive t = true
            ∧ s'.chain.fees.creatorPayoutOf t = s.chain.fees.creatorPayoutOf t
            ∧ s'.chain.fees.pendingCreatorPayoutOf t = 0) := by
  intro s hs
  obtain ⟨hj, -⟩ := later_joint hs
    (jointAt_deployed now governance initialTreasury lp)
  have hpending : ∀ {s : System π}, JointAt s → ∀ t,
      s.chain.fees.ctoActive t = true →
      s.chain.fees.pendingCreatorPayoutOf t = 0 := by
    intro s hs t ht
    obtain ⟨_, -, -, -, -, -, -, hnone, -⟩ := Joint.active hs t ht
    exact hnone
  refine ⟨?_, ?_, Joint.tfae hj, hpending hj, ?_⟩
  · intro id hid
    refine ⟨Joint.live_current hj id hid, ?_⟩
    intro id' hid' htoken
    exact Joint.live_unique hj hid' hid htoken
  · intro V msg token controller metadataHash metadataURI c events hc
    obtain ⟨resolved, -, -, -, -, -, -, rfl⟩ := proposeCTO_ok hc
    have hfresh := Joint.fresh hj
      (newProposal msg s.chain token controller resolved)
      (Nat.lt_succ_self _)
    simp only [Function.update_self]
    exact ⟨Nat.lt_succ_self _, rfl, hfresh⟩
  · intro s' hs'
    obtain ⟨hj', hafter⟩ := later_joint hs' hj
    refine ⟨hafter.nonce, fun id hid => (hafter.kept id hid).1, ?_, ?_⟩
    · intro id hid
      have hsame := hafter.final id (by
        rw [hid]
        rfl)
      rw [hsame]
      exact hid
    · intro t ht
      obtain ⟨hactive, hpayout⟩ := hafter.routed t ht
      exact ⟨hactive, hpayout, hpending hj' t hactive⟩

end Joint

/-- An executed proposal puts its token in the hands of its treasury. -/
theorem cto_joint_state_handed :
    (handed 8).chain.fees.ctoActive 21 = true ∧
    HandedOver (handed 8).chain.registry (handed 8).chain.fees.toRoutes 21 ∧
    (handed 8).chain.fees.pendingCreatorPayoutOf 21 = 0 ∧
    (handed 4).chain.registry.tokenNonce 21
      ≤ (handed 8).chain.registry.tokenNonce 21 := by
  have hlaw := @cto_joint_state plainKeccak exactMulDiv _ onePosition
    oneProtocol 0 40 41 graduatedLP
  have hactive : ((handed 8).chain.registry.proposals firstId).token = 21 ∧
      ((handed 8).chain.registry.proposals firstId).state = .active := by
    decide +kernel
  obtain ⟨-, -, hequivalent, hpending, -⟩ := hlaw (handed 8) (later_handed 8)
  have hcto : (handed 8).chain.fees.ctoActive 21 = true :=
    ((hequivalent 21).out 1 0 rfl rfl).mp ⟨firstId, hactive⟩
  refine ⟨hcto, ((hequivalent 21).out 0 2 rfl rfl).mp hcto, hpending 21 hcto, ?_⟩
  -- the acceptance and the execution follow the proposal
  have hrest : (@machine _ plainKeccak exactMulDiv onePosition
      oneProtocol).Later (handed 4) (handed 8) :=
    (Machine.Observable.runTxs (handover.drop 4) .start).later
  exact ((hlaw (handed 4) (later_handed 4)).2.2.2.2 (handed 8) hrest).1 21

end CTOSystem
