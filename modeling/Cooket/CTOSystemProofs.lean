import Cooket.CTORegistryProofs
import Cooket.ReentrantProofs

/-! # The hand-over as a system

    The registry, the fee manager and the LP contracts as one machine: anybody
    calls anything in any order while time passes, a fee payout hands control
    to its recipient, and the rest of the world (pool trading, launches,
    graduations, donations) changes what the contracts read as it likes.

    The state of a hand-over is split over two contracts.  `Joint` is the
    invariant that ties the halves together: proposals are stored under their
    own id, the only live proposal of a token is its current one, and the
    registry's `Active` is the manager's `ctoActive`.  `After` says what can
    never be taken back.  One lemma per kind of write keeps both. -/

namespace CTOSystem

open CheckedArith Contract LPVault CTORegistry Reentrant
open FeeManager (FeeManagerCall FeeManagerStorage Receipt Routes Views
  KeepsRoute)

/-- What was done to a proposal. -/
inductive Deed where
  | created
  | accepted
  | cancelled
  | expired
  | executed
  deriving DecidableEq, Repr

/-- One entry of a proposal's history: what was done, when and by whom, and
    what the fee manager answered about the token at that moment. -/
structure Record where
  deed : Deed
  time : Nat
  caller : Address
  creatorOf : Address
  creatorPayoutOf : Address
  deriving DecidableEq, Repr

/-- The joint state, the time, and the history of every proposal id. -/
structure System (π : Type) where
  now : Nat
  chain : Chain π
  history : Nat → List Record

/-- What can happen. -/
inductive Call (π : Type) where
  | wait (seconds : Nat)
  /-- Everything outside these contracts: positions, donations, launches and
      graduations. -/
  | outside (lp : LPState π)
  | fees (sender : Address) (value : Nat) (V : Views) (k : FeeManagerCall)
  | proposeCTO (sender : Address) (V : Views) (token controller : Address)
      (metadataHash : Nat) (metadataURI : List UInt8)
  | acceptCTO (sender : Address) (proposalId : Nat)
  | treasuryAcceptCTO (sender treasury : Address) (proposalId : Nat)
  | cancelCTO (sender : Address) (proposalId : Nat)
  | expireCTO (sender : Address) (proposalId : Nat)
  | executeCTO (sender : Address) (V : Views) (proposalId : Nat)
  | collectFees (V : Views) (custodian : Address)
  | claimLPFees (sender asset : Address)
  | fundCommunityVault (launchToken asset : Address) (recorded : Bool)
  | fundTraderRewardsVault (launchToken asset : Address) (recorded : Bool)

section Machine

variable {π : Type}

/-- The state after a deed: the chain as the registry left it, and one more
    entry in the proposal's history. -/
def System.done (s : System π) (c : Chain π) (proposalId : Nat) (deed : Deed)
    (caller : Address) : System π :=
  let token := (c.registry.proposals proposalId).token
  { s with
    chain := c
    history := Function.update s.history proposalId
      (s.history proposalId ++ [⟨deed, s.now, caller,
        s.chain.fees.creatorOf token, s.chain.fees.creatorPayoutOf token⟩]) }

/-- A call that hands control to nobody. -/
def quiet (s : System π) : Entry (System π) (Option Receipt) :=
  ⟨s, false, none⟩

/-- The state after the LP contracts moved. -/
def System.withLP (s : System π) (lp : LPState π) : System π :=
  { s with chain := { s.chain with lp } }

/-- The state after the fee manager moved. -/
def System.withFees (s : System π) (fees : FeeManagerStorage) : System π :=
  { s with chain := { s.chain with fees } }

variable [Keccak] [MulDiv] [PositionManager π] (P : Protocol)

/-- The system as a machine. -/
def machine : Machine (System π) (Call π) (Option Receipt) Revert where
  enter
    | .wait seconds, s => pure (quiet { s with now := s.now + seconds })
    | .outside lp, s =>
        pure (quiet (s.withLP { lp with vault := s.chain.lp.vault }))
    | .fees sender value V k, s => do
        -- the registry calls the manager from its own code only
        revertIf (sender = P.ctoRegistry) .impossibleSender
        let out ← FeeManager.call P.fees (views P V s.chain)
          ⟨sender, value, s.now⟩ s.chain.fees k
        pure ⟨s.withFees out.storage, out.payout.isSome,
          out.payout.map FeeManager.Payout.receipt⟩
    | .proposeCTO sender V token controller metadataHash metadataURI, s => do
        let (c, _) ← proposeCTO P V ⟨sender, 0, s.now⟩ s.chain token controller
          metadataHash metadataURI
        pure (quiet (s.done c (c.registry.currentProposalId token) .created
          sender))
    | .acceptCTO sender proposalId, s => do
        let (c, _) ← acceptCTO P ⟨sender, 0, s.now⟩ s.chain proposalId
        pure (quiet (s.done c proposalId .accepted sender))
    | .treasuryAcceptCTO sender treasury proposalId, s => do
        let (c, _) ← treasuryAcceptCTO P ⟨sender, 0, s.now⟩ s.chain treasury
          proposalId
        pure (quiet (s.done c proposalId .accepted treasury))
    | .cancelCTO sender proposalId, s => do
        let (c, _) ← cancelCTO ⟨sender, 0, s.now⟩ s.chain proposalId
        pure (quiet (s.done c proposalId .cancelled sender))
    | .expireCTO sender proposalId, s => do
        let (c, _) ← expireCTO ⟨sender, 0, s.now⟩ s.chain proposalId
        pure (quiet (s.done c proposalId .expired sender))
    | .executeCTO sender V proposalId, s => do
        let (c, _) ← executeCTO P V ⟨sender, 0, s.now⟩ s.chain proposalId
        pure (quiet (s.done c proposalId .executed sender))
    | .collectFees V custodian, s => do
        let c ← collectLPFees P V s.chain custodian
        pure (quiet { s with chain := c })
    | .claimLPFees sender asset, s => do
        let lp ← claimLPFees s.chain.lp sender asset
        pure (quiet (s.withLP lp))
    | .fundCommunityVault launchToken asset recorded, s => do
        let lp ← fundCommunityVault s.chain.lp launchToken asset recorded
        pure (quiet (s.withLP lp))
    | .fundTraderRewardsVault launchToken asset recorded, s => do
        let lp ← fundTraderRewardsVault s.chain.lp launchToken asset recorded
        pure (quiet (s.withLP lp))
  leave receipt s := s.withFees (FeeManager.finish receipt s.chain.fees).1

/-- The state after deployment, at any time and whatever the LP side holds. -/
def deployed (now : Nat) (governance initialTreasury : Address)
    (lp : LPState π) : System π where
  now := now
  chain :=
    { fees := FeeManagerStorage.deployed governance initialTreasury
      registry := RegistryStorage.deployed
      treasuries := fun _ => none
      lp := lp }
  history _ := []

/-! ## What one half of a call does -/

/-- **ONE HALF OF A CALL**: what it may change, and under which guards. -/
inductive Effect (s : System π) : System π → Prop where
  | wait (seconds : Nat) : Effect s { s with now := s.now + seconds }
  | outside (lp : LPState π) (h : lp.vault = s.chain.lp.vault) :
      Effect s (s.withLP lp)
  | fees {V : Views} {msg : Msg} {k : FeeManagerCall}
      {out : FeeManager.Outcome}
      (hcall : FeeManager.call P.fees V msg s.chain.fees k = .ok out)
      (hsender : msg.sender ≠ P.ctoRegistry) :
      Effect s (s.withFees out.storage)
  | finish (receipt : Option Receipt) :
      Effect s (s.withFees (FeeManager.finish receipt s.chain.fees).1)
  | propose {sender : Address} {V : Views} {token controller : Address}
      {metadataHash : Nat} {metadataURI : List UInt8} {c : Chain π}
      {events : List RegistryEvent}
      (h : proposeCTO P V ⟨sender, 0, s.now⟩ s.chain token controller
        metadataHash metadataURI = .ok (c, events)) :
      Effect s (s.done c (c.registry.currentProposalId token) .created sender)
  | accept {treasury : Address} {proposalId : Nat} {c : Chain π}
      {events : List RegistryEvent}
      (h : acceptCTO P ⟨treasury, 0, s.now⟩ s.chain proposalId
        = .ok (c, events)) :
      Effect s (s.done c proposalId .accepted treasury)
  | cancel {sender : Address} {proposalId : Nat} {c : Chain π}
      {events : List RegistryEvent}
      (h : cancelCTO ⟨sender, 0, s.now⟩ s.chain proposalId
        = .ok (c, events)) :
      Effect s (s.done c proposalId .cancelled sender)
  | expire {sender : Address} {proposalId : Nat} {c : Chain π}
      {events : List RegistryEvent}
      (h : expireCTO ⟨sender, 0, s.now⟩ s.chain proposalId
        = .ok (c, events)) :
      Effect s (s.done c proposalId .expired sender)
  | execute {sender : Address} {V : Views} {proposalId : Nat} {c : Chain π}
      {events : List RegistryEvent}
      (h : executeCTO P V ⟨sender, 0, s.now⟩ s.chain proposalId
        = .ok (c, events)) :
      Effect s (s.done c proposalId .executed sender)
  | collect {V : Views} {custodian : Address} {c : Chain π}
      (h : collectLPFees P V s.chain custodian = .ok c) :
      Effect s { s with chain := c }
  | claim {sender asset : Address} {lp : LPState π}
      (h : claimLPFees s.chain.lp sender asset = .ok lp) :
      Effect s (s.withLP lp)
  | community {launchToken asset : Address} {recorded : Bool} {lp : LPState π}
      (h : fundCommunityVault s.chain.lp launchToken asset recorded = .ok lp) :
      Effect s (s.withLP lp)
  | traderRewards {launchToken asset : Address} {recorded : Bool}
      {lp : LPState π}
      (h : fundTraderRewardsVault s.chain.lp launchToken asset recorded
        = .ok lp) :
      Effect s (s.withLP lp)

variable {P}

theorem half_effect {s s' : System π} (h : (machine P).Half s s') :
    Effect P s s' := by
  cases h with
  | leave receipt => exact .finish receipt
  | @enter k _ e he =>
      cases k with
      | wait seconds =>
          have hs := pure_ok.mp he
          rw [← hs]
          exact .wait seconds
      | outside lp =>
          have hs := pure_ok.mp he
          rw [← hs]
          exact .outside _ rfl
      | fees sender value V k =>
          simp only [machine, bind_ok, revertIf_ok, pure_ok] at he
          obtain ⟨_, hsender, out, hout, rfl⟩ := he
          exact .fees hout hsender
      | proposeCTO sender V token controller metadataHash metadataURI =>
          simp only [machine, bind_ok, pure_ok] at he
          obtain ⟨⟨c, events⟩, hc, rfl⟩ := he
          exact .propose hc
      | acceptCTO sender proposalId =>
          simp only [machine, bind_ok, pure_ok] at he
          obtain ⟨⟨c, events⟩, hc, rfl⟩ := he
          exact .accept hc
      | treasuryAcceptCTO sender treasury proposalId =>
          simp only [machine, bind_ok, pure_ok] at he
          obtain ⟨⟨c, events⟩, hc, rfl⟩ := he
          obtain ⟨t, -, -, hc⟩ := treasuryAcceptCTO_ok hc
          exact .accept hc
      | cancelCTO sender proposalId =>
          simp only [machine, bind_ok, pure_ok] at he
          obtain ⟨⟨c, events⟩, hc, rfl⟩ := he
          exact .cancel hc
      | expireCTO sender proposalId =>
          simp only [machine, bind_ok, pure_ok] at he
          obtain ⟨⟨c, events⟩, hc, rfl⟩ := he
          exact .expire hc
      | executeCTO sender V proposalId =>
          simp only [machine, bind_ok, pure_ok] at he
          obtain ⟨⟨c, events⟩, hc, rfl⟩ := he
          exact .execute hc
      | collectFees V custodian =>
          simp only [machine, bind_ok, pure_ok] at he
          obtain ⟨c, hc, rfl⟩ := he
          exact .collect hc
      | claimLPFees sender asset =>
          simp only [machine, bind_ok, pure_ok] at he
          obtain ⟨lp, hlp, rfl⟩ := he
          exact .claim hlp
      | fundCommunityVault launchToken asset recorded =>
          simp only [machine, bind_ok, pure_ok] at he
          obtain ⟨lp, hlp, rfl⟩ := he
          exact .community hlp
      | fundTraderRewardsVault launchToken asset recorded =>
          simp only [machine, bind_ok, pure_ok] at he
          obtain ⟨lp, hlp, rfl⟩ := he
          exact .traderRewards hlp

/-- What `executeCTO` reaches after the collection, if the token graduated, or
    without one, if it did not. -/
def afterCollection (P : Protocol) (V : Views) (c : Chain π)
    (proposalId : Nat) : Except Revert (Chain π) :=
  let token := (c.registry.proposals proposalId).token
  if (c.lp.launches token).graduated = true then
    collectCanonicalLPFees P V (activated c proposalId) token
      (c.fees.curveOf token)
  else .ok (activated c proposalId)

omit [Keccak] in
/-- The collection touches the LP side only. -/
theorem afterCollection_ok {V : Views} {c c₁ : Chain π} {proposalId : Nat}
    (h : afterCollection P V c proposalId = .ok c₁) :
    ∃ lp, c₁ = { activated c proposalId with lp } := by
  unfold afterCollection at h
  by_cases hg : (c.lp.launches
      (c.registry.proposals proposalId).token).graduated = true
  · rw [if_pos hg] at h
    obtain ⟨-, hcollect⟩ := collectCanonicalLPFees_ok h
    obtain ⟨lp, _, _, -, hc₁⟩ := collectLPFees_ok hcollect
    exact ⟨lp, hc₁⟩
  · rw [if_neg hg] at h
    exact ⟨c.lp, (Except.ok.inj h).symm⟩

omit [Keccak] in
/-- **AN EXECUTION** rewrites the proposal, the active treasury, the LP side as
    the collection left it, and the manager's entries of the token. -/
theorem executed_ok {V : Views} {msg : Msg} {c c' : Chain π}
    {proposalId : Nat} {events : List RegistryEvent}
    (h : executeCTO P V msg c proposalId = .ok (c', events)) :
    let details := c.registry.proposals proposalId
    c.fees.ctoActive details.token = false ∧ details.treasury ≠ 0
      ∧ c'.registry = (activated c proposalId).registry
      ∧ c'.treasuries = c.treasuries
      ∧ (∃ c₁, afterCollection P V c proposalId = .ok c₁ ∧ c'.lp = c₁.lp)
      ∧ c'.fees.toBooks = { c.fees.toBooks with
        creatorFeesAccrued :=
          Function.update c.fees.creatorFeesAccrued details.token 0
        checkpointedCreatorFees :=
          LedgerSum.update₂ c.fees.checkpointedCreatorFees details.token
            details.previousRecipient
            (c.fees.checkpointedCreatorFees details.token
                details.previousRecipient
              + c.fees.creatorFeesAccrued details.token) }
      ∧ c'.fees.toRoutes = { c.fees.toRoutes with
        pendingCreatorPayoutOf :=
          Function.update c.fees.pendingCreatorPayoutOf details.token 0
        creatorPayoutOf := Function.update c.fees.creatorPayoutOf details.token
          details.treasury
        ctoTreasuryOf := Function.update c.fees.ctoTreasuryOf details.token
          details.treasury
        ctoActive := Function.update c.fees.ctoActive details.token true } := by
  obtain ⟨-, -, -, hstale, -, -, c₁, out, hc₁, hout, rfl⟩ := executeCTO_ok h
  obtain ⟨lp, rfl⟩ := afterCollection_ok (P := P) hc₁
  obtain ⟨-, hcto, -, htreasury, -, -, hs, -⟩ := FeeManager.activateCTO_ok hout
  refine ⟨hcto, htreasury, rfl, rfl, ⟨_, hc₁, rfl⟩, ?_, ?_⟩
  · show out.storage.toBooks = _
    rw [hs, ← hstale]
    rfl
  · show out.storage.toRoutes = _
    rw [hs]
    rfl

end Machine

/-! ## The joint invariant -/

section Joint

/-- What a proposal keeps for as long as it exists. -/
structure SameProposal (p p' : Proposal) : Prop where
  token : p'.token = p.token
  creator : p'.creator = p.creator
  controller : p'.controller = p.controller
  treasury : p'.treasury = p.treasury
  previousRecipient : p'.previousRecipient = p.previousRecipient
  metadataHash : p'.metadataHash = p.metadataHash
  nonce : p'.nonce = p.nonce
  createdAt : p'.createdAt = p.createdAt

theorem SameProposal.refl (p : Proposal) : SameProposal p p :=
  ⟨rfl, rfl, rfl, rfl, rfl, rfl, rfl, rfl⟩

theorem SameProposal.trans {p q r : Proposal} (h : SameProposal p q)
    (h' : SameProposal q r) : SameProposal p r :=
  ⟨h'.token.trans h.token, h'.creator.trans h.creator,
    h'.controller.trans h.controller, h'.treasury.trans h.treasury,
    h'.previousRecipient.trans h.previousRecipient,
    h'.metadataHash.trans h.metadataHash, h'.nonce.trans h.nonce,
    h'.createdAt.trans h.createdAt⟩

/-- The states a proposal never leaves. -/
def ProposalState.final : ProposalState → Bool
  | .active | .cancelled | .expired => true
  | _ => false

/-- **WHAT IS NEVER TAKEN BACK.** -/
structure After (g : RegistryStorage) (r : Routes) (g' : RegistryStorage)
    (r' : Routes) : Prop where
  nonce : ∀ t, g.tokenNonce t ≤ g'.tokenNonce t
  kept : ∀ id, (g.proposals id).state ≠ .none →
    (g'.proposals id).state ≠ .none
      ∧ SameProposal (g.proposals id) (g'.proposals id)
  final : ∀ id, ProposalState.final (g.proposals id).state = true →
    g'.proposals id = g.proposals id
  routed : ∀ t, r.ctoActive t = true →
    r'.ctoActive t = true ∧ r'.creatorPayoutOf t = r.creatorPayoutOf t

variable {g g' : RegistryStorage} {r r' : Routes}

theorem After.refl (g : RegistryStorage) (r : Routes) : After g r g r :=
  ⟨fun _ => Nat.le_refl _, fun _ h => ⟨h, SameProposal.refl _⟩,
    fun _ _ => rfl, fun _ h => ⟨h, rfl⟩⟩

theorem After.trans {g'' : RegistryStorage} {r'' : Routes}
    (h : After g r g' r') (h' : After g' r' g'' r'') : After g r g'' r'' := by
  refine ⟨fun t => (h.nonce t).trans (h'.nonce t), ?_, ?_, ?_⟩
  · intro id hid
    obtain ⟨hne, hsame⟩ := h.kept id hid
    obtain ⟨hne', hsame'⟩ := h'.kept id hne
    exact ⟨hne', hsame.trans hsame'⟩
  · intro id hid
    have hsame := h.final id hid
    rw [← hsame] at hid
    exact (h'.final id hid).trans hsame
  · intro t ht
    obtain ⟨hactive, hpayout⟩ := h.routed t ht
    obtain ⟨hactive', hpayout'⟩ := h'.routed t hactive
    exact ⟨hactive', hpayout'.trans hpayout⟩

variable [Keccak]

/-- **THE JOINT INVARIANT** of the registry and the fee manager. -/
structure Joint (g : RegistryStorage) (r : Routes) : Prop where
  stored : ∀ id, (g.proposals id).state ≠ .none →
    id = proposalIdOf (g.proposals id)
  nonce_le : ∀ id, (g.proposals id).state ≠ .none →
    (g.proposals id).nonce ≤ g.tokenNonce (g.proposals id).token
  live_current : ∀ id, (g.proposals id).state.live = true →
    g.currentProposalId (g.proposals id).token = id
  inactive : ∀ t, r.ctoActive t = false →
    g.activeTreasury t = 0 ∧ r.ctoTreasuryOf t = 0
      ∧ ∀ id, (g.proposals id).token = t → (g.proposals id).state ≠ .active
  active : ∀ t, r.ctoActive t = true →
    ∃ id, (g.proposals id).token = t ∧ (g.proposals id).state = .active
      ∧ (g.proposals id).treasury ≠ 0
      ∧ g.activeTreasury t = (g.proposals id).treasury
      ∧ r.ctoTreasuryOf t = (g.proposals id).treasury
      ∧ r.creatorPayoutOf t = (g.proposals id).treasury
      ∧ r.pendingCreatorPayoutOf t = 0 ∧ r.curveOf t ≠ 0

/-- A stored proposal has a non-zero id. -/
theorem Joint.id_ne_zero (h : Joint g r) {id : Nat}
    (hid : (g.proposals id).state ≠ .none) : id ≠ 0 := by
  rw [h.stored id hid]
  exact Keccak.proposalId_ne_zero _

/-- The id of the next proposal of a token is unused. -/
theorem Joint.fresh (h : Joint g r) (details : Proposal)
    (hnonce : g.tokenNonce details.token < details.nonce) :
    (g.proposals (proposalIdOf details)).state = .none := by
  by_contra hne
  have hkey := Keccak.proposalId_injective (h.stored _ hne)
  have htoken : details.token
      = (g.proposals (proposalIdOf details)).token :=
    congrArg ProposalKey.token hkey
  have hsame : details.nonce
      = (g.proposals (proposalIdOf details)).nonce :=
    congrArg ProposalKey.nonce hkey
  have hle := h.nonce_le _ hne
  rw [← htoken] at hle
  omega

/-! ## One kind of write at a time -/

/-- The fee manager's own calls. -/
theorem Joint.routes (h : Joint g r) (hkeep : KeepsRoute r r') :
    Joint g r' ∧ After g r g r' := by
  refine ⟨⟨h.stored, h.nonce_le, h.live_current, ?_, ?_⟩,
    fun _ => Nat.le_refl _, fun _ hid => ⟨hid, SameProposal.refl _⟩,
    fun _ _ => rfl, ?_⟩
  · intro t ht
    rw [hkeep.active] at ht
    rw [hkeep.treasuryOf]
    exact h.inactive t ht
  · intro t ht
    rw [hkeep.active] at ht
    obtain ⟨id, htoken, hstate, hne, hactive, htreasury, hpayout, hpending,
      hcurve⟩ := h.active t ht
    obtain ⟨hp, hq⟩ := hkeep.payout t hcurve ht
    refine ⟨id, htoken, hstate, hne, hactive, ?_, ?_, ?_, ?_⟩
    · rw [hkeep.treasuryOf]
      exact htreasury
    · rw [hp]
      exact hpayout
    · rw [hq]
      exact hpending
    · rw [(hkeep.registered t hcurve).1]
      exact hcurve
  · intro t ht
    obtain ⟨_, -, -, -, -, -, -, -, hcurve⟩ := h.active t ht
    refine ⟨?_, (hkeep.payout t hcurve ht).1⟩
    rw [hkeep.active]
    exact ht

/-- Accepting, cancelling and expiring rewrite one proposal that is still
    open. -/
theorem Joint.rewrite (h : Joint g r) {id : Nat} {details : Proposal}
    (hopen : (g.proposals id).state = .proposed
      ∨ (g.proposals id).state = .accepted)
    (hsame : SameProposal (g.proposals id) details)
    (hne : details.state ≠ .none) (hnot : details.state ≠ .active) :
    let g' := { g with proposals := Function.update g.proposals id details }
    Joint g' r ∧ After g r g' r := by
  have hstored : (g.proposals id).state ≠ .none := by
    rcases hopen with hs | hs
    · rw [hs]
      decide
    · rw [hs]
      decide
  have hlive : (g.proposals id).state.live = true := by
    rcases hopen with hs | hs
    · rw [hs]
      rfl
    · rw [hs]
      rfl
  have hself : (Function.update g.proposals id details) id = details :=
    Function.update_self _ _ _
  have hother : ∀ {id'}, id' ≠ id →
      (Function.update g.proposals id details) id' = g.proposals id' :=
    fun hne' => Function.update_of_ne hne' _ _
  refine ⟨⟨?_, ?_, ?_, ?_, ?_⟩, fun _ => Nat.le_refl _, ?_, ?_,
    fun _ ht => ⟨ht, rfl⟩⟩
  · intro id' hid'
    by_cases heq : id' = id
    · subst heq
      simp only [hself]
      have hold := h.stored id' hstored
      simp only [proposalIdOf, hsame.token, hsame.nonce, hsame.treasury,
        hsame.controller, hsame.metadataHash] at hold ⊢
      exact hold
    · simp only [hother heq] at hid' ⊢
      exact h.stored id' hid'
  · intro id' hid'
    by_cases heq : id' = id
    · subst heq
      simp only [hself, hsame.token, hsame.nonce]
      exact h.nonce_le id' hstored
    · simp only [hother heq] at hid' ⊢
      exact h.nonce_le id' hid'
  · intro id' hid'
    by_cases heq : id' = id
    · subst heq
      simp only [hself, hsame.token]
      exact h.live_current id' hlive
    · simp only [hother heq] at hid' ⊢
      exact h.live_current id' hid'
  · intro t ht
    obtain ⟨hactive, htreasury, hnone⟩ := h.inactive t ht
    refine ⟨hactive, htreasury, ?_⟩
    intro id' htoken
    by_cases heq : id' = id
    · subst heq
      simp only [hself]
      exact hnot
    · simp only [hother heq] at htoken ⊢
      exact hnone id' htoken
  · intro t ht
    obtain ⟨id', htoken, hstate, hrest⟩ := h.active t ht
    have heq : id' ≠ id := by
      rintro rfl
      rcases hopen with hs | hs
      · rw [hs] at hstate
        exact nomatch hstate
      · rw [hs] at hstate
        exact nomatch hstate
    refine ⟨id', ?_⟩
    simp only [hother heq]
    exact ⟨htoken, hstate, hrest⟩
  · intro id' hid'
    by_cases heq : id' = id
    · subst heq
      simp only [hself]
      exact ⟨hne, hsame⟩
    · simp only [hother heq]
      exact ⟨hid', SameProposal.refl _⟩
  · intro id' hid'
    by_cases heq : id' = id
    · subst heq
      rcases hopen with hs | hs
      · rw [hs] at hid'
        exact nomatch hid'
      · rw [hs] at hid'
        exact nomatch hid'
    · exact hother heq

/-- Proposing stores a new proposal under a fresh id. -/
theorem Joint.propose (h : Joint g r) (details : Proposal)
    {canonical : Address → Address → Bool}
    (hnonce : details.nonce = g.tokenNonce details.token + 1)
    (hstate : details.state = .proposed)
    (hlive : g.currentProposalId details.token ≠ 0 →
      (g.proposals (g.currentProposalId details.token)).state.live = false) :
    let g' := { g with
      isCanonicalTreasury := canonical
      tokenNonce :=
        Function.update g.tokenNonce details.token details.nonce
      currentProposalId := Function.update g.currentProposalId details.token
        (proposalIdOf details)
      proposals :=
        Function.update g.proposals (proposalIdOf details) details }
    Joint g' r ∧ After g r g' r := by
  have hfresh := h.fresh details (by omega)
  have hself : (Function.update g.proposals (proposalIdOf details) details)
      (proposalIdOf details) = details := Function.update_self _ _ _
  have hother : ∀ {id}, id ≠ proposalIdOf details →
      (Function.update g.proposals (proposalIdOf details) details) id
        = g.proposals id :=
    fun hne => Function.update_of_ne hne _ _
  have hold : ∀ {id}, (g.proposals id).state ≠ .none →
      id ≠ proposalIdOf details := by
    rintro id hid rfl
    exact hid hfresh
  have hnonce_le : ∀ t, g.tokenNonce t
      ≤ Function.update g.tokenNonce details.token details.nonce t := by
    intro t
    by_cases heq : t = details.token
    · subst heq
      rw [Function.update_self]
      omega
    · rw [Function.update_of_ne heq]
  refine ⟨⟨?_, ?_, ?_, ?_, ?_⟩, hnonce_le, ?_, ?_, fun _ ht => ⟨ht, rfl⟩⟩
  · intro id hid
    by_cases heq : id = proposalIdOf details
    · subst heq
      simp only [hself]
    · simp only [hother heq] at hid ⊢
      exact h.stored id hid
  · intro id hid
    by_cases heq : id = proposalIdOf details
    · subst heq
      simp only [hself, Function.update_self]
      exact Nat.le_refl _
    · simp only [hother heq] at hid ⊢
      exact (h.nonce_le id hid).trans (hnonce_le _)
  · intro id hid
    by_cases heq : id = proposalIdOf details
    · subst heq
      simp only [hself, Function.update_self]
    · simp only [hother heq] at hid ⊢
      have hcurrent := h.live_current id hid
      by_cases htoken : (g.proposals id).token = details.token
      · -- a second live proposal of the token would be its current one
        have hne : (g.proposals id).state ≠ .none := by
          intro hnone
          rw [hnone] at hid
          exact nomatch hid
        rw [htoken] at hcurrent
        have hdead := hlive (by
          rw [hcurrent]
          exact h.id_ne_zero hne)
        rw [hcurrent, hid] at hdead
        exact nomatch hdead
      · rw [Function.update_of_ne htoken]
        exact hcurrent
  · intro t ht
    obtain ⟨hactive, htreasury, hnone⟩ := h.inactive t ht
    refine ⟨hactive, htreasury, ?_⟩
    intro id htoken
    by_cases heq : id = proposalIdOf details
    · subst heq
      simp only [hself, hstate]
      decide
    · simp only [hother heq] at htoken ⊢
      exact hnone id htoken
  · intro t ht
    obtain ⟨id, htoken, hactive, hrest⟩ := h.active t ht
    have hne : id ≠ proposalIdOf details := hold (by
      rw [hactive]
      decide)
    refine ⟨id, ?_⟩
    simp only [hother hne]
    exact ⟨htoken, hactive, hrest⟩
  · intro id hid
    simp only [hother (hold hid)]
    exact ⟨hid, SameProposal.refl _⟩
  · intro id hid
    refine hother (hold ?_)
    intro hnone
    rw [hnone] at hid
    exact nomatch hid

/-- Executing makes the proposal active on both sides at once. -/
theorem Joint.execute (h : Joint g r) {id : Nat}
    (hstate : (g.proposals id).state = .accepted)
    (htreasury : (g.proposals id).treasury ≠ 0)
    (hcurve : r.curveOf (g.proposals id).token ≠ 0)
    (hcto : r.ctoActive (g.proposals id).token = false) :
    let token := (g.proposals id).token
    let treasury := (g.proposals id).treasury
    let g' := { g with
      proposals := Function.update g.proposals id
        { g.proposals id with state := .active }
      activeTreasury := Function.update g.activeTreasury token treasury }
    let r' := { r with
      pendingCreatorPayoutOf :=
        Function.update r.pendingCreatorPayoutOf token 0
      creatorPayoutOf := Function.update r.creatorPayoutOf token treasury
      ctoTreasuryOf := Function.update r.ctoTreasuryOf token treasury
      ctoActive := Function.update r.ctoActive token true }
    Joint g' r' ∧ After g r g' r' := by
  have hstored : (g.proposals id).state ≠ .none := by
    rw [hstate]
    decide
  have hself : (Function.update g.proposals id
      { g.proposals id with state := .active }) id
      = { g.proposals id with state := .active } := Function.update_self _ _ _
  have hother : ∀ {id'}, id' ≠ id → (Function.update g.proposals id
      { g.proposals id with state := .active }) id' = g.proposals id' :=
    fun hne => Function.update_of_ne hne _ _
  refine ⟨⟨?_, ?_, ?_, ?_, ?_⟩, fun _ => Nat.le_refl _, ?_, ?_, ?_⟩
  · intro id' hid'
    by_cases heq : id' = id
    · subst heq
      simp only [hself]
      exact h.stored id' hstored
    · simp only [hother heq] at hid' ⊢
      exact h.stored id' hid'
  · intro id' hid'
    by_cases heq : id' = id
    · subst heq
      simp only [hself]
      exact h.nonce_le id' hstored
    · simp only [hother heq] at hid' ⊢
      exact h.nonce_le id' hid'
  · intro id' hid'
    by_cases heq : id' = id
    · subst heq
      simp only [hself]
      refine h.live_current id' ?_
      rw [hstate]
      rfl
    · simp only [hother heq] at hid' ⊢
      exact h.live_current id' hid'
  · intro t ht
    have hne : t ≠ (g.proposals id).token := by
      rintro rfl
      simp only [Function.update_self] at ht
      exact nomatch ht
    simp only [Function.update_of_ne hne] at ht ⊢
    obtain ⟨hactive, htre, hnone⟩ := h.inactive t ht
    refine ⟨hactive, htre, ?_⟩
    intro id' htoken
    by_cases heq : id' = id
    · subst heq
      simp only [hself] at htoken
      exact absurd htoken.symm hne
    · simp only [hother heq] at htoken ⊢
      exact hnone id' htoken
  · intro t ht
    by_cases heqt : t = (g.proposals id).token
    · subst heqt
      refine ⟨id, ?_⟩
      simp only [hself, Function.update_self]
      exact ⟨trivial, trivial, htreasury, trivial, trivial, trivial, trivial,
        hcurve⟩
    · simp only [Function.update_of_ne heqt] at ht ⊢
      obtain ⟨id', htoken, hactive, hrest⟩ := h.active t ht
      have heq : id' ≠ id := by
        rintro rfl
        exact heqt htoken.symm
      refine ⟨id', ?_⟩
      simp only [hother heq]
      exact ⟨htoken, hactive, hrest⟩
  · intro id' hid'
    by_cases heq : id' = id
    · subst heq
      simp only [hself]
      exact ⟨by decide, ⟨rfl, rfl, rfl, rfl, rfl, rfl, rfl, rfl⟩⟩
    · simp only [hother heq]
      exact ⟨hid', SameProposal.refl _⟩
  · intro id' hid'
    refine hother ?_
    rintro rfl
    rw [hstate] at hid'
    exact nomatch hid'
  · intro t ht
    have hne : t ≠ (g.proposals id).token := by
      rintro rfl
      rw [hcto] at ht
      exact nomatch ht
    simp only [Function.update_of_ne hne]
    exact ⟨ht, trivial⟩

end Joint

/-! ## One deployment -/

/-- Hashes that cannot collide, since they keep everything. -/
@[reducible] def plainKeccak : Keccak where
  proposalId k := Encodable.encode
    (k.token, k.nonce, k.treasury, k.controller, k.metadataHash) + 1
  uriHash _ := 0
  predictTreasury _ _ nonce := Fin.ofNat _ nonce
  proposalId_injective := by
    intro k l h
    have hkey := Encodable.encode_injective (Nat.succ.inj h)
    cases k
    cases l
    simp only [Prod.mk.injEq] at hkey
    simpa using hkey
  proposalId_ne_zero _ := Nat.succ_ne_zero _

/-- A position manager with no positions. -/
@[reducible] def noPositions : PositionManager Unit where
  ownerOf _ _ := 0
  positions _ _ := none
  collectable _ _ := (0, 0)
  collect _ _ _ _ _ := .ok ((), 0, 0)
  collectable_le _ _ := ⟨Nat.zero_le _, Nat.zero_le _⟩
  collect_amounts _ _ _ _ _ _ _ _ h := by
    cases Except.ok.inj h
    exact ⟨(Nat.zero_min _).symm, (Nat.zero_min _).symm⟩

/-- One set of addresses. -/
def oneProtocol : Protocol where
  feeManager := 11
  ctoRegistry := 12
  graduationManager := 13
  managerFactory := 10
  custodianDeployer := 17
  deployerManager := 13
  deployerFactory := 10
  deployerFeeVault := 15
  vault := ⟨15, 10, 13, 18, 19, 16⟩

/-- LP contracts that hold nothing. -/
def emptyLP : LPState Unit where
  positions := ()
  vault := ⟨false, 17, fun _ _ => 0, fun _ _ => 0, fun _ _ => 0,
    fun _ _ => 0, fun _ => 0⟩
  vaultBalance _ := 0
  custodianOf _ := 0
  custodians _ := ⟨0, 0, 0, 0, 0, 0, false⟩
  launches _ := ⟨0, 0, false, false⟩
  settled _ := false

/-- What the contracts of this deployment answer. -/
def knownViews : Views :=
  FeeManager.oneTokenViews [10, 13, 15, 17, 20, 21, 30, 50, CANONICAL_USDC]

/-- The token has graduated, and its position has fees to collect. -/
def graduatedLP : LPState (Nat × Nat) where
  positions := (1000, 2000)
  vault := emptyLP.vault
  vaultBalance _ := 0
  custodianOf t := if t = 21 then 50 else 0
  custodians a := if a = 50 then ⟨21, 13, 15, 16, 10, 7, true⟩
    else ⟨0, 0, 0, 0, 0, 0, false⟩
  launches t := if t = 21 then ⟨20, 22, true, true⟩ else ⟨0, 0, false, false⟩
  settled t := t == 21

/-- The id of the first proposal for the token 21. -/
def firstId : Nat := 559584397631758318999226

/-- A hand-over: the curve deposits fees, the creator 22 proposes the controller
    30, the treasury 1 accepts, and anybody executes. -/
def handover : List (Call (Nat × Nat) × Script (Call (Nat × Nat))) :=
  [(.fees 40 0 knownViews (.setFactoryOnce 10), .halt true),
    (.fees 10 0 knownViews (.registerToken 21 20 22), .halt true),
    (.fees 20 100 knownViews (.depositFees 21 100 40 30 20 10 true),
      .halt true),
    (.proposeCTO 22 knownViews 21 30 0 [], .halt true),
    (.wait 100, .halt true),
    (.treasuryAcceptCTO 30 1 firstId, .halt true),
    (.wait 259200, .halt true),
    (.executeCTO 50 knownViews firstId, .halt true)]

/-- The state after the first calls of that hand-over. -/
def handed (n : Nat) : System (Nat × Nat) :=
  (@machine _ plainKeccak exactMulDiv onePosition oneProtocol).runTxs
    (handover.take n) (deployed 0 40 41 graduatedLP)

theorem later_handed (n : Nat) :
    (@machine _ plainKeccak exactMulDiv onePosition oneProtocol).Later
      (deployed 0 40 41 graduatedLP) (handed n) :=
  (Machine.Observable.runTxs (handover.take n) .start).later

end CTOSystem
