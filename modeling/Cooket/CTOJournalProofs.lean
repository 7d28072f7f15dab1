import Cooket.CTOTimelineProofs
import Cooket.IndexerEventsProofs

/-! # What a hand-over tells the world

    The hand-over system of the registry and the fee manager, with the events
    it emits.  One half of a call emits its events together, at one time
    (`Emission`); a call that fails takes its events back with everything else.
    What is emitted changes nothing: the system is the one without a journal
    (`seen_machine`).

    The journal tells the whole story.  For every proposal it holds exactly the
    events of the proposal's history, in order (`Chronicle.told`); an activation
    stands beside the fee route it opened; and between transactions the fees
    credited to a recipient, less those claimed, are what the fee manager still
    owes (`Settled`). -/

namespace CTOJournal

open CheckedArith Contract LPVault CTORegistry CTOSystem Reentrant
open FeeManager (FeeManagerCall FeeManagerEvent FeeManagerStorage Receipt Routes
  Views Outcome Immutables)
open IndexerEvents (CTOEvent)

/-! ## Events as the chain shows them -/

/-- `ProposalState`, as an event encodes it. -/
def stateNumber : ProposalState → Nat
  | .none => 0
  | .proposed => 1
  | .accepted => 2
  | .cancelled => 3
  | .expired => 4
  | .active => 5

/-- An event of the fee manager that is about a hand-over. -/
def managerEvent : FeeManagerEvent → Option CTOEvent
  | .creatorFeeCheckpointed token previousRecipient amount =>
      some (.creatorFeeCheckpointed token previousRecipient amount)
  | .pendingCreatorPayoutInvalidated token cancelledPayout =>
      some (.pendingCreatorPayoutInvalidated token cancelledPayout)
  | .ctoFeeRouteActivated token previousRecipient treasury =>
      some (.feeRouteActivated token previousRecipient treasury)
  | .checkpointedCreatorFeesClaimed token recipient triggeredBy amount =>
      some (.checkpointedCreatorFeesClaimed token recipient triggeredBy amount)
  | _ => none

/-- `_treasurySalt`, by token, controller and nonce. -/
abbrev Salt := Address → Address → Nat → Nat

/-- An event of the registry. -/
def registryEvent (salt : Salt) : RegistryEvent → CTOEvent
  | .ctoTreasuryDeployed token controller treasury nonce =>
      .treasuryDeployed token controller treasury nonce
        (salt token controller nonce)
  | .ctoProposed proposalId token creator controller treasury previousRecipient
      nonce acceptanceDeadline metadataHash metadataURI =>
      .proposed proposalId token creator controller treasury previousRecipient
        nonce acceptanceDeadline metadataHash metadataURI
  | .ctoAccepted proposalId token treasury controller acceptedAt =>
      .accepted proposalId token treasury controller acceptedAt
  | .ctoReady proposalId token executeAfter executeDeadline =>
      .ready proposalId token executeAfter executeDeadline
  | .ctoCancelled proposalId token creator =>
      .cancelled proposalId token creator
  | .ctoExpired proposalId token previousState =>
      .expired proposalId token (stateNumber previousState)
  | .ctoActivated proposalId token treasury controller previousRecipient
      executor =>
      .activated proposalId token treasury controller previousRecipient executor

/-- The proposal an event is about. -/
def about : CTOEvent → Option Nat
  | .proposed id .. | .accepted id .. | .ready id .. | .cancelled id ..
  | .expired id .. | .activated id .. => some id
  | _ => none

/-! ## The system with its journal -/

/-- What one half of a call emitted, and when. -/
structure Emission where
  time : Nat
  events : List CTOEvent
  deriving DecidableEq, Repr

/-- The system, and everything it emitted. -/
structure Told (π : Type) where
  system : System π
  journal : List Emission

section Machine

variable {π : Type}

/-- The state after one half of a call. -/
def Told.after (s : Told π) (next : System π) (events : List CTOEvent) :
    Told π :=
  ⟨next, s.journal ++ [⟨s.system.now, events⟩]⟩

/-- The events of a registry function that returned. -/
def registryEvents (salt : Salt)
    (r : Except Revert (Chain π × List RegistryEvent)) : List CTOEvent :=
  match r with
  | .ok (_, events) => events.map (registryEvent salt)
  | .error _ => []

/-- The events of a function of the fee manager that returned. -/
def managerEvents (r : Except Revert FeeManager.Outcome) : List CTOEvent :=
  match r with
  | .ok out => out.events.filterMap managerEvent
  | .error _ => []

variable [Keccak] [MulDiv] [PositionManager π] (salt : Salt) (P : Protocol)

/-- What the fee manager emits while a proposal is executed. -/
def routeEvents (V : Views) (s : System π) (proposalId : Nat) :
    List CTOEvent :=
  let details := s.chain.registry.proposals proposalId
  let c := activated s.chain proposalId
  managerEvents (FeeManager.activateCTO P.fees (views P V c)
    ⟨P.ctoRegistry, 0, s.now⟩ c.fees details.token details.treasury)

/-- What the first half of a call emits. -/
def emitted : Call π → System π → List CTOEvent
  | .fees sender value V k, s =>
      managerEvents (FeeManager.call P.fees (views P V s.chain)
        ⟨sender, value, s.now⟩ s.chain.fees k)
  | .proposeCTO sender V token controller metadataHash metadataURI, s =>
      registryEvents salt (proposeCTO P V ⟨sender, 0, s.now⟩ s.chain token
        controller metadataHash metadataURI)
  | .acceptCTO sender proposalId, s =>
      registryEvents salt (acceptCTO P ⟨sender, 0, s.now⟩ s.chain proposalId)
  | .treasuryAcceptCTO sender treasury proposalId, s =>
      registryEvents salt (treasuryAcceptCTO P ⟨sender, 0, s.now⟩ s.chain
        treasury proposalId)
  | .cancelCTO sender proposalId, s =>
      registryEvents salt (cancelCTO ⟨sender, 0, s.now⟩ s.chain proposalId)
  | .expireCTO sender proposalId, s =>
      registryEvents salt (expireCTO ⟨sender, 0, s.now⟩ s.chain proposalId)
  | .executeCTO sender V proposalId, s =>
      -- the route is switched before the registry emits its own event
      routeEvents P V s proposalId ++
        registryEvents salt (executeCTO P V ⟨sender, 0, s.now⟩ s.chain
          proposalId)
  | _, _ => []

/-- What the second half emits. -/
def finished (receipt : Option Receipt) (s : System π) : List CTOEvent :=
  (FeeManager.finish receipt s.chain.fees).2.filterMap managerEvent

/-- **THE SYSTEM WITH ITS JOURNAL**. -/
def told : Machine (Told π) (Call π) (Option Receipt) Revert where
  enter k s := do
    let e ← (machine P).enter k s.system
    pure ⟨s.after e.state (emitted salt P k s.system), e.yields, e.ret⟩
  leave receipt s :=
    s.after ((machine P).leave receipt s.system) (finished receipt s.system)

variable {salt P}

/-- **THE JOURNAL CHANGES NOTHING**. -/
theorem seen_machine : (told salt P).Seen (machine (π := π) P) Told.system where
  enter k s := by
    show _ = Except.map _ ((machine P).enter k s.system >>= _)
    cases (machine P).enter k s.system with
    | error e => rfl
    | ok e => rfl
  leave _ _ := rfl

end Machine

/-! ## What each function emits -/

section Events

variable [Keccak] {π : Type} {P : Protocol} {V : Views} {msg : Msg}
  {c c' : Chain π} {id : Nat} {events : List RegistryEvent}

theorem proposeCTO_events {token controller : Address} {metadataHash : Nat}
    {metadataURI : List UInt8}
    (h : proposeCTO P V msg c token controller metadataHash metadataURI
      = .ok (c', events)) :
    ∃ resolved,
      let details := newProposal msg c token controller resolved
      c'.registry.proposals =
          Function.update c.registry.proposals (proposalIdOf details) details
        ∧ c'.registry.currentProposalId token = proposalIdOf details
        ∧ c'.treasuries = Function.update c.treasuries details.treasury
          (some ⟨P.ctoRegistry, token, controller, CANONICAL_USDC⟩)
        ∧ c.treasuries details.treasury = none
        ∧ events =
          [.ctoTreasuryDeployed token controller details.treasury details.nonce,
            .ctoProposed (proposalIdOf details) token details.creator controller
              details.treasury details.previousRecipient details.nonce
              (details.createdAt + ACCEPTANCE_WINDOW) resolved metadataURI] := by
  simp only [proposeCTO, bind_ok, revertIf_ok, add64_ok, pure_ok,
    Prod.mk.injEq] at h
  obtain ⟨_, -, r, hr, _, -, _, -, _, -, _, -, resolved, -, _, ⟨-, rfl⟩, d, hd, _,
    ⟨-, rfl⟩, rfl, rfl⟩ := h
  obtain ⟨rfl, -, -⟩ := canonicalRelationships_ok hr
  obtain ⟨hnone, rfl⟩ := deployTreasury_ok hd
  exact ⟨resolved, rfl, Function.update_self .., rfl, hnone, rfl⟩

omit [Keccak] in
theorem acceptCTO_events (h : acceptCTO P msg c id = .ok (c', events)) :
    let details := c.registry.proposals id
    events =
      [.ctoAccepted id details.token details.treasury details.controller
          (uint64 msg.timestamp),
        .ctoReady id details.token (uint64 msg.timestamp + EXECUTION_DELAY)
          (uint64 msg.timestamp + EXECUTION_DELAY
            + EXECUTION_GRACE_PERIOD)] := by
  simp only [acceptCTO, bind_ok, revertIf_ok, add64_ok, pure_ok,
    Prod.mk.injEq] at h
  obtain ⟨_, -, details, hdetails, _, -, _, ⟨-, rfl⟩, _, -, _, -, _, -, _,
    ⟨-, rfl⟩, _, ⟨-, rfl⟩, -, rfl⟩ := h
  obtain ⟨rfl, -⟩ := requireProposal_ok hdetails
  rfl

omit [Keccak] in
theorem cancelCTO_events (h : cancelCTO msg c id = .ok (c', events)) :
    events = [.ctoCancelled id (c.registry.proposals id).token msg.sender] := by
  simp only [cancelCTO, bind_ok, revertIf_ok, pure_ok, Prod.mk.injEq] at h
  obtain ⟨details, hdetails, _, -, _, -, -, rfl⟩ := h
  obtain ⟨rfl, -⟩ := requireProposal_ok hdetails
  rfl

omit [Keccak] in
theorem expireCTO_events (h : expireCTO msg c id = .ok (c', events)) :
    events = [.ctoExpired id (c.registry.proposals id).token
      (c.registry.proposals id).state] := by
  simp only [expireCTO, bind_ok] at h
  obtain ⟨details, hdetails, h⟩ := h
  obtain ⟨rfl, -⟩ := requireProposal_ok hdetails
  cases hstate : (c.registry.proposals id).state with
  | proposed =>
      simp only [hstate, bind_ok, pure_ok, Prod.mk.injEq] at h
      obtain ⟨_, -, _, -, -, rfl⟩ := h
      rfl
  | accepted =>
      simp only [hstate, bind_ok, pure_ok, Prod.mk.injEq] at h
      obtain ⟨_, -, _, -, -, rfl⟩ := h
      rfl
  | none => simp [hstate] at h
  | active => simp [hstate] at h
  | cancelled => simp [hstate] at h
  | expired => simp [hstate] at h

variable [MulDiv] [PositionManager π]

omit [Keccak] in
theorem executeCTO_events (h : executeCTO P V msg c id = .ok (c', events)) :
    let details := c.registry.proposals id
    events = [.ctoActivated id details.token details.treasury
      details.controller details.previousRecipient msg.sender] := by
  simp only [executeCTO, bind_ok, revertIf_ok, add_ok, pure_ok,
    Prod.mk.injEq] at h
  obtain ⟨_, -, details, hdetails, _, -, _, -, _, -, _, -, _, -, r, -, _, -, _, -,
    c₁, -, out, -, -, rfl⟩ := h
  obtain ⟨rfl, -⟩ := requireProposal_ok hdetails
  rfl

end Events

/-! ## What the fee manager emits -/

section Manager
variable {I : Immutables} {V : Views} {msg : Msg} {s : FeeManagerStorage}
  {out : Outcome}

theorem transferOwnership_silent (newOwner : Address) :
    (FeeManager.transferOwnership_ s newOwner).2.filterMap managerEvent =
      [] := by
  by_cases h0 : s.pendingTreasury = 0
  · simp [FeeManager.transferOwnership_, h0]
  · simp [FeeManager.transferOwnership_, h0, managerEvent]

/-- Only the registry's call is about a hand-over. -/
theorem call_silent {k : FeeManagerCall}
    (h : FeeManager.call I V msg s k = .ok out)
    (hsender : msg.sender ≠ I.ctoRegistry) :
    out.events.filterMap managerEvent = [] := by
  have h := (FeeManager.call_ok h).2
  cases k with
  | setFactoryOnce factory_ =>
      simp only [FeeManager.dispatch, FeeManager.setFactoryOnce, bind_ok,
        pure_ok] at h
      obtain ⟨_, -, _, -, _, -, _, -, rfl⟩ := h
      rfl
  | bindEcosystemVaultsOnce communityVault_ traderRewardsVault_ =>
      simp only [FeeManager.dispatch, FeeManager.bindEcosystemVaultsOnce,
        bind_ok, pure_ok] at h
      obtain ⟨_, -, _, -, _, -, rfl⟩ := h
      rfl
  | registerToken token curve creator =>
      simp only [FeeManager.dispatch, FeeManager.registerToken, bind_ok,
        pure_ok] at h
      obtain ⟨_, -, _, -, _, -, _, -, _, -, _, -, _, -, rfl⟩ := h
      rfl
  | depositFees token totalFee creatorFee protocolFee communityFee
      traderRewardsFee isBuy =>
      simp only [FeeManager.dispatch, FeeManager.depositFees, bind_ok,
        pure_ok] at h
      obtain ⟨_, -, _, -, _, -, _, -, _, -, _, -, _, -, _, -, _, -, _, -, _, -,
        _, -, _, -, _, -, _, -, _, -, rfl⟩ := h
      rfl
  | proposeCreatorPayout token proposedPayout =>
      simp only [FeeManager.dispatch, FeeManager.proposeCreatorPayout,
        bind_ok, pure_ok] at h
      obtain ⟨_, -, _, -, _, -, _, -, rfl⟩ := h
      rfl
  | acceptCreatorPayout token =>
      simp only [FeeManager.dispatch, FeeManager.acceptCreatorPayout,
        bind_ok, pure_ok] at h
      obtain ⟨_, -, _, -, rfl⟩ := h
      rfl
  | cancelCreatorPayout token =>
      simp only [FeeManager.dispatch, FeeManager.cancelCreatorPayout,
        bind_ok, pure_ok] at h
      obtain ⟨_, -, _, -, _, -, rfl⟩ := h
      rfl
  | proposeTreasury proposedTreasury =>
      simp only [FeeManager.dispatch, FeeManager.proposeTreasury, bind_ok,
        pure_ok] at h
      obtain ⟨_, -, _, -, _, -, _, -, rfl⟩ := h
      rfl
  | acceptTreasury =>
      simp only [FeeManager.dispatch, FeeManager.acceptTreasury, bind_ok,
        pure_ok] at h
      obtain ⟨_, -, _, -, rfl⟩ := h
      rfl
  | cancelTreasuryProposal =>
      simp only [FeeManager.dispatch, FeeManager.cancelTreasuryProposal,
        bind_ok, pure_ok] at h
      obtain ⟨_, -, _, -, rfl⟩ := h
      rfl
  | claimProtocolFees =>
      simp only [FeeManager.dispatch, FeeManager.claimProtocolFees, bind_ok,
        pure_ok] at h
      obtain ⟨_, -, _, -, rfl⟩ := h
      rfl
  | claimCreatorFees token =>
      simp only [FeeManager.dispatch, FeeManager.claimCreatorFees, bind_ok,
        pure_ok] at h
      obtain ⟨_, -, _, -, _, -, rfl⟩ := h
      rfl
  | activateCTO token ctoTreasury =>
      exact absurd (FeeManager.activateCTO_ok h).1 hsender
  | claimCheckpointedCreatorFees token recipient =>
      simp only [FeeManager.dispatch, FeeManager.claimCheckpointedCreatorFees,
        bind_ok, pure_ok] at h
      obtain ⟨_, -, _, -, _, -, rfl⟩ := h
      rfl
  | fundCommunityVault token =>
      simp only [FeeManager.dispatch, FeeManager.fundCommunityVault, bind_ok,
        pure_ok] at h
      obtain ⟨_, -, _, -, _, -, _, -, rfl⟩ := h
      rfl
  | fundTraderRewardsVault token =>
      simp only [FeeManager.dispatch, FeeManager.fundTraderRewardsVault,
        bind_ok, pure_ok] at h
      obtain ⟨_, -, _, -, _, -, _, -, rfl⟩ := h
      rfl
  | transferOwnership newOwner =>
      simp only [FeeManager.dispatch, FeeManager.transferOwnership, bind_ok,
        pure_ok] at h
      obtain ⟨_, -, rfl⟩ := h
      rfl
  | acceptOwnership =>
      simp only [FeeManager.dispatch, FeeManager.acceptOwnership, bind_ok,
        pure_ok] at h
      obtain ⟨_, -, rfl⟩ := h
      exact transferOwnership_silent _
  | renounceOwnership =>
      simp only [FeeManager.dispatch, FeeManager.renounceOwnership, bind_ok,
        pure_ok] at h
      obtain ⟨_, -, rfl⟩ := h
      exact transferOwnership_silent _

/-- The events of an activation. -/
theorem activateCTO_events {token ctoTreasury : Address}
    (h : FeeManager.activateCTO I V msg s token ctoTreasury = .ok out) :
    out.events.filterMap managerEvent =
      (if s.creatorFeesAccrued token ≠ 0 then
          [CTOEvent.creatorFeeCheckpointed token (s.creatorPayoutOf token)
            (s.creatorFeesAccrued token)]
        else []) ++
      (if s.pendingCreatorPayoutOf token ≠ 0 then
          [CTOEvent.pendingCreatorPayoutInvalidated token
            (s.pendingCreatorPayoutOf token)]
        else []) ++
      [CTOEvent.feeRouteActivated token (s.creatorPayoutOf token)
        ctoTreasury] := by
  simp only [FeeManager.activateCTO, bind_ok, pure_ok] at h
  obtain ⟨_, -, _, -, _, -, r, hr, rfl⟩ := h
  have hpending : r.1.pendingCreatorPayoutOf token =
      s.pendingCreatorPayoutOf token := by
    rw [FeeManager.checkpoint_ok hr]
  have hevents : r.2.filterMap managerEvent =
      if s.creatorFeesAccrued token ≠ 0 then
        [CTOEvent.creatorFeeCheckpointed token (s.creatorPayoutOf token)
          (s.creatorFeesAccrued token)]
      else [] := by
    unfold FeeManager.checkpoint at hr
    by_cases h0 : s.creatorFeesAccrued token = 0
    · rw [if_neg (not_not.mpr h0)] at hr
      rw [if_neg (not_not.mpr h0), ← pure_ok.mp hr]
      rfl
    · rw [if_pos h0] at hr
      simp only [bind_ok, pure_ok] at hr
      obtain ⟨_, -, rfl⟩ := hr
      rw [if_pos h0]
      rfl
  simp only [List.filterMap_append, hevents, hpending]
  congr 2
  split <;> rfl

end Manager

/-! ## The events of one proposal -/

/-- Everything emitted, with its time. -/
def said (journal : List Emission) : List (Nat × CTOEvent) :=
  journal.flatMap fun m => m.events.map fun e => (m.time, e)

/-- The events about one proposal. -/
def concerning (id : Nat) (journal : List Emission) : List (Nat × CTOEvent) :=
  (said journal).filter fun x => about x.2 = some id

/-- The events a deed is told by. -/
def Deeds (id : Nat) (p : Proposal) (r : Record) (es : List (Nat × CTOEvent)) :
    Prop :=
  match r.deed with
  | .created => ∃ uri, es = [(r.time, .proposed id p.token p.creator p.controller
      p.treasury p.previousRecipient p.nonce (p.createdAt + ACCEPTANCE_WINDOW)
      p.metadataHash uri)]
  | .accepted => es =
      [(r.time, .accepted id p.token p.treasury p.controller (uint64 r.time)),
        (r.time, .ready id p.token (uint64 r.time + EXECUTION_DELAY)
          (uint64 r.time + EXECUTION_DELAY + EXECUTION_GRACE_PERIOD))]
  | .cancelled => es = [(r.time, .cancelled id p.token r.caller)]
  | .expired => ∃ n, es = [(r.time, .expired id p.token n)]
  | .executed => es = [(r.time, .activated id p.token p.treasury p.controller
      p.previousRecipient r.caller)]

/-- The events tell the history, deed by deed. -/
def Tale (id : Nat) (p : Proposal) (h : List Record)
    (es : List (Nat × CTOEvent)) : Prop :=
  ∃ ess, List.Forall₂ (Deeds id p) h ess ∧ es = ess.flatten

theorem said_append (journal : List Emission) (m : Emission) :
    said (journal ++ [m]) =
      said journal ++ m.events.map fun e => (m.time, e) := by
  simp [said]

theorem concerning_append (id : Nat) (journal : List Emission) (m : Emission) :
    concerning id (journal ++ [m]) = concerning id journal ++
      (m.events.filter fun e => about e = some id).map fun e => (m.time, e) := by
  rw [concerning, said_append, List.filter_append, List.filter_map, concerning]
  rfl

theorem Deeds.same {id : Nat} {p p' : Proposal} {r : Record}
    {es : List (Nat × CTOEvent)} (hsame : SameProposal p p')
    (h : Deeds id p r es) : Deeds id p' r es := by
  obtain ⟨htoken, hcreator, hcontroller, htreasury, hprevious, hhash, hnonce,
    hcreated⟩ := hsame
  rw [Deeds] at h ⊢
  rw [htoken, hcreator, hcontroller, htreasury, hprevious, hhash, hnonce,
    hcreated]
  exact h

/-- One more deed, and the events it is told by. -/
theorem Tale.snoc {id : Nat} {p p' : Proposal} {h : List Record} {r : Record}
    {es es' : List (Nat × CTOEvent)} (hsame : h ≠ [] → SameProposal p p')
    (hold : Tale id p h es) (hnew : Deeds id p' r es') :
    Tale id p' (h ++ [r]) (es ++ es') := by
  obtain ⟨ess, hforall, rfl⟩ := hold
  refine ⟨ess ++ [es'], ?_, by simp⟩
  refine List.rel_append ?_ (.cons hnew .nil)
  cases hforall with
  | nil => exact .nil
  | cons hd htl =>
      have hsame := hsame (List.cons_ne_nil _ _)
      exact .cons (hd.same hsame) (htl.imp fun _ _ => Deeds.same hsame)

/-! ## The journal tells the whole story -/

section Chronicle

variable [Keccak] {π : Type} (P : Protocol)

/-- **THE JOURNAL AND THE STATE**: every proposal's history is told, every
    announced treasury is there, and an activation stands beside its route. -/
structure Chronicle (s : Told π) : Prop where
  told : ∀ id, Tale id (s.system.chain.registry.proposals id)
    (s.system.history id) (concerning id s.journal)
  deployed : ∀ m ∈ s.journal, ∀ token controller treasury nonce salt,
    .treasuryDeployed token controller treasury nonce salt ∈ m.events →
    s.system.chain.treasuries treasury =
      some ⟨P.ctoRegistry, token, controller, CANONICAL_USDC⟩
  routed : ∀ m ∈ s.journal, ∀ id token treasury controller previous executor,
    .activated id token treasury controller previous executor ∈ m.events →
    .feeRouteActivated token previous treasury ∈ m.events

variable {P} {s : Told π}

omit [Keccak] in
theorem chronicle_deployed (now : Nat) (governance initialTreasury : Address)
    (lp : LPState π) :
    Chronicle P ⟨CTOSystem.deployed now governance initialTreasury lp, []⟩ where
  told _ := ⟨[], .nil, rfl⟩
  deployed _ h := absurd h List.not_mem_nil
  routed _ h := absurd h List.not_mem_nil

omit [Keccak] in
theorem kind_of_about {e : CTOEvent} {id : Nat} (h : about e = some id) :
    e.kind = .registry := by
  cases e <;> first | rfl | cases h

omit [Keccak] in
/-- What the fee manager says is about no proposal. -/
theorem about_manager {es : List CTOEvent} (h : ∀ e ∈ es, e.kind = .feeManager)
    (id : Nat) : es.filter (fun e => about e = some id) = [] := by
  rw [List.filter_eq_nil_iff]
  intro e he habout
  cases (h e he).symm.trans (kind_of_about (of_decide_eq_true habout))

omit [Keccak] in
theorem kind_manager {e : FeeManagerEvent} {e' : CTOEvent}
    (h : managerEvent e = some e') : e'.kind = .feeManager := by
  cases e <;> cases h <;> rfl

omit [Keccak] in
theorem kind_managerEvents (es : List FeeManagerEvent) :
    ∀ e ∈ es.filterMap managerEvent, e.kind = .feeManager := by
  intro e he
  obtain ⟨e', -, he'⟩ := List.mem_filterMap.mp he
  exact kind_manager he'

omit [Keccak] in
/-- **A HALF WITHOUT A DEED** tells of no proposal. -/
theorem Chronicle.quiet (h : Chronicle P s) {next : System π}
    {es : List CTOEvent}
    (hproposals : next.chain.registry.proposals =
      s.system.chain.registry.proposals)
    (htreasuries : next.chain.treasuries = s.system.chain.treasuries)
    (hhistory : next.history = s.system.history)
    (hkind : ∀ e ∈ es, e.kind = .feeManager) :
    Chronicle P (s.after next es) := by
  refine ⟨?_, ?_, ?_⟩
  · intro id
    show Tale id (next.chain.registry.proposals id) (next.history id) _
    rw [hproposals, hhistory, Told.after, concerning_append,
      about_manager hkind, List.map_nil, List.append_nil]
    exact h.told id
  · intro m hm token controller treasury nonce salt he
    show next.chain.treasuries treasury = _
    rw [htreasuries]
    rcases List.mem_append.mp hm with hm | hm
    · exact h.deployed m hm token controller treasury nonce salt he
    · obtain rfl := List.mem_singleton.mp hm
      cases hkind _ he
  · intro m hm id token treasury controller previous executor he
    rcases List.mem_append.mp hm with hm | hm
    · exact h.routed m hm id token treasury controller previous executor he
    · obtain rfl := List.mem_singleton.mp hm
      cases hkind _ he

omit [Keccak] in
/-- **A DEED** is told beside what was told before. -/
theorem Chronicle.done (h : Chronicle P s) {c : Chain π} {id : Nat} {deed : Deed}
    {caller : Address} {es : List CTOEvent}
    (hother : ∀ id', id' ≠ id →
      c.registry.proposals id' = s.system.chain.registry.proposals id')
    (hsame : s.system.history id ≠ [] →
      SameProposal (s.system.chain.registry.proposals id)
        (c.registry.proposals id))
    (hkeep : ∀ a t, s.system.chain.treasuries a = some t →
      c.treasuries a = some t)
    (habout : ∀ e ∈ es, about e = some id ∨ about e = none)
    (hdeeds : Deeds id (c.registry.proposals id)
      (s.system.entry c id deed caller)
      ((es.filter fun e => about e = some id).map fun e => (s.system.now, e)))
    (hdeployed : ∀ token controller treasury nonce salt,
      .treasuryDeployed token controller treasury nonce salt ∈ es →
      c.treasuries treasury =
        some ⟨P.ctoRegistry, token, controller, CANONICAL_USDC⟩)
    (hrouted : ∀ id token treasury controller previous executor,
      .activated id token treasury controller previous executor ∈ es →
      .feeRouteActivated token previous treasury ∈ es) :
    Chronicle P (s.after (s.system.done c id deed caller) es) := by
  refine ⟨?_, ?_, ?_⟩
  · intro id'
    show Tale id' (c.registry.proposals id')
      ((s.system.done c id deed caller).history id') _
    rw [done_history, Told.after, concerning_append]
    by_cases heq : id' = id
    · subst heq
      rw [Function.update_self]
      exact (h.told id').snoc hsame hdeeds
    · have hnone : es.filter (fun e => about e = some id') = [] := by
        rw [List.filter_eq_nil_iff]
        intro e he hid
        rcases habout e he with habout | habout
        · exact heq (Option.some.inj
            ((of_decide_eq_true hid).symm.trans habout))
        · simp [habout] at hid
      rw [Function.update_of_ne heq, hother id' heq, hnone, List.map_nil,
        List.append_nil]
      exact h.told id'
  · intro m hm token controller treasury nonce salt he
    rcases List.mem_append.mp hm with hm | hm
    · exact hkeep _ _ (h.deployed m hm token controller treasury nonce salt he)
    · obtain rfl := List.mem_singleton.mp hm
      exact hdeployed token controller treasury nonce salt he
  · intro m hm id' token treasury controller previous executor he
    rcases List.mem_append.mp hm with hm | hm
    · exact h.routed m hm id' token treasury controller previous executor he
    · obtain rfl := List.mem_singleton.mp hm
      exact hrouted id' token treasury controller previous executor he

end Chronicle

/-! ## Every half of a call -/

section Halves

variable [Keccak] [MulDiv] {π : Type} [PositionManager π] {salt : Salt}
  {P : Protocol} {s s' : Told π}

/-- The first half of a call, with what it emits. -/
theorem told_enter {k : Call π} {e : Entry (Told π) (Option Receipt)}
    (h : (told salt P).enter k s = .ok e) :
    ∃ e', (machine P).enter k s.system = .ok e' ∧
      e = ⟨s.after e'.state (emitted salt P k s.system), e'.yields, e'.ret⟩ := by
  simp only [told, bind_ok, pure_ok] at h
  obtain ⟨e', he', rfl⟩ := h
  exact ⟨e', he', rfl⟩

omit [Keccak] in
/-- What the fee manager emits during an execution that goes through. -/
theorem routeEvents_eq {V : Views} {sender : Address} {t : System π} {id : Nat}
    {c : Chain π} {events : List RegistryEvent}
    (h : executeCTO P V ⟨sender, 0, t.now⟩ t.chain id = .ok (c, events)) :
    let details := t.chain.registry.proposals id
    routeEvents P V t id =
      (if t.chain.fees.creatorFeesAccrued details.token ≠ 0 then
          [CTOEvent.creatorFeeCheckpointed details.token
            details.previousRecipient
            (t.chain.fees.creatorFeesAccrued details.token)]
        else []) ++
      (if t.chain.fees.pendingCreatorPayoutOf details.token ≠ 0 then
          [CTOEvent.pendingCreatorPayoutInvalidated details.token
            (t.chain.fees.pendingCreatorPayoutOf details.token)]
        else []) ++
      [CTOEvent.feeRouteActivated details.token details.previousRecipient
        details.treasury] := by
  obtain ⟨-, -, -, hstale, -, -, c₁, out, hc₁, hout, -⟩ := executeCTO_ok h
  obtain ⟨lp, rfl⟩ := afterCollection_ok (P := P) hc₁
  have hactivate : FeeManager.activateCTO P.fees
      (views P V (activated t.chain id)) ⟨P.ctoRegistry, 0, t.now⟩
      (activated t.chain id).fees (t.chain.registry.proposals id).token
      (t.chain.registry.proposals id).treasury = .ok out := hout
  dsimp only
  rw [← hstale, routeEvents, hactivate]
  exact activateCTO_events hactivate

omit [MulDiv] [PositionManager π] in
/-- **A PROPOSAL** is told with the treasury deployed for it. -/
theorem Chronicle.propose (h : Chronicle P s) (hj : JointAt s.system)
    (ht : Timeline P s.system) {sender : Address} {V : Views}
    {token controller : Address} {metadataHash : Nat}
    {metadataURI : List UInt8} {c : Chain π} {events : List RegistryEvent}
    (hc : proposeCTO P V ⟨sender, 0, s.system.now⟩ s.system.chain token
      controller metadataHash metadataURI = .ok (c, events)) :
    Chronicle P (s.after (s.system.done c (c.registry.currentProposalId token)
      .created sender) (events.map (registryEvent salt))) := by
  obtain ⟨resolved, hproposals, hcurrent, htreasuries, hnone, rfl⟩ :=
    proposeCTO_events hc
  rw [hcurrent]
  -- The id is new, so its history is empty.
  have hempty : s.system.history (proposalIdOf (newProposal
      ⟨sender, 0, s.system.now⟩ s.system.chain token controller resolved))
        = [] := by
    have hlife := ht.life (proposalIdOf (newProposal
      ⟨sender, 0, s.system.now⟩ s.system.chain token controller resolved))
    have hfresh := Joint.fresh hj (newProposal ⟨sender, 0, s.system.now⟩
      s.system.chain token controller resolved) (Nat.lt_succ_self _)
    simpa only [Life, hfresh] using hlife
  refine h.done ?_ ?_ ?_ ?_ ?_ ?_ ?_
  · intro id' heq
    rw [hproposals, Function.update_of_ne heq]
  · intro hne
    exact absurd hempty hne
  · intro a t hat
    rw [htreasuries]
    by_cases heq : a = (newProposal ⟨sender, 0, s.system.now⟩ s.system.chain
        token controller resolved).treasury
    · rw [heq, hnone] at hat
      cases hat
    · rw [Function.update_of_ne heq]
      exact hat
  · intro e he
    simp only [List.map_cons, List.map_nil, List.mem_cons, List.not_mem_nil,
      or_false] at he
    rcases he with rfl | rfl
    · exact .inr rfl
    · exact .inl rfl
  · rw [hproposals, Function.update_self]
    refine ⟨metadataURI, ?_⟩
    simp [registryEvent, about, System.entry, newProposal]
  · intro token' controller' treasury nonce salt' he
    simp only [List.map_cons, List.map_nil, List.mem_cons, List.not_mem_nil,
      or_false] at he
    rcases he with he | he
    · cases he
      rw [htreasuries, Function.update_self]
    · cases he
  · intro id' token' treasury controller' previous executor he
    simp only [List.map_cons, List.map_nil, List.mem_cons, List.not_mem_nil,
      or_false] at he
    rcases he with he | he <;> cases he

omit [Keccak] [MulDiv] [PositionManager π] in
/-- A deed that rewrites one open proposal, and the events of the registry
    alone that tell it. -/
theorem Chronicle.rewrite (h : Chronicle P s) {id : Nat} {details : Proposal}
    {deed : Deed} {caller : Address} {es : List CTOEvent}
    (hsame : SameProposal (s.system.chain.registry.proposals id) details)
    (habout : ∀ e ∈ es, about e = some id)
    (hplain : ∀ e ∈ es, ∀ id token treasury controller previous executor,
      e ≠ .activated id token treasury controller previous executor)
    (hdeeds : Deeds id details
      (s.system.entry (setProposal s.system.chain id details) id deed caller)
      (es.map fun e => (s.system.now, e))) :
    Chronicle P (s.after (s.system.done
      (setProposal s.system.chain id details) id deed caller) es) := by
  have hself : (setProposal s.system.chain id details).registry.proposals id
      = details := Function.update_self _ _ _
  have hall : es.filter (fun e => about e = some id) = es :=
    List.filter_eq_self.mpr fun e he => decide_eq_true (habout e he)
  refine h.done (fun id' heq => Function.update_of_ne heq _ _) ?_
    (fun _ _ ht => ht) (fun e he => .inl (habout e he)) ?_ ?_ ?_
  · rw [hself]
    exact fun _ => hsame
  · rw [hself, hall]
    exact hdeeds
  · intro token controller treasury nonce salt' he
    cases habout _ he
  · intro id' token treasury controller previous executor he
    exact absurd rfl (hplain _ he id' token treasury controller previous executor)

omit [Keccak] in
/-- **AN EXECUTION** is told beside the route it opened. -/
theorem Chronicle.execute (h : Chronicle P s) {sender : Address} {V : Views}
    {id : Nat} {c : Chain π} {events : List RegistryEvent}
    (hc : executeCTO P V ⟨sender, 0, s.system.now⟩ s.system.chain id
      = .ok (c, events)) :
    Chronicle P (s.after (s.system.done c id .executed sender)
      (routeEvents P V s.system id ++ events.map (registryEvent salt))) := by
  obtain ⟨-, -, hregistry, htreasuries, -⟩ := executed_ok hc
  have hself : c.registry.proposals id =
      { s.system.chain.registry.proposals id with state := .active } := by
    rw [hregistry]
    exact Function.update_self _ _ _
  have hroute := routeEvents_eq hc
  have hkind : ∀ e ∈ routeEvents P V s.system id, e.kind = .feeManager := by
    rw [hroute]
    intro e he
    simp only [List.mem_append, List.mem_singleton] at he
    rcases he with (he | he) | rfl
    · split at he
      · obtain rfl := List.mem_singleton.mp he
        rfl
      · exact absurd he List.not_mem_nil
    · split at he
      · obtain rfl := List.mem_singleton.mp he
        rfl
      · exact absurd he List.not_mem_nil
    · rfl
  rw [executeCTO_events hc]
  refine h.done ?_ ?_ ?_ ?_ ?_ ?_ ?_
  · intro id' heq
    rw [hregistry]
    exact Function.update_of_ne heq _ _
  · rw [hself]
    exact fun _ => ⟨rfl, rfl, rfl, rfl, rfl, rfl, rfl, rfl⟩
  · intro a t hat
    rw [htreasuries]
    exact hat
  · intro e he
    rcases List.mem_append.mp he with he | he
    · refine .inr ?_
      cases habout : about e with
      | none => rfl
      | some id' => cases (hkind e he).symm.trans (kind_of_about habout)
    · obtain rfl := List.mem_singleton.mp he
      exact .inl rfl
  · rw [List.filter_append, about_manager hkind, hself, List.nil_append]
    simp [registryEvent, about, System.entry, Deeds]
  · intro token controller treasury nonce salt' he
    rcases List.mem_append.mp he with he | he
    · cases hkind _ he
    · cases List.mem_singleton.mp he
  · intro id' token treasury controller previous executor he
    rcases List.mem_append.mp he with he | he
    · cases hkind _ he
    · cases List.mem_singleton.mp he
      refine List.mem_append_left _ ?_
      rw [hroute]
      exact List.mem_append_right _ (List.mem_singleton_self _)

omit [Keccak] [MulDiv] [PositionManager π] in
theorem Chronicle.accept (h : Chronicle P s) {treasury : Address} {id : Nat}
    {c : Chain π} {events : List RegistryEvent}
    (hc : acceptCTO P ⟨treasury, 0, s.system.now⟩ s.system.chain id
      = .ok (c, events)) :
    Chronicle P (s.after (s.system.done c id .accepted treasury)
      (events.map (registryEvent salt))) := by
  obtain ⟨-, -, -, -, -, rfl⟩ := acceptCTO_ok hc
  rw [acceptCTO_events hc]
  refine h.rewrite ⟨rfl, rfl, rfl, rfl, rfl, rfl, rfl, rfl⟩ ?_ ?_ rfl
  · intro e he
    simp only [List.map_cons, List.map_nil, List.mem_cons, List.not_mem_nil,
      or_false] at he
    rcases he with rfl | rfl <;> rfl
  · rintro e he id' token treasury' controller previous executor rfl
    simp only [List.map_cons, List.map_nil, List.mem_cons, List.not_mem_nil,
      or_false] at he
    rcases he with he | he <;> cases he

/-- **EVERY HALF OF A CALL** is told. -/
theorem half_chronicle (hhalf : (told salt P).Half s s')
    (hj : JointAt s.system) (ht : Timeline P s.system) (h : Chronicle P s) :
    Chronicle P s' := by
  cases hhalf with
  | leave receipt => exact h.quiet rfl rfl rfl (kind_managerEvents _)
  | @enter k _ e he =>
      obtain ⟨e', he', rfl⟩ := told_enter he
      have hnone : ∀ e ∈ ([] : List CTOEvent), e.kind = .feeManager :=
        fun _ he => absurd he List.not_mem_nil
      cases k with
      | wait seconds =>
          obtain rfl := pure_ok.mp he'
          exact h.quiet rfl rfl rfl hnone
      | outside lp =>
          obtain rfl := pure_ok.mp he'
          exact h.quiet rfl rfl rfl hnone
      | fees sender value V k =>
          simp only [machine, bind_ok, pure_ok] at he'
          obtain ⟨_, -, out, hout, rfl⟩ := he'
          refine h.quiet rfl rfl rfl ?_
          rw [emitted, hout]
          exact kind_managerEvents _
      | proposeCTO sender V token controller metadataHash metadataURI =>
          simp only [machine, bind_ok, pure_ok] at he'
          obtain ⟨⟨c, events⟩, hc, rfl⟩ := he'
          rw [emitted, hc]
          exact h.propose hj ht hc
      | acceptCTO sender id =>
          simp only [machine, bind_ok, pure_ok] at he'
          obtain ⟨⟨c, events⟩, hc, rfl⟩ := he'
          rw [emitted, hc]
          exact h.accept hc
      | treasuryAcceptCTO sender treasury id =>
          simp only [machine, bind_ok, pure_ok] at he'
          obtain ⟨⟨c, events⟩, hc, rfl⟩ := he'
          rw [emitted, hc]
          obtain ⟨t, -, -, hc⟩ := treasuryAcceptCTO_ok hc
          exact h.accept hc
      | cancelCTO sender id =>
          simp only [machine, bind_ok, pure_ok] at he'
          obtain ⟨⟨c, events⟩, hc, rfl⟩ := he'
          obtain ⟨-, -, rfl⟩ := cancelCTO_ok hc
          rw [emitted, hc, cancelCTO_events hc]
          refine h.rewrite ⟨rfl, rfl, rfl, rfl, rfl, rfl, rfl, rfl⟩ ?_ ?_ rfl
          · intro e he
            obtain rfl := List.mem_singleton.mp he
            rfl
          · rintro e he id' token treasury controller previous executor rfl
            cases List.mem_singleton.mp he
      | expireCTO sender id =>
          simp only [machine, bind_ok, pure_ok] at he'
          obtain ⟨⟨c, events⟩, hc, rfl⟩ := he'
          obtain ⟨-, rfl⟩ := expireCTO_ok hc
          rw [emitted, hc, expireCTO_events hc]
          refine h.rewrite ⟨rfl, rfl, rfl, rfl, rfl, rfl, rfl, rfl⟩ ?_ ?_
            ⟨_, rfl⟩
          · intro e he
            obtain rfl := List.mem_singleton.mp he
            rfl
          · rintro e he id' token treasury controller previous executor rfl
            cases List.mem_singleton.mp he
      | executeCTO sender V id =>
          simp only [machine, bind_ok, pure_ok] at he'
          obtain ⟨⟨c, events⟩, hc, rfl⟩ := he'
          rw [emitted, hc]
          exact h.execute hc
      | collectFees V custodian =>
          simp only [machine, bind_ok, pure_ok] at he'
          obtain ⟨c, hc, rfl⟩ := he'
          obtain ⟨lp, _, _, -, rfl⟩ := collectLPFees_ok hc
          exact h.quiet rfl rfl rfl hnone
      | claimLPFees sender asset =>
          simp only [machine, bind_ok, pure_ok] at he'
          obtain ⟨lp, -, rfl⟩ := he'
          exact h.quiet rfl rfl rfl hnone
      | fundCommunityVault launchToken asset recorded =>
          simp only [machine, bind_ok, pure_ok] at he'
          obtain ⟨lp, -, rfl⟩ := he'
          exact h.quiet rfl rfl rfl hnone
      | fundTraderRewardsVault launchToken asset recorded =>
          simp only [machine, bind_ok, pure_ok] at he'
          obtain ⟨lp, -, rfl⟩ := he'
          exact h.quiet rfl rfl rfl hnone

end Halves

/-! ## The fees credited and claimed -/

/-- What an event credits to a recipient of a token's fees. -/
def credit (token recipient : Address) : CTOEvent → Nat
  | .creatorFeeCheckpointed t r amount =>
      if t = token ∧ r = recipient then amount else 0
  | _ => 0

/-- What an event says the recipient claimed. -/
def debit (token recipient : Address) : CTOEvent → Nat
  | .checkpointedCreatorFeesClaimed t r _ amount =>
      if t = token ∧ r = recipient then amount else 0
  | _ => 0

/-- Credits less claims. -/
def net (token recipient : Address) (es : List CTOEvent) : Int :=
  (es.map fun e => (credit token recipient e : Int) - debit token recipient e).sum

theorem net_nil (token recipient : Address) : net token recipient [] = 0 := rfl

theorem net_append (token recipient : Address) (es es' : List CTOEvent) :
    net token recipient (es ++ es') =
      net token recipient es + net token recipient es' := by
  rw [net, List.map_append, List.sum_append, net, net]

/-- The registry says nothing of fees. -/
theorem net_registry (token recipient : Address) (salt : Salt)
    (es : List RegistryEvent) :
    net token recipient (es.map (registryEvent salt)) = 0 := by
  refine List.sum_eq_zero fun x hx => ?_
  rw [List.map_map] at hx
  obtain ⟨e, -, rfl⟩ := List.mem_map.mp hx
  cases e <;> rfl

/-- What an execution credits. -/
theorem net_credited (token recipient t r : Address) (amount : Nat) :
    net token recipient
        (if amount ≠ 0 then [.creatorFeeCheckpointed t r amount] else []) =
      ((if t = token ∧ r = recipient then amount else 0 : Nat) : Int) := by
  by_cases h0 : amount = 0
  · subst h0
    simp [net]
  · rw [if_pos h0]
    simp [net, credit, debit]

theorem net_cancelled (token recipient t payout : Address) :
    net token recipient
        (if payout ≠ 0 then [.pendingCreatorPayoutInvalidated t payout] else [])
      = 0 := by
  split <;> rfl

/-- What the second half of a call will say was claimed. -/
def pending (token recipient : Address) (receipt : Option Receipt) : Int :=
  match receipt with
  | some (.emit e) => -net token recipient ([e].filterMap managerEvent)
  | _ => 0

section Ledger

variable {I : Immutables} {V : Views} {msg : Msg} {s : FeeManagerStorage}
  {out : Outcome} {token recipient : Address}

/-- The second half says what it is left to say. -/
theorem net_finish (receipt : Option Receipt) (s : FeeManagerStorage) :
    net token recipient ((FeeManager.finish receipt s).2.filterMap managerEvent)
      = -pending token recipient receipt := by
  match receipt with
  | none => rfl
  | some (.protocolFeesClaimed _ _) => rfl
  | some (.emit e) => exact (neg_neg _).symm

/-- **A CALL OF THE FEE MANAGER** lowers what it owes by what it will say was
    claimed. -/
theorem call_owed {k : FeeManagerCall}
    (h : FeeManager.call I V msg s k = .ok out)
    (hsender : msg.sender ≠ I.ctoRegistry) :
    (out.storage.checkpointedCreatorFees token recipient : Int) =
      s.checkpointedCreatorFees token recipient
        - pending token recipient (out.payout.map FeeManager.Payout.receipt) := by
  have hzero : ∀ {p : Option FeeManager.Payout}, out.payout = p →
      pending token recipient (p.map FeeManager.Payout.receipt) = 0 →
      out.storage.checkpointedCreatorFees = s.checkpointedCreatorFees →
      (out.storage.checkpointedCreatorFees token recipient : Int) =
        s.checkpointedCreatorFees token recipient - pending token recipient
          (out.payout.map FeeManager.Payout.receipt) := by
    intro p hp hpending hsame
    rw [hp, hpending, hsame, sub_zero]
  cases FeeManager.call_ran h with
  | administrative hbooks _ hpayout _ =>
      exact hzero hpayout rfl
        (congrArg FeeManager.Books.checkpointedCreatorFees hbooks)
  | activateCTO _ hk => exact absurd (FeeManager.activateCTO_ok hk).1 hsender
  | @claimCheckpointedCreatorFees t r _ hk =>
      obtain ⟨-, -, hs, hpayout⟩ :=
        FeeManager.claimCheckpointedCreatorFees_ok hk
      rw [hs, hpayout]
      show ((LedgerSum.update₂ s.checkpointedCreatorFees t r 0 token recipient :
        Nat) : Int) = _ - -net token recipient
          [.checkpointedCreatorFeesClaimed t r msg.sender
            (s.checkpointedCreatorFees t r)]
      by_cases ht : token = t
      · by_cases hr : recipient = r
        · subst ht hr
          simp [LedgerSum.update₂_self, net, credit, debit]
        · subst ht
          simp [LedgerSum.update₂_of_ne_right _ _ _ _ hr, net, credit, debit,
            Ne.symm hr]
      · simp [LedgerSum.update₂_of_ne _ _ _ _ ht, net, credit, debit, Ne.symm ht]
  | registerToken _ hk =>
      obtain ⟨-, -, -, hs, hpayout⟩ := FeeManager.registerToken_ok hk
      exact hzero hpayout rfl (by rw [hs])
  | depositFees hk =>
      obtain ⟨-, -, -, hs, hpayout⟩ := FeeManager.depositFees_ok hk
      exact hzero hpayout rfl (by rw [hs])
  | proposeCreatorPayout _ hk =>
      obtain ⟨-, -, hs, hpayout⟩ := FeeManager.proposeCreatorPayout_ok hk
      exact hzero hpayout rfl (by rw [hs])
  | acceptCreatorPayout _ hk =>
      obtain ⟨-, -, -, hs, hpayout⟩ := FeeManager.acceptCreatorPayout_ok hk
      exact hzero hpayout rfl (by rw [hs])
  | cancelCreatorPayout _ hk =>
      obtain ⟨-, hs, hpayout⟩ := FeeManager.cancelCreatorPayout_ok hk
      exact hzero hpayout rfl (by rw [hs])
  | claimProtocolFees _ hk =>
      obtain ⟨-, hs, hpayout⟩ := FeeManager.claimProtocolFees_ok hk
      exact hzero hpayout rfl (by rw [hs])
  | claimCreatorFees _ hk =>
      obtain ⟨-, -, hs, hpayout⟩ := FeeManager.claimCreatorFees_ok hk
      exact hzero hpayout rfl (by rw [hs])
  | fundCommunityVault _ hk =>
      obtain ⟨-, -, hs, hpayout⟩ := FeeManager.fundCommunityVault_ok hk
      exact hzero hpayout rfl (by rw [hs])
  | fundTraderRewardsVault _ hk =>
      obtain ⟨-, -, hs, hpayout⟩ := FeeManager.fundTraderRewardsVault_ok hk
      exact hzero hpayout rfl (by rw [hs])

end Ledger

section Books

variable {π : Type}

/-- What was told less what is owed. -/
def gap (s : Told π) (token recipient : Address) : Int :=
  net token recipient (s.journal.flatMap Emission.events)
    - s.system.chain.fees.checkpointedCreatorFees token recipient

theorem gap_after (s : Told π) (next : System π) (es : List CTOEvent)
    (token recipient : Address) :
    gap (s.after next es) token recipient = gap s token recipient
      + net token recipient es
      + s.system.chain.fees.checkpointedCreatorFees token recipient
      - next.chain.fees.checkpointedCreatorFees token recipient := by
  simp only [gap, Told.after, List.flatMap_append, List.flatMap_cons,
    List.flatMap_nil, List.append_nil, net_append]
  ring

variable [Keccak] [MulDiv] [PositionManager π] {salt : Salt} {P : Protocol}
  {s s' : Told π}

/-- **A FIRST HALF** opens the gap by what its second half will say. -/
theorem enter_gap {k : Call π} {e : Entry (Told π) (Option Receipt)}
    (h : (told salt P).enter k s = .ok e) (token recipient : Address) :
    gap e.state token recipient =
      gap s token recipient + pending token recipient e.ret := by
  obtain ⟨e', he', rfl⟩ := told_enter h
  show gap (s.after e'.state _) token recipient = _ + pending _ _ e'.ret
  rw [gap_after]
  -- Most calls leave the books alone and say nothing of fees.
  have hsame : ∀ {es : List CTOEvent}, net token recipient es = 0 →
      e'.state.chain.fees = s.system.chain.fees → e'.ret = none →
      gap s token recipient + net token recipient es
          + s.system.chain.fees.checkpointedCreatorFees token recipient
          - e'.state.chain.fees.checkpointedCreatorFees token recipient =
        gap s token recipient + pending token recipient e'.ret := by
    intro es hnet hfees hret
    rw [hnet, hfees, hret]
    show _ = gap s token recipient + 0
    ring
  cases k with
  | wait seconds =>
      obtain rfl := pure_ok.mp he'
      exact hsame rfl rfl rfl
  | outside lp =>
      obtain rfl := pure_ok.mp he'
      exact hsame rfl rfl rfl
  | fees sender value V k =>
      simp only [machine, bind_ok, revertIf_ok, pure_ok] at he'
      obtain ⟨_, hsender, out, hout, rfl⟩ := he'
      rw [emitted, hout, managerEvents, call_silent hout hsender, net_nil]
      show _ - (out.storage.checkpointedCreatorFees token recipient : Int) = _
      rw [call_owed hout hsender]
      ring
  | proposeCTO sender V t controller metadataHash metadataURI =>
      simp only [machine, bind_ok, pure_ok] at he'
      obtain ⟨⟨c, events⟩, hc, rfl⟩ := he'
      rw [emitted, hc]
      obtain ⟨_, -, -, -, -, -, -, rfl⟩ := proposeCTO_ok hc
      exact hsame (net_registry ..) rfl rfl
  | acceptCTO sender id =>
      simp only [machine, bind_ok, pure_ok] at he'
      obtain ⟨⟨c, events⟩, hc, rfl⟩ := he'
      rw [emitted, hc]
      obtain ⟨-, -, -, -, -, rfl⟩ := acceptCTO_ok hc
      exact hsame (net_registry ..) rfl rfl
  | treasuryAcceptCTO sender treasury id =>
      simp only [machine, bind_ok, pure_ok] at he'
      obtain ⟨⟨c, events⟩, hc, rfl⟩ := he'
      rw [emitted, hc]
      obtain ⟨_, -, -, hc⟩ := treasuryAcceptCTO_ok hc
      obtain ⟨-, -, -, -, -, rfl⟩ := acceptCTO_ok hc
      exact hsame (net_registry ..) rfl rfl
  | cancelCTO sender id =>
      simp only [machine, bind_ok, pure_ok] at he'
      obtain ⟨⟨c, events⟩, hc, rfl⟩ := he'
      rw [emitted, hc]
      obtain ⟨-, -, rfl⟩ := cancelCTO_ok hc
      exact hsame (net_registry ..) rfl rfl
  | expireCTO sender id =>
      simp only [machine, bind_ok, pure_ok] at he'
      obtain ⟨⟨c, events⟩, hc, rfl⟩ := he'
      rw [emitted, hc]
      obtain ⟨-, rfl⟩ := expireCTO_ok hc
      exact hsame (net_registry ..) rfl rfl
  | executeCTO sender V id =>
      simp only [machine, bind_ok, pure_ok] at he'
      obtain ⟨⟨c, events⟩, hc, rfl⟩ := he'
      rw [emitted, hc, net_append, registryEvents, net_registry,
        routeEvents_eq hc]
      obtain ⟨-, -, -, -, -, hbooks, -⟩ := executed_ok hc
      have hrows := congrFun (congrFun (congrArg
        FeeManager.Books.checkpointedCreatorFees hbooks) token) recipient
      show _ - (c.fees.checkpointedCreatorFees token recipient : Int) =
        gap s token recipient + 0
      rw [hrows, net_append, net_append, net_credited, net_cancelled]
      show _ + (_ + 0 + 0 + 0) + _ - ((LedgerSum.update₂ _ _ _ _ _ _ : Nat) : Int)
        = _
      by_cases ht : token = (s.system.chain.registry.proposals id).token
      · by_cases hr : recipient =
            (s.system.chain.registry.proposals id).previousRecipient
        · rw [ht, hr, LedgerSum.update₂_self, if_pos ⟨rfl, rfl⟩]
          push_cast
          ring
        · rw [ht, LedgerSum.update₂_of_ne_right _ _ _ _ hr,
            if_neg fun h => hr h.2.symm]
          push_cast
          ring
      · rw [LedgerSum.update₂_of_ne _ _ _ _ ht, if_neg fun h => ht h.1.symm]
        push_cast
        ring
  | collectFees V custodian =>
      simp only [machine, bind_ok, pure_ok] at he'
      obtain ⟨c, hc, rfl⟩ := he'
      obtain ⟨lp, _, _, -, rfl⟩ := collectLPFees_ok hc
      exact hsame rfl rfl rfl
  | claimLPFees sender asset =>
      simp only [machine, bind_ok, pure_ok] at he'
      obtain ⟨lp, -, rfl⟩ := he'
      exact hsame rfl rfl rfl
  | fundCommunityVault launchToken asset recorded =>
      simp only [machine, bind_ok, pure_ok] at he'
      obtain ⟨lp, -, rfl⟩ := he'
      exact hsame rfl rfl rfl
  | fundTraderRewardsVault launchToken asset recorded =>
      simp only [machine, bind_ok, pure_ok] at he'
      obtain ⟨lp, -, rfl⟩ := he'
      exact hsame rfl rfl rfl

/-- **A WHOLE CALL** closes the gap it opened. -/
theorem covers_gap : (told (π := π) salt P).Covers fun s s' =>
    ∀ token recipient, gap s' token recipient = gap s token recipient := by
  intro k s e he s' hbetween token recipient
  show gap (s'.after _ _) token recipient = _
  rw [gap_after, finished, net_finish, hbetween, enter_gap he]
  show _ - (((FeeManager.finish e.ret s'.system.chain.fees).1
    |>.checkpointedCreatorFees token recipient : Nat) : Int) = _
  rw [FeeManager.finish_eq]
  ring

end Books

/-! ## After any transactions -/

section Runs

variable [Keccak] [MulDiv] {π : Type} [PositionManager π] {salt : Salt}
  {P : Protocol}

/-- What holds between transactions. -/
structure Reported (P : Protocol) (s : Told π) : Prop where
  joint : JointAt s.system
  timeline : Timeline P s.system
  chronicle : Chronicle P s
  /-- Credits less claims are what is owed. -/
  settled : ∀ token recipient,
    net token recipient (s.journal.flatMap Emission.events) =
      s.system.chain.fees.checkpointedCreatorFees token recipient

theorem half_seen {s s' : Told π} (h : (told salt P).Half s s') :
    (machine P).Half s.system s'.system := by
  cases h with
  | leave receipt => exact .leave receipt _
  | enter he =>
      obtain ⟨e', he', rfl⟩ := told_enter he
      exact .enter he'

/-- What every half of a call keeps. -/
theorem keeps_chronicle : (told (π := π) salt P).Keeps fun s =>
    (JointAt s.system ∧ Timeline P s.system) ∧ Chronicle P s := by
  have hhalf : ∀ s s', (told (π := π) salt P).Half s s' →
      (JointAt s.system ∧ Timeline P s.system) ∧ Chronicle P s →
      (JointAt s'.system ∧ Timeline P s'.system) ∧ Chronicle P s' := by
    rintro s s' h ⟨⟨hj, ht⟩, hc⟩
    have heff := half_effect (half_seen h)
    exact ⟨⟨(heff.joint hj).1, heff.timeline hj ht⟩, half_chronicle h hj ht hc⟩
  exact ⟨fun _ _ _ hk => hhalf _ _ (.enter hk),
    fun _ _ _ _ _ => hhalf _ _ (.leave _ _)⟩

/-- **THE JOURNAL IS COMPLETE** after any transactions since deployment. -/
theorem reported_runTxs (salt : Salt) (P : Protocol) (now : Nat)
    (governance initialTreasury : Address) (lp : LPState π)
    (txs : List (Call π × Script (Call π))) :
    Reported P ((told salt P).runTxs txs
      ⟨deployed now governance initialTreasury lp, []⟩) := by
  have hkeeps : (told (π := π) salt P).Keeps fun s =>
      (JointAt s.system ∧ Timeline P s.system) ∧ Chronicle P s :=
    keeps_chronicle
  obtain ⟨⟨hj, ht⟩, hc⟩ := hkeeps.runTxs txs
    ⟨⟨jointAt_deployed now governance initialTreasury lp,
      timeline_deployed now governance initialTreasury lp⟩,
      chronicle_deployed now governance initialTreasury lp⟩
  refine ⟨hj, ht, hc, ?_⟩
  intro token recipient
  have hgap := (told salt P).runTxs_preorder (fun _ _ _ => rfl)
    (fun _ _ _ hab hbc t r => (hbc t r).trans (hab t r)) covers_gap txs
    ⟨deployed now governance initialTreasury lp, []⟩ token recipient
  have hstart : gap (⟨deployed now governance initialTreasury lp, []⟩ : Told π)
      token recipient = 0 := rfl
  rw [hstart, gap] at hgap
  omega

/-- The system of a run with a journal is that of the run without one. -/
theorem system_runTxs (salt : Salt) (P : Protocol) (now : Nat)
    (governance initialTreasury : Address) (lp : LPState π)
    (txs : List (Call π × Script (Call π))) :
    ((told salt P).runTxs txs
        ⟨deployed now governance initialTreasury lp, []⟩).system =
      (machine P).runTxs txs (deployed now governance initialTreasury lp) :=
  (seen_machine.runTxs txs _).symm

end Runs

end CTOJournal
