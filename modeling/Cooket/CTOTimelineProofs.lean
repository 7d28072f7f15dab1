import Cooket.CTOJointProofs

/-! # The whole history of a proposal

    `Life` says which histories a proposal in a given state can have: the state
    determines what was done to it, by whom, when, and what the fee manager
    answered then.  It is kept by every call (`Effect.timeline`), so a proposal
    that is `Active` was created, accepted and executed in this order, inside
    both windows, and nothing else ever happened to it.

    Times are `uint64` in the registry.  A time that does not fit is stored
    truncated, but then the acceptance window has passed already when it is
    compared with the full time, so the windows are those of the real times. -/

namespace CTOSystem

open CheckedArith Contract LPVault CTORegistry Reentrant
open FeeManager (Routes Views KeepsRoute)

/-- The creation, as the proposal records it. -/
structure Created (p : Proposal) (r : Record) : Prop where
  deed : r.deed = .created
  byCreator : r.caller = p.creator
  registered : r.creatorOf = p.creator
  recipient : r.creatorPayoutOf = p.previousRecipient
  time : uint64 r.time = p.createdAt

/-- An acceptance within the window of a creation. -/
structure Accepted (p : Proposal) (r₀ r₁ : Record) : Prop where
  deed : r₁.deed = .accepted
  byTreasury : r₁.caller = p.treasury
  after : r₀.time ≤ r₁.time
  window : r₁.time ≤ r₀.time + ACCEPTANCE_WINDOW
  time : r₁.time = p.acceptedAt

/-- An execution within the window of an acceptance, under the recipient of the
    creation. -/
structure Executed (p : Proposal) (r₁ r₂ : Record) : Prop where
  deed : r₂.deed = .executed
  delay : r₁.time + EXECUTION_DELAY ≤ r₂.time
  window : r₂.time ≤ r₁.time + EXECUTION_DELAY + EXECUTION_GRACE_PERIOD
  recipient : r₂.creatorPayoutOf = p.previousRecipient

/-- A proposal that was ended before it was executed: the last entry, after the
    creation and perhaps an acceptance. -/
def Ended (p : Proposal) (h : List Record) (last : Record → Prop) : Prop :=
  ∃ r₀ r, Created p r₀ ∧ last r ∧
    (h = [r₀, r] ∨ ∃ r₁, Accepted p r₀ r₁ ∧ h = [r₀, r₁, r])

/-- **THE LIFE OF A PROPOSAL**: the histories its state allows. -/
def Life (p : Proposal) (h : List Record) : Prop :=
  match p.state with
  | .none => h = []
  | .proposed => ∃ r₀, Created p r₀ ∧ h = [r₀]
  | .accepted => ∃ r₀ r₁, Created p r₀ ∧ Accepted p r₀ r₁ ∧ h = [r₀, r₁]
  | .active => ∃ r₀ r₁ r₂, Created p r₀ ∧ Accepted p r₀ r₁ ∧ Executed p r₁ r₂
      ∧ h = [r₀, r₁, r₂]
  | .cancelled => Ended p h (fun r => r.deed = .cancelled
      ∧ r.caller = p.creator)
  | .expired => Ended p h (fun r => r.deed = .expired)

section Timeline

variable [Keccak] {π : Type} (P : Protocol)

/-- What a stored proposal rests on: times that fit, and its treasury. -/
structure Stored (c : Chain π) (p : Proposal) : Prop where
  deadline : p.createdAt + ACCEPTANCE_WINDOW < uint64Bound
  acceptedAt : p.acceptedAt < uint64Bound
  canonical : c.registry.isCanonicalTreasury p.token p.treasury = true
  deployed : c.treasuries p.treasury
    = some ⟨P.ctoRegistry, p.token, p.controller, CANONICAL_USDC⟩

/-- The invariant of a state: histories are lives, nothing happened in the
    future, and no registry function is left half-way. -/
structure Timeline (s : System π) : Prop where
  life : ∀ id, Life (s.chain.registry.proposals id) (s.history id)
  past : ∀ id, ∀ r ∈ s.history id, r.time ≤ s.now
  unlocked : s.chain.registry.entered = false
  stored : ∀ id, (s.chain.registry.proposals id).state ≠ .none →
    Stored P s.chain (s.chain.registry.proposals id)

variable {P}

omit [Keccak] in
theorem timeline_deployed (now : Nat) (governance initialTreasury : Address)
    (lp : LPState π) :
    Timeline P (deployed now governance initialTreasury lp) where
  life _ := rfl
  past _ _ h := nomatch h
  unlocked := rfl
  stored _ h := absurd rfl h

omit [Keccak] in
/-- Whatever leaves the registry and the treasuries alone keeps the
    histories. -/
theorem Timeline.same {s s' : System π} (h : Timeline P s)
    (hregistry : s'.chain.registry = s.chain.registry)
    (htreasuries : s'.chain.treasuries = s.chain.treasuries)
    (hhistory : s'.history = s.history) (hnow : s.now ≤ s'.now) :
    Timeline P s' := by
  refine ⟨?_, ?_, ?_, ?_⟩
  · intro id
    rw [hregistry, hhistory]
    exact h.life id
  · intro id r hr
    rw [hhistory] at hr
    exact (h.past id r hr).trans hnow
  · rw [hregistry]
    exact h.unlocked
  · intro id hid
    rw [hregistry] at hid ⊢
    obtain ⟨hdeadline, haccepted, hcanonical, hdeployed⟩ := h.stored id hid
    refine ⟨hdeadline, haccepted, ?_, ?_⟩
    · rw [hregistry]
      exact hcanonical
    · rw [htreasuries]
      exact hdeployed

omit [Keccak] in
/-- The entry a deed adds. -/
def System.entry (s : System π) (c : Chain π) (id : Nat) (deed : Deed)
    (caller : Address) : Record :=
  ⟨deed, s.now, caller, s.chain.fees.creatorOf (c.registry.proposals id).token,
    s.chain.fees.creatorPayoutOf (c.registry.proposals id).token⟩

omit [Keccak] in
theorem done_history (s : System π) (c : Chain π) (id : Nat) (deed : Deed)
    (caller : Address) :
    (s.done c id deed caller).history = Function.update s.history id
      (s.history id ++ [s.entry c id deed caller]) := rfl

omit [Keccak] in
/-- A deed that rewrites one proposal and adds one entry to its history. -/
theorem Timeline.done {s : System π} (h : Timeline P s) {c : Chain π} {id : Nat}
    {deed : Deed} {caller : Address}
    (hother : ∀ id', id' ≠ id →
      c.registry.proposals id' = s.chain.registry.proposals id')
    (hlife : Life (c.registry.proposals id)
      (s.history id ++ [s.entry c id deed caller]))
    (hunlocked : c.registry.entered = false)
    (hself : Stored P c (c.registry.proposals id))
    (hkeep : ∀ p, Stored P s.chain p → Stored P c p) :
    Timeline P (s.done c id deed caller) := by
  refine ⟨?_, ?_, hunlocked, ?_⟩
  · intro id'
    rw [done_history]
    by_cases heq : id' = id
    · subst heq
      rw [Function.update_self]
      exact hlife
    · rw [Function.update_of_ne heq]
      show Life (c.registry.proposals id') _
      rw [hother id' heq]
      exact h.life id'
  · intro id' r hr
    rw [done_history] at hr
    by_cases heq : id' = id
    · subst heq
      rw [Function.update_self] at hr
      rcases List.mem_append.mp hr with hr | hr
      · exact h.past id' r hr
      · rw [List.mem_singleton.mp hr]
        exact Nat.le_refl _
    · rw [Function.update_of_ne heq] at hr
      exact h.past id' r hr
  · intro id' hid'
    by_cases heq : id' = id
    · subst heq
      exact hself
    · have hsame : c.registry.proposals id'
          = s.chain.registry.proposals id' := hother id' heq
      have hid : (s.chain.registry.proposals id').state ≠ .none := by
        rw [← hsame]
        exact hid'
      show Stored P c (c.registry.proposals id')
      rw [hsame]
      exact hkeep _ (h.stored id' hid)

/-! ## One deed at a time -/

omit [Keccak] in
/-- A rewritten proposal of an unchanged registry. -/
theorem Timeline.rewrite {s : System π} (h : Timeline P s) {id : Nat}
    {details : Proposal} {deed : Deed} {caller : Address}
    (hne : (s.chain.registry.proposals id).state ≠ .none)
    (hsame : SameProposal (s.chain.registry.proposals id) details)
    (haccepted : details.acceptedAt < uint64Bound)
    (hlife : Life details (s.history id
      ++ [s.entry (setProposal s.chain id details) id deed caller])) :
    Timeline P (s.done (setProposal s.chain id details) id deed caller) := by
  have hself : (setProposal s.chain id details).registry.proposals id
      = details := Function.update_self _ _ _
  obtain ⟨hdeadline, -, hcanonical, hdeployed⟩ := h.stored id hne
  refine h.done (fun id' heq => Function.update_of_ne heq _ _) ?_ h.unlocked ?_
    (fun p hp => ⟨hp.deadline, hp.acceptedAt, hp.canonical, hp.deployed⟩)
  · rw [hself]
    exact hlife
  · rw [hself]
    refine ⟨?_, haccepted, ?_, ?_⟩
    · rw [hsame.createdAt]
      exact hdeadline
    · rw [hsame.token, hsame.treasury]
      exact hcanonical
    · rw [hsame.token, hsame.treasury, hsame.controller]
      exact hdeployed

omit [Keccak] in
/-- A time that a `uint64` deadline bounds is stored as it is. -/
theorem uint64_eq {t : Nat} (h : t < uint64Bound) : uint64 t = t :=
  Nat.mod_eq_of_lt h

omit [Keccak] in
theorem uint64_lt (t : Nat) : uint64 t < uint64Bound :=
  Nat.mod_lt _ (by decide)

omit [Keccak] in
theorem Timeline.accept {s : System π} (h : Timeline P s) {treasury : Address}
    {id : Nat} {c : Chain π} {events : List RegistryEvent}
    (hc : acceptCTO P ⟨treasury, 0, s.now⟩ s.chain id = .ok (c, events)) :
    Timeline P (s.done c id .accepted treasury) := by
  obtain ⟨hstate, hwindow, hfit, hsender, -, rfl⟩ := acceptCTO_ok hc
  have hlife := h.life id
  simp only [Life, hstate] at hlife
  obtain ⟨r₀, hcreated, hhistory⟩ := hlife
  have hpast : r₀.time ≤ s.now := h.past id r₀ (by
    rw [hhistory]
    exact List.mem_singleton.mpr rfl)
  have hnow : s.now < uint64Bound := Nat.lt_of_le_of_lt hwindow hfit
  have htime := hcreated.time
  rw [uint64_eq (Nat.lt_of_le_of_lt hpast hnow)] at htime
  refine h.rewrite ?_ ⟨rfl, rfl, rfl, rfl, rfl, rfl, rfl, rfl⟩
    (uint64_lt _) ?_
  · rw [hstate]
    exact fun hs => nomatch hs
  · rw [hhistory]
    refine ⟨r₀, _, ⟨hcreated.deed, hcreated.byCreator, hcreated.registered,
      hcreated.recipient, hcreated.time⟩, ⟨rfl, hsender, hpast, ?_, ?_⟩, rfl⟩
    · show s.now ≤ r₀.time + ACCEPTANCE_WINDOW
      rw [htime]
      exact hwindow
    · exact (uint64_eq hnow).symm

omit [Keccak] in
/-- Ending an open proposal by a last entry. -/
theorem Timeline.ended {s : System π} (h : Timeline P s) {id : Nat}
    {last : Record → Prop} {r : Record}
    (hopen : (s.chain.registry.proposals id).state = .proposed
      ∨ (s.chain.registry.proposals id).state = .accepted)
    (hlast : last r) :
    Ended (s.chain.registry.proposals id) (s.history id ++ [r]) last := by
  have hlife := h.life id
  rcases hopen with hstate | hstate
  · simp only [Life, hstate] at hlife
    obtain ⟨r₀, hcreated, hhistory⟩ := hlife
    rw [hhistory]
    exact ⟨r₀, r, hcreated, hlast, Or.inl rfl⟩
  · simp only [Life, hstate] at hlife
    obtain ⟨r₀, r₁, hcreated, haccepted, hhistory⟩ := hlife
    rw [hhistory]
    exact ⟨r₀, r, hcreated, hlast, Or.inr ⟨r₁, haccepted, rfl⟩⟩

omit [Keccak] in
/-- The end of a proposal does not depend on its state. -/
theorem Ended.congr {p p' : Proposal} {hist : List Record}
    {last : Record → Prop} (hsame : SameProposal p p')
    (haccepted : p'.acceptedAt = p.acceptedAt) (h : Ended p hist last) :
    Ended p' hist last := by
  obtain ⟨r₀, r, hcreated, hlast, hhist⟩ := h
  refine ⟨r₀, r, ⟨hcreated.deed, ?_, ?_, ?_, ?_⟩, hlast, ?_⟩
  · rw [hsame.creator]
    exact hcreated.byCreator
  · rw [hsame.creator]
    exact hcreated.registered
  · rw [hsame.previousRecipient]
    exact hcreated.recipient
  · rw [hsame.createdAt]
    exact hcreated.time
  · rcases hhist with hhist | ⟨r₁, hacc, hhist⟩
    · exact Or.inl hhist
    · refine Or.inr ⟨r₁, ⟨hacc.deed, ?_, hacc.after, hacc.window, ?_⟩, hhist⟩
      · rw [hsame.treasury]
        exact hacc.byTreasury
      · rw [haccepted]
        exact hacc.time

omit [Keccak] in
theorem open_ne_none {p : Proposal}
    (hopen : p.state = .proposed ∨ p.state = .accepted) :
    p.state ≠ .none := by
  rcases hopen with hs | hs
  · rw [hs]
    exact fun h => nomatch h
  · rw [hs]
    exact fun h => nomatch h

omit [Keccak] in
theorem Timeline.cancel {s : System π} (h : Timeline P s) {sender : Address}
    {id : Nat} {c : Chain π} {events : List RegistryEvent}
    (hc : cancelCTO ⟨sender, 0, s.now⟩ s.chain id = .ok (c, events)) :
    Timeline P (s.done c id .cancelled sender) := by
  obtain ⟨hsender, hopen, rfl⟩ := cancelCTO_ok hc
  have hne := open_ne_none hopen
  refine h.rewrite hne ⟨rfl, rfl, rfl, rfl, rfl, rfl, rfl, rfl⟩
    (h.stored id hne).acceptedAt ?_
  refine Ended.congr (p := s.chain.registry.proposals id)
    ⟨rfl, rfl, rfl, rfl, rfl, rfl, rfl, rfl⟩ rfl ?_
  exact h.ended hopen ⟨rfl, hsender⟩

omit [Keccak] in
theorem Timeline.expire {s : System π} (h : Timeline P s) {sender : Address}
    {id : Nat} {c : Chain π} {events : List RegistryEvent}
    (hc : expireCTO ⟨sender, 0, s.now⟩ s.chain id = .ok (c, events)) :
    Timeline P (s.done c id .expired sender) := by
  obtain ⟨hdue, rfl⟩ := expireCTO_ok hc
  have hopen := hdue.imp And.left And.left
  have hne := open_ne_none hopen
  refine h.rewrite hne ⟨rfl, rfl, rfl, rfl, rfl, rfl, rfl, rfl⟩
    (h.stored id hne).acceptedAt ?_
  refine Ended.congr (p := s.chain.registry.proposals id)
    ⟨rfl, rfl, rfl, rfl, rfl, rfl, rfl, rfl⟩ rfl ?_
  exact h.ended hopen rfl

/-- A new proposal starts a new life. -/
theorem Timeline.propose {s : System π} (h : Timeline P s) (hj : JointAt s)
    {sender : Address} {V : Views} {token controller : Address}
    {metadataHash : Nat} {metadataURI : List UInt8} {c : Chain π}
    {events : List RegistryEvent}
    (hc : proposeCTO P V ⟨sender, 0, s.now⟩ s.chain token controller
      metadataHash metadataURI = .ok (c, events)) :
    Timeline P (s.done c (c.registry.currentProposalId token) .created
      sender) := by
  obtain ⟨resolved, hsender, -, -, -, hdeadline, hnone, rfl⟩ :=
    proposeCTO_ok hc
  have hfresh := Joint.fresh hj
    (newProposal ⟨sender, 0, s.now⟩ s.chain token controller resolved)
    (Nat.lt_succ_self _)
  have hempty := h.life (proposalIdOf
    (newProposal ⟨sender, 0, s.now⟩ s.chain token controller resolved))
  simp only [Life, hfresh] at hempty
  simp only [Function.update_self]
  refine h.done (fun id heq => Function.update_of_ne heq _ _) ?_ h.unlocked
    ?_ ?_
  · simp only [System.entry, Function.update_self, hempty, List.nil_append]
    refine ⟨_, ?_, rfl⟩
    exact ⟨rfl, hsender, rfl, rfl, rfl⟩
  · simp only [Function.update_self]
    have hzero : (0 : Nat) < uint64Bound := by decide
    refine ⟨hdeadline, hzero, ?_, ?_⟩
    · simp only [newProposal, Function.update_self]
    · simp only [newProposal, Function.update_self]
  · rintro p ⟨hdue, haccepted, hcanonical, hdeployed⟩
    refine ⟨hdue, haccepted, ?_, ?_⟩
    · by_cases htoken : p.token = token
      · by_cases htreasury : p.treasury
            = (newProposal ⟨sender, 0, s.now⟩ s.chain token controller
              resolved).treasury
        · simp only [htoken, htreasury, Function.update_self]
        · rw [htoken] at hcanonical ⊢
          simp only [Function.update_self, Function.update_of_ne htreasury]
          exact hcanonical
      · simp only [Function.update_of_ne htoken]
        exact hcanonical
    · -- the new treasury is deployed where nothing was
      have hne : p.treasury
          ≠ (newProposal ⟨sender, 0, s.now⟩ s.chain token controller
            resolved).treasury := by
        intro heq
        rw [heq, hnone] at hdeployed
        exact nomatch hdeployed
      simp only [Function.update_of_ne hne]
      exact hdeployed

variable [MulDiv] [PositionManager π]

omit [Keccak] in
theorem Timeline.execute {s : System π} (h : Timeline P s) {sender : Address}
    {V : Views} {id : Nat} {c : Chain π} {events : List RegistryEvent}
    (hc : executeCTO P V ⟨sender, 0, s.now⟩ s.chain id = .ok (c, events)) :
    Timeline P (s.done c id .executed sender) := by
  obtain ⟨hstate, hdelay, hwindow, hstale, -⟩ := executeCTO_ok hc
  obtain ⟨-, -, hregistry, htreasuries, -⟩ := executed_ok hc
  have hlife := h.life id
  simp only [Life, hstate] at hlife
  obtain ⟨r₀, r₁, hcreated, haccepted, hhistory⟩ := hlife
  have hne := open_ne_none (Or.inr hstate)
  obtain ⟨hdeadline, hacc, hcanonical, hdeployed⟩ := h.stored id hne
  have hself : c.registry.proposals id
      = { s.chain.registry.proposals id with state := .active } := by
    rw [hregistry]
    exact Function.update_self _ _ _
  have hkeep : ∀ p, Stored P s.chain p → Stored P c p := by
    rintro p ⟨hd, ha, hcan, hdep⟩
    refine ⟨hd, ha, ?_, ?_⟩
    · rw [hregistry]
      exact hcan
    · rw [htreasuries]
      exact hdep
  refine h.done ?_ ?_ ?_ ?_ hkeep
  · intro id' heq
    rw [hregistry]
    exact Function.update_of_ne heq _ _
  · simp only [System.entry, hself, hhistory]
    refine ⟨r₀, r₁, _, ⟨hcreated.deed, hcreated.byCreator,
      hcreated.registered, hcreated.recipient, hcreated.time⟩,
      ⟨haccepted.deed, haccepted.byTreasury, haccepted.after,
        haccepted.window, haccepted.time⟩, ?_, rfl⟩
    have htime := haccepted.time
    refine ⟨rfl, ?_, ?_, hstale⟩
    · show r₁.time + EXECUTION_DELAY ≤ s.now
      rw [htime]
      exact hdelay
    · show s.now ≤ r₁.time + EXECUTION_DELAY + EXECUTION_GRACE_PERIOD
      rw [htime]
      exact hwindow
  · rw [hregistry]
    exact h.unlocked
  · rw [hself]
    exact hkeep _ ⟨hdeadline, hacc, hcanonical, hdeployed⟩

/-- **EVERY HALF OF A CALL** writes a life on. -/
theorem Effect.timeline {s s' : System π} (heff : Effect P s s')
    (hj : JointAt s) (h : Timeline P s) : Timeline P s' := by
  cases heff with
  | wait seconds => exact h.same rfl rfl rfl (Nat.le_add_right _ _)
  | outside lp _ => exact h.same rfl rfl rfl (Nat.le_refl _)
  | fees _ _ => exact h.same rfl rfl rfl (Nat.le_refl _)
  | finish receipt => exact h.same rfl rfl rfl (Nat.le_refl _)
  | claim _ => exact h.same rfl rfl rfl (Nat.le_refl _)
  | community _ => exact h.same rfl rfl rfl (Nat.le_refl _)
  | traderRewards _ => exact h.same rfl rfl rfl (Nat.le_refl _)
  | collect hc =>
      obtain ⟨lp, _, _, -, rfl⟩ := collectLPFees_ok hc
      exact h.same rfl rfl rfl (Nat.le_refl _)
  | propose hc => exact h.propose hj hc
  | accept hc => exact h.accept hc
  | cancel hc => exact h.cancel hc
  | expire hc => exact h.expire hc
  | execute hc => exact h.execute hc

theorem later_timeline {s s' : System π} (hlater : (machine P).Later s s')
    (hj : JointAt s) (h : Timeline P s) : JointAt s' ∧ Timeline P s' := by
  refine Machine.Later.invariant (I := fun s => JointAt s ∧ Timeline P s) ?_
    hlater ⟨hj, h⟩
  rintro s s' hhalf ⟨hj, h⟩
  have heff := half_effect hhalf
  exact ⟨(heff.joint hj).1, heff.timeline hj h⟩

/-! ## When a proposal can be expired -/

omit [Keccak] [MulDiv] [PositionManager π] in
theorem requireProposal_eq {c : Chain π} {id : Nat}
    (h : (c.registry.proposals id).state ≠ .none) :
    requireProposal c id = .ok (c.registry.proposals id) := by
  rw [requireProposal, revertIf_bind_neg h]
  rfl

omit [Keccak] [MulDiv] [PositionManager π] in
/-- An open proposal can be expired exactly after the deadline of its
    state. -/
theorem expireCTO_iff {s : System π} (h : Timeline P s) {id : Nat}
    {sender : Address}
    (hopen : (s.chain.registry.proposals id).state = .proposed
      ∨ (s.chain.registry.proposals id).state = .accepted) :
    (∃ r, expireCTO ⟨sender, 0, s.now⟩ s.chain id = .ok r) ↔
      ((s.chain.registry.proposals id).state = .proposed ∧
        (s.chain.registry.proposals id).createdAt + ACCEPTANCE_WINDOW
          < s.now) ∨
      ((s.chain.registry.proposals id).state = .accepted ∧
        (s.chain.registry.proposals id).acceptedAt + EXECUTION_DELAY
          + EXECUTION_GRACE_PERIOD < s.now) := by
  have hne := open_ne_none hopen
  obtain ⟨hdeadline, hacc, -, -⟩ := h.stored id hne
  have hfit : uint64Bound + EXECUTION_DELAY + EXECUTION_GRACE_PERIOD
      < uintBound := by decide
  constructor
  · rintro ⟨⟨c, events⟩, hc⟩
    exact (expireCTO_ok hc).1
  · rintro (⟨hstate, htime⟩ | ⟨hstate, htime⟩)
    · refine ⟨(setProposal s.chain id
        { s.chain.registry.proposals id with state := .expired },
        [.ctoExpired id (s.chain.registry.proposals id).token .proposed]), ?_⟩
      rw [expireCTO, requireProposal_eq hne, ok_bind]
      simp only [hstate]
      rw [add64_eq hdeadline, ok_bind, revertIf_bind_neg (by omega)]
      rfl
    · refine ⟨(setProposal s.chain id
        { s.chain.registry.proposals id with state := .expired },
        [.ctoExpired id (s.chain.registry.proposals id).token .accepted]), ?_⟩
      rw [expireCTO, requireProposal_eq hne, ok_bind]
      simp only [hstate, executionDeadline]
      rw [add_eq (by omega), ok_bind, add_eq (by omega), ok_bind,
        revertIf_bind_neg (by omega)]
      rfl

omit [Keccak] [MulDiv] [PositionManager π] in
/-- The acceptance window of a proposal is over for good exactly when every
    later acceptance fails for that reason. -/
theorem acceptance_over_iff {s : System π} (h : Timeline P s) {id : Nat}
    (hstate : (s.chain.registry.proposals id).state = .proposed) :
    (∀ t caller, s.now ≤ t → acceptCTO P ⟨caller, 0, t⟩ s.chain id
        = .error (.registry .acceptanceWindowExpired)) ↔
      (s.chain.registry.proposals id).createdAt + ACCEPTANCE_WINDOW
        < s.now := by
  have hne := open_ne_none (Or.inl hstate)
  obtain ⟨hdeadline, -, -, -⟩ := h.stored id hne
  have hrun : ∀ t caller, acceptCTO P ⟨caller, 0, t⟩ s.chain id = (do
      revertIf ((s.chain.registry.proposals id).createdAt + ACCEPTANCE_WINDOW
        < t) (.registry .acceptanceWindowExpired)
      revertIf (caller ≠ (s.chain.registry.proposals id).treasury
          ∨ s.chain.registry.isCanonicalTreasury
            (s.chain.registry.proposals id).token caller = false)
        (.registry .unauthorizedTreasury)
      requireTreasury P s.chain (s.chain.registry.proposals id)
      let executeAfter ← add64 (uint64 t) EXECUTION_DELAY
      let executeDeadline ← add64 executeAfter EXECUTION_GRACE_PERIOD
      pure (setProposal s.chain id { s.chain.registry.proposals id with
          acceptedAt := uint64 t, state := .accepted },
        [.ctoAccepted id (s.chain.registry.proposals id).token
            (s.chain.registry.proposals id).treasury
            (s.chain.registry.proposals id).controller (uint64 t),
          .ctoReady id (s.chain.registry.proposals id).token executeAfter
            executeDeadline])) := by
    intro t caller
    have hunlocked : ¬ s.chain.registry.entered = true := by
      rw [h.unlocked]
      decide
    rw [acceptCTO, revertIf_bind_neg hunlocked, requireProposal_eq hne,
      ok_bind, revertIf_bind_neg (not_not.mpr hstate), add64_eq hdeadline,
      ok_bind]
  constructor
  · intro hall
    by_contra hlate
    have hnow := hall s.now (s.chain.registry.proposals id).treasury
      (Nat.le_refl _)
    obtain ⟨-, -, hcanonical, hdeployed⟩ := h.stored id hne
    rw [hrun, revertIf_bind_neg hlate, revertIf_bind_neg (by
      rw [hcanonical]
      simp)] at hnow
    have htreasury : requireTreasury P s.chain
        (s.chain.registry.proposals id) = .ok () := by
      unfold requireTreasury
      rw [hdeployed, hcanonical]
      simp [revertIf]
    rw [htreasury, ok_bind] at hnow
    -- past the guards only the event's own deadlines can fail, as a panic
    by_cases hfit : uint64 s.now + EXECUTION_DELAY < uint64Bound
    · rw [add64_eq hfit, ok_bind] at hnow
      by_cases hfit' : uint64 s.now + EXECUTION_DELAY
          + EXECUTION_GRACE_PERIOD < uint64Bound
      · rw [add64_eq hfit'] at hnow
        cases hnow
      · rw [add64, if_neg hfit'] at hnow
        cases hnow
    · rw [add64, if_neg hfit] at hnow
      cases hnow
  · intro hlate t caller ht
    rw [hrun, revertIf_bind_pos (by omega)]

omit [Keccak] in
/-- The execution window of a proposal is over for good exactly when every
    later execution fails for that reason. -/
theorem execution_over_iff {s : System π} (h : Timeline P s) {id : Nat}
    (hstate : (s.chain.registry.proposals id).state = .accepted) :
    (∀ t caller V, s.now ≤ t → executeCTO P V ⟨caller, 0, t⟩ s.chain id
        = .error (.registry .executionGraceExpired)) ↔
      (s.chain.registry.proposals id).acceptedAt + EXECUTION_DELAY
        + EXECUTION_GRACE_PERIOD < s.now := by
  have hne := open_ne_none (Or.inr hstate)
  obtain ⟨-, hacc, -, -⟩ := h.stored id hne
  have hfit : uint64Bound + EXECUTION_DELAY + EXECUTION_GRACE_PERIOD
      < uintBound := by decide
  have hunlocked : ¬ s.chain.registry.entered = true := by
    rw [h.unlocked]
    decide
  constructor
  · intro hall
    by_contra hlate
    -- a moment inside the window, with nobody answering
    have hnow := hall
      (max s.now ((s.chain.registry.proposals id).acceptedAt
        + EXECUTION_DELAY)) 0
      ⟨fun _ => false, fun _ => 0, fun _ => 0, fun _ => 0, fun _ => 0,
        fun _ _ => (0, 0), fun _ _ => false, fun _ _ => 0, fun _ => 0,
        fun _ => 0, fun _ => 0, fun _ => false, fun _ _ _ => false⟩
      (le_max_left _ _)
    rw [executeCTO, revertIf_bind_neg hunlocked, requireProposal_eq hne,
      ok_bind, revertIf_bind_neg (not_not.mpr hstate), add_eq (by omega),
      ok_bind, revertIf_bind_neg (by simp), add_eq (by omega), ok_bind,
      revertIf_bind_neg (by
        show ¬ _ < max _ _
        omega)] at hnow
    rw [canonicalRelationships, revertIf_bind_pos (by simp)] at hnow
    cases hnow
  · intro hlate t caller V ht
    rw [executeCTO, revertIf_bind_neg hunlocked, requireProposal_eq hne,
      ok_bind, revertIf_bind_neg (not_not.mpr hstate), add_eq (by omega),
      ok_bind, revertIf_bind_neg (by
        show ¬ t < _
        omega), add_eq (by omega), ok_bind,
      revertIf_bind_pos (by
        show _ < t
        omega)]

/-! ## The history -/

/-- **THE ONLY WAY TO `Active`.**  Whatever anybody does in any order at any
    times: an active proposal was created by the token's registered creator,
    accepted by its canonical treasury within seven days, and executed inside
    the closed window while the payout was the recorded one, and nothing else
    ever happened to it.  An open proposal can be expired exactly when every
    later acceptance, or execution, fails for being late.  A cancelled or
    expired proposal never changes. -/
theorem cto_history (P : Protocol) (now : Nat)
    (governance initialTreasury : Address) (lp : LPState π) :
    ∀ s, (machine P).Later (deployed now governance initialTreasury lp) s →
      ∀ id, let p := s.chain.registry.proposals id
        (p.state = .active → ∃ r₀ r₁ r₂, s.history id = [r₀, r₁, r₂]
          ∧ r₀.deed = .created ∧ r₀.caller = r₀.creatorOf
          ∧ r₀.creatorPayoutOf = p.previousRecipient
          ∧ r₁.deed = .accepted ∧ r₁.caller = p.treasury
          ∧ s.chain.registry.isCanonicalTreasury p.token p.treasury = true
          ∧ r₀.time ≤ r₁.time ∧ r₁.time ≤ r₀.time + ACCEPTANCE_WINDOW
          ∧ r₂.deed = .executed ∧ r₁.time + EXECUTION_DELAY ≤ r₂.time
          ∧ r₂.time ≤ r₁.time + EXECUTION_DELAY + EXECUTION_GRACE_PERIOD
          ∧ r₂.creatorPayoutOf = p.previousRecipient) ∧
        (p.state = .proposed → ∀ sender,
          ((∃ r, expireCTO ⟨sender, 0, s.now⟩ s.chain id = .ok r) ↔
            ∀ t caller, s.now ≤ t →
              acceptCTO P ⟨caller, 0, t⟩ s.chain id
                = .error (.registry .acceptanceWindowExpired))) ∧
        (p.state = .accepted → ∀ sender,
          ((∃ r, expireCTO ⟨sender, 0, s.now⟩ s.chain id = .ok r) ↔
            ∀ t caller V, s.now ≤ t →
              executeCTO P V ⟨caller, 0, t⟩ s.chain id
                = .error (.registry .executionGraceExpired))) ∧
        (p.state = .cancelled ∨ p.state = .expired →
          ∀ s', (machine P).Later s s' →
            s'.chain.registry.proposals id = p) := by
  intro s hs id
  obtain ⟨hj, h⟩ := later_timeline hs
    (jointAt_deployed now governance initialTreasury lp)
    (timeline_deployed now governance initialTreasury lp)
  refine ⟨?_, ?_, ?_, ?_⟩
  · intro hstate
    have hlife := h.life id
    simp only [Life, hstate] at hlife
    obtain ⟨r₀, r₁, r₂, hcreated, haccepted, hexecuted, hhistory⟩ := hlife
    obtain ⟨-, -, hcanonical, -⟩ := h.stored id (by
      rw [hstate]
      exact fun hs => nomatch hs)
    exact ⟨r₀, r₁, r₂, hhistory, hcreated.deed,
      hcreated.byCreator.trans hcreated.registered.symm, hcreated.recipient,
      haccepted.deed, haccepted.byTreasury, hcanonical, haccepted.after,
      haccepted.window, hexecuted.deed, hexecuted.delay, hexecuted.window,
      hexecuted.recipient⟩
  · intro hstate sender
    rw [expireCTO_iff h (Or.inl hstate), acceptance_over_iff h hstate]
    simp [hstate]
  · intro hstate sender
    rw [expireCTO_iff h (Or.inr hstate), execution_over_iff h hstate]
    simp [hstate]
  · intro hend s' hs'
    refine (later_joint hs' hj).2.final id ?_
    rcases hend with hstate | hstate
    · rw [hstate]
      rfl
    · rw [hstate]
      rfl

end Timeline

/-- The history of an executed proposal: created at deployment, accepted a
    hundred seconds later, executed as soon as the delay was over. -/
theorem cto_history_handed : ∃ r₀ r₁ r₂,
    (handed 8).history firstId = [r₀, r₁, r₂] ∧
    r₀.deed = .created ∧ r₀.caller = r₀.creatorOf ∧
    r₁.deed = .accepted ∧ r₁.time ≤ r₀.time + ACCEPTANCE_WINDOW ∧
    r₂.deed = .executed ∧ r₁.time + EXECUTION_DELAY ≤ r₂.time ∧
    r₂.creatorPayoutOf = 22 := by
  have hlaw := @cto_history plainKeccak _ exactMulDiv onePosition oneProtocol 0
    40 41 graduatedLP
  have hactive : ((handed 8).chain.registry.proposals firstId).state
      = .active := by decide +kernel
  have hrecipient : ((handed 8).chain.registry.proposals
      firstId).previousRecipient = 22 := by decide +kernel
  obtain ⟨r₀, r₁, r₂, hhistory, hcreated, hcreator, -, haccepted, -, -, -,
    hwindow, hexecuted, hdelay, -, hpayout⟩ :=
    (hlaw (handed 8) (later_handed 8) firstId).1 hactive
  exact ⟨r₀, r₁, r₂, hhistory, hcreated, hcreator, haccepted, hwindow,
    hexecuted, hdelay, hpayout.trans hrecipient⟩

end CTOSystem
