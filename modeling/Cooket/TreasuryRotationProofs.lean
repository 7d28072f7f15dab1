import Cooket.EcosystemVaultProofs
import Cooket.FeeManagerProofs
import Cooket.RunLawProofs

/-! # Rotating a treasury

    `FeeManagerV3` and `TokenCommunityVaultV3` pay a treasury that the owner
    may only replace slowly: the new one is proposed, waits 48 hours, and has
    to accept.  What both contracts do to the four slots involved is ONE
    relation (`Acts`); a contract that respects it is a `Rotating` machine, and
    the law of every run (`law_of_timely`) is proved for those.

    The time from which a proposal may be accepted is computed in 256 bits and
    then cut to 64 (`uint64(block.timestamp + TREASURY_ROTATION_DELAY)`).  The
    law needs the proposals of the run to be made before that wraps around. -/

namespace TreasuryRotation

open CheckedArith Contract RunLaw

/-- The slots of a rotation. -/
structure Seats where
  owner : Address
  treasury : Address
  pendingTreasury : Address
  acceptAfter : Nat
  deriving DecidableEq, Repr

/-- What a call is to a rotation. -/
inductive Deed where
  | propose (sender proposed : Address)
  | accept (sender : Address)
  | cancel
  /-- An ownership transfer that completes, or a renouncement. -/
  | reseat (newOwner : Address)
  | other
  deriving DecidableEq, Repr

/-- 48 hours. -/
def DELAY : Nat := 48 * 3600

/-- **ONE CALL**, at a time, that returns. -/
inductive Acts (r : Seats) (now : Nat) : Deed → Seats → Prop where
  | propose {proposed : Address} (hne : proposed ≠ 0) :
      Acts r now (.propose r.owner proposed)
        { r with
          pendingTreasury := proposed
          acceptAfter := uint64 (now + DELAY) }
  | accept (hne : r.pendingTreasury ≠ 0) (hdue : r.acceptAfter ≤ now) :
      Acts r now (.accept r.pendingTreasury)
        { r with
          treasury := r.pendingTreasury
          pendingTreasury := 0
          acceptAfter := 0 }
  | cancel :
      Acts r now .cancel { r with pendingTreasury := 0, acceptAfter := 0 }
  | reseat {newOwner : Address} {acceptAfter : Nat} :
      Acts r now (.reseat newOwner)
        { r with owner := newOwner, pendingTreasury := 0, acceptAfter }
  | other : Acts r now .other r

/-! ## Rotating machines -/

/-- **A CONTRACT WITH A TREASURY.**  A call that fails leaves no trace. -/
structure Rotating (σ δ : Type) where
  exec : σ → δ → Option σ
  seats : σ → Seats
  time : σ → δ → Nat
  deed : δ → Deed
  acts : ∀ s d s', exec s d = some s' →
    Acts (seats s) (time s d) (deed d) (seats s')

namespace Rotating

variable {σ δ : Type} (M : Rotating σ δ)

def step (s : σ) (d : δ) : σ := (M.exec s d).getD s

def run (s : σ) (ds : List δ) : σ := ds.foldl M.step s

/-- No call of the run that returns is one of a rotation. -/
def Quiet : σ → List δ → Prop :=
  Throughout M.step fun s d => M.exec s d = none ∨ M.deed d = .other

/-- Every proposal of the run that returns is made while 48 hours from then
    fit in 64 bits. -/
def Timely : σ → List δ → Prop :=
  Throughout M.step fun s d => M.exec s d = none
    ∨ (∀ sender proposed, M.deed d = .propose sender proposed →
        M.time s d + DELAY < 2 ^ 64)

/-- **A RIGHTFUL ROTATION**: after some calls the new treasury accepts what the
    owner of that moment proposed at least 48 hours earlier, and nothing
    happened to the rotation in between. -/
def Rightful (s₀ : σ) (before : List δ) (d : δ) (treasury : Address) : Prop :=
  M.deed d = .accept treasury ∧
  ∃ pre p mid, before = pre ++ p :: mid
    ∧ M.deed p = .propose (M.seats (M.run s₀ pre)).owner treasury
    ∧ M.exec (M.run s₀ pre) p ≠ none
    ∧ M.Quiet (M.run s₀ (pre ++ [p])) mid
    ∧ M.time (M.run s₀ pre) p + 48 * 3600 ≤ M.time (M.run s₀ before) d

/-- **THE LAW OF THE TREASURY**: every call of the run that changes it is a
    rightful rotation. -/
def Law (s₀ : σ) (ds : List δ) : Prop :=
  ∀ before d after, ds = before ++ d :: after →
    (M.seats (M.run s₀ (before ++ [d]))).treasury
      ≠ (M.seats (M.run s₀ before)).treasury →
    M.Rightful s₀ before d (M.seats (M.run s₀ (before ++ [d]))).treasury

variable {M}

theorem run_snoc (s : σ) (ds : List δ) (d : δ) :
    M.run s (ds ++ [d]) = M.step (M.run s ds) d :=
  List.foldl_concat ..

/-- A step left no trace, or acted. -/
theorem step_cases (s : σ) (d : δ) :
    (M.exec s d = none ∧ M.step s d = s)
      ∨ M.exec s d ≠ none
        ∧ Acts (M.seats s) (M.time s d) (M.deed d)
          (M.seats (M.step s d)) := by
  unfold step
  cases h : M.exec s d with
  | none => exact Or.inl ⟨rfl, rfl⟩
  | some s' =>
      refine Or.inr ⟨?_, M.acts s d s' h⟩
      intro hnone
      exact nomatch hnone

theorem quiet_snoc {s : σ} {ds : List δ} {d : δ} (h : M.Quiet s ds)
    (hd : M.exec (M.run s ds) d = none ∨ M.deed d = .other) :
    M.Quiet s (ds ++ [d]) :=
  (throughout_append M.step _ _).mpr ⟨h, hd, trivial⟩

/-- **WHAT IS PENDING**: the proposal of an owner, untouched since. -/
def Pending (M : Rotating σ δ) (s₀ : σ) (ds : List δ) : Prop :=
  (M.seats (M.run s₀ ds)).pendingTreasury ≠ 0 →
  ∃ pre p mid, ds = pre ++ p :: mid
    ∧ M.deed p = .propose (M.seats (M.run s₀ pre)).owner
        (M.seats (M.run s₀ ds)).pendingTreasury
    ∧ M.exec (M.run s₀ pre) p ≠ none
    ∧ M.Quiet (M.run s₀ (pre ++ [p])) mid
    ∧ (M.seats (M.run s₀ ds)).acceptAfter
      = uint64 (M.time (M.run s₀ pre) p + DELAY)

/-- A call that leaves the seats alone leaves what is pending. -/
theorem Pending.quiet {s₀ : σ} {ds : List δ} {d : δ} (h : Pending M s₀ ds)
    (hd : M.exec (M.run s₀ ds) d = none ∨ M.deed d = .other)
    (hseats : M.seats (M.run s₀ (ds ++ [d])) = M.seats (M.run s₀ ds)) :
    Pending M s₀ (ds ++ [d]) := by
  intro hne
  rw [hseats] at hne ⊢
  obtain ⟨pre, p, mid, rfl, hdeed, hran, hquiet, hafter⟩ := h hne
  have hrun : M.run (M.run s₀ (pre ++ [p])) mid
      = M.run s₀ (pre ++ p :: mid) := by
    rw [List.append_cons pre p mid]
    exact (List.foldl_append ..).symm
  refine ⟨pre, p, mid ++ [d], ?_, hdeed, hran, ?_, hafter⟩
  · rw [List.append_assoc, List.cons_append]
  · refine quiet_snoc hquiet ?_
    rw [hrun]
    exact hd

/-- **WHAT IS PENDING WAS PROPOSED.**  Induction on the run, from its end. -/
theorem pending_run {s₀ : σ} (h₀ : (M.seats s₀).pendingTreasury = 0)
    (ds : List δ) : Pending M s₀ ds := by
  induction ds using List.reverseRecOn with
  | nil =>
      intro hne
      exact absurd h₀ hne
  | append_singleton ds d ih =>
      rcases step_cases (M := M) (M.run s₀ ds) d with ⟨hnone, hsame⟩ | ⟨hran, hacts⟩
      · refine ih.quiet (Or.inl hnone) ?_
        rw [run_snoc, hsame]
      · generalize hk : M.deed d = k at hacts
        rw [← run_snoc] at hacts
        generalize hr : M.seats (M.run s₀ (ds ++ [d])) = r at hacts
        cases hacts with
        | propose hne =>
            intro _
            refine ⟨ds, d, [], rfl, ?_, hran, trivial, ?_⟩
            · rw [hk, hr]
            · rw [hr]
        | accept hne hdue =>
            intro hpending
            rw [hr] at hpending
            exact absurd rfl hpending
        | cancel =>
            intro hpending
            rw [hr] at hpending
            exact absurd rfl hpending
        | reseat =>
            intro hpending
            rw [hr] at hpending
            exact absurd rfl hpending
        | other => exact ih.quiet (Or.inr hk) hr

/-- **THE LAW HOLDS IN EVERY TIMELY RUN.** -/
theorem law_of_timely {s₀ : σ} (h₀ : (M.seats s₀).pendingTreasury = 0)
    {ds : List δ} (htimely : M.Timely s₀ ds) : M.Law s₀ ds := by
  rintro before d after rfl hchanged
  obtain ⟨hbefore, -⟩ := (throughout_append M.step _ _).mp htimely
  rcases step_cases (M := M) (M.run s₀ before) d with ⟨-, hsame⟩ | ⟨-, hacts⟩
  · rw [run_snoc, hsame] at hchanged
    exact absurd rfl hchanged
  · generalize hk : M.deed d = k at hacts
    rw [← run_snoc] at hacts
    generalize hr : M.seats (M.run s₀ (before ++ [d])) = r at hacts hchanged ⊢
    cases hacts with
    | propose hne => exact absurd rfl hchanged
    | cancel => exact absurd rfl hchanged
    | reseat => exact absurd rfl hchanged
    | other => exact absurd rfl hchanged
    | accept hne hdue =>
        obtain ⟨pre, p, mid, hsplit, hdeed, hran, hquiet, hafter⟩ :=
          pending_run h₀ before hne
        refine ⟨hk, pre, p, mid, hsplit, hdeed, hran, hquiet, ?_⟩
        -- the proposal was timely, so its time was stored as it is
        rw [hsplit] at hbefore
        obtain ⟨-, hp, -⟩ := (throughout_append M.step _ _).mp hbefore
        rcases hp with hnone | hfits
        · exact absurd hnone hran
        · have hstored : uint64 (M.time (M.run s₀ pre) p + DELAY)
              = M.time (M.run s₀ pre) p + DELAY :=
            Nat.mod_eq_of_lt (hfits _ _ hdeed)
          rw [hstored] at hafter
          rw [hafter] at hdue
          exact hdue

end Rotating

/-! ## The fee manager -/

section FeeManager

open FeeManager

/-- One half of a call of the manager: a function, or what is left to do once
    the recipient of a payout gives control back.  Every interleaving of calls
    that re-enter is a list of these. -/
inductive FeeManagerHalf where
  | call (V : Views) (msg : Msg) (k : FeeManagerCall)
  | finish (receipt : Option Receipt)

def feeManagerExec (I : Immutables) (s : FeeManagerStorage) :
    FeeManagerHalf → Option FeeManagerStorage
  | .call V msg k => (call I V msg s k).toOption.map (·.storage)
  | .finish receipt => some (finish receipt s).1

def feeManagerSeats (s : FeeManagerStorage) : Seats :=
  ⟨s.owner, s.treasury, s.pendingTreasury, s.pendingTreasuryAcceptAfter⟩

/-- What a function of the manager is to the rotation. -/
def feeManagerDeed : FeeManagerHalf → Deed
  | .call _ msg (.proposeTreasury proposed) => .propose msg.sender proposed
  | .call _ msg .acceptTreasury => .accept msg.sender
  | .call _ _ .cancelTreasuryProposal => .cancel
  | .call _ msg .acceptOwnership => .reseat msg.sender
  | .call _ _ .renounceOwnership => .reseat 0
  | _ => .other

variable {I : Immutables} {V : Views} {msg : Msg} {s : FeeManagerStorage}
  {out : Outcome}

theorem proposeTreasury_acts {proposed : Address}
    (h : proposeTreasury msg s proposed = .ok out) :
    Acts (feeManagerSeats s) msg.timestamp (.propose msg.sender proposed)
      (feeManagerSeats out.storage) := by
  simp only [proposeTreasury, onlyOwner, bind_ok, revertIf_ok, add_ok,
    pure_ok, ne_eq, not_not] at h
  obtain ⟨_, howner, _, hne, _, -, _, ⟨-, rfl⟩, rfl⟩ := h
  rw [howner]
  exact .propose hne

theorem acceptTreasury_acts (h : acceptTreasury msg s = .ok out) :
    Acts (feeManagerSeats s) msg.timestamp (.accept msg.sender)
      (feeManagerSeats out.storage) := by
  simp only [acceptTreasury, bind_ok, revertIf_ok, pure_ok, not_or, ne_eq,
    not_not, Nat.not_lt] at h
  obtain ⟨_, ⟨hsender, hne⟩, _, hdue, rfl⟩ := h
  rw [hsender]
  exact .accept hne hdue

theorem cancelTreasuryProposal_acts
    (h : cancelTreasuryProposal msg s = .ok out) :
    Acts (feeManagerSeats s) msg.timestamp .cancel
      (feeManagerSeats out.storage) := by
  obtain ⟨hs, -⟩ := cancelTreasuryProposal_ok h
  rw [hs]
  exact .cancel

/-- A new owner finds no proposal. -/
theorem transferOwnership_acts (newOwner : Address) :
    Acts (feeManagerSeats s) msg.timestamp (.reseat newOwner)
      (feeManagerSeats (transferOwnership_ s newOwner).1) := by
  unfold transferOwnership_
  by_cases h0 : s.pendingTreasury = 0
  · rw [if_neg (not_not.mpr h0)]
    have hseats : feeManagerSeats { s with pendingOwner := 0, owner := newOwner }
        = { feeManagerSeats s with
          owner := newOwner
          pendingTreasury := 0
          acceptAfter := s.pendingTreasuryAcceptAfter } := by
      unfold feeManagerSeats
      rw [← h0]
    rw [hseats]
    exact .reseat
  · rw [if_pos h0]
    exact .reseat

/-- **EVERY FUNCTION OF THE MANAGER** acts as its deed. -/
theorem call_acts {k : FeeManagerCall} (h : call I V msg s k = .ok out) :
    Acts (feeManagerSeats s) msg.timestamp (feeManagerDeed (.call V msg k))
      (feeManagerSeats out.storage) := by
  -- functions whose storage has the same seats
  have hother : feeManagerSeats out.storage = feeManagerSeats s →
      Acts (feeManagerSeats s) msg.timestamp .other
        (feeManagerSeats out.storage) := by
    intro heq
    rw [heq]
    exact .other
  obtain ⟨-, hk⟩ := call_ok h
  cases k with
  | setFactoryOnce factory_ =>
      obtain ⟨hs, -⟩ := setFactoryOnce_ok hk
      exact hother (by rw [hs]; rfl)
  | bindEcosystemVaultsOnce communityVault_ traderRewardsVault_ =>
      obtain ⟨hs, -⟩ := bindEcosystemVaultsOnce_ok hk
      exact hother (by rw [hs]; rfl)
  | registerToken token curve creator =>
      obtain ⟨-, -, -, hs, -⟩ := registerToken_ok hk
      exact hother (by rw [hs]; rfl)
  | depositFees token totalFee creatorFee protocolFee communityFee
      traderRewardsFee isBuy =>
      obtain ⟨-, -, -, hs, -⟩ := depositFees_ok hk
      exact hother (by rw [hs]; rfl)
  | proposeCreatorPayout token proposedPayout =>
      obtain ⟨-, -, hs, -⟩ := proposeCreatorPayout_ok hk
      exact hother (by rw [hs]; rfl)
  | acceptCreatorPayout token =>
      obtain ⟨-, -, -, hs, -⟩ := acceptCreatorPayout_ok hk
      exact hother (by rw [hs]; rfl)
  | cancelCreatorPayout token =>
      obtain ⟨-, hs, -⟩ := cancelCreatorPayout_ok hk
      exact hother (by rw [hs]; rfl)
  | proposeTreasury proposed => exact proposeTreasury_acts hk
  | acceptTreasury => exact acceptTreasury_acts hk
  | cancelTreasuryProposal => exact cancelTreasuryProposal_acts hk
  | claimProtocolFees =>
      obtain ⟨-, hs, -⟩ := claimProtocolFees_ok hk
      exact hother (by rw [hs]; rfl)
  | claimCreatorFees token =>
      obtain ⟨-, -, hs, -⟩ := claimCreatorFees_ok hk
      exact hother (by rw [hs]; rfl)
  | activateCTO token ctoTreasury =>
      obtain ⟨-, -, -, -, -, -, hs, -⟩ := activateCTO_ok hk
      exact hother (by rw [hs]; rfl)
  | claimCheckpointedCreatorFees token recipient =>
      obtain ⟨-, -, hs, -⟩ := claimCheckpointedCreatorFees_ok hk
      exact hother (by rw [hs]; rfl)
  | fundCommunityVault token =>
      obtain ⟨-, -, hs, -⟩ := fundCommunityVault_ok hk
      exact hother (by rw [hs]; rfl)
  | fundTraderRewardsVault token =>
      obtain ⟨-, -, hs, -⟩ := fundTraderRewardsVault_ok hk
      exact hother (by rw [hs]; rfl)
  | transferOwnership newOwner =>
      obtain ⟨hs, -⟩ := transferOwnership_ok hk
      exact hother (by rw [hs]; rfl)
  | acceptOwnership =>
      obtain ⟨hs, -⟩ := acceptOwnership_ok hk
      rw [hs]
      exact transferOwnership_acts msg.sender
  | renounceOwnership =>
      obtain ⟨hs, -⟩ := renounceOwnership_ok hk
      rw [hs]
      exact transferOwnership_acts 0

/-- **THE FEE MANAGER**, as a contract with a treasury. -/
def feeManagerRotation (I : Immutables) :
    Rotating FeeManagerStorage FeeManagerHalf where
  exec := feeManagerExec I
  seats := feeManagerSeats
  time _
    | .call _ msg _ => msg.timestamp
    | .finish _ => 0
  deed := feeManagerDeed
  acts s d s' h := by
    cases d with
    | call V msg k =>
        cases hk : call I V msg s k with
        | error e =>
            rw [feeManagerExec, hk] at h
            exact nomatch h
        | ok out =>
            rw [feeManagerExec, hk] at h
            obtain rfl := Option.some.inj h
            exact call_acts hk
    | finish receipt =>
        obtain rfl := Option.some.inj h
        have hseats : feeManagerSeats (finish receipt s).1
            = feeManagerSeats s := by
          cases receipt with
          | none => rfl
          | some r =>
              cases r with
              | protocolFeesClaimed triggeredBy amount => rfl
              | emit e => rfl
        rw [hseats]
        exact .other

end FeeManager

/-! ## The community vault -/

section CommunityVault

open EcosystemVault TokenLedger

variable {τ : Type} [Erc20 Address Failure τ] {D : Deployment}
  {w w' : World τ}

/-- One half of a call of the two vaults. -/
inductive VaultHalf (τ : Type) where
  | call (k : Call τ)
  | finish (r : Return)

def vaultExec (D : Deployment) (w : World τ) : VaultHalf τ → Option (World τ)
  | .call k => (enter D w k).toOption.map (·.state)
  | .finish r => (leave D r w).toOption

def governanceSeats (g : Governance) : Seats :=
  ⟨g.owner, g.treasury, g.pendingTreasury, g.pendingTreasuryAcceptAfter⟩

/-- What a function of the vault is to the rotation. -/
def vaultDeed : VaultHalf τ → Deed
  | .call (.proposeTreasury sender proposed) => .propose sender proposed
  | .call (.acceptTreasury sender) => .accept sender
  | .call (.cancelTreasuryProposal _) => .cancel
  | .call (.acceptOwnership sender) => .reseat sender
  | .call (.renounceOwnership _) => .reseat 0
  | _ => .other

/-- A new owner finds no proposal. -/
theorem setOwner_acts (g : Governance) (now : Nat) (newOwner : Address) :
    Acts (governanceSeats g) now (.reseat newOwner)
      (governanceSeats (setOwner g newOwner)) := by
  unfold setOwner
  by_cases h0 : g.pendingTreasury = 0
  · rw [if_pos h0]
    have hseats : governanceSeats { g with owner := newOwner, pendingOwner := 0 }
        = { governanceSeats g with
          owner := newOwner
          pendingTreasury := 0
          acceptAfter := g.pendingTreasuryAcceptAfter } := by
      unfold governanceSeats
      rw [← h0]
    rw [hseats]
    exact .reseat
  · rw [if_neg h0]
    exact .reseat

/-- The functions of the rotation itself. -/
theorem governance_acts {g g' : Governance} {now : Nat} {sender : Address} :
    (∀ proposed, proposeTreasury g now sender proposed = .ok g' →
      Acts (governanceSeats g) now (.propose sender proposed)
        (governanceSeats g')) ∧
    (acceptTreasury g now sender = .ok g' →
      Acts (governanceSeats g) now (.accept sender) (governanceSeats g')) ∧
    (cancelTreasuryProposal g sender = .ok g' →
      Acts (governanceSeats g) now .cancel (governanceSeats g')) ∧
    (∀ newOwner, transferOwnership g sender newOwner = .ok g' →
      Acts (governanceSeats g) now .other (governanceSeats g')) ∧
    (acceptOwnership g sender = .ok g' →
      Acts (governanceSeats g) now (.reseat sender) (governanceSeats g')) ∧
    (renounceOwnership g sender = .ok g' →
      Acts (governanceSeats g) now (.reseat 0) (governanceSeats g')) := by
  refine ⟨?_, ?_, ?_, ?_, ?_, ?_⟩
  · intro proposed h
    simp only [proposeTreasury, bind_ok, revertIf_ok, add_ok, pure_ok, ne_eq,
      not_not] at h
    obtain ⟨_, howner, _, hne, _, -, _, ⟨-, rfl⟩, rfl⟩ := h
    rw [howner]
    exact .propose hne
  · intro h
    simp only [acceptTreasury, bind_ok, revertIf_ok, pure_ok, not_or, ne_eq,
      not_not, Nat.not_lt] at h
    obtain ⟨_, ⟨hsender, hne⟩, _, hdue, rfl⟩ := h
    rw [hsender]
    exact .accept hne hdue
  · intro h
    simp only [cancelTreasuryProposal, bind_ok, revertIf_ok, pure_ok] at h
    obtain ⟨_, -, _, -, rfl⟩ := h
    exact .cancel
  · intro newOwner h
    simp only [transferOwnership, bind_ok, revertIf_ok, pure_ok] at h
    obtain ⟨_, -, rfl⟩ := h
    exact .other
  · intro h
    simp only [acceptOwnership, bind_ok, revertIf_ok, pure_ok] at h
    obtain ⟨_, -, rfl⟩ := h
    exact setOwner_acts g now sender
  · intro h
    simp only [renounceOwnership, bind_ok, revertIf_ok, pure_ok] at h
    obtain ⟨_, -, rfl⟩ := h
    exact setOwner_acts g now 0

/-- **EVERY FUNCTION OF THE VAULT** acts as its deed. -/
theorem enter_acts (k : Call τ) {e : Reentrant.Entry (World τ) Return}
    (h : enter D w k = .ok e) :
    Acts (governanceSeats w.governance) w.now (vaultDeed (.call k))
      (governanceSeats e.state.governance) := by
  have hother : e.state.governance = w.governance →
      Acts (governanceSeats w.governance) w.now .other
        (governanceSeats e.state.governance) := by
    intro heq
    rw [heq]
    exact .other
  cases k with
  | depositNative v sender launchToken value =>
      simp only [enter, bind_ok, pure_ok] at h
      obtain ⟨w', hw', rfl⟩ := h
      obtain ⟨-, rfl⟩ := deposit_ok hw'
      exact hother rfl
  | recordERC20Funding v sender launchToken asset amount =>
      simp only [enter, bind_ok, pure_ok, revertIf_ok] at h
      obtain ⟨_, -, w', hw', rfl⟩ := h
      obtain ⟨-, -, -, rfl⟩ := recordERC20Funding_ok hw'
      exact hother rfl
  | fundCommunityVault launchToken asset =>
      simp only [enter, bind_ok, pure_ok] at h
      obtain ⟨first, hfirst, rfl⟩ := h
      obtain ⟨tokens, feeVault, hstate⟩ := fund_ok hfirst
      exact hother (by rw [funding, hstate])
  | fundTraderRewardsVault launchToken asset =>
      simp only [enter, bind_ok, pure_ok] at h
      obtain ⟨first, hfirst, rfl⟩ := h
      obtain ⟨tokens, feeVault, hstate⟩ := fund_ok hfirst
      exact hother (by rw [funding, hstate])
  | forwardToTreasury launchToken asset =>
      simp only [enter, bind_ok, pure_ok] at h
      obtain ⟨w', hw', rfl⟩ := h
      obtain ⟨amount, tokens, -, -, rfl⟩ := forwardToTreasury_ok hw'
      exact hother rfl
  | payout sender launchToken asset claimant amount =>
      simp only [enter, bind_ok, pure_ok] at h
      obtain ⟨w', hw', rfl⟩ := h
      obtain ⟨-, -, -, -, tokens, rfl⟩ := payout_ok hw'
      exact hother rfl
  | setPermanentLPFeeVaultOnce v sender vault =>
      simp only [enter, bind_ok, pure_ok] at h
      obtain ⟨w', hw', rfl⟩ := h
      cases v with
      | community =>
          simp only [setPermanentLPFeeVaultOnce, setCommunityFeeVaultOnce,
            bind_ok, revertIf_ok, pure_ok] at hw'
          obtain ⟨_, -, _, -, _, -, rfl⟩ := hw'
          exact hother rfl
      | rewards =>
          simp only [setPermanentLPFeeVaultOnce, setRewardsFeeVaultOnce,
            bind_ok, revertIf_ok, pure_ok] at hw'
          obtain ⟨_, -, _, -, _, -, rfl⟩ := hw'
          exact hother rfl
  | setDistributorOnce sender distributor =>
      simp only [enter, bind_ok, pure_ok] at h
      obtain ⟨w', hw', rfl⟩ := h
      simp only [setDistributorOnce, bind_ok, revertIf_ok, pure_ok] at hw'
      obtain ⟨_, -, _, -, _, -, rfl⟩ := hw'
      exact hother rfl
  | elsewhere now native tokens feeVault =>
      simp only [enter, bind_ok, pure_ok] at h
      obtain ⟨w', hw', rfl⟩ := h
      simp only [elsewhere, bind_ok, revertIf_ok, pure_ok] at hw'
      obtain ⟨_, -, rfl⟩ := hw'
      exact hother rfl
  | proposeTreasury sender proposed =>
      simp only [enter, bind_ok, pure_ok] at h
      obtain ⟨g, hg, rfl⟩ := h
      exact governance_acts.1 proposed hg
  | acceptTreasury sender =>
      simp only [enter, bind_ok, pure_ok] at h
      obtain ⟨g, hg, rfl⟩ := h
      exact governance_acts.2.1 hg
  | cancelTreasuryProposal sender =>
      simp only [enter, bind_ok, pure_ok] at h
      obtain ⟨g, hg, rfl⟩ := h
      exact governance_acts.2.2.1 hg
  | transferOwnership sender newOwner =>
      simp only [enter, bind_ok, pure_ok] at h
      obtain ⟨g, hg, rfl⟩ := h
      exact governance_acts.2.2.2.1 newOwner hg
  | acceptOwnership sender =>
      simp only [enter, bind_ok, pure_ok] at h
      obtain ⟨g, hg, rfl⟩ := h
      exact governance_acts.2.2.2.2.1 hg
  | renounceOwnership sender =>
      simp only [enter, bind_ok, pure_ok] at h
      obtain ⟨g, hg, rfl⟩ := h
      exact governance_acts.2.2.2.2.2 hg

theorem leave_governance {r : Return} (h : leave D r w = .ok w') :
    w'.governance = w.governance := by
  cases r with
  | done =>
      obtain rfl := Except.ok.inj h
      rfl
  | paid v =>
      obtain rfl := Except.ok.inj h
      rfl
  | funded v launchToken asset amount balanceBefore =>
      obtain ⟨feeVault, rfl⟩ := fundRest_ok h
      rfl

/-- **THE COMMUNITY VAULT**, as a contract with a treasury. -/
def vaultRotation (τ : Type) [Erc20 Address Failure τ] (D : Deployment) :
    Rotating (World τ) (VaultHalf τ) where
  exec := vaultExec D
  seats w := governanceSeats w.governance
  time w _ := w.now
  deed := vaultDeed
  acts w d w' h := by
    cases d with
    | call k =>
        cases hk : enter D w k with
        | error e =>
            rw [vaultExec, hk] at h
            exact nomatch h
        | ok e =>
            rw [vaultExec, hk] at h
            obtain rfl := Option.some.inj h
            exact enter_acts k hk
    | finish r =>
        cases hk : leave D r w with
        | error e =>
            rw [vaultExec, hk] at h
            exact nomatch h
        | ok w₁ =>
            rw [vaultExec, hk] at h
            obtain rfl := Option.some.inj h
            rw [leave_governance hk]
            exact .other

end CommunityVault

/-! ## The law -/

open FeeManager (FeeManagerStorage Immutables Views) in
/-- **THE TREASURY CHANGES RIGHTFULLY**, in every run of the fee manager and of
    the community vault whose proposals are timely. -/
theorem treasury_rotation (governance treasury : Address) :
    (∀ (I : Immutables) (halves : List FeeManagerHalf),
      (feeManagerRotation I).Timely
          (FeeManagerStorage.deployed governance treasury) halves →
      (feeManagerRotation I).Law
        (FeeManagerStorage.deployed governance treasury) halves) ∧
    (∀ (τ : Type) [TokenLedger.Erc20 Address EcosystemVault.Failure τ]
        (D : EcosystemVault.Deployment) (now : Nat) (native : Address → Nat)
        (tokens : Address → τ) (feeVault : LPVault.VaultStorage)
        (halves : List (VaultHalf τ)),
      (vaultRotation τ D).Timely (EcosystemVault.deployed now native tokens
          feeVault governance treasury) halves →
      (vaultRotation τ D).Law (EcosystemVault.deployed now native tokens
        feeVault governance treasury) halves) := by
  refine ⟨?_, ?_⟩
  · intro I halves htimely
    exact Rotating.law_of_timely rfl htimely
  · intro τ _ D now native tokens feeVault halves htimely
    exact Rotating.law_of_timely rfl htimely

/-- What no other contract is asked. -/
def noViews : FeeManager.Views where
  hasCode _ := false
  protocolVersionHash _ := 0
  feePolicyHash _ := 0
  feeManager _ := 0
  graduationManager _ := 0
  tokenInfo _ _ := (0, 0)
  isToken _ _ := false
  curveOf _ _ := 0
  factory _ := 0
  token _ := 0
  creator _ := 0
  initialized _ := false
  isCanonicalTreasury _ _ _ := false

/-- The owner 8 proposes the treasury 7 at one time, which accepts at
    another. -/
def rotationAt (proposed accepted : Nat) : List FeeManagerHalf :=
  [.call noViews ⟨8, 0, proposed⟩ (.proposeTreasury 7),
    .call noViews ⟨7, 0, accepted⟩ .acceptTreasury]

/-- After 48 hours the treasury changes, rightfully. -/
theorem treasury_rotation_timely :
    let M := feeManagerRotation ⟨2, 3⟩
    let s₀ := FeeManager.FeeManagerStorage.deployed 8 9
    (M.run s₀ (rotationAt 5 (5 + DELAY))).treasury = 7 ∧
    M.Rightful s₀ [.call noViews ⟨8, 0, 5⟩ (.proposeTreasury 7)]
      (.call noViews ⟨7, 0, 5 + DELAY⟩ .acceptTreasury) 7 := by
  intro M s₀
  have htreasury : (M.run s₀ (rotationAt 5 (5 + DELAY))).treasury = 7 := by
    decide +kernel
  refine ⟨htreasury, ?_⟩
  have htimely : M.Timely s₀ (rotationAt 5 (5 + DELAY)) := by
    refine ⟨Or.inr fun _ _ _ => by decide, Or.inr ?_, trivial⟩
    intro sender proposed hdeed
    cases hdeed
  have hrightful := (treasury_rotation 8 9).1 ⟨2, 3⟩ _ htimely [_] _ [] rfl
    (by decide +kernel)
  have hseats : (M.seats (M.run s₀ (rotationAt 5 (5 + DELAY)))).treasury = 7 :=
    htreasury
  exact hseats ▸ hrightful

/-- **NO WAIT AT ALL** when 48 hours from the proposal wrap around: the treasury
    is accepted in the second in which it was proposed. -/
theorem rotation_too_early :
    ¬ (feeManagerRotation ⟨2, 3⟩).Law
      (FeeManager.FeeManagerStorage.deployed 8 9)
      (rotationAt (2 ^ 64 - DELAY) (2 ^ 64 - DELAY)) := by
  intro hlaw
  obtain ⟨-, pre, p, mid, hsplit, -, -, -, htime⟩ :=
    hlaw [_] _ [] rfl (by decide +kernel)
  cases pre with
  | nil =>
      obtain ⟨rfl, -⟩ := List.cons.inj hsplit
      exact absurd htime (by decide)
  | cons q pre =>
      obtain ⟨-, hnil⟩ := List.cons.inj hsplit
      exact absurd hnil.symm (List.append_ne_nil_of_right_ne_nil _
        (List.cons_ne_nil _ _))

end TreasuryRotation
