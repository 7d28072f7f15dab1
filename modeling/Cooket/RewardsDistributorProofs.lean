import Cooket.EcosystemVaultProofs
import Cooket.MerkleProofs

/-! # The trader rewards distributor

    `TraderRewardsDistributorV3` on top of the rewards vault: governance
    publishes one Merkle root for each distribution, and whoever the tree
    lists claims once, with a proof.

    Keccak-256 and the proof check are not part of the sources.  Both are
    PARAMETERS: any function of words, and any check that accepts exactly the
    proofs whose sorted-pair hashing ends in the root.

    The claim is marked before the vault pays, and the vault pays before the
    claimant has control, so a re-entrant claimant meets the mark and both
    guards.  What the vault paid is, line by line, what the distributor
    marked (`Sound.payments`); the rest follows from the two ledgers. -/

namespace RewardsDistributor

open CheckedArith Contract LedgerSum Reentrant TokenLedger
open EcosystemVault (Deployment Failure Line Return Vault World)

/-! ## Hashes -/

/-- A 32-byte word. -/
abbrev Word := Fin (2 ^ 256)

/-- An address as `abi.encode` pads it. -/
def word (a : Address) : Word := Fin.castLE (by decide) a

/-- `keccak256` of a string of words. -/
class Keccak where
  keccak256 : List Word → Word

open Keccak

/-- An entry of a distribution. -/
structure Entitlement where
  id : Word
  claimant : Address
  amount : Word
  deriving DecidableEq, Repr

/-- What `leafHash` and `Hashes.commutativeKeccak256` hash: three words and
    two words. -/
def encoding : Merkle.Encoding Entitlement Word (List Word) where
  leaf x := [x.id, word x.claimant, x.amount]
  pair a b := [a, b]
  leaf_injective x y h := by
    obtain ⟨id, claimant, amount⟩ := x
    obtain ⟨id', claimant', amount'⟩ := y
    simp only [List.cons.injEq, and_true] at h
    obtain ⟨rfl, hclaimant, rfl⟩ := h
    rw [Fin.castLE_injective _ hclaimant]
  pair_injective a b c d h := by
    simp only [List.cons.injEq, and_true] at h
    exact h
  separated x a b h := by
    simp only [List.cons.injEq, reduceCtorEq, and_false] at h

section Hashes

variable [Keccak]

/-- `distributionId`. -/
def distributionId (epoch : Word) (launchToken asset : Address) : Word :=
  keccak256 [epoch, word launchToken, word asset]

/-- `leafHash`. -/
def leafHash (id : Word) (claimant : Address) (amount : Word) : Word :=
  keccak256 (encoding.leaf ⟨id, claimant, amount⟩)

/-- The root of a tree of `leafHash` values. -/
def merkleRoot (t : Merkle.Tree Entitlement) : Word :=
  Merkle.root encoding keccak256 t

/-- `MerkleProof.verifyCalldata`. -/
class MerkleProof where
  verifyCalldata : List Word → Word → Word → Bool
  verifyCalldata_iff : ∀ proof root leaf,
    verifyCalldata proof root leaf = true
      ↔ Merkle.processProof encoding keccak256 proof leaf = root

end Hashes

/-- The check as documented. -/
@[reducible] def sortedPairProof [Keccak] : MerkleProof where
  verifyCalldata proof root leaf :=
    Merkle.processProof encoding keccak256 proof leaf == root
  verifyCalldata_iff _ _ _ := beq_iff_eq

/-! ## State -/

/-- The storage of the distributor. -/
structure DistributorStorage where
  entered : Bool
  owner : Address
  pendingOwner : Address
  roots : Word → Word
  claimed : Word → Address → Bool

/-- A claim that was marked. -/
structure Claim where
  id : Word
  epoch : Word
  launchToken : Address
  asset : Address
  claimant : Address
  amount : Word
  proof : List Word
  deriving DecidableEq, Repr

/-- The vaults, the distributor, and the claims marked so far. -/
structure State (τ : Type) where
  world : World τ
  storage : DistributorStorage
  claims : List Claim

variable {τ : Type}

section Functions

variable [Keccak] [MerkleProof] [Erc20 Address Failure τ] (D : Deployment)

open MerkleProof

/-- `publishRoot`. -/
def publishRoot (s : DistributorStorage) (sender : Address) (epoch : Word)
    (launchToken asset : Address) (root : Word) :
    Except Failure DistributorStorage := do
  revertIf (sender ≠ s.owner) .ownableUnauthorizedAccount
  revertIf (launchToken = 0) (.distributor .invalidToken)
  revertIf (root = 0) (.distributor .invalidRoot)
  let id := distributionId epoch launchToken asset
  revertIf (s.roots id ≠ 0) (.distributor .distributionAlreadyPublished)
  pure { s with roots := Function.update s.roots id root }

/-- `claim`, up to the moment the claimant has control. -/
def claim (s : State τ) (sender : Address) (epoch : Word)
    (launchToken asset : Address) (amount : Word) (proof : List Word) :
    Except Failure (State τ) := do
  let st := s.storage
  revertIf (st.entered = true) .reentrantCall
  revertIf (amount = 0) (.distributor .invalidAmount)
  let id := distributionId epoch launchToken asset
  let root := st.roots id
  revertIf (root = 0) (.distributor .distributionNotPublished)
  revertIf (st.claimed id sender = true) (.distributor .alreadyClaimed)
  revertIf (verifyCalldata proof root (leafHash id sender amount) = false)
    (.distributor .invalidMerkleProof)
  let st := { st with
    entered := true
    claimed := Function.update st.claimed id
      (Function.update (st.claimed id) sender true) }
  let world ← EcosystemVault.payout D s.world D.distributor launchToken asset
    sender amount
  pure
    { world
      storage := st
      claims := s.claims
        ++ [⟨id, epoch, launchToken, asset, sender, amount, proof⟩] }

/-- `transferOwnership`, `acceptOwnership` and `renounceOwnership` of
    `Ownable2Step`. -/
def transferOwnership (s : DistributorStorage) (sender newOwner : Address) :
    Except Failure DistributorStorage := do
  revertIf (sender ≠ s.owner) .ownableUnauthorizedAccount
  pure { s with pendingOwner := newOwner }

def acceptOwnership (s : DistributorStorage) (sender : Address) :
    Except Failure DistributorStorage := do
  revertIf (sender ≠ s.pendingOwner) .ownableUnauthorizedAccount
  pure { s with owner := sender, pendingOwner := 0 }

def renounceOwnership (s : DistributorStorage) (sender : Address) :
    Except Failure DistributorStorage := do
  revertIf (sender ≠ s.owner) .ownableUnauthorizedAccount
  pure { s with owner := 0, pendingOwner := 0 }

/-- What can happen. -/
inductive Call (τ : Type) where
  | publishRoot (sender : Address) (epoch : Word)
      (launchToken asset : Address) (root : Word)
  | claim (sender : Address) (epoch : Word) (launchToken asset : Address)
      (amount : Word) (proof : List Word)
  | transferOwnership (sender newOwner : Address)
  | acceptOwnership (sender : Address)
  | renounceOwnership (sender : Address)
  | vaults (k : EcosystemVault.Call τ)

/-- What the second half of a call needs. -/
inductive Rest where
  | done
  | claimed
  | vaults (r : Return)
  deriving DecidableEq, Repr

/-- Whether a call is a payout that `a` asks the rewards vault for. -/
def payoutBy (a : Address) : EcosystemVault.Call τ → Bool
  | .payout sender _ _ _ _ => sender == a
  | _ => false

/-- The first half of every call.  The distributor asks for a payout from its
    `claim` only. -/
def enter (s : State τ) : Call τ → Except Failure (Entry (State τ) Rest)
  | .publishRoot sender epoch launchToken asset root => do
      let storage ← publishRoot s.storage sender epoch launchToken asset root
      pure ⟨{ s with storage }, false, .done⟩
  | .claim sender epoch launchToken asset amount proof => do
      let s ← claim D s sender epoch launchToken asset amount proof
      pure ⟨s, true, .claimed⟩
  | .transferOwnership sender newOwner => do
      let storage ← transferOwnership s.storage sender newOwner
      pure ⟨{ s with storage }, false, .done⟩
  | .acceptOwnership sender => do
      let storage ← acceptOwnership s.storage sender
      pure ⟨{ s with storage }, false, .done⟩
  | .renounceOwnership sender => do
      let storage ← renounceOwnership s.storage sender
      pure ⟨{ s with storage }, false, .done⟩
  | .vaults k => do
      revertIf (payoutBy D.distributor k = true) .impossibleSender
      let e ← EcosystemVault.enter D s.world k
      pure ⟨{ s with world := e.state }, e.yields, .vaults e.ret⟩

/-- The second half of every call. -/
def leave (r : Rest) (s : State τ) : Except Failure (State τ) :=
  match r with
  | .done => pure s
  | .claimed => do
      let world ← EcosystemVault.leave D (.paid .rewards) s.world
      pure { s with world, storage := { s.storage with entered := false } }
  | .vaults r => do
      let world ← EcosystemVault.leave D r s.world
      pure { s with world }

/-- The entry points of the distributor and of the vaults. -/
def entries : Fallible (State τ) (Call τ) Rest Failure where
  enter k s := enter D s k
  leave := leave D

/-- … as a machine. -/
def machine : Machine (State τ) (Call τ) (State τ × Rest) Failure :=
  (entries D).machine

end Functions

/-- The state after deployment. -/
def deployed (now : Nat) (native : Address → Nat) (tokens : Address → τ)
    (feeVault : LPVault.VaultStorage) (governance treasury : Address) :
    State τ where
  world := EcosystemVault.deployed now native tokens feeVault governance
    treasury
  storage := ⟨false, governance, 0, fun _ => 0, fun _ _ => false⟩
  claims := []

/-! ## What was funded and what was paid -/

/-- A payment of the rewards vault. -/
structure Payment where
  launchToken : Address
  asset : Address
  claimant : Address
  amount : Nat
  deriving DecidableEq, Repr

/-- The payment a line of the journal is. -/
def payment? : Line → Option Payment
  | .paid launchToken asset claimant amount =>
      some ⟨launchToken, asset, claimant, amount⟩
  | _ => none

/-- All payments of the rewards vault, in order. -/
def payments (w : World τ) : List Payment := w.journal.filterMap payment?

/-- The payment a claim asks for. -/
def Claim.payment (c : Claim) : Payment :=
  ⟨c.launchToken, c.asset, c.claimant, c.amount⟩

/-- How much of an asset a line pays out of a token's rewards. -/
def paidBy (launchToken asset : Address) : Line → Nat
  | .paid t a _ amount => if launchToken = t ∧ asset = a then amount else 0
  | _ => 0

/-- How much of an asset a line adds to a token's rewards. -/
def fundedBy (launchToken asset : Address) : Line → Nat
  | .funded .rewards t a amount =>
      if launchToken = t ∧ asset = a then amount else 0
  | _ => 0

/-- The total paid for a token, in an asset. -/
def totalPaid (w : World τ) (launchToken asset : Address) : Nat :=
  (w.journal.map (paidBy launchToken asset)).sum

/-- The total funded for a token, in an asset. -/
def totalFunded (w : World τ) (launchToken asset : Address) : Nat :=
  (w.journal.map (fundedBy launchToken asset)).sum

/-- What was funded was paid or is still booked. -/
def Accounted (w : World τ) : Prop :=
  ∀ launchToken asset,
    (w.books .rewards).accrued launchToken asset
        + totalPaid w launchToken asset
      = totalFunded w launchToken asset

/-- Nothing the distributor relies on was undone in the vaults, and nobody was
    paid. -/
structure Kept (D : Deployment) (w w' : World τ) : Prop where
  accounted : Accounted w → Accounted w'
  payments : payments w' = payments w
  wired : w.distributor = 0 ∨ w.distributor = D.distributor →
    w'.distributor = 0 ∨ w'.distributor = D.distributor

section Vaults

variable {D : Deployment} {w w' : World τ} {l : Line}

/-- One more line, and the books moved accordingly. -/
theorem accounted_concat (hjournal : w'.journal = w.journal ++ [l])
    (hbooks : ∀ launchToken asset,
      (w'.books .rewards).accrued launchToken asset
          + paidBy launchToken asset l
        = (w.books .rewards).accrued launchToken asset
          + fundedBy launchToken asset l)
    (h : Accounted w) : Accounted w' := by
  intro launchToken asset
  have hw := h launchToken asset
  have hmoved := hbooks launchToken asset
  simp only [totalPaid, totalFunded, hjournal, List.map_append,
    List.sum_append, List.map_singleton, List.sum_singleton] at hw ⊢
  omega

theorem payments_concat (hjournal : w'.journal = w.journal ++ [l]) :
    payments w' = payments w ++ (payment? l).toList := by
  rw [payments, hjournal, List.filterMap_append]
  cases hl : payment? l with
  | none => rw [List.filterMap_cons_none hl]; rfl
  | some p => rw [List.filterMap_cons_some hl]; rfl

theorem payments_paid {launchToken asset claimant : Address} {amount : Nat}
    (hjournal : w'.journal
      = w.journal ++ [.paid launchToken asset claimant amount]) :
    payments w' = payments w ++ [⟨launchToken, asset, claimant, amount⟩] :=
  payments_concat hjournal

/-- Neither the books nor the journal changed. -/
theorem Kept.of_same (hjournal : w'.journal = w.journal)
    (hbooks : (w'.books .rewards).accrued = (w.books .rewards).accrued)
    (hdistributor : w'.distributor = w.distributor
      ∨ w'.distributor = D.distributor) : Kept D w w' where
  accounted h := by
    intro launchToken asset
    rw [totalPaid, totalFunded, hjournal, hbooks]
    exact h launchToken asset
  payments := by
    show w'.journal.filterMap payment? = w.journal.filterMap payment?
    rw [hjournal]
  wired h := by
    rcases hdistributor with hsame | hset
    · rw [hsame]
      exact h
    · exact Or.inr hset

/-- A line that pays nobody from the rewards, with its booking. -/
theorem Kept.of_line (hjournal : w'.journal = w.journal ++ [l])
    (hnone : payment? l = none)
    (hbooks : ∀ launchToken asset,
      (w'.books .rewards).accrued launchToken asset
          + paidBy launchToken asset l
        = (w.books .rewards).accrued launchToken asset
          + fundedBy launchToken asset l)
    (hdistributor : w'.distributor = w.distributor) : Kept D w w' where
  accounted := accounted_concat hjournal hbooks
  payments := by
    rw [payments_concat hjournal, hnone]
    exact List.append_nil _
  wired h := by
    rw [hdistributor]
    exact h

/-- A credit of either vault, as the rewards vault sees it. -/
theorem accrued_credit (v : Vault) (t a : Address) (n total : Nat)
    (launchToken asset : Address) :
    ((w.setBooks v (EcosystemVault.written (w.books v) t a
        ((w.books v).accrued t a + n) total)).books .rewards).accrued
          launchToken asset
      = (w.books .rewards).accrued launchToken asset
        + fundedBy launchToken asset (.funded v t a n) := by
  cases v with
  | community => rfl
  | rewards =>
      show update₂ (w.books .rewards).accrued t a
        ((w.books .rewards).accrued t a + n) launchToken asset
          = _ + if launchToken = t ∧ asset = a then n else 0
      rw [update₂_apply]
      split
      · rename_i heq
        rw [heq.1, heq.2]
      · rfl

section Calls

variable [Erc20 Address Failure τ] {v : Vault}
  {sender launchToken asset claimant : Address} {value amount : Nat}

omit [Erc20 Address Failure τ] in
theorem deposit_kept
    (h : EcosystemVault.deposit D w v sender launchToken value = .ok w') :
    Kept D w w' := by
  obtain ⟨-, rfl⟩ := EcosystemVault.deposit_ok h
  refine Kept.of_line rfl rfl ?_ rfl
  intro t a
  exact accrued_credit _ _ _ _ _ _ _

theorem recordERC20Funding_kept
    (h : EcosystemVault.recordERC20Funding D w v sender launchToken asset
      amount = .ok w') : Kept D w w' := by
  obtain ⟨-, -, -, rfl⟩ := EcosystemVault.recordERC20Funding_ok h
  refine Kept.of_line rfl rfl ?_ rfl
  intro t a
  exact accrued_credit _ _ _ _ _ _ _

theorem fund_kept {first : World τ × Nat × Nat}
    (h : EcosystemVault.fund D w v launchToken asset = .ok first) :
    Kept D w first.1 := by
  obtain ⟨tokens, feeVault, hfirst⟩ := EcosystemVault.fund_ok h
  rw [hfirst]
  exact Kept.of_same rfl rfl (Or.inl rfl)

theorem fundRest_kept {balanceBefore : Nat}
    (h : EcosystemVault.fundRest D w v launchToken asset amount
      balanceBefore = .ok w') : Kept D w w' := by
  obtain ⟨feeVault, rfl⟩ := EcosystemVault.fundRest_ok h
  refine Kept.of_line rfl rfl ?_ rfl
  intro t a
  exact accrued_credit _ _ _ _ _ _ _

theorem forwardToTreasury_kept
    (h : EcosystemVault.forwardToTreasury D w launchToken asset = .ok w') :
    Kept D w w' := by
  obtain ⟨amount, tokens, -, -, rfl⟩ := EcosystemVault.forwardToTreasury_ok h
  refine Kept.of_line rfl rfl ?_ rfl
  intro t a
  rfl

omit [Erc20 Address Failure τ] in
theorem setPermanentLPFeeVaultOnce_kept {vault : Address}
    (h : EcosystemVault.setPermanentLPFeeVaultOnce D w v sender vault
      = .ok w') : Kept D w w' := by
  cases v with
  | community =>
      simp only [EcosystemVault.setPermanentLPFeeVaultOnce,
        EcosystemVault.setCommunityFeeVaultOnce, bind_ok, revertIf_ok,
        pure_ok] at h
      obtain ⟨_, -, _, -, _, -, rfl⟩ := h
      exact Kept.of_same rfl rfl (Or.inl rfl)
  | rewards =>
      simp only [EcosystemVault.setPermanentLPFeeVaultOnce,
        EcosystemVault.setRewardsFeeVaultOnce, bind_ok, revertIf_ok,
        pure_ok] at h
      obtain ⟨_, -, _, -, _, -, rfl⟩ := h
      unfold EcosystemVault.consumeBootstrapIfComplete
      split
      · exact Kept.of_same rfl rfl (Or.inl rfl)
      · exact Kept.of_same rfl rfl (Or.inl rfl)

omit [Erc20 Address Failure τ] in
theorem setDistributorOnce_kept {distributor : Address}
    (h : EcosystemVault.setDistributorOnce D w sender distributor
      = .ok w') : Kept D w w' := by
  simp only [EcosystemVault.setDistributorOnce, bind_ok, revertIf_ok,
    pure_ok, not_or, Bool.not_eq_false] at h
  obtain ⟨_, -, _, -, _, ⟨-, hanswers⟩, rfl⟩ := h
  have hset := D.distributor_unique _ hanswers
  unfold EcosystemVault.consumeBootstrapIfComplete
  split
  · exact Kept.of_same rfl rfl (Or.inr hset)
  · exact Kept.of_same rfl rfl (Or.inr hset)

/-- **FIRST HALVES OF THE VAULTS' CALLS**: nobody is paid behind the back of
    the distributor. -/
theorem enter_kept {k : EcosystemVault.Call τ} {e : Entry (World τ) Return}
    (hwired : w.distributor = 0 ∨ w.distributor = D.distributor)
    (hk : ¬ payoutBy D.distributor k = true)
    (h : EcosystemVault.enter D w k = .ok e) : Kept D w e.state := by
  cases k with
  | depositNative v sender launchToken value =>
      simp only [EcosystemVault.enter, bind_ok, pure_ok] at h
      obtain ⟨w', hw', rfl⟩ := h
      exact deposit_kept hw'
  | recordERC20Funding v sender launchToken asset amount =>
      simp only [EcosystemVault.enter, bind_ok, pure_ok] at h
      obtain ⟨_, -, w', hw', rfl⟩ := h
      exact recordERC20Funding_kept hw'
  | fundCommunityVault launchToken asset =>
      simp only [EcosystemVault.enter, bind_ok, pure_ok] at h
      obtain ⟨first, hfirst, rfl⟩ := h
      exact fund_kept hfirst
  | fundTraderRewardsVault launchToken asset =>
      simp only [EcosystemVault.enter, bind_ok, pure_ok] at h
      obtain ⟨first, hfirst, rfl⟩ := h
      exact fund_kept hfirst
  | forwardToTreasury launchToken asset =>
      simp only [EcosystemVault.enter, bind_ok, pure_ok] at h
      obtain ⟨w', hw', rfl⟩ := h
      exact forwardToTreasury_kept hw'
  | payout sender launchToken asset claimant amount =>
      -- only the wired distributor is let in, and it does not ask here
      simp only [EcosystemVault.enter, bind_ok, pure_ok] at h
      obtain ⟨w', hw', rfl⟩ := h
      obtain ⟨hsender, hset, -⟩ := EcosystemVault.payout_ok hw'
      rcases hwired with hzero | hcanonical
      · exact absurd hzero hset
      · have hby : payoutBy D.distributor (.payout sender launchToken asset
            claimant amount : EcosystemVault.Call τ) = true := by
          rw [payoutBy, hsender, hcanonical]
          exact beq_self_eq_true _
        exact absurd hby hk
  | setPermanentLPFeeVaultOnce v sender vault =>
      simp only [EcosystemVault.enter, bind_ok, pure_ok] at h
      obtain ⟨w', hw', rfl⟩ := h
      exact setPermanentLPFeeVaultOnce_kept hw'
  | setDistributorOnce sender distributor =>
      simp only [EcosystemVault.enter, bind_ok, pure_ok] at h
      obtain ⟨w', hw', rfl⟩ := h
      exact setDistributorOnce_kept hw'
  | proposeTreasury sender proposedTreasury =>
      simp only [EcosystemVault.enter, bind_ok, pure_ok] at h
      obtain ⟨g, -, rfl⟩ := h
      exact Kept.of_same rfl rfl (Or.inl rfl)
  | acceptTreasury sender =>
      simp only [EcosystemVault.enter, bind_ok, pure_ok] at h
      obtain ⟨g, -, rfl⟩ := h
      exact Kept.of_same rfl rfl (Or.inl rfl)
  | cancelTreasuryProposal sender =>
      simp only [EcosystemVault.enter, bind_ok, pure_ok] at h
      obtain ⟨g, -, rfl⟩ := h
      exact Kept.of_same rfl rfl (Or.inl rfl)
  | transferOwnership sender newOwner =>
      simp only [EcosystemVault.enter, bind_ok, pure_ok] at h
      obtain ⟨g, -, rfl⟩ := h
      exact Kept.of_same rfl rfl (Or.inl rfl)
  | acceptOwnership sender =>
      simp only [EcosystemVault.enter, bind_ok, pure_ok] at h
      obtain ⟨g, -, rfl⟩ := h
      exact Kept.of_same rfl rfl (Or.inl rfl)
  | renounceOwnership sender =>
      simp only [EcosystemVault.enter, bind_ok, pure_ok] at h
      obtain ⟨g, -, rfl⟩ := h
      exact Kept.of_same rfl rfl (Or.inl rfl)
  | elsewhere now native tokens feeVault =>
      simp only [EcosystemVault.enter, EcosystemVault.elsewhere, bind_ok,
        revertIf_ok, pure_ok] at h
      obtain ⟨w', ⟨_, -, rfl⟩, rfl⟩ := h
      exact Kept.of_same rfl rfl (Or.inl rfl)

/-- … and second halves. -/
theorem leave_kept {r : Return}
    (h : EcosystemVault.leave D r w = .ok w') : Kept D w w' := by
  cases r with
  | done =>
      obtain rfl := Except.ok.inj h
      exact Kept.of_same rfl rfl (Or.inl rfl)
  | paid v =>
      obtain rfl := Except.ok.inj h
      cases v with
      | community => exact Kept.of_same rfl rfl (Or.inl rfl)
      | rewards => exact Kept.of_same rfl rfl (Or.inl rfl)
  | funded v launchToken asset amount balanceBefore =>
      exact fundRest_kept h

/-- A payout is one payment, out of what was booked for it. -/
theorem payout_pays
    (h : EcosystemVault.payout D w sender launchToken asset claimant amount
      = .ok w') :
    (Accounted w → Accounted w')
      ∧ payments w' = payments w ++ [⟨launchToken, asset, claimant, amount⟩]
      ∧ w'.distributor = w.distributor := by
  obtain ⟨-, -, hentry, -, tokens, rfl⟩ := EcosystemVault.payout_ok h
  refine ⟨accounted_concat rfl ?_, payments_paid rfl, rfl⟩
  intro t a
  show update₂ (w.books .rewards).accrued launchToken asset
      ((w.books .rewards).accrued launchToken asset - amount) t a
      + (if t = launchToken ∧ a = asset then amount else 0)
    = (w.books .rewards).accrued t a + 0
  rw [update₂_apply]
  split
  · rename_i heq
    rw [heq.1, heq.2]
    omega
  · omega

end Calls

end Vaults

/-! ## The invariant -/

section Run

variable [Keccak] [MerkleProof] [Erc20 Address Failure τ] {D : Deployment}
  {s s' : State τ}

open MerkleProof

/-- A claim was checked against the root published for its distribution. -/
structure Verified (roots : Word → Word) (c : Claim) : Prop where
  id : c.id = distributionId c.epoch c.launchToken c.asset
  published : roots c.id ≠ 0
  proved : verifyCalldata c.proof (roots c.id)
    (leafHash c.id c.claimant c.amount) = true

/-- **THE INVARIANT**: what the rewards vault was given it paid or still
    books, it paid exactly the claims that were marked, and no pair of a
    distribution and a claimant was marked twice. -/
structure Sound (D : Deployment) (s : State τ) : Prop where
  wired : s.world.distributor = 0 ∨ s.world.distributor = D.distributor
  accounted : Accounted s.world
  payments : payments s.world = s.claims.map Claim.payment
  marked : ∀ c ∈ s.claims, s.storage.claimed c.id c.claimant = true
  once : (s.claims.map fun c => (c.id, c.claimant)).Nodup
  verified : ∀ c ∈ s.claims, Verified s.storage.roots c

/-- From a sound state the state stays sound, and no published root
    changes. -/
def Later (D : Deployment) (s s' : State τ) : Prop :=
  (Sound D s → Sound D s')
    ∧ ∀ id, s.storage.roots id ≠ 0 → s'.storage.roots id = s.storage.roots id

omit [Erc20 Address Failure τ] in
theorem Later.refl : Later D s s := ⟨fun h => h, fun _ _ => rfl⟩

omit [Erc20 Address Failure τ] in
theorem Later.trans {s'' : State τ} (h : Later D s s')
    (h' : Later D s' s'') : Later D s s'' := by
  refine ⟨fun hs => h'.1 (h.1 hs), ?_⟩
  intro id hid
  have hsame := h.2 id hid
  rw [← hsame] at hid
  rw [h'.2 id hid, hsame]

omit [Erc20 Address Failure τ] in
/-- The vaults went on, the distributor did not. -/
theorem later_of_kept
    (hkept : s.world.distributor = 0
        ∨ s.world.distributor = D.distributor →
      Kept D s.world s'.world)
    (hroots : s'.storage.roots = s.storage.roots)
    (hclaimed : s'.storage.claimed = s.storage.claimed)
    (hclaims : s'.claims = s.claims) : Later D s s' := by
  refine ⟨?_, ?_⟩
  · intro hs
    obtain ⟨haccounted, hpayments, hwired⟩ := hkept hs.wired
    refine ⟨hwired hs.wired, haccounted hs.accounted, ?_, ?_, ?_, ?_⟩
    · rw [hpayments, hclaims]
      exact hs.payments
    · rw [hclaims, hclaimed]
      exact hs.marked
    · rw [hclaims]
      exact hs.once
    · rw [hclaims, hroots]
      exact hs.verified
  · intro id _
    rw [hroots]

omit [Erc20 Address Failure τ] in
/-- A step of the ownership. -/
theorem later_of_roots {storage : DistributorStorage}
    (hroots : storage.roots = s.storage.roots)
    (hclaimed : storage.claimed = s.storage.claimed) :
    Later D s { s with storage } :=
  later_of_kept (fun _ => Kept.of_same rfl rfl (Or.inl rfl)) hroots hclaimed
    rfl

omit [Erc20 Address Failure τ] in
/-- **PUBLISHING** writes a root where there was none. -/
theorem publishRoot_later {sender : Address} {epoch : Word}
    {launchToken asset : Address} {root : Word} {storage : DistributorStorage}
    (h : publishRoot s.storage sender epoch launchToken asset root
      = .ok storage) : Later D s { s with storage } := by
  simp only [publishRoot, bind_ok, revertIf_ok, pure_ok, ne_eq,
    Decidable.not_not] at h
  obtain ⟨_, -, _, -, _, -, _, hnone, rfl⟩ := h
  have hroots : ∀ id, s.storage.roots id ≠ 0 →
      Function.update s.storage.roots (distributionId epoch launchToken
        asset) root id = s.storage.roots id := by
    intro id hid
    refine Function.update_of_ne ?_ _ _
    rintro rfl
    exact hid hnone
  refine ⟨?_, hroots⟩
  intro hs
  refine ⟨hs.wired, hs.accounted, hs.payments, hs.marked, hs.once, ?_⟩
  intro c hc
  obtain ⟨hid, hpublished, hproved⟩ := hs.verified c hc
  refine ⟨hid, ?_, ?_⟩
  · show Function.update s.storage.roots _ root c.id ≠ 0
    rw [hroots _ hpublished]
    exact hpublished
  · show verifyCalldata c.proof (Function.update s.storage.roots _ root c.id)
      _ = true
    rw [hroots _ hpublished]
    exact hproved

/-- What a claim that gets as far as the payment found and did. -/
theorem claim_ok {sender : Address} {epoch : Word}
    {launchToken asset : Address} {amount : Word} {proof : List Word}
    (h : claim D s sender epoch launchToken asset amount proof = .ok s') :
    ∃ id, id = distributionId epoch launchToken asset
      ∧ s.storage.roots id ≠ 0 ∧ s.storage.claimed id sender = false
      ∧ verifyCalldata proof (s.storage.roots id)
          (leafHash id sender amount) = true
      ∧ EcosystemVault.payout D s.world D.distributor launchToken asset sender
          amount = .ok s'.world
      ∧ s'.storage = { s.storage with
          entered := true
          claimed := Function.update s.storage.claimed id
            (Function.update (s.storage.claimed id) sender true) }
      ∧ s'.claims = s.claims
          ++ [⟨id, epoch, launchToken, asset, sender, amount, proof⟩] := by
  simp only [claim, bind_ok, revertIf_ok, pure_ok, Bool.not_eq_true,
    Bool.not_eq_false] at h
  obtain ⟨_, -, _, -, _, hroot, _, hclaimed, _, hproof, w, hpayout, rfl⟩ := h
  exact ⟨_, rfl, hroot, hclaimed, hproof, hpayout, rfl, rfl⟩

/-- **A CLAIM** marks a pair that was not marked, and the vault pays it. -/
theorem claim_later {sender : Address} {epoch : Word}
    {launchToken asset : Address} {amount : Word} {proof : List Word}
    (h : claim D s sender epoch launchToken asset amount proof = .ok s') :
    Later D s s' := by
  obtain ⟨id, hid, hroot, hfree, hproof, hpayout, hstorage, hclaims⟩ :=
    claim_ok h
  have hroots : s'.storage.roots = s.storage.roots := by
    rw [hstorage]
  refine ⟨?_, ?_⟩
  · intro hs
    obtain ⟨haccounted, hpayments, hdistributor⟩ := payout_pays hpayout
    refine ⟨?_, haccounted hs.accounted, ?_, ?_, ?_, ?_⟩
    · rw [hdistributor]
      exact hs.wired
    · rw [hpayments, hs.payments, hclaims, List.map_append]
      rfl
    · -- marks are only added
      intro c hc
      rw [hclaims, List.mem_append] at hc
      show s'.storage.claimed c.id c.claimant = true
      rw [hstorage]
      show Function.update s.storage.claimed id
        (Function.update (s.storage.claimed id) sender true) c.id c.claimant
          = true
      by_cases hcid : c.id = id
      · rw [hcid, Function.update_self]
        by_cases hcs : c.claimant = sender
        · rw [hcs, Function.update_self]
        · rw [Function.update_of_ne hcs]
          rcases hc with hold | hnew
          · rw [← hcid]
            exact hs.marked c hold
          · obtain rfl := List.mem_singleton.mp hnew
            exact absurd rfl hcs
      · rw [Function.update_of_ne hcid]
        rcases hc with hold | hnew
        · exact hs.marked c hold
        · obtain rfl := List.mem_singleton.mp hnew
          exact absurd rfl hcid
    · rw [hclaims, List.map_append]
      refine List.Nodup.append hs.once (List.nodup_singleton _) ?_
      intro pair hold hnew
      obtain ⟨c, hc, hpair⟩ := List.mem_map.mp hold
      have hsame : (c.id, c.claimant) = (id, sender) :=
        hpair.trans (List.mem_singleton.mp hnew)
      have hmarked := hs.marked c hc
      rw [(Prod.mk.inj hsame).1, (Prod.mk.inj hsame).2, hfree] at hmarked
      exact Bool.false_ne_true hmarked
    · intro c hc
      rw [hclaims, List.mem_append] at hc
      rw [hroots]
      rcases hc with hold | hnew
      · exact hs.verified c hold
      · obtain rfl := List.mem_singleton.mp hnew
        exact ⟨hid, hroot, hproof⟩
  · intro i _
    rw [hroots]

omit [Keccak] [MerkleProof] in
/-- The second half of a claim lifts the guards. -/
theorem leave_kept_world {r : Rest} (h : leave D r s = .ok s') :
    Kept D s.world s'.world ∧ s'.storage.roots = s.storage.roots
      ∧ s'.storage.claimed = s.storage.claimed ∧ s'.claims = s.claims := by
  cases r with
  | done =>
      obtain rfl := Except.ok.inj h
      exact ⟨Kept.of_same rfl rfl (Or.inl rfl), rfl, rfl, rfl⟩
  | claimed =>
      simp only [leave, bind_ok, pure_ok] at h
      obtain ⟨world, hworld, rfl⟩ := h
      exact ⟨leave_kept hworld, rfl, rfl, rfl⟩
  | vaults r =>
      simp only [leave, bind_ok, pure_ok] at h
      obtain ⟨world, hworld, rfl⟩ := h
      exact ⟨leave_kept hworld, rfl, rfl, rfl⟩

/-- First halves of all calls. -/
theorem enter_later (k : Call τ) {e : Entry (State τ) Rest}
    (h : enter D s k = .ok e) : Later D s e.state := by
  cases k with
  | publishRoot sender epoch launchToken asset root =>
      simp only [enter, bind_ok, pure_ok] at h
      obtain ⟨storage, hstorage, rfl⟩ := h
      exact publishRoot_later hstorage
  | claim sender epoch launchToken asset amount proof =>
      simp only [enter, bind_ok, pure_ok] at h
      obtain ⟨s', hs', rfl⟩ := h
      exact claim_later hs'
  | transferOwnership sender newOwner =>
      simp only [enter, transferOwnership, bind_ok, revertIf_ok,
        pure_ok] at h
      obtain ⟨storage, ⟨_, -, rfl⟩, rfl⟩ := h
      exact later_of_roots rfl rfl
  | acceptOwnership sender =>
      simp only [enter, acceptOwnership, bind_ok, revertIf_ok, pure_ok] at h
      obtain ⟨storage, ⟨_, -, rfl⟩, rfl⟩ := h
      exact later_of_roots rfl rfl
  | renounceOwnership sender =>
      simp only [enter, renounceOwnership, bind_ok, revertIf_ok,
        pure_ok] at h
      obtain ⟨storage, ⟨_, -, rfl⟩, rfl⟩ := h
      exact later_of_roots rfl rfl
  | vaults k =>
      simp only [enter, bind_ok, revertIf_ok, pure_ok] at h
      obtain ⟨_, hk, e', he', rfl⟩ := h
      exact later_of_kept (fun hwired => enter_kept hwired hk he') rfl rfl rfl

/-- **EVERY CALL IS COVERED**, whatever its callee did in between. -/
theorem covers_later : (entries (τ := τ) D).Covers (Later D) := by
  intro k s e h
  have hfirst := enter_later k h
  refine ⟨hfirst, ?_⟩
  intro s' s'' hbetween hleave
  obtain ⟨hkept, hroots, hclaimed, hclaims⟩ := leave_kept_world hleave
  exact (hfirst.trans hbetween).trans
    (later_of_kept (fun _ => hkept) hroots hclaimed hclaims)

theorem observable_later (h : (machine D).Observable s s') : Later D s s' :=
  covers_later.observable (fun _ => Later.refl)
    (fun _ _ _ h h' => h.trans h') h

omit [MerkleProof] [Erc20 Address Failure τ] in
theorem sound_deployed {now : Nat} {native : Address → Nat}
    {tokens : Address → τ} {feeVault : LPVault.VaultStorage}
    {governance treasury : Address} [MerkleProof] :
    Sound D (deployed now native tokens feeVault governance treasury) where
  wired := Or.inl rfl
  accounted _ _ := rfl
  payments := rfl
  marked _ h := absurd h List.not_mem_nil
  once := List.nodup_nil
  verified _ h := absurd h List.not_mem_nil

/-! ## The tree -/

omit [Erc20 Address Failure τ] in
/-- A checked entry is an entry of the tree whose root it was checked
    against. -/
theorem mem_of_verified {t : Merkle.Tree Entitlement} {x : Entitlement}
    {proof : List Word}
    (hfree : Merkle.CollisionFree encoding Keccak.keccak256 t x proof)
    (h : verifyCalldata proof (merkleRoot t)
      (leafHash x.id x.claimant x.amount) = true) : x ∈ t.members :=
  Merkle.mem_of_processProof proof t hfree ((verifyCalldata_iff _ _ _).mp h)

omit [Erc20 Address Failure τ] in
/-- Whoever a tree lists has a proof that is accepted. -/
theorem exists_verified (t : Merkle.Tree Entitlement) {x : Entitlement}
    (h : x ∈ t.members) :
    ∃ proof, verifyCalldata proof (merkleRoot t)
      (leafHash x.id x.claimant x.amount) = true := by
  obtain ⟨proof, hproof⟩ :=
    @Merkle.exists_proof _ Word _ _ encoding Keccak.keccak256 t x h
  exact ⟨proof, (verifyCalldata_iff _ _ _).mpr hproof⟩

/-! ## The law -/

/-- **THE REWARDS LAW.**  Wherever somebody else has control: what the rewards
    vault paid are the claims that were marked, each pair of a distribution
    and a claimant once, each a member of every tree with the published root
    that the hash does not collide on; and no more was paid for a token in an
    asset than was funded.  A published root never changes.  A claim that
    fails, its callee's failure included, changes nothing. -/
theorem rewards_law (D : Deployment) (now : Nat) (native : Address → Nat)
    (tokens : Address → τ) (feeVault : LPVault.VaultStorage)
    (governance treasury : Address) :
    (∀ s, (machine D).Observable
        (deployed now native tokens feeVault governance treasury) s →
      payments s.world = s.claims.map Claim.payment
      ∧ (s.claims.map fun c => (c.id, c.claimant)).Nodup
      ∧ (∀ c ∈ s.claims,
          c.id = distributionId c.epoch c.launchToken c.asset
          ∧ ∀ t, s.storage.roots c.id = merkleRoot t →
            Merkle.CollisionFree encoding Keccak.keccak256 t
              ⟨c.id, c.claimant, c.amount⟩ c.proof →
            ⟨c.id, c.claimant, c.amount⟩ ∈ t.members)
      ∧ ∀ launchToken asset,
          totalPaid s.world launchToken asset
            ≤ totalFunded s.world launchToken asset) ∧
    (∀ s s' : State τ, (machine D).Observable s s' →
      ∀ id, s.storage.roots id ≠ 0 →
        s'.storage.roots id = s.storage.roots id) ∧
    (∀ sender epoch launchToken asset amount proof callback (s : State τ),
      (∀ e, enter D s (.claim sender epoch launchToken asset amount proof)
          = .ok e → (machine D).run callback e.state = none) →
      (machine D).transact (.claim sender epoch launchToken asset amount
        proof) callback s = s) := by
  refine ⟨?_, ?_, ?_⟩
  · intro s hs
    have hsound := (observable_later hs).1 sound_deployed
    refine ⟨hsound.payments, hsound.once, ?_, ?_⟩
    · intro c hc
      obtain ⟨hid, -, hproved⟩ := hsound.verified c hc
      refine ⟨hid, ?_⟩
      intro t hroot hfree
      rw [hroot] at hproved
      exact mem_of_verified hfree hproved
    · intro launchToken asset
      have h := hsound.accounted launchToken asset
      omega
  · intro s s' hs
    exact (observable_later hs).2
  · intro sender epoch launchToken asset amount proof callback s hfails
    refine Fallible.transact_fails ?_
    intro e he
    refine ⟨?_, hfails e he⟩
    have he' : enter D s (.claim sender epoch launchToken asset amount proof)
        = .ok e := he
    simp only [enter, bind_ok, pure_ok] at he'
    obtain ⟨s', -, rfl⟩ := he'
    rfl

end Run

/-! ## One distribution -/

/-- Keccak-256 on the words of one small distribution. -/
@[reducible] def knownHashes : Keccak where
  keccak256 words :=
    if words = [1, 0x70, 0] then
      0x3d9b5e34569fd1b6b4b43bfc21e7af4b3ccb646f2ad37d04338b1d41583353ba
    else if words.length = 2 then
      0x264f65c92b3b6656d45857c1613cb1b7e6392dc194d3083bb73a8d09202c89f0
    else if words.getLast? = some 5 then
      0x71f324f6b15957e8910273fd37195428c4f66a7721caa71d8bec9e018e4e40ef
    else 0x471ecd2d0a857837b0bd991be8a007bfa997f1f3e056c9d28cd733f83ab12d50

@[reducible] def plainToken : Erc20 Address Failure (Ledger Address) :=
  Ledger.erc20 .external

def smallDeployment : Deployment where
  feeManager := 0x10
  permanentLPFeeVault := 0x20
  distributor := 0x30
  address v := match v with
    | .community => 0x40
    | .rewards => 0x41
  answersAsFeeVault _ a := a == 0x20
  answersAsDistributor a := a == 0x30
  feeVault_unique _ _ h := eq_of_beq h
  distributor_unique _ h := eq_of_beq h
  address_ne := by decide
  feeManager_ne v := by cases v <;> decide
  feeVault_ne v := by cases v <;> decide

/-- Two claimants. -/
def smallTree : Merkle.Tree Entitlement :=
  let id : Word :=
    0x3d9b5e34569fd1b6b4b43bfc21e7af4b3ccb646f2ad37d04338b1d41583353ba
  .node (.leaf ⟨id, 0x501, 5⟩) (.leaf ⟨id, 0x502, 6⟩)

/-- The distributor is wired, eleven coins arrive, the root is published, and
    the first claimant claims, and claims again while it is being paid. -/
def smallRun : State (Ledger Address) :=
  letI := knownHashes
  letI := sortedPairProof
  letI := plainToken
  let first : Call (Ledger Address) := .claim 0x501 1 0x70 0 5
    [0x471ecd2d0a857837b0bd991be8a007bfa997f1f3e056c9d28cd733f83ab12d50]
  (machine smallDeployment).runTxs
    [(.vaults (.setDistributorOnce 0x99 0x30), .halt true),
     (.vaults (.depositNative .rewards 0x10 0x70 11), .halt true),
     (.publishRoot 0x99 1 0x70 0 (merkleRoot smallTree), .halt true),
     (first, .call first (.halt true) (.halt true))]
    (deployed 0 (fun _ => 100) (fun _ => ⟨fun _ => 0, fun _ _ => 0⟩)
      ⟨false, 0, fun _ _ => 0, fun _ _ => 0, fun _ _ => 0, fun _ _ => 0,
        fun _ => 0⟩ 0x99 0x98)

/-- The claim that was marked. -/
def smallClaim : Claim where
  id := 0x3d9b5e34569fd1b6b4b43bfc21e7af4b3ccb646f2ad37d04338b1d41583353ba
  epoch := 1
  launchToken := 0x70
  asset := 0
  claimant := 0x501
  amount := 5
  proof :=
    [0x471ecd2d0a857837b0bd991be8a007bfa997f1f3e056c9d28cd733f83ab12d50]

/-- The law at that run: the re-entrant claim was not paid, and the one that
    was is in the tree. -/
theorem rewards_law_smallRun :
    smallRun.claims = [smallClaim]
      ∧ (⟨smallClaim.id, 0x501, 5⟩ : Entitlement) ∈ smallTree.members := by
  have hclaims : smallRun.claims = [smallClaim] := by decide +kernel
  refine ⟨hclaims, ?_⟩
  obtain ⟨hruns, -, -⟩ := @rewards_law (Ledger Address) knownHashes
    (@sortedPairProof knownHashes) plainToken smallDeployment 0
    (fun _ => 100) (fun _ => ⟨fun _ => 0, fun _ _ => 0⟩)
    ⟨false, 0, fun _ _ => 0, fun _ _ => 0, fun _ _ => 0, fun _ _ => 0,
      fun _ => 0⟩ 0x99 0x98
  obtain ⟨-, -, hmembers, -⟩ := hruns smallRun (.runTxs _ .start)
  have hmem : smallClaim ∈ smallRun.claims := by
    rw [hclaims]
    exact List.mem_singleton_self _
  refine (hmembers smallClaim hmem).2 smallTree ?_ ?_
  · decide +kernel
  · unfold Merkle.CollisionFree
    decide +kernel

end RewardsDistributor
