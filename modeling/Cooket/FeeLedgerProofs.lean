import Cooket.FeeManagerProofs
import Cooket.ReentrantProofs

/-! # The fee ledger stays solvent

    The manager together with the native value it holds, as a machine whose
    recipients are untrusted: during a payout the recipient may call anything,
    the manager included.

    The books have four families of liabilities, each with a running total
    beside its entries.  ONE lemma says what a call does to them
    (`call_books`): the totals stay the sums of the entries, and what is owed
    changes by exactly the value that comes in and goes out.  Solvency of every
    state in which somebody else has control follows by the run rule. -/

namespace FeeLedger

open CheckedArith Contract FeeManager Reentrant LedgerSum

/-- Everything the manager owes. -/
def liabilities (b : Books) : Nat :=
  b.protocolFeesAccrued + b.totalCreatorFeesAccrued + b.communityFeesAccrued
    + b.traderRewardsFeesAccrued

/-- **THE TOTALS ARE THE SUMS** of their entries. -/
structure Balanced (b : Books) : Prop where
  creator : b.totalCreatorFeesAccrued
    = ∑ t, b.creatorFeesAccrued t + ∑ t, ∑ r, b.checkpointedCreatorFees t r
  community : b.communityFeesAccrued = ∑ t, b.communityFeesAccruedByToken t
  traderRewards :
    b.traderRewardsFeesAccrued = ∑ t, b.traderRewardsFeesAccruedByToken t

/-- The entries of one token. -/
structure Accruals where
  creatorFees : Nat
  communityFees : Nat
  traderRewardsFees : Nat
  checkpointed : Address → Nat

def accruals (b : Books) (token : Address) : Accruals where
  creatorFees := b.creatorFeesAccrued token
  communityFees := b.communityFeesAccruedByToken token
  traderRewardsFees := b.traderRewardsFeesAccruedByToken token
  checkpointed := b.checkpointedCreatorFees token

/-- The token a call names, if it names one. -/
def token? : FeeManagerCall → Option Address
  | .registerToken token _ _ => some token
  | .depositFees token .. => some token
  | .proposeCreatorPayout token _ => some token
  | .acceptCreatorPayout token => some token
  | .cancelCreatorPayout token => some token
  | .claimCreatorFees token => some token
  | .activateCTO token _ => some token
  | .claimCheckpointedCreatorFees token _ => some token
  | .fundCommunityVault token => some token
  | .fundTraderRewardsVault token => some token
  | _ => none

/-! ## One call -/

section Call

variable {I : Immutables} {V : Views} {msg : Msg} {s : FeeManagerStorage}
  {out : Outcome}

/-- What a call may do to the books: keep the sums, account for the value, and
    leave every token it does not name alone. -/
structure Accounts (s : FeeManagerStorage) (value : Nat)
    (named : Option Address) (out : Outcome) : Prop where
  balanced : Balanced s.toBooks → Balanced out.storage.toBooks
  value : liabilities out.storage.toBooks + out.paid
    = liabilities s.toBooks + value
  frame : ∀ token, named ≠ some token →
    accruals out.storage.toBooks token = accruals s.toBooks token

/-- A call that leaves the books alone and pays nothing. -/
theorem Accounts.same {named : Option Address}
    (hbooks : out.storage.toBooks = s.toBooks) (hpayout : out.payout = none) :
    Accounts s 0 named out where
  balanced h := by
    rw [hbooks]
    exact h
  value := by
    have hpaid : out.paid = 0 := by rw [Outcome.paid, hpayout]
    rw [hbooks, hpaid]
  frame token _ := by rw [hbooks]

theorem update_of_named {α : Type} {f : Address → α} {token other : Address}
    {v : α} (h : (some token : Option Address) ≠ some other) :
    Function.update f token v other = f other := by
  refine Function.update_of_ne ?_ _ _
  intro heq
  exact h (congrArg some heq.symm)

theorem depositFees_accounts {token : Address} {totalFee creatorFee protocolFee
    communityFee traderRewardsFee : Nat} {isBuy : Bool}
    (h : depositFees msg s token totalFee creatorFee protocolFee communityFee
      traderRewardsFee isBuy = .ok out) :
    Accounts s msg.value (some token) out := by
  obtain ⟨-, hvalue, hshares, hs, hpayout⟩ := depositFees_ok h
  have hpaid : out.paid = 0 := by rw [Outcome.paid, hpayout]
  refine ⟨?_, ?_, ?_⟩
  · rintro ⟨hcreator, hcommunity, htrader⟩
    rw [hs]
    refine ⟨?_, ?_, ?_⟩
    · show s.totalCreatorFeesAccrued + creatorFee
        = ∑ t, Function.update s.creatorFeesAccrued token
              (s.creatorFeesAccrued token + creatorFee) t
          + ∑ t, ∑ r, s.checkpointedCreatorFees t r
      rw [sum_update_add, hcreator]
      omega
    · show s.communityFeesAccrued + communityFee = _
      rw [sum_update_add, hcommunity]
    · show s.traderRewardsFeesAccrued + traderRewardsFee = _
      rw [sum_update_add, htrader]
  · rw [hs, hpaid]
    simp only [liabilities]
    omega
  · intro other hne
    rw [hs]
    simp only [accruals, update_of_named hne]

theorem claimProtocolFees_accounts (h : claimProtocolFees msg s = .ok out) :
    Accounts s 0 none out := by
  obtain ⟨-, hs, hpayout⟩ := claimProtocolFees_ok h
  have hpaid : out.paid = s.protocolFeesAccrued := by
    rw [Outcome.paid, hpayout]
  refine ⟨?_, ?_, ?_⟩
  · rintro ⟨hcreator, hcommunity, htrader⟩
    rw [hs]
    exact ⟨hcreator, hcommunity, htrader⟩
  · rw [hs, hpaid]
    simp only [liabilities]
    omega
  · intro other _
    rw [hs]
    rfl

theorem claimCreatorFees_accounts {token : Address}
    (h : claimCreatorFees msg s token = .ok out) :
    Accounts s 0 (some token) out := by
  obtain ⟨-, hle, hs, hpayout⟩ := claimCreatorFees_ok h
  have hpaid : out.paid = s.creatorFeesAccrued token := by
    rw [Outcome.paid, hpayout]
  refine ⟨?_, ?_, ?_⟩
  · rintro ⟨hcreator, hcommunity, htrader⟩
    rw [hs]
    refine ⟨?_, hcommunity, htrader⟩
    have hsum := sum_update_zero s.creatorFeesAccrued token
    show s.totalCreatorFeesAccrued - s.creatorFeesAccrued token
      = ∑ t, Function.update s.creatorFeesAccrued token 0 t
        + ∑ t, ∑ r, s.checkpointedCreatorFees t r
    omega
  · rw [hs, hpaid]
    simp only [liabilities]
    omega
  · intro other hne
    rw [hs]
    simp only [accruals, update_of_named hne]

/-- The checkpoint moves an entry from one family to the other. -/
theorem activateCTO_accounts {token ctoTreasury : Address}
    (h : activateCTO I V msg s token ctoTreasury = .ok out) :
    Accounts s 0 (some token) out := by
  obtain ⟨-, -, -, -, -, -, hs, hpayout⟩ := activateCTO_ok h
  have hpaid : out.paid = 0 := by rw [Outcome.paid, hpayout]
  refine ⟨?_, ?_, ?_⟩
  · rintro ⟨hcreator, hcommunity, htrader⟩
    rw [hs]
    refine ⟨?_, hcommunity, htrader⟩
    have hsum := sum_update_zero s.creatorFeesAccrued token
    have hrow := sum_update₂ s.checkpointedCreatorFees token
      (s.creatorPayoutOf token)
      (s.checkpointedCreatorFees token (s.creatorPayoutOf token)
        + s.creatorFeesAccrued token)
    show s.totalCreatorFeesAccrued
      = ∑ t, Function.update s.creatorFeesAccrued token 0 t
        + ∑ t, ∑ r, update₂ s.checkpointedCreatorFees token
            (s.creatorPayoutOf token)
            (s.checkpointedCreatorFees token (s.creatorPayoutOf token)
              + s.creatorFeesAccrued token) t r
    omega
  · rw [hs, hpaid]
    rfl
  · intro other hne
    have hother : other ≠ token := fun heq => hne (congrArg some heq.symm)
    have hrow : ∀ v, update₂ s.checkpointedCreatorFees token
        (s.creatorPayoutOf token) v other
        = s.checkpointedCreatorFees other := by
      intro v
      exact Function.update_of_ne hother _ _
    rw [hs]
    simp only [accruals, update_of_named hne, hrow]

theorem claimCheckpointedCreatorFees_accounts {token recipient : Address}
    (h : claimCheckpointedCreatorFees msg s token recipient = .ok out) :
    Accounts s 0 (some token) out := by
  obtain ⟨-, hle, hs, hpayout⟩ := claimCheckpointedCreatorFees_ok h
  have hpaid : out.paid = s.checkpointedCreatorFees token recipient := by
    rw [Outcome.paid, hpayout]
  refine ⟨?_, ?_, ?_⟩
  · rintro ⟨hcreator, hcommunity, htrader⟩
    rw [hs]
    refine ⟨?_, hcommunity, htrader⟩
    have hrow := sum_update₂ s.checkpointedCreatorFees token recipient 0
    show s.totalCreatorFeesAccrued
        - s.checkpointedCreatorFees token recipient
      = ∑ t, s.creatorFeesAccrued t
        + ∑ t, ∑ r, update₂ s.checkpointedCreatorFees token recipient 0 t r
    omega
  · rw [hs, hpaid]
    simp only [liabilities]
    omega
  · intro other hne
    have hother : other ≠ token := fun heq => hne (congrArg some heq.symm)
    have hrow : update₂ s.checkpointedCreatorFees token recipient 0 other
        = s.checkpointedCreatorFees other :=
      Function.update_of_ne hother _ _
    rw [hs]
    simp only [accruals, hrow]

theorem fundCommunityVault_accounts {token : Address}
    (h : fundCommunityVault msg s token = .ok out) :
    Accounts s 0 (some token) out := by
  obtain ⟨-, hle, hs, hpayout⟩ := fundCommunityVault_ok h
  have hpaid : out.paid = s.communityFeesAccruedByToken token := by
    rw [Outcome.paid, hpayout]
  refine ⟨?_, ?_, ?_⟩
  · rintro ⟨hcreator, hcommunity, htrader⟩
    rw [hs]
    refine ⟨hcreator, ?_, htrader⟩
    have hsum := sum_update_zero s.communityFeesAccruedByToken token
    show s.communityFeesAccrued - s.communityFeesAccruedByToken token
      = ∑ t, Function.update s.communityFeesAccruedByToken token 0 t
    omega
  · rw [hs, hpaid]
    simp only [liabilities]
    omega
  · intro other hne
    rw [hs]
    simp only [accruals, update_of_named hne]

theorem fundTraderRewardsVault_accounts {token : Address}
    (h : fundTraderRewardsVault msg s token = .ok out) :
    Accounts s 0 (some token) out := by
  obtain ⟨-, hle, hs, hpayout⟩ := fundTraderRewardsVault_ok h
  have hpaid : out.paid = s.traderRewardsFeesAccruedByToken token := by
    rw [Outcome.paid, hpayout]
  refine ⟨?_, ?_, ?_⟩
  · rintro ⟨hcreator, hcommunity, htrader⟩
    rw [hs]
    refine ⟨hcreator, hcommunity, ?_⟩
    have hsum := sum_update_zero s.traderRewardsFeesAccruedByToken token
    show s.traderRewardsFeesAccrued - s.traderRewardsFeesAccruedByToken token
      = ∑ t, Function.update s.traderRewardsFeesAccruedByToken token 0 t
    omega
  · rw [hs, hpaid]
    simp only [liabilities]
    omega
  · intro other hne
    rw [hs]
    simp only [accruals, update_of_named hne]

/-- **WHAT A CALL DOES TO THE BOOKS.** -/
theorem call_books {k : FeeManagerCall} (h : call I V msg s k = .ok out) :
    Accounts s msg.value (token? k) out := by
  cases call_ran h with
  | administrative hbooks _ hpayout hvalue =>
      rw [hvalue]
      exact Accounts.same hbooks hpayout
  | registerToken hvalue hk =>
      obtain ⟨-, -, -, hs, hpayout⟩ := registerToken_ok hk
      rw [hvalue]
      exact Accounts.same (by rw [hs]) hpayout
  | depositFees hk => exact depositFees_accounts hk
  | proposeCreatorPayout hvalue hk =>
      obtain ⟨-, -, hs, hpayout⟩ := proposeCreatorPayout_ok hk
      rw [hvalue]
      exact Accounts.same (by rw [hs]) hpayout
  | acceptCreatorPayout hvalue hk =>
      obtain ⟨-, -, -, hs, hpayout⟩ := acceptCreatorPayout_ok hk
      rw [hvalue]
      exact Accounts.same (by rw [hs]) hpayout
  | cancelCreatorPayout hvalue hk =>
      obtain ⟨-, hs, hpayout⟩ := cancelCreatorPayout_ok hk
      rw [hvalue]
      exact Accounts.same (by rw [hs]) hpayout
  | claimProtocolFees hvalue hk =>
      rw [hvalue]
      exact claimProtocolFees_accounts hk
  | claimCreatorFees hvalue hk =>
      rw [hvalue]
      exact claimCreatorFees_accounts hk
  | activateCTO hvalue hk =>
      rw [hvalue]
      exact activateCTO_accounts hk
  | claimCheckpointedCreatorFees hvalue hk =>
      rw [hvalue]
      exact claimCheckpointedCreatorFees_accounts hk
  | fundCommunityVault hvalue hk =>
      rw [hvalue]
      exact fundCommunityVault_accounts hk
  | fundTraderRewardsVault hvalue hk =>
      rw [hvalue]
      exact fundTraderRewardsVault_accounts hk

/-- What is left to do after a payout leaves the books alone. -/
theorem finish_books (receipt : Option Receipt) (s : FeeManagerStorage) :
    (finish receipt s).1.toBooks = s.toBooks := by
  match receipt with
  | none => rfl
  | some (.protocolFeesClaimed _ _) => rfl
  | some (.emit _) => rfl

end Call

/-! ## The machine -/

/-- The manager and the native value it holds. -/
structure System where
  fees : FeeManagerStorage
  balance : Nat

/-- What can happen to it: a call by anybody at any time, with any answers of
    the other contracts, or native value forced on it. -/
inductive Call where
  | fees (msg : Msg) (V : Views) (k : FeeManagerCall)
  | force (amount : Nat)

/-- The manager as a machine: a payout yields to its recipient. -/
def machine (I : Immutables) :
    Machine System Call (Option Receipt) Revert where
  enter
    | .fees msg V k, s => do
        let out ← FeeManager.call I V msg s.fees k
        revertIf (s.balance + msg.value < out.paid)
          (.fees .nativeTransferFailed)
        pure
          { state := ⟨out.storage, s.balance + msg.value - out.paid⟩
            yields := out.payout.isSome
            ret := out.payout.map Payout.receipt }
    | .force amount, s =>
        pure
          { state := { s with balance := s.balance + amount }
            yields := false
            ret := none }
  leave receipt s := { s with fees := (finish receipt s.fees).1 }

/-- The state after the constructor, on an address that may hold value. -/
def deployed (governance initialTreasury : Address) (prefunded : Nat) :
    System :=
  ⟨FeeManagerStorage.deployed governance initialTreasury, prefunded⟩

/-- **SOLVENCY**: the totals are sums, and the value held covers them. -/
structure Solvent (s : System) : Prop where
  balanced : Balanced s.fees.toBooks
  covered : liabilities s.fees.toBooks ≤ s.balance

theorem solvent_deployed (governance initialTreasury : Address)
    (prefunded : Nat) :
    Solvent (deployed governance initialTreasury prefunded) where
  balanced := by
    refine ⟨?_, ?_, ?_⟩
    · simp [deployed, FeeManagerStorage.deployed]
    · simp [deployed, FeeManagerStorage.deployed]
    · simp [deployed, FeeManagerStorage.deployed]
  covered := Nat.zero_le _

theorem enter_fees {I : Immutables} {msg : Msg} {V : Views}
    {k : FeeManagerCall} {s : System}
    {e : Entry System (Option Receipt)}
    (h : (machine I).enter (.fees msg V k) s = .ok e) :
    ∃ out, FeeManager.call I V msg s.fees k = .ok out
      ∧ out.paid ≤ s.balance + msg.value
      ∧ e.state = ⟨out.storage, s.balance + msg.value - out.paid⟩ := by
  simp only [machine, bind_ok, revertIf_ok, pure_ok, not_lt] at h
  obtain ⟨out, hout, _, hpaid, rfl⟩ := h
  exact ⟨out, hout, hpaid, rfl⟩

theorem enter_force {I : Immutables} {amount : Nat} {s : System}
    {e : Entry System (Option Receipt)}
    (h : (machine I).enter (.force amount) s = .ok e) :
    e.state = { s with balance := s.balance + amount } := by
  simp only [machine, pure_ok] at h
  rw [← h]

/-- **EVERY CALL KEEPS SOLVENCY**, in both of its halves. -/
theorem keeps_solvent (I : Immutables) : (machine I).Keeps Solvent where
  enter := by
    rintro (⟨msg, V, k⟩ | amount) s e he hs
    · obtain ⟨out, hout, hpaid, hstate⟩ := enter_fees he
      obtain ⟨hbalanced, hvalue, -⟩ := call_books hout
      have hcovered := hs.covered
      rw [hstate]
      refine ⟨hbalanced hs.balanced, ?_⟩
      show liabilities out.storage.toBooks
        ≤ s.balance + msg.value - out.paid
      omega
    · rw [enter_force he]
      exact ⟨hs.balanced, Nat.le_add_right_of_le hs.covered⟩
  leave := by
    rintro k s e - s' hs'
    have hbooks := finish_books e.ret s'.fees
    refine ⟨?_, ?_⟩
    · show Balanced (finish e.ret s'.fees).1.toBooks
      rw [hbooks]
      exact hs'.balanced
    · show liabilities (finish e.ret s'.fees).1.toBooks ≤ s'.balance
      rw [hbooks]
      exact hs'.covered

/-- `totalLiabilities()` returns what is owed whenever that fits in a word. -/
theorem totalLiabilities_eq {s : FeeManagerStorage}
    (h : liabilities s.toBooks < uintBound) :
    totalLiabilities s = .ok (liabilities s.toBooks) := by
  simp only [liabilities] at h
  rw [totalLiabilities, add_eq (by omega), ok_bind, add_eq (by omega),
    ok_bind, add_eq (by omega)]
  rfl

/-! ## Frames -/

/-- A call that does not name a token. -/
def Avoids (token : Address) : Call → Prop
  | .fees _ _ k => token? k ≠ some token
  | .force _ => True

/-- A call that does not name a token keeps its entries, in both halves. -/
theorem covers_accruals (I : Immutables) (token : Address) :
    (machine I).CoversOn (Avoids token) (fun s s' =>
      accruals s'.fees.toBooks token = accruals s.fees.toBooks token) := by
  rintro (⟨msg, V, k⟩ | amount) s e hk he s' hs'
  · obtain ⟨out, hout, -, hstate⟩ := enter_fees he
    obtain ⟨-, -, hframe⟩ := call_books hout
    show accruals (finish e.ret s'.fees).1.toBooks token = _
    rw [finish_books, hs', hstate]
    exact hframe token hk
  · show accruals (finish e.ret s'.fees).1.toBooks token = _
    rw [finish_books, hs', enter_force he]

/-- **ANOTHER TOKEN'S ENTRIES ARE UNTOUCHED** by a whole transaction, whatever
    its recipients do that does not name it either. -/
theorem transact_accruals (I : Immutables) {token : Address} {k : Call}
    (hk : Avoids token k) {callback : Script Call}
    (hcb : callback.All (Avoids token)) (s : System) :
    accruals ((machine I).transact k callback s).fees.toBooks token
      = accruals s.fees.toBooks token :=
  (machine I).transact_preorder_on
    (R := fun s s' =>
      accruals s'.fees.toBooks token = accruals s.fees.toBooks token)
    (fun _ => rfl) (fun _ _ _ h h' => h'.trans h) (covers_accruals I token)
    hk hcb s

/-! ## The ledger -/

/-- **THE FEE LEDGER**: wherever somebody else has control, the totals are the
    sums of their entries and the value held covers `totalLiabilities()`; the
    four shares of an accepted deposit are the deposit, and each is booked; and
    a call that names one token leaves the entries of every other token
    alone. -/
theorem fee_ledger (I : Immutables) (governance initialTreasury : Address)
    (prefunded : Nat) :
    (∀ s, (machine I).Observable
        (deployed governance initialTreasury prefunded) s →
      s.fees.totalCreatorFeesAccrued
          = ∑ token, s.fees.creatorFeesAccrued token
            + ∑ token, ∑ recipient,
                s.fees.checkpointedCreatorFees token recipient
        ∧ s.fees.communityFeesAccrued
          = ∑ token, s.fees.communityFeesAccruedByToken token
        ∧ s.fees.traderRewardsFeesAccrued
          = ∑ token, s.fees.traderRewardsFeesAccruedByToken token
        ∧ liabilities s.fees.toBooks ≤ s.balance
        ∧ (s.balance < uintBound → totalLiabilities s.fees
          = .ok (liabilities s.fees.toBooks))) ∧
    (∀ msg s token totalFee creatorFee protocolFee communityFee
        traderRewardsFee isBuy out,
      depositFees msg s token totalFee creatorFee protocolFee communityFee
        traderRewardsFee isBuy = .ok out →
      creatorFee + protocolFee + communityFee + traderRewardsFee
          = msg.value
        ∧ out.storage.protocolFeesAccrued = s.protocolFeesAccrued + protocolFee
        ∧ accruals out.storage.toBooks token =
          { creatorFees := s.creatorFeesAccrued token + creatorFee
            communityFees :=
              s.communityFeesAccruedByToken token + communityFee
            traderRewardsFees :=
              s.traderRewardsFeesAccruedByToken token + traderRewardsFee
            checkpointed := s.checkpointedCreatorFees token }) ∧
    (∀ msg V k named token callback s, token? k = some named →
      token ≠ named → callback.All (Avoids token) →
      accruals ((machine I).transact (.fees msg V k) callback s).fees.toBooks
          token
        = accruals s.fees.toBooks token) := by
  refine ⟨?_, ?_, ?_⟩
  · intro s hs
    obtain ⟨⟨hcreator, hcommunity, htrader⟩, hcovered⟩ :=
      (keeps_solvent I).observable
        (solvent_deployed governance initialTreasury prefunded) hs
    refine ⟨hcreator, hcommunity, htrader, hcovered, ?_⟩
    intro hword
    exact totalLiabilities_eq (Nat.lt_of_le_of_lt hcovered hword)
  · intro msg s token totalFee creatorFee protocolFee communityFee
      traderRewardsFee isBuy out h
    obtain ⟨-, hvalue, hshares, hs, -⟩ := depositFees_ok h
    rw [hvalue, hs]
    refine ⟨hshares, rfl, ?_⟩
    simp only [accruals, Function.update_self]
  · intro msg V k named token callback s hk hne hcb
    refine transact_accruals I ?_ hcb s
    intro h
    rw [hk] at h
    exact hne (Option.some.inj h).symm

/-- The manager once a curve has deposited a fee of a hundred. -/
def depositedFees : System :=
  let V := oneTokenViews [10, 20, 21]
  (machine ⟨11, 12⟩).runTxs
    [(.fees ⟨40, 0, 1⟩ V (.setFactoryOnce 10), .halt true),
     (.fees ⟨10, 0, 1⟩ V (.registerToken 21 20 22), .halt true),
     (.fees ⟨20, 100, 1⟩ V (.depositFees 21 100 40 30 20 10 true),
       .halt true)]
    (deployed 40 41 7)

theorem fee_ledger_deposited :
    depositedFees.fees.creatorFeesAccrued 21 = 40
      ∧ depositedFees.balance = 107
      ∧ totalLiabilities depositedFees.fees
        = .ok (liabilities depositedFees.fees.toBooks) := by
  have hbalance : depositedFees.balance = 107 := by decide +kernel
  refine ⟨by decide +kernel, hbalance, ?_⟩
  obtain ⟨-, -, -, -, hword⟩ := (fee_ledger ⟨11, 12⟩ 40 41 7).1 depositedFees
    (.runTxs _ .start)
  refine hword ?_
  rw [hbalance]
  decide

end FeeLedger
