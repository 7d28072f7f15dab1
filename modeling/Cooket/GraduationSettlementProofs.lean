import Cooket.CurveRunProofs

/-! # What a graduation settles

    A graduation that succeeds accounts for every unit it was given: what the
    position manager took and what went to the token's escrow make up the
    liquidity allocation and the reserve exactly, whatever the mint answered
    and whatever anybody had forced onto the contracts before.

    The functions are inverted one at a time.  A function that only moves
    money stays `Within` its token: it writes no register.  What it does to
    the balances is read off the comparisons the executor and the manager
    make, not off what the position manager promised.

    The registers are a state machine of their own (`Step`): launches are
    registered, graduations settle them, and everything else in the world
    leaves them alone.  `Orderly` is its invariant. -/

namespace GraduationSettlement

open CheckedArith Contract CurveMachine CurveWorld Endpoint Reentrant
  Settlement TokenLedger
open LPVault (CANONICAL_USDC Custodian isCanonicalFullRangePosition
  sortedPair)

variable {τ : Type} [Erc20 Address Revert τ]

/-! ## Money that moves -/

/-- Nothing but the ledger of one token, native value and the allowances of
    its ERC-20 face changed. -/
structure Within (token : Address) (w w' : World τ) : Prop where
  launches : w'.launches = w.launches
  settled : w'.settled = w.settled
  residualEscrowOf : w'.residualEscrowOf = w.residualEscrowOf
  custodianOf : w'.custodianOf = w.custodianOf
  custodians : w'.custodians = w.custodians
  escrows : w'.escrows = w.escrows
  tokens : ∀ t, t ≠ token → w'.tokens t = w.tokens t

/-- An account holds what it held, in value and in one token. -/
structure Keeps (token a : Address) (w w' : World τ) : Prop where
  native : w'.native a = w.native a
  balance : w'.balanceOf token a = w.balanceOf token a

section Money

variable {D : Deployment} {G : Answers} {w w' : World τ}
  {token a : Address}

omit [Erc20 Address Revert τ] in
theorem Within.refl (w : World τ) : Within token w w where
  launches := rfl
  settled := rfl
  residualEscrowOf := rfl
  custodianOf := rfl
  custodians := rfl
  escrows := rfl
  tokens _ _ := rfl

omit [Erc20 Address Revert τ] in
theorem Within.trans {w₁ w₂ w₃ : World τ} (h : Within token w₁ w₂)
    (h' : Within token w₂ w₃) : Within token w₁ w₃ where
  launches := h'.launches.trans h.launches
  settled := h'.settled.trans h.settled
  residualEscrowOf := h'.residualEscrowOf.trans h.residualEscrowOf
  custodianOf := h'.custodianOf.trans h.custodianOf
  custodians := h'.custodians.trans h.custodians
  escrows := h'.escrows.trans h.escrows
  tokens t ht := (h'.tokens t ht).trans (h.tokens t ht)

theorem Keeps.refl (w : World τ) : Keeps token a w w := ⟨rfl, rfl⟩

theorem Keeps.trans {w₁ w₂ w₃ : World τ} (h : Keeps token a w₁ w₂)
    (h' : Keeps token a w₂ w₃) : Keeps token a w₁ w₃ where
  native := h'.native.trans h.native
  balance := h'.balance.trans h.balance

omit [Erc20 Address Revert τ] in
theorem sendValue_within (src dst : Address) (amount : Nat) :
    Within token w (w.sendValue src dst amount) where
  launches := rfl
  settled := rfl
  residualEscrowOf := rfl
  custodianOf := rfl
  custodians := rfl
  escrows := rfl
  tokens _ _ := rfl

theorem sendValue_keeps {src dst : Address} {amount : Nat} (hs : a ≠ src)
    (hd : a ≠ dst) : Keeps token a w (w.sendValue src dst amount) where
  native := move_of_ne hs hd
  balance := rfl

omit [Erc20 Address Revert τ] in
/-- One ledger is replaced. -/
theorem setToken_within (t : τ) (journal : List Line) :
    Within token w
      { w with tokens := Function.update w.tokens token t, journal } where
  launches := rfl
  settled := rfl
  residualEscrowOf := rfl
  custodianOf := rfl
  custodians := rfl
  escrows := rfl
  tokens _ ht := Function.update_of_ne ht _ _

theorem safeTransfer_money {operator dst : Address} {amount : Nat}
    (h : w.safeTransfer operator token dst amount = .ok w') :
    Within token w w' ∧ w'.native = w.native
      ∧ w'.usdcAllowance = w.usdcAllowance
      ∧ w'.balanceOf token = move (w.balanceOf token) operator dst amount
      ∧ amount ≤ w.balanceOf token operator := by
  simp only [World.safeTransfer, bind_ok, pure_ok] at h
  obtain ⟨t, ht, rfl⟩ := h
  obtain ⟨hle, hbalance, -⟩ := Erc20.transfer_ok _ _ _ _ _ ht
  refine ⟨setToken_within t _, rfl, rfl, ?_, hle⟩
  funext b
  show Erc20.balanceOf Revert (Function.update w.tokens token t token) b = _
  rw [Function.update_self, hbalance]
  rfl

theorem safeTransferFrom_money {operator src dst : Address} {amount : Nat}
    (h : w.safeTransferFrom operator token src dst amount = .ok w') :
    Within token w w' ∧ w'.native = w.native
      ∧ w'.usdcAllowance = w.usdcAllowance
      ∧ w'.balanceOf token = move (w.balanceOf token) src dst amount := by
  simp only [World.safeTransferFrom, bind_ok, pure_ok] at h
  obtain ⟨t, ht, rfl⟩ := h
  obtain ⟨-, -, hbalance, -⟩ := Erc20.transferFrom_ok _ _ _ _ _ _ ht
  refine ⟨setToken_within t _, rfl, rfl, ?_⟩
  funext b
  show Erc20.balanceOf Revert (Function.update w.tokens token t token) b = _
  rw [Function.update_self, hbalance]
  rfl

theorem approve_money {owner spender : Address} {amount : Nat}
    (h : w.approve owner token spender amount = .ok w') :
    Within token w w' ∧ w'.native = w.native
      ∧ w'.usdcAllowance = w.usdcAllowance
      ∧ w'.balanceOf token = w.balanceOf token := by
  simp only [World.approve, bind_ok, pure_ok] at h
  obtain ⟨t, ht, rfl⟩ := h
  obtain ⟨hbalance, -, -⟩ := Erc20.approve_ok _ _ _ _ _ ht
  refine ⟨setToken_within t _, rfl, rfl, ?_⟩
  funext b
  show Erc20.balanceOf Revert (Function.update w.tokens token t token) b = _
  rw [Function.update_self, hbalance]
  rfl

omit [Erc20 Address Revert τ] in
theorem approveUsdc_within (owner spender : Address) (amount : Nat) :
    Within token w (approveUsdc w owner spender amount) where
  launches := rfl
  settled := rfl
  residualEscrowOf := rfl
  custodianOf := rfl
  custodians := rfl
  escrows := rfl
  tokens _ _ := rfl

theorem approveUsdc_keeps (owner spender : Address) (amount : Nat) :
    Keeps token a w (approveUsdc w owner spender amount) := ⟨rfl, rfl⟩

theorem approve_keeps {owner spender : Address} {amount : Nat}
    (h : w.approve owner token spender amount = .ok w') :
    Keeps token a w w' := by
  obtain ⟨-, hnative, -, hbalance⟩ := approve_money h
  exact ⟨congrFun hnative a, congrFun hbalance a⟩

/-- A pull touches the executor and the pool. -/
theorem pull_money {pool asset : Address} {amount : Nat}
    (hasset : asset = token ∨ asset = CANONICAL_USDC)
    (h : pull D w pool asset amount = .ok w') :
    Within token w w' ∧ (a ≠ D.settlementExecutor → a ≠ pool →
      Keeps token a w w') := by
  unfold pull at h
  split at h
  · simp only [bind_ok, revertIf_ok, pure_ok] at h
    obtain ⟨_, -, rfl⟩ := h
    exact ⟨sendValue_within _ _ _, sendValue_keeps⟩
  · rename_i hne
    rcases hasset with rfl | heq
    · obtain ⟨hwithin, hnative, -, hbalance⟩ := safeTransferFrom_money h
      refine ⟨hwithin, ?_⟩
      intro hexecutor hpool
      refine ⟨congrFun hnative a, ?_⟩
      rw [hbalance]
      exact move_of_ne hexecutor hpool
    · exact absurd heq hne

/-- A mint goes to the custodian and touches the executor and the pool. -/
theorem mintPosition_money {custodian : Address}
    {tokenAmount usdcAmount6 : Nat} {m : MintResult}
    (h : mintPosition D G w token custodian tokenAmount usdcAmount6
      = .ok (w', m)) :
    Within token w w'
      ∧ (∀ b, b ≠ D.settlementExecutor → b ≠ D.canonicalPoolOf token →
        Keeps token b w w')
      ∧ ∃ params : MintParams,
        params.recipient = custodian ∧ G.mint params = .ok m := by
  simp only [mintPosition, bind_ok, pure_ok] at h
  obtain ⟨_, -, _, -, w₁, h₁, m', hmint, w₂, h₂, w₃, h₃, heq⟩ := h
  cases heq
  have hasset0 : ∀ b : Bool, (if b then token else CANONICAL_USDC) = token
      ∨ (if b then token else CANONICAL_USDC) = CANONICAL_USDC := by
    intro b
    cases b with
    | true => exact .inl rfl
    | false => exact .inr rfl
  have hasset1 : ∀ b : Bool, (if b then CANONICAL_USDC else token) = token
      ∨ (if b then CANONICAL_USDC else token) = CANONICAL_USDC := by
    intro b
    cases b with
    | true => exact .inr rfl
    | false => exact .inl rfl
  refine ⟨?_, ?_, _, rfl, hmint⟩
  · exact (approve_money h₁).1.trans ((approveUsdc_within _ _ _).trans
      ((pull_money (a := token) (hasset0 _) h₂).1.trans
        (pull_money (a := token) (hasset1 _) h₃).1))
  · intro b hexecutor hpool
    exact (approve_keeps h₁).trans ((approveUsdc_keeps _ _ _).trans
      (((pull_money (hasset0 _) h₂).2 hexecutor hpool).trans
        ((pull_money (hasset1 _) h₃).2 hexecutor hpool)))

/-- What is sent to an account other than the sender arrives. -/
theorem safeTransfer_credits {operator dst : Address} {amount : Nat}
    (hne : operator ≠ dst)
    (h : w.safeTransfer operator token dst amount = .ok w') :
    w'.balanceOf token dst = w.balanceOf token dst + amount := by
  obtain ⟨-, -, -, hbalance, -⟩ := safeTransfer_money h
  rw [hbalance]
  exact move_dst hne

theorem safeTransfer_keeps {operator dst : Address} {amount : Nat}
    (hs : a ≠ operator) (hd : a ≠ dst)
    (h : w.safeTransfer operator token dst amount = .ok w') :
    Keeps token a w w' := by
  obtain ⟨-, hnative, -, hbalance, -⟩ := safeTransfer_money h
  refine ⟨congrFun hnative a, ?_⟩
  rw [hbalance]
  exact move_of_ne hs hd

/-- The residuals arrive in the escrow, and nobody else but the executor is
    touched. -/
theorem sendResiduals_money {escrow : Address}
    {tokenResidual usdcResidual6 : Nat}
    (hescrow : escrow ≠ D.settlementExecutor)
    (h : sendResiduals D w token escrow tokenResidual usdcResidual6 0
      = .ok w') :
    Within token w w'
      ∧ w'.balanceOf token escrow = w.balanceOf token escrow + tokenResidual
      ∧ w'.native escrow
        = w.native escrow + usdcResidual6 * NATIVE_PER_ERC20_BASE_UNIT
      ∧ ∀ b, b ≠ D.settlementExecutor → b ≠ escrow →
        Keeps token b w w' := by
  simp only [sendResiduals, bind_ok, ne_eq, not_true_eq_false, if_false,
    pure_ok] at h
  obtain ⟨w₁, h₁, w₂, h₂, rfl⟩ := h
  have htoken : Within token w w₁
      ∧ w₁.balanceOf token escrow = w.balanceOf token escrow + tokenResidual
      ∧ w₁.native escrow = w.native escrow
      ∧ ∀ b, b ≠ D.settlementExecutor → b ≠ escrow →
        Keeps token b w w₁ := by
    by_cases hzero : tokenResidual = 0
    · rw [if_neg (fun h => h hzero)] at h₁
      cases Except.ok.inj h₁
      rw [hzero]
      exact ⟨.refl w, rfl, rfl, fun b _ _ => .refl w⟩
    · rw [if_pos hzero] at h₁
      obtain ⟨hwithin, hnative, -, -, -⟩ := safeTransfer_money h₁
      exact ⟨hwithin, safeTransfer_credits hescrow.symm h₁,
        congrFun hnative escrow, fun b hs hd => safeTransfer_keeps hs hd h₁⟩
  have husdc : Within token w₁ w₂
      ∧ w₂.balanceOf token escrow = w₁.balanceOf token escrow
      ∧ w₂.native escrow
        = w₁.native escrow + usdcResidual6 * NATIVE_PER_ERC20_BASE_UNIT
      ∧ ∀ b, b ≠ D.settlementExecutor → b ≠ escrow →
        Keeps token b w₁ w₂ := by
    by_cases hzero : usdcResidual6 = 0
    · rw [if_neg (fun h => h hzero)] at h₂
      cases Except.ok.inj h₂
      rw [hzero, Nat.zero_mul]
      exact ⟨.refl w₁, rfl, rfl, fun b _ _ => .refl w₁⟩
    · rw [if_pos hzero] at h₂
      simp only [bind_ok, revertIf_ok, pure_ok] at h₂
      obtain ⟨_, -, rfl⟩ := h₂
      exact ⟨sendValue_within _ _ _, rfl, move_dst hescrow.symm,
        fun b hs hd => sendValue_keeps hs hd⟩
  obtain ⟨hwithin₁, hbalance₁, hnative₁, hothers₁⟩ := htoken
  obtain ⟨hwithin₂, hbalance₂, hnative₂, hothers₂⟩ := husdc
  refine ⟨hwithin₁.trans hwithin₂, ?_, ?_, ?_⟩
  · rw [hbalance₂, hbalance₁]
  · rw [hnative₂, hnative₁]
  · intro b hs hd
    exact (hothers₁ b hs hd).trans (hothers₂ b hs hd)

end Money

/-! ## The executor -/

/-- What a mint says it used of the token, and of the USDC. -/
def usedToken (token : Address) (m : MintResult) : Nat :=
  if token < CANONICAL_USDC then m.amount0 else m.amount1

def usedUsdc6 (token : Address) (m : MintResult) : Nat :=
  if token < CANONICAL_USDC then m.amount1 else m.amount0

/-- An amount that converts exactly is its whole number of units. -/
theorem nativeUsdcToUsdc6Exact_ok {amount usdc6 : Nat}
    (h : nativeUsdcToUsdc6Exact amount = .ok usdc6) :
    amount = usdc6 * NATIVE_PER_ERC20_BASE_UNIT := by
  simp only [nativeUsdcToUsdc6Exact, bind_ok, revertIf_ok, pure_ok,
    ne_eq, Decidable.not_not] at h
  obtain ⟨_, hmod, rfl⟩ := h
  exact (Nat.div_mul_cancel (Nat.dvd_of_mod_eq_zero hmod)).symm

theorem usdc6ToNativeUsdc_ok {usdc6 amount : Nat}
    (h : usdc6ToNativeUsdc usdc6 = .ok amount) :
    amount = usdc6 * NATIVE_PER_ERC20_BASE_UNIT := by
  simp only [usdc6ToNativeUsdc, bind_ok, revertIf_ok, mul_ok] at h
  obtain ⟨_, -, -, rfl⟩ := h
  rfl

/-- **WHAT AN EXECUTION DID**: the mint's answer `m` and the two residuals
    make up what was handed over, the residuals are in the escrow, and the
    executor is left with what it had before. -/
structure Executed (D : Deployment) (G : Answers)
    (token custodian escrow : Address) (tokenAmount usdcAmount6 : Nat)
    (w w' : World τ) (r : SettlementResult) : Prop where
  within : Within token w w'
  token_used : usedToken token
    ⟨r.tokenId, r.liquidity, r.amount0Used, r.amount1Used⟩ + r.tokenResidual
      = tokenAmount
  token_bounded : r.tokenResidual ≤ MAX_TOKEN_ROUNDING_RESIDUAL
  usdc_used : usedUsdc6 token
    ⟨r.tokenId, r.liquidity, r.amount0Used, r.amount1Used⟩ + r.usdcResidual6
      = usdcAmount6
  usdc_bounded : r.usdcResidual6 ≤ MAX_USDC6_ROUNDING_RESIDUAL
  liquidity : r.liquidity ≠ 0
  dust : r.nativeUsdcDust18 = 0
  minted : ∃ params : MintParams, params.recipient = custodian
    ∧ G.mint params
      = .ok ⟨r.tokenId, r.liquidity, r.amount0Used, r.amount1Used⟩
  executor_token : w'.balanceOf token D.settlementExecutor + tokenAmount
    = w.balanceOf token D.settlementExecutor
  executor_native : w'.native D.settlementExecutor
      + usdcAmount6 * NATIVE_PER_ERC20_BASE_UNIT
    = w.native D.settlementExecutor
  executor_allowance : Erc20.allowance Revert (w'.tokens token)
    D.settlementExecutor D.nonfungiblePositionManager = 0
  executor_usdcAllowance : w'.usdcAllowance D.settlementExecutor
    D.nonfungiblePositionManager = 0
  escrow_token : w'.balanceOf token escrow
    = w.balanceOf token escrow + r.tokenResidual
  escrow_native : w'.native escrow
    = w.native escrow + r.usdcResidual6 * NATIVE_PER_ERC20_BASE_UNIT

/-- **THE EXECUTOR** accounts for everything it was handed. -/
theorem execute_executed {D : Deployment} {G : Answers} {w w' : World τ}
    {sender token custodian escrow : Address}
    {tokenAmount nativeUsdcAmount value : Nat} {r : SettlementResult}
    (hescrow : escrow ≠ D.settlementExecutor)
    (hpool : escrow ≠ D.canonicalPoolOf token)
    (h : execute D G w sender token custodian tokenAmount nativeUsdcAmount
      escrow value = .ok (w', r)) :
    ∃ usdcAmount6,
      nativeUsdcAmount = usdcAmount6 * NATIVE_PER_ERC20_BASE_UNIT
        ∧ Executed D G token custodian escrow tokenAmount usdcAmount6 w w'
          r := by
  simp only [execute, bind_ok, revertIf_ok, pure_ok, sub_ok, Prod.exists,
    not_or, Nat.not_lt, ne_eq, Decidable.not_not] at h
  obtain ⟨_, -, usdcAmount6, hexact, _, ⟨-, -, -⟩, w₁, m, h₁, _,
    ⟨htoken, husdc, hliquidity⟩, leastToken, ⟨-, rfl⟩, _, hleastToken,
    leastUsdc6, ⟨-, rfl⟩, _, hleastUsdc6, w₂, h₂, _, -, _, ⟨-, rfl⟩, _, -, _,
    ⟨-, rfl⟩, _, -, _, ⟨-, rfl⟩, _, -, tokenResidual, ⟨-, rfl⟩, usdcResidual6,
    ⟨-, rfl⟩, exactNative, hexactNative, dust, ⟨-, rfl⟩, w₃, h₃, _,
    ⟨hle, rfl⟩, _, htokenLeft, _, ⟨-, rfl⟩, _, -, _, ⟨hnativeLe, rfl⟩, _,
    ⟨hnativeLeft, hallowance, husdcAllowance⟩, heq⟩ := h
  cases heq
  have hnative := nativeUsdcToUsdc6Exact_ok hexact
  have hdust : nativeUsdcAmount - exactNative = 0 := by
    rw [usdc6ToNativeUsdc_ok hexactNative, hnative]
    exact Nat.sub_self _
  rw [hdust] at h₃
  obtain ⟨hwithin₁, hkeeps₁, hminted⟩ := mintPosition_money h₁
  obtain ⟨hwithin₂, -⟩ := approve_money h₂
  obtain ⟨hwithin₃, hbalance₃, hnative₃, -⟩ := sendResiduals_money hescrow h₃
  have hescrow₂ := ((hkeeps₁ escrow hescrow hpool).trans
    (approve_keeps h₂)).trans (approveUsdc_keeps D.settlementExecutor
      D.nonfungiblePositionManager 0)
  refine ⟨usdcAmount6, hnative, ?_⟩
  constructor
  · exact hwithin₁.trans (hwithin₂.trans
      ((approveUsdc_within _ _ _).trans hwithin₃))
  · exact Nat.add_sub_of_le htoken
  · show tokenAmount - _ ≤ _
    omega
  · exact Nat.add_sub_of_le husdc
  · show usdcAmount6 - _ ≤ _
    omega
  · exact hliquidity
  · exact hdust
  · exact hminted
  · rw [htokenLeft]
    exact Nat.sub_add_cancel hle
  · rw [hnativeLeft, ← hnative]
    exact Nat.sub_add_cancel hnativeLe
  · exact hallowance
  · exact husdcAllowance
  · rw [hbalance₃, hescrow₂.balance]
  · rw [hnative₃, hescrow₂.native]

/-! ## The escrow and the custodian -/

section Registers

variable {D : Deployment} {G : Answers} {w w' : World τ} {token : Address}

/-- Everything a register of an escrow leaves alone. -/
structure Books (w w' : World τ) : Prop where
  native : w'.native = w.native
  tokens : w'.tokens = w.tokens
  usdcAllowance : w'.usdcAllowance = w.usdcAllowance
  launches : w'.launches = w.launches
  settled : w'.settled = w.settled
  residualEscrowOf : w'.residualEscrowOf = w.residualEscrowOf

omit [Erc20 Address Revert τ] in
theorem Books.refl (w : World τ) : Books w w := ⟨rfl, rfl, rfl, rfl, rfl, rfl⟩

omit [Erc20 Address Revert τ] in
theorem Books.trans {w₁ w₂ w₃ : World τ} (h : Books w₁ w₂)
    (h' : Books w₂ w₃) : Books w₁ w₃ where
  native := h'.native.trans h.native
  tokens := h'.tokens.trans h.tokens
  usdcAllowance := h'.usdcAllowance.trans h.usdcAllowance
  launches := h'.launches.trans h.launches
  settled := h'.settled.trans h.settled
  residualEscrowOf := h'.residualEscrowOf.trans h.residualEscrowOf

theorem Books.keeps (h : Books w w') (a : Address) : Keeps token a w w' where
  native := congrFun h.native a
  balance := by rw [World.balanceOf, World.balanceOf, h.tokens]

/-- A deposit adds to one residual of its escrow. -/
theorem deposit_books {sender escrow asset : Address} {amount : Nat}
    {e : Escrow} (he : w.escrows escrow = some e)
    (h : deposit w sender escrow asset amount = .ok w') :
    Books w w' ∧ w'.custodianOf = w.custodianOf
      ∧ w'.custodians = w.custodians
      ∧ w'.escrows escrow = some { e with
        depositedResidual := Function.update e.depositedResidual asset
          (e.depositedResidual asset + amount) } := by
  simp only [deposit, he, bind_ok, revertIf_ok, add_ok, pure_ok] at h
  obtain ⟨_, -, _, -, _, -, _, ⟨-, rfl⟩, _, -, rfl⟩ := h
  exact ⟨⟨rfl, rfl, rfl, rfl, rfl, rfl⟩, rfl, rfl,
    Function.update_self _ _ _⟩

/-- Both residuals are booked in a fresh escrow. -/
theorem depositResiduals_books {escrow : Address} {r : SettlementResult}
    {e : Escrow} (htoken : token ≠ CANONICAL_USDC)
    (he : w.escrows escrow = some e) (hfresh : e.depositedResidual = fun _ => 0)
    (h : depositResiduals D w token escrow r = .ok w') :
    Books w w' ∧ w'.custodianOf = w.custodianOf
      ∧ w'.custodians = w.custodians
      ∧ ∃ e', w'.escrows escrow = some e' ∧ e'.launchToken = e.launchToken
        ∧ e'.depositedResidual token = r.tokenResidual
        ∧ e'.depositedResidual CANONICAL_USDC = r.usdcResidual6 := by
  simp only [depositResiduals, bind_ok, ne_eq] at h
  obtain ⟨w₁, h₁, h₂⟩ := h
  have hfirst : Books w w₁ ∧ w₁.custodianOf = w.custodianOf
      ∧ w₁.custodians = w.custodians
      ∧ ∃ e₁, w₁.escrows escrow = some e₁ ∧ e₁.launchToken = e.launchToken
        ∧ e₁.depositedResidual token = r.tokenResidual
        ∧ e₁.depositedResidual CANONICAL_USDC = 0 := by
    by_cases hzero : r.tokenResidual = 0
    · rw [if_neg (fun h => h hzero)] at h₁
      cases Except.ok.inj h₁
      refine ⟨.refl w, rfl, rfl, e, he, rfl, ?_, ?_⟩
      · rw [hfresh, hzero]
      · rw [hfresh]
    · rw [if_pos hzero] at h₁
      obtain ⟨hbooks, hof, hcustodians, he₁⟩ := deposit_books he h₁
      refine ⟨hbooks, hof, hcustodians, _, he₁, rfl, ?_, ?_⟩
      · simp only [Function.update_self, hfresh, Nat.zero_add]
      · simp only [Function.update_of_ne htoken.symm, hfresh]
  obtain ⟨hbooks₁, hof₁, hcustodians₁, e₁, he₁, hlaunch₁, htoken₁, husdc₁⟩ :=
    hfirst
  by_cases hzero : r.usdcResidual6 = 0
  · rw [if_neg (fun h => h hzero)] at h₂
    cases Except.ok.inj h₂
    refine ⟨hbooks₁, hof₁, hcustodians₁, e₁, he₁, hlaunch₁, htoken₁, ?_⟩
    rw [husdc₁, hzero]
  · rw [if_pos hzero] at h₂
    obtain ⟨hbooks, hof, hcustodians, he₂⟩ := deposit_books he₁ h₂
    refine ⟨hbooks₁.trans hbooks, hof.trans hof₁,
      hcustodians.trans hcustodians₁, _, he₂, hlaunch₁, ?_, ?_⟩
    · simp only [Function.update_of_ne htoken]
      exact htoken₁
    · simp only [Function.update_self, husdc₁, Nat.zero_add]

/-- **EVERY CUSTODIAN IS ITS TOKEN'S OWN.** -/
def Custody (w : World τ) : Prop :=
  ∀ t, w.custodianOf t ≠ 0 →
    ∃ c, w.custodians (w.custodianOf t) = some c ∧ c.launchToken = t

omit [Erc20 Address Revert τ] in
/-- Nothing is created where there is code. -/
theorem fresh_of_hasCode {a : Address} (h : hasCode D G w a ≠ true) :
    D.internal a ≠ true ∧ w.custodians a = none ∧ w.escrows a = none
      ∧ G.hasCode a ≠ true := by
  simp only [hasCode, Bool.or_eq_true, not_or, Option.isSome_iff_ne_none,
    ne_eq, Decidable.not_not] at h
  obtain ⟨⟨⟨hinternal, hcustodian⟩, hescrow⟩, hcode⟩ := h
  exact ⟨hinternal, hcustodian, hescrow, hcode⟩

omit [Erc20 Address Revert τ] in
/-- A new custodian is its token's own. -/
theorem deployCustodian_custody {sender : Address} (hc : Custody w)
    (h : deployCustodian D G w sender token = .ok w') :
    Books w w' ∧ Custody w' ∧ w'.escrows = w.escrows
      ∧ w'.custodianOf token = G.newCustodian
      ∧ (∀ a, (w.custodians a).isSome = true →
        (w'.custodians a).isSome = true)
      ∧ ∃ c, w'.custodians G.newCustodian = some c
        ∧ c.launchToken = token := by
  simp only [deployCustodian, newCustodian, bind_ok, revertIf_ok, pure_ok] at h
  obtain ⟨_, -, _, -, _, -, w₁, ⟨_, hcode, _, -, _, -, rfl⟩, rfl⟩ := h
  obtain ⟨-, hnone, -⟩ := fresh_of_hasCode hcode
  refine ⟨⟨rfl, rfl, rfl, rfl, rfl, rfl⟩, ?_, rfl,
    Function.update_self _ _ _, ?_, _, Function.update_self _ _ _, rfl⟩
  · intro t ht
    by_cases heq : t = token
    · subst heq
      simp only [Function.update_self]
      exact ⟨_, rfl, rfl⟩
    · simp only [Function.update_of_ne heq] at ht ⊢
      obtain ⟨c, hsome, hlaunch⟩ := hc t ht
      have hne : w.custodianOf t ≠ G.newCustodian := by
        intro hsame
        rw [hsame, hnone] at hsome
        exact nomatch hsome
      rw [Function.update_of_ne hne]
      exact ⟨c, hsome, hlaunch⟩
  · intro a ha
    by_cases heq : a = G.newCustodian
    · subst heq
      simp only [Function.update_self, Option.isSome_some]
    · simp only [Function.update_of_ne heq]
      exact ha

omit [Erc20 Address Revert τ] in
/-- The custodian of a settlement is the token's own. -/
theorem custodianFor_custody {custodian : Address} (hc : Custody w)
    (h : custodianFor D G w token = .ok (w', custodian)) :
    Books w w' ∧ Custody w' ∧ w'.escrows = w.escrows
      ∧ w'.custodianOf token = custodian
      ∧ (∀ a, (w.custodians a).isSome = true →
        (w'.custodians a).isSome = true)
      ∧ ∃ c, w'.custodians custodian = some c ∧ c.launchToken = token := by
  unfold custodianFor at h
  split at h
  · simp only [bind_ok, pure_ok] at h
    obtain ⟨w₁, h₁, heq⟩ := h
    cases heq
    exact deployCustodian_custody hc h₁
  · rename_i hne
    cases Except.ok.inj h
    exact ⟨.refl w, hc, rfl, rfl, fun _ ha => ha, hc token hne⟩

omit [Erc20 Address Revert τ] in
theorem newEscrow_books (h : newEscrow D G w token = .ok w') :
    Books w w' ∧ w'.custodianOf = w.custodianOf
      ∧ w'.custodians = w.custodians ∧ hasCode D G w G.newEscrow ≠ true
      ∧ ∃ e, w'.escrows G.newEscrow = some e ∧ e.launchToken = token
        ∧ e.depositedResidual = fun _ => 0 := by
  simp only [newEscrow, bind_ok, revertIf_ok, pure_ok] at h
  obtain ⟨_, hcode, _, -, rfl⟩ := h
  exact ⟨⟨rfl, rfl, rfl, rfl, rfl, rfl⟩, rfl, rfl, hcode, _,
    Function.update_self _ _ _, rfl, rfl⟩

end Registers

/-! ## The manager -/

/-- **EVERYTHING IS ACCOUNTED FOR** in a settlement of `token`, which the mint
    answered with `m`: allocation and reserve are what was used and the two
    residuals, the residuals are booked in and held by the escrow, and the
    executor and the manager are left with what they had besides. -/
structure Conserved (D : Deployment) (token : Address) (m : MintResult)
    (tokenResidual usdcResidual6 : Nat) (w w' : World τ) : Prop where
  token_used : LP_ALLOCATION = usedToken token m + tokenResidual
  token_bounded : tokenResidual ≤ 10 ^ 18
  usdc_used : 7245000000 = usedUsdc6 token m + usdcResidual6
  usdc_bounded : usdcResidual6 ≤ 1
  escrow_booked : ∃ e, w'.escrows (w'.residualEscrowOf token) = some e
    ∧ e.launchToken = token ∧ e.depositedResidual token = tokenResidual
    ∧ e.depositedResidual CANONICAL_USDC = usdcResidual6
  escrow_token : w'.balanceOf token (w'.residualEscrowOf token)
    = w.balanceOf token (w'.residualEscrowOf token) + tokenResidual
  escrow_native : w'.native (w'.residualEscrowOf token)
    = w.native (w'.residualEscrowOf token)
      + usdcResidual6 * NATIVE_PER_ERC20_BASE_UNIT
  executor_token : w'.balanceOf token D.settlementExecutor
    = w.balanceOf token D.settlementExecutor
  executor_native :
    w'.native D.settlementExecutor = w.native D.settlementExecutor
  executor_allowance : Erc20.allowance Revert (w'.tokens token)
    D.settlementExecutor D.nonfungiblePositionManager = 0
  executor_usdcAllowance : w'.usdcAllowance D.settlementExecutor
    D.nonfungiblePositionManager = 0
  manager_token : w'.balanceOf token D.graduationManager = 0
  manager_native :
    w'.native D.graduationManager + GRADUATION_NATIVE_USDC_RESERVE
      = w.native D.graduationManager

section Manager

variable {D : Deployment} {G : Answers} {w w' : World τ} {token : Address}

/-- Registers that hold no money change nothing about that. -/
theorem Conserved.of_books {w₁ w₂ : World τ} {m : MintResult} {t u : Nat}
    (h : Conserved D token m t u w₁ w₂) (hnative₁ : w₁.native = w.native)
    (htokens₁ : w₁.tokens = w.tokens)
    (hnative : w'.native = w₂.native) (htokens : w'.tokens = w₂.tokens)
    (hallowance : w'.usdcAllowance = w₂.usdcAllowance)
    (hof : w'.residualEscrowOf = w₂.residualEscrowOf)
    (hescrows : w'.escrows = w₂.escrows) :
    Conserved D token m t u w w' := by
  obtain ⟨h1, h2, h3, h4, h5, h6, h7, h8, h9, h10, h11, h12, h13⟩ := h
  simp only [World.balanceOf, hnative₁, htokens₁] at *
  refine ⟨h1, h2, h3, h4, ?_, ?_, ?_, ?_, ?_, ?_, ?_, ?_, ?_⟩
  · rw [hof, hescrows]
    exact h5
  · rw [World.balanceOf, htokens, hof]
    exact h6
  · rw [hof, hnative]
    exact h7
  · rw [World.balanceOf, htokens]
    exact h8
  · rw [hnative]
    exact h9
  · rw [htokens]
    exact h10
  · rw [hallowance]
    exact h11
  · rw [World.balanceOf, htokens]
    exact h12
  · rw [hnative]
    exact h13

/-- **A SETTLEMENT** of exactly the allocation and the reserve conserves
    both, and its position is minted to the token's own custodian. -/
theorem settle_conserves {custodian : Address} {id liquidity : Nat}
    (h : settle D G w token LP_ALLOCATION GRADUATION_NATIVE_USDC_RESERVE
      = .ok (w', custodian, id, liquidity))
    (hc : Custody w) (htoken : token ≠ CANONICAL_USDC)
    (hpool : hasCode D G w (D.canonicalPoolOf token) = true) :
    (∃ m tokenResidual usdcResidual6, m.tokenId = id
        ∧ m.liquidity = liquidity ∧ liquidity ≠ 0
        ∧ (∃ params : MintParams, params.recipient = custodian
          ∧ G.mint params = .ok m)
        ∧ Conserved D token m tokenResidual usdcResidual6 w w')
      ∧ Custody w' ∧ w'.custodianOf token = custodian
      ∧ (∃ c, w'.custodians custodian = some c ∧ c.launchToken = token)
      ∧ w'.launches = w.launches ∧ w'.settled = w.settled
      ∧ ∀ t, t ≠ token → w'.tokens t = w.tokens t := by
  simp only [settle, bind_ok, revertIf_ok, pure_ok, Prod.exists, sub_ok,
    Nat.not_lt, not_or, ne_eq, Decidable.not_not] at h
  obtain ⟨w₁, _, h₁, w₂, h₂, w₃, h₃, _, hle, w₄, r, h₄, w₅, h₅, _,
    ⟨-, hmanager⟩, _, ⟨-, rfl⟩, _, hleft, usdc6, husdc6, _, husdc, heq⟩ := h
  cases heq
  obtain ⟨hbooks₁, hcustody, hescrows₁, hof, hgrown, hown⟩ :=
    custodianFor_custody hc h₁
  obtain ⟨hbooks₂, hof₂, hcustodians₂, hcode, e, he, hlaunch, hfresh⟩ :=
    newEscrow_books h₂
  obtain ⟨hinternal, hnone, -, hanswer⟩ := fresh_of_hasCode hcode
  have hexecutor : G.newEscrow ≠ D.settlementExecutor := by
    rintro heq
    exact hinternal (by simp [Deployment.internal, heq])
  have hmanager' : G.newEscrow ≠ D.graduationManager := by
    rintro heq
    exact hinternal (by simp [Deployment.internal, heq])
  -- the pool had code before the escrow was created
  have hpool' : G.newEscrow ≠ D.canonicalPoolOf token := by
    intro heq
    refine hcode ?_
    rw [heq]
    simp only [hasCode, hescrows₁, Bool.or_eq_true] at hpool ⊢
    rcases hpool with ((h | h) | h) | h
    · exact .inl (.inl (.inl h))
    · exact .inl (.inl (.inr (hgrown _ h)))
    · exact .inl (.inr h)
    · exact .inr h
  obtain ⟨hwithin₃, hnative₃, hallowance₃, hbalance₃, hcovers⟩ :=
    safeTransfer_money h₃
  obtain ⟨usdcAmount6, hreserve, hexecuted⟩ :=
    execute_executed hexecutor hpool' h₄
  have husdcAmount6 : usdcAmount6 = 7245000000 := by
    have hdefinition : GRADUATION_NATIVE_USDC_RESERVE
        = 7245000000 * NATIVE_PER_ERC20_BASE_UNIT := by decide
    have hpos : 0 < NATIVE_PER_ERC20_BASE_UNIT := by decide
    exact Nat.eq_of_mul_eq_mul_right hpos (hreserve.symm.trans hdefinition)
  subst husdcAmount6
  have hwithin₄ := hexecuted.within
  have he₄ : w₄.escrows G.newEscrow = some e := by
    rw [hwithin₄.escrows]
    show w₃.escrows G.newEscrow = some e
    rw [hwithin₃.escrows]
    exact he
  obtain ⟨hbooks₅, hof₅, hcustodians₅, e', he', hlaunch', htoken',
    husdc'⟩ := depositResiduals_books htoken he₄ hfresh h₅
  have hresidualEscrowOf : w'.residualEscrowOf token = G.newEscrow := by
    rw [hbooks₅.residualEscrowOf, hwithin₄.residualEscrowOf]
    show w₃.residualEscrowOf token = G.newEscrow
    rw [hwithin₃.residualEscrowOf]
    exact Function.update_self _ _ _
  -- what everybody held when the executor was called
  have hnative : w₃.native = w.native := by
    rw [hnative₃]
    exact hbooks₂.native.trans hbooks₁.native
  have hbalance : w₃.balanceOf token = move (w.balanceOf token)
      D.graduationManager D.settlementExecutor LP_ALLOCATION := by
    rw [hbalance₃]
    show move (World.balanceOf w₂ token) _ _ _ = _
    have hsame : w₂.balanceOf token = w.balanceOf token := by
      funext a
      simp only [World.balanceOf, hbooks₂.tokens, hbooks₁.tokens]
    rw [hsame]
  have hmoney : ∀ a, w'.native a = w₄.native a
      ∧ w'.balanceOf token a = w₄.balanceOf token a := by
    intro a
    have hkeeps : Keeps token a w₄ w' := hbooks₅.keeps a
    exact ⟨hkeeps.native, hkeeps.balance⟩
  have hexecutorGets : w₃.balanceOf token D.settlementExecutor
      = w.balanceOf token D.settlementExecutor + LP_ALLOCATION := by
    rw [hbalance]
    exact move_dst D.graduationManager_ne_settlementExecutor
  have hexecutorValue : move w₃.native D.graduationManager
      D.settlementExecutor GRADUATION_NATIVE_USDC_RESERVE D.settlementExecutor
      = w.native D.settlementExecutor + GRADUATION_NATIVE_USDC_RESERVE := by
    rw [hnative]
    exact move_dst D.graduationManager_ne_settlementExecutor
  -- no register of custody was written after the custodian was found
  have hcustodianOf : w'.custodianOf = w₁.custodianOf := by
    rw [hof₅, hwithin₄.custodianOf]
    show w₃.custodianOf = _
    rw [hwithin₃.custodianOf]
    exact hof₂
  have hcustodians : w'.custodians = w₁.custodians := by
    rw [hcustodians₅, hwithin₄.custodians]
    show w₃.custodians = _
    rw [hwithin₃.custodians]
    exact hcustodians₂
  refine ⟨⟨⟨r.tokenId, r.liquidity, r.amount0Used, r.amount1Used⟩,
    r.tokenResidual, r.usdcResidual6, rfl, rfl, hexecuted.liquidity,
    hexecuted.minted, ?_⟩, ?_, ?_, ?_, ?_, ?_, ?_⟩
  · constructor
    · exact hexecuted.token_used.symm
    · exact hexecuted.token_bounded
    · exact hexecuted.usdc_used.symm
    · exact hexecuted.usdc_bounded
    · rw [hresidualEscrowOf]
      exact ⟨e', he', hlaunch'.trans hlaunch, htoken', husdc'⟩
    · rw [hresidualEscrowOf, (hmoney _).2, hexecuted.escrow_token]
      show w₃.balanceOf token G.newEscrow + _ = _
      rw [hbalance, move_of_ne hmanager' hexecutor]
    · rw [hresidualEscrowOf, (hmoney _).1, hexecuted.escrow_native]
      show move w₃.native _ _ _ G.newEscrow + _ = _
      rw [move_of_ne hmanager' hexecutor, hnative]
    · rw [(hmoney _).2]
      have hleftover : w₄.balanceOf token D.settlementExecutor + LP_ALLOCATION
          = w₃.balanceOf token D.settlementExecutor :=
        hexecuted.executor_token
      rw [hexecutorGets] at hleftover
      exact Nat.add_right_cancel hleftover
    · rw [(hmoney _).1]
      have hleftover := hexecuted.executor_native
      rw [← hreserve] at hleftover
      exact Nat.add_right_cancel (hleftover.trans hexecutorValue)
    · rw [hbooks₅.tokens]
      exact hexecuted.executor_allowance
    · rw [hbooks₅.usdcAllowance]
      exact hexecuted.executor_usdcAllowance
    · exact hmanager
    · rw [hleft, ← congrFun hnative D.graduationManager]
      exact Nat.sub_add_cancel hle
  · intro t ht
    rw [hcustodianOf] at ht ⊢
    rw [hcustodians]
    exact hcustody t ht
  · rw [hcustodianOf]
    exact hof
  · rw [hcustodians]
    exact hown
  · rw [hbooks₅.launches, hwithin₄.launches]
    show w₃.launches = w.launches
    rw [hwithin₃.launches]
    exact hbooks₂.launches.trans hbooks₁.launches
  · rw [hbooks₅.settled, hwithin₄.settled]
    show w₃.settled = w.settled
    rw [hwithin₃.settled]
    exact hbooks₂.settled.trans hbooks₁.settled
  · intro t ht
    rw [hbooks₅.tokens, hwithin₄.tokens t ht]
    show w₃.tokens t = w.tokens t
    rw [hwithin₃.tokens t ht]
    exact congrFun (hbooks₂.tokens.trans hbooks₁.tokens) t

omit [Erc20 Address Revert τ] in
/-- The position is bound to the custodian it was minted to. -/
theorem bindPosition_binds {sender custodian : Address} {tokenId : Nat}
    {c : Custodian} (hc : w.custodians custodian = some c)
    (h : bindPosition G w sender custodian tokenId = .ok w') :
    Books w w' ∧ w'.escrows = w.escrows ∧ w'.custodianOf = w.custodianOf
      ∧ w'.custodians = Function.update w.custodians custodian (some { c with
        positionTokenId := tokenId
        positionRegistered := true })
      ∧ G.ownerOf tokenId = custodian := by
  simp only [bindPosition, hc, bind_ok, revertIf_ok, pure_ok, ne_eq,
    Decidable.not_not] at h
  obtain ⟨_, -, _, -, _, -, _, howner, _, -, rfl⟩ := h
  exact ⟨⟨rfl, rfl, rfl, rfl, rfl, rfl⟩, rfl, rfl, rfl, howner⟩

/-- **WHAT A GRADUATION DID.** -/
structure Graduated (D : Deployment) (G : Answers) (token : Address)
    (w w' : World τ) : Prop where
  /-- The token was registered, and neither graduated nor settled. -/
  before : (w.launches token).registered = true
    ∧ (w.launches token).graduated = false ∧ w.settled token = false
  /-- The manager held exactly the allocation of the token. -/
  forwarded : w.balanceOf token D.graduationManager = LP_ALLOCATION
  /-- Now it is all three, and nothing changed for the others. -/
  launches : w'.launches = Function.update w.launches token
    { w.launches token with graduated := true }
  settled : w'.settled = Function.update w.settled token true
  custody : Custody w'
  tokens : ∀ t, t ≠ token → w'.tokens t = w.tokens t
  /-- Its position was minted to its own custodian and bound there, and
      everything else is accounted for. -/
  position : ∃ m tokenResidual usdcResidual6 c,
    (∃ params : MintParams, params.recipient = w'.custodianOf token
      ∧ G.mint params = .ok m)
    ∧ m.liquidity ≠ 0
    ∧ G.ownerOf m.tokenId = w'.custodianOf token
    ∧ w'.custodians (w'.custodianOf token) = some c
    ∧ c.launchToken = token ∧ c.positionTokenId = m.tokenId
    ∧ c.positionRegistered = true
    ∧ Conserved D token m tokenResidual usdcResidual6 w w'

/-- **A GRADUATION THAT SUCCEEDS SETTLES.** -/
theorem graduate_graduated {sender creator : Address}
    {tokenAmount nativeUsdcAmount value : Nat} (hc : Custody w)
    (h : graduate D G w sender token creator tokenAmount nativeUsdcAmount
      value = .ok w') : Graduated D G token w w' := by
  simp only [graduate, authorizeGraduation, expectedSqrtPriceX96, bind_ok,
    revertIf_ok, pure_ok, Prod.exists, not_or, ne_eq, Decidable.not_not,
    Bool.not_eq_true, Bool.not_eq_false] at h
  obtain ⟨_, -, w₁, ⟨_, hregistered, _, -, _, -, _, hgraduated, rfl⟩, _,
    ⟨hsettled, -, rfl, rfl, hforwarded⟩, _, hpool, _, ⟨_, ⟨-, htoken⟩, rfl⟩, _, -, w₂,
    custodian, id, liquidity, h₂, w₃, h₃, rfl⟩ := h
  obtain ⟨⟨m, tokenResidual, usdcResidual6, rfl, rfl, hliquidity, hminted,
    hconserved⟩, hcustody₂, hof₂, ⟨c, hown, hlaunch⟩, hlaunches₂, hsettled₂,
    htokens₂⟩ := settle_conserves h₂ hc htoken hpool
  obtain ⟨hbooks₃, hescrows₃, hof₃, hcustodians₃, howner⟩ :=
    bindPosition_binds hown h₃
  have hcustodian : w₃.custodianOf token = custodian := by
    rw [hof₃]
    exact hof₂
  refine ⟨⟨hregistered, hgraduated, hsettled⟩, hforwarded, ?_, ?_, ?_, ?_, m,
    tokenResidual, usdcResidual6, { c with
      positionTokenId := m.tokenId
      positionRegistered := true }, ?_, hliquidity, ?_, ?_, hlaunch, rfl,
    rfl, ?_⟩
  · exact hbooks₃.launches.trans hlaunches₂
  · show Function.update w₃.settled token true = _
    rw [hbooks₃.settled, hsettled₂]
  · intro t ht
    have ht' : w₂.custodianOf t ≠ 0 := by
      rw [← hof₃]
      exact ht
    obtain ⟨c', hc', hlaunch'⟩ := hcustody₂ t ht'
    show ∃ c, w₃.custodians (w₃.custodianOf t) = some c ∧ c.launchToken = t
    rw [hof₃, hcustodians₃]
    by_cases heq : w₂.custodianOf t = custodian
    · rw [heq, hown] at hc'
      cases hc'
      rw [heq, Function.update_self]
      exact ⟨_, rfl, hlaunch'⟩
    · rw [Function.update_of_ne heq]
      exact ⟨c', hc', hlaunch'⟩
  · intro t ht
    exact (congrFun hbooks₃.tokens t).trans (htokens₂ t ht)
  · show ∃ params : MintParams, params.recipient = w₃.custodianOf token ∧ _
    rw [hcustodian]
    exact hminted
  · show G.ownerOf m.tokenId = w₃.custodianOf token
    rw [hcustodian]
    exact howner
  · show w₃.custodians (w₃.custodianOf token) = _
    rw [hcustodian, hcustodians₃, Function.update_self]
  · exact hconserved.of_books rfl rfl hbooks₃.native hbooks₃.tokens
      hbooks₃.usdcAllowance hbooks₃.residualEscrowOf hescrows₃

end Manager

/-! ## The registers as a machine -/

/-- What the other contracts answer while a launch is registered. -/
structure LaunchAnswers where
  hasCode : Address → Bool
  /-- The factory, the curve and the token agree about each other. -/
  relationshipAgrees : Bool
  /-- The canonical pool was reserved at its exact price. -/
  poolReserved : Bool

section Machine

variable (D : Deployment)

/-- `registerLaunch`. -/
def registerLaunch (L : LaunchAnswers) (w : World τ)
    (sender token curve creator : Address) : Except Revert (World τ) := do
  revertIf (D.factory = 0) (.manager .factoryNotSet)
  revertIf (sender ≠ D.factory) (.manager .unauthorizedFactory)
  revertIf (token = 0 ∨ L.hasCode token = false) (.manager .invalidToken)
  revertIf (curve = 0 ∨ L.hasCode curve = false) (.manager .invalidCurve)
  revertIf (creator = 0) (.manager .invalidCreator)
  revertIf ((w.launches token).registered = true)
    (.manager .launchAlreadyRegistered)
  revertIf (L.relationshipAgrees = false)
    (.manager .launchRelationshipMismatch)
  revertIf (L.poolReserved = false) (.manager .poolReservationMismatch)
  pure { w with
    launches := Function.update w.launches token ⟨curve, creator, true, false⟩ }

/-- What everybody else does: it writes none of the registers, and nobody
    raises an allowance of the executor. -/
structure Elsewhere (w w' : World τ) : Prop where
  launches : w'.launches = w.launches
  settled : w'.settled = w.settled
  custodianOf : w'.custodianOf = w.custodianOf
  custodians : w'.custodians = w.custodians
  usdcAllowance : w'.usdcAllowance = w.usdcAllowance
  allowance : ∀ t, Erc20.allowance Revert (w'.tokens t)
      D.settlementExecutor D.nonfungiblePositionManager
    ≤ Erc20.allowance Revert (w.tokens t) D.settlementExecutor
      D.nonfungiblePositionManager

/-- **ONE STEP OF THE REGISTERS.** -/
inductive Step : World τ → World τ → Prop where
  | elsewhere {w w' : World τ} : Elsewhere D w w' → Step w w'
  | registerLaunch {L : LaunchAnswers} {w w' : World τ}
      {sender token curve creator : Address} :
      registerLaunch D L w sender token curve creator = .ok w' → Step w w'
  | graduate {G : Answers} {w w' : World τ} {sender token creator : Address}
      {tokenAmount nativeUsdcAmount value : Nat} :
      value ≤ w.native sender →
      Settlement.graduate D G (w.sendValue sender D.graduationManager value)
        sender token creator tokenAmount nativeUsdcAmount value = .ok w' →
      Step w w'

/-- The states that steps lead to. -/
def Reaches : World τ → World τ → Prop := Relation.ReflTransGen (Step D)

/-- The registers as they are deployed, in any world. -/
structure Bootstrapped (w : World τ) : Prop where
  launches : ∀ t, w.launches t = ⟨0, 0, false, false⟩
  settled : ∀ t, w.settled t = false
  custodianOf : ∀ t, w.custodianOf t = 0
  allowance : ∀ t, Erc20.allowance Revert (w.tokens t)
    D.settlementExecutor D.nonfungiblePositionManager = 0
  usdcAllowance :
    w.usdcAllowance D.settlementExecutor D.nonfungiblePositionManager = 0

/-- **THE INVARIANT**: settled implies graduated implies registered, every
    custodian is its token's own, and the executor allows nothing. -/
structure Orderly (w : World τ) : Prop where
  settled : ∀ t, w.settled t = true → (w.launches t).graduated = true
  graduated : ∀ t, (w.launches t).graduated = true →
    (w.launches t).registered = true
  custody : Custody w
  allowance : ∀ t, Erc20.allowance Revert (w.tokens t)
    D.settlementExecutor D.nonfungiblePositionManager = 0
  usdcAllowance :
    w.usdcAllowance D.settlementExecutor D.nonfungiblePositionManager = 0

variable {D} {w w' : World τ}

theorem Bootstrapped.orderly (h : Bootstrapped D w) : Orderly D w := by
  obtain ⟨hlaunches, hsettled, hof, hallowance, husdcAllowance⟩ := h
  refine ⟨?_, ?_, ?_, hallowance, husdcAllowance⟩
  · intro t ht
    rw [hsettled t] at ht
    exact nomatch ht
  · intro t ht
    rw [hlaunches t] at ht
    exact nomatch ht
  · intro t ht
    exact absurd (hof t) ht

theorem Graduated.orderly {G : Answers} {token : Address}
    (h : Graduated D G token w w') (hw : Orderly D w) : Orderly D w' := by
  obtain ⟨⟨hregistered, -, -⟩, -, hlaunches, hsettled, hcustody, htokens, m,
    _, _, _, -, -, -, -, -, -, -, hconserved⟩ := h
  refine ⟨?_, ?_, hcustody, ?_, hconserved.executor_usdcAllowance⟩
  · intro t ht
    rw [hlaunches]
    by_cases heq : t = token
    · rw [heq, Function.update_self]
    · rw [hsettled, Function.update_of_ne heq] at ht
      rw [Function.update_of_ne heq]
      exact hw.settled t ht
  · intro t ht
    rw [hlaunches] at ht ⊢
    by_cases heq : t = token
    · rw [heq, Function.update_self]
      exact hregistered
    · rw [Function.update_of_ne heq] at ht ⊢
      exact hw.graduated t ht
  · intro t
    by_cases heq : t = token
    · rw [heq]
      exact hconserved.executor_allowance
    · rw [htokens t heq]
      exact hw.allowance t

/-- Value on its way to the manager writes no register. -/
theorem Orderly.sendValue (h : Orderly D w) (src dst : Address)
    (amount : Nat) : Orderly D (w.sendValue src dst amount) :=
  ⟨h.settled, h.graduated, h.custody, h.allowance, h.usdcAllowance⟩

/-- **EVERY STEP KEEPS THE REGISTERS ORDERLY.** -/
theorem Step.orderly (h : Step D w w') (hw : Orderly D w) :
    Orderly D w' := by
  cases h with
  | elsewhere h =>
      obtain ⟨hlaunches, hsettled, hof, hcustodians, husdcAllowance,
        hallowance⟩ := h
      obtain ⟨h1, h2, h3, h4, h5⟩ := hw
      refine ⟨?_, ?_, ?_, ?_, ?_⟩
      · rw [hlaunches, hsettled]
        exact h1
      · rw [hlaunches]
        exact h2
      · intro t
        rw [hof, hcustodians]
        exact h3 t
      · intro t
        have hle := hallowance t
        rw [h4 t] at hle
        exact Nat.le_zero.mp hle
      · rw [husdcAllowance]
        exact h5
  | @registerLaunch L _ _ sender token curve creator h =>
      simp only [GraduationSettlement.registerLaunch, bind_ok, revertIf_ok,
        pure_ok, Bool.not_eq_true] at h
      obtain ⟨_, -, _, -, _, -, _, -, _, -, _, hnew, _, -, _, -, rfl⟩ := h
      obtain ⟨h1, h2, h3, h4, h5⟩ := hw
      refine ⟨?_, ?_, h3, h4, h5⟩
      · intro t ht
        by_cases heq : t = token
        · subst heq
          have hregistered := h2 t (h1 t ht)
          rw [hnew] at hregistered
          cases hregistered
        · simp only [Function.update_of_ne heq]
          exact h1 t ht
      · intro t ht
        by_cases heq : t = token
        · subst heq
          simp only [Function.update_self]
        · simp only [Function.update_of_ne heq] at ht ⊢
          exact h2 t ht
  | graduate _ h =>
      have hpaid := hw.sendValue (D := D)
      exact (graduate_graduated (hpaid _ _ _).custody h).orderly (hpaid _ _ _)

theorem Reaches.orderly (h : Reaches D w w') (hw : Orderly D w) :
    Orderly D w' := by
  induction h with
  | refl => exact hw
  | tail _ hstep ih => exact hstep.orderly ih

/-- Nothing is settled twice: once settled, always settled. -/
theorem Step.settled (h : Step D w w') (hw : Orderly D w) {t : Address}
    (ht : w.settled t = true) : w'.settled t = true := by
  cases h with
  | elsewhere h =>
      rw [h.settled]
      exact ht
  | registerLaunch h =>
      simp only [GraduationSettlement.registerLaunch, bind_ok, revertIf_ok,
        pure_ok] at h
      obtain ⟨_, -, _, -, _, -, _, -, _, -, _, -, _, -, _, -, rfl⟩ := h
      exact ht
  | @graduate G _ _ sender token creator tokenAmount nativeUsdcAmount value
      _ h =>
      have hgraduated := graduate_graduated
        (hw.sendValue (D := D) sender D.graduationManager value).custody h
      rw [hgraduated.settled]
      by_cases heq : t = token
      · rw [heq, Function.update_self]
      · rw [Function.update_of_ne heq]
        exact ht

theorem Reaches.settled (h : Reaches D w w') (hw : Orderly D w)
    {t : Address} (ht : w.settled t = true) : w'.settled t = true := by
  induction h with
  | refl => exact ht
  | tail hpath hstep ih =>
      exact hstep.settled (Reaches.orderly hpath hw) ih

/-! ## Trades are steps -/

theorem Elsewhere.trans {w₁ w₂ w₃ : World τ} (h : Elsewhere D w₁ w₂)
    (h' : Elsewhere D w₂ w₃) : Elsewhere D w₁ w₃ where
  launches := h'.launches.trans h.launches
  settled := h'.settled.trans h.settled
  custodianOf := h'.custodianOf.trans h.custodianOf
  custodians := h'.custodians.trans h.custodians
  usdcAllowance := h'.usdcAllowance.trans h.usdcAllowance
  allowance t := (h'.allowance t).trans (h.allowance t)

/-- Curves, fees, value and the journal are no registers. -/
theorem Elsewhere.of_same (hlaunches : w'.launches = w.launches)
    (hsettled : w'.settled = w.settled)
    (hof : w'.custodianOf = w.custodianOf)
    (hcustodians : w'.custodians = w.custodians)
    (husdcAllowance : w'.usdcAllowance = w.usdcAllowance)
    (htokens : w'.tokens = w.tokens) : Elsewhere D w w' where
  launches := hlaunches
  settled := hsettled
  custodianOf := hof
  custodians := hcustodians
  usdcAllowance := husdcAllowance
  allowance t := by rw [htokens]

/-- One ledger is replaced by one that allows no more. -/
theorem setToken_elsewhere {token : Address} {t : τ} {journal : List Line}
    (hallowance : Erc20.allowance Revert t D.settlementExecutor
        D.nonfungiblePositionManager
      ≤ Erc20.allowance Revert (w.tokens token) D.settlementExecutor
        D.nonfungiblePositionManager) :
    Elsewhere D w
      { w with tokens := Function.update w.tokens token t, journal } where
  launches := rfl
  settled := rfl
  custodianOf := rfl
  custodians := rfl
  usdcAllowance := rfl
  allowance s := by
    by_cases heq : s = token
    · subst heq
      simp only [Function.update_self]
      exact hallowance
    · simp only [Function.update_of_ne heq]
      exact Nat.le_refl _

theorem safeTransfer_elsewhere {operator token dst : Address} {amount : Nat}
    (h : w.safeTransfer operator token dst amount = .ok w') :
    Elsewhere D w w' := by
  simp only [World.safeTransfer, bind_ok, pure_ok] at h
  obtain ⟨t, ht, rfl⟩ := h
  obtain ⟨-, -, hallowance⟩ := Erc20.transfer_ok _ _ _ _ _ ht
  refine setToken_elsewhere ?_
  rw [hallowance]

theorem safeTransferFrom_elsewhere {operator token src dst : Address}
    {amount : Nat}
    (h : w.safeTransferFrom operator token src dst amount = .ok w') :
    Elsewhere D w w' := by
  simp only [World.safeTransferFrom, bind_ok, pure_ok] at h
  obtain ⟨t, ht, rfl⟩ := h
  obtain ⟨-, -, -, hallowance⟩ := Erc20.transferFrom_ok _ _ _ _ _ _ ht
  exact setToken_elsewhere (hallowance _ _)

theorem approve_elsewhere {owner token spender : Address} {amount : Nat}
    (hne : owner ≠ D.settlementExecutor)
    (h : w.approve owner token spender amount = .ok w') :
    Elsewhere D w w' := by
  simp only [World.approve, bind_ok, pure_ok] at h
  obtain ⟨t, ht, rfl⟩ := h
  obtain ⟨-, -, hallowance⟩ := Erc20.approve_ok _ _ _ _ _ ht
  refine setToken_elsewhere (Nat.le_of_eq ?_)
  exact hallowance _ _ (fun heq => absurd heq.symm hne)

theorem depositFees_elsewhere {c : Address} {totalFee creatorFee protocolFee
    communityFee traderRewardsFee : Nat} {isBuy : Bool}
    (h : depositFees D w c totalFee creatorFee protocolFee communityFee
      traderRewardsFee isBuy = .ok w') : Elsewhere D w w' := by
  simp only [depositFees, bind_ok, revertIf_ok, pure_ok] at h
  obtain ⟨_, -, _, -, rfl⟩ := h
  exact .of_same rfl rfl rfl rfl rfl rfl

theorem sendNative_elsewhere {c recipient : Address} {amount : Nat}
    (h : sendNative w c recipient amount = .ok w') : Elsewhere D w w' := by
  simp only [sendNative, bind_ok, revertIf_ok, pure_ok] at h
  obtain ⟨_, -, _, -, rfl⟩ := h
  exact .of_same rfl rfl rfl rfl rfl rfl

theorem Elsewhere.reaches (h : Elsewhere D w w') : Reaches D w w' :=
  Relation.ReflTransGen.single (.elsewhere h)

/-- A curve's forwarding is a transfer and a graduation, which settles its
    token. -/
theorem graduateCurve_reaches {G : Answers} {c : Address}
    (h : graduateCurve D w G c = .ok w') :
    Reaches D w w' ∧ w'.settled (D.tokenOf c) = true := by
  simp only [graduateCurve, bind_ok, revertIf_ok, pure_ok, Nat.not_lt] at h
  obtain ⟨s, -, w₁, h₁, _, hle, w₂, h₂, rfl⟩ := h
  have hset : Elsewhere D w (w.setCurve c s) :=
    .of_same rfl rfl rfl rfl rfl rfl
  have hemit : Elsewhere D w₂ (w₂.emit
      [.graduationReserveForwarded c (w₂.curves c).terminalGraduationReserve
        (w.curves c).activeNativeUsdcReserve,
        .graduated c (D.tokenOf c) D.graduationManager LP_ALLOCATION
          (w.curves c).activeNativeUsdcReserve (w₂.curves c).soldSupply]) :=
    .of_same rfl rfl rfl rfl rfl rfl
  refine ⟨?_, ?_⟩
  · exact (((hset.trans (safeTransfer_elsewhere h₁)).reaches.tail
      (.graduate hle h₂)).tail (.elsewhere hemit))
  · show w₂.settled (D.tokenOf c) = true
    simp only [Settlement.graduate, bind_ok, pure_ok, Prod.exists] at h₂
    obtain ⟨_, -, _, -, _, -, _, -, _, -, _, -, _, _, _, _, -, _, -, rfl⟩ := h₂
    exact Function.update_self _ _ _

/-- **EVERY FIRST HALF IS A SEQUENCE OF STEPS**, and a buy that reaches the
    graduation settles its token. -/
theorem enter_reaches [MulDiv] {k : CurveMachine.Call}
    {e : Entry (World τ) Receipt}
    (h : (CurveMachine.machine D).enter k w = .ok e) :
    Reaches D w e.state ∧ ∀ c trader q, e.ret = .bought c trader q →
      q.reachesGraduation = true → e.state.settled (D.tokenOf c) = true := by
  cases k with
  | buy trader c value minTokensOut deadline G =>
      simp only [CurveMachine.machine, buy, bind_ok, revertIf_ok,
        pure_ok] at h
      obtain ⟨_, -, _, -, _, -, _, -, _, -, q, -, _, -, s, -, w₁, h₁, w₂, h₂,
        w₃, h₃, w₄, h₄, rfl⟩ := h
      have hrecorded : Elsewhere D w
          (((w.sendValue trader c value).setEntered c true).setCurve c s) :=
        .of_same rfl rfl rfl rfl rfl rfl
      have hpaid : Elsewhere D w w₂ := (hrecorded.trans
        (safeTransfer_elsewhere h₁)).trans (depositFees_elsewhere h₂)
      have hgraduated : Reaches D w₂ w₃ ∧ (q.reachesGraduation = true →
          w₃.settled (D.tokenOf c) = true) := by
        by_cases hreaches : q.reachesGraduation = true
        · rw [if_pos hreaches] at h₃
          obtain ⟨hpath, hsettled⟩ := graduateCurve_reaches h₃
          exact ⟨hpath, fun _ => hsettled⟩
        · rw [if_neg hreaches] at h₃
          cases Except.ok.inj h₃
          exact ⟨.refl, fun hr => absurd hr hreaches⟩
      have hrefund : Elsewhere D w₃ w₄ := by
        split at h₄
        · exact sendNative_elsewhere h₄
        · cases Except.ok.inj h₄
          exact .of_same rfl rfl rfl rfl rfl rfl
      obtain ⟨hpath, hsettled⟩ := hgraduated
      refine ⟨(hpaid.reaches.trans hpath).tail (.elsewhere hrefund), ?_⟩
      intro c' trader' q' hret hreaches
      cases hret
      show w₄.settled (D.tokenOf c) = true
      rw [hrefund.settled]
      exact hsettled hreaches
  | sell trader c tokensIn minNativeUsdcOut deadline =>
      simp only [CurveMachine.machine, sell, bind_ok, revertIf_ok,
        pure_ok] at h
      obtain ⟨_, -, _, -, _, -, _, -, q, -, _, -, s, -, w₁, h₁, w₂, h₂, w₃,
        h₃, rfl⟩ := h
      have hrecorded : Elsewhere D w ((w.setEntered c true).setCurve c s) :=
        .of_same rfl rfl rfl rfl rfl rfl
      refine ⟨Elsewhere.reaches (((hrecorded.trans
        (safeTransferFrom_elsewhere h₁)).trans
          (depositFees_elsewhere h₂)).trans (sendNative_elsewhere h₃)), ?_⟩
      intro c' trader' q' hret
      cases hret
  | feeManager sender value V k =>
      simp only [CurveMachine.machine, callFeeManager, bind_ok,
        revertIf_ok] at h
      obtain ⟨_, -, _, -, out, -, h⟩ := h
      split at h
      · cases Except.ok.inj h
        refine ⟨Elsewhere.reaches (.of_same rfl rfl rfl rfl rfl rfl), ?_⟩
        intro c' trader' q' hret
        cases hret
      · simp only [bind_ok, revertIf_ok, pure_ok] at h
        obtain ⟨_, -, rfl⟩ := h
        refine ⟨Elsewhere.reaches (.of_same rfl rfl rfl rfl rfl rfl), ?_⟩
        intro c' trader' q' hret
        cases hret
  | token sender token k =>
      simp only [CurveMachine.machine, callToken, bind_ok, revertIf_ok,
        pure_ok] at h
      obtain ⟨w', ⟨_, houtsider, h⟩, rfl⟩ := h
      refine ⟨Elsewhere.reaches ?_, by
        intro c' trader' q' hret
        cases hret⟩
      cases k with
      | transfer recipient amount => exact safeTransfer_elsewhere h
      | transferFrom owner recipient amount =>
          exact safeTransferFrom_elsewhere h
      | approve spender amount =>
          refine approve_elsewhere ?_ h
          rintro rfl
          exact houtsider (by simp [Deployment.internal])
  | graduate sender token creator tokenAmount nativeUsdcAmount value G =>
      simp only [CurveMachine.machine, callGraduate, bind_ok, revertIf_ok,
        pure_ok, not_or, Nat.not_le, Nat.not_lt] at h
      obtain ⟨w', ⟨_, -, _, ⟨-, hle⟩, h⟩, rfl⟩ := h
      refine ⟨Relation.ReflTransGen.single (.graduate hle h), ?_⟩
      intro c' trader' q' hret
      cases hret
  | force sender recipient amount =>
      simp only [CurveMachine.machine, force, bind_ok, revertIf_ok,
        pure_ok] at h
      obtain ⟨w', ⟨_, -, _, -, rfl⟩, rfl⟩ := h
      refine ⟨Elsewhere.reaches (.of_same rfl rfl rfl rfl rfl rfl), ?_⟩
      intro c' trader' q' hret
      cases hret
  | wait seconds =>
      cases Except.ok.inj h
      refine ⟨Elsewhere.reaches (.of_same rfl rfl rfl rfl rfl rfl), ?_⟩
      intro c' trader' q' hret
      cases hret

/-- **EVERY HALF IS A SEQUENCE OF STEPS.** -/
theorem half_reaches [MulDiv] (h : (CurveMachine.machine D).Half w w') :
    Reaches D w w' := by
  cases h with
  | enter h => exact (enter_reaches h).1
  | leave r =>
      refine Elsewhere.reaches ?_
      cases r with
      | nothing => exact .of_same rfl rfl rfl rfl rfl rfl
      | bought c trader q => exact .of_same rfl rfl rfl rfl rfl rfl
      | sold c trader q => exact .of_same rfl rfl rfl rfl rfl rfl
      | fees receipt => exact .of_same rfl rfl rfl rfl rfl rfl

/-! ## The settlement law -/

/-- **THE SETTLEMENT LAW.**  From deployment on, wherever launches, trades,
    transfers and forced balances lead: a graduation that succeeds settles
    everything it was handed (`Graduated`), with nothing allowed before and
    nothing allowed after; settled implies graduated implies registered; and
    what is settled stays settled and cannot be settled again.  All halves of
    all transactions around the curves are such steps, a call that fails
    leaves no trace, and a buy that reaches the graduation only succeeds with
    its token settled. -/
theorem settlement_law [MulDiv] {w₀ : World τ} (h₀ : Bootstrapped D w₀) :
    (∀ w, Reaches D w₀ w →
      (∀ G sender token creator tokenAmount nativeUsdcAmount value w',
        value ≤ w.native sender →
        Settlement.graduate D G
          (w.sendValue sender D.graduationManager value) sender token creator
          tokenAmount nativeUsdcAmount value = .ok w' →
        Erc20.allowance Revert (w.tokens token) D.settlementExecutor
            D.nonfungiblePositionManager = 0
          ∧ w.usdcAllowance D.settlementExecutor
            D.nonfungiblePositionManager = 0
          ∧ Graduated D G token
            (w.sendValue sender D.graduationManager value) w') ∧
      (∀ token, (w.settled token = true →
          (w.launches token).graduated = true)
        ∧ ((w.launches token).graduated = true →
          (w.launches token).registered = true)) ∧
      (∀ w' token, Reaches D w w' → w.settled token = true →
        w'.settled token = true ∧
        ∀ G sender creator tokenAmount nativeUsdcAmount value w'',
          Settlement.graduate D G
            (w'.sendValue sender D.graduationManager value) sender token
            creator tokenAmount nativeUsdcAmount value ≠ .ok w'')) ∧
    (∀ w w' : World τ, (CurveMachine.machine D).Half w w' →
      Reaches D w w') ∧
    (∀ k callback (w : World τ),
      (∀ e, (CurveMachine.machine D).enter k w ≠ .ok e) →
      (CurveMachine.machine D).transact k callback w = w) ∧
    (∀ k (w : World τ) e c trader q,
      (CurveMachine.machine D).enter k w = .ok e →
      e.ret = .bought c trader q → q.reachesGraduation = true →
      e.state.settled (D.tokenOf c) = true) := by
  refine ⟨?_, fun w w' => half_reaches, ?_, ?_⟩
  · intro w hw
    have horderly := Reaches.orderly hw h₀.orderly
    refine ⟨?_, ?_, ?_⟩
    · intro G sender token creator tokenAmount nativeUsdcAmount value w' _ h
      have hpaid := horderly.sendValue (D := D) sender D.graduationManager
        value
      exact ⟨horderly.allowance token, horderly.usdcAllowance,
        graduate_graduated hpaid.custody h⟩
    · intro token
      exact ⟨horderly.settled token, horderly.graduated token⟩
    · intro w' token hw' ht
      have hsettled := Reaches.settled hw' horderly ht
      refine ⟨hsettled, ?_⟩
      intro G sender creator tokenAmount nativeUsdcAmount value w'' h
      have hpaid := (Reaches.orderly hw' horderly).sendValue (D := D) sender
        D.graduationManager value
      obtain ⟨-, -, hunsettled⟩ := (graduate_graduated hpaid.custody h).before
      exact Bool.false_ne_true (hunsettled.symm.trans hsettled)
  · intro k callback w hfails
    exact (CurveMachine.machine D).transact_not_ok hfails
  · intro k w e c trader q he hret hreaches
    exact (enter_reaches he).2 c trader q hret hreaches

end Machine

/-! ## One graduation -/

/-- Nothing is registered yet, and what a graduation needs is in place. -/
def unlaunched : World (Ledger Address) :=
  { CurveRun.oneLaunch with
    native := fun a =>
      if a = 20 then GRADUATION_NATIVE_USDC_RESERVE else 0
    tokens := fun _ =>
      ⟨fun a => if a = 13 then LP_ALLOCATION else 0, fun _ _ => 0⟩
    launches := fun _ => ⟨0, 0, false, false⟩ }

theorem bootstrapped_unlaunched :
    @Bootstrapped _ CurveRun.plainToken CurveRun.oneCurve unlaunched := by
  let _ := CurveRun.plainToken
  exact ⟨fun _ => rfl, fun _ => rfl, fun _ => rfl, fun _ => rfl, rfl⟩

/-- The same world with the launch registered. -/
def launched : World (Ledger Address) :=
  { unlaunched with
    launches := Function.update (fun _ => ⟨0, 0, false, false⟩) 21
      ⟨20, 22, true, false⟩ }

theorem settlement_law_unlaunched :
    ∃ w' : World (Ledger Address),
      @Graduated _ CurveRun.plainToken CurveRun.oneCurve
        CurveRun.honestAnswers 21
        (launched.sendValue 20 13 GRADUATION_NATIVE_USDC_RESERVE) w' := by
  let _ := CurveRun.plainToken
  let _ := exactMulDiv
  have hregister : registerLaunch CurveRun.oneCurve
      ⟨fun _ => true, true, true⟩ unlaunched 10 21 20 22 = .ok launched := rfl
  have hlaunched : Step CurveRun.oneCurve unlaunched launched :=
    .registerLaunch hregister
  have hreturns : (Settlement.graduate CurveRun.oneCurve CurveRun.honestAnswers
      (launched.sendValue 20 13 GRADUATION_NATIVE_USDC_RESERVE) 20 21 22
      LP_ALLOCATION GRADUATION_NATIVE_USDC_RESERVE
      GRADUATION_NATIVE_USDC_RESERVE).isOk = true := by
    decide +kernel
  cases hgraduate : Settlement.graduate CurveRun.oneCurve CurveRun.honestAnswers
      (launched.sendValue 20 13 GRADUATION_NATIVE_USDC_RESERVE) 20 21 22
      LP_ALLOCATION GRADUATION_NATIVE_USDC_RESERVE
      GRADUATION_NATIVE_USDC_RESERVE with
  | error e =>
      rw [hgraduate] at hreturns
      exact nomatch hreturns
  | ok w' =>
      have hlaw := (settlement_law bootstrapped_unlaunched).1 launched
        (Relation.ReflTransGen.single hlaunched)
      obtain ⟨-, -, hgraduated⟩ := hlaw.1 CurveRun.honestAnswers 20 21 22 _ _ _ w'
        (Nat.le_refl _) hgraduate
      exact ⟨w', hgraduated⟩

end GraduationSettlement
