import Cooket.CurveWorldProofs

/-! # The settlement of a graduation

    What `GraduationManagerV3.graduate` does with the reserve and the tokens a
    curve forwards: it authorises the curve, checks the amounts and the price
    of the reserved pool, has a custodian and an escrow created, and lets
    `GraduationSettlementExecutorV3` mint the permanent position and hand the
    rounding residuals to the escrow.

    The position manager and the pool are not part of the sources, and neither
    is the choice of a new contract's address.  What they answer during one
    graduation is the PARAMETER `Answers`.  A mint answers what it likes and
    pulls what it likes, out of the executor's allowances.

    A graduation is a sequence of a few kinds of steps (`Settles`), and every
    later result about graduations is an induction over these.  The first is
    that nothing here is ordered by a curve (`graduate_frame`). -/

namespace Settlement

open CheckedArith Contract CurveWorld Endpoint TokenLedger
open LPVault (CANONICAL_USDC Custodian FULL_RANGE_TICK_LOWER
  FULL_RANGE_TICK_UPPER Position POOL_FEE isCanonicalFullRangePosition
  sortedPair)

/-- `floor(sqrt((36_225 / 1e21) * 2^192))`. -/
def SQRT_PRICE_X96_TOKEN0_LAUNCH : Nat := 476852189220498924480

/-- `floor(sqrt((1e21 / 36_225) * 2^192))`. -/
def SQRT_PRICE_X96_TOKEN0_USDC : Nat := 13163621510572779143698740160447723801

def MAX_TOKEN_ROUNDING_RESIDUAL : Nat := 10 ^ 18
def MAX_USDC6_ROUNDING_RESIDUAL : Nat := 1

/-- `INonfungiblePositionManagerV3.MintParams`. -/
structure MintParams where
  token0 : Address
  token1 : Address
  fee : Nat
  tickLower : Int
  tickUpper : Int
  amount0Desired : Nat
  amount1Desired : Nat
  amount0Min : Nat
  amount1Min : Nat
  recipient : Address
  deadline : Nat
  deriving DecidableEq, Repr

/-- What `mint` returns. -/
structure MintResult where
  tokenId : Nat
  liquidity : Nat
  amount0 : Nat
  amount1 : Nat
  deriving DecidableEq, Repr

/-- What code outside the sources answers during one graduation, and the
    addresses of the contracts it creates. -/
structure Answers where
  hasCode : Address → Bool
  /-- The price in `slot0` of the reserved pool. -/
  sqrtPriceX96 : Nat
  newCustodian : Address
  newEscrow : Address
  mint : MintParams → Except Revert MintResult
  /-- How much of the two assets `mint` pulls. -/
  pulled : MintParams → Nat × Nat
  ownerOf : Nat → Address
  positions : Nat → Option Position
  /-- The factory's `isToken` and `curveOf`. -/
  isToken : Address → Bool
  curveOf : Address → Address

/-- `IGraduationSettlementExecutorV3.SettlementResult`. -/
structure SettlementResult where
  tokenId : Nat
  liquidity : Nat
  amount0Used : Nat
  amount1Used : Nat
  tokenResidual : Nat
  usdcResidual6 : Nat
  nativeUsdcDust18 : Nat
  deriving DecidableEq, Repr

/-- `GraduationSettlementExecutorV3.BalanceSnapshot`. -/
structure BalanceSnapshot where
  nativeAmount18 : Nat
  usdcAmount6 : Nat
  tokenAmount18 : Nat
  deriving DecidableEq, Repr

/-- `nativeUsdcToUsdc6Exact`. -/
def nativeUsdcToUsdc6Exact (nativeUsdcAmount : Nat) : Except Revert Nat := do
  revertIf (nativeUsdcAmount % NATIVE_PER_ERC20_BASE_UNIT ≠ 0)
    (.arc (.nativeUsdcAmountNotExactlyRepresentable nativeUsdcAmount))
  pure (nativeUsdcAmount / NATIVE_PER_ERC20_BASE_UNIT)

/-- `usdc6ToNativeUsdc`. -/
def usdc6ToNativeUsdc (usdc6Amount : Nat) : Except Revert Nat := do
  revertIf ((uintBound - 1) / NATIVE_PER_ERC20_BASE_UNIT < usdc6Amount)
    (.arc (.usdc6ToNativeUsdcOverflow usdc6Amount))
  mul usdc6Amount NATIVE_PER_ERC20_BASE_UNIT

/-- `expectedSqrtPriceX96`. -/
def expectedSqrtPriceX96 (token : Address) : Except Revert Nat := do
  revertIf (token = 0 ∨ token = CANONICAL_USDC) (.manager .invalidToken)
  pure (if token < CANONICAL_USDC then SQRT_PRICE_X96_TOKEN0_LAUNCH
    else SQRT_PRICE_X96_TOKEN0_USDC)

variable {τ : Type} [Erc20 Address Revert τ]

section Functions

variable (D : Deployment) (G : Answers) (w : World τ)

/-- Whether an address has code: the protocol's own contracts do, those it
    created do, and about the rest the environment answers. -/
def hasCode (a : Address) : Bool :=
  D.internal a || (w.custodians a).isSome || (w.escrows a).isSome
    || G.hasCode a

/-- The constructor of `PermanentLPCustodianV3`. -/
def newCustodian (launchToken : Address) : Except Revert (World τ) := do
  revertIf (hasCode D G w G.newCustodian = true) .external
  revertIf (launchToken = 0 ∨ launchToken = CANONICAL_USDC
      ∨ hasCode D G w launchToken = false
      ∨ hasCode D G w CANONICAL_USDC = false
      ∨ D.dependenciesAgree = false) (.custodian .invalidDependency)
  let launch := w.launches launchToken
  revertIf (launch.registered = false ∨ launch.curve = 0 ∨ launch.creator = 0
      ∨ G.isToken launchToken = false
      ∨ G.curveOf launchToken ≠ launch.curve
      ∨ w.fees.curveOf launchToken ≠ launch.curve
      ∨ w.fees.creatorOf launchToken ≠ launch.creator)
    (.custodian .invalidDependency)
  pure
    { w with
      custodians := Function.update w.custodians G.newCustodian
        (some ⟨launchToken, D.graduationManager, D.permanentLPFeeVault,
          D.nonfungiblePositionManager, D.factory, 0, false⟩) }

/-- `deployCustodian`. -/
def deployCustodian (sender launchToken : Address) :
    Except Revert (World τ) := do
  revertIf (sender ≠ D.graduationManager)
    (.deployer .unauthorizedGraduationManager)
  revertIf (launchToken = 0 ∨ hasCode D G w launchToken = false)
    (.deployer .invalidLaunchToken)
  revertIf (w.custodianOf launchToken ≠ 0) (.deployer .custodianAlreadyDeployed)
  let w ← newCustodian D G w launchToken
  pure
    { w with
      custodianOf := Function.update w.custodianOf launchToken G.newCustodian
      journal := w.journal
        ++ [.permanentCustodianDeployed launchToken G.newCustodian] }

/-- The custodian a graduation uses: the registered one, or a new one. -/
def custodianFor (token : Address) : Except Revert (World τ × Address) :=
  if w.custodianOf token = 0 then do
    let w ← deployCustodian D G w D.graduationManager token
    pure (w, G.newCustodian)
  else pure (w, w.custodianOf token)

/-- The constructor of `PermanentResidualEscrowV3`. -/
def newEscrow (launchToken : Address) : Except Revert (World τ) := do
  revertIf (hasCode D G w G.newEscrow = true) .external
  revertIf (launchToken = 0 ∨ D.graduationManager = 0
      ∨ D.settlementExecutor = 0 ∨ hasCode D G w launchToken = false
      ∨ hasCode D G w D.graduationManager = false
      ∨ hasCode D G w D.settlementExecutor = false
      ∨ hasCode D G w CANONICAL_USDC = false) (.escrow .invalidDependency)
  pure
    { w with
      escrows := Function.update w.escrows G.newEscrow
        (some ⟨launchToken, D.graduationManager, D.settlementExecutor,
          fun _ => 0, 0⟩) }

/-- The escrow's `deposit`. -/
def deposit (sender escrow asset : Address) (amount : Nat) :
    Except Revert (World τ) :=
  match w.escrows escrow with
  | none => .error .external
  | some e => do
      revertIf (sender ≠ e.graduationManager) (.escrow .unauthorizedDeposit)
      revertIf (asset ≠ e.launchToken ∧ asset ≠ CANONICAL_USDC)
        (.escrow .unsupportedAsset)
      revertIf (amount = 0) (.escrow .zeroAmount)
      let required ← add (e.depositedResidual asset) amount
      revertIf (w.assetBalanceOf asset escrow < required)
        (.escrow .insufficientBacking)
      pure
        { w with
          escrows := Function.update w.escrows escrow (some { e with
            depositedResidual :=
              Function.update e.depositedResidual asset required })
          journal := w.journal
            ++ [.residualDeposited e.launchToken asset amount] }

/-- The escrow's `depositNativeUsdcDust`, with its value. -/
def depositNativeUsdcDust (sender escrow : Address) (value : Nat) :
    Except Revert (World τ) :=
  match w.escrows escrow with
  | none => .error .external
  | some e => do
      revertIf (w.native sender < value) .insufficientValue
      let w := w.sendValue sender escrow value
      revertIf (sender ≠ e.settlementExecutor) (.escrow .unauthorizedDeposit)
      revertIf (value = 0 ∨ NATIVE_PER_ERC20_BASE_UNIT ≤ value)
        (.escrow .invalidNativeUsdcDust)
      let dust ← add e.depositedNativeUsdcDust18 value
      pure
        { w with
          escrows := Function.update w.escrows escrow
            (some { e with depositedNativeUsdcDust18 := dust })
          journal := w.journal
            ++ [.nativeUsdcDustDeposited e.launchToken value] }

/-- `forceApprove` of the ERC-20 face of the native value. -/
def approveUsdc (owner spender : Address) (amount : Nat) : World τ :=
  { w with
    usdcAllowance := LedgerSum.update₂ w.usdcAllowance owner spender amount }

/-- The position manager pulls one of the two assets from the executor into
    the pool. -/
def pull (pool asset : Address) (amount : Nat) : Except Revert (World τ) :=
  if asset = CANONICAL_USDC then do
    revertIf (w.usdcAllowance D.settlementExecutor
        D.nonfungiblePositionManager < amount
      ∨ w.native D.settlementExecutor < amount * NATIVE_PER_ERC20_BASE_UNIT)
      .external
    pure (w.sendValue D.settlementExecutor pool
      (amount * NATIVE_PER_ERC20_BASE_UNIT))
  else w.safeTransferFrom D.nonfungiblePositionManager asset
    D.settlementExecutor pool amount

/-- `_mintPosition`. -/
def mintPosition (token custodian : Address)
    (tokenAmount usdcAmount6 : Nat) :
    Except Revert (World τ × MintResult) := do
  let tokenIsToken0 := decide (token < CANONICAL_USDC)
  let tokenMin ← sub tokenAmount MAX_TOKEN_ROUNDING_RESIDUAL
  let usdcMin ← sub usdcAmount6 1
  let params : MintParams :=
    { token0 := if tokenIsToken0 then token else CANONICAL_USDC
      token1 := if tokenIsToken0 then CANONICAL_USDC else token
      fee := POOL_FEE
      tickLower := FULL_RANGE_TICK_LOWER
      tickUpper := FULL_RANGE_TICK_UPPER
      amount0Desired := if tokenIsToken0 then tokenAmount else usdcAmount6
      amount1Desired := if tokenIsToken0 then usdcAmount6 else tokenAmount
      amount0Min := if tokenIsToken0 then tokenMin else usdcMin
      amount1Min := if tokenIsToken0 then usdcMin else tokenMin
      recipient := custodian
      deadline := w.now }
  let w ← w.approve D.settlementExecutor token D.nonfungiblePositionManager
    tokenAmount
  let w := approveUsdc w D.settlementExecutor D.nonfungiblePositionManager
    usdcAmount6
  let m ← G.mint params
  let w ← pull D w (D.canonicalPoolOf token) params.token0 (G.pulled params).1
  let w ← pull D w (D.canonicalPoolOf token) params.token1 (G.pulled params).2
  pure (w, m)

/-- The three balances of the executor. -/
def snapshot (token : Address) : BalanceSnapshot where
  nativeAmount18 := w.native D.settlementExecutor
  usdcAmount6 := w.usdcBalanceOf D.settlementExecutor
  tokenAmount18 := w.balanceOf token D.settlementExecutor

/-- The residuals a mint left go to the escrow. -/
def sendResiduals (token residualEscrow : Address)
    (tokenResidual usdcResidual6 nativeUsdcDust18 : Nat) :
    Except Revert (World τ) := do
  let w ← (if tokenResidual ≠ 0 then
      w.safeTransfer D.settlementExecutor token residualEscrow tokenResidual
    else pure w)
  let w ← (if usdcResidual6 ≠ 0 then do
      revertIf (w.native D.settlementExecutor
        < usdcResidual6 * NATIVE_PER_ERC20_BASE_UNIT) .external
      pure (w.sendValue D.settlementExecutor residualEscrow
        (usdcResidual6 * NATIVE_PER_ERC20_BASE_UNIT))
    else pure w)
  if nativeUsdcDust18 ≠ 0 then
    depositNativeUsdcDust w D.settlementExecutor residualEscrow
      nativeUsdcDust18
  else pure w

/-- `execute`. -/
def execute (sender token custodian : Address)
    (tokenAmount nativeUsdcAmount : Nat) (residualEscrow : Address)
    (value : Nat) : Except Revert (World τ × SettlementResult) := do
  revertIf (sender ≠ D.graduationManager ∨ value ≠ nativeUsdcAmount
      ∨ token = 0 ∨ token = CANONICAL_USDC ∨ custodian = 0
      ∨ residualEscrow = 0 ∨ hasCode D G w residualEscrow = false)
    (.executor .unauthorizedCaller)
  let usdcAmount6 ← nativeUsdcToUsdc6Exact nativeUsdcAmount
  let beforeBalances := snapshot D w token
  revertIf (beforeBalances.nativeAmount18 < nativeUsdcAmount
      ∨ beforeBalances.usdcAmount6 < usdcAmount6
      ∨ beforeBalances.tokenAmount18 < tokenAmount)
    (.executor .settlementMismatch)
  let (w, m) ← mintPosition D G w token custodian tokenAmount usdcAmount6
  let usedToken := if token < CANONICAL_USDC then m.amount0 else m.amount1
  let usedUsdc6 := if token < CANONICAL_USDC then m.amount1 else m.amount0
  revertIf (tokenAmount < usedToken ∨ usdcAmount6 < usedUsdc6
      ∨ m.liquidity = 0) (.executor .settlementMismatch)
  let leastToken ← sub tokenAmount MAX_TOKEN_ROUNDING_RESIDUAL
  revertIf (usedToken < leastToken) (.executor .settlementMismatch)
  let leastUsdc6 ← sub usdcAmount6 MAX_USDC6_ROUNDING_RESIDUAL
  revertIf (usedUsdc6 < leastUsdc6) (.executor .settlementMismatch)
  let w ← w.approve D.settlementExecutor token D.nonfungiblePositionManager 0
  let w := approveUsdc w D.settlementExecutor D.nonfungiblePositionManager 0
  let nativeUsed18 ← usdc6ToNativeUsdc usedUsdc6
  let tokenSpent ← sub beforeBalances.tokenAmount18
    (w.balanceOf token D.settlementExecutor)
  revertIf (tokenSpent ≠ usedToken) (.executor .settlementMismatch)
  let usdcSpent ← sub beforeBalances.usdcAmount6
    (w.usdcBalanceOf D.settlementExecutor)
  revertIf (usdcSpent ≠ usedUsdc6) (.executor .settlementMismatch)
  let nativeSpent ← sub beforeBalances.nativeAmount18
    (w.native D.settlementExecutor)
  revertIf (nativeSpent ≠ nativeUsed18) (.executor .settlementMismatch)
  let tokenResidual ← sub tokenAmount usedToken
  let usdcResidual6 ← sub usdcAmount6 usedUsdc6
  let exactNative ← usdc6ToNativeUsdc usdcAmount6
  let nativeUsdcDust18 ← sub nativeUsdcAmount exactNative
  let w ← sendResiduals D w token residualEscrow tokenResidual usdcResidual6
    nativeUsdcDust18
  let tokenLeft ← sub beforeBalances.tokenAmount18 tokenAmount
  revertIf (w.balanceOf token D.settlementExecutor ≠ tokenLeft)
    (.executor .settlementMismatch)
  let usdcLeft ← sub beforeBalances.usdcAmount6 usdcAmount6
  revertIf (w.usdcBalanceOf D.settlementExecutor ≠ usdcLeft)
    (.executor .settlementMismatch)
  let nativeLeft ← sub beforeBalances.nativeAmount18 nativeUsdcAmount
  revertIf (w.native D.settlementExecutor ≠ nativeLeft
      ∨ Erc20.allowance Revert (w.tokens token) D.settlementExecutor
          D.nonfungiblePositionManager ≠ 0
      ∨ w.usdcAllowance D.settlementExecutor D.nonfungiblePositionManager ≠ 0)
    (.executor .settlementMismatch)
  pure (w,
    { tokenId := m.tokenId
      liquidity := m.liquidity
      amount0Used := m.amount0
      amount1Used := m.amount1
      tokenResidual
      usdcResidual6
      nativeUsdcDust18 })

/-- The manager books the residuals in the escrow. -/
def depositResiduals (token escrow : Address) (result : SettlementResult) :
    Except Revert (World τ) := do
  let w ← (if result.tokenResidual ≠ 0 then
      deposit w D.graduationManager escrow token result.tokenResidual
    else pure w)
  if result.usdcResidual6 ≠ 0 then
    deposit w D.graduationManager escrow CANONICAL_USDC result.usdcResidual6
  else pure w

/-- `_settle`. -/
def settle (token : Address) (tokenAmount nativeUsdcAmount : Nat) :
    Except Revert (World τ × Address × Nat × Nat) := do
  let (w, custodian) ← custodianFor D G w token
  let w ← newEscrow D G w token
  let w := { w with
    residualEscrowOf :=
      Function.update w.residualEscrowOf token G.newEscrow }
  let w ← w.safeTransfer D.graduationManager token D.settlementExecutor
    tokenAmount
  let managerNativeBalanceBefore := w.native D.graduationManager
  revertIf (w.native D.graduationManager < nativeUsdcAmount)
    .insufficientValue
  let w := w.sendValue D.graduationManager D.settlementExecutor
    nativeUsdcAmount
  let (w, result) ← execute D G w D.graduationManager token custodian
    tokenAmount nativeUsdcAmount G.newEscrow nativeUsdcAmount
  let w ← depositResiduals D w token G.newEscrow result
  revertIf (result.nativeUsdcDust18 ≠ 0
      ∨ w.balanceOf token D.graduationManager ≠ 0)
    (.manager .settlementMismatch)
  let managerNativeLeft ← sub managerNativeBalanceBefore nativeUsdcAmount
  revertIf (w.native D.graduationManager ≠ managerNativeLeft)
    (.manager .settlementMismatch)
  let usdc6 ← nativeUsdcToUsdc6Exact nativeUsdcAmount
  revertIf (usdc6 ≠ 7245000000) (.manager .settlementMismatch)
  pure (w, custodian, result.tokenId, result.liquidity)

/-- The custodian's `bindPosition`. -/
def bindPosition (sender custodian : Address) (tokenId : Nat) :
    Except Revert (World τ) :=
  match w.custodians custodian with
  | none => .error .external
  | some c => do
      revertIf (sender ≠ c.graduationManager)
        (.custodian .unauthorizedGraduationManager)
      revertIf (tokenId = 0) (.custodian .invalidTokenId)
      revertIf (c.positionRegistered = true) (.custodian .alreadyRegistered)
      revertIf (G.ownerOf tokenId ≠ custodian) (.custodian .invalidPosition)
      revertIf (isCanonicalFullRangePosition (G.positions tokenId)
          (sortedPair c.launchToken) = false) (.custodian .invalidPosition)
      pure
        { w with
          custodians := Function.update w.custodians custodian (some { c with
            positionTokenId := tokenId
            positionRegistered := true })
          journal := w.journal
            ++ [.permanentPositionRegistered c.launchToken tokenId
              c.nonfungiblePositionManager] }

/-- `_authorizeGraduation`. -/
def authorizeGraduation (sender token creator : Address) :
    Except Revert (World τ) := do
  let launch := w.launches token
  revertIf (launch.registered = false) (.manager .launchNotRegistered)
  revertIf (sender ≠ launch.curve) (.manager .unauthorizedCurve)
  revertIf (creator ≠ launch.creator) (.manager .launchRelationshipMismatch)
  revertIf (launch.graduated = true) (.manager .alreadyGraduated)
  pure
    { w with
      launches :=
        Function.update w.launches token { launch with graduated := true } }

/-- `graduate`, once its value has arrived.  Its re-entrancy guard is not
    modelled: nothing it calls gives control to anybody else. -/
def graduate (sender token creator : Address)
    (tokenAmount nativeUsdcAmount value : Nat) : Except Revert (World τ) := do
  revertIf (D.permanentLPFeeVault = 0) (.manager .dependenciesNotBound)
  let w ← authorizeGraduation w sender token creator
  revertIf (w.settled token = true ∨ value ≠ nativeUsdcAmount
      ∨ tokenAmount ≠ LP_ALLOCATION
      ∨ nativeUsdcAmount ≠ GRADUATION_NATIVE_USDC_RESERVE
      ∨ w.balanceOf token D.graduationManager ≠ tokenAmount)
    (.manager .settlementMismatch)
  revertIf (hasCode D G w (D.canonicalPoolOf token) = false) .external
  let expected ← expectedSqrtPriceX96 token
  revertIf (G.sqrtPriceX96 ≠ expected) (.manager .settlementMismatch)
  let (w, custodian, id, liquidity) ←
    settle D G w token tokenAmount nativeUsdcAmount
  let w ← bindPosition G w D.graduationManager custodian id
  pure
    { w with
      settled := Function.update w.settled token true
      journal := w.journal ++ [.graduatedV3 token custodian id liquidity] }

end Functions

/-! ## What a settlement does, step by step -/

/-- A line of the journal that moves nothing and is no curve's. -/
def Silent (D : Deployment) (l : Line) : Prop :=
  (∀ c, own c l = false) ∧ ∀ c dst, donation D c dst l = 0

/-- **THE STEPS OF A SETTLEMENT**: registers of its own token, events, value
    that the manager or the executor sends, and its token, sent by either or
    pulled out of the executor's allowance. -/
inductive Prim (D : Deployment) (token : Address) :
    World τ → World τ → Prop where
  | books {w w' : World τ} {es : List Line} :
      w'.native = w.native → w'.tokens = w.tokens → w'.curves = w.curves →
      w'.entered = w.entered → w'.fees = w.fees →
      w'.journal = w.journal ++ es → (∀ l ∈ es, Silent D l) →
      (∀ t, t ≠ token → w'.launches t = w.launches t
        ∧ w'.settled t = w.settled t ∧ w'.custodianOf t = w.custodianOf t) →
      Prim D token w w'
  | value {w : World τ} {src dst : Address} {amount : Nat} :
      src = D.graduationManager ∨ src = D.settlementExecutor →
      amount ≤ w.native src → Prim D token w (w.sendValue src dst amount)
  | transfer {w w' : World τ} {operator dst : Address} {amount : Nat} :
      operator = D.graduationManager ∨ operator = D.settlementExecutor →
      w.safeTransfer operator token dst amount = .ok w' → Prim D token w w'
  | pull {w w' : World τ} {dst : Address} {amount : Nat} :
      w.safeTransferFrom D.nonfungiblePositionManager token
        D.settlementExecutor dst amount = .ok w' → Prim D token w w'
  | allow {w w' : World τ} {amount : Nat} :
      w.approve D.settlementExecutor token D.nonfungiblePositionManager amount
        = .ok w' → Prim D token w w'

/-- A sequence of such steps. -/
def Settles (D : Deployment) (token : Address) : World τ → World τ → Prop :=
  Relation.ReflTransGen (Prim D token)

section Steps

variable {D : Deployment} {G : Answers} {w w' : World τ} {token : Address}

theorem Settles.refl (w : World τ) : Settles D token w w :=
  Relation.ReflTransGen.refl

theorem Settles.one (h : Prim D token w w') : Settles D token w w' :=
  Relation.ReflTransGen.single h

theorem Settles.and {w₁ w₂ w₃ : World τ} (h : Settles D token w₁ w₂)
    (h' : Settles D token w₂ w₃) : Settles D token w₁ w₃ :=
  Relation.ReflTransGen.trans h h'

/-- Registers of the token, with one event. -/
theorem Settles.register {l : Line} (hnative : w'.native = w.native)
    (htokens : w'.tokens = w.tokens) (hcurves : w'.curves = w.curves)
    (hentered : w'.entered = w.entered) (hfees : w'.fees = w.fees)
    (hjournal : w'.journal = w.journal ++ [l]) (hl : Silent D l)
    (hregisters : ∀ t, t ≠ token → w'.launches t = w.launches t
      ∧ w'.settled t = w.settled t ∧ w'.custodianOf t = w.custodianOf t) :
    Settles D token w w' :=
  .one (.books hnative htokens hcurves hentered hfees hjournal
    (List.forall_mem_singleton.mpr hl) hregisters)

/-- Registers of the token, without an event. -/
theorem Settles.quietly (hnative : w'.native = w.native)
    (htokens : w'.tokens = w.tokens) (hcurves : w'.curves = w.curves)
    (hentered : w'.entered = w.entered) (hfees : w'.fees = w.fees)
    (hjournal : w'.journal = w.journal)
    (hregisters : ∀ t, t ≠ token → w'.launches t = w.launches t
      ∧ w'.settled t = w.settled t ∧ w'.custodianOf t = w.custodianOf t) :
    Settles D token w w' :=
  .one (.books hnative htokens hcurves hentered hfees
    (hjournal.trans (List.append_nil _).symm) (List.forall_mem_nil _)
    hregisters)

theorem newCustodian_settles (h : newCustodian D G w token = .ok w') :
    Settles D token w w' := by
  simp only [newCustodian, bind_ok, revertIf_ok, pure_ok] at h
  obtain ⟨_, -, _, -, _, -, rfl⟩ := h
  exact .quietly rfl rfl rfl rfl rfl rfl (fun _ _ => ⟨rfl, rfl, rfl⟩)

theorem deployCustodian_settles {sender : Address}
    (h : deployCustodian D G w sender token = .ok w') :
    Settles D token w w' := by
  simp only [deployCustodian, bind_ok, revertIf_ok, pure_ok] at h
  obtain ⟨_, -, _, -, _, -, w₁, h₁, rfl⟩ := h
  refine (newCustodian_settles h₁).and (.register rfl rfl rfl rfl rfl rfl
    ⟨fun _ => rfl, fun _ _ => rfl⟩ ?_)
  intro t ht
  exact ⟨rfl, rfl, Function.update_of_ne ht _ _⟩

theorem custodianFor_settles {custodian : Address}
    (h : custodianFor D G w token = .ok (w', custodian)) :
    Settles D token w w' := by
  unfold custodianFor at h
  split at h
  · simp only [bind_ok, pure_ok] at h
    obtain ⟨w₁, h₁, heq⟩ := h
    cases heq
    exact deployCustodian_settles h₁
  · cases Except.ok.inj h
    exact .refl w

theorem newEscrow_settles (h : newEscrow D G w token = .ok w') :
    Settles D token w w' := by
  simp only [newEscrow, bind_ok, revertIf_ok, pure_ok] at h
  obtain ⟨_, -, _, -, rfl⟩ := h
  exact .quietly rfl rfl rfl rfl rfl rfl (fun _ _ => ⟨rfl, rfl, rfl⟩)

theorem deposit_settles {sender escrow asset : Address} {amount : Nat}
    (h : deposit w sender escrow asset amount = .ok w') :
    Settles D token w w' := by
  unfold deposit at h
  split at h
  · exact nomatch h
  · simp only [bind_ok, revertIf_ok, pure_ok] at h
    obtain ⟨_, -, _, -, _, -, required, -, _, -, rfl⟩ := h
    exact .register rfl rfl rfl rfl rfl rfl ⟨fun _ => rfl, fun _ _ => rfl⟩
      (fun _ _ => ⟨rfl, rfl, rfl⟩)

theorem depositResiduals_settles {escrow : Address}
    {result : SettlementResult}
    (h : depositResiduals D w token escrow result = .ok w') :
    Settles D token w w' := by
  simp only [depositResiduals, bind_ok] at h
  obtain ⟨w₁, h₁, h₂⟩ := h
  have hfirst : Settles D token w w₁ := by
    split at h₁
    · exact deposit_settles h₁
    · cases Except.ok.inj h₁
      exact .refl w
  refine hfirst.and ?_
  split at h₂
  · exact deposit_settles h₂
  · cases Except.ok.inj h₂
    exact .refl _

theorem bindPosition_settles {sender custodian : Address} {tokenId : Nat}
    (h : bindPosition G w sender custodian tokenId = .ok w') :
    Settles D token w w' := by
  unfold bindPosition at h
  split at h
  · exact nomatch h
  · simp only [bind_ok, revertIf_ok, pure_ok] at h
    obtain ⟨_, -, _, -, _, -, _, -, _, -, rfl⟩ := h
    exact .register rfl rfl rfl rfl rfl rfl ⟨fun _ => rfl, fun _ _ => rfl⟩
      (fun _ _ => ⟨rfl, rfl, rfl⟩)

theorem authorizeGraduation_settles {sender creator : Address}
    (h : authorizeGraduation w sender token creator = .ok w') :
    Settles D token w w' := by
  simp only [authorizeGraduation, bind_ok, revertIf_ok, pure_ok] at h
  obtain ⟨_, -, _, -, _, -, _, -, rfl⟩ := h
  refine .quietly rfl rfl rfl rfl rfl rfl ?_
  intro t ht
  exact ⟨Function.update_of_ne ht _ _, rfl, rfl⟩

theorem depositNativeUsdcDust_settles {escrow : Address} {value : Nat}
    (h : depositNativeUsdcDust w D.settlementExecutor escrow value
      = .ok w') : Settles D token w w' := by
  unfold depositNativeUsdcDust at h
  split at h
  · exact nomatch h
  · simp only [bind_ok, revertIf_ok, pure_ok, Nat.not_lt] at h
    obtain ⟨_, hle, _, -, _, -, dust, -, rfl⟩ := h
    exact (Settles.one (.value (.inr rfl) hle)).and
      (.register rfl rfl rfl rfl rfl rfl ⟨fun _ => rfl, fun _ _ => rfl⟩
        (fun _ _ => ⟨rfl, rfl, rfl⟩))

/-- An allowance of the ERC-20 face of the native value. -/
theorem approveUsdc_settles (owner spender : Address) (amount : Nat) :
    Settles D token w (approveUsdc w owner spender amount) :=
  .quietly rfl rfl rfl rfl rfl rfl (fun _ _ => ⟨rfl, rfl, rfl⟩)

/-- The position manager pulls the token or the native value. -/
theorem pull_settles {pool asset : Address} {amount : Nat}
    (hasset : asset = token ∨ asset = CANONICAL_USDC)
    (h : pull D w pool asset amount = .ok w') : Settles D token w w' := by
  unfold pull at h
  split at h
  · simp only [bind_ok, revertIf_ok, pure_ok, not_or, Nat.not_lt] at h
    obtain ⟨_, ⟨-, hle⟩, rfl⟩ := h
    exact .one (.value (.inr rfl) hle)
  · rename_i hne
    rcases hasset with rfl | heq
    · exact .one (.pull h)
    · exact absurd heq hne

theorem mintPosition_settles {custodian : Address}
    {tokenAmount usdcAmount6 : Nat} {m : MintResult}
    (h : mintPosition D G w token custodian tokenAmount usdcAmount6
      = .ok (w', m)) : Settles D token w w' := by
  simp only [mintPosition, bind_ok, pure_ok] at h
  obtain ⟨_, -, _, -, w₁, h₁, m', -, w₂, h₂, w₃, h₃, heq⟩ := h
  cases heq
  refine (Settles.one (.allow h₁)).and ((approveUsdc_settles _ _ _).and
    ((pull_settles ?_ h₂).and (pull_settles ?_ h₃)))
  · cases decide (token < CANONICAL_USDC) with
    | true => exact .inl rfl
    | false => exact .inr rfl
  · cases decide (token < CANONICAL_USDC) with
    | true => exact .inr rfl
    | false => exact .inl rfl

theorem sendResiduals_settles {residualEscrow : Address}
    {tokenResidual usdcResidual6 nativeUsdcDust18 : Nat}
    (h : sendResiduals D w token residualEscrow tokenResidual usdcResidual6
      nativeUsdcDust18 = .ok w') : Settles D token w w' := by
  simp only [sendResiduals, bind_ok] at h
  obtain ⟨w₁, h₁, w₂, h₂, h₃⟩ := h
  have htoken : Settles D token w w₁ := by
    split at h₁
    · exact .one (.transfer (.inr rfl) h₁)
    · cases Except.ok.inj h₁
      exact .refl w
  have husdc : Settles D token w₁ w₂ := by
    split at h₂
    · simp only [bind_ok, revertIf_ok, pure_ok, Nat.not_lt] at h₂
      obtain ⟨_, hle, rfl⟩ := h₂
      exact .one (.value (.inr rfl) hle)
    · cases Except.ok.inj h₂
      exact .refl _
  refine htoken.and (husdc.and ?_)
  split at h₃
  · exact depositNativeUsdcDust_settles h₃
  · cases Except.ok.inj h₃
    exact .refl _

theorem execute_settles {sender custodian residualEscrow : Address}
    {tokenAmount nativeUsdcAmount value : Nat} {result : SettlementResult}
    (h : execute D G w sender token custodian tokenAmount nativeUsdcAmount
      residualEscrow value = .ok (w', result)) : Settles D token w w' := by
  simp only [execute, bind_ok, revertIf_ok, pure_ok, Prod.exists] at h
  obtain ⟨_, -, _, -, _, -, w₁, m, h₁, _, -, _, -, _, -, _, -, _, -, w₂, h₂,
    _, -, _, -, _, -, _, -, _, -, _, -, _, -, _, -, _, -, _, -, _, -, w₃, h₃,
    _, -, _, -, _, -, _, -, _, -, _, -, heq⟩ := h
  cases heq
  exact (mintPosition_settles h₁).and ((Settles.one (.allow h₂)).and
    ((approveUsdc_settles _ _ _).and (sendResiduals_settles h₃)))

theorem settle_settles {custodian : Address}
    {tokenAmount nativeUsdcAmount id liquidity : Nat}
    (h : settle D G w token tokenAmount nativeUsdcAmount
      = .ok (w', custodian, id, liquidity)) : Settles D token w w' := by
  simp only [settle, bind_ok, revertIf_ok, pure_ok, Prod.exists,
    Nat.not_lt] at h
  obtain ⟨w₁, _, h₁, w₂, h₂, w₃, h₃, _, hle, w₄, result, h₄, w₅, h₅, _, -, _,
    -, _, -, _, -, _, -, heq⟩ := h
  cases heq
  have hregister : Settles D token w₂ { w₂ with
      residualEscrowOf :=
        Function.update w₂.residualEscrowOf token G.newEscrow } :=
    .quietly rfl rfl rfl rfl rfl rfl (fun _ _ => ⟨rfl, rfl, rfl⟩)
  exact (custodianFor_settles h₁).and ((newEscrow_settles h₂).and
    (hregister.and ((Settles.one (.transfer (.inl rfl) h₃)).and
      ((Settles.one (.value (.inl rfl) hle)).and ((execute_settles h₄).and
        (depositResiduals_settles h₅))))))

/-- **A GRADUATION IS A SETTLEMENT** of its token, once the curve has forwarded
    what it owes. -/
theorem graduate_settles {sender creator : Address}
    {tokenAmount nativeUsdcAmount value : Nat}
    (h : graduate D G w sender token creator tokenAmount nativeUsdcAmount value
      = .ok w') : Settles D token w w' := by
  simp only [graduate, bind_ok, revertIf_ok, pure_ok, Prod.exists] at h
  obtain ⟨_, -, w₁, h₁, _, -, _, -, _, -, _, -, w₂, _, _, _, h₂, w₃, h₃,
    rfl⟩ := h
  refine (authorizeGraduation_settles h₁).and ((settle_settles h₂).and
    ((bindPosition_settles h₃).and (.register rfl rfl rfl rfl rfl rfl
      ⟨fun _ => rfl, fun _ _ => rfl⟩ ?_)))
  intro t ht
  exact ⟨rfl, Function.update_of_ne ht _ _, rfl⟩

/-! ## No curve orders any of it -/

variable {c : Address}

theorem Prim.frame (hc : D.isCurve c = true) (h : Prim D token w w') :
    Frame D c w w' := by
  have hmanager := ne_of_not_curve hc D.graduationManager_not_curve
  have hexecutor := ne_of_not_curve hc D.settlementExecutor_not_curve
  cases h with
  | books hnative htokens hcurves hentered hfees hjournal hsilent hregisters =>
      exact Frame.of_books (congrFun hcurves c) (congrFun hentered c) hnative
        htokens hjournal (fun l hl => ⟨(hsilent l hl).1 c,
          (hsilent l hl).2 c c⟩)
  | value hsrc hle =>
      rcases hsrc with rfl | rfl
      · exact sendValue_frame hmanager
      · exact sendValue_frame hexecutor
  | transfer hop h =>
      rcases hop with rfl | rfl
      · exact safeTransfer_frame hmanager h
      · exact safeTransfer_frame hexecutor h
  | pull h =>
      exact safeTransferFrom_frame
        (ne_of_not_curve hc D.positionManager_not_curve) h
  | allow h => exact approve_frame hexecutor h

theorem Settles.frame (hc : D.isCurve c = true)
    (h : Settles D token w w') : Frame D c w w' := by
  induction h with
  | refl => exact Frame.refl w
  | tail _ hstep ih => exact ih.trans (hstep.frame hc)

/-- **A GRADUATION IS NOT THE CURVE'S DOING.** -/
theorem graduate_frame (hc : D.isCurve c = true) {sender creator : Address}
    {tokenAmount nativeUsdcAmount value : Nat}
    (h : graduate D G w sender token creator tokenAmount nativeUsdcAmount value
      = .ok w') : Frame D c w w' :=
  (graduate_settles h).frame hc

end Steps

end Settlement
