import Cooket.PoolReservationProofs
import Cooket.RunLawProofs

/-! # Launching a token

    `CooketFactoryV3.createToken` and the five contracts it writes to: the
    factory itself, the fee manager, the graduation manager, and the token and
    the curve it creates through their deployers.

    Anybody may call any of these contracts directly; what keeps strangers out
    is one guard each.  The functions of the fee manager are those modelled
    before, all of them, so that nothing it does later is left out.

    `Agrees` says what all five hold about one token.  Every part of it is
    written once and never again, so ONE relation (`Later`) says that a step
    keeps it, and creating a token adds to it. -/

namespace Launching

open CheckedArith Contract Endpoint PoolReservation
open FeeManager (FeeManagerCall FeeManagerStorage Views)
open TokenLedger (Erc20 Ledger)

/-! ## State -/

/-- The errors of `ICooketFactoryV3` that `createToken` raises. -/
inductive FactoryError where
  | duplicateToken
  | inventoryMismatch
  | invalidTokenName
  | invalidTokenSymbol
  | dependencyFactoryMismatch
  | dependencyVersionMismatch
  | invalidTokenDeployer
  | invalidCurveDeployer
  | invalidUserSalt
  deriving DecidableEq, Repr

/-- The errors of `ITokenDeployerV3`. -/
inductive TokenDeployerError where
  | noAcceptableTokenAddress (launchSeed : Bytes32)
  | tokenAddressCollision (candidate : Address)
  | unauthorizedFactory
  deriving DecidableEq, Repr

/-- The errors of `ICooketTokenV3`. -/
inductive TokenError where
  | alreadyInitialized
  | invalidCreator
  | invalidFactory
  | invalidInventoryOwner
  | invalidTokenName
  | invalidTokenSymbol
  | onlyFactory
  deriving DecidableEq, Repr

/-- The errors of `ICurveDeployerV3` and of the constructor of a curve. -/
inductive CurveDeploymentError where
  | unauthorizedFactory
  | invalidFactory
  | tokenInvalid
  | invalidRecipient
  | invalidFeeManager
  | graduationManagerInvalid
  deriving DecidableEq, Repr

/-- The errors of the boundary's `setFactoryOnce`. -/
inductive WiringError where
  | factoryAlreadySet
  | factoryVersionMismatch
  | invalidFactory
  | unauthorizedBootstrap
  deriving DecidableEq, Repr

/-- How a call can end without returning. -/
inductive LaunchFailure where
  | panic
  /-- A contract is created at an address in use. -/
  | addressInUse
  /-- A call to an address without the contract that was meant. -/
  | external
  | factory (e : FactoryError)
  | tokenDeployer (e : TokenDeployerError)
  | token (e : TokenError)
  | curve (e : CurveDeploymentError)
  | fees (e : Revert)
  | boundary (e : Failure)
  | wiring (e : WiringError)
  deriving DecidableEq, Repr

instance : Panics LaunchFailure := ⟨.panic⟩

/-- A string, as its bytes. -/
abbrev Text := List UInt8

/-- What is hashed with `keccak256` along the way, and the CREATE2 address
    that comes of it. -/
class Hashes where
  /-- `keccak256(abi.encode(creator, name, symbol))`. -/
  definition : Address → Text → Text → Bytes32
  /-- `_launchSeed`, of a creator, a user salt, a name and a symbol. -/
  launchSeed : Address → Bytes32 → Text → Text → Bytes32
  /-- `computeCandidateSalt`. -/
  candidateSalt : Bytes32 → Nat → Bytes32
  /-- `_tokenAddress`, of a creator, a name, a symbol and a salt. -/
  tokenAddress : Address → Text → Text → Bytes32 → Address

/-- What the contracts the factory depends on answer about themselves. -/
structure Dependencies where
  protocolVersionHash : Address → Nat
  tokenDeployerFactory : Address
  tokenDeployerGraduationManager : Address
  curveDeployerFactory : Address
  curveDeployerFeeManager : Address
  curveDeployerGraduationManager : Address

/-- The addresses of a deployment. -/
structure Deployment where
  factory : Address
  feeManager : Address
  graduationManager : Address
  tokenDeployer : Address
  curveDeployer : Address
  uniswapV3Factory : Address
  dependencies : Dependencies
  feeImmutables : FeeManager.Immutables
  factory_ne : factory ≠ 0
  uniswapV3Factory_ne : uniswapV3Factory ≠ 0

/-- The storage of `CooketFactoryV3`. -/
structure FactoryStorage where
  /-- Creator and curve. -/
  tokenInfo : Address → Address × Address
  isToken : Address → Bool
  curveOf : Address → Address
  definitionToken : Bytes32 → Address
  tokensByCreator : Address → List Address

/-- The immutables and the storage of a `CooketTokenV3`, with everything it
    ever minted. -/
structure Token where
  factory : Address
  creator : Address
  name : Text
  symbol : Text
  initialized : Bool
  totalSupply : Nat
  ledger : Ledger Address
  minted : List (Address × Nat)

/-- The immutables of a `CooketCurveV3`. -/
structure Curve where
  factory : Address
  token : Address
  creator : Address
  feeManager : Address
  graduationManager : Address
  deriving DecidableEq, Repr

/-- The state of everything a launch touches. -/
structure World (σ : Type) where
  chain : σ
  factory : FactoryStorage
  fees : FeeManagerStorage
  manager : ManagerStorage
  tokens : Address → Option Token
  curves : Address → Option Curve

variable {σ : Type}

/-! ## The functions -/

section Functions

variable [Chain σ] [Hashes] (D : Deployment) (w : World σ)

open Hashes

/-- The addresses where the protocol has code. -/
def created (a : Address) : Bool :=
  a == D.factory || a == D.feeManager || a == D.graduationManager
    || a == D.tokenDeployer || a == D.curveDeployer
    || (w.tokens a).isSome || (w.curves a).isSome

/-- Whether an address has code. -/
def codeAt (a : Address) : Bool :=
  PoolReservation.hasCode (created D w) w.chain a

/-- What the contracts of the protocol answer about each other. -/
def views : Views where
  hasCode := codeAt D w
  protocolVersionHash _ := FeeManager.PROTOCOL_VERSION_HASH
  feePolicyHash _ := FeeManager.FEE_POLICY_HASH
  feeManager a := ((w.curves a).map Curve.feeManager).getD 0
  graduationManager a := ((w.curves a).map Curve.graduationManager).getD 0
  tokenInfo f t := if f = D.factory then w.factory.tokenInfo t else (0, 0)
  isToken f t := if f = D.factory then w.factory.isToken t else false
  curveOf f t := if f = D.factory then w.factory.curveOf t else 0
  factory a :=
    match w.curves a with
    | some c => c.factory
    | none => ((w.tokens a).map Token.factory).getD 0
  token a := ((w.curves a).map Curve.token).getD 0
  creator a :=
    match w.curves a with
    | some c => c.creator
    | none => ((w.tokens a).map Token.creator).getD 0
  initialized a := ((w.tokens a).map Token.initialized).getD false
  isCanonicalTreasury _ _ _ := false

def MAX_TOKEN_NAME_LENGTH : Nat := 64
def MAX_TOKEN_SYMBOL_LENGTH : Nat := 16

/-- `MAX_CANDIDATES`. -/
def MAX_CANDIDATES : Nat := 256

/-- `TokenDeployerV3.Selection`. -/
structure Selection where
  candidate : Address
  salt : Bytes32
  attemptIndex : Nat
  deriving DecidableEq, Repr

/-- The loop of `_selectCandidate`, with so many attempts left from attempt
    `i` on. -/
def selectFrom (creator : Address) (name symbol : Text)
    (launchSeed : Bytes32) : Nat → Nat → Except LaunchFailure Selection
  | 0, _ => .error (.tokenDeployer (.noAcceptableTokenAddress launchSeed))
  | left + 1, i =>
      let salt := candidateSalt launchSeed i
      let candidate := tokenAddress creator name symbol salt
      if codeAt D w candidate = true then
        selectFrom creator name symbol launchSeed left (i + 1)
      else
        let (state, _) := classifyPoolCandidate D.uniswapV3Factory
          (created D w) w.chain candidate
        if state ≠ .noPool ∧ state ≠ .uninitialized then
          selectFrom creator name symbol launchSeed left (i + 1)
        else .ok ⟨candidate, salt, i⟩

/-- `_selectCandidate`. -/
def selectCandidate (creator : Address) (name symbol : Text)
    (launchSeed : Bytes32) : Except LaunchFailure Selection :=
  selectFrom D w creator name symbol launchSeed MAX_CANDIDATES 0

/-- The constructor of `CooketTokenV3`, run at an address. -/
def newToken (a factory creator : Address) (name symbol : Text) :
    Except LaunchFailure (World σ) := do
  revertIf (codeAt D w a = true) .addressInUse
  revertIf (factory = 0) (.token .invalidFactory)
  revertIf (creator = 0) (.token .invalidCreator)
  revertIf (name.length = 0 ∨ MAX_TOKEN_NAME_LENGTH < name.length)
    (.token .invalidTokenName)
  revertIf (symbol.length = 0 ∨ MAX_TOKEN_SYMBOL_LENGTH < symbol.length)
    (.token .invalidTokenSymbol)
  pure
    { w with
      tokens := Function.update w.tokens a
        (some ⟨factory, creator, name, symbol, false, 0,
          ⟨fun _ => 0, fun _ _ => 0⟩, []⟩) }

/-- `deployToken`. -/
def deployToken (sender creator : Address) (userSalt : Bytes32)
    (name symbol : Text) :
    Except LaunchFailure (World σ × Bytes32 × Selection) := do
  revertIf (sender ≠ D.factory) (.tokenDeployer .unauthorizedFactory)
  let seed := launchSeed creator userSalt name symbol
  let selected ← selectCandidate D w creator name symbol seed
  let token := tokenAddress creator name symbol selected.salt
  let w ← newToken D w token D.factory creator name symbol
  revertIf (token ≠ selected.candidate)
    (.tokenDeployer (.tokenAddressCollision selected.candidate))
  pure (w, seed, selected)

/-- `deployCurve`, with the constructor of `CooketCurveV3` run at a new
    address. -/
def deployCurve (sender token creator newCurve : Address) :
    Except LaunchFailure (World σ) := do
  revertIf (sender ≠ D.factory) (.curve .unauthorizedFactory)
  revertIf (codeAt D w newCurve = true) .addressInUse
  revertIf (D.factory = 0 ∨ codeAt D w D.factory = false)
    (.curve .invalidFactory)
  revertIf (token = 0 ∨ codeAt D w token = false) (.curve .tokenInvalid)
  revertIf (creator = 0) (.curve .invalidRecipient)
  revertIf (D.feeManager = 0 ∨ codeAt D w D.feeManager = false)
    (.curve .invalidFeeManager)
  revertIf (D.graduationManager = 0 ∨ codeAt D w D.graduationManager = false)
    (.curve .graduationManagerInvalid)
  pure
    { w with
      curves := Function.update w.curves newCurve
        (some ⟨D.factory, token, creator, D.feeManager,
          D.graduationManager⟩) }

/-- `_mint` of the whole supply. -/
def Token.mint (t : Token) (owner : Address) (totalSupply : Nat) : Token :=
  { t with
    initialized := true
    totalSupply
    ledger := { t.ledger with
      balances := Function.update t.ledger.balances owner
        (t.ledger.balances owner + TOTAL_SUPPLY) }
    minted := t.minted ++ [(owner, TOTAL_SUPPLY)] }

/-- `initialize` of a token: the only mint. -/
def initializeToken (sender token inventoryOwner : Address) :
    Except LaunchFailure (World σ) :=
  match w.tokens token with
  | none => .error .external
  | some t => do
      revertIf (sender ≠ t.factory) (.token .onlyFactory)
      revertIf (t.initialized = true) (.token .alreadyInitialized)
      revertIf (inventoryOwner = 0) (.token .invalidInventoryOwner)
      let totalSupply ← add t.totalSupply TOTAL_SUPPLY
      let t := t.mint inventoryOwner totalSupply
      pure { w with tokens := Function.update w.tokens token (some t) }

/-- `balanceOf` of a launch token. -/
def balanceOf (token a : Address) : Nat :=
  match w.tokens token with
  | none => 0
  | some t => t.ledger.balances a

/-- `totalSupply` of a launch token. -/
def totalSupply (token : Address) : Nat :=
  match w.tokens token with
  | none => 0
  | some t => t.totalSupply

/-- `_validateMetadata`. -/
def validateMetadata (name symbol : Text) : Except LaunchFailure Unit := do
  revertIf (name.length = 0 ∨ MAX_TOKEN_NAME_LENGTH < name.length)
    (.factory .invalidTokenName)
  revertIf (symbol.length = 0 ∨ MAX_TOKEN_SYMBOL_LENGTH < symbol.length)
    (.factory .invalidTokenSymbol)

/-- The registration with the fee manager, at some time. -/
def registerToken (now : Nat) (token curve creator : Address) :
    Except LaunchFailure (World σ) := do
  let out ← (FeeManager.registerToken (views D w) ⟨D.factory, 0, now⟩ w.fees
    token curve creator).mapError .fees
  pure { w with fees := out.storage }

/-- The registration with the graduation manager. -/
def registerWithManager (token curve creator : Address)
    (seed : Bytes32) (selected : Selection) :
    Except LaunchFailure (World σ) := do
  let (chain, manager, _) ← (registerLaunch D.uniswapV3Factory (created D w)
    (views D w) w.chain w.manager D.factory token curve creator seed
    selected.salt selected.attemptIndex).mapError .boundary
  pure { w with chain, manager }

/-- `_requireCanonicalDependencies`. -/
def requireCanonicalDependencies : Except LaunchFailure Unit := do
  let x := D.dependencies
  let version := FeeManager.PROTOCOL_VERSION_HASH
  revertIf (w.fees.factory ≠ D.factory ∨ w.manager.factory ≠ D.factory)
    (.factory .dependencyFactoryMismatch)
  revertIf (x.protocolVersionHash D.feeManager ≠ version
      ∨ x.protocolVersionHash D.graduationManager ≠ version
      ∨ x.protocolVersionHash D.tokenDeployer ≠ version
      ∨ x.protocolVersionHash D.curveDeployer ≠ version)
    (.factory .dependencyVersionMismatch)
  revertIf (x.tokenDeployerFactory ≠ D.factory
      ∨ x.tokenDeployerGraduationManager ≠ D.graduationManager)
    (.factory .invalidTokenDeployer)
  revertIf (x.curveDeployerFactory ≠ D.factory
      ∨ x.curveDeployerFeeManager ≠ D.feeManager
      ∨ x.curveDeployerGraduationManager ≠ D.graduationManager)
    (.factory .invalidCurveDeployer)

/-- What `createToken` writes to the factory. -/
def FactoryStorage.launched (f : FactoryStorage) (definition : Bytes32)
    (token curve creator : Address) : FactoryStorage where
  definitionToken := Function.update f.definitionToken definition token
  tokenInfo := Function.update f.tokenInfo token (creator, curve)
  isToken := Function.update f.isToken token true
  curveOf := Function.update f.curveOf token curve
  tokensByCreator := Function.update f.tokensByCreator creator
    (f.tokensByCreator creator ++ [token])

/-- `createToken`.  The curve is created at `newCurve`. -/
def createToken (now : Nat) (sender : Address) (name symbol : Text)
    (userSalt : Bytes32) (newCurve : Address) :
    Except LaunchFailure (World σ) := do
  requireCanonicalDependencies D w
  validateMetadata name symbol
  revertIf (userSalt = 0) (.factory .invalidUserSalt)
  let id := definition sender name symbol
  revertIf (w.factory.definitionToken id ≠ 0) (.factory .duplicateToken)
  let (w, seed, selected) ← deployToken D w D.factory sender userSalt name
    symbol
  let token := selected.candidate
  let w ← deployCurve D w D.factory token sender newCurve
  let w ← initializeToken w D.factory token newCurve
  revertIf (totalSupply w token ≠ TOTAL_SUPPLY
      ∨ balanceOf w token newCurve ≠ TOTAL_SUPPLY
      ∨ balanceOf w token sender ≠ 0) (.factory .inventoryMismatch)
  let w := { w with factory := w.factory.launched id token newCurve sender }
  let w ← registerToken D w now token newCurve sender
  registerWithManager D w token newCurve sender seed selected

/-- `setFactoryOnce` of the graduation manager. -/
def setFactoryOnce (V : Views) (sender factory_ : Address) :
    Except LaunchFailure (World σ) := do
  let m := w.manager
  revertIf (m.factory ≠ 0) (.wiring .factoryAlreadySet)
  revertIf (sender ≠ m.factoryBootstrapAuthority
    ∨ m.factoryBootstrapAuthority = 0) (.wiring .unauthorizedBootstrap)
  revertIf (factory_ = 0 ∨ V.hasCode factory_ = false)
    (.wiring .invalidFactory)
  revertIf (V.protocolVersionHash factory_ ≠ FeeManager.PROTOCOL_VERSION_HASH)
    (.wiring .factoryVersionMismatch)
  let m := { m with factory := factory_, factoryBootstrapAuthority := 0 }
  pure { w with manager := m }

/-- `_authorizeGraduation`, when `sender` asks for a graduation. -/
def authorizeGraduation (sender token creator : Address) :
    Except LaunchFailure (World σ) := do
  let launch := w.manager.launches token
  revertIf (launch.registered = false)
    (.boundary (.protocol (.manager .launchNotRegistered)))
  revertIf (sender ≠ launch.curve)
    (.boundary (.protocol (.manager .unauthorizedCurve)))
  revertIf (creator ≠ launch.creator)
    (.boundary (.protocol (.manager .launchRelationshipMismatch)))
  revertIf (launch.graduated = true)
    (.boundary (.protocol (.manager .alreadyGraduated)))
  let launches := Function.update w.manager.launches token
    { launch with graduated := true }
  pure { w with manager := { w.manager with launches } }

/-- The ERC-20 functions of a launch token. -/
inductive TokenCall where
  | transfer (dst : Address) (amount : Nat)
  | approve (spender : Address) (amount : Nat)
  | transferFrom (src dst : Address) (amount : Nat)
  deriving DecidableEq, Repr

/-- One of them, called by `sender`. -/
def callToken (sender token : Address) (k : TokenCall) :
    Except LaunchFailure (World σ) :=
  letI := @Ledger.erc20 Address _ LaunchFailure _ .external
  match w.tokens token with
  | none => .error .external
  | some t => do
      let ledger ← match k with
        | .transfer dst amount => Erc20.transfer t.ledger sender dst amount
        | .approve spender amount =>
            Erc20.approve t.ledger sender spender amount
        | .transferFrom src dst amount =>
            Erc20.transferFrom t.ledger sender src dst amount
      pure { w with
        tokens := Function.update w.tokens token (some { t with ledger }) }

end Functions

/-! ## Runs -/

/-- What can happen, and who asks for it. -/
inductive Call (σ : Type) where
  | createToken (now : Nat) (sender : Address) (name symbol : Text)
      (userSalt : Bytes32) (newCurve : Address)
  | deployToken (sender creator : Address) (userSalt : Bytes32)
      (name symbol : Text)
  | deployCurve (sender token creator newCurve : Address)
  | initializeToken (sender token inventoryOwner : Address)
  | callToken (sender token : Address) (k : TokenCall)
  | registerLaunch (V : Views) (sender token curve creator : Address)
      (launchSeed candidateSalt : Bytes32) (attemptIndex : Nat)
  | setFactoryOnce (V : Views) (sender factory_ : Address)
  | authorizeGraduation (sender token creator : Address)
  /-- Any function of the fee manager, `registerToken` included. -/
  | fees (V : Views) (msg : Msg) (k : FeeManagerCall)
  /-- Whatever happens outside the protocol. -/
  | elsewhere (chain : σ)

/-- One call. -/
def exec [Chain σ] [Hashes] (D : Deployment) (w : World σ) :
    Call σ → Except LaunchFailure (World σ)
  | .createToken now sender name symbol userSalt newCurve =>
      createToken D w now sender name symbol userSalt newCurve
  | .deployToken sender creator userSalt name symbol => do
      let (w, _, _) ← deployToken D w sender creator userSalt name symbol
      pure w
  | .deployCurve sender token creator newCurve =>
      deployCurve D w sender token creator newCurve
  | .initializeToken sender token inventoryOwner =>
      initializeToken w sender token inventoryOwner
  | .callToken sender token k => callToken w sender token k
  | .registerLaunch V sender token curve creator launchSeed candidateSalt
      attemptIndex => do
      let (chain, manager, _) ← (registerLaunch D.uniswapV3Factory
        (created D w) V w.chain w.manager sender token curve creator
        launchSeed candidateSalt attemptIndex).mapError .boundary
      pure { w with chain, manager }
  | .setFactoryOnce V sender factory_ => setFactoryOnce w V sender factory_
  | .authorizeGraduation sender token creator =>
      authorizeGraduation w sender token creator
  | .fees V msg k => do
      let out ← (FeeManager.call D.feeImmutables V msg w.fees k).mapError .fees
      pure { w with
        fees := (FeeManager.finish (out.payout.map (·.receipt))
          out.storage).1 }
  | .elsewhere chain => pure { w with chain }

/-- A call that fails leaves no trace. -/
def step [Chain σ] [Hashes] (D : Deployment) (w : World σ) (k : Call σ) : World σ :=
  match exec D w k with
  | .ok w' => w'
  | .error _ => w

/-- The state after deployment. -/
def deployed (chain : σ) (governance treasury : Address) : World σ where
  chain
  factory := ⟨fun _ => (0, 0), fun _ => false, fun _ => 0, fun _ => 0,
    fun _ => []⟩
  fees := FeeManagerStorage.deployed governance treasury
  manager := ⟨0, governance, fun _ => ⟨0, 0, 0, 0, 0, 0, false, false⟩,
    fun _ => 0⟩
  tokens _ := none
  curves _ := none

/-! ## What each function does, once it returns -/

section Inversion

variable [Chain σ] [Hashes] {D : Deployment} {w w' : World σ}
  {sender token curve creator newCurve a : Address} {name symbol : Text}
  {userSalt seed : Bytes32} {now : Nat}

open Hashes

/-- A selected candidate has no code, and its pool is free.  Induction on the
    attempts that are left. -/
theorem selectFrom_ok {selected : Selection} (left : Nat) :
    ∀ i, selectFrom D w creator name symbol seed left i = .ok selected →
      selected.candidate = tokenAddress creator name symbol selected.salt
        ∧ codeAt D w selected.candidate = false
        ∧ free (classifyPoolCandidate D.uniswapV3Factory (created D w)
          w.chain selected.candidate).1 = true := by
  induction left with
  | zero =>
      intro i h
      exact nomatch h
  | succ left ih =>
      intro i h
      unfold selectFrom at h
      simp only at h
      split at h
      · exact ih _ h
      · rename_i hcode
        split at h
        · exact ih _ h
        · rename_i hstate
          obtain rfl := Except.ok.inj h
          refine ⟨rfl, eq_false_of_ne_true hcode, ?_⟩
          simp only [ne_eq, not_and_or, Decidable.not_not] at hstate
          unfold free
          rw [Bool.or_eq_true, beq_iff_eq, beq_iff_eq]
          exact hstate

omit [Hashes] in
theorem newToken_ok {factory : Address}
    (h : newToken D w a factory creator name symbol = .ok w') :
    codeAt D w a = false ∧ creator ≠ 0
      ∧ w' = { w with
        tokens := Function.update w.tokens a
          (some ⟨factory, creator, name, symbol, false, 0,
            ⟨fun _ => 0, fun _ _ => 0⟩, []⟩) } := by
  simp only [newToken, bind_ok, revertIf_ok, pure_ok, Bool.not_eq_true] at h
  obtain ⟨_, hcode, _, -, _, hcreator, _, -, _, -, rfl⟩ := h
  exact ⟨hcode, hcreator, rfl⟩

/-- What the token deployer did. -/
theorem deployToken_ok {selected : Selection}
    (h : deployToken D w sender creator userSalt name symbol
      = .ok (w', seed, selected)) :
    sender = D.factory ∧ codeAt D w selected.candidate = false
      ∧ free (classifyPoolCandidate D.uniswapV3Factory (created D w) w.chain
          selected.candidate).1 = true
      ∧ w' = { w with
        tokens := Function.update w.tokens selected.candidate
          (some ⟨D.factory, creator, name, symbol, false, 0,
            ⟨fun _ => 0, fun _ _ => 0⟩, []⟩) } := by
  simp only [deployToken, bind_ok, revertIf_ok, pure_ok, ne_eq,
    Decidable.not_not, Prod.mk.injEq] at h
  obtain ⟨_, hsender, sel, hsel, w₁, hnew, _, -, rfl, rfl, rfl⟩ := h
  obtain ⟨hcandidate, hcode, hfree⟩ := selectFrom_ok _ _ hsel
  obtain ⟨-, -, hw₁⟩ := newToken_ok hnew
  refine ⟨hsender, hcode, hfree, ?_⟩
  rw [hcandidate]
  exact hw₁

omit [Hashes] in
theorem deployCurve_ok
    (h : deployCurve D w sender token creator newCurve = .ok w') :
    codeAt D w newCurve = false
      ∧ w' = { w with
        curves := Function.update w.curves newCurve
          (some ⟨D.factory, token, creator, D.feeManager,
            D.graduationManager⟩) } := by
  simp only [deployCurve, bind_ok, revertIf_ok, pure_ok,
    Bool.not_eq_true] at h
  obtain ⟨_, -, _, hcode, _, -, _, -, _, -, _, -, _, -, rfl⟩ := h
  exact ⟨hcode, rfl⟩

omit [Chain σ] [Hashes] in
/-- **THE MINT** happens once, all of it to one owner. -/
theorem initializeToken_ok
    (h : initializeToken w sender token a = .ok w') :
    ∃ t, w.tokens token = some t ∧ t.initialized = false
      ∧ w' = { w with
        tokens := Function.update w.tokens token
          (some (t.mint a (t.totalSupply + TOTAL_SUPPLY))) } := by
  unfold initializeToken at h
  split at h
  · exact nomatch h
  · rename_i t ht
    simp only [bind_ok, revertIf_ok, pure_ok, Bool.not_eq_true, add_ok] at h
    obtain ⟨_, -, _, hinit, _, -, _, ⟨-, rfl⟩, rfl⟩ := h
    exact ⟨t, ht, hinit, rfl⟩

omit [Hashes] in
theorem registerToken_ok
    (h : registerToken D w now token curve creator = .ok w') :
    w.fees.curveOf token = 0 ∧ curve ≠ 0 ∧ creator ≠ 0
      ∧ ∃ fees, w' = { w with fees }
        ∧ fees.curveOf = Function.update w.fees.curveOf token curve
        ∧ fees.creatorOf = Function.update w.fees.creatorOf token creator := by
  simp only [registerToken, bind_ok, mapError_ok, pure_ok] at h
  obtain ⟨out, hout, rfl⟩ := h
  obtain ⟨hfresh, hcurve, hcreator, hstorage, -⟩ :=
    FeeManager.registerToken_ok hout
  refine ⟨hfresh, hcurve, hcreator, out.storage, rfl, ?_, ?_⟩
  · rw [hstorage]
  · rw [hstorage]

omit [Hashes] in
theorem registerWithManager_ok {selected : Selection}
    (h : registerWithManager D w token curve creator seed selected
      = .ok w') :
    (w.manager.launches token).registered = false
      ∧ ∃ chain pool, w' = { w with
          chain
          manager := { w.manager with
            launches := Function.update w.manager.launches token
              ⟨curve, creator, pool, seed, selected.salt,
                selected.attemptIndex, true, false⟩
            canonicalPoolOf :=
              Function.update w.manager.canonicalPoolOf token pool } } := by
  simp only [registerWithManager, bind_ok, mapError_ok, pure_ok] at h
  obtain ⟨⟨chain, manager, pool⟩, hregister, rfl⟩ := h
  obtain ⟨-, hfresh, -, rfl⟩ := registerLaunch_ok hregister
  exact ⟨hfresh, chain, pool, rfl⟩

end Inversion

/-! ## Failures about the pool -/

section PoolFailures

/-- Whether a failure comes from the boundary of the graduation manager. -/
def LaunchFailure.inBoundary : LaunchFailure → Bool
  | .boundary _ => true
  | _ => false

/-- The computation does not fail there. -/
def Avoids {α : Type} (x : Except LaunchFailure α) : Prop :=
  ∀ e, x = .error e → e.inBoundary = false

theorem Avoids.bind {α β : Type} {x : Except LaunchFailure α}
    {f : α → Except LaunchFailure β} (hx : Avoids x)
    (hf : ∀ a, Avoids (f a)) : Avoids (x >>= f) := by
  intro e h
  rcases bind_error.mp h with hhead | ⟨a, -, htail⟩
  · exact hx e hhead
  · exact hf a e htail

theorem avoids_pure {α : Type} (a : α) :
    Avoids (pure a : Except LaunchFailure α) :=
  fun _ h => nomatch h

theorem avoids_error {α : Type} {f : LaunchFailure}
    (hf : f.inBoundary = false) :
    Avoids (.error f : Except LaunchFailure α) := by
  intro e h
  rw [← Except.error.inj h]
  exact hf

theorem avoids_revertIf {c : Prop} [Decidable c] {f : LaunchFailure}
    (hf : f.inBoundary = false) : Avoids (revertIf c f) := by
  intro e h
  rw [← (revertIf_error.mp h).2]
  exact hf

/-- A guard with an error of its own. -/
theorem Avoids.guard {α : Type} {c : Prop} [Decidable c] {f : LaunchFailure}
    {g : Unit → Except LaunchFailure α} (hf : f.inBoundary = false)
    (hg : Avoids (g ())) : Avoids (revertIf c f >>= g) :=
  (avoids_revertIf hf).bind fun _ => hg

variable [Chain σ] [Hashes] {D : Deployment} {w : World σ}
  {sender token curve creator newCurve a : Address} {name symbol : Text}
  {userSalt seed : Bytes32} {now : Nat}

theorem avoids_selectFrom (left : Nat) :
    ∀ i, Avoids (selectFrom D w creator name symbol seed left i) := by
  induction left with
  | zero =>
      intro i
      exact avoids_error rfl
  | succ left ih =>
      intro i
      unfold selectFrom
      simp only
      split
      · exact ih _
      · split
        · exact ih _
        · exact avoids_pure _

omit [Hashes] in
theorem avoids_newToken {factory : Address} :
    Avoids (newToken D w a factory creator name symbol) := by
  unfold newToken
  refine Avoids.guard rfl ?_
  refine Avoids.guard rfl ?_
  refine Avoids.guard rfl ?_
  refine Avoids.guard rfl ?_
  refine Avoids.guard rfl ?_
  exact avoids_pure _

theorem avoids_deployToken :
    Avoids (deployToken D w sender creator userSalt name symbol) := by
  unfold deployToken
  refine Avoids.guard rfl ?_
  refine (avoids_selectFrom _ _).bind fun selected => ?_
  refine avoids_newToken.bind fun w₁ => ?_
  refine Avoids.guard rfl ?_
  exact avoids_pure _

omit [Hashes] in
theorem avoids_deployCurve :
    Avoids (deployCurve D w sender token creator newCurve) := by
  unfold deployCurve
  refine Avoids.guard rfl ?_
  refine Avoids.guard rfl ?_
  refine Avoids.guard rfl ?_
  refine Avoids.guard rfl ?_
  refine Avoids.guard rfl ?_
  refine Avoids.guard rfl ?_
  refine Avoids.guard rfl ?_
  exact avoids_pure _

omit [Chain σ] [Hashes] in
theorem avoids_initializeToken :
    Avoids (initializeToken w sender token a) := by
  unfold initializeToken
  split
  · exact avoids_error rfl
  · refine Avoids.guard rfl ?_
    refine Avoids.guard rfl ?_
    refine Avoids.guard rfl ?_
    refine Avoids.bind ?_ fun total => avoids_pure _
    unfold add
    split
    · exact avoids_pure _
    · exact avoids_error rfl

omit [Hashes] in
theorem avoids_registerToken :
    Avoids (registerToken D w now token curve creator) := by
  unfold registerToken
  refine Avoids.bind ?_ fun out => avoids_pure _
  intro e h
  obtain ⟨e', -, rfl⟩ := mapError_error.mp h
  rfl

omit [Chain σ] [Hashes] in
theorem avoids_validateMetadata :
    Avoids (validateMetadata name symbol) := by
  unfold validateMetadata
  refine Avoids.guard rfl ?_
  exact avoids_revertIf rfl

omit [Chain σ] [Hashes] in
theorem avoids_requireCanonicalDependencies :
    Avoids (requireCanonicalDependencies D w) := by
  unfold requireCanonicalDependencies
  refine Avoids.guard rfl ?_
  refine Avoids.guard rfl ?_
  refine Avoids.guard rfl ?_
  exact avoids_revertIf rfl

/-- **THE POOL OF A SELECTED CANDIDATE**: a launch that fails in the boundary
    fails in the registration of a candidate whose pool was free, on a chain
    nothing has touched since. -/
theorem createToken_fails {e : Failure}
    (h : createToken D w now sender name symbol userSalt newCurve
      = .error (.boundary e)) :
    ∃ (w₁ : World σ) (seed : Bytes32) (selected : Selection),
      free (classifyPoolCandidate D.uniswapV3Factory (created D w) w.chain
          selected.candidate).1 = true
        ∧ w₁.chain = w.chain
        ∧ registerLaunch D.uniswapV3Factory (created D w₁) (views D w₁)
          w₁.chain w₁.manager D.factory selected.candidate newCurve sender
          seed selected.salt selected.attemptIndex = .error e := by
  have hbad : (LaunchFailure.boundary e).inBoundary ≠ false :=
    Bool.true_eq_false.mp
  simp only [createToken, bind_error, revertIf_error, revertIf_ok,
    reduceCtorEq, and_false, false_or] at h
  obtain h | ⟨_, -, h | ⟨_, -, _, -, _, -, h⟩⟩ := h
  · exact absurd (avoids_requireCanonicalDependencies _ h) hbad
  · exact absurd (avoids_validateMetadata _ h) hbad
  obtain h | ⟨⟨w₁, seed, selected⟩, htoken, h⟩ := h
  · exact absurd (avoids_deployToken _ h) hbad
  obtain h | ⟨w₂, hcurve, h⟩ := h
  · exact absurd (avoids_deployCurve _ h) hbad
  obtain h | ⟨w₃, hinit, _, -, h⟩ := h
  · exact absurd (avoids_initializeToken _ h) hbad
  obtain h | ⟨w₄, hregister, h⟩ := h
  · exact absurd (avoids_registerToken _ h) hbad
  obtain ⟨-, -, hfree, rfl⟩ := deployToken_ok htoken
  obtain ⟨-, rfl⟩ := deployCurve_ok hcurve
  obtain ⟨t, -, -, rfl⟩ := initializeToken_ok hinit
  obtain ⟨-, -, -, fees, rfl, -⟩ := registerToken_ok hregister
  simp only [registerWithManager, bind_error, mapError_error] at h
  obtain ⟨e', he', heq⟩ | ⟨_, -, hpure⟩ := h
  · obtain rfl := LaunchFailure.boundary.inj heq
    refine ⟨_, seed, selected, hfree, ?_, he'⟩
    rfl
  · exact nomatch hpure

end PoolFailures

/-! ## Reservation -/

/-- **POOL RESERVATION IS SOUND.**  Whatever the factory and the pools answer,
    a registration returns only if the candidate had no pool or one without a
    price, and then the pool recorded for the token classifies as priced: it
    is named by the factory and its full replies give the canonical factory,
    token order, fee and tick spacing, no liquidity, and the launch price.
    And where they behave as Uniswap V3, a launch never fails because of the
    pool of the candidate that was selected in it. -/
theorem pool_reservation_sound [Chain σ] [Hashes] (D : Deployment) :
    (∀ (created : Address → Bool) (V : Views) (s s' : σ)
        (m m' : ManagerStorage) (sender token curve creator pool : Address)
        (launchSeed candidateSalt : Bytes32) (attemptIndex : Nat),
      registerLaunch D.uniswapV3Factory created V s m sender token curve
          creator launchSeed candidateSalt attemptIndex
        = .ok (s', m', pool) →
      ((classifyPoolCandidate D.uniswapV3Factory created s token).1 = .noPool
        ∨ (classifyPoolCandidate D.uniswapV3Factory created s token).1
          = .uninitialized)
      ∧ m'.canonicalPoolOf token = pool ∧ (m'.launches token).pool = pool
      ∧ classifyPoolCandidate D.uniswapV3Factory created s' token
        = (.initializedExactPrice, pool)
      ∧ Named D.uniswapV3Factory created s' token pool
      ∧ ∃ price, Settlement.expectedSqrtPriceX96 token = .ok price
        ∧ Canonical D.uniswapV3Factory s' token pool price) ∧
    (∀ (_ : UniswapV3 σ D.uniswapV3Factory) (w : World σ) (now : Nat)
        (sender : Address) (name symbol : Text) (userSalt : Bytes32)
        (newCurve : Address) (e : Failure),
      createToken D w now sender name symbol userSalt newCurve
        = .error (.boundary e) → e.aboutPool = false) := by
  refine ⟨?_, ?_⟩
  · intro created V s s' m m' sender token curve creator pool launchSeed
      candidateSalt attemptIndex h
    obtain ⟨hfree, hpool, hlaunch, hnamed, hcanonical⟩ :=
      registerLaunch_sound D.uniswapV3Factory_ne h
    obtain ⟨-, -, hreserve, -⟩ := registerLaunch_ok h
    refine ⟨?_, hpool, hlaunch, (reserveCanonicalPool_ok hreserve).2, hnamed,
      hcanonical⟩
    unfold free at hfree
    rw [Bool.or_eq_true, beq_iff_eq, beq_iff_eq] at hfree
    exact hfree
  · intro U w now sender name symbol userSalt newCurve e h
    obtain ⟨w₁, seed, selected, hfree, hchain, herror⟩ := createToken_fails h
    rw [hchain] at herror
    exact registerLaunch_error
      (U.reserve_returns D.uniswapV3Factory_ne hfree) herror

/-- Hashes that are read off their inputs. -/
@[reducible] def plainHashes : Hashes where
  definition creator _ _ := ⟨creator.val, Nat.lt_trans creator.isLt (by decide)⟩
  launchSeed _ userSalt _ _ := userSalt
  candidateSalt seed i := seed + Fin.ofNat (2 ^ 256) i
  tokenAddress _ _ _ salt := Fin.ofNat (2 ^ 160) salt.val

/-- A deployment at small addresses. -/
def smallDeployment : Deployment where
  factory := 1
  feeManager := 2
  graduationManager := 3
  tokenDeployer := 4
  curveDeployer := 5
  uniswapV3Factory := 6
  dependencies := ⟨fun _ => FeeManager.PROTOCOL_VERSION_HASH, 1, 3, 1, 2, 3⟩
  feeImmutables := ⟨2, 7⟩
  factory_ne := by decide
  uniswapV3Factory_ne := by decide

/-- The wired deployment, before any launch, on a chain with Uniswap. -/
def smallWorld : World (Pairs 6) where
  chain _ := none
  factory := (deployed () 8 9).factory
  fees := { (deployed () 8 9).fees with factory := 1 }
  manager := { (deployed () 8 9).manager with factory := 1 }
  tokens _ := none
  curves _ := none

/-- The state once the factory has recorded a launch of the token 100 by the
    account 10. -/
def smallLaunch : World (Pairs 6) :=
  { smallWorld with
    factory := smallWorld.factory.launched 10 100 11 10
    tokens := Function.update smallWorld.tokens 100
      (some ⟨1, 10, [67], [67], true, TOTAL_SUPPLY,
        ⟨fun _ => 0, fun _ _ => 0⟩, [(11, TOTAL_SUPPLY)]⟩)
    curves := Function.update smallWorld.curves 11
      (some ⟨1, 100, 10, 2, 3⟩) }

/-- Its registration returns, and reserves the pool. -/
theorem pool_reservation_sound_small :
    ∃ s' m' pool,
      registerLaunch 6 (created smallDeployment smallLaunch)
          (views smallDeployment smallLaunch) smallLaunch.chain
          smallLaunch.manager 1 100 11 10 0 0 0 = .ok (s', m', pool)
        ∧ m'.canonicalPoolOf 100 = pool
        ∧ classifyPoolCandidate 6 (created smallDeployment smallLaunch) s' 100
          = (.initializedExactPrice, pool) := by
  cases h : registerLaunch 6 (created smallDeployment smallLaunch)
      (views smallDeployment smallLaunch) smallLaunch.chain
      smallLaunch.manager 1 100 11 10 0 0 0 with
  | error e =>
      have hok : (registerLaunch 6 (created smallDeployment smallLaunch)
          (views smallDeployment smallLaunch) smallLaunch.chain
          smallLaunch.manager 1 100 11 10 0 0 0).isOk = true := by
        decide +kernel
      rw [h] at hok
      exact nomatch hok
  | ok out =>
      obtain ⟨s', m', pool⟩ := out
      let := plainHashes
      obtain ⟨-, hpool, -, hclass, -⟩ :=
        (pool_reservation_sound smallDeployment).1 _ _ _ _ _ _ _ _ _ _ _ _ _
          _ h
      exact ⟨s', m', pool, rfl, hpool, hclass⟩

end Launching
