import Cooket.SettlementProofs

/-! # Reserving the canonical pool

    `GraduationManagerV3Boundary.classifyPoolCandidate` and
    `_reserveCanonicalPool`.  Both look at the Uniswap factory and at the pool
    through RAW static calls, which may fail or return anything of any length;
    what they make of a reply is `readAddress`, `tryReadUint` and
    `tryReadSqrtPrice`.

    The rest of the chain is a PARAMETER (`Chain`): whatever it answers, a
    reservation that returns left a pool that answers canonically.  A factory
    and pools that behave as Uniswap V3 (`UniswapV3`) are a second parameter,
    with the documented behaviour of the calls used here: then a candidate
    that classified as free is always reserved. -/

namespace PoolReservation

open CheckedArith Contract
open LPVault (CANONICAL_USDC POOL_FEE sortedPair)
open Settlement (expectedSqrtPriceX96)

/-! ## Replies -/

/-- What a raw static call returns. -/
structure Reply where
  ok : Bool
  data : List UInt8
  deriving DecidableEq, Repr

/-- The calls the boundary makes. -/
inductive Query where
  | getPool (tokenA tokenB : Address) (fee : Nat)
  | factory
  | token0
  | token1
  | fee
  | tickSpacing
  | liquidity
  | slot0
  deriving DecidableEq, Repr

/-- The first 32 bytes, as a big-endian number. -/
def word (data : List UInt8) : Nat :=
  (data.take 32).foldl (fun n b => 256 * n + b.toNat) 0

/-- `_readAddress`. -/
def readAddress (r : Reply) : Address :=
  if r.ok = false ∨ r.data.length < 32 then 0
  else if h : word r.data < 2 ^ 160 then ⟨word r.data, h⟩
  else 0

/-- `_tryReadUint`. -/
def tryReadUint (r : Reply) : Bool × Nat :=
  if r.ok = false ∨ r.data.length < 32 then (false, 0)
  else (true, word r.data)

/-- `_readUint`. -/
def readUint (r : Reply) : Nat := (tryReadUint r).2

/-- `_tryReadSqrtPrice`. -/
def tryReadSqrtPrice (r : Reply) : Bool × Nat :=
  if r.ok = false ∨ r.data.length < 224 then (false, 0)
  else if 2 ^ 160 ≤ word r.data then (false, 0)
  else (true, word r.data)

/-- A reply of at least `n` bytes whose first word is `value`. -/
structure Says (r : Reply) (n value : Nat) : Prop where
  ok : r.ok = true
  length : n ≤ r.data.length
  word : word r.data = value

section Replies

variable {r : Reply} {a : Address} {n : Nat}

theorem Says.passes {value : Nat} (h : Says r n value) :
    ¬ (r.ok = false ∨ r.data.length < n) := by
  obtain ⟨hok, hlength, -⟩ := h
  rw [hok]
  simp only [Bool.true_eq_false, false_or]
  omega

theorem Says.readAddress (h : Says r 32 a) : readAddress r = a := by
  rw [PoolReservation.readAddress, if_neg h.passes,
    dif_pos (by rw [h.word]; exact a.isLt)]
  exact Fin.ext h.word

/-- Only a full reply reads as an address other than zero. -/
theorem says_of_readAddress (ha : a ≠ 0) (h : readAddress r = a) :
    Says r 32 a := by
  unfold readAddress at h
  split at h
  · exact absurd h.symm ha
  · rename_i hguard
    simp only [not_or, Bool.not_eq_false, Nat.not_lt] at hguard
    split at h
    · refine ⟨hguard.1, hguard.2, ?_⟩
      rw [← h]
    · exact absurd h.symm ha

theorem Says.tryReadUint (h : Says r 32 n) : tryReadUint r = (true, n) := by
  rw [PoolReservation.tryReadUint, if_neg h.passes, h.word]

theorem says_of_tryReadUint (h : tryReadUint r = (true, n)) :
    Says r 32 n := by
  unfold tryReadUint at h
  split at h
  · exact nomatch (Prod.mk.inj h).1
  · rename_i hguard
    simp only [not_or, Bool.not_eq_false, Nat.not_lt] at hguard
    exact ⟨hguard.1, hguard.2, (Prod.mk.inj h).2⟩

theorem Says.readUint (h : Says r 32 n) : readUint r = n := by
  rw [PoolReservation.readUint, h.tryReadUint]

/-- Only a full reply reads as a number other than zero. -/
theorem says_of_readUint (hn : n ≠ 0) (h : readUint r = n) : Says r 32 n := by
  cases ht : PoolReservation.tryReadUint r with
  | mk success value =>
      have hvalue : value = n := by
        rw [PoolReservation.readUint, ht] at h
        exact h
      cases success with
      | true => exact says_of_tryReadUint (by rw [ht, hvalue])
      | false =>
          unfold PoolReservation.tryReadUint at ht
          split at ht
          · exact absurd ((Prod.mk.inj ht).2.trans hvalue).symm hn
          · exact nomatch (Prod.mk.inj ht).1

theorem Says.tryReadSqrtPrice (h : Says r 224 n) (hn : n < 2 ^ 160) :
    tryReadSqrtPrice r = (true, n) := by
  rw [PoolReservation.tryReadSqrtPrice, if_neg h.passes, h.word,
    if_neg (by omega)]

theorem says_of_tryReadSqrtPrice (h : tryReadSqrtPrice r = (true, n)) :
    Says r 224 n := by
  unfold tryReadSqrtPrice at h
  split at h
  · exact nomatch (Prod.mk.inj h).1
  · rename_i hguard
    simp only [not_or, Bool.not_eq_false, Nat.not_lt] at hguard
    split at h
    · exact nomatch (Prod.mk.inj h).1
    · exact ⟨hguard.1, hguard.2, (Prod.mk.inj h).2⟩

end Replies

/-! ## Classification -/

/-- `IGraduationManagerV3.PoolCandidateState`. -/
inductive PoolCandidateState where
  | noPool
  | uninitialized
  | initializedExactPrice
  | incorrectPrice
  | nonzeroLiquidity
  | malformed
  deriving DecidableEq, Repr

/-- `POOL_TICK_SPACING`. -/
def POOL_TICK_SPACING : Nat := 200

/-- The rest of the chain: code, static calls, and the two calls a
    reservation makes; `none` where such a call fails. -/
class Chain (σ : Type) where
  hasCode : σ → Address → Bool
  staticcall : σ → Address → Query → Reply
  createPool : σ → Address → Address → Address → Nat → Option (σ × Address)
  /-- `initialize` of a pool. -/
  initializePool : σ → Address → Nat → Option σ

variable {σ : Type} [Chain σ]

open Chain

/-- Whether an address has code: the contracts of the protocol do, and about
    the rest the chain answers. -/
def hasCode (created : Address → Bool) (s : σ) (a : Address) : Bool :=
  created a || Chain.hasCode s a

/-- The second part of `classifyPoolCandidate`: what the pool answers. -/
def classifyPool (uniswapV3Factory : Address) (s : σ)
    (token pool : Address) : PoolCandidateState :=
  let (token0, token1) := sortedPair token
  if readAddress (staticcall s pool .factory) ≠ uniswapV3Factory
      ∨ readAddress (staticcall s pool .token0) ≠ token0
      ∨ readAddress (staticcall s pool .token1) ≠ token1
      ∨ readUint (staticcall s pool .fee) ≠ POOL_FEE
      ∨ readUint (staticcall s pool .tickSpacing) ≠ POOL_TICK_SPACING then
    .malformed
  else
    let (liquidityOk, liquidityValue) :=
      tryReadUint (staticcall s pool .liquidity)
    let (slotOk, sqrtPriceX96) := tryReadSqrtPrice (staticcall s pool .slot0)
    if liquidityOk = false ∨ slotOk = false then .malformed
    else if liquidityValue ≠ 0 then .nonzeroLiquidity
    else if sqrtPriceX96 = 0 then .uninitialized
    else if (expectedSqrtPriceX96 token).toOption = some sqrtPriceX96 then
      .initializedExactPrice
    else .incorrectPrice

/-- `classifyPoolCandidate`. -/
def classifyPoolCandidate (uniswapV3Factory : Address)
    (created : Address → Bool) (s : σ) (token : Address) :
    PoolCandidateState × Address :=
  if token = 0 ∨ token = CANONICAL_USDC then (.malformed, 0)
  else
    let poolData :=
      staticcall s uniswapV3Factory (.getPool token CANONICAL_USDC POOL_FEE)
    if poolData.ok = false ∨ poolData.data.length < 32 then (.malformed, 0)
    else if h : word poolData.data < 2 ^ 160 then
      let pool : Address := ⟨word poolData.data, h⟩
      if pool = 0 then (.noPool, 0)
      else if hasCode created s pool = false then (.malformed, pool)
      else (classifyPool uniswapV3Factory s token pool, pool)
    else (.malformed, 0)

/-- A pool answers as the canonical pool of a token, at a price and without
    liquidity. -/
structure Canonical (uniswapV3Factory : Address) (s : σ)
    (token pool : Address) (sqrtPriceX96 : Nat) : Prop where
  factory : Says (staticcall s pool .factory) 32 uniswapV3Factory
  token0 : Says (staticcall s pool .token0) 32 (sortedPair token).1
  token1 : Says (staticcall s pool .token1) 32 (sortedPair token).2
  fee : Says (staticcall s pool .fee) 32 POOL_FEE
  tickSpacing : Says (staticcall s pool .tickSpacing) 32 POOL_TICK_SPACING
  liquidity : Says (staticcall s pool .liquidity) 32 0
  slot0 : Says (staticcall s pool .slot0) 224 sqrtPriceX96
  price : sqrtPriceX96 < 2 ^ 160

/-- The factory names a pool for a token, and it has code. -/
structure Named (uniswapV3Factory : Address) (created : Address → Bool)
    (s : σ) (token pool : Address) : Prop where
  lookup : Says (staticcall s uniswapV3Factory
    (.getPool token CANONICAL_USDC POOL_FEE)) 32 pool
  nonzero : pool ≠ 0
  code : hasCode created s pool = true

/-- Whether a candidate is free: nobody has set a price for its pool. -/
def free (state : PoolCandidateState) : Bool :=
  state == .noPool || state == .uninitialized

section Classification

variable {uni token pool : Address} {created : Address → Bool} {s : σ}
  {price : Nat}

theorem canonicalUsdc_ne : CANONICAL_USDC ≠ 0 := by decide

theorem sortedPair_ne_zero (h : token ≠ 0) :
    (sortedPair token).1 ≠ 0 ∧ (sortedPair token).2 ≠ 0 := by
  unfold sortedPair
  split
  · exact ⟨h, canonicalUsdc_ne⟩
  · exact ⟨canonicalUsdc_ne, h⟩

/-- A lookup that answers zero. -/
theorem classify_noPool (htoken : token ≠ 0 ∧ token ≠ CANONICAL_USDC)
    (h : Says (staticcall s uni (.getPool token CANONICAL_USDC POOL_FEE)) 32
      0) :
    classifyPoolCandidate uni created s token = (.noPool, 0) := by
  unfold classifyPoolCandidate
  rw [if_neg (not_or.mpr htoken), if_neg h.passes,
    dif_pos (by rw [h.word]; decide)]
  simp only [h.word]
  rfl

/-- A lookup that answers a pool. -/
theorem classify_named (htoken : token ≠ 0 ∧ token ≠ CANONICAL_USDC)
    (h : Named uni created s token pool) :
    classifyPoolCandidate uni created s token
      = (classifyPool uni s token pool, pool) := by
  have hlt : word (staticcall s uni
      (.getPool token CANONICAL_USDC POOL_FEE)).data < 2 ^ 160 := by
    rw [h.lookup.word]
    exact pool.isLt
  have hpool : (⟨word (staticcall s uni
      (.getPool token CANONICAL_USDC POOL_FEE)).data, hlt⟩ : Address)
        = pool := Fin.ext h.lookup.word
  have hcode : ¬ hasCode created s pool = false := by
    rw [h.code]
    decide
  unfold classifyPoolCandidate
  rw [if_neg (not_or.mpr htoken), if_neg h.lookup.passes, dif_pos hlt]
  simp only [hpool]
  rw [if_neg h.nonzero, if_neg hcode]

/-- Any other state but malformed comes from one of the two. -/
theorem classify_cases {state : PoolCandidateState}
    (h : classifyPoolCandidate uni created s token = (state, pool))
    (hstate : state ≠ .malformed) :
    (token ≠ 0 ∧ token ≠ CANONICAL_USDC)
      ∧ (state = .noPool ∧ Says (staticcall s uni
          (.getPool token CANONICAL_USDC POOL_FEE)) 32 0
        ∨ Named uni created s token pool
          ∧ classifyPool uni s token pool = state) := by
  have hmalformed : ∀ a : Address,
      ((.malformed, a) : PoolCandidateState × Address) ≠ (state, pool) :=
    fun a heq => hstate (Prod.mk.inj heq).1.symm
  unfold classifyPoolCandidate at h
  split at h
  · exact absurd h (hmalformed _)
  rename_i htoken
  refine ⟨not_or.mp htoken, ?_⟩
  simp only at h
  split at h
  · exact absurd h (hmalformed _)
  rename_i hlookup
  simp only [not_or, Bool.not_eq_false, Nat.not_lt] at hlookup
  split at h
  swap
  · exact absurd h (hmalformed _)
  rename_i hlt
  split at h
  · rename_i hzero
    refine Or.inl ⟨(Prod.mk.inj h).1.symm, hlookup.1, hlookup.2, ?_⟩
    exact congrArg Fin.val hzero
  rename_i hnonzero
  split at h
  · exact absurd h (hmalformed _)
  rename_i hcode
  obtain ⟨hclass, rfl⟩ := Prod.mk.inj h
  exact Or.inr ⟨⟨⟨hlookup.1, hlookup.2, rfl⟩, hnonzero,
    eq_true_of_ne_false hcode⟩, hclass⟩

/-- What a pool that answers canonically is classified as. -/
theorem classifyPool_of_canonical (h : Canonical uni s token pool price) :
    classifyPool uni s token pool
      = if price = 0 then .uninitialized
        else if (expectedSqrtPriceX96 token).toOption = some price then
          .initializedExactPrice
        else .incorrectPrice := by
  unfold classifyPool
  simp only [h.factory.readAddress, h.token0.readAddress,
    h.token1.readAddress, h.fee.readUint, h.tickSpacing.readUint,
    h.liquidity.tryReadUint, h.slot0.tryReadSqrtPrice h.price, ne_eq,
    not_true_eq_false, or_self, if_false, Bool.true_eq_false]

/-- A read of the price that succeeds fits an `uint160`. -/
theorem tryReadSqrtPrice_lt (r : Reply) : (tryReadSqrtPrice r).2 < 2 ^ 160 := by
  unfold tryReadSqrtPrice
  split
  · decide
  · split
    · decide
    · rename_i h
      exact Nat.lt_of_not_le h

/-- **A POOL THAT CLASSIFIES AS PRICED OR AS FREE** gave every reply in full,
    with the canonical values and no liquidity. -/
theorem canonical_of_classifyPool (huni : uni ≠ 0) (htoken : token ≠ 0)
    (h : classifyPool uni s token pool = .initializedExactPrice
      ∨ classifyPool uni s token pool = .uninitialized) :
    ∃ price, Canonical uni s token pool price
      ∧ (classifyPool uni s token pool = .initializedExactPrice →
        (expectedSqrtPriceX96 token).toOption = some price)
      ∧ (classifyPool uni s token pool = .uninitialized → price = 0) := by
  obtain ⟨hne0, hne1⟩ := sortedPair_ne_zero htoken
  refine ⟨(tryReadSqrtPrice (staticcall s pool .slot0)).2, ?_⟩
  generalize hclass : classifyPool uni s token pool = state at h ⊢
  unfold classifyPool at hclass
  simp only at hclass
  split at hclass
  · subst hclass
    rcases h with hs | hs <;> exact nomatch hs
  rename_i hreplies
  split at hclass
  · subst hclass
    rcases h with hs | hs <;> exact nomatch hs
  rename_i hreads
  split at hclass
  · subst hclass
    rcases h with hs | hs <;> exact nomatch hs
  rename_i hliquidity
  simp only [not_or, ne_eq, Decidable.not_not] at hreplies hliquidity
  simp only [not_or, Bool.not_eq_false] at hreads
  obtain ⟨hfactory, htoken0, htoken1, hfee, hspacing⟩ := hreplies
  have hcanonical : Canonical uni s token pool
      (tryReadSqrtPrice (staticcall s pool .slot0)).2 :=
    ⟨says_of_readAddress huni hfactory, says_of_readAddress hne0 htoken0,
      says_of_readAddress hne1 htoken1, says_of_readUint (by decide) hfee,
      says_of_readUint (by decide) hspacing,
      says_of_tryReadUint (Prod.ext hreads.1 hliquidity),
      says_of_tryReadSqrtPrice (Prod.ext hreads.2 rfl),
      tryReadSqrtPrice_lt _⟩
  refine ⟨hcanonical, ?_⟩
  split at hclass
  · rename_i hzero
    subst hclass
    refine ⟨?_, fun _ => hzero⟩
    intro hs
    exact nomatch hs
  · split at hclass
    · rename_i hexpected
      subst hclass
      exact ⟨fun _ => hexpected, fun hs => nomatch hs⟩
    · subst hclass
      rcases h with hs | hs <;> exact nomatch hs

end Classification

/-! ## Reservation -/

/-- How a registration can end without returning. -/
inductive Failure where
  | protocol (e : Revert)
  | unsafePoolCandidate (state : PoolCandidateState) (pool : Address)
  /-- `createPool` of the Uniswap factory, or `initialize` of a pool, failed. -/
  | uniswap
  deriving DecidableEq, Repr

/-- Whether a failure is about the pool. -/
def Failure.aboutPool : Failure → Bool
  | .protocol e => e == .manager .poolReservationMismatch
  | .unsafePoolCandidate _ _ => true
  | .uniswap => true

/-- Errors modelled for the whole protocol. -/
def lift {α : Type} (x : Except Revert α) : Except Failure α :=
  x.mapError .protocol

/-- A call outside the protocol. -/
def orFail {α : Type} : Option α → Except Failure α
  | none => .error .uniswap
  | some a => .ok a

@[simp] theorem lift_ok {α : Type} {x : Except Revert α} {a : α} :
    lift x = .ok a ↔ x = .ok a := mapError_ok

@[simp] theorem orFail_ok {α : Type} {x : Option α} {a : α} :
    orFail x = .ok a ↔ x = some a := by
  cases x with
  | none =>
      constructor
      · intro h
        exact nomatch h
      · intro h
        exact nomatch h
  | some b =>
      constructor
      · intro h
        rw [Except.ok.inj h]
      · intro h
        rw [Option.some.inj h]
        rfl

section Reservation

variable (uniswapV3Factory : Address) (created : Address → Bool) (s : σ)

/-- The pool is given the launch price. -/
def initializeAtLaunchPrice (token pool : Address) : Except Failure σ := do
  let price ← lift (expectedSqrtPriceX96 token)
  orFail (initializePool s pool price)

/-- The first part of `_reserveCanonicalPool`: create the pool if there is
    none, and set its price. -/
def openPool (token : Address) : Except Failure (σ × Address) :=
  match classifyPoolCandidate uniswapV3Factory created s token with
  | (.noPool, _) => do
      let (s, pool) ← orFail
        (createPool s uniswapV3Factory token CANONICAL_USDC POOL_FEE)
      revertIf (pool = 0) (.protocol (.manager .poolReservationMismatch))
      let s ← initializeAtLaunchPrice s token pool
      pure (s, pool)
  | (.uninitialized, pool) => do
      let s ← initializeAtLaunchPrice s token pool
      pure (s, pool)
  | (state, pool) => .error (.unsafePoolCandidate state pool)

/-- `_reserveCanonicalPool`. -/
def reserveCanonicalPool (token : Address) : Except Failure (σ × Address) := do
  let (s, pool) ← openPool uniswapV3Factory created s token
  let (finalState, finalPool) :=
    classifyPoolCandidate uniswapV3Factory created s token
  revertIf (finalState ≠ .initializedExactPrice ∨ finalPool ≠ pool)
    (.protocol (.manager .poolReservationMismatch))
  pure (s, pool)

end Reservation

/-- A 32-byte word. -/
abbrev Bytes32 := Fin (2 ^ 256)

/-- `GraduationManagerV3Boundary.Launch`. -/
structure Launch where
  curve : Address
  creator : Address
  pool : Address
  launchSeed : Bytes32
  candidateSalt : Bytes32
  attemptIndex : Nat
  registered : Bool
  graduated : Bool
  deriving DecidableEq, Repr

/-- The storage of the boundary. -/
structure ManagerStorage where
  factory : Address
  factoryBootstrapAuthority : Address
  launches : Address → Launch
  canonicalPoolOf : Address → Address

/-- `registerLaunch`, asked for by `sender`.  `V` is what the other contracts
    of the protocol answer. -/
def registerLaunch (uniswapV3Factory : Address) (created : Address → Bool)
    (V : FeeManager.Views) (s : σ) (m : ManagerStorage)
    (sender token curve creator : Address) (launchSeed candidateSalt : Bytes32)
    (attemptIndex : Nat) : Except Failure (σ × ManagerStorage × Address) := do
  revertIf (m.factory = 0) (.protocol (.manager .factoryNotSet))
  revertIf (sender ≠ m.factory) (.protocol (.manager .unauthorizedFactory))
  revertIf (token = 0 ∨ V.hasCode token = false)
    (.protocol (.manager .invalidToken))
  revertIf (curve = 0 ∨ V.hasCode curve = false)
    (.protocol (.manager .invalidCurve))
  revertIf (creator = 0) (.protocol (.manager .invalidCreator))
  revertIf ((m.launches token).registered = true)
    (.protocol (.manager .launchAlreadyRegistered))
  let (registeredCreator, registeredCurve) := V.tokenInfo m.factory token
  revertIf (V.isToken m.factory token = false
      ∨ V.curveOf m.factory token ≠ curve
      ∨ registeredCurve ≠ curve ∨ registeredCreator ≠ creator
      ∨ V.factory curve ≠ m.factory ∨ V.token curve ≠ token
      ∨ V.creator curve ≠ creator ∨ V.factory token ≠ m.factory
      ∨ V.creator token ≠ creator ∨ V.initialized token = false)
    (.protocol (.manager .launchRelationshipMismatch))
  let (s, pool) ← reserveCanonicalPool uniswapV3Factory created s token
  pure (s,
    { m with
      launches := Function.update m.launches token
        ⟨curve, creator, pool, launchSeed, candidateSalt, attemptIndex, true,
          false⟩
      canonicalPoolOf := Function.update m.canonicalPoolOf token pool },
    pool)

section Inversion

variable {uni sender token curve creator pool : Address}
  {created : Address → Bool} {V : FeeManager.Views} {s s' : σ}
  {m m' : ManagerStorage} {launchSeed candidateSalt : Bytes32}
  {attemptIndex : Nat}

/-- Only a free candidate is opened. -/
theorem openPool_ok (h : openPool uni created s token = .ok (s', pool)) :
    free (classifyPoolCandidate uni created s token).1 = true := by
  unfold openPool at h
  split at h
  · rename_i hclass
    rw [hclass]
    rfl
  · rename_i hclass
    rw [hclass]
    rfl
  · exact nomatch h

/-- What a reservation that returns found and left. -/
theorem reserveCanonicalPool_ok
    (h : reserveCanonicalPool uni created s token = .ok (s', pool)) :
    free (classifyPoolCandidate uni created s token).1 = true
      ∧ classifyPoolCandidate uni created s' token
        = (.initializedExactPrice, pool) := by
  simp only [reserveCanonicalPool, bind_ok, revertIf_ok, pure_ok,
    Prod.mk.injEq, not_or, ne_eq, Decidable.not_not] at h
  obtain ⟨⟨s₁, p⟩, hopen, _, ⟨hstate, hpool⟩, rfl, rfl⟩ := h
  exact ⟨openPool_ok hopen, Prod.ext hstate hpool⟩

/-- A pool that was opened and then classifies as priced is reserved. -/
theorem reserveCanonicalPool_eq
    (hopen : openPool uni created s token = .ok (s', pool))
    (hclass : classifyPoolCandidate uni created s' token
      = (.initializedExactPrice, pool)) :
    reserveCanonicalPool uni created s token = .ok (s', pool) := by
  simp only [reserveCanonicalPool, bind_ok, revertIf_ok, pure_ok]
  refine ⟨(s', pool), hopen, (), ?_, rfl⟩
  rw [hclass]
  simp only [ne_eq, not_true_eq_false, or_self, not_false_eq_true]

/-- What a registration that returns found and left. -/
theorem registerLaunch_ok
    (h : registerLaunch uni created V s m sender token curve creator
      launchSeed candidateSalt attemptIndex = .ok (s', m', pool)) :
    sender = m.factory ∧ (m.launches token).registered = false
      ∧ reserveCanonicalPool uni created s token = .ok (s', pool)
      ∧ m' = { m with
          launches := Function.update m.launches token
            ⟨curve, creator, pool, launchSeed, candidateSalt, attemptIndex,
              true, false⟩
          canonicalPoolOf :=
            Function.update m.canonicalPoolOf token pool } := by
  simp only [registerLaunch, bind_ok, revertIf_ok, pure_ok, Prod.mk.injEq,
    ne_eq, Decidable.not_not, Bool.not_eq_true] at h
  obtain ⟨_, -, _, hsender, _, -, _, -, _, -, _, hfresh, _, -, ⟨s₁, p⟩,
    hreserve, rfl, rfl, rfl⟩ := h
  exact ⟨hsender, hfresh, hreserve, rfl⟩

/-- **A REGISTRATION IS SOUND**, whatever the chain answers: the candidate was
    free, and the pool recorded for the token is named by the factory and
    answers, in full replies, with the canonical factory, token order, fee and
    tick spacing, no liquidity, and exactly the launch price. -/
theorem registerLaunch_sound (huni : uni ≠ 0)
    (h : registerLaunch uni created V s m sender token curve creator
      launchSeed candidateSalt attemptIndex = .ok (s', m', pool)) :
    free (classifyPoolCandidate uni created s token).1 = true
      ∧ m'.canonicalPoolOf token = pool ∧ (m'.launches token).pool = pool
      ∧ Named uni created s' token pool
      ∧ ∃ price, expectedSqrtPriceX96 token = .ok price
        ∧ Canonical uni s' token pool price := by
  obtain ⟨-, -, hreserve, rfl⟩ := registerLaunch_ok h
  obtain ⟨hfree, hclass⟩ := reserveCanonicalPool_ok hreserve
  obtain ⟨htoken, ⟨hno, -⟩ | ⟨hnamed, hpool⟩⟩ :=
    classify_cases hclass (by decide)
  · exact nomatch hno
  obtain ⟨price, hcanonical, hexact, -⟩ :=
    canonical_of_classifyPool huni htoken.1 (Or.inl hpool)
  refine ⟨hfree, Function.update_self _ _ _, ?_, hnamed, price, ?_,
    hcanonical⟩
  · show (Function.update m.launches token _ token).pool = pool
    rw [Function.update_self]
  · have hexpected := hexact hpool
    cases he : expectedSqrtPriceX96 token with
    | error e =>
        rw [he] at hexpected
        exact nomatch hexpected
    | ok p =>
        rw [he] at hexpected
        rw [Option.some.inj hexpected]

/-- A registration whose reservation returns fails for another reason, if it
    fails. -/
theorem registerLaunch_error
    (hreserve : ∃ s' pool,
      reserveCanonicalPool uni created s token = .ok (s', pool))
    {e : Failure}
    (h : registerLaunch uni created V s m sender token curve creator
      launchSeed candidateSalt attemptIndex = .error e) :
    e.aboutPool = false := by
  obtain ⟨s₁, p, hok⟩ := hreserve
  simp only [registerLaunch, bind_error, revertIf_error, revertIf_ok, hok,
    reduceCtorEq, false_or, Except.ok.injEq] at h
  obtain ⟨-, rfl⟩ | ⟨_, -, ⟨-, rfl⟩ | ⟨_, -, ⟨-, rfl⟩ | ⟨_, -, ⟨-, rfl⟩
    | ⟨_, -, ⟨-, rfl⟩ | ⟨_, -, ⟨-, rfl⟩ | ⟨_, -, ⟨-, rfl⟩
    | ⟨_, -, _, -, hpure⟩⟩⟩⟩⟩⟩⟩ := h
  · rfl
  · rfl
  · rfl
  · rfl
  · rfl
  · rfl
  · rfl
  · exact nomatch hpure

end Inversion

/-! ## Uniswap V3 -/

/-- A pool of the Uniswap factory. -/
structure PoolState where
  token0 : Address
  token1 : Address
  fee : Nat
  tickSpacing : Nat
  sqrtPriceX96 : Nat
  liquidity : Nat
  deriving DecidableEq, Repr

/-- `TickMath.MIN_SQRT_RATIO` and `TickMath.MAX_SQRT_RATIO`. -/
def MIN_SQRT_RATIO : Nat := 4295128739
def MAX_SQRT_RATIO : Nat := 1461446703485210103287273052203988822378723970342

/-- **THE CHAIN BEHAVES AS UNISWAP V3** at a factory, in its calls for the fee
    of the protocol: the factory names at most one pool for a pair and creates
    it where there is none; pools answer with what they are; a price is set
    once, and nobody adds liquidity before. -/
structure UniswapV3 (σ : Type) [Chain σ] (factory : Address) where
  getPool : σ → Address → Address
  pools : σ → Address → Option PoolState
  getPool_says : ∀ (s : σ) (token : Address),
    Says (staticcall s factory (.getPool token CANONICAL_USDC POOL_FEE)) 32
      (getPool s token)
  getPool_pool : ∀ (s : σ) (token : Address), getPool s token ≠ 0 →
    Chain.hasCode s (getPool s token) = true
      ∧ ∃ P, pools s (getPool s token) = some P
        ∧ (P.token0, P.token1) = sortedPair token ∧ P.fee = POOL_FEE
        ∧ P.tickSpacing = POOL_TICK_SPACING
  pool_says : ∀ (s : σ) (pool : Address) (P : PoolState),
    pools s pool = some P →
      Says (staticcall s pool .factory) 32 factory
      ∧ Says (staticcall s pool .token0) 32 P.token0
      ∧ Says (staticcall s pool .token1) 32 P.token1
      ∧ Says (staticcall s pool .fee) 32 P.fee
      ∧ Says (staticcall s pool .tickSpacing) 32 P.tickSpacing
      ∧ Says (staticcall s pool .liquidity) 32 P.liquidity
      ∧ Says (staticcall s pool .slot0) 224 P.sqrtPriceX96
  liquidity_zero : ∀ (s : σ) (pool : Address) (P : PoolState),
    pools s pool = some P → P.sqrtPriceX96 = 0 → P.liquidity = 0
  createPool_returns : ∀ (s : σ) (token : Address), token ≠ 0 →
    token ≠ CANONICAL_USDC → getPool s token = 0 →
    ∃ s' pool, createPool s factory token CANONICAL_USDC POOL_FEE
        = some (s', pool)
      ∧ pool ≠ 0 ∧ getPool s' token = pool
      ∧ ∃ P, pools s' pool = some P ∧ P.sqrtPriceX96 = 0
  initialize_returns : ∀ (s : σ) (pool : Address) (P : PoolState)
    (price : Nat), pools s pool = some P → P.sqrtPriceX96 = 0 →
    MIN_SQRT_RATIO ≤ price → price < MAX_SQRT_RATIO →
    ∃ s', initializePool s pool price = some s'
      ∧ pools s' pool = some { P with sqrtPriceX96 := price }
      ∧ ∀ token, getPool s' token = getPool s token

section Uniswap

variable {uni token pool : Address} {created created' : Address → Bool}
  {s s' : σ} {price : Nat} {P : PoolState}

/-- The launch price is a price, and fits. -/
theorem expectedSqrtPriceX96_returns
    (htoken : token ≠ 0 ∧ token ≠ CANONICAL_USDC) :
    ∃ price, expectedSqrtPriceX96 token = .ok price ∧ price ≠ 0
      ∧ price < 2 ^ 160 ∧ MIN_SQRT_RATIO ≤ price ∧ price < MAX_SQRT_RATIO := by
  refine ⟨if token < CANONICAL_USDC then
    Settlement.SQRT_PRICE_X96_TOKEN0_LAUNCH
    else Settlement.SQRT_PRICE_X96_TOKEN0_USDC, ?_, ?_⟩
  · unfold expectedSqrtPriceX96
    rw [revertIf_bind_neg (not_or.mpr htoken)]
    rfl
  · split <;> decide

/-- A pool the factory names, at a price that fits. -/
theorem UniswapV3.canonical (U : UniswapV3 σ uni) (created : Address → Bool)
    (hpool : U.getPool s token = pool) (hne : pool ≠ 0)
    (hstate : U.pools s pool = some P) (hliquidity : P.liquidity = 0)
    (hprice : P.sqrtPriceX96 < 2 ^ 160) :
    Named uni created s token pool
      ∧ Canonical uni s token pool P.sqrtPriceX96 := by
  subst hpool
  obtain ⟨hcode, P', hP', hpair, hfee, hspacing⟩ := U.getPool_pool s token hne
  obtain rfl : P' = P := Option.some.inj (hP'.symm.trans hstate)
  obtain ⟨hf, h0, h1, hfe, hts, hl, hs⟩ := U.pool_says s _ _ hstate
  refine ⟨⟨U.getPool_says s token, hne, ?_⟩, ?_⟩
  · unfold hasCode
    rw [hcode, Bool.or_true]
  · rw [hfee] at hfe
    rw [hspacing] at hts
    rw [hliquidity] at hl
    exact ⟨hf, by rw [← hpair]; exact h0, by rw [← hpair]; exact h1, hfe, hts,
      hl, hs, hprice⟩

/-- A lookup is answered with what the factory names. -/
theorem UniswapV3.getPool_eq (U : UniswapV3 σ uni) {a : Address}
    (h : Says (staticcall s uni (.getPool token CANONICAL_USDC POOL_FEE)) 32
      a) : U.getPool s token = a :=
  Fin.ext ((U.getPool_says s token).word.symm.trans h.word)

/-- **A FREE POOL IS PRICED** by the registration. -/
theorem UniswapV3.initialize_free (U : UniswapV3 σ uni)
    (created : Address → Bool)
    (htoken : token ≠ 0 ∧ token ≠ CANONICAL_USDC)
    (hpool : U.getPool s token = pool) (hne : pool ≠ 0)
    (hstate : U.pools s pool = some P) (hfree : P.sqrtPriceX96 = 0) :
    ∃ s', initializeAtLaunchPrice s token pool = .ok s'
      ∧ classifyPoolCandidate uni created s' token
        = (.initializedExactPrice, pool) := by
  obtain ⟨price, hexpected, hnonzero, hfits, hmin, hmax⟩ :=
    expectedSqrtPriceX96_returns htoken
  obtain ⟨s', hcall, hstate', hnames⟩ :=
    U.initialize_returns s pool P price hstate hfree hmin hmax
  have hliquidity := U.liquidity_zero s pool P hstate hfree
  obtain ⟨hnamed, hcanonical⟩ := U.canonical created
    ((hnames token).trans hpool) hne hstate' hliquidity hfits
  refine ⟨s', ?_, ?_⟩
  · unfold initializeAtLaunchPrice
    rw [hexpected]
    show orFail (initializePool s pool price) = .ok s'
    rw [hcall]
    rfl
  · rw [classify_named htoken hnamed, classifyPool_of_canonical hcanonical,
      if_neg hnonzero, hexpected]
    exact congrArg₂ Prod.mk (if_pos rfl) rfl

/-- The answers of a pool never say that there is none. -/
theorem classifyPool_ne_noPool : classifyPool uni s token pool ≠ .noPool := by
  unfold classifyPool
  simp only
  split
  · decide
  split
  · decide
  split
  · decide
  split
  · decide
  split
  · decide
  · decide

/-- **A CANDIDATE THAT WAS FREE IS RESERVED**, also after more contracts of
    the protocol were created. -/
theorem UniswapV3.reserve_returns (U : UniswapV3 σ uni) (huni : uni ≠ 0)
    (hfree : free (classifyPoolCandidate uni created s token).1 = true) :
    ∃ s' pool, reserveCanonicalPool uni created' s token = .ok (s', pool) := by
  obtain ⟨state, pool, hclass⟩ : ∃ state pool,
      classifyPoolCandidate uni created s token = (state, pool) :=
    ⟨_, _, rfl⟩
  rw [hclass] at hfree
  have hne : state ≠ .malformed := by
    rintro rfl
    cases hfree
  obtain ⟨htoken, ⟨-, hzero⟩ | ⟨hnamed, hpool⟩⟩ := classify_cases hclass hne
  · -- there is no pool: it is created, then priced
    have hnone : U.getPool s token = 0 := U.getPool_eq hzero
    obtain ⟨s₁, pool, hcreate, hpoolne, hnames, P, hP, hprice⟩ :=
      U.createPool_returns s token htoken.1 htoken.2 hnone
    obtain ⟨s₂, hcall, hexact⟩ := U.initialize_free created'
      htoken hnames hpoolne hP hprice
    refine ⟨s₂, pool, reserveCanonicalPool_eq ?_ hexact⟩
    unfold openPool
    rw [classify_noPool htoken hzero]
    simp only [bind_ok, orFail_ok, revertIf_ok, pure_ok]
    exact ⟨_, hcreate, (), hpoolne, s₂, hcall, rfl⟩
  · -- the factory names a pool without a price
    have hstate : classifyPool uni s token pool = .uninitialized := by
      rw [hpool]
      cases state with
      | uninitialized => rfl
      | noPool => exact absurd hpool classifyPool_ne_noPool
      | initializedExactPrice => cases hfree
      | incorrectPrice => cases hfree
      | nonzeroLiquidity => cases hfree
      | malformed => cases hfree
    obtain ⟨price, hcanonical, -, hzero⟩ :=
      canonical_of_classifyPool huni htoken.1 (Or.inr hstate)
    have hnames : U.getPool s token = pool := U.getPool_eq hnamed.lookup
    have hpoolne : U.getPool s token ≠ 0 := by
      rw [hnames]
      exact hnamed.nonzero
    obtain ⟨hcode, P, hP, -⟩ := U.getPool_pool s token hpoolne
    rw [hnames] at hP hcode
    have hprice : P.sqrtPriceX96 = 0 := by
      rw [← hzero hstate, ← hcanonical.slot0.word]
      exact (U.pool_says s pool P hP).2.2.2.2.2.2.word.symm
    have hnamed' : Named uni created' s token pool := by
      refine ⟨hnamed.lookup, hnamed.nonzero, ?_⟩
      unfold hasCode
      rw [hcode, Bool.or_true]
    obtain ⟨s₂, hcall, hexact⟩ := U.initialize_free created'
      htoken hnames hnamed.nonzero hP hprice
    refine ⟨s₂, pool, reserveCanonicalPool_eq ?_ hexact⟩
    unfold openPool
    rw [classify_named htoken hnamed', hstate]
    simp only [bind_ok, pure_ok]
    exact ⟨s₂, hcall, rfl⟩

end Uniswap

/-! ## A chain with Uniswap on it -/

/-- The last `k` bytes of a number. -/
def bigEndian : Nat → Nat → List UInt8
  | 0, _ => []
  | k + 1, n => bigEndian k (n / 256) ++ [UInt8.ofNat n]

theorem length_bigEndian (k n : Nat) : (bigEndian k n).length = k := by
  induction k generalizing n with
  | zero => rfl
  | succ k ih =>
      unfold bigEndian
      rw [List.length_append, ih]
      rfl

theorem foldl_bigEndian {k : Nat} :
    ∀ {n : Nat}, n < 256 ^ k →
      (bigEndian k n).foldl (fun m b => 256 * m + b.toNat) 0 = n := by
  induction k with
  | zero =>
      intro n h
      exact (Nat.lt_one_iff.mp h).symm
  | succ k ih =>
      intro n h
      have hhigh : n / 256 < 256 ^ k :=
        Nat.div_lt_of_lt_mul (by rwa [pow_succ, Nat.mul_comm] at h)
      have hlow : (UInt8.ofNat n).toNat = n % 256 := UInt8.toNat_ofNat'
      unfold bigEndian
      rw [List.foldl_append, ih hhigh]
      show 256 * (n / 256) + (UInt8.ofNat n).toNat = n
      rw [hlow]
      exact Nat.div_add_mod n 256

/-- A reply of one word, padded to `n` bytes. -/
def answer (n value : Nat) : Reply :=
  ⟨true, bigEndian 32 value ++ List.replicate (n - 32) 0⟩

theorem says_answer {n value : Nat} (hn : 32 ≤ n) (h : value < 2 ^ 256) :
    Says (answer n value) n value where
  ok := rfl
  length := by
    show n ≤ (bigEndian 32 value ++ List.replicate (n - 32) 0).length
    rw [List.length_append, length_bigEndian, List.length_replicate]
    omega
  word := by
    show List.foldl _ 0 (List.take 32 (bigEndian 32 value ++ _)) = value
    rw [List.take_left' (length_bigEndian 32 value)]
    exact foldl_bigEndian h

/-- The pools of a Uniswap factory with USDC: the price of the pool of a
    token, if it exists.  It lies at the negative of the token's address. -/
abbrev Pairs (_uniswapV3Factory : Address) : Type :=
  Address → Option (Fin (2 ^ 160))

section Pairs

variable {uni : Address}

/-- The pool of a token, or zero. -/
def Pairs.getPool (s : Pairs uni) (token : Address) : Address :=
  if (s token).isSome then -token else 0

/-- The pool at an address. -/
def Pairs.pools (s : Pairs uni) (pool : Address) : Option PoolState :=
  (s (-pool)).map fun price : Fin (2 ^ 160) =>
    ⟨(sortedPair (-pool)).1, (sortedPair (-pool)).2, POOL_FEE,
      POOL_TICK_SPACING, price, 0⟩

/-- What a pool answers. -/
def PoolState.answer (factory : Address) (P : PoolState) : Query → Reply
  | .getPool _ _ _ => ⟨false, []⟩
  | .factory => PoolReservation.answer 32 factory
  | .token0 => PoolReservation.answer 32 P.token0
  | .token1 => PoolReservation.answer 32 P.token1
  | .fee => PoolReservation.answer 32 P.fee
  | .tickSpacing => PoolReservation.answer 32 P.tickSpacing
  | .liquidity => PoolReservation.answer 32 P.liquidity
  | .slot0 => PoolReservation.answer 224 P.sqrtPriceX96

/-- A call to an address: to the factory for a pool, to a pool for the rest. -/
def Pairs.staticcall (s : Pairs uni) (a : Address) (q : Query) : Reply :=
  match q with
  | .getPool token _ _ =>
      if a = uni then PoolReservation.answer 32 (s.getPool token)
      else ⟨false, []⟩
  | q => ((s.pools a).map fun P => P.answer uni q).getD ⟨false, []⟩

instance : Chain (Pairs uni) where
  hasCode s a := (s.pools a).isSome
  staticcall := Pairs.staticcall
  createPool s factory tokenA tokenB fee :=
    if factory = uni ∧ tokenB = CANONICAL_USDC ∧ fee = POOL_FEE
        ∧ tokenA ≠ 0 ∧ tokenA ≠ CANONICAL_USDC ∧ s tokenA = none then
      some (Function.update s tokenA (some 0), -tokenA)
    else none
  initializePool s pool price :=
    if h : s (-pool) = some 0 ∧ MIN_SQRT_RATIO ≤ price
        ∧ price < MAX_SQRT_RATIO then
      some (Function.update s (-pool)
        (some ⟨price, Nat.lt_trans h.2.2 (by decide)⟩))
    else none

theorem Pairs.getPool_eq_zero {s : Pairs uni} {token : Address}
    (htoken : token ≠ 0) (h : s.getPool token = 0) : s token = none := by
  unfold Pairs.getPool at h
  split at h
  · exact absurd (neg_eq_zero.mp h) htoken
  · rename_i hnone
    exact Option.not_isSome_iff_eq_none.mp hnone

theorem Pairs.pools_lt {s : Pairs uni} {pool : Address} {P : PoolState}
    (h : s.pools pool = some P) :
    P.fee < 2 ^ 256 ∧ P.tickSpacing < 2 ^ 256 ∧ P.liquidity < 2 ^ 256
      ∧ P.sqrtPriceX96 < 2 ^ 256 := by
  obtain ⟨price, -, rfl⟩ := Option.map_eq_some_iff.mp h
  have hsmall : POOL_FEE < 2 ^ 256 ∧ POOL_TICK_SPACING < 2 ^ 256
      ∧ 0 < 2 ^ 256 := by decide
  exact ⟨hsmall.1, hsmall.2.1, hsmall.2.2,
    Nat.lt_trans price.isLt (by decide)⟩

/-- Whether a query is one to the factory. -/
def Query.lookup : Query → Bool
  | .getPool _ _ _ => true
  | _ => false

theorem Pairs.staticcall_pool {s : Pairs uni} {pool : Address} {P : PoolState}
    (h : s.pools pool = some P) {q : Query} (hq : q.lookup = false) :
    Chain.staticcall s pool q = P.answer uni q := by
  have hq' : Chain.staticcall s pool q
      = ((s.pools pool).map fun P => P.answer uni q).getD ⟨false, []⟩ := by
    cases q with
    | getPool tokenA tokenB fee => exact nomatch hq
    | factory => rfl
    | token0 => rfl
    | token1 => rfl
    | fee => rfl
    | tickSpacing => rfl
    | liquidity => rfl
    | slot0 => rfl
  rw [hq', h]
  rfl

/-- **IT BEHAVES AS UNISWAP V3.** -/
def Pairs.uniswapV3 (uni : Address) : UniswapV3 (Pairs uni) uni where
  getPool := Pairs.getPool
  pools := Pairs.pools
  getPool_says s token := by
    show Says (if uni = uni then _ else _) 32 _
    rw [if_pos rfl]
    exact says_answer (by decide) (Nat.lt_trans (Fin.isLt _) (by decide))
  getPool_pool s token h := by
    unfold Pairs.getPool at h ⊢
    split at h
    · rename_i hsome
      obtain ⟨price, hprice⟩ := Option.isSome_iff_exists.mp hsome
      rw [if_pos hsome]
      have hpool : Pairs.pools s (-token)
          = some ⟨(sortedPair token).1, (sortedPair token).2, POOL_FEE,
            POOL_TICK_SPACING, price, 0⟩ := by
        unfold Pairs.pools
        rw [neg_neg, hprice]
        rfl
      refine ⟨?_, _, hpool, rfl, rfl, rfl⟩
      show (Pairs.pools s (-token)).isSome = true
      rw [hpool]
      rfl
    · exact absurd rfl h
  pool_says s pool P h := by
    obtain ⟨hfee, hspacing, hliquidity, hprice⟩ := Pairs.pools_lt h
    have haddress : ∀ a : Address, a.val < 2 ^ 256 :=
      fun a => Nat.lt_trans a.isLt (by decide)
    have hanswers : ∀ q, q.lookup = false → Chain.staticcall s pool q
        = P.answer uni q := fun q hq => Pairs.staticcall_pool h hq
    refine ⟨?_, ?_, ?_, ?_, ?_, ?_, ?_⟩
    · rw [hanswers _ rfl]
      exact says_answer (by decide) (haddress _)
    · rw [hanswers _ rfl]
      exact says_answer (by decide) (haddress _)
    · rw [hanswers _ rfl]
      exact says_answer (by decide) (haddress _)
    · rw [hanswers _ rfl]
      exact says_answer (by decide) hfee
    · rw [hanswers _ rfl]
      exact says_answer (by decide) hspacing
    · rw [hanswers _ rfl]
      exact says_answer (by decide) hliquidity
    · rw [hanswers _ rfl]
      exact says_answer (by decide) hprice
  liquidity_zero s pool P h _ := by
    obtain ⟨price, -, rfl⟩ := Option.map_eq_some_iff.mp h
    rfl
  createPool_returns s token hzero husdc h := by
    have hnone := Pairs.getPool_eq_zero hzero h
    refine ⟨_, _, if_pos ⟨rfl, rfl, rfl, hzero, husdc, hnone⟩,
      neg_ne_zero.mpr hzero, ?_, ?_⟩
    · unfold Pairs.getPool
      rw [Function.update_self]
      rfl
    · refine ⟨⟨(sortedPair token).1, (sortedPair token).2, POOL_FEE,
          POOL_TICK_SPACING, 0, 0⟩, ?_, rfl⟩
      unfold Pairs.pools
      rw [neg_neg, Function.update_self]
      rfl
  initialize_returns s pool P price h hfree hmin hmax := by
    obtain ⟨old, hold, rfl⟩ := Option.map_eq_some_iff.mp h
    have hzero : old = 0 := Fin.ext hfree
    rw [hzero] at hold
    refine ⟨_, dif_pos ⟨hold, hmin, hmax⟩, ?_, ?_⟩
    · unfold Pairs.pools
      rw [Function.update_self]
      rfl
    · intro token
      unfold Pairs.getPool
      by_cases htoken : token = -pool
      · have hsome : (s (-pool)).isSome = true := by
          rw [hold]
          rfl
        rw [htoken, Function.update_self, if_pos hsome]
        rfl
      · rw [Function.update_of_ne htoken]

end Pairs

end PoolReservation
