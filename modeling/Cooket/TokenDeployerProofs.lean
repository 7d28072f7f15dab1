import Cooket.CanonicalPositionProofs
import Cooket.LaunchProofs
import Cooket.SwapOrientationProofs
import Mathlib.Order.Bounds.Basic

/-! # Choosing the address of a token

    The salts of a launch are PUBLIC: anybody can compute the addresses that
    `TokenDeployerV3` will try, and put code there or set a price in their
    pools beforehand.  So the deployer walks through 256 candidates and takes
    the first that nobody has spoiled.

    The hash is a parameter, and so is the rest of the chain: whatever code
    there is and whatever the graduation manager answers, as long as it stays
    the same during the call. -/

namespace TokenDeployer

open CanonicalPosition (wordBytes)
open CheckedArith Contract Launching PoolReservation
open SwapOrientation (addressBytes)

/-! ## Hashes -/

/-- The deployer: its own address, its immutables, the chain it is on, and the
    compiled code of a token. -/
structure Immutables where
  keccak256 : List UInt8 → Bytes32
  self : Address
  factory : Address
  chainid : Nat
  arcProtocolDomain : Bytes32
  tokenCreationCode : List UInt8

variable (T : Immutables)

/-- `computeCandidateSalt`. -/
def computeCandidateSalt (launchSeed : Bytes32) (attemptIndex : Nat) : Bytes32 :=
  T.keccak256 (wordBytes launchSeed ++ wordBytes attemptIndex)

/-- `_create2Address`. -/
def create2Address (initCodeHash candidateSalt : Bytes32) : Address :=
  Fin.ofNat (2 ^ 160) (T.keccak256 (255 :: addressBytes T.self ++
    wordBytes candidateSalt ++ wordBytes initCodeHash))

/-- `_launchSeed`. -/
def launchSeed (creator : Address) (userSalt : Bytes32) (name symbol : Text) :
    Bytes32 :=
  T.keccak256 (wordBytes T.arcProtocolDomain ++ wordBytes T.chainid ++
    wordBytes T.factory ++ wordBytes creator ++ wordBytes userSalt ++
    wordBytes (T.keccak256 name) ++ wordBytes (T.keccak256 symbol))

/-- A string as an argument: its length, and its bytes up to a full word. -/
def abiString (s : Text) : List UInt8 :=
  wordBytes s.length ++ s ++ List.replicate ((32 - s.length % 32) % 32) 0

/-- The code that is run to create a token: the compiled code and
    `abi.encode(factory, creator, name, symbol)`. -/
def tokenInitCode (creator : Address) (name symbol : Text) : List UInt8 :=
  T.tokenCreationCode ++ wordBytes T.factory ++ wordBytes creator ++
    wordBytes 128 ++ wordBytes (128 + (abiString name).length) ++
    abiString name ++ abiString symbol

/-- `_tokenInitCodeHash`. -/
def tokenInitCodeHash (creator : Address) (name symbol : Text) : Bytes32 :=
  T.keccak256 (tokenInitCode T creator name symbol)

/-! ## The selection -/

/-- The rest of the chain, during a call. -/
structure External where
  hasCode : Address → Bool
  classifyPoolCandidate : Address → PoolCandidateState × Address

variable (E : External)

/-- The loop of `_selectCandidate`, from an index on.  The index stays below
    256, so its increment does not overflow. -/
def selectFrom (launchSeed initCodeHash : Bytes32) (i : Nat) :
    Except LaunchFailure Selection :=
  if i < MAX_CANDIDATES then
    let candidateSalt := computeCandidateSalt T launchSeed i
    let candidate := create2Address T initCodeHash candidateSalt
    if E.hasCode candidate then selectFrom launchSeed initCodeHash (i + 1)
    else
      let (state, _) := E.classifyPoolCandidate candidate
      if state ≠ .noPool ∧ state ≠ .uninitialized then
        selectFrom launchSeed initCodeHash (i + 1)
      else .ok ⟨candidate, candidateSalt, i⟩
  else .error (.tokenDeployer (.noAcceptableTokenAddress launchSeed))
termination_by MAX_CANDIDATES - i

/-- **`_selectCandidate`**. -/
def selectCandidate (launchSeed initCodeHash : Bytes32) :
    Except LaunchFailure Selection :=
  selectFrom T E launchSeed initCodeHash 0

/-- What a deployment returns, and the code there is after it. -/
structure Deployed where
  token : Address
  launchSeed : Bytes32
  selectedSalt : Bytes32
  attemptIndex : Nat
  hasCode : Address → Bool

/-- `new CooketTokenV3{salt: candidateSalt}(factory, creator, name, symbol)`:
    the address comes from the code that is run, and must be free. -/
def newToken (creator : Address) (name symbol : Text) (candidateSalt : Bytes32) :
    Except LaunchFailure Address := do
  let token := create2Address T
    (T.keccak256 (tokenInitCode T creator name symbol)) candidateSalt
  revertIf (E.hasCode token = true) .addressInUse
  revertIf (T.factory = 0) (.token .invalidFactory)
  revertIf (creator = 0) (.token .invalidCreator)
  revertIf (name.length = 0 ∨ MAX_TOKEN_NAME_LENGTH < name.length)
    (.token .invalidTokenName)
  revertIf (symbol.length = 0 ∨ MAX_TOKEN_SYMBOL_LENGTH < symbol.length)
    (.token .invalidTokenSymbol)
  pure token

/-- **`deployToken`**. -/
def deployToken (sender creator : Address) (userSalt : Bytes32)
    (name symbol : Text) : Except LaunchFailure Deployed := do
  revertIf (sender ≠ T.factory) (.tokenDeployer .unauthorizedFactory)
  let seed := launchSeed T creator userSalt name symbol
  let initCodeHash := tokenInitCodeHash T creator name symbol
  let selected ← selectCandidate T E seed initCodeHash
  let token ← newToken T E creator name symbol selected.salt
  revertIf (token ≠ selected.candidate)
    (.tokenDeployer (.tokenAddressCollision selected.candidate))
  pure ⟨token, seed, selected.salt, selected.attemptIndex,
    Function.update E.hasCode token true⟩

/-! ## What is acceptable -/

/-- The candidate of an index. -/
def candidateAt (launchSeed initCodeHash : Bytes32) (i : Nat) : Selection where
  candidate := create2Address T initCodeHash (computeCandidateSalt T launchSeed i)
  salt := computeCandidateSalt T launchSeed i
  attemptIndex := i

/-- An address that nobody has spoiled. -/
structure Acceptable (E : External) (a : Address) : Prop where
  noCode : E.hasCode a = false
  free : (E.classifyPoolCandidate a).1 = .noPool ∨
    (E.classifyPoolCandidate a).1 = .uninitialized

variable (seed hash : Bytes32)

/-- One round of the loop. -/
theorem selectFrom_step {i : Nat} (hi : i < MAX_CANDIDATES) :
    (Acceptable E (candidateAt T seed hash i).candidate ∧
      selectFrom T E seed hash i = .ok (candidateAt T seed hash i)) ∨
    (¬ Acceptable E (candidateAt T seed hash i).candidate ∧
      selectFrom T E seed hash i = selectFrom T E seed hash (i + 1)) := by
  rw [selectFrom, if_pos hi]
  by_cases hcode : E.hasCode (candidateAt T seed hash i).candidate = true
  · refine .inr ⟨?_, if_pos hcode⟩
    intro h
    rw [h.noCode] at hcode
    exact Bool.false_ne_true hcode
  · by_cases hstate :
        (E.classifyPoolCandidate (candidateAt T seed hash i).candidate).1 ≠
          .noPool ∧
        (E.classifyPoolCandidate (candidateAt T seed hash i).candidate).1 ≠
          .uninitialized
    · refine .inr ⟨?_, (if_neg hcode).trans (if_pos hstate)⟩
      intro h
      rcases h.free with hfree | hfree
      · exact hstate.1 hfree
      · exact hstate.2 hfree
    · refine .inl ⟨⟨eq_false_of_ne_true hcode, ?_⟩,
        (if_neg hcode).trans (if_neg hstate)⟩
      rw [not_and_or, not_not, not_not] at hstate
      exact hstate

/-- **THE LOOP** finds the first acceptable candidate from where it starts, or
    there is none.  Induction on the candidates that are left. -/
theorem selectFrom_spec (left : Nat) : ∀ i, MAX_CANDIDATES - i = left →
    (∃ n, i ≤ n ∧ n < MAX_CANDIDATES ∧
      Acceptable E (candidateAt T seed hash n).candidate ∧
      (∀ j, i ≤ j → j < n →
        ¬ Acceptable E (candidateAt T seed hash j).candidate) ∧
      selectFrom T E seed hash i = .ok (candidateAt T seed hash n)) ∨
    ((∀ j, i ≤ j → j < MAX_CANDIDATES →
        ¬ Acceptable E (candidateAt T seed hash j).candidate) ∧
      selectFrom T E seed hash i =
        .error (.tokenDeployer (.noAcceptableTokenAddress seed))) := by
  induction left with
  | zero =>
      intro i hi
      refine .inr ⟨?_, ?_⟩
      · intro j hij hj
        omega
      · rw [selectFrom, if_neg (by omega)]
  | succ left ih =>
      intro i hi
      have hlt : i < MAX_CANDIDATES := by omega
      rcases selectFrom_step T E seed hash hlt with ⟨hgood, heq⟩ | ⟨hbad, heq⟩
      · refine .inl ⟨i, le_rfl, hlt, hgood, ?_, heq⟩
        intro j hij hj
        omega
      · have hskip : ∀ j, i ≤ j → j ≠ i → i + 1 ≤ j := by
          intro j hij hne
          omega
        rcases ih (i + 1) (by omega) with
          ⟨n, hin, hn, hgood, hbefore, hsel⟩ | ⟨hnone, hsel⟩
        · refine .inl ⟨n, by omega, hn, hgood, ?_, heq.trans hsel⟩
          intro j hij hj
          by_cases hji : j = i
          · rw [hji]
            exact hbad
          · exact hbefore j (hskip j hij hji) hj
        · refine .inr ⟨?_, heq.trans hsel⟩
          intro j hij hj
          by_cases hji : j = i
          · rw [hji]
            exact hbad
          · exact hnone j (hskip j hij hji) hj

/-- The indices that would do. -/
def acceptableIndices (T : Immutables) (E : External) (seed hash : Bytes32) :
    Set Nat :=
  {i | i < MAX_CANDIDATES ∧ Acceptable E (candidateAt T seed hash i).candidate}

/-- **THE SELECTION**: the least index that would do, or a revert if there is
    none. -/
theorem selectCandidate_cases :
    (∃ n, IsLeast (acceptableIndices T E seed hash) n ∧
      selectCandidate T E seed hash = .ok (candidateAt T seed hash n)) ∨
    (acceptableIndices T E seed hash = ∅ ∧
      selectCandidate T E seed hash =
        .error (.tokenDeployer (.noAcceptableTokenAddress seed))) := by
  rcases selectFrom_spec T E seed hash _ 0 rfl with ⟨n, -, hn, hgood, hbefore, hsel⟩ | ⟨hnone, hsel⟩
  · refine .inl ⟨n, ⟨⟨hn, hgood⟩, ?_⟩, hsel⟩
    intro j hj
    by_contra hlt
    exact hbefore j (Nat.zero_le j) (Nat.lt_of_not_le hlt) hj.2
  · refine .inr ⟨?_, hsel⟩
    ext j
    constructor
    · intro hj
      exact hnone j (Nat.zero_le j) hj.1 hj.2
    · intro hj
      cases hj

/-- What the deployment did. -/
theorem deployToken_ok {sender creator : Address} {userSalt : Bytes32}
    {name symbol : Text} {out : Deployed}
    (h : deployToken T E sender creator userSalt name symbol = .ok out) :
    ∃ selected,
      selectCandidate T E (launchSeed T creator userSalt name symbol)
        (tokenInitCodeHash T creator name symbol) = .ok selected ∧
      out = ⟨selected.candidate, launchSeed T creator userSalt name symbol,
        selected.salt, selected.attemptIndex,
        Function.update E.hasCode selected.candidate true⟩ := by
  simp only [deployToken, bind_ok, revertIf_ok, pure_ok, ne_eq,
    Decidable.not_not] at h
  obtain ⟨_, -, selected, hselected, token, -, _, rfl, rfl⟩ := h
  exact ⟨selected, hselected, rfl⟩

/-- **CHOOSING AN ADDRESS**, whatever others have prepared.  A candidate is
    selected exactly if its index is the least acceptable one, with the salt of
    that index; the selection reverts exactly if no index below the maximum is
    acceptable; and a deployment that returns put its code at the selected
    address, which had none, and nowhere else. -/
theorem selection_law (T : Immutables) (E : External) (seed hash : Bytes32) :
    (∀ selected, selectCandidate T E seed hash = .ok selected ↔
      IsLeast (acceptableIndices T E seed hash) selected.attemptIndex ∧
      selected.salt = computeCandidateSalt T seed selected.attemptIndex ∧
      selected.candidate = create2Address T hash selected.salt) ∧
    ((∃ e, selectCandidate T E seed hash = .error e) ↔
      ∀ i < MAX_CANDIDATES,
        ¬ Acceptable E (candidateAt T seed hash i).candidate) ∧
    ∀ sender creator userSalt name symbol out,
      deployToken T E sender creator userSalt name symbol = .ok out →
      ∃ selected,
        selectCandidate T E (launchSeed T creator userSalt name symbol)
          (tokenInitCodeHash T creator name symbol) = .ok selected ∧
        out.token = selected.candidate ∧ out.selectedSalt = selected.salt ∧
        out.attemptIndex = selected.attemptIndex ∧
        E.hasCode selected.candidate = false ∧
        out.hasCode = Function.update E.hasCode selected.candidate true := by
  refine ⟨?_, ?_, ?_⟩
  · intro selected
    rcases selectCandidate_cases T E seed hash with ⟨n, hleast, hsel⟩ | ⟨hnone, hsel⟩
    · rw [hsel]
      constructor
      · intro h
        obtain rfl := Except.ok.inj h
        exact ⟨hleast, rfl, rfl⟩
      · rintro ⟨hother, hsalt, hcandidate⟩
        have hn := hleast.unique hother
        rw [hsalt] at hcandidate
        obtain ⟨candidate, salt, attemptIndex⟩ := selected
        dsimp only at hn hsalt hcandidate
        subst hn
        subst hsalt
        subst hcandidate
        rfl
    · rw [hsel]
      constructor
      · intro h
        cases h
      · rintro ⟨hleast, -⟩
        have hmem := hleast.1
        rw [hnone] at hmem
        cases hmem
  · rcases selectCandidate_cases T E seed hash with ⟨n, hleast, hsel⟩ | ⟨hnone, hsel⟩
    · rw [hsel]
      constructor
      · rintro ⟨e, h⟩
        cases h
      · intro h
        exact absurd hleast.1.2 (h n hleast.1.1)
    · constructor
      · intro _ i hi hgood
        have hmem : i ∈ acceptableIndices T E seed hash := ⟨hi, hgood⟩
        rw [hnone] at hmem
        cases hmem
      · intro _
        exact ⟨_, hsel⟩
  · intro sender creator userSalt name symbol out h
    obtain ⟨selected, hselected, rfl⟩ := deployToken_ok T E h
    refine ⟨selected, hselected, rfl, rfl, rfl, ?_, rfl⟩
    rcases selectCandidate_cases T E (launchSeed T creator userSalt name symbol)
      (tokenInitCodeHash T creator name symbol) with
      ⟨n, hleast, hsel⟩ | ⟨-, hsel⟩
    · obtain rfl := Except.ok.inj (hsel.symm.trans hselected)
      exact hleast.1.2.noCode
    · cases hsel.symm.trans hselected

/-! ## The deployer of a launch -/

/-- The hashes a launch goes by. -/
abbrev hashes (T : Immutables) (definition : Address → Text → Text → Bytes32) :
    Hashes where
  definition := definition
  launchSeed := launchSeed T
  candidateSalt := computeCandidateSalt T
  tokenAddress creator name symbol salt :=
    create2Address T (tokenInitCodeHash T creator name symbol) salt

/-- What a deployment of the protocol answers. -/
def externalOf {σ : Type} [Chain σ] (D : Deployment) (w : World σ) :
    External where
  hasCode := codeAt D w
  classifyPoolCandidate :=
    PoolReservation.classifyPoolCandidate D.uniswapV3Factory (created D w)
      w.chain

/-- **THE SELECTION OF A LAUNCH** is this one. -/
theorem launching_selectFrom {σ : Type} [Chain σ] (D : Deployment)
    (w : World σ) (definition : Address → Text → Text → Bytes32)
    (creator : Address) (name symbol : Text) (left : Nat) :
    ∀ i, i + left = MAX_CANDIDATES →
      @Launching.selectFrom σ _ (hashes T definition) D w creator name symbol
        seed left i =
      selectFrom T (externalOf D w) seed
        (tokenInitCodeHash T creator name symbol) i := by
  induction left with
  | zero =>
      intro i hi
      rw [selectFrom, if_neg (by omega),
        @Launching.selectFrom.eq_def σ _ (hashes T definition)]
  | succ left ih =>
      intro i hi
      have hrest := ih (i + 1) (by omega)
      rw [selectFrom, if_pos (by omega),
        @Launching.selectFrom.eq_def σ _ (hashes T definition)]
      dsimp only
      rw [hrest]
      rfl

end TokenDeployer
