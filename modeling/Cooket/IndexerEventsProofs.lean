import Cooket.TradeRowsProofs

/-! # What the indexer reads: logs, blocks, and the pairs it insists on

    The indexer is handed a block at a time: the header, the logs it selected,
    the ERC-20 metadata of the tokens launched in it, and the senders of its
    pool swaps.  The events are those of `selectedABIs` of
    `apps/indexer/abi.go`, with the fields some query or projection reads; a
    log whose first topic is none of these is `unknown`.

    Two checks look at a block as a whole before any row is written
    (`validateGraduationPairs`, `validateCTOActivationPairs`).  They are the
    same check on different keys, `validatePairs`. -/

namespace IndexerEvents

open Contract CurveQuote CurveTrade

/-- A block or transaction hash: only equality and order are used. -/
abbrev Hash := Nat

/-- The bytes of a Solidity or Go string. -/
abbrev Bytes := List UInt8

/-! ## Text

    A Go string holds any bytes.  `json.Marshal` writes the replacement
    character for every byte that starts no well-formed UTF-8 sequence;
    PostgreSQL's `TEXT` refuses such bytes, and neither `TEXT` nor `JSONB`
    takes a zero byte. -/

def continuation (x : UInt8) : Bool := 0x80 ≤ x && x ≤ 0xBF

/-- The length of the well-formed UTF-8 sequence the bytes start with
    (`utf8.DecodeRune`). -/
def runeWidth : Bytes → Option Nat
  | [] => none
  | x :: rest =>
      if x < 0x80 then some 1
      else if 0xC2 ≤ x && x ≤ 0xDF then
        match rest with
        | y :: _ => if continuation y then some 2 else none
        | _ => none
      else if 0xE0 ≤ x && x ≤ 0xEF then
        match rest with
        | y :: z :: _ =>
            let low := if x = 0xE0 then 0xA0 else 0x80
            let high := if x = 0xED then 0x9F else 0xBF
            if low ≤ y && y ≤ high && continuation z then some 3 else none
        | _ => none
      else if 0xF0 ≤ x && x ≤ 0xF4 then
        match rest with
        | y :: z :: w :: _ =>
            let low := if x = 0xF0 then 0x90 else 0x80
            let high := if x = 0xF4 then 0x8F else 0xBF
            if low ≤ y && y ≤ high && continuation z && continuation w then some 4
            else none
        | _ => none
      else none

/-- Every sequence is well formed; `skip` bytes belong to one already seen. -/
def validFrom : Nat → Bytes → Bool
  | _, [] => true
  | skip + 1, _ :: rest => validFrom skip rest
  | 0, x :: rest =>
      match runeWidth (x :: rest) with
      | some width => validFrom (width - 1) rest
      | none => false

def validUtf8 (s : Bytes) : Bool := validFrom 0 s

/-- U+FFFD. -/
def replacement : Bytes := [0xEF, 0xBF, 0xBD]

/-- The string a reader of `json.Marshal`'s output gets back. -/
def jsonFrom : Nat → Bytes → Bytes
  | _, [] => []
  | skip + 1, x :: rest => x :: jsonFrom skip rest
  | 0, x :: rest =>
      match runeWidth (x :: rest) with
      | some width => x :: jsonFrom (width - 1) rest
      | none => replacement ++ jsonFrom 0 rest

def jsonString (s : Bytes) : Bytes := jsonFrom 0 s

/-- PostgreSQL takes the bytes as `TEXT`. -/
def isText (s : Bytes) : Bool := validUtf8 s && !s.contains 0

/-- A well-formed string goes through `json.Marshal` unchanged. -/
theorem jsonString_valid {s : Bytes} (h : validUtf8 s = true) :
    jsonString s = s := by
  have hfrom : ∀ (s : Bytes) (skip : Nat), validFrom skip s = true →
      jsonFrom skip s = s := by
    intro s
    induction s with
    | nil =>
        intro skip _
        cases skip <;> rfl
    | cons x rest ih =>
        intro skip hs
        cases skip with
        | succ skip => exact congrArg (x :: ·) (ih skip hs)
        | zero =>
            simp only [validFrom] at hs
            simp only [jsonFrom]
            split at hs
            · exact congrArg (x :: ·) (ih _ hs)
            · exact absurd hs (by decide)
  exact hfrom s 0 h

/-! ## Events -/

/-- The events of `CTORegistryV3`, `FeeManagerV3` and `CTOTreasuryV3` in
    `allCTOEventNames`. -/
inductive CTOEvent where
  | treasuryDeployed (token controller treasury : Address) (nonce salt : Nat)
  | proposed (proposalId : Nat)
      (token creator controller treasury previousRecipient : Address)
      (nonce acceptanceDeadline metadataHash : Nat) (metadataURI : Bytes)
  | accepted (proposalId : Nat) (token treasury controller : Address)
      (acceptedAt : Nat)
  | ready (proposalId : Nat) (token : Address)
      (executeAfter executeDeadline : Nat)
  | cancelled (proposalId : Nat) (token creator : Address)
  | expired (proposalId : Nat) (token : Address) (previousState : Nat)
  | activated (proposalId : Nat)
      (token treasury controller previousRecipient executor : Address)
  | creatorFeeCheckpointed (token previousRecipient : Address) (amount : Nat)
  | pendingCreatorPayoutInvalidated (token cancelledPayout : Address)
  | feeRouteActivated (token previousRecipient treasury : Address)
  | checkpointedCreatorFeesClaimed (token recipient triggeredBy : Address)
      (amount : Nat)
  | acceptanceSubmitted (proposalId : Nat) (controller treasury : Address)
  | supportedAssetRegistered (asset controller : Address)
  | treasuryAssetTransferred (asset recipient : Address) (amount : Nat)
      (controller : Address)
  | creatorFeesPulled (token asset : Address) (amount : Nat)
      (triggeredBy : Address)
  deriving DecidableEq, Repr

/-- The contract `selectedEvent` takes an event's ABI from. -/
inductive CTOKind where
  | registry
  | feeManager
  | treasury
  deriving DecidableEq, Repr

def CTOEvent.kind : CTOEvent → CTOKind
  | .treasuryDeployed .. | .proposed .. | .accepted .. | .ready ..
  | .cancelled .. | .expired .. | .activated .. => .registry
  | .creatorFeeCheckpointed .. | .pendingCreatorPayoutInvalidated ..
  | .feeRouteActivated .. | .checkpointedCreatorFeesClaimed .. => .feeManager
  | .acceptanceSubmitted .. | .supportedAssetRegistered ..
  | .treasuryAssetTransferred .. | .creatorFeesPulled .. => .treasury

/-- The decoded body of a log. -/
inductive Event where
  | tokenLaunchedV3 (creator token curve : Address)
      (totalSupply curveAllocation lpAllocation : Nat)
      (initialCreatorPayout canonicalPool : Address)
  | transfer (source destination : Address) (value : Nat)
  | approval (owner spender : Address) (value : Nat)
  | tokensBought (token buyer : Address) (q : BuyQuote)
  | tokensSold (token seller : Address) (q : SellQuote)
  | graduated (token graduationManager : Address)
      (tokenAmount nativeUsdcAmount soldSupply : Nat)
  | graduationReserveForwarded (terminalReserveCoordinate nativeUsdcForwarded : Nat)
  | graduatedV3 (token custodian : Address) (tokenId liquidity : Nat)
  | swap (amount0 amount1 : Int)
  | cto (e : CTOEvent)
  | unknown
  deriving DecidableEq, Repr

/-- `types.Log`. -/
structure Log where
  address : Address
  event : Event
  blockNumber : Nat
  blockHash : Hash
  txHash : Hash
  txIndex : Nat
  index : Nat
  deriving DecidableEq, Repr

/-- The identity of a log in the database. -/
def Log.identity (l : Log) : Hash × Nat := (l.txHash, l.index)

/-- `sort.Slice(out, …)` of `canonicalLogs`. -/
def Log.position (l : Log) : Nat ×ₗ Nat ×ₗ Nat :=
  toLex (l.blockNumber, toLex (l.txIndex, l.index))

/-- `TokenMetadata`. -/
structure TokenMetadata where
  name : Bytes
  symbol : Bytes
  decimals : Nat
  deriving DecidableEq, Repr

/-- The arguments of `ApplyWithProvenance` that describe a block. -/
structure Block where
  number : Nat
  hash : Hash
  parentHash : Hash
  time : Nat
  logs : List Log
  metadata : Address → Option TokenMetadata
  senders : Hash → Option Address

/-- `CTOProvenance`. -/
structure CTOProvenance where
  factory : Address
  feeManager : Address
  registry : Address
  deriving DecidableEq, Repr

/-! ## Pairs -/

/-- How two lists of keys fail to match. -/
inductive PairFault (κ : Type) where
  | matchCount (k : κ) (count : Nat)
  | unpaired (k : κ)
  deriving DecidableEq, Repr

/-- Every key on the left has one match on the right, and every key on the
    right has one on the left. -/
def validatePairs {κ : Type} [DecidableEq κ] (left right : List κ) :
    Except (PairFault κ) Unit :=
  match left.find? (fun k => right.count k ≠ 1) with
  | some k => .error (.matchCount k (right.count k))
  | none =>
      match right.find? (fun k => k ∉ left) with
      | some k => .error (.unpaired k)
      | none => .ok ()

theorem validatePairs_ok_iff {κ : Type} [DecidableEq κ] {left right : List κ} :
    validatePairs left right = .ok () ↔
      (∀ k ∈ left, right.count k = 1) ∧ ∀ k ∈ right, k ∈ left := by
  unfold validatePairs
  split
  · next k hk =>
    have hmem := List.mem_of_find?_eq_some hk
    have hcount : right.count k ≠ 1 := by simpa using List.find?_some hk
    simp only [reduceCtorEq, false_iff, not_and]
    intro h
    exact absurd (h k hmem) hcount
  · next hleft =>
    have hl : ∀ k ∈ left, right.count k = 1 := by
      simpa using List.find?_eq_none.mp hleft
    split
    · next k hk =>
      have hmem := List.mem_of_find?_eq_some hk
      have hout : k ∉ left := by simpa using List.find?_some hk
      simp only [reduceCtorEq, false_iff, not_and]
      intro _ h
      exact hout (h k hmem)
    · next hright =>
      have hr : ∀ k ∈ right, k ∈ left := by
        simpa using List.find?_eq_none.mp hright
      exact ⟨fun _ => ⟨hl, hr⟩, fun _ => rfl⟩

/-- A one-to-one correspondence is accepted. -/
theorem validatePairs_of_perm {κ : Type} [DecidableEq κ] {left right : List κ}
    (h : left.Perm right) (hnodup : right.Nodup) :
    validatePairs left right = .ok () :=
  validatePairs_ok_iff.mpr
    ⟨fun _ hk => List.count_eq_one_of_mem hnodup (h.mem_iff.mp hk),
      fun _ hk => h.mem_iff.mpr hk⟩

/-- What a curve's graduation and the manager's settlement agree on. -/
structure Graduation where
  token : Address
  manager : Address
  txHash : Hash
  blockHash : Hash
  blockNumber : Nat
  deriving DecidableEq, Repr

def curveGraduation (l : Log) : Option Graduation :=
  match l.event with
  | .graduated token manager _ _ _ =>
      some ⟨token, manager, l.txHash, l.blockHash, l.blockNumber⟩
  | _ => none

/-- The manager of a settlement is its emitter. -/
def settlement (l : Log) : Option Graduation :=
  match l.event with
  | .graduatedV3 token _ _ _ =>
      some ⟨token, l.address, l.txHash, l.blockHash, l.blockNumber⟩
  | _ => none

/-- What the registry's activation and the fee manager's route agree on. -/
structure Activation where
  token : Address
  treasury : Address
  previous : Address
  txHash : Hash
  blockHash : Hash
  blockNumber : Nat
  deriving DecidableEq, Repr

def registryActivation (roots : CTOProvenance) (l : Log) : Option Activation :=
  match l.event with
  | .cto (.activated _ token treasury _ previous _) =>
      if l.address = roots.registry then
        some ⟨token, treasury, previous, l.txHash, l.blockHash, l.blockNumber⟩
      else none
  | _ => none

def routeActivation (roots : CTOProvenance) (l : Log) : Option Activation :=
  match l.event with
  | .cto (.feeRouteActivated token previous treasury) =>
      if l.address = roots.feeManager then
        some ⟨token, treasury, previous, l.txHash, l.blockHash, l.blockNumber⟩
      else none
  | _ => none

/-- The errors of the two checks. -/
inductive PairError where
  | invalidGraduationIdentity
  | invalidSettlementToken
  | graduation (fault : PairFault Graduation)
  | activation (fault : PairFault Activation)
  deriving DecidableEq, Repr

/-- The identities a decoded pair event must have. -/
def graduationIdentity (l : Log) : Except PairError Unit :=
  match l.event with
  | .graduated token manager _ _ _ =>
      if token = 0 ∨ manager = 0 then .error .invalidGraduationIdentity
      else .ok ()
  | .graduatedV3 token _ _ _ =>
      if token = 0 then .error .invalidSettlementToken else .ok ()
  | _ => .ok ()

/-- **`validateGraduationPairs`**. -/
def validateGraduationPairs (logs : List Log) : Except PairError Unit := do
  logs.forM graduationIdentity
  match validatePairs (logs.filterMap curveGraduation)
      (logs.filterMap settlement) with
  | .error fault => .error (.graduation fault)
  | .ok () => .ok ()

/-- **`validateCTOActivationPairs`**. -/
def validateCTOActivationPairs (roots : CTOProvenance) (logs : List Log) :
    Except PairError Unit :=
  if roots.registry = 0 ∨ roots.feeManager = 0 then .ok ()
  else
    match validatePairs (logs.filterMap (registryActivation roots))
        (logs.filterMap (routeActivation roots)) with
    | .error fault => .error (.activation fault)
    | .ok () => .ok ()

end IndexerEvents
