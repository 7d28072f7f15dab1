import Cooket.ContractProofs
import Mathlib.Data.List.Nodup
import Mathlib.Data.List.Range

/-! # Finding out what became of a transaction

    A wallet may REPLACE a transaction it has submitted by another one with the
    same nonce.  `captureTradeRecovery` of `apps/web/src/lib/contracts.ts`
    notes down what is needed to find the replacement, and
    `recoverTransactionReceipt`, called again and again with what it returned,
    scans the chain for it in windows of 128 blocks.

    Every request of the two is answered at some height of the chain, and
    blocks are produced between them; the heights are the INPUT of a call.
    Addresses and hashes are compared without regard to case, so they are
    numbers here. -/

namespace TransactionRecovery

open Contract

/-! ## The chain -/

/-- What is read of a transaction. -/
structure Transaction where
  hash : Nat
  sender : Address
  nonce : Nat
  to_ : Option Address
  value : Nat
  input : List UInt8
  deriving DecidableEq, Repr

/-- A transaction in a block, and whether it reverted. -/
structure Mined where
  transaction : Transaction
  reverted : Bool
  deriving DecidableEq, Repr

/-- `TransactionReceipt`. -/
structure Receipt where
  transactionHash : Nat
  reverted : Bool
  deriving DecidableEq, Repr

def receiptOf (m : Mined) : Receipt := ⟨m.transaction.hash, m.reverted⟩

/-- What is mined up to a height. -/
def upTo (block : Nat → List Mined) (height : Nat) : List Mined :=
  (List.range (height + 1)).flatMap block

/-- The transactions of one sender. -/
def sentBy (sender : Address) (ms : List Mined) : List Mined :=
  ms.filter (·.transaction.sender = sender)

/-- **A CHAIN THAT ONLY GROWS**: what is at each height never changes.  A
    sender's transactions take the nonces from zero on without a gap, and a hash
    belongs to one transaction. -/
structure Chain where
  block : Nat → List Mined
  nonces : ∀ height sender,
    (sentBy sender (upTo block height)).map (·.transaction.nonce) =
      List.range (sentBy sender (upTo block height)).length
  hashes : ∀ ⦃n n' : Nat⦄, ∀ m ∈ block n, ∀ m' ∈ block n',
    m.transaction.hash = m'.transaction.hash → m = m'

namespace Chain

/-- `getTransactionReceipt`, answered at a height. -/
def getTransactionReceipt (c : Chain) (height hash : Nat) : Option Receipt :=
  ((upTo c.block height).find? (·.transaction.hash = hash)).map receiptOf

/-- `getTransaction`: a mined transaction with its block's number, or else one
    that the node holds in its pool. -/
def getTransaction (c : Chain) (height : Nat) (pool : Option Transaction)
    (hash : Nat) : Option (Transaction × Option Nat) :=
  ((List.range (height + 1)).findSome? fun n =>
    ((c.block n).find? (·.transaction.hash = hash)).map fun m =>
      (m.transaction, some n)).or (pool.map fun t => (t, none))

/-- `getTransactionCount`, of the latest block. -/
def getTransactionCount (c : Chain) (height : Nat) (sender : Address) : Nat :=
  (sentBy sender (upTo c.block height)).length

/-- `getBlock`, with its transactions. -/
def getBlock (c : Chain) (height number : Nat) : Option (List Transaction) :=
  if number ≤ height then some ((c.block number).map (·.transaction)) else none

end Chain

/-! ## The two functions -/

/-- `TradeRecovery`. -/
structure TradeRecovery where
  sender : Address
  nonce : Nat
  to_ : Option Address
  value : Nat
  input : List UInt8
  nextScanBlock : Nat
  deriving DecidableEq, Repr

/-- What is noted down of a transaction. -/
def recoveryOf (t : Transaction) (nextScanBlock : Nat) : TradeRecovery :=
  ⟨t.sender, t.nonce, t.to_, t.value, t.input, nextScanBlock⟩

/-- What `captureTradeRecovery` meets: the heights at which its two requests,
    made at once, are answered, and whether the node has the transaction in its
    pool. -/
structure Capture where
  transaction : Nat
  number : Nat
  pooled : Bool

/-- **`captureTradeRecovery`**. -/
def captureTradeRecovery (c : Chain) (original : Transaction) (k : Capture) :
    Option TradeRecovery :=
  (c.getTransaction k.transaction (if k.pooled then some original else none)
    original.hash).map fun found =>
      recoveryOf found.1 (found.2.getD k.number)

/-- `replacementReason`. -/
inductive Reason where
  | cancelled
  | replaced
  | repriced
  deriving DecidableEq, Repr

def replacementReason (original : TradeRecovery) (replacement : Transaction) :
    Reason :=
  if replacement.to_ = some replacement.sender ∧ replacement.value = 0 then
    .cancelled
  else if replacement.to_ = original.to_ ∧ replacement.value = original.value ∧
      replacement.input = original.input then
    .repriced
  else .replaced

/-- `RecoveryResult`. -/
inductive RecoveryResult where
  | receipt (r : Receipt)
  | replacement (r : Receipt) (reason : Reason)
  | pending (recovery : Option TradeRecovery)
  deriving DecidableEq, Repr

/-- How `recoverTransactionReceipt` rejects. -/
inductive RecoveryError where
  | blockNotFound (number : Nat)
  | receiptNotFound (hash : Nat)
  | provenanceUnavailable
  deriving DecidableEq, Repr

/-- The heights at which the requests of one `recoverTransactionReceipt` are
    answered, in the order of their fields; `transaction` and `number` are made
    at once. -/
structure Call where
  receipt : Nat
  transaction : Nat
  number : Nat
  count : Nat
  latest : Nat
  scan : Nat → Nat
  found : Nat
  pooled : Bool

/-- A request is answered after the one before it. -/
structure Call.Ordered (k : Call) : Prop where
  transaction : k.receipt ≤ k.transaction
  number : k.receipt ≤ k.number
  transaction_count : k.transaction ≤ k.count
  number_count : k.number ≤ k.count
  latest : k.count ≤ k.latest
  scan : ∀ n, k.latest ≤ k.scan n
  found : ∀ n, k.scan n ≤ k.found

/-- `REPLACEMENT_SCAN_BATCH`. -/
def REPLACEMENT_SCAN_BATCH : Nat := 128

/-- The loop over the blocks. -/
def scanBlocks (c : Chain) (k : Call) (hash : Nat) (recovery : TradeRecovery) :
    List Nat → Except RecoveryError (Option RecoveryResult)
  | [] => .ok none
  | number :: rest =>
      match c.getBlock (k.scan number) number with
      | none => .error (.blockNotFound number)
      | some transactions =>
          match transactions.find? (fun t =>
            t.sender = recovery.sender ∧ t.nonce = recovery.nonce) with
          | none => scanBlocks c k hash recovery rest
          | some t =>
              match c.getTransactionReceipt k.found t.hash with
              | none => .error (.receiptNotFound t.hash)
              | some receipt =>
                  if t.hash = hash then .ok (some (.receipt receipt))
                  else .ok (some (.replacement receipt
                    (replacementReason recovery t)))

/-- The recovery that is made up for when none was stored. -/
def freshRecovery (c : Chain) (original : Transaction) (k : Call) :
    Option TradeRecovery :=
  (c.getTransaction k.transaction (if k.pooled then some original else none)
    original.hash).map fun found => recoveryOf found.1 k.number

/-- `lastBlock`. -/
def lastBlock (firstBlock latestBlock : Nat) : Nat :=
  if firstBlock + REPLACEMENT_SCAN_BATCH - 1 < latestBlock then
    firstBlock + REPLACEMENT_SCAN_BATCH - 1
  else latestBlock

/-- `recoverTransactionReceipt`, once it has a recovery. -/
def scanFrom (c : Chain) (k : Call) (hash : Nat) (recovery : TradeRecovery) :
    Except RecoveryError RecoveryResult :=
  if c.getTransactionCount k.count recovery.sender ≤ recovery.nonce then
    .ok (.pending (some recovery))
  else
    let last := lastBlock recovery.nextScanBlock k.latest
    match scanBlocks c k hash recovery (List.range' recovery.nextScanBlock
      (last + 1 - recovery.nextScanBlock)) with
    | .error e => .error e
    | .ok (some result) => .ok result
    | .ok none =>
        if last < k.latest then
          .ok (.pending (some { recovery with nextScanBlock := last + 1 }))
        else .error .provenanceUnavailable

/-- **`recoverTransactionReceipt`**. -/
def recoverTransactionReceipt (c : Chain) (original : Transaction) (k : Call)
    (stored : Option TradeRecovery) : Except RecoveryError RecoveryResult :=
  match c.getTransactionReceipt k.receipt original.hash with
  | some receipt => .ok (.receipt receipt)
  | none =>
      match stored.or (freshRecovery c original k) with
      | none => .ok (.pending none)
      | some recovery => scanFrom c k original.hash recovery

/-! ## A session -/

/-- A transaction that was submitted, the capture, and the calls after it. -/
structure Session where
  chain : Chain
  original : Transaction
  capture : Capture
  calls : Nat → Call
  submitted : ∀ ⦃n : Nat⦄, ∀ m ∈ chain.block n,
    m.transaction.hash = original.hash → m.transaction = original
  captured : capture.transaction ≤ (calls 0).receipt ∧
    capture.number ≤ (calls 0).receipt
  ordered : ∀ i, (calls i).Ordered
  later : ∀ i, (calls i).found ≤ (calls (i + 1)).receipt

namespace Session

/-- What the caller has stored before each call. -/
def stored (s : Session) : Nat → Option TradeRecovery
  | 0 => captureTradeRecovery s.chain s.original s.capture
  | i + 1 =>
      match recoverTransactionReceipt s.chain s.original (s.calls i)
        (s.stored i) with
      | .ok (.pending recovery) => recovery
      | _ => s.stored i

/-- The answer of each call. -/
def answer (s : Session) (i : Nat) : Except RecoveryError RecoveryResult :=
  recoverTransactionReceipt s.chain s.original (s.calls i) (s.stored i)

/-- The transaction that consumed the nonce, and its block. -/
structure Consumes (s : Session) (b : Nat) (m : Mined) : Prop where
  mined : m ∈ s.chain.block b
  sender : m.transaction.sender = s.original.sender
  nonce : m.transaction.nonce = s.original.nonce

end Session

/-! ## What a chain answers -/

theorem mem_upTo {block : Nat → List Mined} {height : Nat} {m : Mined} :
    m ∈ upTo block height ↔ ∃ n ≤ height, m ∈ block n := by
  simp only [upTo, List.mem_flatMap, List.mem_range, Nat.lt_succ_iff]

namespace Chain

variable (c : Chain)

/-- **A NONCE IS CONSUMED** exactly if a transaction with it is mined. -/
theorem consumed_iff (height nonce : Nat) (sender : Address) :
    nonce < c.getTransactionCount height sender ↔
      ∃ n ≤ height, ∃ m ∈ c.block n,
        m.transaction.sender = sender ∧ m.transaction.nonce = nonce := by
  have hnonces := c.nonces height sender
  rw [getTransactionCount, ← List.mem_range, ← hnonces]
  constructor
  · intro h
    obtain ⟨m, hm, rfl⟩ := List.mem_map.mp h
    obtain ⟨hm, hsender⟩ := List.mem_filter.mp hm
    obtain ⟨n, hn, hmn⟩ := mem_upTo.mp hm
    exact ⟨n, hn, m, hmn, of_decide_eq_true hsender, rfl⟩
  · rintro ⟨n, hn, m, hmn, hsender, rfl⟩
    exact List.mem_map_of_mem (List.mem_filter.mpr
      ⟨mem_upTo.mpr ⟨n, hn, hmn⟩, decide_eq_true hsender⟩)

/-- **AND IT IS CONSUMED ONCE**. -/
theorem consumed_once {n n' : Nat} {m m' : Mined} (hm : m ∈ c.block n)
    (hm' : m' ∈ c.block n')
    (hsender : m.transaction.sender = m'.transaction.sender)
    (hnonce : m.transaction.nonce = m'.transaction.nonce) :
    n = n' ∧ m = m' := by
  have hnodup : ((sentBy m.transaction.sender
      (upTo c.block (max n n'))).map (·.transaction.nonce)).Nodup := by
    rw [c.nonces]
    exact List.nodup_range
  have hin : ∀ {j : Nat} {x : Mined}, x ∈ c.block j → j ≤ max n n' →
      x.transaction.sender = m.transaction.sender →
      x ∈ sentBy m.transaction.sender (upTo c.block (max n n')) := by
    intro j x hx hj hs
    exact List.mem_filter.mpr ⟨mem_upTo.mpr ⟨j, hj, hx⟩, decide_eq_true hs⟩
  have hsame : m = m' :=
    List.inj_on_of_nodup_map hnodup (hin hm (Nat.le_max_left _ _) rfl)
      (hin hm' (Nat.le_max_right _ _) hsender.symm) hnonce
  refine ⟨?_, hsame⟩
  by_contra hne
  have hblocks : ((List.range (max n n' + 1)).flatMap fun j =>
      (sentBy m.transaction.sender (c.block j)).map
        (·.transaction.nonce)).Nodup := by
    rw [sentBy, upTo, List.filter_flatMap, List.map_flatMap] at hnodup
    exact hnodup
  have : Std.Symm (Function.onFun List.Disjoint fun j =>
      (sentBy m.transaction.sender (c.block j)).map
        (·.transaction.nonce)) := ⟨fun _ _ h => List.Disjoint.symm h⟩
  have hdisjoint := (List.nodup_flatMap.mp hblocks).2.forall
    (List.mem_range.mpr (by omega : n < max n n' + 1))
    (List.mem_range.mpr (by omega : n' < max n n' + 1)) hne
  refine hdisjoint (a := m.transaction.nonce) ?_ ?_
  · exact List.mem_map_of_mem (List.mem_filter.mpr ⟨hm, decide_eq_true rfl⟩)
  · rw [hnonce]
    exact List.mem_map_of_mem
      (List.mem_filter.mpr ⟨hm', decide_eq_true hsender.symm⟩)

/-- A mined transaction has its receipt. -/
theorem receipt_of_mined {n height : Nat} {m : Mined} (hm : m ∈ c.block n)
    (hn : n ≤ height) :
    c.getTransactionReceipt height m.transaction.hash = some (receiptOf m) := by
  rw [getTransactionReceipt]
  cases hfind : (upTo c.block height).find?
      (·.transaction.hash = m.transaction.hash) with
  | none =>
      have hnot := List.find?_eq_none.mp hfind m (mem_upTo.mpr ⟨n, hn, hm⟩)
      exact absurd (decide_eq_true rfl) hnot
  | some m' =>
      obtain ⟨n', -, hm'⟩ := mem_upTo.mp (List.mem_of_find?_eq_some hfind)
      have hhash : m'.transaction.hash = m.transaction.hash := by
        simpa using List.find?_some hfind
      rw [c.hashes m' hm' m hm hhash]
      rfl

/-- A receipt is that of a mined transaction. -/
theorem mined_of_receipt {height hash : Nat} {r : Receipt}
    (h : c.getTransactionReceipt height hash = some r) :
    ∃ n ≤ height, ∃ m ∈ c.block n,
      m.transaction.hash = hash ∧ r = receiptOf m := by
  rw [getTransactionReceipt, Option.map_eq_some_iff] at h
  obtain ⟨m, hfind, rfl⟩ := h
  obtain ⟨n, hn, hm⟩ := mem_upTo.mp (List.mem_of_find?_eq_some hfind)
  exact ⟨n, hn, m, hm, by simpa using List.find?_some hfind, rfl⟩

/-- What is found under a hash is mined or in the pool. -/
theorem getTransaction_some {height hash : Nat} {pool : Option Transaction}
    {t : Transaction} {n : Option Nat}
    (h : c.getTransaction height pool hash = some (t, n)) :
    (∃ b, n = some b ∧ ∃ m ∈ c.block b,
      m.transaction.hash = hash ∧ t = m.transaction) ∨ pool = some t := by
  rw [getTransaction] at h
  cases hmined : (List.range (height + 1)).findSome? (fun n =>
    ((c.block n).find? (·.transaction.hash = hash)).map fun m =>
      (m.transaction, some n)) with
  | some found =>
      rw [hmined, Option.some_or, Option.some.injEq] at h
      subst h
      obtain ⟨b, -, hb⟩ := List.exists_of_findSome?_eq_some hmined
      rw [Option.map_eq_some_iff] at hb
      obtain ⟨m, hfind, heq⟩ := hb
      obtain ⟨rfl, rfl⟩ := Prod.mk.inj heq
      exact .inl ⟨b, rfl, m, List.mem_of_find?_eq_some hfind,
        by simpa using List.find?_some hfind, rfl⟩
  | none =>
      rw [hmined, Option.none_or, Option.map_eq_some_iff] at h
      obtain ⟨t', hpool, heq⟩ := h
      obtain ⟨rfl, -⟩ := Prod.mk.inj heq
      exact .inr hpool

/-- A transaction that is not mined is found in the pool only. -/
theorem getTransaction_unmined {height hash : Nat} {pool : Option Transaction}
    (h : ∀ n, ∀ m ∈ c.block n, m.transaction.hash ≠ hash) :
    c.getTransaction height pool hash = pool.map fun t => (t, none) := by
  have hnone : (List.range (height + 1)).findSome? (fun n =>
      ((c.block n).find? (·.transaction.hash = hash)).map fun m =>
        (m.transaction, some n)) = none := by
    refine List.findSome?_eq_none_iff.mpr ?_
    intro n _
    rw [Option.map_eq_none_iff]
    refine List.find?_eq_none.mpr ?_
    intro m hm
    simpa using h n m hm
  rw [getTransaction, hnone, Option.none_or]

end Chain

/-! ## What one call makes of it -/

/-- A definitive answer: the original's receipt, or the replacement's. -/
def settled (original : Transaction) (m : Mined) : RecoveryResult :=
  if m.transaction.hash = original.hash then .receipt (receiptOf m)
  else .replacement (receiptOf m)
    (replacementReason (recoveryOf original 0) m.transaction)

/-- Anything but `pending`. -/
def RecoveryResult.Definitive : RecoveryResult → Prop
  | .pending _ => False
  | _ => True

theorem settled_definitive (original : Transaction) (m : Mined) :
    (settled original m).Definitive := by
  rw [settled]
  split
  · trivial
  · trivial

namespace Session

variable {s : Session} {b : Nat} {m : Mined} {k : Call}

/-- The original, mined, consumes its nonce. -/
theorem consumes_original {n : Nat} (hm : m ∈ s.chain.block n)
    (hhash : m.transaction.hash = s.original.hash) : s.Consumes n m := by
  have h := s.submitted m hm hhash
  exact ⟨hm, congrArg Transaction.sender h, congrArg Transaction.nonce h⟩

theorem Consumes.once (h : s.Consumes b m) {b' : Nat} {m' : Mined}
    (h' : s.Consumes b' m') : b = b' ∧ m = m' :=
  s.chain.consumed_once h.mined h'.mined (h.sender.trans h'.sender.symm)
    (h.nonce.trans h'.nonce.symm)

/-- A nonce that another transaction has consumed leaves the original unmined. -/
theorem Consumes.unmined (h : s.Consumes b m)
    (hother : m.transaction ≠ s.original) :
    ∀ n, ∀ m' ∈ s.chain.block n, m'.transaction.hash ≠ s.original.hash := by
  intro n m' hm' hhash
  obtain ⟨-, rfl⟩ := h.once (consumes_original hm' hhash)
  exact hother (s.submitted m h.mined hhash)

/-- The count tells whether the nonce is consumed. -/
theorem Consumes.count (h : s.Consumes b m) (height : Nat) :
    s.original.nonce <
      s.chain.getTransactionCount height s.original.sender ↔ b ≤ height := by
  rw [s.chain.consumed_iff]
  constructor
  · rintro ⟨n, hn, m', hm', hsender, hnonce⟩
    obtain ⟨rfl, -⟩ := h.once ⟨hm', hsender, hnonce⟩
    exact hn
  · intro hb
    exact ⟨b, hb, m, h.mined, h.sender, h.nonce⟩

/-- **THE SCAN** finds the transaction in its block, and nothing elsewhere. -/
theorem Consumes.scan (h : s.Consumes b m) (hk : k.Ordered) (n : Nat)
    {numbers : List Nat} (hnumbers : ∀ x ∈ numbers, x ≤ k.latest) :
    scanBlocks s.chain k s.original.hash (recoveryOf s.original n) numbers =
      .ok (if b ∈ numbers then some (settled s.original m) else none) := by
  induction numbers with
  | nil => rfl
  | cons x rest ih =>
      have hx := hnumbers x List.mem_cons_self
      have hrest := ih (fun y hy => hnumbers y (List.mem_cons_of_mem _ hy))
      have hblock : s.chain.getBlock (k.scan x) x =
          some ((s.chain.block x).map (·.transaction)) :=
        if_pos (hx.trans (hk.scan x))
      have hmatch : ∀ t ∈ (s.chain.block x).map (·.transaction),
          t.sender = s.original.sender ∧ t.nonce = s.original.nonce →
            b = x ∧ t = m.transaction := by
        rintro t ht ⟨hsender, hnonce⟩
        obtain ⟨m', hm', rfl⟩ := List.mem_map.mp ht
        obtain ⟨hbx, hmm⟩ := h.once ⟨hm', hsender, hnonce⟩
        exact ⟨hbx, congrArg _ hmm.symm⟩
      rw [scanBlocks, hblock]
      dsimp only
      cases hfind : ((s.chain.block x).map (·.transaction)).find? (fun t =>
          t.sender = (recoveryOf s.original n).sender ∧
            t.nonce = (recoveryOf s.original n).nonce) with
      | none =>
          have hne : b ≠ x := by
            rintro rfl
            have hnot := List.find?_eq_none.mp hfind m.transaction
              (List.mem_map_of_mem h.mined)
            exact hnot (decide_eq_true ⟨h.sender, h.nonce⟩)
          dsimp only
          rw [hrest]
          simp only [List.mem_cons, hne, false_or]
      | some t =>
          have hsome := List.find?_some hfind
          have hcond : t.sender = s.original.sender ∧
              t.nonce = s.original.nonce := of_decide_eq_true hsome
          obtain ⟨rfl, rfl⟩ := hmatch t (List.mem_of_find?_eq_some hfind) hcond
          have hreceipt : s.chain.getTransactionReceipt k.found
              m.transaction.hash = some (receiptOf m) :=
            s.chain.receipt_of_mined h.mined
              (hx.trans ((hk.scan b).trans (hk.found b)))
          dsimp only
          rw [hreceipt, if_pos List.mem_cons_self, settled]
          dsimp only
          by_cases hhash : m.transaction.hash = s.original.hash
          · rw [if_pos hhash, if_pos hhash]
          · rw [if_neg hhash, if_neg hhash]
            rfl

/-- A window that ends before the head is not empty. -/
theorem le_lastBlock {n latest : Nat} (h : lastBlock n latest < latest) :
    n ≤ lastBlock n latest := by
  rw [lastBlock] at h ⊢
  split at h
  · next hlt =>
    rw [if_pos hlt, REPLACEMENT_SCAN_BATCH]
    omega
  · exact absurd h (lt_irrefl _)

/-- **ONE CALL WITH A RECOVERY**: it waits until the nonce is consumed, finds
    what consumed it if that is in its window, and otherwise moves on or gives
    up. -/
theorem Consumes.scanFrom_eq (h : s.Consumes b m) (hk : k.Ordered) (n : Nat) :
    scanFrom s.chain k s.original.hash (recoveryOf s.original n) =
      if k.count < b then .ok (.pending (some (recoveryOf s.original n)))
      else if n ≤ b ∧ b ≤ lastBlock n k.latest then
        .ok (settled s.original m)
      else if lastBlock n k.latest < k.latest then
        .ok (.pending (some (recoveryOf s.original (lastBlock n k.latest + 1))))
      else .error .provenanceUnavailable := by
  have hlast : lastBlock n k.latest ≤ k.latest := by
    rw [lastBlock]
    split
    · omega
    · exact Nat.le_refl _
  have hcount := h.count k.count
  rw [scanFrom]
  by_cases hearly : k.count < b
  · rw [if_pos hearly, if_pos]
    exact Nat.le_of_not_lt (fun hlt => absurd (hcount.mp hlt) (by omega))
  · have hlate : ¬ s.chain.getTransactionCount k.count
        (recoveryOf s.original n).sender ≤ (recoveryOf s.original n).nonce :=
      Nat.not_le.mpr (hcount.mpr (Nat.le_of_not_lt hearly))
    rw [if_neg hearly, if_neg hlate]
    dsimp only
    rw [h.scan hk n]
    · have hwindow : b ∈ List.range' (recoveryOf s.original n).nextScanBlock
          (lastBlock (recoveryOf s.original n).nextScanBlock k.latest + 1 -
            (recoveryOf s.original n).nextScanBlock) ↔
          n ≤ b ∧ b ≤ lastBlock n k.latest := by
        show b ∈ List.range' n (lastBlock n k.latest + 1 - n) ↔ _
        rw [List.mem_range'_1]
        omega
      by_cases hin : n ≤ b ∧ b ≤ lastBlock n k.latest
      · rw [if_pos (hwindow.mpr hin), if_pos hin]
      · rw [if_neg (fun hmem => hin (hwindow.mp hmem)), if_neg hin]
        rfl
    · intro x hx
      have hx : x ∈ List.range' n (lastBlock n k.latest + 1 - n) := hx
      rw [List.mem_range'_1] at hx
      omega

/-- Without anything that consumes the nonce a call waits. -/
theorem scanFrom_waiting (h : ∀ b m, ¬ s.Consumes b m) (n : Nat) :
    scanFrom s.chain k s.original.hash (recoveryOf s.original n) =
      .ok (.pending (some (recoveryOf s.original n))) := by
  rw [scanFrom, if_pos]
  refine Nat.le_of_not_lt (fun hlt => ?_)
  obtain ⟨b, -, m, hm, hsender, hnonce⟩ :=
    (s.chain.consumed_iff _ _ _).mp hlt
  exact h b m ⟨hm, hsender, hnonce⟩

/-! ## What a session holds -/

/-- What is found under the original's hash is the original. -/
theorem found_original {height : Nat} {pooled : Bool} {t : Transaction}
    {n : Option Nat}
    (h : s.chain.getTransaction height
      (if pooled then some s.original else none) s.original.hash =
        some (t, n)) : t = s.original := by
  rcases s.chain.getTransaction_some h with
    ⟨b, -, m, hm, hhash, rfl⟩ | hpool
  · exact s.submitted m hm hhash
  · cases pooled with
    | true => exact (Option.some.inj hpool).symm
    | false => cases hpool

theorem fresh_original {r : TradeRecovery}
    (h : freshRecovery s.chain s.original k = some r) :
    r = recoveryOf s.original k.number := by
  rw [freshRecovery, Option.map_eq_some_iff] at h
  obtain ⟨⟨t, n⟩, hfound, rfl⟩ := h
  rw [found_original hfound]

/-- The three ways a scan ends. -/
theorem scanFrom_cases (hk : k.Ordered) (n : Nat) :
    (∃ n', scanFrom s.chain k s.original.hash (recoveryOf s.original n) =
      .ok (.pending (some (recoveryOf s.original n')))) ∨
    (∃ b m, s.Consumes b m ∧
      scanFrom s.chain k s.original.hash (recoveryOf s.original n) =
        .ok (settled s.original m)) ∨
    scanFrom s.chain k s.original.hash (recoveryOf s.original n) =
      .error .provenanceUnavailable := by
  by_cases hany : ∃ b m, s.Consumes b m
  · obtain ⟨b, m, h⟩ := hany
    rw [h.scanFrom_eq hk n]
    split
    · exact .inl ⟨n, rfl⟩
    · split
      · exact .inr (.inl ⟨b, m, h, rfl⟩)
      · split
        · exact .inl ⟨_, rfl⟩
        · exact .inr (.inr rfl)
  · exact .inl ⟨n, scanFrom_waiting (fun b m h => hany ⟨b, m, h⟩) n⟩

/-- The three ways a call goes: the original has its receipt, there is no
    recovery, or there is one to scan from. -/
theorem recover_cases {q : Option TradeRecovery}
    (hq : ∀ r, q = some r → ∃ n, r = recoveryOf s.original n) :
    (∃ n m, s.Consumes n m ∧ m.transaction.hash = s.original.hash ∧
      recoverTransactionReceipt s.chain s.original k q =
        .ok (settled s.original m)) ∨
    (q.or (freshRecovery s.chain s.original k) = none ∧
      recoverTransactionReceipt s.chain s.original k q = .ok (.pending none)) ∨
    ∃ n, q.or (freshRecovery s.chain s.original k) =
        some (recoveryOf s.original n) ∧
      recoverTransactionReceipt s.chain s.original k q =
        scanFrom s.chain k s.original.hash (recoveryOf s.original n) := by
  rw [recoverTransactionReceipt.eq_def]
  cases hreceipt : s.chain.getTransactionReceipt k.receipt s.original.hash with
  | some r =>
      obtain ⟨n, -, m, hm, hhash, rfl⟩ := s.chain.mined_of_receipt hreceipt
      refine .inl ⟨n, m, consumes_original hm hhash, hhash, ?_⟩
      rw [settled, if_pos hhash]
  | none =>
      dsimp only
      cases hheld : q.or (freshRecovery s.chain s.original k) with
      | none => exact .inr (.inl ⟨rfl, rfl⟩)
      | some r =>
          obtain ⟨n, rfl⟩ : ∃ n, r = recoveryOf s.original n := by
            rcases Option.or_eq_some_iff.mp hheld with h | ⟨-, h⟩
            · exact hq r h
            · exact ⟨_, fresh_original h⟩
          exact .inr (.inr ⟨n, rfl, rfl⟩)

theorem stored_pending {i : Nat} {q : Option TradeRecovery}
    (h : s.answer i = .ok (.pending q)) : s.stored (i + 1) = q := by
  rw [answer] at h
  rw [stored, h]

/-- A definitive answer leaves what is stored. -/
theorem stored_settled {i : Nat} (h : s.answer i = .ok (settled s.original m)) :
    s.stored (i + 1) = s.stored i := by
  rw [answer, settled] at h
  rw [stored, h]
  split at h
  · rw [if_pos ‹_›]
  · rw [if_neg ‹_›]

/-- So does a failure. -/
theorem stored_error {i : Nat} {e : RecoveryError} (h : s.answer i = .error e) :
    s.stored (i + 1) = s.stored i := by
  rw [answer] at h
  rw [stored, h]

/-- **WHATEVER IS STORED IS ABOUT THE ORIGINAL**. -/
theorem stored_original (s : Session) (i : Nat) :
    ∀ r, s.stored i = some r → ∃ n, r = recoveryOf s.original n := by
  induction i with
  | zero =>
      intro r h
      rw [stored, captureTradeRecovery, Option.map_eq_some_iff] at h
      obtain ⟨⟨t, n⟩, hfound, rfl⟩ := h
      rw [found_original hfound]
      exact ⟨_, rfl⟩
  | succ i ih =>
      intro r h
      rcases recover_cases (k := s.calls i) ih with
        ⟨n, m, -, -, hanswer⟩ | ⟨-, hanswer⟩ | ⟨n, -, hanswer⟩
      · rw [stored_settled hanswer] at h
        exact ih r h
      · rw [stored_pending hanswer] at h
        cases h
      · rcases scanFrom_cases (s.ordered i) n with
          ⟨n', hscan⟩ | ⟨b, m, -, hscan⟩ | hscan
        · rw [stored_pending (hanswer.trans hscan)] at h
          exact ⟨n', (Option.some.inj h).symm⟩
        · rw [stored_settled (hanswer.trans hscan)] at h
          exact ih r h
        · rw [stored_error (hanswer.trans hscan)] at h
          exact ih r h

/-- **SOUNDNESS**: a definitive answer is about the transaction that consumed
    the nonce. -/
theorem answer_sound {i : Nat} {r : RecoveryResult} (h : s.answer i = .ok r)
    (hr : r.Definitive) : ∃ b m, s.Consumes b m ∧ r = settled s.original m := by
  rcases recover_cases (k := s.calls i) (s.stored_original i) with
    ⟨n, m, hm, -, hanswer⟩ | ⟨-, hanswer⟩ | ⟨n, -, hanswer⟩
  · exact ⟨n, m, hm, Except.ok.inj (h.symm.trans hanswer)⟩
  · obtain rfl := Except.ok.inj (h.symm.trans hanswer)
    exact absurd hr id
  · rcases scanFrom_cases (s.ordered i) n with
      ⟨n', hscan⟩ | ⟨b, m, hm, hscan⟩ | hscan
    · obtain rfl := Except.ok.inj (h.symm.trans (hanswer.trans hscan))
      exact absurd hr id
    · exact ⟨b, m, hm, Except.ok.inj (h.symm.trans (hanswer.trans hscan))⟩
    · cases h.symm.trans (hanswer.trans hscan)

/-! ## A replaced transaction -/

/-- A call is over before the next one starts. -/
theorem number_le_succ (s : Session) (i : Nat) :
    (s.calls i).number ≤ (s.calls (i + 1)).receipt := by
  have hk := s.ordered i
  exact hk.number_count.trans (hk.latest.trans ((hk.scan 0).trans
    ((hk.found 0).trans (s.later i))))

theorem receipt_le_succ (s : Session) (i : Nat) :
    (s.calls i).receipt ≤ (s.calls (i + 1)).receipt :=
  (s.ordered i).number.trans (s.number_le_succ i)

theorem receipt_mono (s : Session) {i j : Nat} (h : i ≤ j) :
    (s.calls i).receipt ≤ (s.calls j).receipt :=
  monotone_nat_of_le_succ s.receipt_le_succ h

/-- The recovery a call works with. -/
def held (s : Session) (i : Nat) : Option TradeRecovery :=
  (s.stored i).or (freshRecovery s.chain s.original (s.calls i))

section
variable (h : s.Consumes b m) (hother : m.transaction ≠ s.original)
include h hother

/-- A capture finds a replaced transaction in the pool, if at all. -/
theorem capture_replaced :
    s.stored 0 = if s.capture.pooled then
      some (recoveryOf s.original s.capture.number) else none := by
  rw [stored, captureTradeRecovery,
    s.chain.getTransaction_unmined (h.unmined hother)]
  cases s.capture.pooled with
  | true => rfl
  | false => rfl

theorem fresh_replaced (k : Call) :
    freshRecovery s.chain s.original k = if k.pooled then
      some (recoveryOf s.original k.number) else none := by
  rw [freshRecovery, s.chain.getTransaction_unmined (h.unmined hother)]
  cases k.pooled with
  | true => rfl
  | false => rfl

/-- **WHAT A CALL DOES** about a replaced transaction, by the block it scans
    from. -/
theorem answer_replaced (i : Nat) :
    (s.held i = none ∧ s.answer i = .ok (.pending none)) ∨
    ∃ n, s.held i = some (recoveryOf s.original n) ∧
      s.answer i =
        if (s.calls i).count < b then
          .ok (.pending (some (recoveryOf s.original n)))
        else if n ≤ b ∧ b ≤ lastBlock n (s.calls i).latest then
          .ok (settled s.original m)
        else if lastBlock n (s.calls i).latest < (s.calls i).latest then
          .ok (.pending (some (recoveryOf s.original
            (lastBlock n (s.calls i).latest + 1))))
        else .error .provenanceUnavailable := by
  rcases recover_cases (k := s.calls i) (s.stored_original i) with
    ⟨n, m', hm', hhash, -⟩ | ⟨hnone, hanswer⟩ | ⟨n, hheld, hanswer⟩
  · exact absurd hhash (h.unmined hother n m' hm'.mined)
  · exact .inl ⟨hnone, hanswer⟩
  · refine .inr ⟨n, hheld, ?_⟩
    rw [answer, hanswer, h.scanFrom_eq (s.ordered i) n]

/-- A recovery from no later block than the transaction's: the call settles, or
    it moves on but not past the block, and it does move if the nonce is
    consumed. -/
theorem held_before {i n : Nat} (hheld : s.held i = some (recoveryOf s.original n))
    (hn : n ≤ b) :
    s.answer i = .ok (settled s.original m) ∨
    ∃ n', n' ≤ b ∧ s.stored (i + 1) = some (recoveryOf s.original n') ∧
      (b ≤ (s.calls i).count → n < n') := by
  rcases answer_replaced h hother i with ⟨hnone, -⟩ | ⟨n₁, hheld', hanswer⟩
  · rw [hnone] at hheld
    cases hheld
  · rw [hheld'] at hheld
    obtain rfl : n₁ = n :=
      congrArg TradeRecovery.nextScanBlock (Option.some.inj hheld)
    have hlatest := (s.ordered i).latest
    by_cases hearly : (s.calls i).count < b
    · rw [if_pos hearly] at hanswer
      exact .inr ⟨n₁, hn, stored_pending hanswer, fun hle => by omega⟩
    · rw [if_neg hearly] at hanswer
      by_cases hin : n₁ ≤ b ∧ b ≤ lastBlock n₁ (s.calls i).latest
      · rw [if_pos hin] at hanswer
        exact .inl hanswer
      · have hpast : lastBlock n₁ (s.calls i).latest < b := by omega
        have hmore : lastBlock n₁ (s.calls i).latest < (s.calls i).latest := by
          omega
        have hmoved := le_lastBlock hmore
        rw [if_neg hin, if_pos hmore] at hanswer
        exact .inr ⟨_, hpast, stored_pending hanswer, fun _ => by omega⟩

/-- A recovery from a later block never settles, and neither does what it
    leaves. -/
theorem held_after {i n : Nat} (hheld : s.held i = some (recoveryOf s.original n))
    (hn : b < n) :
    s.answer i ≠ .ok (settled s.original m) ∧
    (s.stored (i + 1) = s.stored i ∨
      ∃ n', b < n' ∧ s.stored (i + 1) = some (recoveryOf s.original n')) := by
  have hpending : ∀ q, RecoveryResult.pending q ≠ settled s.original m := by
    intro q hq
    have hdefinitive := settled_definitive s.original m
    rw [← hq] at hdefinitive
    exact hdefinitive
  rcases answer_replaced h hother i with ⟨hnone, -⟩ | ⟨n₁, hheld', hanswer⟩
  · rw [hnone] at hheld
    cases hheld
  · rw [hheld'] at hheld
    obtain rfl : n₁ = n :=
      congrArg TradeRecovery.nextScanBlock (Option.some.inj hheld)
    by_cases hearly : (s.calls i).count < b
    · rw [if_pos hearly] at hanswer
      exact ⟨fun hs => hpending _ (Except.ok.inj (hanswer.symm.trans hs)),
        .inr ⟨n₁, hn, stored_pending hanswer⟩⟩
    · rw [if_neg hearly, if_neg (by omega)] at hanswer
      by_cases hmore : lastBlock n₁ (s.calls i).latest < (s.calls i).latest
      · have hmoved := le_lastBlock hmore
        rw [if_pos hmore] at hanswer
        exact ⟨fun hs => hpending _ (Except.ok.inj (hanswer.symm.trans hs)),
          .inr ⟨_, by omega, stored_pending hanswer⟩⟩
      · rw [if_neg hmore] at hanswer
        refine ⟨fun hs => ?_, .inl (stored_error hanswer)⟩
        cases hanswer.symm.trans hs

/-- **PROGRESS**: once the nonce is consumed, each call settles or comes nearer
    to the block. -/
theorem settles_from : ∀ (d i n : Nat), b ≤ (s.calls i).receipt →
    s.held i = some (recoveryOf s.original n) → n ≤ b → b - n = d →
      ∃ j, s.answer j = .ok (settled s.original m) := by
  intro d
  induction d using Nat.strong_induction_on with
  | h d ih =>
      intro i n hreach hheld hn hd
      rcases held_before h hother hheld hn with
        hsettled | ⟨n', hn', hstored, hmoved⟩
      · exact ⟨i, hsettled⟩
      · have hcount : b ≤ (s.calls i).count :=
          hreach.trans ((s.ordered i).transaction.trans
            (s.ordered i).transaction_count)
        have hlt := hmoved hcount
        refine ih (b - n') (by omega) (i + 1) n' ?_ ?_ hn' rfl
        · exact hreach.trans (s.receipt_le_succ i)
        · rw [held, hstored]
          rfl

/-- A recovery from no later block lasts until it settles. -/
theorem held_lasts {i n : Nat} (hheld : s.held i = some (recoveryOf s.original n))
    (hn : n ≤ b) (j : Nat) :
    (∃ j', s.answer j' = .ok (settled s.original m)) ∨
      ∃ n', n' ≤ b ∧ s.held (i + j) = some (recoveryOf s.original n') := by
  induction j with
  | zero => exact .inr ⟨n, hn, hheld⟩
  | succ j ih =>
      rcases ih with hdone | ⟨n', hn', hheld'⟩
      · exact .inl hdone
      · rcases held_before h hother hheld' hn' with
          hsettled | ⟨n₂, hn₂, hstored, -⟩
        · exact .inl ⟨_, hsettled⟩
        · refine .inr ⟨n₂, hn₂, ?_⟩
          rw [← Nat.add_assoc, held, hstored]
          rfl

/-- **COMPLETENESS**, from any call that holds a recovery in time. -/
theorem settles_of_held {i n i₀ : Nat}
    (hheld : s.held i = some (recoveryOf s.original n)) (hn : n ≤ b)
    (hreach : b ≤ (s.calls i₀).receipt) :
    ∃ j, s.answer j = .ok (settled s.original m) := by
  rcases held_lasts h hother hheld hn i₀ with hdone | ⟨n', hn', hheld'⟩
  · exact hdone
  · refine settles_from h hother _ (i + i₀) n' ?_ hheld' hn' rfl
    exact hreach.trans (s.receipt_mono (Nat.le_add_left i₀ i))

end

/-- The first recovery that is made, in the capture or else in a call, reads a
    head that is not above the block. -/
def InTime (s : Session) (b : Nat) : Prop :=
  if s.capture.pooled then s.capture.number ≤ b
  else ∃ i, (s.calls i).pooled = true ∧ (s.calls i).number ≤ b

section
variable (h : s.Consumes b m) (hother : m.transaction ≠ s.original)
include h hother

/-- Up to a call that makes a recovery in time, every recovery is in time. -/
theorem stored_early {i : Nat} (hnot : s.capture.pooled = false)
    (hi : (s.calls i).number ≤ b) : ∀ j ≤ i,
      (∃ j', s.answer j' = .ok (settled s.original m)) ∨ s.stored j = none ∨
        ∃ n, n ≤ b ∧ s.stored j = some (recoveryOf s.original n) := by
  intro j
  induction j with
  | zero =>
      intro _
      have hstored := capture_replaced h hother
      rw [hnot] at hstored
      exact .inr (.inl hstored)
  | succ j ih =>
      intro hj
      rcases ih (by omega) with hdone | hstored
      · exact .inl hdone
      · have hheld : s.held j = none ∨
            ∃ n, n ≤ b ∧ s.held j = some (recoveryOf s.original n) := by
          rcases hstored with hnone | ⟨n, hn, hsome⟩
          · have hnumber : (s.calls j).number ≤ b :=
              (s.number_le_succ j).trans ((s.receipt_mono hj).trans
                ((s.ordered i).number.trans hi))
            rw [held, hnone, fresh_replaced h hother]
            cases (s.calls j).pooled with
            | true => exact .inr ⟨_, hnumber, rfl⟩
            | false => exact .inl rfl
          · rw [held, hsome]
            exact .inr ⟨n, hn, rfl⟩
        rcases hheld with hnone | ⟨n, hn, hsome⟩
        · rcases answer_replaced h hother j with ⟨-, hanswer⟩ | ⟨n, hsome, -⟩
          · exact .inr (.inl (stored_pending hanswer))
          · rw [hnone] at hsome
            cases hsome
        · rcases held_before h hother hsome hn with
            hsettled | ⟨n', hn', hstored', -⟩
          · exact .inl ⟨j, hsettled⟩
          · exact .inr (.inr ⟨n', hn', hstored'⟩)

theorem settles_of_inTime (hin : s.InTime b) {i₀ : Nat}
    (hreach : b ≤ (s.calls i₀).receipt) :
    ∃ j, s.answer j = .ok (settled s.original m) := by
  rw [InTime] at hin
  cases hpooled : s.capture.pooled with
  | true =>
      rw [hpooled, if_pos rfl] at hin
      have hstored := capture_replaced h hother
      rw [hpooled, if_pos rfl] at hstored
      have hheld : s.held 0 =
          some (recoveryOf s.original s.capture.number) := by
        rw [held, hstored]
        rfl
      exact settles_of_held h hother hheld hin hreach
  | false =>
      rw [hpooled, if_neg Bool.false_ne_true] at hin
      obtain ⟨i, hi, hnumber⟩ := hin
      rcases stored_early h hother hpooled hnumber i le_rfl with
        hdone | hnone | ⟨n, hn, hsome⟩
      · exact hdone
      · have hheld : s.held i =
            some (recoveryOf s.original (s.calls i).number) := by
          rw [held, hnone, fresh_replaced h hother, hi]
          rfl
        exact settles_of_held h hother hheld hnumber hreach
      · have hheld : s.held i = some (recoveryOf s.original n) := by
          rw [held, hsome]
          rfl
        exact settles_of_held h hother hheld hn hreach

/-- When no recovery is in time, none ever is. -/
theorem held_late (hlate : ¬ s.InTime b) (i : Nat) :
    s.held i = none ∨
      ∃ n, b < n ∧ s.held i = some (recoveryOf s.original n) := by
  have hheld_of : ∀ i, ((∃ n, b < n ∧
      s.stored i = some (recoveryOf s.original n)) ∨
        (s.stored i = none ∧ s.capture.pooled = false)) →
      s.held i = none ∨
        ∃ n, b < n ∧ s.held i = some (recoveryOf s.original n) := by
    rintro i (⟨n, hn, hsome⟩ | ⟨hnone, hnot⟩)
    · refine .inr ⟨n, hn, ?_⟩
      rw [held, hsome]
      rfl
    · rw [InTime, hnot, if_neg Bool.false_ne_true] at hlate
      rw [held, hnone, fresh_replaced h hother]
      cases hpooled : (s.calls i).pooled with
      | true =>
          refine .inr ⟨_, ?_, rfl⟩
          exact Nat.lt_of_not_le (fun hle => hlate ⟨i, hpooled, hle⟩)
      | false => exact .inl rfl
  refine hheld_of i ?_
  induction i with
  | zero =>
      have hstored := capture_replaced h hother
      rw [InTime] at hlate
      cases hpooled : s.capture.pooled with
      | true =>
          rw [hpooled, if_pos rfl] at hlate hstored
          exact .inl ⟨_, Nat.lt_of_not_le hlate, hstored⟩
      | false =>
          rw [hpooled] at hstored
          exact .inr ⟨hstored, rfl⟩
  | succ i ih =>
      rcases hheld_of i ih with hnone | ⟨n, hn, hsome⟩
      · rcases answer_replaced h hother i with ⟨-, hanswer⟩ | ⟨n, hsome, -⟩
        · rcases ih with ⟨n, -, hstored⟩ | ⟨-, hnot⟩
          · rw [held, hstored] at hnone
            cases hnone
          · exact .inr ⟨stored_pending hanswer, hnot⟩
        · rw [hnone] at hsome
          cases hsome
      · obtain ⟨-, hsame | ⟨n', hn', hstored⟩⟩ :=
          held_after h hother hsome hn
        · rw [hsame]
          exact ih
        · exact .inl ⟨n', hn', hstored⟩

end

/-- **WHEN A CONSUMED NONCE IS ACCOUNTED FOR**. -/
theorem answered_iff (h : s.Consumes b m) {i₀ : Nat}
    (hreach : b ≤ (s.calls i₀).receipt) :
    (∃ j, s.answer j = .ok (settled s.original m)) ↔
      m.transaction = s.original ∨ s.InTime b := by
  constructor
  · rintro ⟨j, hj⟩
    by_contra hnot
    rw [not_or] at hnot
    obtain ⟨hother, hlate⟩ := hnot
    rcases held_late h hother hlate j with hnone | ⟨n, hn, hsome⟩
    · rcases answer_replaced h hother j with ⟨-, hanswer⟩ | ⟨n, hsome, -⟩
      · have hdefinitive := settled_definitive s.original m
        rw [← Except.ok.inj (hanswer.symm.trans hj)] at hdefinitive
        exact hdefinitive
      · rw [hnone] at hsome
        cases hsome
    · exact (held_after h hother hsome hn).1 hj
  · intro hin
    by_cases hsame : m.transaction = s.original
    · refine ⟨i₀, ?_⟩
      have hhash : m.transaction.hash = s.original.hash :=
        congrArg Transaction.hash hsame
      have hreceipt := s.chain.receipt_of_mined h.mined hreach
      rw [hhash] at hreceipt
      rw [answer, recoverTransactionReceipt, hreceipt, settled, if_pos hhash]
    · exact settles_of_inTime h hsame (hin.resolve_left hsame) hreach

end Session

/-! ## The law -/

/-- **REPLACEMENT RECOVERY**.  Every definitive answer is about the one
    transaction that consumed the nonce: the original's receipt, or the
    replacement's.  And once the nonce is consumed, such an answer comes after
    finitely many calls exactly if that transaction is the original, or the
    first recovery that was made read a head not above its block. -/
theorem recovery_law (s : Session) :
    (∀ i r, s.answer i = .ok r → r.Definitive →
      ∃ b m, s.Consumes b m ∧ r = settled s.original m) ∧
    (∀ b m, s.Consumes b m → (∃ i, b ≤ (s.calls i).receipt) →
      ((∃ i r, s.answer i = .ok r ∧ r.Definitive) ↔
        m.transaction = s.original ∨ s.InTime b)) := by
  refine ⟨fun i r h hr => s.answer_sound h hr, ?_⟩
  rintro b m h ⟨i₀, hreach⟩
  rw [← Session.answered_iff h hreach]
  constructor
  · rintro ⟨i, r, hanswer, hr⟩
    obtain ⟨b', m', h', rfl⟩ := s.answer_sound hanswer hr
    obtain ⟨-, rfl⟩ := h.once h'
    exact ⟨i, hanswer⟩
  · rintro ⟨i, hanswer⟩
    exact ⟨i, _, hanswer, settled_definitive _ _⟩

/-! ## A replacement that is missed

    The lookup of the original and the head are asked for at once.  Here the
    lookup is answered first, at height five, with the original in the pool; the
    replacement is mined in block six; and the head is read as seven. -/

/-- A chain with one transaction. -/
def blockOf (number : Nat) (m : Mined) (n : Nat) : List Mined :=
  if n = number then [m] else []

theorem upTo_blockOf (number : Nat) (m : Mined) (height : Nat) :
    upTo (blockOf number m) height = if number ≤ height then [m] else [] := by
  induction height with
  | zero =>
      by_cases h : number = 0
      · subst h
        rfl
      · rw [if_neg (by omega)]
        simp only [upTo, blockOf, Nat.zero_add, List.range_one,
          List.flatMap_singleton, Ne.symm h, if_false]
  | succ height ih =>
      rw [upTo] at ih
      rw [upTo, List.range_succ, List.flatMap_append, ih,
        List.flatMap_singleton, blockOf]
      by_cases h : height + 1 = number
      · rw [if_neg (by omega), if_pos h, if_pos (by omega)]
        rfl
      · rw [if_neg h, List.append_nil]
        by_cases hle : number ≤ height
        · rw [if_pos hle, if_pos (by omega)]
        · rw [if_neg hle, if_neg (by omega)]

def chainOf (number : Nat) (m : Mined) (h : m.transaction.nonce = 0) :
    Chain where
  block := blockOf number m
  nonces := by
    intro height sender
    rw [upTo_blockOf, sentBy]
    split
    · by_cases hs : m.transaction.sender = sender
      · have hkeep : [m].filter (·.transaction.sender = sender) = [m] :=
          List.filter_cons_of_pos (decide_eq_true hs)
        rw [hkeep, List.map_singleton, h]
        rfl
      · have hdrop : [m].filter (·.transaction.sender = sender) = [] :=
          List.filter_cons_of_neg (by simpa using hs)
        rw [hdrop]
        rfl
    · rfl
  hashes := by
    intro n n' x hx y hy _
    rw [blockOf] at hx hy
    split at hx
    · split at hy
      · rw [List.mem_singleton.mp hx, List.mem_singleton.mp hy]
      · cases hy
    · cases hx

/-- What the wallet submitted, and what it was replaced by: a cancellation. -/
def submittedOnce : Transaction := ⟨1, 5, 0, some 9, 100, []⟩

def cancelledOnce : Mined := ⟨⟨2, 5, 0, some 5, 0, []⟩, false⟩

def missed : Session where
  chain := chainOf 6 cancelledOnce rfl
  original := submittedOnce
  capture := ⟨5, 7, true⟩
  calls i := ⟨7 + i, 7 + i, 7 + i, 7 + i, 7 + i, fun _ => 7 + i, 7 + i, false⟩
  submitted := by
    intro n m hm hhash
    have hm : m ∈ blockOf 6 cancelledOnce n := hm
    rw [blockOf] at hm
    split at hm
    · rw [List.mem_singleton.mp hm] at hhash
      exact absurd hhash (by decide)
    · cases hm
  captured := ⟨by decide, by decide⟩
  ordered i := ⟨le_rfl, le_rfl, le_rfl, le_rfl, le_rfl, fun _ => le_rfl,
    fun _ => le_rfl⟩
  later i := by
    show 7 + i ≤ 7 + (i + 1)
    omega

/-- **THE REPLACEMENT IS NEVER FOUND**: the nonce is consumed before the first
    call, and no call is ever answered. -/
theorem missed_unanswered :
    missed.Consumes 6 cancelledOnce ∧ 6 ≤ (missed.calls 0).receipt ∧
    ¬ ∃ i r, missed.answer i = .ok r ∧ r.Definitive := by
  have hconsumes : missed.Consumes 6 cancelledOnce :=
    ⟨List.mem_singleton.mpr rfl, rfl, rfl⟩
  have hreach : 6 ≤ (missed.calls 0).receipt := by
    show 6 ≤ 7 + 0
    omega
  refine ⟨hconsumes, hreach, ?_⟩
  rintro ⟨i, r, hanswer, hr⟩
  obtain ⟨b, m, h, rfl⟩ := missed.answer_sound hanswer hr
  obtain ⟨rfl, rfl⟩ := hconsumes.once h
  rcases (Session.answered_iff hconsumes hreach).mp ⟨i, hanswer⟩ with
    hsame | hin
  · exact absurd hsame (by decide)
  · have hlate : ¬ (7 : Nat) ≤ 6 := by omega
    exact hlate hin

end TransactionRecovery
