import Cooket.KeyedMergeProofs
import Cooket.IndexerEventsProofs

/-! # Scanning logs in address chunks

    The RPC refuses `eth_getLogs` requests with many addresses, so one scan
    becomes several, eight addresses at a time, and their answers are put
    together again by `canonicalLogs`: one log per identity, in chain order.
    Go walks the map of identities in no fixed order and `sort.Slice` is not
    stable, so the order of logs of one position is left to a parameter.

    On the logs of ONE CHAIN, where the position tells logs apart, nothing of
    that shows: the answer is the strictly ordered list of the logs that were
    returned, whatever the chunks, the order and the repetitions
    (`log_scan`).  A chunk that fails ends the scan. -/

namespace LogScan

open Contract IndexerEvents KeyedMerge

/-! ## Logs -/

/-- `types.Log` as the RPC returns it. -/
structure RawLog where
  address : Address
  topics : List Hash
  data : Bytes
  blockNumber : Nat
  txHash : Hash
  txIndex : Nat
  blockHash : Hash
  index : Nat
  removed : Bool
  deriving DecidableEq, Repr

/-- What `canonicalLogs` reads of a log: the identity is block hash,
    transaction hash and log index, and the content is compared between logs of
    one identity. -/
class ChainLog (L : Type) where
  Content : Type
  decContent : DecidableEq Content
  identity : L → Hash × Hash × Nat
  content : L → Content
  position : L → Nat ×ₗ Nat ×ₗ Nat
  position_eq : ∀ {a b : L}, identity a = identity b → content a = content b →
    position a = position b

attribute [reducible, instance] ChainLog.decContent

open ChainLog (identity content position)

instance : ChainLog RawLog where
  Content := Address × Nat × Nat × Bytes × List Hash
  decContent := inferInstance
  identity l := (l.blockHash, l.txHash, l.index)
  content l := (l.address, l.blockNumber, l.txIndex, l.data, l.topics)
  position l := toLex (l.blockNumber, toLex (l.txIndex, l.index))
  position_eq := by
    intro a b hid hcontent
    simp only [Prod.mk.injEq] at hid hcontent
    rw [hid.2.2, hcontent.2.1, hcontent.2.2.1]

/-- A decoded log stands for its topics and data through its event. -/
instance : ChainLog Log where
  Content := Address × Nat × Nat × Event
  decContent := inferInstance
  identity l := (l.blockHash, l.txHash, l.index)
  content l := (l.address, l.blockNumber, l.txIndex, l.event)
  position l := l.position
  position_eq := by
    intro a b hid hcontent
    simp only [Prod.mk.injEq] at hid hcontent
    rw [Log.position, Log.position, hid.2.2, hcontent.2.1, hcontent.2.2.1]

/-- The iteration over the map of identities followed by `sort.Slice`. -/
abbrev ChainSort (L : Type) [ChainLog L] :=
  RankSort (position : L → Nat ×ₗ Nat ×ₗ Nat)

section Canonical
variable {L : Type} [ChainLog L]

/-- **`canonicalLogs`**. -/
def canonicalLogs (order : ChainSort L) (logs : List L) :
    Except (Hash × Hash × Nat) (List L) :=
  (merge identity content [] logs).map order.sort

/-- Logs of one chain: the position tells them apart. -/
def OneChain (logs : List L) : Prop :=
  ∀ a ∈ logs, ∀ b ∈ logs, position a = position b → a = b

theorem canonicalLogs_ok_iff {order : ChainSort L} {logs : List L} :
    (∃ out, canonicalLogs order logs = .ok out) ↔
      Consistent identity content logs := by
  rw [← merge_ok_iff, canonicalLogs]
  cases merge identity content [] logs with
  | ok kept => exact ⟨fun _ => ⟨kept, rfl⟩, fun _ => ⟨order.sort kept, rfl⟩⟩
  | error k =>
      constructor <;> · rintro ⟨_, h⟩; cases h

/-- **WHAT IS LEFT OF ONE CHAIN**: its logs, each once, in chain order. -/
theorem canonicalLogs_spec {order : ChainSort L} {logs out : List L}
    (hchain : OneChain logs) (h : canonicalLogs order logs = .ok out) :
    (out.Pairwise fun a b => position a < position b) ∧
      ∀ l, l ∈ out ↔ l ∈ logs := by
  rw [canonicalLogs] at h
  cases hm : merge identity content [] logs with
  | error k => rw [hm] at h; cases h
  | ok kept =>
      rw [hm] at h
      obtain rfl := Except.ok.inj h
      have hkept := kept_of_merge hm
      have hmem : ∀ l, l ∈ kept ↔ l ∈ logs := by
        intro l
        refine ⟨hkept.given l, fun hl => ?_⟩
        obtain ⟨b, hb, hid, hcontent⟩ := hkept.covers l hl
        rwa [← hchain b (hkept.given b hb) l hl
          (ChainLog.position_eq hid hcontent)]
      have hranks : (kept.map position).Nodup := by
        refine List.Nodup.map_on ?_ (List.Nodup.of_map _ hkept.nodup)
        intro a ha b hb
        exact hchain a (hkept.given a ha) b (hkept.given b hb)
      exact ⟨order.strict hranks,
        fun l => ((order.perm kept).mem_iff).trans (hmem l)⟩

/-- Another list of the same logs has the same result. -/
theorem canonicalLogs_transfer {order order' : ChainSort L}
    {logs logs' out : List L} (hchain : OneChain logs)
    (hsame : ∀ l, l ∈ logs' ↔ l ∈ logs) (hout : canonicalLogs order logs = .ok out) :
    canonicalLogs order' logs' = .ok out := by
  have hchain' : OneChain logs' := by
    intro a ha b hb
    exact hchain a ((hsame a).mp ha) b ((hsame b).mp hb)
  have hconsistent : Consistent identity content logs' := by
    intro a ha b hb
    exact canonicalLogs_ok_iff.mp ⟨out, hout⟩ a ((hsame a).mp ha) b
      ((hsame b).mp hb)
  obtain ⟨out', hout'⟩ : ∃ out', canonicalLogs order' logs' = .ok out' :=
    canonicalLogs_ok_iff.mpr hconsistent
  obtain ⟨hsorted, hmem⟩ := canonicalLogs_spec hchain hout
  obtain ⟨hsorted', hmem'⟩ := canonicalLogs_spec hchain' hout'
  rw [hout', Ascending.eq_of_ranked position hsorted hsorted'
    fun l => (hmem l).trans ((hsame l).symm.trans (hmem' l).symm)]

/-- **THE ORDER OF THE ANSWERS DOES NOT SHOW**: on one chain the result depends
    on the members of the list alone. -/
theorem canonical_agree (order order' : ChainSort L) {logs logs' : List L}
    (hchain : OneChain logs) (hsame : ∀ l, l ∈ logs' ↔ l ∈ logs) (out : List L) :
    canonicalLogs order logs = .ok out ↔
      canonicalLogs order' logs' = .ok out := by
  have hchain' : OneChain logs' := by
    intro a ha b hb
    exact hchain a ((hsame a).mp ha) b ((hsame b).mp hb)
  exact ⟨canonicalLogs_transfer hchain hsame,
    canonicalLogs_transfer hchain' fun l => (hsame l).symm⟩

end Canonical

/-! ## The scan -/

/-- `ethereum.FilterQuery`. -/
structure FilterQuery (τ : Type) where
  fromBlock : Nat
  toBlock : Nat
  addresses : List Address
  topics : List (List τ)
  deriving DecidableEq, Repr

/-- The errors of `filterLogsByAddressChunks`. -/
inductive ScanError (ε : Type) where
  | noAddress
  | chunk (number : Nat) (e : ε)
  | contradictory (id : Hash × Hash × Nat)
  deriving DecidableEq, Repr

/-- A query that was issued, with its answer. -/
structure Asked (τ ε L : Type) where
  query : FilterQuery τ
  answer : Except ε (List L)

def maxFilterLogAddresses : Nat := 8

/-- The values of `start` in the loop over `n` addresses. -/
def chunkStarts (n : Nat) : List Nat :=
  (List.range ((n + maxFilterLogAddresses - 1) / maxFilterLogAddresses)).map
    fun i => i * maxFilterLogAddresses

section
variable {τ ε L : Type}

/-- `chunkQuery`. -/
def chunkQuery (query : FilterQuery τ) (start : Nat) : FilterQuery τ :=
  { query with
    addresses := query.addresses.extract start
      (min (start + maxFilterLogAddresses) query.addresses.length) }

/-- The loop over the chunks.  The RPC may answer every call as it likes. -/
def scanChunks (rpc : Nat → FilterQuery τ → Except ε (List L))
    (query : FilterQuery τ) :
    List Nat → Nat → List L → List (Asked τ ε L) × Except (ScanError ε) (List L)
  | [], _, logs => ([], .ok logs)
  | start :: starts, call, logs =>
      match rpc call (chunkQuery query start) with
      | .error e =>
          ([⟨chunkQuery query start, .error e⟩],
            .error (.chunk (start / maxFilterLogAddresses + 1) e))
      | .ok chunk =>
          let later := scanChunks rpc query starts (call + 1) (logs ++ chunk)
          (⟨chunkQuery query start, .ok chunk⟩ :: later.1, later.2)

/-- **`filterLogsByAddressChunks`**: the queries it issues, and its result. -/
def filterLogsByAddressChunks [ChainLog L] (order : ChainSort L)
    (rpc : Nat → FilterQuery τ → Except ε (List L)) (query : FilterQuery τ) :
    List (Asked τ ε L) × Except (ScanError ε) (List L) :=
  if query.addresses = [] then ([], .error .noAddress)
  else
    let scan :=
      scanChunks rpc query (chunkStarts query.addresses.length) 0 []
    (scan.1,
      match scan.2 with
      | .error e => .error e
      | .ok logs => (canonicalLogs order logs).mapError .contradictory)

/-- The query was refused. -/
def Asked.Failed (a : Asked τ ε L) : Prop := ∃ e, a.answer = .error e

/-- The logs some queries returned. -/
def returned (asked : List (Asked τ ε L)) : List L :=
  asked.flatMap fun a =>
    match a.answer with
    | .ok logs => logs
    | .error _ => []

/-- The addresses some queries asked for, in order. -/
def askedFor (asked : List (Asked τ ε L)) : List Address :=
  asked.flatMap fun a => a.query.addresses

/-! ## The chunks -/

theorem mem_chunkStarts {n start : Nat} (h : start ∈ chunkStarts n) :
    start < n := by
  obtain ⟨i, hi, rfl⟩ := List.mem_map.mp h
  have hlt := List.mem_range.mp hi
  simp only [maxFilterLogAddresses] at hlt ⊢
  omega

/-- No chunk is empty, and none is larger than eight. -/
theorem chunkQuery_length {query : FilterQuery τ} {start : Nat}
    (h : start < query.addresses.length) :
    1 ≤ (chunkQuery query start).addresses.length ∧
      (chunkQuery query start).addresses.length ≤ maxFilterLogAddresses := by
  simp only [chunkQuery, List.extract_eq_take_drop, List.length_take,
    List.length_drop, maxFilterLogAddresses]
  omega

/-- **THE CHUNKS PARTITION THE LIST**. -/
theorem chunks_flatten (query : FilterQuery τ) :
    (chunkStarts query.addresses.length).flatMap
      (fun start => (chunkQuery query start).addresses) = query.addresses := by
  have hprefix : ∀ k, ((List.range k).map (· * maxFilterLogAddresses)).flatMap
      (fun start => (chunkQuery query start).addresses) =
        query.addresses.take (k * maxFilterLogAddresses) := by
    intro k
    induction k with
    | zero => simp
    | succ k ih =>
        rw [List.range_succ, List.map_append, List.flatMap_append, ih]
        simp only [List.map_cons, List.map_nil, List.flatMap_cons,
          List.flatMap_nil, List.append_nil, chunkQuery,
          List.extract_eq_take_drop, maxFilterLogAddresses]
        rw [Nat.succ_mul, List.take_add]
        congr 1
        rcases Nat.le_total (k * 8 + 8) query.addresses.length with h | h
        · rw [Nat.min_eq_left h, Nat.add_sub_cancel_left]
        · rw [Nat.min_eq_right h, List.take_of_length_le (by simp),
            List.take_of_length_le (by simp; omega)]
  rw [chunkStarts, hprefix]
  apply List.take_of_length_le
  simp only [maxFilterLogAddresses]
  omega

/-- What the loop did with the remaining starts. -/
structure Scanned (query : FilterQuery τ) (starts : List Nat) (logs : List L)
    (scan : List (Asked τ ε L) × Except (ScanError ε) (List L)) : Prop where
  issued : (scan.1.map Asked.query) <+: starts.map (chunkQuery query)
  failed : (∃ e, scan.2 = .error e) ↔ ∃ a ∈ scan.1, a.Failed
  done : ∀ out, scan.2 = .ok out →
    scan.1.map Asked.query = starts.map (chunkQuery query) ∧
      out = logs ++ returned scan.1

/-- **WHAT THE LOOP DOES**, by induction on the starts that are left. -/
theorem scanChunks_scanned (rpc : Nat → FilterQuery τ → Except ε (List L))
    (query : FilterQuery τ) (starts : List Nat) (call : Nat) (logs : List L) :
    Scanned query starts logs (scanChunks rpc query starts call logs) := by
  induction starts generalizing call logs with
  | nil =>
      refine ⟨List.prefix_rfl, ?_, ?_⟩
      · constructor
        · rintro ⟨e, he⟩
          cases he
        · rintro ⟨a, ha, -⟩
          exact nomatch ha
      · intro out h
        obtain rfl := Except.ok.inj h
        exact ⟨rfl, (List.append_nil _).symm⟩
  | cons start starts ih =>
      rw [scanChunks]
      cases hanswer : rpc call (chunkQuery query start) with
      | error e =>
          refine ⟨?_, ?_, ?_⟩
          · exact ⟨starts.map (chunkQuery query), rfl⟩
          · exact ⟨fun _ => ⟨_, List.mem_cons_self .., e, rfl⟩,
              fun _ => ⟨_, rfl⟩⟩
          · intro out h
            cases h
      | ok chunk =>
          obtain ⟨hissued, hfailed, hdone⟩ := ih (call + 1) (logs ++ chunk)
          refine ⟨?_, ?_, ?_⟩
          · exact List.prefix_cons_inj _ |>.mpr hissued
          · refine hfailed.trans ⟨?_, ?_⟩
            · rintro ⟨a, ha, hfail⟩
              exact ⟨a, List.mem_cons_of_mem _ ha, hfail⟩
            · rintro ⟨a, ha, e, he⟩
              rcases List.mem_cons.mp ha with rfl | ha
              · cases he
              · exact ⟨a, ha, e, he⟩
          · intro out h
            obtain ⟨hall, hout⟩ := hdone out h
            refine ⟨congrArg (chunkQuery query start :: ·) hall, ?_⟩
            rw [hout, List.append_assoc]
            rfl

/-- Against an RPC that answers every query, the loop collects the answers. -/
theorem scanChunks_total (f : FilterQuery τ → List L) (query : FilterQuery τ)
    (starts : List Nat) (call : Nat) (logs : List L) :
    (scanChunks (fun _ q => (.ok (f q) : Except ε (List L))) query starts call
      logs).2 =
      .ok (logs ++ starts.flatMap fun start => f (chunkQuery query start)) := by
  induction starts generalizing call logs with
  | nil => exact congrArg Except.ok (List.append_nil _).symm
  | cons start starts ih =>
      rw [scanChunks]
      dsimp only
      rw [ih, List.append_assoc, List.flatMap_cons]

/-- The scan of an RPC that answers every query. -/
theorem filterLogsByAddressChunks_total [ChainLog L] (order : ChainSort L)
    (f : FilterQuery τ → List L) (query : FilterQuery τ)
    (haddr : query.addresses ≠ []) :
    (filterLogsByAddressChunks order
      (fun _ q => (.ok (f q) : Except ε (List L))) query).2 =
      (canonicalLogs order ((chunkStarts query.addresses.length).flatMap
        fun start => f (chunkQuery query start))).mapError .contradictory := by
  rw [filterLogsByAddressChunks, if_neg haddr]
  dsimp only
  rw [scanChunks_total]
  rfl

end

/-! ## The law of a scan -/

/-- Two logs share their identity and contradict each other. -/
def Contradict (a b : RawLog) : Prop :=
  a.blockHash = b.blockHash ∧ a.txHash = b.txHash ∧ a.index = b.index ∧
    (a.address ≠ b.address ∨ a.blockNumber ≠ b.blockNumber ∨
      a.txIndex ≠ b.txIndex ∨ a.topics ≠ b.topics ∨ a.data ≠ b.data)

theorem consistent_iff (logs : List RawLog) :
    Consistent identity content logs ↔
      ¬ ∃ a ∈ logs, ∃ b ∈ logs, Contradict a b := by
  constructor
  · rintro hall ⟨a, ha, b, hb, hh, ht, hi, hdiffer⟩
    have hid : identity a = identity b := by
      show (a.blockHash, a.txHash, a.index) = (b.blockHash, b.txHash, b.index)
      rw [hh, ht, hi]
    have hcontent : (a.address, a.blockNumber, a.txIndex, a.data, a.topics) =
        (b.address, b.blockNumber, b.txIndex, b.data, b.topics) :=
      hall a ha b hb hid
    simp only [Prod.mk.injEq] at hcontent
    obtain ⟨h₁, h₂, h₃, h₄, h₅⟩ := hcontent
    rcases hdiffer with h | h | h | h | h
    · exact h h₁
    · exact h h₂
    · exact h h₃
    · exact h h₅
    · exact h h₄
  · intro hnone a ha b hb hid
    simp only [identity, Prod.mk.injEq] at hid
    by_contra hdiffer
    refine hnone ⟨a, ha, b, hb, hid.1, hid.2.1, hid.2.2, ?_⟩
    by_contra hagree
    simp only [not_or, not_not] at hagree
    obtain ⟨h₁, h₂, h₃, h₄, h₅⟩ := hagree
    exact hdiffer (by simp only [content, h₁, h₂, h₃, h₄, h₅])

section
variable {τ ε : Type}

/-- What a scan of a nonempty address list guarantees. -/
structure ScanLaw (query : FilterQuery τ)
    (run : List (Asked τ ε RawLog) × Except (ScanError ε) (List RawLog)) :
    Prop where
  /-- A query has one to eight addresses, -/
  bounded : ∀ a ∈ run.1, 1 ≤ a.query.addresses.length ∧
    a.query.addresses.length ≤ maxFilterLogAddresses
  /-- and otherwise asks what it was told to. -/
  kept : ∀ a ∈ run.1,
    a.query = { query with addresses := a.query.addresses }
  /-- The addresses are asked for in turn, -/
  inOrder : askedFor run.1 <+: query.addresses
  /-- every one of them, unless a query fails. -/
  complete : (∀ a ∈ run.1, ¬ a.Failed) → askedFor run.1 = query.addresses
  /-- The scan fails by a failed query or by a contradiction, -/
  fails_iff : (∃ e, run.2 = .error e) ↔
    (∃ a ∈ run.1, a.Failed) ∨
      ∃ a ∈ returned run.1, ∃ b ∈ returned run.1, Contradict a b
  /-- and answers with the logs of the chain in order. -/
  answer : OneChain (returned run.1) → ∀ out, run.2 = .ok out →
    (out.Pairwise fun a b => position a < position b) ∧
      ∀ l, l ∈ out ↔ l ∈ returned run.1

/-- The addresses asked for are those of the issued queries. -/
theorem askedFor_eq (asked : List (Asked τ ε RawLog)) :
    askedFor asked = (asked.map Asked.query).flatMap FilterQuery.addresses :=
  (List.flatMap_map ..).symm

/-- A scan whose queries were all answered succeeds when its logs agree. -/
theorem scan_ok_iff (order : ChainSort RawLog)
    (rpc : Nat → FilterQuery τ → Except ε (List RawLog))
    {query : FilterQuery τ} (haddr : query.addresses ≠ []) :
    ∀ out, (filterLogsByAddressChunks order rpc query).2 = .ok out ↔
      (∀ a ∈ (filterLogsByAddressChunks order rpc query).1, ¬ a.Failed) ∧
        canonicalLogs order
          (returned (filterLogsByAddressChunks order rpc query).1) = .ok out := by
  intro out
  obtain ⟨-, hfailed, hdone⟩ := scanChunks_scanned rpc query
    (chunkStarts query.addresses.length) 0 []
  rw [filterLogsByAddressChunks, if_neg haddr]
  generalize hscan : scanChunks rpc query
    (chunkStarts query.addresses.length) 0 [] = scan at hfailed hdone ⊢
  obtain ⟨asked, result⟩ := scan
  cases result with
  | error e =>
      obtain ⟨a, ha, hfail⟩ := hfailed.mp ⟨e, rfl⟩
      constructor
      · intro h
        cases h
      · rintro ⟨hnone, -⟩
        exact absurd hfail (hnone a ha)
  | ok logs =>
      obtain ⟨-, hlogs⟩ := hdone logs rfl
      rw [List.nil_append] at hlogs
      have hnone : ∀ a ∈ asked, ¬ a.Failed := by
        intro a ha hfail
        obtain ⟨e, he⟩ := hfailed.mpr ⟨a, ha, hfail⟩
        cases he
      show (canonicalLogs order logs).mapError _ = _ ↔ _
      rw [hlogs]
      cases canonicalLogs order (returned asked) with
      | error k =>
          constructor
          · intro h
            cases h
          · rintro ⟨-, h⟩
            cases h
      | ok found =>
          constructor
          · intro h
            obtain rfl := Except.ok.inj h
            exact ⟨hnone, rfl⟩
          · rintro ⟨-, h⟩
            obtain rfl := Except.ok.inj h
            rfl

/-- **THE LAW OF ONE SCAN**. -/
theorem scan_lawful (order : ChainSort RawLog)
    (rpc : Nat → FilterQuery τ → Except ε (List RawLog))
    (query : FilterQuery τ) (haddr : query.addresses ≠ []) :
    ScanLaw query (filterLogsByAddressChunks order rpc query) := by
  have hok := scan_ok_iff order rpc haddr
  obtain ⟨hissued, hfailed, hdone⟩ := scanChunks_scanned rpc query
    (chunkStarts query.addresses.length) 0 []
  have hrun : (filterLogsByAddressChunks order rpc query).1 = (scanChunks rpc
      query (chunkStarts query.addresses.length) 0 []).1 := by
    rw [filterLogsByAddressChunks, if_neg haddr]
  rw [← hrun] at hissued hfailed hdone
  generalize filterLogsByAddressChunks order rpc query = run at *
  have hchunk : ∀ a ∈ run.1, ∃ start ∈ chunkStarts query.addresses.length,
      chunkQuery query start = a.query := by
    intro a ha
    exact List.mem_map.mp (hissued.subset (List.mem_map_of_mem ha))
  refine ⟨?_, ?_, ?_, ?_, ?_, ?_⟩
  · intro a ha
    obtain ⟨start, hstart, hq⟩ := hchunk a ha
    rw [← hq]
    exact chunkQuery_length (mem_chunkStarts hstart)
  · intro a ha
    obtain ⟨start, -, hq⟩ := hchunk a ha
    rw [← hq]
    rfl
  · obtain ⟨rest, hrest⟩ := hissued
    refine ⟨rest.flatMap FilterQuery.addresses, ?_⟩
    rw [askedFor_eq, ← List.flatMap_append, hrest, List.flatMap_map]
    exact chunks_flatten query
  · intro hnone
    cases hscan : (scanChunks rpc query
        (chunkStarts query.addresses.length) 0 []).2 with
    | error e =>
        obtain ⟨a, ha, hfail⟩ := hfailed.mp ⟨e, hscan⟩
        exact absurd hfail (hnone a ha)
    | ok logs =>
        rw [askedFor_eq, (hdone logs hscan).1, List.flatMap_map]
        exact chunks_flatten query
  · have hcontra : (∃ out, canonicalLogs order (returned run.1) = .ok out) ↔ _ :=
      canonicalLogs_ok_iff.trans (consistent_iff (returned run.1))
    cases hresult : run.2 with
    | error e =>
        refine ⟨fun _ => ?_, fun _ => ⟨e, rfl⟩⟩
        by_contra hnot
        rw [not_or] at hnot
        obtain ⟨out, hout⟩ := hcontra.mpr hnot.2
        have hnone : ∀ a ∈ run.1, ¬ a.Failed :=
          fun a ha hfail => hnot.1 ⟨a, ha, hfail⟩
        rw [(hok out).mpr ⟨hnone, hout⟩] at hresult
        cases hresult
    | ok out =>
        obtain ⟨hnone, hout⟩ := (hok out).mp hresult
        constructor
        · rintro ⟨e, he⟩
          cases he
        · rintro (⟨a, ha, hfail⟩ | hpair)
          · exact absurd hfail (hnone a ha)
          · exact absurd hpair (hcontra.mp ⟨out, hout⟩)
  · intro hchain out hout
    exact canonicalLogs_spec hchain ((hok out).mp hout).2

/-- **SCANS OF ONE CHAIN**: each obeys the law, and two of them whose queries
    were answered with the same logs, in whatever order and however often and
    across whatever chunks, have the same outcome. -/
theorem log_scan (order order' : ChainSort RawLog)
    (rpc rpc' : Nat → FilterQuery τ → Except ε (List RawLog))
    (query query' : FilterQuery τ) :
    (query.addresses ≠ [] →
      ScanLaw query (filterLogsByAddressChunks order rpc query)) ∧
    (query.addresses ≠ [] → query'.addresses ≠ [] →
      (∀ a ∈ (filterLogsByAddressChunks order rpc query).1, ¬ a.Failed) →
      (∀ a ∈ (filterLogsByAddressChunks order' rpc' query').1, ¬ a.Failed) →
      OneChain (returned (filterLogsByAddressChunks order rpc query).1) →
      (∀ l, l ∈ returned (filterLogsByAddressChunks order' rpc' query').1 ↔
        l ∈ returned (filterLogsByAddressChunks order rpc query).1) →
      ∀ out, (filterLogsByAddressChunks order rpc query).2 = .ok out ↔
        (filterLogsByAddressChunks order' rpc' query').2 = .ok out) := by
  refine ⟨fun haddr => scan_lawful order rpc query haddr, ?_⟩
  intro haddr haddr' hall hall' hchain hsame out
  rw [scan_ok_iff order rpc haddr, scan_ok_iff order' rpc' haddr']
  have hchain' : OneChain
      (returned (filterLogsByAddressChunks order' rpc' query').1) := by
    intro a ha b hb
    exact hchain a ((hsame a).mp ha) b ((hsame b).mp hb)
  generalize (filterLogsByAddressChunks order rpc query).1 = asked at *
  generalize (filterLogsByAddressChunks order' rpc' query').1 = asked' at *
  have hagree := canonical_agree order order' hchain hsame
  exact ⟨fun h => ⟨hall', (hagree out).mp h.2⟩,
    fun h => ⟨hall, (hagree out).mpr h.2⟩⟩

end

/-! ## A chunk that fails -/

/-- Nine addresses: two chunks. -/
def nineAddresses : FilterQuery Hash :=
  ⟨1, 3, [1, 2, 3, 4, 5, 6, 7, 8, 9], []⟩

/-- An RPC that refuses every call. -/
def refusing : Nat → FilterQuery Hash → Except Nat (List RawLog) :=
  fun call _ => .error call

/-- **NO ADDRESS IS ASKED FOR AFTER A FAILED CHUNK**. -/
theorem failed_chunk_ends_scan :
    9 ∈ nineAddresses.addresses ∧
      9 ∉ askedFor (filterLogsByAddressChunks (RankSort.stable _) refusing
        nineAddresses).1 := by
  decide

end LogScan
