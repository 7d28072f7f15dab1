import Cooket.CollectedLogsProofs
import Cooket.TokenLedgerProofs

/-! # The holders of a token, on the chain and in the database

    The token contract is OpenZeppelin's ERC-20 with one mint: `initialize`
    gives the whole supply to the curve, after that tokens only move, and every
    change is told by a `Transfer`.  `Holding` is what the contract holds after
    some transfers.

    The indexer adds up the collected transfers, and seeds the curve's balance
    when it has not collected a mint.  The argument has two halves.  Whatever
    the batches, a token that was launched in an applied block has ALL its
    transfers up to the last applied block in the database, and nothing else
    (`Collected`).  And then the sums are the balances, the mint included once
    (`holders_are_balances`). -/

namespace HolderLedger

open CheckedArith Contract IndexerEvents IndexerStore IndexerBatch CollectedLogs
open Keyset RowTable TokenLedger

/-! ## What the token contract holds -/

/-- The log is a `Transfer` of the token. -/
def isTransfer (token : Address) (l : Log) : Bool :=
  l.address = token && topic l.event = .transfer

/-- **THE BALANCES AFTER SOME TRANSFERS**: one mint to the curve, then moves
    between accounts other than the zero address. -/
inductive Holding (curve : Address) (supply : Nat) :
    List Log → (Address → Nat) → Prop
  | minted {l : Log} : curve ≠ 0 → l.event = .transfer 0 curve supply →
      Holding curve supply [l] (Function.update (fun _ => 0) curve supply)
  | moved {ls : List Log} {f : Address → Nat} {l : Log} {src dst : Address}
      {value : Nat} : Holding curve supply ls f →
      l.event = .transfer src dst value → src ≠ 0 → dst ≠ 0 →
      value ≤ f src →
      Holding curve supply (ls ++ [l]) (move f src dst value)

/-- What an event adds to the balance of an account: the columns of
    `transfers`. -/
def credit (a : Address) : Event → Int
  | .transfer src dst value =>
      (if src = a ∧ src ≠ 0 then -(value : Int) else 0) +
        (if dst = a ∧ dst ≠ 0 then (value : Int) else 0)
  | _ => 0

section
variable {curve : Address} {supply : Nat} {ls : List Log} {f : Address → Nat}

/-- **A BALANCE IS THE SUM OF ITS CREDITS**. -/
theorem Holding.sum_credit (h : Holding curve supply ls f) (a : Address) :
    (ls.map fun l => credit a l.event).sum = f a := by
  induction h with
  | minted hcurve hevent =>
      simp only [List.map_cons, List.map_nil, List.sum_cons, List.sum_nil,
        hevent, credit]
      by_cases ha : curve = a
      · subst ha
        rw [Function.update_self, if_neg (by simp), if_pos ⟨rfl, hcurve⟩]
        simp
      · rw [Function.update_of_ne (Ne.symm ha), if_neg (by simp),
          if_neg (fun hp => ha hp.1)]
        simp
  | @moved ls f l src dst value _ hevent hsrc hdst hvalue ih =>
      rw [List.map_append, List.sum_append, ih]
      simp only [List.map_cons, List.map_nil, List.sum_cons, List.sum_nil,
        hevent, credit]
      by_cases hs : src = a
      · subst hs
        rw [if_pos ⟨rfl, hsrc⟩]
        by_cases hd : dst = src
        · subst hd
          rw [if_pos ⟨rfl, hdst⟩, move_self hvalue]
          omega
        · rw [if_neg fun hp => hd hp.1, move_src (Ne.symm hd)]
          omega
      · rw [if_neg fun hp => hs hp.1, move_of_ne_src (Ne.symm hs)]
        by_cases hd : dst = a
        · subst hd
          rw [if_pos ⟨rfl, hdst⟩, if_pos rfl]
          omega
        · rw [if_neg fun hp => hd hp.1, if_neg (Ne.symm hd)]
          omega

/-- The supply is conserved. -/
theorem Holding.sum_supply (h : Holding curve supply ls f) :
    ∑ a, f a = supply := by
  induction h with
  | minted _ _ =>
      rw [Finset.sum_update_of_mem (Finset.mem_univ _)]
      simp
  | moved _ _ _ _ hvalue ih => rw [sum_move hvalue, ih]

/-- The first transfer is the mint. -/
theorem Holding.mint_mem (h : Holding curve supply ls f) :
    ∃ l ∈ ls, l.event = .transfer 0 curve supply := by
  induction h with
  | minted _ hevent => exact ⟨_, List.mem_singleton_self _, hevent⟩
  | moved _ _ _ _ _ ih =>
      obtain ⟨l, hl, hevent⟩ := ih
      exact ⟨l, List.mem_append_left _ hl, hevent⟩

end

/-! ## What the database adds up -/

/-- The row is a transfer of the token. -/
def isTransferRow (token : Address) (r : EventRow) : Bool :=
  r.contractAddress = token && topic r.decoded = .transfer

/-- `balances`, of one account. -/
def balanceOf (live : List Body) (token holder : Address) : Int :=
  (((deltas live).filter fun d =>
    d.token = token && d.holder = holder).map (·.amount)).sum

section
variable {live : List Body} {token a : Address}

/-- One side of a transfer, as it counts for an account of a token. -/
theorem side_sum (emitter holder : Address) (amount : Int) (origin : Origin) :
    (((if holder = 0 then [] else [⟨emitter, holder, amount, origin⟩] :
        List Delta).filter fun d =>
          d.token = token && d.holder = a).map (·.amount)).sum =
      if emitter = token ∧ holder = a ∧ holder ≠ 0 then amount else 0 := by
  by_cases hzero : holder = 0
  · rw [if_pos hzero, if_neg fun hp => hp.2.2 hzero]
    rfl
  · rw [if_neg hzero]
    by_cases htoken : emitter = token
    · by_cases hholder : holder = a
      · rw [if_pos ⟨htoken, hholder, hzero⟩]
        simp [htoken, hholder]
      · rw [if_neg fun hp => hholder hp.2.1]
        simp [hholder]
    · rw [if_neg fun hp => htoken hp.1]
      simp [htoken]

/-- What one transfer row contributes to an account of a known token. -/
theorem transferDeltas_sum {known : List Address} (hknown : token ∈ known)
    (r : EventRow) :
    (((transferDeltas known r).filter fun d =>
        d.token = token && d.holder = a).map (·.amount)).sum =
      if isTransferRow token r then credit a r.decoded else 0 := by
  rw [transferDeltas]
  split
  · next src dst value hdecoded =>
      have hrow : isTransferRow token r = decide (r.contractAddress = token) := by
        simp [isTransferRow, hdecoded, topic]
      rw [hrow, hdecoded]
      by_cases htoken : r.contractAddress = token
      · rw [if_pos (htoken ▸ hknown), List.filter_append, List.map_append,
          List.sum_append, side_sum, side_sum]
        simp only [htoken, true_and, decide_true, if_true, credit]
      · rw [decide_eq_false htoken, if_neg Bool.false_ne_true]
        split
        · rw [List.filter_append, List.map_append, List.sum_append, side_sum,
            side_sum, if_neg fun hp => htoken hp.1,
            if_neg fun hp => htoken hp.1]
          rfl
        · rfl
  · next hother =>
      have hcredit : credit a r.decoded = 0 := by
        rw [credit]
        exact hother
      rw [hcredit, ite_self]
      rfl

/-- A launch seeds no account of a token whose mint was collected. -/
theorem seedDelta_sum {events : List EventRow}
    (hminted : events.any (minted token) = true) (r : EventRow) :
    ((seedDelta events r).filter fun d =>
      d.token = token && d.holder = a) = [] := by
  rw [seedDelta]
  split
  · next seeded _ _ _ _ _ _ _ =>
      split
      · rfl
      · next hnone =>
          have hne : seeded ≠ token := by
            rintro rfl
            exact hnone hminted
          simp [hne]
  · rfl

/-- **THE PROJECTED BALANCE** of a known token with a collected mint is the sum
    of the credits of its transfer rows. -/
theorem balanceOf_eq (hknown : token ∈ (tokensOf live).map (·.tokenAddress))
    (hminted : (eventsOf live).any (minted token) = true) :
    balanceOf live token a =
      (((eventsOf live).filter (isTransferRow token)).map
        fun r => credit a r.decoded).sum := by
  have htransfers : ∀ events : List EventRow,
      (((events.flatMap (transferDeltas ((tokensOf live).map
        (·.tokenAddress)))).filter fun d =>
          d.token = token && d.holder = a).map (·.amount)).sum =
        ((events.filter (isTransferRow token)).map
          fun r => credit a r.decoded).sum := by
    intro events
    induction events with
    | nil => rfl
    | cons r events ih =>
        rw [List.flatMap_cons, List.filter_append, List.map_append,
          List.sum_append, ih, transferDeltas_sum hknown, List.filter_cons]
        split
        · rw [List.map_cons, List.sum_cons]
        · rw [zero_add]
  have hseeds : (((eventsOf live).flatMap (seedDelta (eventsOf live))).filter
      fun d => d.token = token && d.holder = a) = [] := by
    rw [List.filter_eq_nil_iff]
    intro d hd hp
    obtain ⟨r, -, hr⟩ := List.mem_flatMap.mp hd
    have hmem : d ∈ (seedDelta (eventsOf live) r).filter fun d =>
        d.token = token && d.holder = a := List.mem_filter.mpr ⟨hr, hp⟩
    rw [seedDelta_sum hminted] at hmem
    exact absurd hmem List.not_mem_nil
  rw [balanceOf, deltas, List.filter_append, hseeds, List.append_nil, htransfers]

end

/-! ## The rows of `token_holder_balances` -/

/-- **THE ROWS OF A TOKEN ARE THE POSITIVE BALANCES** of a function. -/
structure Projects (rows : List HolderRow) (token : Address)
    (f : Address → Nat) : Prop where
  row_iff : ∀ a, (∃ h ∈ rows, h.tokenAddress = token ∧ h.holderAddress = a) ↔
    0 < f a
  balance : ∀ h ∈ rows, h.tokenAddress = token → h.balance = f h.holderAddress
  unique : ((rows.filter (·.tokenAddress = token)).map
    (·.holderAddress)).Nodup

section
variable {live : List Body} {token : Address} {f : Address → Nat}

/-- A row is a pair that occurs, with its positive balance. -/
theorem mem_holders {h : HolderRow} (hh : h ∈ holders live) :
    0 < h.balance ∧
      h.balance = balanceOf live h.tokenAddress h.holderAddress := by
  rw [holders] at hh
  dsimp only at hh
  obtain ⟨hrow, hpos⟩ := List.mem_filter.mp hh
  obtain ⟨p, -, rfl⟩ := List.mem_map.mp hrow
  exact ⟨by simpa using hpos, rfl⟩

/-- An account with a positive balance has a row. -/
theorem holders_of_pos {a : Address} (hpos : 0 < balanceOf live token a) :
    ∃ h ∈ holders live, h.tokenAddress = token ∧ h.holderAddress = a := by
  have hpair : (token, a) ∈
      ((deltas live).map fun d => (d.token, d.holder)).dedup := by
    rw [List.mem_dedup]
    by_contra hnone
    have hempty : ((deltas live).filter fun d =>
        d.token = token && d.holder = a) = [] := by
      rw [List.filter_eq_nil_iff]
      intro d hd hp
      simp only [Bool.and_eq_true, decide_eq_true_eq] at hp
      exact hnone (List.mem_map.mpr ⟨d, hd, Prod.ext hp.1 hp.2⟩)
    rw [balanceOf, hempty] at hpos
    exact absurd hpos (by simp)
  refine ⟨_, List.mem_filter.mpr
    ⟨List.mem_map.mpr ⟨(token, a), hpair, rfl⟩, ?_⟩, rfl, rfl⟩
  rw [balanceOf] at hpos
  exact decide_eq_true hpos

/-- One row for each token and holder. -/
theorem holders_keys_nodup (live : List Body) :
    ((holders live).map fun h => (h.tokenAddress, h.holderAddress)).Nodup := by
  rw [holders]
  dsimp only
  refine List.Nodup.sublist (List.filter_sublist.map _) ?_
  rw [List.map_map]
  exact (List.map_id _).symm ▸ List.nodup_dedup _

theorem projects_of_balances
    (h : ∀ a, balanceOf live token a = f a) : Projects (holders live) token f := by
  refine ⟨?_, ?_, ?_⟩
  · intro a
    constructor
    · rintro ⟨row, hrow, rfl, rfl⟩
      obtain ⟨hpos, hbalance⟩ := mem_holders hrow
      rw [hbalance, h] at hpos
      exact_mod_cast hpos
    · intro hpos
      refine holders_of_pos ?_
      rw [h]
      exact_mod_cast hpos
  · rintro row hrow rfl
    rw [(mem_holders hrow).2, h]
  · have hkeys := holders_keys_nodup live
    refine List.Nodup.map_on ?_ (List.Nodup.filter _ (List.Nodup.of_map _ hkeys))
    intro x hx y hy hxy
    obtain ⟨hx, hxt⟩ := List.mem_filter.mp hx
    obtain ⟨hy, hyt⟩ := List.mem_filter.mp hy
    simp only [decide_eq_true_eq] at hxt hyt
    exact List.inj_on_of_nodup_map hkeys hx hy
      (Prod.ext (hxt.trans hyt.symm) hxy)

/-- The balances on the rows add up to the sum of the function. -/
theorem Projects.sum_balances {rows : List HolderRow}
    (h : Projects rows token f) :
    ((rows.filter (·.tokenAddress = token)).map (·.balance)).sum =
      ((∑ a, f a : Nat) : Int) := by
  have hrows : (rows.filter (·.tokenAddress = token)).map (·.balance) =
      ((rows.filter (·.tokenAddress = token)).map (·.holderAddress)).map
        fun a => (f a : Int) := by
    rw [List.map_map]
    refine List.map_congr_left ?_
    intro row hrow
    obtain ⟨hrow, htoken⟩ := List.mem_filter.mp hrow
    exact h.balance row hrow (by simpa using htoken)
  rw [hrows, ← List.sum_toFinset _ h.unique, Nat.cast_sum]
  refine Finset.sum_subset (Finset.subset_univ _) ?_
  intro a _ hout
  have hnone : ¬ 0 < f a := by
    intro hpos
    obtain ⟨row, hrow, htoken, rfl⟩ := (h.row_iff a).mpr hpos
    exact hout (List.mem_toFinset.mpr (List.mem_map.mpr
      ⟨row, List.mem_filter.mpr ⟨hrow, by simpa using htoken⟩, rfl⟩))
  simp only [Nat.not_lt, Nat.le_zero] at hnone
  rw [hnone]
  rfl

end

/-! ## What is in the database after each block -/

/-- The transfers of the token up to a block, in the order of the chain. -/
def transfers (c : Chain) (token : Address) (last : Nat) : List Log :=
  (c.logsBetween 0 last).filter (isTransfer token)

/-- **A TOKEN OF THE FACTORY**, launched where the indexer can see it. -/
structure Launched (x : Indexer) (token curve : Address) (supply : Nat)
    (launch : Log) : Prop where
  onChain : Has x.chain launch
  byFactory : launch.address = x.env.roots.factory
  event : ∃ creator curveAllocation lpAllocation payout pool,
    launch.event = .tokenLaunchedV3 creator token curve supply curveAllocation
      lpAllocation payout pool
  included : x.env.excluded token = false
  positive : 0 < launch.blockNumber
  started : x.start ≤ launch.blockNumber
  first : ∀ l, Has x.chain l → isTransfer token l = true →
    launch.blockNumber ≤ l.blockNumber

/-- What the database holds of the token after a block. -/
structure Inv (x : Indexer) (token : Address) (launch : Log) (last : Nat)
    (s : Store) : Prop where
  collected : Holds (fun r => isTransferRow token r = true) s.rows fun l =>
    Has x.chain l ∧ isTransfer token l = true ∧ l.blockNumber ≤ last
  known : launch.blockNumber ≤ last → TokenLive s.rows token launch
  derived : s.derived = rebuild x.env s.rows.live

theorem isTransferRow_eventRow (token : Address) (l : Log) :
    isTransferRow token (eventRow l) = isTransfer token l := by
  have htopic : topic (eventRow l).decoded = topic l.event := by
    show topic (normalizedEventValues l.event) = _
    cases l.event with
    | cto e => cases e <;> rfl
    | _ => rfl
  rw [isTransferRow, isTransfer]
  show (decide (l.address = token) && decide (topic _ = _)) = _
  rw [htopic]

/-- Every transfer is stored. -/
theorem stored_transfers (env : Env) (token : Address) :
    Stored env fun r => isTransferRow token r = true := by
  intro look l hkind
  rw [isTransferRow_eventRow, isTransfer, Bool.and_eq_true,
    decide_eq_true_eq, decide_eq_true_eq] at hkind
  have htopic := hkind.2
  rw [selected]
  cases hevent : l.event with
  | transfer => rfl
  | cto e =>
      rw [hevent] at htopic
      cases e <;> cases htopic
  | _ => rw [hevent] at htopic; first | done | cases htopic

/-- The next block is past the checkpoint the indexer starts from. -/
theorem cursor_of_checkpoint {x : Indexer} {s : Store} {n : Nat} {hash : Option Hash}
    (hstart : x.start ≤ n) (h : s.checkpoint = some (n, hash)) :
    (x.cursor s).last = n := by
  rw [Indexer.cursor, h, initialCheckpoint]
  dsimp only
  rw [if_neg fun hp => Nat.not_lt.mpr hstart hp.2]

/-- The indexer never stands more than a block below its start. -/
theorem start_le_cursor (x : Indexer) (s : Store) :
    x.start ≤ (x.cursor s).last + 1 := by
  simp only [Indexer.cursor, initialCheckpoint]
  split_ifs with h
  · dsimp only
    omega
  · rw [not_and_or] at h
    omega

/-- An empty database leaves the indexer just below its start. -/
theorem cursor_fresh (x : Indexer) : (x.cursor fresh).last = x.start - 1 := by
  show (if 0 < x.start ∧ 0 < x.start then (⟨x.start - 1, none⟩ : Cursor)
    else ⟨0, none⟩).last = _
  split_ifs with h
  · rfl
  · show 0 = x.start - 1
    omega

/-- The contract of a live token row is scanned. -/
theorem token_scanned {env : Env} {live : List Body} {r : TokenRow}
    (hr : .token r ∈ live) : r.tokenAddress ∈ scanContracts env live := by
  have hknown : r.tokenAddress ∈ knownContracts env live := by
    refine List.mem_append_left _ (List.mem_append_left _
      (List.mem_append_left _ (List.mem_append_right _ ?_)))
    refine List.mem_map.mpr ⟨r, ?_, rfl⟩
    rw [tokensOf, orderBy, List.mem_insertionSort]
    exact List.mem_filterMap.mpr ⟨.token r, hr, rfl⟩
  rw [scanContracts, List.mem_append]
  by_cases hconf : r.tokenAddress ∈ configured env.roots
  · exact .inl hconf
  · exact .inr (List.mem_dedup.mpr (List.mem_filter.mpr
      ⟨hknown, decide_eq_true hconf⟩))

section
variable {x : Indexer} {token curve : Address} {supply : Nat} {launch : Log}
  (hc : WellFormed x.chain) (hl : Launched x token curve supply launch)
include hc

/-- A block of the chain withdraws no row of the chain. -/
theorem replacedBy_chain {l : Log} (h : Has x.chain l) {logs : List Log} {n : Nat}
    {c : Body} (hplace : c.place = (l.blockNumber, l.blockHash)) :
    replacedBy (collectedBlock x.chain logs n) c = false := by
  obtain ⟨m, hm⟩ := h
  obtain ⟨hnumber, hhash⟩ := hc.place m l hm
  rw [replacedBy, hplace]
  show (decide (l.blockNumber = (x.chain.block n).number) &&
    decide (l.blockHash ≠ (x.chain.block n).hash)) = false
  rw [hc.number n, hnumber, hhash]
  by_cases hmn : m = n
  · subst hmn
    simp
  · simp [hmn]

include hl

/-- **ONE BLOCK**: if it carries the transfers of the blocks since the last one
    and, if the launch is among them, the launch, the database is that of the
    chain up to it. -/
theorem Inv.applyBlock {last n : Nat} {s s' : Store} {logs : List Log}
    {at_ : Cursor} (hinv : Inv x token launch last s) (hlt : last < n)
    (hlogs : ∀ l ∈ logs, Has x.chain l)
    (htransfers : ∀ l, Has x.chain l → isTransfer token l = true →
      last < l.blockNumber → l.blockNumber ≤ n → l ∈ logs ∧ l.blockNumber = n)
    (hlaunch : last < launch.blockNumber → launch.blockNumber ≤ n →
      launch ∈ logs ∧ launch.blockNumber = n)
    (h : IndexerBatch.applyBlock x.env x.chain logs at_ s n = .ok s') :
    Inv x token launch n s' ∧ s'.checkpoint = some (n, some (x.chain.block n).hash) := by
  rw [IndexerBatch.applyBlock] at h
  split at h
  · cases h
  · rw [bind_ok] at h
    obtain ⟨-, -, h⟩ := h
    cases happly : applyWithProvenance x.env s (collectedBlock x.chain logs n) with
    | error e =>
        rw [happly] at h
        cases h
    | ok s₁ =>
        rw [happly] at h
        obtain rfl := Except.ok.inj h
        have hblocklogs : ∀ l ∈ (collectedBlock x.chain logs n).logs,
            Has x.chain l := fun l hl => hlogs l (List.mem_filter.mp hl).1
        obtain ⟨t, t', ht, ht', hrows, hderived, hcheckpoint⟩ :=
          applyWithProvenance_cases happly
        refine ⟨⟨?_, ?_, hderived⟩, ?_⟩
        · have hholds := hinv.collected.applyWithProvenance hc.identified
            (stored_transfers x.env token) hblocklogs (fun l hl => hl.1) (by
              intro r hr hlive
              obtain ⟨l, hl, rfl⟩ := (hinv.collected r hr).mp hlive
              exact replacedBy_chain hc hl.1 rfl) happly
          intro r hr
          rw [hholds r hr]
          constructor
          · rintro ⟨l, ⟨hhas, hkind, hle⟩ | ⟨hmem, hkind⟩, hrow⟩
            · exact ⟨l, ⟨hhas, hkind, by omega⟩, hrow⟩
            · rw [isTransferRow_eventRow] at hkind
              obtain ⟨hmem, hnumber⟩ := List.mem_filter.mp hmem
              refine ⟨l, ⟨hlogs l hmem, hkind, ?_⟩, hrow⟩
              exact (of_decide_eq_true hnumber).le
          · rintro ⟨l, ⟨hhas, hkind, hle⟩, hrow⟩
            rcases Nat.lt_or_ge last l.blockNumber with hnew | hold
            · obtain ⟨hmem, hnumber⟩ := htransfers l hhas hkind hnew hle
              refine ⟨l, .inr ⟨List.mem_filter.mpr
                ⟨hmem, decide_eq_true hnumber⟩, ?_⟩, hrow⟩
              rw [isTransferRow_eventRow]
              exact hkind
            · exact ⟨l, .inl ⟨hhas, hkind, hold⟩, hrow⟩
        · intro hle
          obtain ⟨creator, curveAllocation, lpAllocation, payout, pool, hevent⟩ :=
            hl.event
          have hstart : TokenLive t token launch ∨
              launch ∈ (collectedBlock x.chain logs n).logs := by
            rcases Nat.lt_or_ge last launch.blockNumber with hnew | hold
            · obtain ⟨hmem, hnumber⟩ := hlaunch hnew hle
              exact .inr (List.mem_filter.mpr
                ⟨hmem, decide_eq_true hnumber⟩)
            · obtain ⟨r, hr, htoken, horigin⟩ := hinv.known hold
              refine .inl ⟨r, (live_before_logs ?_ ?_ ht).mpr hr, htoken,
                horigin⟩
              · refine replacedBy_chain hc hl.onChain ?_
                show (r.origin.blockNumber, r.origin.blockHash) = _
                rw [horigin]
                rfl
              · intro hkey
                cases hkey
          obtain ⟨r, hr, htoken, horigin⟩ := TokenLive.logs hc.identified
            hl.onChain hevent hl.included hblocklogs hstart ht'
          exact ⟨r, (hrows (.token r) rfl).mpr hr, htoken, horigin⟩
        · rw [hcheckpoint]
          show some ((x.chain.block n).number, some (x.chain.block n).hash) = _
          rw [hc.number n]

/-- **THE BLOCKS OF A RANGE**, applied up to the first that fails. -/
theorem Inv.applyBlocks {last : Nat} (toBlock : Nat) {logs : List Log}
    (hlogs : ∀ l ∈ logs, Has x.chain l)
    (htransfers : ∀ l, Has x.chain l → isTransfer token l = true →
      last < l.blockNumber → l.blockNumber ≤ toBlock → l ∈ logs)
    (hlaunch : last < launch.blockNumber → launch.blockNumber ≤ toBlock →
      launch ∈ logs) (numbers : List Nat) (at_ : Cursor) (s : Store)
    {done : Nat} (hdone : last ≤ done) (hstart : x.start ≤ done + 1)
    (hsorted : numbers.Pairwise (· < ·))
    (hnumbers : ∀ n ∈ numbers, done < n ∧ n ≤ toBlock)
    (hall : ∀ l ∈ logs, done < l.blockNumber → l.blockNumber ∈ numbers)
    (hinv : Inv x token launch done s) (hcursor : (x.cursor s).last = done) :
    Inv x token launch
      (x.cursor (IndexerBatch.applyBlocks x.env x.chain logs at_ s numbers).1).last
      (IndexerBatch.applyBlocks x.env x.chain logs at_ s numbers).1 := by
  induction numbers generalizing at_ s done with
  | nil =>
      rw [IndexerBatch.applyBlocks, hcursor]
      exact hinv
  | cons n rest ih =>
      obtain ⟨hlt, hle⟩ := hnumbers n (List.mem_cons_self ..)
      obtain ⟨hfirst, hrest⟩ := List.pairwise_cons.mp hsorted
      -- what lies between the last block and this one lies in this one
      have hhere : ∀ l ∈ logs, done < l.blockNumber → l.blockNumber ≤ n →
          l.blockNumber = n := by
        intro l hl hnew hold
        rcases List.mem_cons.mp (hall l hl hnew) with heq | hlater
        · exact heq
        · exact absurd (hfirst _ hlater) (Nat.not_lt.mpr hold)
      rw [IndexerBatch.applyBlocks]
      cases happly : IndexerBatch.applyBlock x.env x.chain logs at_ s n with
      | error e =>
          dsimp only
          rw [hcursor]
          exact hinv
      | ok s₁ =>
          obtain ⟨hinv₁, hcheckpoint⟩ := hinv.applyBlock hc hl hlt hlogs (by
            intro l hhas hkind hnew hold
            have hmem := htransfers l hhas hkind (by omega) (by omega)
            exact ⟨hmem, hhere l hmem hnew hold⟩) (by
            intro hnew hold
            have hmem := hlaunch (by omega) (by omega)
            exact ⟨hmem, hhere launch hmem hnew hold⟩) happly
          refine ih ⟨n, some (x.chain.block n).hash⟩ s₁ (by omega)
            (by omega) hrest ?_ ?_ hinv₁
            (cursor_of_checkpoint (by omega) hcheckpoint)
          · intro m hm
            exact ⟨hfirst m hm, (hnumbers m (List.mem_cons_of_mem _ hm)).2⟩
          · intro l hmem hnew
            rcases List.mem_cons.mp (hall l hmem (by omega)) with heq | hlater
            · omega
            · exact hlater

/-- **ONE BATCH STEP**, whether it ends well or not. -/
theorem Inv.batchStep {s : Store} (target : Nat)
    (hinv : Inv x token launch (x.cursor s).last s) :
    Inv x token launch (x.cursor (x.batchStep target s).1).last
      (x.batchStep target s).1 := by
  rw [Indexer.batchStep]
  dsimp only
  split
  · exact hinv
  split
  · exact hinv
  · next hpast hrange =>
      have hend : (x.cursor s).last + 1 ≤ x.rangeEnd s target :=
        Nat.le_of_not_lt hrange
      split
      · exact hinv
      · next logs hcollect =>
          split
          · exact hinv
          · have hcomplete := collect_complete hc hcollect
            have hfactory : launch.address ∈
                scanContracts x.env s.rows.live := by
              rw [scanContracts, configured, hl.byFactory]
              exact List.mem_append_left _ (List.mem_cons_self ..)
            refine hinv.applyBlocks hc hl (x.rangeEnd s target)
              (fun l hmem => (hcomplete.sound l hmem).1) ?_ ?_ _ _ s
              (Nat.le_refl _) (start_le_cursor x s)
              (blockNumbers_pairwise _ _ _) ?_ ?_ rfl
            · intro l hhas hkind hnew hold
              have hfirst := hl.first l hhas hkind
              have hkind' := hkind
              rw [isTransfer, Bool.and_eq_true, decide_eq_true_eq,
                decide_eq_true_eq] at hkind'
              rcases Nat.lt_or_ge (x.cursor s).last launch.blockNumber with
                hlater | hearlier
              · obtain ⟨creator, curveAllocation, lpAllocation, payout, pool,
                  hevent⟩ := hl.event
                have hd : launchDiscovery launch =
                    some ⟨token, curve, launch.blockNumber⟩ := by
                  rw [launchDiscovery, hevent]
                exact hcomplete.launched launch _ l
                  ⟨hl.onChain, by omega, by omega⟩ hfactory hd
                  ⟨hhas, hfirst, hold⟩ (.inl hkind')
              · obtain ⟨r, hr, htoken, -⟩ := hinv.known hearlier
                refine hcomplete.known l ⟨hhas, by omega, hold⟩ ?_
                rw [hkind'.1, ← htoken]
                exact token_scanned hr
            · intro hnew hold
              exact hcomplete.known launch ⟨hl.onChain, by omega, hold⟩ hfactory
            · intro n hn
              rcases mem_blockNumbers.mp hn with rfl | rfl | ⟨l, hmem, rfl⟩
              · exact ⟨by omega, hend⟩
              · exact ⟨by omega, Nat.le_refl _⟩
              · obtain ⟨-, hlow, hhigh⟩ := hcomplete.sound l hmem
                exact ⟨by omega, hhigh⟩
            · intro l hmem _
              exact mem_blockNumbers.mpr (.inr (.inr ⟨l, hmem, rfl⟩))

/-- **EVERY RUN OF BATCH STEPS**, from an empty database. -/
theorem inv_run (targets : List Nat) :
    Inv x token launch (x.cursor (x.run targets fresh)).last
      (x.run targets fresh) := by
  have hempty : Inv x token launch (x.cursor fresh).last fresh := by
    have hbelow : (x.cursor fresh).last < launch.blockNumber := by
      have hpos := hl.positive
      have hstart := hl.started
      rw [cursor_fresh]
      omega
    refine ⟨?_, fun hle => absurd hle (Nat.not_le.mpr hbelow), rfl⟩
    intro r _
    refine iff_of_false List.not_mem_nil ?_
    rintro ⟨l, ⟨hhas, hkind, hle⟩, -⟩
    exact absurd (hl.first l hhas hkind) (by omega)
  have hrun : ∀ (targets : List Nat) (s : Store),
      Inv x token launch (x.cursor s).last s →
      Inv x token launch (x.cursor (x.run targets s)).last (x.run targets s) := by
    intro targets
    induction targets with
    | nil => exact fun s hs => hs
    | cons target targets ih =>
        intro s hs
        exact ih _ (hs.batchStep hc hl target)
  exact hrun targets fresh hempty

omit hl in
/-- The collected transfer rows are the transfers of the chain. -/
theorem collected_perm {last : Nat} {s : Store}
    (hinv : Inv x token launch last s) :
    ((eventsOf s.rows.live).filter (isTransferRow token)).Perm
      ((transfers x.chain token last).map eventRow) := by
  have hevents : ∀ r, r ∈ eventsOf s.rows.live ↔ .event r ∈ s.rows.live := by
    intro r
    rw [eventsOf, orderBy, List.mem_insertionSort, List.mem_filterMap]
    constructor
    · rintro ⟨b, hb, heq⟩
      split at heq
      · obtain rfl := Option.some.inj heq
        exact hb
      · cases heq
    · intro hr
      exact ⟨_, hr, rfl⟩
  have hnodup : (eventsOf s.rows.live).Nodup := by
    rw [eventsOf, orderBy, (List.perm_insertionSort _ _).nodup_iff]
    refine List.Nodup.filterMap ?_ (Table.live_nodup s.rows)
    intro a b r ha hb
    simp only [Option.mem_def] at ha hb
    split at ha
    · split at hb
      · cases ha
        cases hb
        rfl
      · cases hb
    · cases ha
  have hmem : ∀ l, l ∈ transfers x.chain token last ↔
      (Has x.chain l ∧ isTransfer token l = true ∧ l.blockNumber ≤ last) := by
    intro l
    rw [transfers, List.mem_filter, mem_logsBetween hc]
    constructor
    · rintro ⟨⟨hhas, -, hle⟩, hkind⟩
      exact ⟨hhas, hkind, hle⟩
    · rintro ⟨hhas, hkind, hle⟩
      exact ⟨⟨hhas, Nat.zero_le _, hle⟩, hkind⟩
  have hrows : ((transfers x.chain token last).map eventRow).Nodup := by
    refine List.Nodup.map_on ?_ ((logsBetween_nodup hc _ _).filter _)
    intro a ha b hb hab
    refine hc.identified a b ((hmem a).mp ha).1 ((hmem b).mp hb).1 ?_
    have horigin := congrArg EventRow.origin hab
    exact Prod.ext (congrArg Origin.transactionHash horigin)
      (congrArg Origin.logIndex horigin)
  refine (List.perm_ext_iff_of_nodup (hnodup.filter _) hrows).mpr ?_
  intro r
  rw [List.mem_filter, hevents, List.mem_map]
  constructor
  · rintro ⟨hlive, hkind⟩
    obtain ⟨l, hl, rfl⟩ := (hinv.collected r hkind).mp hlive
    exact ⟨l, (hmem l).mpr hl, rfl⟩
  · rintro ⟨l, hl, rfl⟩
    have hl' := (hmem l).mp hl
    have hkind : isTransferRow token (eventRow l) = true := by
      rw [isTransferRow_eventRow]
      exact hl'.2.1
    exact ⟨(hinv.collected _ hkind).mpr ⟨l, hl', rfl⟩, hkind⟩

/-- The projected balances of a launched token are the contract's. -/
theorem balanceOf_run {targets : List Nat} {f : Address → Nat}
    (happlied : launch.blockNumber ≤ (x.cursor (x.run targets fresh)).last)
    (hf : Holding curve supply
      (transfers x.chain token (x.cursor (x.run targets fresh)).last) f)
    (a : Address) :
    balanceOf (x.run targets fresh).rows.live token a = f a := by
  have hinv := inv_run hc hl targets
  have hperm := collected_perm hc hinv
  have hknown : token ∈
      (tokensOf (x.run targets fresh).rows.live).map (·.tokenAddress) := by
    obtain ⟨r, hr, htoken, -⟩ := hinv.known happlied
    refine List.mem_map.mpr ⟨r, ?_, htoken⟩
    rw [tokensOf, orderBy, List.mem_insertionSort]
    exact List.mem_filterMap.mpr ⟨.token r, hr, rfl⟩
  have hminted : (eventsOf (x.run targets fresh).rows.live).any
      (minted token) = true := by
    obtain ⟨l, hmem, hevent⟩ := hf.mint_mem
    have hrow := hperm.mem_iff.mpr (List.mem_map.mpr ⟨l, hmem, rfl⟩)
    obtain ⟨hrow, hkind⟩ := List.mem_filter.mp hrow
    refine List.any_eq_true.mpr ⟨_, hrow, ?_⟩
    rw [isTransferRow, Bool.and_eq_true] at hkind
    have hdecoded : (eventRow l).decoded = .transfer 0 curve supply := by
      show normalizedEventValues l.event = _
      rw [hevent]
      rfl
    rw [minted, hdecoded]
    simpa using hkind.1
  rw [balanceOf_eq hknown hminted,
    ((hperm.map fun r => credit a r.decoded)).sum_eq, List.map_map,
    ← hf.sum_credit a]
  refine congrArg List.sum (List.map_congr_left ?_)
  intro l hmem
  show credit a (normalizedEventValues l.event) = _
  have hkind := (List.mem_filter.mp hmem).2
  rw [isTransfer, Bool.and_eq_true, decide_eq_true_eq, decide_eq_true_eq] at hkind
  have htopic := hkind.2
  cases hevent : l.event with
  | transfer => rfl
  | cto e =>
      rw [hevent] at htopic
      cases e <;> cases htopic
  | _ => rw [hevent] at htopic; first | done | cases htopic

end

/-- **THE HOLDERS ARE THE BALANCES**.  Take a chain, a token its factory
    launched, and any sequence of batch steps from an empty database, of any
    size, failing or not.  Once the block of the launch is applied, the
    projected holders are exactly the accounts the token contract holds a
    positive balance for after the last applied block, each with its balance,
    and the balances add up to the supply. -/
theorem holders_are_balances (x : Indexer) (token curve : Address)
    (supply : Nat) (launch : Log) (targets : List Nat) (f : Address → Nat)
    (hc : WellFormed x.chain) (hl : Launched x token curve supply launch)
    (happlied : launch.blockNumber ≤ (x.cursor (x.run targets fresh)).last)
    (hf : Holding curve supply
      (transfers x.chain token (x.cursor (x.run targets fresh)).last) f) :
    Projects (x.run targets fresh).derived.holders token f ∧
      ∑ a, f a = supply ∧
      ((((x.run targets fresh).derived.holders.filter
        (·.tokenAddress = token)).map (·.balance)).sum = supply) := by
  have hderived := (inv_run hc hl targets).derived
  have hprojects : Projects (x.run targets fresh).derived.holders token f := by
    rw [hderived]
    exact projects_of_balances (balanceOf_run hc hl happlied hf)
  refine ⟨hprojects, hf.sum_supply, ?_⟩
  rw [hprojects.sum_balances, hf.sum_supply]

/-! ## A launch and its first trades in one block -/

/-- A log of block 1. -/
def inFirstBlock (address : Address) (index : Nat) (event : Event) : Log :=
  ⟨address, event, 1, 11, 70 + index, index, index⟩

/-- Token 100 is launched on curve 200: the mint comes first, then the launch,
    a purchase by account 7, and a transfer of nothing to itself. -/
def firstLogs : List Log :=
  [inFirstBlock 100 0 (.transfer 0 200 1000),
    inFirstBlock 1 1 (.tokenLaunchedV3 9 100 200 1000 800 200 9 300),
    inFirstBlock 100 2 (.transfer 200 7 300),
    inFirstBlock 100 3 (.transfer 7 7 0)]

def firstLaunch : Log :=
  inFirstBlock 1 1 (.tokenLaunchedV3 9 100 200 1000 800 200 9 300)

def smallChain : Chain where
  block n :=
    { number := n
      hash := 10 + n
      parentHash := 9 + n
      time := n
      logs := if n = 1 then firstLogs else []
      metadata := fun _ => some ⟨[65], [65], 18⟩
      senders := fun _ => none }
  canonicalTreasury _ _ _ _ _ := true

def smallIndexer : Indexer where
  env := ⟨fun _ => false, ⟨1, 2, 3⟩, fun _ => false, fun a b => a / b⟩
  order := KeyedMerge.RankSort.stable _
  limit := discoveryLimit
  chain := smallChain
  start := 1
  batchSize := 500
  positive := by decide

theorem has_smallChain {l : Log} : Has smallChain l ↔ l ∈ firstLogs := by
  constructor
  · rintro ⟨n, hn⟩
    have hn' : l ∈ if n = 1 then firstLogs else [] := hn
    split at hn'
    · exact hn'
    · exact absurd hn' List.not_mem_nil
  · intro hl
    exact ⟨1, hl⟩

theorem smallChain_wellFormed : WellFormed smallChain where
  number _ := rfl
  nodup n := by
    show (if n = 1 then firstLogs else []).Nodup
    split
    · decide
    · exact List.nodup_nil
  place n l hl := by
    have hl' : l ∈ if n = 1 then firstLogs else [] := hl
    split at hl'
    · next hn =>
        subst hn
        have hall : ∀ l ∈ firstLogs, l.blockNumber = 1 ∧ l.blockHash = 11 := by
          decide
        exact hall l hl'
    · exact absurd hl' List.not_mem_nil
  identified a b ha hb := by
    have hall : ∀ a ∈ firstLogs, ∀ b ∈ firstLogs,
        a.identity = b.identity → a = b := by
      decide
    exact hall a (has_smallChain.mp ha) b (has_smallChain.mp hb)
  positioned a b ha hb := by
    have hall : ∀ a ∈ firstLogs, ∀ b ∈ firstLogs,
        a.position = b.position → a = b := by
      decide
    exact hall a (has_smallChain.mp ha) b (has_smallChain.mp hb)

theorem firstLaunch_launched : Launched smallIndexer 100 200 1000 firstLaunch where
  onChain := has_smallChain.mpr (by decide)
  byFactory := rfl
  event := ⟨9, 800, 200, 9, 300, rfl⟩
  included := rfl
  positive := by decide
  started := by decide
  first l hhas _ := by
    have hall : ∀ l ∈ firstLogs, firstLaunch.blockNumber ≤ l.blockNumber := by
      decide
    exact hall l (has_smallChain.mp hhas)

/-- The curve keeps 700, and account 7 holds 300. -/
def firstBalances : Address → Nat :=
  move (move (Function.update (fun _ => 0) 200 1000) 200 7 300) 7 7 0

/-- **THE FIRST BLOCK** through the indexer. -/
theorem holders_are_balances_small :
    Projects (smallIndexer.run [1] fresh).derived.holders 100 firstBalances ∧
      ∑ a, firstBalances a = 1000 ∧
      ((((smallIndexer.run [1] fresh).derived.holders.filter
        (·.tokenAddress = 100)).map (·.balance)).sum = 1000) := by
  have hlast : (smallIndexer.cursor (smallIndexer.run [1] fresh)).last = 1 := by
    decide +kernel
  have htransfers : transfers smallIndexer.chain 100 1 =
      ([inFirstBlock 100 0 (.transfer 0 200 1000)] ++
        [inFirstBlock 100 2 (.transfer 200 7 300)]) ++
        [inFirstBlock 100 3 (.transfer 7 7 0)] := by
    decide +kernel
  refine holders_are_balances smallIndexer 100 200 1000 firstLaunch [1]
    firstBalances smallChain_wellFormed firstLaunch_launched ?_ ?_
  · rw [hlast]
    exact Nat.le_refl 1
  · rw [hlast, htransfers]
    refine .moved (.moved (.minted (by decide) rfl) rfl (by decide) (by decide)
      ?_) rfl (by decide) (by decide) (Nat.zero_le _)
    rw [Function.update_self]
    decide

end HolderLedger
