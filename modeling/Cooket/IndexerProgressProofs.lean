import Cooket.IndexerBatchProofs

/-! # When the indexer gets past a range

    The discoveries of a batch step are bounded, and the bound is checked
    before anything is applied.  So a range that shows more launches or
    graduations than the bound is refused AS A WHOLE, the checkpoint stays, and
    the next attempt meets the same range again.

    A range is VALID when the step accepts it under some bound: the bound is
    the only thing held against it.  A valid range within the bound is passed
    (`batchStep_within`), one beyond it leaves the database as it was
    (`batchStep_beyond`); and a run whose ranges are all valid and within the
    bound passes every height (`bounded_progress`).  One block with
    thirty-three launches is never passed. -/

namespace IndexerProgress

open CheckedArith Contract IndexerEvents IndexerStore IndexerBatch LogScan
open Keyset

/-! ## What a range shows -/

/-- The tokens launched by some logs. -/
def launchedTokens (logs : List Log) : List Address :=
  ((logs.filterMap launchDiscovery).map (·.token)).dedup

/-- The logs of the range after the launches were followed. -/
def Followed (k : Collector) (live : List Body) (fromBlock toBlock : Nat)
    (logs followed : List Log) : Prop :=
  k.scanned live fromBlock toBlock = .ok logs ∧
    ∃ m, discoverLaunchLogs m k.chain toBlock logs = .ok followed

/-- **THE RANGE IS WITHIN THE BOUND**: it shows no more launched tokens and no
    more graduations than the limit. -/
structure Within (k : Collector) (live : List Body) (fromBlock toBlock : Nat) :
    Prop where
  launches : ∀ logs, k.scanned live fromBlock toBlock = .ok logs →
    (launchedTokens logs).length ≤ k.limit
  graduations : ∀ logs followed,
    Followed k live fromBlock toBlock logs followed →
    (followed.filterMap graduationOf).length ≤ k.limit

/-- The two refusals of the bound. -/
def IsBound (e : BatchError) : Prop :=
  (∃ n, e = .tooManyLaunches n) ∨ ∃ n, e = .tooManyGraduations n

/-! ## Counting launches -/

/-- The map `seen` has as many entries as tokens were launched. -/
theorem seenLaunches_length {seen : List LaunchDiscovery} {logs : List Log}
    (h : seenLaunches [] logs = .ok seen) :
    seen.length = (launchedTokens logs).length := by
  obtain ⟨hnodup, hall⟩ := @seenLaunches_spec [] _ _ List.nodup_nil h
  have hperm : (seen.map (·.token)).Perm (launchedTokens logs) := by
    refine (List.perm_ext_iff_of_nodup hnodup (List.nodup_dedup _)).mpr ?_
    intro t
    show _ ↔ t ∈ List.dedup _
    rw [List.mem_dedup, List.mem_map, List.mem_map]
    simp only [hall, List.not_mem_nil, false_or]
  rw [← hperm.length_eq, List.length_map]

/-! ## The bound, discovery by discovery -/

section
variable {m n toBlock : Nat} {c : Chain} {logs out : List Log}

/-- Launches accepted under one bound are accepted under another if they are
    not too many for it, and then with the same result. -/
theorem discoverLaunchLogs_limit
    (h : discoverLaunchLogs m c toBlock logs = .ok out) :
    discoverLaunchLogs n c toBlock logs =
      if (launchedTokens logs).length ≤ n then .ok out
      else .error (.tooManyLaunches (launchedTokens logs).length) := by
  rw [discoverLaunchLogs, bind_ok] at h
  obtain ⟨seen, hseen, h⟩ := h
  rw [discoverLaunchLogs, hseen]
  rw [seenLaunches_length hseen] at h
  show (if n < seen.length then _ else _) = _
  rw [seenLaunches_length hseen]
  by_cases hm : n < (launchedTokens logs).length
  · rw [if_pos hm, if_neg (Nat.not_le.mpr hm)]
  · rw [if_neg hm, if_pos (Nat.le_of_not_lt hm)]
    split at h
    · cases h
    · exact h

theorem discoverGraduationSettlements_limit {order : ChainSort Log}
    (h : discoverGraduationSettlements order m c logs = .ok out) :
    discoverGraduationSettlements order n c logs =
      if (logs.filterMap graduationOf).length ≤ n then .ok out
      else .error (.tooManyGraduations (logs.filterMap graduationOf).length) := by
  have hqueries : (((logs.filterMap graduationOf).map
      fun g => (g.block, g.manager)).dedup).length ≤
        (logs.filterMap graduationOf).length := by
    refine (List.dedup_sublist _).length_le.trans ?_
    rw [List.length_map]
  rw [discoverGraduationSettlements, bind_ok] at h
  obtain ⟨u, hchecks, h⟩ := h
  rw [discoverGraduationSettlements, hchecks]
  show (if _ then _ else _) = _
  by_cases hm : (logs.filterMap graduationOf).length ≤ n
  · rw [if_pos hm, if_neg (by omega)]
    dsimp only at h
    split at h
    · cases h
    · exact h
  · rw [if_neg hm, if_pos (.inl (Nat.lt_of_not_le hm))]

end

/-! ## The bound, over a whole range -/

section
variable {k : Collector} {live : List Body} {m fromBlock toBlock : Nat}
  {out : List Log}

/-- Within the bound, a collection gives what it gives under any other. -/
theorem collect_within
    (h : ({ k with limit := m } : Collector).collect live fromBlock toBlock =
      .ok out) (hwithin : Within k live fromBlock toBlock) :
    k.collect live fromBlock toBlock = .ok out := by
  obtain ⟨logs, followed, settled, treasuries, h₁, h₂, h₃, h₄, h₅⟩ :=
    Collector.collect_ok_iff.mp h
  refine Collector.collect_ok_iff.mpr
    ⟨logs, followed, settled, treasuries, h₁, ?_, ?_, h₄, h₅⟩
  · rw [discoverLaunchLogs_limit h₂, if_pos (hwithin.launches logs h₁)]
  · rw [discoverGraduationSettlements_limit h₃,
      if_pos (hwithin.graduations logs followed ⟨h₁, m, h₂⟩)]

/-- Beyond the bound, a collection fails by the bound. -/
theorem collect_beyond
    (h : ({ k with limit := m } : Collector).collect live fromBlock toBlock =
      .ok out) (hbeyond : ¬ Within k live fromBlock toBlock) :
    ∃ e, k.collect live fromBlock toBlock = .error e ∧ IsBound e := by
  obtain ⟨logs, followed, settled, treasuries, h₁, h₂, h₃, h₄, h₅⟩ :=
    Collector.collect_ok_iff.mp h
  have hscan : k.scanned live fromBlock toBlock = .ok logs := h₁
  have hlaunch := discoverLaunchLogs_limit (n := k.limit) h₂
  have hgraduation := discoverGraduationSettlements_limit (n := k.limit) h₃
  by_cases hl : (launchedTokens logs).length ≤ k.limit
  · rw [if_pos hl] at hlaunch
    by_cases hg : (followed.filterMap graduationOf).length ≤ k.limit
    · refine absurd ⟨?_, ?_⟩ hbeyond
      · intro logs' h'
        rw [hscan] at h'
        obtain rfl := Except.ok.inj h'
        exact hl
      · rintro logs' followed' ⟨h', m', h''⟩
        rw [hscan] at h'
        obtain rfl := Except.ok.inj h'
        rw [discoverLaunchLogs_limit hlaunch] at h''
        split at h''
        · obtain rfl := Except.ok.inj h''
          exact hg
        · cases h''
    · rw [if_neg hg] at hgraduation
      refine ⟨.tooManyGraduations (followed.filterMap graduationOf).length, ?_,
        .inr ⟨_, rfl⟩⟩
      simp only [Collector.collect, hscan, hlaunch, hgraduation, bind,
        Except.bind]
  · rw [if_neg hl] at hlaunch
    refine ⟨.tooManyLaunches (launchedTokens logs).length, ?_, .inl ⟨_, rfl⟩⟩
    simp only [Collector.collect, hscan, hlaunch, bind, Except.bind]

end

/-! ## One batch step -/

section
variable {x : Indexer} {s s' : Store} {target : Nat}

/-- The range the step works on is valid: some bound lets it pass. -/
def Valid (x : Indexer) (s : Store) (target : Nat) : Prop :=
  ∃ m, (({ x with limit := m } : Indexer).batchStep target s).2 = none

/-- The range the step works on is within the bound. -/
def WithinAt (x : Indexer) (s : Store) (target : Nat) : Prop :=
  Within x.toCollector s.rows.live ((x.cursor s).last + 1) (x.rangeEnd s target)

/-- A step that ends well has collected its range. -/
theorem collect_of_batchStep (hlt : (x.cursor s).last < target)
    (h : (x.batchStep target s).2 = none) :
    ¬ x.rangeEnd s target < (x.cursor s).last + 1 ∧
      ∃ logs, x.collect s.rows.live ((x.cursor s).last + 1)
          (x.rangeEnd s target) = .ok logs ∧
        logs.forM (swapSender x.chain) = .ok () ∧
        x.batchStep target s = applyBlocks x.env x.chain logs (x.cursor s) s
          (blockNumbers ((x.cursor s).last + 1) (x.rangeEnd s target) logs) := by
  rw [Indexer.batchStep, if_neg (Nat.not_le.mpr hlt)] at h ⊢
  dsimp only at h ⊢
  by_cases hrange : x.rangeEnd s target < (x.cursor s).last + 1
  · rw [if_pos hrange] at h
    cases h
  rw [if_neg hrange] at h ⊢
  refine ⟨hrange, ?_⟩
  cases hcollect : x.collect s.rows.live ((x.cursor s).last + 1)
      (x.rangeEnd s target) with
  | error e =>
      rw [hcollect] at h
      cases h
  | ok logs =>
      rw [hcollect] at h
      dsimp only at h ⊢
      cases hsender : logs.forM (swapSender x.chain) with
      | error e =>
          rw [hsender] at h
          cases h
      | ok u => exact ⟨logs, rfl, hsender, rfl⟩

/-- **A VALID RANGE WITHIN THE BOUND IS PASSED**. -/
theorem batchStep_within (hlt : (x.cursor s).last < target)
    (hvalid : Valid x s target) (hwithin : WithinAt x s target) :
    (x.batchStep target s).2 = none := by
  obtain ⟨m, hm⟩ := hvalid
  obtain ⟨hrange, logs, hcollect, hsender, hstep⟩ :=
    collect_of_batchStep (x := { x with limit := m }) hlt hm
  have hsame : x.collect s.rows.live ((x.cursor s).last + 1)
      (x.rangeEnd s target) = .ok logs :=
    collect_within (k := x.toCollector) (m := m) hcollect hwithin
  have hrange' : ¬ x.rangeEnd s target < (x.cursor s).last + 1 := hrange
  rw [hstep] at hm
  rw [Indexer.batchStep, if_neg (Nat.not_le.mpr hlt)]
  dsimp only
  rw [if_neg hrange', hsame]
  dsimp only
  rw [show logs.forM (swapSender x.chain) = .ok () from hsender]
  exact hm

/-- **A VALID RANGE BEYOND THE BOUND CHANGES NOTHING**. -/
theorem batchStep_beyond (hlt : (x.cursor s).last < target)
    (hvalid : Valid x s target) (hbeyond : ¬ WithinAt x s target) :
    ∃ e, x.batchStep target s = (s, some e) ∧ IsBound e := by
  obtain ⟨m, hm⟩ := hvalid
  obtain ⟨hrange, logs, hcollect, -, -⟩ :=
    collect_of_batchStep (x := { x with limit := m }) hlt hm
  have hrange' : ¬ x.rangeEnd s target < (x.cursor s).last + 1 := hrange
  obtain ⟨e, he, hbound⟩ : ∃ e, x.collect s.rows.live
      ((x.cursor s).last + 1) (x.rangeEnd s target) = .error e ∧ IsBound e :=
    collect_beyond (k := x.toCollector) (m := m) hcollect hbeyond
  refine ⟨e, ?_, hbound⟩
  rw [Indexer.batchStep, if_neg (Nat.not_le.mpr hlt)]
  dsimp only
  rw [if_neg hrange', he]

/-- **AN INVERTED RANGE CHANGES NOTHING**. -/
theorem batchStep_inverted (hlt : (x.cursor s).last < target)
    (hinverted : x.rangeEnd s target < (x.cursor s).last + 1) :
    x.batchStep target s = (s, some .invalidRange) := by
  rw [Indexer.batchStep, if_neg (Nat.not_le.mpr hlt)]
  dsimp only
  rw [if_pos hinverted]

/-- Applying a block moves the checkpoint to it. -/
theorem applyWithProvenance_checkpoint {env : Env} {b : Block}
    (h : applyWithProvenance env s b = .ok s') :
    s'.checkpoint = some (b.number, some b.hash) := by
  simp only [applyWithProvenance, finish, bind_ok] at h
  obtain ⟨_, -, _, -, t, -, t', -, t'', -, h⟩ := h
  split at h
  · obtain rfl := Except.ok.inj h
    rfl
  · cases h

theorem applyBlock_checkpoint {env : Env} {c : Chain} {logs : List Log}
    {at_ : Cursor} {n : Nat} (h : applyBlock env c logs at_ s n = .ok s') :
    s'.checkpoint = some ((c.block n).number, some (c.block n).hash) := by
  rw [applyBlock] at h
  split at h
  · cases h
  · rw [bind_ok] at h
    obtain ⟨-, -, h⟩ := h
    cases happly : applyWithProvenance env s (collectedBlock c logs n) with
    | error e =>
        rw [happly] at h
        cases h
    | ok s₁ =>
        rw [happly] at h
        obtain rfl := Except.ok.inj h
        exact applyWithProvenance_checkpoint (b := collectedBlock c logs n) happly

/-- Applying blocks to the end leaves the checkpoint at the last of them. -/
theorem applyBlocks_checkpoint {env : Env} {c : Chain} {logs : List Log}
    {at_ : Cursor} {numbers : List Nat} {n : Nat}
    (hnumber : ∀ n, (c.block n).number = n)
    (h : applyBlocks env c logs at_ s numbers = (s', none))
    (hlast : numbers.getLast? = some n) :
    s'.checkpoint = some (n, some (c.block n).hash) := by
  induction numbers generalizing at_ s with
  | nil => cases hlast
  | cons m rest ih =>
      rw [applyBlocks] at h
      cases happly : applyBlock env c logs at_ s m with
      | error e =>
          rw [happly] at h
          cases h
      | ok s₁ =>
          rw [happly] at h
          dsimp only at h
          cases rest with
          | nil =>
              obtain rfl := Option.some.inj hlast
              obtain rfl := (Prod.mk.inj h).1
              rw [applyBlock_checkpoint happly, hnumber m]
              rfl
          | cons m' rest =>
              rw [List.getLast?_cons_cons] at hlast
              exact ih h hlast

/-- The blocks of a range end no earlier than the range. -/
theorem blockNumbers_last (fromBlock toBlock : Nat) (logs : List Log) :
    ∃ n, (blockNumbers fromBlock toBlock logs).getLast? = some n ∧
      toBlock ≤ n := by
  have hmem : toBlock ∈ blockNumbers fromBlock toBlock logs :=
    mem_blockNumbers.mpr (.inr (.inl rfl))
  have hne : blockNumbers fromBlock toBlock logs ≠ [] :=
    List.ne_nil_of_mem hmem
  refine ⟨_, List.getLast?_eq_getLast_of_ne_nil hne, ?_⟩
  have hsorted : (blockNumbers fromBlock toBlock logs).Pairwise (· ≤ ·) :=
    (blockNumbers_pairwise _ _ _).imp le_of_lt
  exact List.Pairwise.rel_getLast hsorted hmem

/-- **A STEP THAT ENDS WELL MOVES THE CHECKPOINT**. -/
theorem batchStep_advances (hnumber : ∀ n, (x.chain.block n).number = n)
    (hlt : (x.cursor s).last < target)
    (h : (x.batchStep target s).2 = none) :
    (x.cursor s).last < (x.cursor (x.batchStep target s).1).last := by
  obtain ⟨hrange, logs, -, -, hstep⟩ := collect_of_batchStep hlt h
  obtain ⟨n, hn, hle⟩ :=
    blockNumbers_last ((x.cursor s).last + 1) (x.rangeEnd s target) logs
  rw [hstep] at h ⊢
  have hcheckpoint := applyBlocks_checkpoint hnumber (Prod.ext rfl h) hn
  have hlast : n ≤ (x.cursor (applyBlocks x.env x.chain logs (x.cursor s) s
      (blockNumbers ((x.cursor s).last + 1) (x.rangeEnd s target) logs)).1).last := by
    rw [Indexer.cursor, hcheckpoint, initialCheckpoint]
    dsimp only
    split
    · dsimp only
      omega
    · exact Nat.le_refl n
  omega

end

/-! ## Runs -/

/-- The database after `n` steps, with one target each. -/
def after (x : Indexer) (targets : Nat → Nat) (s : Store) (n : Nat) : Store :=
  x.run ((List.range n).map targets) s

theorem after_succ (x : Indexer) (targets : Nat → Nat) (s : Store) (n : Nat) :
    after x targets s (n + 1) =
      (x.batchStep (targets n) (after x targets s n)).1 := by
  rw [after, after, List.range_succ, List.map_append, Indexer.run,
    List.foldl_append]
  rfl

/-- **PROGRESS OF BOUNDED DISCOVERY**.  From any database, with targets at or
    above a height: while the height is not reached, a valid range within the
    bound is passed and one beyond it leaves the database as it was; a range is
    inverted only where its end wraps, and leaves the database as it was; and
    if every range met is valid and within the bound, the height is reached. -/
theorem bounded_progress (x : Indexer) (targets : Nat → Nat) (s : Store)
    (height : Nat) :
    (∀ n, (x.cursor (after x targets s n)).last < targets n →
      Valid x (after x targets s n) (targets n) →
      ((x.batchStep (targets n) (after x targets s n)).2 = none ↔
        WithinAt x (after x targets s n) (targets n)) ∧
      (¬ WithinAt x (after x targets s n) (targets n) →
        after x targets s (n + 1) = after x targets s n)) ∧
    (∀ n, (x.cursor (after x targets s n)).last < targets n →
      x.rangeEnd (after x targets s n) (targets n) <
        (x.cursor (after x targets s n)).last + 1 →
      2 ^ 64 ≤ (x.cursor (after x targets s n)).last + x.batchSize ∧
        after x targets s (n + 1) = after x targets s n) ∧
    ((∀ n, (x.chain.block n).number = n) → (∀ n, height ≤ targets n) →
      (∀ n, (x.cursor (after x targets s n)).last < height →
        Valid x (after x targets s n) (targets n) ∧
          WithinAt x (after x targets s n) (targets n)) →
      ∃ n, height ≤ (x.cursor (after x targets s n)).last) := by
  refine ⟨?_, ?_, ?_⟩
  · intro n hlt hvalid
    refine ⟨⟨?_, batchStep_within hlt hvalid⟩, ?_⟩
    · intro hok
      by_contra hbeyond
      obtain ⟨e, he, -⟩ := batchStep_beyond hlt hvalid hbeyond
      rw [he] at hok
      cases hok
    · intro hbeyond
      obtain ⟨e, he, -⟩ := batchStep_beyond hlt hvalid hbeyond
      rw [after_succ, he]
  · intro n hlt hinverted
    refine ⟨?_, ?_⟩
    · by_contra hfits
      have hstart := Indexer.start_le_rangeEnd hlt (Nat.lt_of_not_le hfits)
      omega
    · rw [after_succ, batchStep_inverted hlt hinverted]
  · intro hnumber htargets hranges
    -- as long as the height is not reached, every step gains a block
    have hgain : ∀ n, (∃ i ≤ n, height ≤ (x.cursor (after x targets s i)).last) ∨
        n ≤ (x.cursor (after x targets s n)).last := by
      intro n
      induction n with
      | zero => exact .inr (Nat.zero_le _)
      | succ n ih =>
          rcases ih with ⟨i, hi, hreached⟩ | hn
          · exact .inl ⟨i, Nat.le_succ_of_le hi, hreached⟩
          · rcases Nat.lt_or_ge (x.cursor (after x targets s n)).last height with
              hbelow | hreached
            · have hlt := Nat.lt_of_lt_of_le hbelow (htargets n)
              obtain ⟨hvalid, hwithin⟩ := hranges n hbelow
              have hadv := batchStep_advances hnumber hlt
                (batchStep_within hlt hvalid hwithin)
              rw [← after_succ] at hadv
              exact .inr (by omega)
            · exact .inl ⟨n, Nat.le_succ n, hreached⟩
    rcases hgain height with ⟨i, -, hi⟩ | hlast
    · exact ⟨i, hi⟩
    · exact ⟨height, hlast⟩

/-! ## A block with many launches -/

/-- The launch of token `100 + i` on curve `200 + i`, by the factory. -/
def crowdedLaunch (i : Nat) : Log where
  address := 1
  event := .tokenLaunchedV3 9 (Fin.ofNat _ (100 + i)) (Fin.ofNat _ (200 + i))
    1000 800 200 9 (Fin.ofNat _ (300 + i))
  blockNumber := 1
  blockHash := 11
  txHash := 1000 + i
  txIndex := i
  index := i

/-- A chain whose first block holds so many launches. -/
def crowdedChain (count : Nat) : Chain where
  block n :=
    { number := n
      hash := 10 + n
      parentHash := 9 + n
      time := n
      logs := if n = 1 then (List.range count).map crowdedLaunch else []
      metadata := fun _ => some ⟨[65], [65], 18⟩
      senders := fun _ => none }
  canonicalTreasury _ _ _ _ _ := true

/-- The indexer of the source, one block at a time. -/
def blockwise (count : Nat) : Indexer where
  env := ⟨fun _ => false, ⟨1, 2, 3⟩, fun _ => false, fun a b => a / b⟩
  order := KeyedMerge.RankSort.stable _
  limit := discoveryLimit
  chain := crowdedChain count
  start := 1
  batchSize := 1
  positive := Nat.one_pos

/-- The range of the first block, whatever the target. -/
theorem blockwise_rangeEnd (count : Nat) {target : Nat} (hpos : 0 < target) :
    (blockwise count).rangeEnd fresh target = 1 := by
  show min ((0 + 1) % 2 ^ 64) target = 1
  omega

/-- What the first scan finds. -/
theorem blockwise_two_scanned :
    (blockwise 2).scanned fresh.rows.live 1 1 =
      .ok ((List.range 2).map crowdedLaunch) := by
  decide +kernel

/-- Two launches are within the bound. -/
theorem blockwise_two_within : WithinAt (blockwise 2) fresh 1 where
  launches := by
    intro logs hscanned
    obtain rfl := Except.ok.inj (blockwise_two_scanned.symm.trans hscanned)
    decide +kernel
  graduations := by
    rintro logs followed ⟨hscanned, m, hfollowed⟩
    obtain rfl := Except.ok.inj (blockwise_two_scanned.symm.trans hscanned)
    have hnone : discoverLaunchLogs 2 (crowdedChain 2) 1
        ((List.range 2).map crowdedLaunch) =
          .ok ((List.range 2).map crowdedLaunch) := by
      decide +kernel
    have hout := discoverLaunchLogs_limit (n := m) hnone
    rw [show discoverLaunchLogs m (crowdedChain 2) 1 _ = .ok followed from
      hfollowed] at hout
    split at hout
    · obtain rfl := Except.ok.inj hout
      decide +kernel
    · cases hout

/-- The block with two launches is passed, by the first step. -/
theorem bounded_progress_two :
    ((blockwise 2).batchStep 1 fresh).2 = none ∧
      ∃ n, 1 ≤ ((blockwise 2).cursor
        (after (blockwise 2) (fun _ => 1) fresh n)).last := by
  have hprogress := bounded_progress (blockwise 2) (fun _ => 1) fresh 1
  have hvalid : Valid (blockwise 2) fresh 1 := ⟨2, by decide +kernel⟩
  have hpassed : ((blockwise 2).batchStep 1 fresh).2 = none :=
    (hprogress.1 0 Nat.one_pos hvalid).1.mpr blockwise_two_within
  refine ⟨hpassed, hprogress.2.2 (fun n => rfl) (fun n => Nat.le_refl 1) ?_⟩
  -- only the database of the start is below the height
  intro n hbelow
  cases n with
  | zero => exact ⟨hvalid, blockwise_two_within⟩
  | succ n =>
      refine absurd hbelow (Nat.not_lt.mpr ?_)
      clear hbelow
      induction n with
      | zero =>
          have hadvance := @batchStep_advances (blockwise 2) fresh 1
            (fun n => rfl) Nat.one_pos hpassed
          exact Nat.succ_le_of_lt (Nat.zero_lt_of_lt hadvance)
      | succ n ih =>
          rw [after_succ, Indexer.batchStep, if_pos ih]
          exact ih

/-- The first block with thirty-three launches is refused. -/
theorem blockwise_stuck (target : Nat) :
    ((blockwise 33).batchStep target fresh).1 = fresh := by
  rcases Nat.eq_zero_or_pos target with rfl | hpos
  · rfl
  · have hrefused : (blockwise 33).collect fresh.rows.live
        (((blockwise 33).cursor fresh).last + 1) 1 =
          .error (.tooManyLaunches 33) := by
      decide +kernel
    rw [Indexer.batchStep, if_neg (by
      show ¬ target ≤ 0
      omega)]
    dsimp only
    rw [blockwise_rangeEnd 33 hpos, if_neg (by
      show ¬ 1 < 0 + 1
      omega), hrefused]

/-- **THE CROWDED BLOCK IS NEVER PASSED**: however often the step is repeated
    and whatever the targets, although without the bound the block is
    indexed. -/
theorem crowded_block_never_passed :
    Valid (blockwise 33) fresh 1 ∧
      ¬ ∃ targets,
        1 ≤ ((blockwise 33).cursor ((blockwise 33).run targets fresh)).last := by
  refine ⟨⟨33, by decide +kernel⟩, ?_⟩
  rintro ⟨targets, hpassed⟩
  have hrun : (blockwise 33).run targets fresh = fresh := by
    clear hpassed
    induction targets with
    | nil => rfl
    | cons target targets ih =>
        rw [Indexer.run, List.foldl_cons, blockwise_stuck]
        exact ih
  rw [hrun] at hpassed
  exact absurd hpassed (by decide)

end IndexerProgress
