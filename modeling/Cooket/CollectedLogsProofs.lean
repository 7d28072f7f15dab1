import Cooket.IndexerBatchProofs
import Cooket.IndexerRowsProofs

/-! # What a batch step collects

    On a well-formed chain the logs collected for a range are logs of the chain
    in that range (`collect_sound`).  They include ALL logs of the contracts
    known before the range (`collect_known`), and all transfers of a token
    launched in it (`collect_launched`): the launch itself is a log of the
    factory, which is always scanned, and the token is followed from the block
    of its launch on. -/

namespace CollectedLogs

open CheckedArith Contract IndexerEvents IndexerStore IndexerBatch LogScan

/-- The log is on the chain. -/
def Has (c : Chain) (l : Log) : Prop := ∃ n, l ∈ (c.block n).logs

/-- **A CHAIN**: blocks are numbered, a log is listed once and carries its
    block, and neither an identity nor a position is shared. -/
structure WellFormed (c : Chain) : Prop where
  number : ∀ n, (c.block n).number = n
  nodup : ∀ n, (c.block n).logs.Nodup
  place : ∀ n, ∀ l ∈ (c.block n).logs,
    l.blockNumber = n ∧ l.blockHash = (c.block n).hash
  identified : Identified (Has c)
  positioned : ∀ a b, Has c a → Has c b → a.position = b.position → a = b

/-- The log is on the chain in a range. -/
def InRange (c : Chain) (fromBlock toBlock : Nat) (l : Log) : Prop :=
  Has c l ∧ fromBlock ≤ l.blockNumber ∧ l.blockNumber ≤ toBlock

section
variable {c : Chain} (hc : WellFormed c)
include hc

theorem mem_block {l : Log} {n : Nat} :
    l ∈ (c.block n).logs ↔ Has c l ∧ l.blockNumber = n := by
  constructor
  · intro hl
    exact ⟨⟨n, hl⟩, (hc.place n l hl).1⟩
  · rintro ⟨⟨m, hm⟩, rfl⟩
    rwa [(hc.place m l hm).1]

theorem mem_logsBetween {fromBlock toBlock : Nat} {l : Log} :
    l ∈ c.logsBetween fromBlock toBlock ↔ InRange c fromBlock toBlock l := by
  rw [Chain.logsBetween, List.mem_flatMap]
  constructor
  · rintro ⟨n, hn, hl⟩
    obtain ⟨hhas, rfl⟩ := (mem_block hc).mp hl
    obtain ⟨hfrom, hto⟩ := List.mem_range'_1.mp hn
    exact ⟨hhas, hfrom, by omega⟩
  · rintro ⟨hhas, hfrom, hto⟩
    refine ⟨l.blockNumber, List.mem_range'_1.mpr ⟨hfrom, by omega⟩, ?_⟩
    exact (mem_block hc).mpr ⟨hhas, rfl⟩

theorem logsBetween_nodup (fromBlock toBlock : Nat) :
    (c.logsBetween fromBlock toBlock).Nodup := by
  rw [Chain.logsBetween, List.nodup_flatMap]
  refine ⟨fun n _ => hc.nodup n, ?_⟩
  have hrange : (List.range' fromBlock (toBlock + 1 - fromBlock)).Nodup :=
    List.nodup_range'
  refine hrange.imp ?_
  intro n m hne l hn hm
  exact hne (((mem_block hc).mp hn).2.symm.trans ((mem_block hc).mp hm).2)

theorem mem_filterLogs {q : FilterQuery Topic} {l : Log} :
    l ∈ c.filterLogs q ↔
      InRange c q.fromBlock q.toBlock l ∧ Chain.selects q l = true := by
  rw [Chain.filterLogs, List.mem_filter, mem_logsBetween hc]

/-- Logs of the chain are told apart by their position. -/
theorem oneChain {logs : List Log} (h : ∀ l ∈ logs, Has c l) : OneChain logs :=
  fun a ha b hb hab => hc.positioned a b (h a ha) (h b hb) hab

/-- `canonicalLogs` keeps the logs of the chain it is given. -/
theorem mem_canonical {order : ChainSort Log} {logs out : List Log}
    (hlogs : ∀ l ∈ logs, Has c l) (h : canonical order logs = .ok out) (l : Log) :
    l ∈ out ↔ l ∈ logs := by
  rw [canonical] at h
  cases hm : canonicalLogs order logs with
  | error e =>
      rw [hm] at h
      cases h
  | ok found =>
      rw [hm] at h
      obtain rfl := Except.ok.inj h
      exact (canonicalLogs_spec (oneChain hc hlogs) hm).2 l

/-- **THE SCAN** finds the logs of the known contracts in the range. -/
theorem mem_scanned {k : Collector} (hk : k.chain = c) {live : List Body}
    {fromBlock toBlock : Nat} {logs : List Log}
    (h : k.scanned live fromBlock toBlock = .ok logs) (l : Log) :
    l ∈ logs ↔ InRange c fromBlock toBlock l ∧
      l.address ∈ scanContracts k.env live := by
  have haddr : scanContracts k.env live ≠ [] := by
    rw [scanContracts, configured]
    exact List.cons_ne_nil _ _
  rw [Collector.scanned, filterLogsByAddressChunks_total _ _ _ haddr, hk] at h
  generalize hquery : (⟨fromBlock, toBlock, scanContracts k.env live, []⟩ :
    FilterQuery Topic) = query at h
  have hmem : ∀ l, l ∈ (chunkStarts query.addresses.length).flatMap
      (fun start => c.filterLogs (chunkQuery query start)) ↔
        InRange c fromBlock toBlock l ∧
          l.address ∈ scanContracts k.env live := by
    intro l
    have hall := chunks_flatten query
    rw [List.mem_flatMap]
    simp only [mem_filterLogs hc, Chain.selects, Bool.and_eq_true,
      decide_eq_true_eq]
    subst hquery
    constructor
    · rintro ⟨start, hstart, hrange, haddress, -⟩
      refine ⟨hrange, ?_⟩
      rw [show scanContracts k.env live = _ from hall.symm]
      exact List.mem_flatMap.mpr ⟨start, hstart, haddress⟩
    · rintro ⟨hrange, haddress⟩
      rw [show scanContracts k.env live = _ from hall.symm] at haddress
      obtain ⟨start, hstart, hin⟩ := List.mem_flatMap.mp haddress
      exact ⟨start, hstart, hrange, hin, rfl⟩
  cases hm : canonicalLogs k.order ((chunkStarts query.addresses.length).flatMap
      fun start => c.filterLogs (chunkQuery query start)) with
  | error e =>
      rw [hm] at h
      cases h
  | ok found =>
      rw [hm] at h
      obtain rfl := Except.ok.inj h
      have hchain : OneChain ((chunkStarts query.addresses.length).flatMap
          fun start => c.filterLogs (chunkQuery query start)) :=
        oneChain hc fun l hl => ((hmem l).mp hl).1.1
      rw [(canonicalLogs_spec hchain hm).2 l, hmem l]

end

/-! ## Following launches, graduations and treasuries -/

/-- What a list of queries found, one after the other. -/
theorem mem_mapM {α : Type} {f : α → Except BatchError (List Log)} {xs : List α}
    {found : List (List Log)} (h : xs.mapM f = .ok found) (l : Log) :
    l ∈ found.flatten ↔ ∃ x ∈ xs, ∃ logs, f x = .ok logs ∧ l ∈ logs := by
  induction xs generalizing found with
  | nil =>
      rw [List.mapM_nil] at h
      obtain rfl := Except.ok.inj h
      simp
  | cons x xs ih =>
      rw [List.mapM_cons, bind_ok] at h
      obtain ⟨logs, hlogs, h⟩ := h
      rw [bind_ok] at h
      obtain ⟨rest, hrest, h⟩ := h
      obtain rfl := Except.ok.inj h
      rw [List.flatten_cons, List.mem_append, ih hrest]
      constructor
      · rintro (hl | ⟨y, hy, ys, hys, hl⟩)
        · exact ⟨x, List.mem_cons_self .., logs, hlogs, hl⟩
        · exact ⟨y, List.mem_cons_of_mem _ hy, ys, hys, hl⟩
      · rintro ⟨y, hy, ys, hys, hl⟩
        rcases List.mem_cons.mp hy with rfl | hy
        · rw [hlogs] at hys
          obtain rfl := Except.ok.inj hys
          exact .inl hl
        · exact .inr ⟨y, hy, ys, hys, hl⟩

/-- Every query of the list was answered. -/
theorem mapM_ok_of_mem {α : Type} {f : α → Except BatchError (List Log)}
    {xs : List α} {found : List (List Log)} (h : xs.mapM f = .ok found) {x : α}
    (hx : x ∈ xs) : ∃ logs, f x = .ok logs := by
  induction xs generalizing found with
  | nil => exact absurd hx List.not_mem_nil
  | cons y xs ih =>
      rw [List.mapM_cons, bind_ok] at h
      obtain ⟨logs, hlogs, h⟩ := h
      rw [bind_ok] at h
      obtain ⟨rest, hrest, -⟩ := h
      rcases List.mem_cons.mp hx with rfl | hx
      · exact ⟨logs, hlogs⟩
      · exact ih hrest hx

section
variable {c : Chain} (hc : WellFormed c) {fromBlock toBlock : Nat}
  {logs out : List Log}
include hc

/-- What is found for one launch. -/
theorem mem_launchLogs {d : LaunchDiscovery}
    (h : launchLogs c toBlock d = .ok out) (l : Log) :
    l ∈ out ↔ InRange c d.block toBlock l ∧
      ((l.address = d.token ∧ topic l.event = .transfer) ∨
        (l.address = d.curve ∧ topic l.event ∈ curveRuntimeTopics)) := by
  rw [launchLogs, bind_ok] at h
  obtain ⟨-, -, h⟩ := h
  rw [bind_ok] at h
  obtain ⟨-, -, h⟩ := h
  obtain rfl := Except.ok.inj h
  rw [List.mem_append, mem_filterLogs hc, mem_filterLogs hc]
  simp only [Chain.selects, Bool.and_eq_true, decide_eq_true_eq,
    List.mem_singleton]
  constructor
  · rintro (⟨hr, ha, ht⟩ | ⟨hr, ha, ht⟩)
    · exact ⟨hr, .inl ⟨ha, ht⟩⟩
    · exact ⟨hr, .inr ⟨ha, ht⟩⟩
  · rintro ⟨hr, ⟨ha, ht⟩ | ⟨ha, ht⟩⟩
    · exact .inl ⟨hr, ha, ht⟩
    · exact .inr ⟨hr, ha, ht⟩

/-- **LAUNCHES ARE FOLLOWED** from their block to the end of the range. -/
theorem mem_discoverLaunchLogs {limit : Nat}
    (h : discoverLaunchLogs limit c toBlock logs = .ok out) (l : Log) :
    l ∈ out ↔ l ∈ logs ∨ ∃ d ∈ logs.filterMap launchDiscovery,
      InRange c d.block toBlock l ∧
        ((l.address = d.token ∧ topic l.event = .transfer) ∨
          (l.address = d.curve ∧ topic l.event ∈ curveRuntimeTopics)) := by
  rw [discoverLaunchLogs, bind_ok] at h
  obtain ⟨seen, hseen, h⟩ := h
  obtain ⟨-, hall⟩ := @seenLaunches_spec [] _ _ List.nodup_nil hseen
  split at h
  · cases h
  · rw [bind_ok] at h
    obtain ⟨found, hfound, h⟩ := h
    obtain rfl := Except.ok.inj h
    rw [List.mem_append, mem_mapM hfound]
    refine or_congr Iff.rfl ?_
    have hmem : ∀ d, d ∈ Keyset.orderBy LaunchDiscovery.rank seen ↔
        d ∈ logs.filterMap launchDiscovery := by
      intro d
      rw [Keyset.orderBy, List.mem_insertionSort, hall d]
      exact ⟨fun hd => hd.resolve_left List.not_mem_nil, .inr⟩
    constructor
    · rintro ⟨d, hd, ls, hls, hl⟩
      exact ⟨d, (hmem d).mp hd, (mem_launchLogs hc hls l).mp hl⟩
    · rintro ⟨d, hd, hl⟩
      obtain ⟨ls, hls⟩ := mapM_ok_of_mem hfound ((hmem d).mpr hd)
      exact ⟨d, (hmem d).mpr hd, ls, hls, (mem_launchLogs hc hls l).mpr hl⟩

/-- A discovery keeps the logs it was given and adds logs of the range. -/
structure Extends (c : Chain) (fromBlock toBlock : Nat) (logs out : List Log) :
    Prop where
  keeps : ∀ l ∈ logs, l ∈ out
  sound : ∀ l ∈ out, InRange c fromBlock toBlock l

theorem discoverLaunchLogs_extends {limit : Nat}
    (hlogs : ∀ l ∈ logs, InRange c fromBlock toBlock l)
    (h : discoverLaunchLogs limit c toBlock logs = .ok out) :
    Extends c fromBlock toBlock logs out := by
  have hmem := mem_discoverLaunchLogs hc h
  refine ⟨fun l hl => (hmem l).mpr (.inl hl), ?_⟩
  intro l hl
  rcases (hmem l).mp hl with hl | ⟨d, hd, ⟨hhas, hfrom, hto⟩, -⟩
  · exact hlogs l hl
  · obtain ⟨launch, hlaunch, hd⟩ := List.mem_filterMap.mp hd
    have hblock : d.block = launch.blockNumber := by
      rw [launchDiscovery] at hd
      split at hd
      · obtain rfl := Option.some.inj hd
        rfl
      · cases hd
    exact ⟨hhas, (hlogs launch hlaunch).2.1.trans (hblock ▸ hfrom), hto⟩

theorem discoverGraduationSettlements_extends {order : ChainSort Log}
    {limit : Nat} (hlogs : ∀ l ∈ logs, InRange c fromBlock toBlock l)
    (h : discoverGraduationSettlements order limit c logs = .ok out) :
    Extends c fromBlock toBlock logs out := by
  rw [discoverGraduationSettlements, bind_ok] at h
  obtain ⟨-, -, h⟩ := h
  dsimp only at h
  split at h
  · cases h
  · simp only [bind_ok] at h
    obtain ⟨found, hfound, settled, hsettled, -, -, h⟩ := h
    obtain rfl := Except.ok.inj h
    have hsound : ∀ l ∈ logs ++ found.flatten, InRange c fromBlock toBlock l := by
      intro l hl
      rcases List.mem_append.mp hl with hl | hl
      · exact hlogs l hl
      · obtain ⟨q, hq, ls, hls, hl⟩ := (mem_mapM hfound l).mp hl
        rw [settlementLogs, bind_ok] at hls
        obtain ⟨-, -, hls⟩ := hls
        obtain rfl := Except.ok.inj hls
        obtain ⟨⟨hhas, hfrom, hto⟩, -⟩ := (mem_filterLogs hc).mp hl
        rw [List.mem_dedup] at hq
        obtain ⟨g, hg, rfl⟩ := List.mem_map.mp hq
        obtain ⟨l', hl', hg⟩ := List.mem_filterMap.mp hg
        have hblock : g.block = l'.blockNumber := by
          rw [graduationOf] at hg
          split at hg
          · obtain rfl := Option.some.inj hg
            rfl
          · cases hg
        obtain ⟨-, hlow, hhigh⟩ := hlogs l' hl'
        dsimp only at hfrom hto
        exact ⟨hhas, by omega, by omega⟩
    have hmem := mem_canonical hc (fun l hl => (hsound l hl).1) hsettled
    exact ⟨fun l hl => (hmem l).mpr (List.mem_append_left _ hl),
      fun l hl => hsound l ((hmem l).mp hl)⟩

theorem discoverCTOTreasuryLogs_extends {order : ChainSort Log}
    {roots : CTOProvenance} (hlogs : ∀ l ∈ logs, InRange c fromBlock toBlock l)
    (h : discoverCTOTreasuryLogs order c roots toBlock logs = .ok out) :
    Extends c fromBlock toBlock logs out := by
  simp only [discoverCTOTreasuryLogs, bind_ok] at h
  obtain ⟨-, -, found, hfound, h⟩ := h
  have hsound : ∀ l ∈ logs ++ found.flatten, InRange c fromBlock toBlock l := by
    intro l hl
    rcases List.mem_append.mp hl with hl | hl
    · exact hlogs l hl
    · obtain ⟨d, hd, ls, hls, hl⟩ := (mem_mapM hfound l).mp hl
      rw [treasuryLogs, bind_ok] at hls
      obtain ⟨-, -, hls⟩ := hls
      obtain rfl := Except.ok.inj hls
      obtain ⟨⟨hhas, hfrom, hto⟩, -⟩ := (mem_filterLogs hc).mp hl
      obtain ⟨l', hl', hd⟩ := List.mem_filterMap.mp hd
      have hblock : d.block = l'.blockNumber := by
        rw [deploymentOf] at hd
        split at hd
        · split at hd
          · obtain rfl := Option.some.inj hd
            rfl
          · cases hd
        · cases hd
      obtain ⟨-, hlow, -⟩ := hlogs l' hl'
      dsimp only at hfrom hto
      exact ⟨hhas, by omega, hto⟩
  have hmem := mem_canonical hc (fun l hl => (hsound l hl).1) h
  exact ⟨fun l hl => (hmem l).mpr (List.mem_append_left _ hl),
    fun l hl => hsound l ((hmem l).mp hl)⟩

/-- **WHAT A RANGE COLLECTS**: logs of the chain in the range, among them all
    logs of the known contracts and all logs of the launches in it. -/
structure Complete (k : Collector) (live : List Body) (fromBlock toBlock : Nat)
    (out : List Log) : Prop where
  sound : ∀ l ∈ out, InRange k.chain fromBlock toBlock l
  known : ∀ l, InRange k.chain fromBlock toBlock l →
    l.address ∈ scanContracts k.env live → l ∈ out
  launched : ∀ launch d l, InRange k.chain fromBlock toBlock launch →
    launch.address ∈ scanContracts k.env live →
    launchDiscovery launch = some d → InRange k.chain d.block toBlock l →
    ((l.address = d.token ∧ topic l.event = .transfer) ∨
      (l.address = d.curve ∧ topic l.event ∈ curveRuntimeTopics)) → l ∈ out

omit hc in
theorem collect_complete {k : Collector} (hk : WellFormed k.chain)
    {live : List Body} (h : k.collect live fromBlock toBlock = .ok out) :
    Complete k live fromBlock toBlock out := by
  obtain ⟨logs, followed, settled, treasuries, h₁, h₂, h₃, h₄, h₅⟩ :=
    Collector.collect_ok_iff.mp h
  have hscan := mem_scanned hk rfl h₁
  have e₂ := discoverLaunchLogs_extends hk
    (fun l hl => ((hscan l).mp hl).1) h₂
  have e₃ := discoverGraduationSettlements_extends hk e₂.sound h₃
  have e₄ := discoverCTOTreasuryLogs_extends hk e₃.sound h₄
  have hout := mem_canonical hk (fun l hl => (e₄.sound l hl).1) h₅
  have hkeep : ∀ l ∈ followed, l ∈ out := fun l hl =>
    (hout l).mpr (e₄.keeps l (e₃.keeps l hl))
  refine ⟨fun l hl => e₄.sound l ((hout l).mp hl), ?_, ?_⟩
  · intro l hrange haddress
    exact hkeep l (e₂.keeps l ((hscan l).mpr ⟨hrange, haddress⟩))
  · intro launch d l hlaunch haddress hd hrange hkind
    refine hkeep l ((mem_discoverLaunchLogs hk h₂ l).mpr (.inr ⟨d, ?_, hrange,
      hkind⟩))
    exact List.mem_filterMap.mpr
      ⟨launch, (hscan launch).mpr ⟨hlaunch, haddress⟩, hd⟩

end

end CollectedLogs
