import Cooket.IndexerReplayProofs

/-! # What a chain leaves in the tables

    A `Served` list of blocks is a chain as a node serves it: heights rise, hashes
    and log identities do not repeat, and the CTO registry announces a proposal
    before it announces what became of it.

    After such a chain every row outside the CTO tables is PUT THERE BY ONE
    BLOCK OR LOG of it, at that block's place (`Grounded`), and the rows of its
    blocks and of its stored logs are all there (`Complete`).  So a further
    block only adds rows of its own height (`logged_below`), and the events the
    CTO tables are refilled from are in order (`opened_ctoEvents`). -/

namespace IndexerStore

open CheckedArith Contract IndexerEvents Keyset Lockstep RowTable TradeRows

/-! ## Chains -/

/-- The log is one of a block of the chain. -/
def LogOf (bs : List Block) (l : Log) : Prop := ∃ b ∈ bs, l ∈ b.logs

/-- The registry's log opens the proposal. -/
def OpensAt (env : Env) (id : Nat) (l : Log) : Prop :=
  l.address = env.roots.registry ∧ ∃ e, l.event = .cto e ∧ opens e = some id

/-- The registry's log changes the proposal. -/
def UpdatesAt (env : Env) (id : Nat) (l : Log) : Prop :=
  l.address = env.roots.registry ∧ ∃ e, l.event = .cto e ∧ updates e = some id

/-- Blocks as a node serves them. -/
structure Served (env : Env) (bs : List Block) : Prop where
  ascending : bs.Pairwise fun a b => a.number < b.number
  hashes : bs.Pairwise fun a b => a.hash ≠ b.hash
  identified : Identified (LogOf bs)
  opened : ∀ b ∈ bs, ∀ l ∈ b.logs, ∀ id, UpdatesAt env id l →
    ∃ c ∈ bs, c.number ≤ b.number ∧
      ∃ a ∈ c.logs, OpensAt env id a ∧ a.position < l.position

/-- The blocks under a height. -/
def below (height : Nat) (bs : List Block) : List Block :=
  bs.filter (·.number < height)

section
variable {env : Env} {bs : List Block} {b : Block} {height : Nat}

theorem mem_below : b ∈ below height bs ↔ b ∈ bs ∧ b.number < height := by
  rw [below, List.mem_filter, decide_eq_true_iff]

/-- The blocks under a height are a chain. -/
theorem Served.under (h : Served env bs) (height : Nat) :
    Served env (below height bs) where
  ascending := h.ascending.filter _
  hashes := h.hashes.filter _
  identified := by
    rintro a l ⟨b, hb, ha⟩ ⟨c, hc, hl⟩
    exact h.identified a l ⟨b, (mem_below.mp hb).1, ha⟩
      ⟨c, (mem_below.mp hc).1, hl⟩
  opened := by
    intro b hb l hl id hupdates
    obtain ⟨hb, hheight⟩ := mem_below.mp hb
    obtain ⟨c, hc, hle, a, ha, hopens⟩ := h.opened b hb l hl id hupdates
    exact ⟨c, mem_below.mpr ⟨hc, by omega⟩, hle, a, ha, hopens⟩

theorem Served.lt_last (h : Served env (bs ++ [b])) {c : Block} (hc : c ∈ bs) :
    c.number < b.number :=
  (List.pairwise_append.mp h.ascending).2.2 c hc b (List.mem_singleton_self b)

theorem Served.hash_ne_last (h : Served env (bs ++ [b])) {c : Block}
    (hc : c ∈ bs) : c.hash ≠ b.hash :=
  (List.pairwise_append.mp h.hashes).2.2 c hc b (List.mem_singleton_self b)

/-- A height at or under the last block leaves it out. -/
theorem below_append_le (h : height ≤ b.number) :
    below height (bs ++ [b]) = below height bs := by
  rw [below, List.filter_append, List.filter_singleton, decide_eq_false (by omega),
    below]
  simp

/-- A height over every block keeps the chain. -/
theorem below_eq_self (h : ∀ c ∈ bs, c.number < height) : below height bs = bs :=
  List.filter_eq_self.mpr fun c hc => decide_eq_true (h c hc)

/-- Without its last block a chain is what lies under that block. -/
theorem Served.below_last (h : Served env (bs ++ [b])) :
    below b.number (bs ++ [b]) = bs := by
  rw [below_append_le le_rfl]
  exact below_eq_self fun c hc => h.lt_last hc

theorem Served.init (h : Served env (bs ++ [b])) : Served env bs :=
  h.below_last ▸ h.under b.number

end

/-! ## Where rows come from -/

/-- The row was put there by a block of the chain, or by one of its logs. -/
inductive Source (bs : List Block) : Body → Prop where
  | block {b : Block} (hb : b ∈ bs) : Source bs (.block (blockRow b))
  | log {b : Block} {l : Log} {c : Body} (hb : b ∈ bs) (hl : l ∈ b.logs)
      (hnumber : l.blockNumber = b.number) (hhash : l.blockHash = b.hash)
      (hof : OfLog l c) (hplace : c.place = (l.blockNumber, l.blockHash))
      (hevent : ∀ r, c = .event r → r = eventRow l) : Source bs c

/-- An event of the registry, when there is one to trust. -/
def OfRegistry (env : Env) (r : EventRow) : Prop :=
  env.roots.registry ≠ 0 ∧ env.roots.feeManager ≠ 0 ∧
    r.contractAddress = env.roots.registry ∧
    ∃ e, r.decoded = .cto e ∧ e.kind = .registry

/-- Every row has its source, the registry's events are the registry's, and
    every treasury was announced. -/
structure Grounded (env : Env) (bs : List Block) (t : Rows) : Prop where
  sourced : ∀ c ∈ t.live, c.isCTO = false → Source bs c
  trusted : ∀ r, .event r ∈ t.live → ∀ e, r.decoded = .cto e →
    e.kind = .registry → OfRegistry env r
  announced : Announced env.roots t

section
variable {env : Env} {bs bs' : List Block} {b : Block} {t t' u : Rows} {c : Body}

/-- A row has the place of a block of the chain. -/
theorem Source.place (h : Source bs c) :
    ∃ b ∈ bs, c.place = (b.number, b.hash) := by
  cases h with
  | block hb => exact ⟨_, hb, rfl⟩
  | log hb _ hnumber hhash _ hplace _ =>
      exact ⟨_, hb, by rw [hplace, hnumber, hhash]⟩

/-- The source is among any blocks that hold every block of that place. -/
theorem Source.mono (h : Source bs c)
    (hsub : ∀ b ∈ bs, c.place = (b.number, b.hash) → b ∈ bs') : Source bs' c := by
  cases h with
  | block hb => exact .block (hsub _ hb rfl)
  | log hb hl hnumber hhash hof hplace hevent =>
      exact .log (hsub _ hb (by rw [hplace, hnumber, hhash])) hl hnumber hhash
        hof hplace hevent

theorem Grounded.empty (env : Env) : Grounded env [] Table.empty where
  sourced _ hc := absurd hc List.not_mem_nil
  trusted _ hr := absurd hr List.not_mem_nil
  announced _ hr := absurd hr List.not_mem_nil

theorem Grounded.mono (h : Grounded env bs t) (hsub : bs ⊆ bs') :
    Grounded env bs' t where
  sourced c hc hcto := (h.sourced c hc hcto).mono fun _ hb _ => hsub hb
  trusted := h.trusted
  announced := h.announced

/-- Only the rows outside the CTO tables matter, and the announcements. -/
theorem Grounded.outside (h : Grounded env bs u) (hsame : SameOutside t u)
    (hannounced : Announced env.roots t) : Grounded env bs t where
  sourced c hc hcto := h.sourced c ((hsame c hcto).mp hc) hcto
  trusted r hr := h.trusted r ((hsame (.event r) rfl).mp hr)
  announced := hannounced

theorem Grounded.of_same (h : Grounded env bs u) (hsame : t.Same u) :
    Grounded env bs t := by
  refine h.outside (.of_same hsame) ?_
  intro r hr
  obtain ⟨e, he, hdeploys⟩ := h.announced r ((hsame _).mp hr)
  exact ⟨e, (hsame _).mpr he, hdeploys⟩

/-- Withdrawing rows by their place leaves the blocks of the other places. -/
theorem Grounded.orphan (h : Grounded env bs t) {p : Body → Bool}
    {q : Nat × Hash → Bool} (hp : ∀ c, p c = q c.place)
    (hsub : ∀ b ∈ bs, q (b.number, b.hash) = false → b ∈ bs') :
    Grounded env bs' (t.orphan p) := by
  have hlive : ∀ c, c ∈ (t.orphan p).live ↔ c ∈ t.live ∧ q c.place = false := by
    intro c
    rw [Table.live_orphan, List.mem_filter, hp, Bool.not_eq_true']
  refine ⟨?_, ?_, ?_⟩
  · intro c hc hcto
    obtain ⟨hc, hq⟩ := (hlive c).mp hc
    exact (h.sourced c hc hcto).mono fun b hb hplace => hsub b hb (hplace ▸ hq)
  · intro r hr
    exact h.trusted r ((hlive _).mp hr).1
  · intro r hr
    obtain ⟨hr, hq⟩ := (hlive _).mp hr
    obtain ⟨e, he, hdeploys, horigin⟩ := h.announced r hr
    refine ⟨e, (hlive _).mpr ⟨he, ?_⟩, hdeploys, horigin⟩
    -- The event stands at the treasury's place.
    rw [← hq]
    show q (e.origin.blockNumber, e.origin.blockHash) =
      q (r.origin.blockNumber, r.origin.blockHash)
    rw [horigin]

end

/-! ## The rows of a log -/

/-- Encoding an event for `chain_events` keeps what the CTO tables look at. -/
theorem normalized_cto (e : CTOEvent) :
    ∃ e', normalizedEventValues (.cto e) = .cto e' ∧ e'.kind = e.kind ∧
      opens e' = opens e ∧ updates e' = updates e := by
  cases e <;> exact ⟨_, rfl, rfl, rfl, rfl⟩

theorem normalized_eq_cto {event : Event} {e' : CTOEvent}
    (h : normalizedEventValues event = .cto e') :
    ∃ e, event = .cto e ∧ e'.kind = e.kind ∧ opens e' = opens e ∧
      updates e' = updates e := by
  cases event with
  | cto e =>
      obtain ⟨e'', heq, hkind, hopens, hupdates⟩ := normalized_cto e
      obtain rfl := Event.cto.inj (heq.symm.trans h)
      exact ⟨e, rfl, hkind, hopens, hupdates⟩
  | _ => cases h

/-- Only the registry's events open or change a proposal. -/
theorem kind_of_opens {e : CTOEvent} {id : Nat} (h : opens e = some id) :
    e.kind = .registry := by
  cases e with
  | proposed => rfl
  | _ => cases h

theorem kind_of_updates {e : CTOEvent} {id : Nat} (h : updates e = some id) :
    e.kind = .registry := by
  cases e with
  | accepted => rfl
  | ready => rfl
  | cancelled => rfl
  | expired => rfl
  | activated => rfl
  | _ => cases h

section
variable {env : Env} {look : Lookup} {bs : List Block} {b : Block} {l : Log}
  {t t' : Rows} {rows : List Body}

/-- The registry's events are always stored. -/
theorem selected_registry (h : OfRegistry env (eventRow l)) (look : Lookup) :
    selected env look l = true := by
  obtain ⟨hregistry, hfeeManager, haddress, e, hdecoded, hkind⟩ := h
  obtain ⟨e', hevent, hkind', -, -⟩ := normalized_eq_cto hdecoded
  rw [selected, hevent]
  show trustedCTOEmitter env look l.address e'.kind = true
  rw [← hkind', hkind, trustedCTOEmitter, if_neg (by tauto)]
  exact decide_eq_true haddress

/-- An event of the registry's kind is only stored when it is the registry's. -/
theorem ofRegistry_selected (h : selected env look l = true) {e : CTOEvent}
    (hdecoded : (eventRow l).decoded = .cto e) (hkind : e.kind = .registry) :
    OfRegistry env (eventRow l) := by
  obtain ⟨e', hevent, hkind', -, -⟩ := normalized_eq_cto hdecoded
  rw [selected, hevent] at h
  change trustedCTOEmitter env look l.address e'.kind = true at h
  rw [← hkind', hkind, trustedCTOEmitter] at h
  split at h
  · cases h
  · next hroots =>
      rw [not_or] at hroots
      exact ⟨hroots.1, hroots.2, of_decide_eq_true h, e, hdecoded, hkind⟩

theorem tradeRows_place (h : tradeRows env look b l = .ok rows) :
    ∀ c ∈ rows, c.isCTO = false ∧ c.place = (l.blockNumber, l.blockHash) := by
  rw [tradeRows] at h
  split at h
  · cases h
  · obtain rfl := Except.ok.inj h
    intro c hc
    exact absurd hc List.not_mem_nil
  · next r hr =>
      obtain rfl := Except.ok.inj h
      intro c hc
      obtain rfl := List.mem_singleton.mp hc
      refine ⟨rfl, ?_⟩
      rw [projection] at hr
      split at hr
      · split at hr
        · cases hr
        · obtain rfl := Option.some.inj (Except.ok.inj hr)
          rfl
      · split at hr
        · cases hr
        · obtain rfl := Option.some.inj (Except.ok.inj hr)
          rfl
      · obtain ⟨token, trader, -, rfl⟩ := projectUniswapV3Swap_ok hr
        rfl
      · cases hr

/-- A log's projections stand at the log's place, outside the CTO tables. -/
theorem projected_place (h : projected env look b l = .ok rows) :
    ∀ c ∈ rows, c.isCTO = false ∧ c.place = (l.blockNumber, l.blockHash) := by
  have hnone : (.ok [] : Except IndexError (List Body)) = .ok rows →
      ∀ c ∈ rows, c.isCTO = false ∧
        c.place = (l.blockNumber, l.blockHash) := by
    intro h c hc
    obtain rfl := Except.ok.inj h
    exact absurd hc List.not_mem_nil
  rw [projected] at h
  split at h
  · split at h
    · exact hnone h
    · split at h
      · cases h
      · split at h
        · cases h
        · obtain rfl := Except.ok.inj h
          intro c hc
          rcases List.mem_cons.mp hc with rfl | hc
          · exact ⟨rfl, rfl⟩
          · obtain rfl := List.mem_singleton.mp hc
            exact ⟨rfl, rfl⟩
  · exact tradeRows_place h
  · exact tradeRows_place h
  · exact tradeRows_place h
  · split at h
    · exact hnone h
    · obtain rfl := Except.ok.inj h
      intro c hc
      obtain rfl := List.mem_singleton.mp hc
      exact ⟨rfl, rfl⟩
  · split at h
    · exact hnone h
    · obtain rfl := Except.ok.inj h
      intro c hc
      obtain rfl := List.mem_singleton.mp hc
      exact ⟨rfl, rfl⟩
  · exact hnone h

/-- What a stored log writes: its event row, and rows of it that are none. -/
structure Wrote (l : Log) (c : Body) : Prop where
  of : OfLog l c
  place : c.place = (l.blockNumber, l.blockHash)
  outside : c.isCTO = false
  event : ∀ r, c = .event r → r = eventRow l

theorem statements_wrote (h : statements env look b l = .ok rows) :
    ∀ c ∈ rows, Wrote l c ∧ selected env look l = true := by
  rw [statements] at h
  split at h
  · next hsel =>
      rw [bind_ok] at h
      obtain ⟨rest, hrest, h⟩ := h
      obtain rfl := Except.ok.inj h
      intro c hc
      rcases List.mem_cons.mp hc with rfl | hc
      · exact ⟨⟨⟨_, rfl⟩, rfl, rfl, fun r hr => (Body.event.inj hr).symm⟩, hsel⟩
      · obtain ⟨table, htable, hkey⟩ := projected_keys hrest c hc
        obtain ⟨hcto, hplace⟩ := projected_place hrest c hc
        refine ⟨⟨⟨table, hkey⟩, hplace, hcto, ?_⟩, hsel⟩
        rintro r rfl
        injection hkey with hchain
        exact absurd hchain.symm htable
  · obtain rfl := Except.ok.inj h
    intro c hc
    exact absurd hc List.not_mem_nil

/-- A live row was live before the log, or the log wrote it. -/
theorem live_insertEvent (h : insertEvent env b t l = .ok t') {c : Body}
    (hc : c ∈ t'.live) : c ∈ t.live ∨
      Wrote l c ∧ selected env (lookupOf env t.live) l = true := by
  rw [insertEvent, bind_ok] at h
  obtain ⟨rows, hrows, h⟩ := h
  rcases live_inserts h hc with hc | hc
  · exact .inl hc
  · exact .inr (statements_wrote hrows c hc)

/-- A log writes no row of a CTO table. -/
theorem insertEvent_cto (h : insertEvent env b t l = .ok t') {c : Body}
    (hc : c.isCTO = true) : c ∈ t'.live ↔ c ∈ t.live := by
  rw [insertEvent, bind_ok] at h
  obtain ⟨rows, hrows, h⟩ := h
  refine inserts_frame rows ?_ h
  intro b' hb' hkey
  have houtside := (statements_wrote hrows b' hb').1.outside
  rw [← isCTO_key, ← hkey, isCTO_key, hc] at houtside
  cases houtside

end

/-! ## The events the CTO tables are refilled from -/

/-- A row as `rebuildCTOTx` reads it. -/
def ctoEventOf (live : List Body) (r : EventRow) : Option CanonicalCTOEvent :=
  match r.decoded with
  | .cto e =>
      (stampOf live r.origin.blockHash).map fun stamp =>
        ⟨e, r.contractAddress, stamp, r.origin⟩
  | _ => none

theorem ctoEvents_eq (live : List Body) :
    ctoEvents live = (eventsOf live).filterMap (ctoEventOf live) := rfl

theorem ctoEventOf_some {live : List Body} {r : EventRow} {e : CanonicalCTOEvent}
    (h : ctoEventOf live r = some e) :
    r.decoded = .cto e.event ∧ e.emitter = r.contractAddress ∧
      e.origin = r.origin := by
  rw [ctoEventOf] at h
  split at h
  · next event hdecoded =>
      obtain ⟨stamp, -, rfl⟩ := Option.map_eq_some_iff.mp h
      exact ⟨hdecoded, rfl, rfl⟩
  · cases h

theorem ctoEventOf_of {live : List Body} {r : EventRow} {event : CTOEvent}
    (hdecoded : r.decoded = .cto event)
    (hstamp : (stampOf live r.origin.blockHash).isSome = true) :
    ∃ e, ctoEventOf live r = some e ∧ e.event = event ∧
      e.emitter = r.contractAddress := by
  obtain ⟨stamp, hstamp⟩ := Option.isSome_iff_exists.mp hstamp
  refine ⟨⟨event, r.contractAddress, stamp, r.origin⟩, ?_, rfl, rfl⟩
  rw [ctoEventOf, hdecoded]
  dsimp only
  rw [hstamp]
  rfl

/-! ## The logs of a block -/

section
variable {env : Env} {bs : List Block} {b : Block} {l : Log} {t t' : Rows}

/-- A live event row with a log's identity is that log's row. -/
theorem Grounded.eventRow_eq (h : Grounded env bs t)
    (hid : Identified (LogOf bs)) (hl : LogOf bs l) {r : EventRow}
    (hr : .event r ∈ t.live) (hof : OfLog l (.event r)) : r = eventRow l := by
  cases h.sourced _ hr rfl with
  | log hb ha _ _ _ _ hevent =>
      obtain rfl := hevent r rfl
      rw [hid _ l ⟨_, hb, ha⟩ hl (ofLog_event.mp hof)]

/-- The row of a stored log stays when the log comes again. -/
theorem Grounded.event_kept (h : Grounded env bs t)
    (hid : Identified (LogOf bs)) (hl : LogOf bs l)
    (hinsert : insertEvent env b t l = .ok t') {r : EventRow}
    (hr : .event r ∈ t.live) : .event r ∈ t'.live := by
  by_cases hof : OfLog l (.event r)
  · rcases insertEvent_cases hinsert with ⟨-, rfl⟩ | ⟨hsel, -⟩
    · exact hr
    · exact (insertEvent_own hsel hinsert r hof).mpr (h.eventRow_eq hid hl hr hof)
  · exact (insertEvent_frame hof hinsert).mpr hr

/-- **ONE LOG** keeps the rows grounded. -/
theorem Grounded.applyLog (h : Grounded env bs t) (hid : Identified (LogOf bs))
    (hb : b ∈ bs) (hl : l ∈ b.logs)
    (happly : IndexerStore.applyLog env b t l = .ok t') :
    Grounded env bs t' := by
  obtain ⟨hnumber, hhash, hinsert⟩ := applyLog_ok happly
  refine ⟨?_, ?_, ?_⟩
  · intro c hc hcto
    rcases live_insertEvent hinsert hc with hc | ⟨hwrote, -⟩
    · exact h.sourced c hc hcto
    · exact .log hb hl hnumber hhash hwrote.of hwrote.place hwrote.event
  · intro r hr e hdecoded hkind
    rcases live_insertEvent hinsert hr with hr | ⟨hwrote, hsel⟩
    · exact h.trusted r hr e hdecoded hkind
    · obtain rfl := hwrote.event r rfl
      exact ofRegistry_selected hsel hdecoded hkind
  · intro r hr
    obtain ⟨e, he, hdeploys⟩ :=
      h.announced r ((insertEvent_cto hinsert rfl).mp hr)
    exact ⟨e, h.event_kept hid ⟨b, hb, hl⟩ hinsert he, hdeploys⟩

/-! ## A block, up to the end of its transaction -/

/-- The transaction of a block before the tables are refilled. -/
def logged (env : Env) (b : Block) (t : Rows) : Except IndexError Rows := do
  (validateGraduationPairs b.logs).mapError .pairs
  (validateCTOActivationPairs env.roots b.logs).mapError .pairs
  let t ← insert env (t.orphan (replacedBy b)) (.block (blockRow b))
  b.logs.foldlM (IndexerStore.applyLog env b) t

theorem applyWithProvenance_eq (env : Env) (s : Store) (b : Block) :
    applyWithProvenance env s b =
      logged env b s.rows >>= fun t => finish env t (some (b.number, some b.hash)) := by
  simp only [applyWithProvenance, logged, bind_assoc]

/-- A transaction withdraws, inserts the block and then its logs. -/
theorem logged_ok (h : logged env b t = .ok t') :
    ∃ u, insert env (t.orphan (replacedBy b)) (.block (blockRow b)) = .ok u ∧
      b.logs.foldlM (IndexerStore.applyLog env b) u = .ok t' := by
  simp only [logged, bind_ok] at h
  obtain ⟨_, -, _, -, u, hu, h⟩ := h
  exact ⟨u, hu, h⟩

/-- Inserting the block keeps the rows grounded. -/
theorem Grounded.insertBlock (h : Grounded env bs t) (hb : b ∈ bs)
    (hinsert : IndexerStore.insert env t (.block (blockRow b)) = .ok t') :
    Grounded env bs t' := by
  have hlive : ∀ c, c ∈ t'.live → c ∈ t.live ∨ c = .block (blockRow b) := by
    intro c hc
    rw [insert_eq hinsert, Table.mem_live_upsert] at hc
    rcases hc with rfl | ⟨hc, -⟩
    · exact .inr rfl
    · exact .inl hc
  refine ⟨?_, ?_, ?_⟩
  · intro c hc hcto
    rcases hlive c hc with hc | rfl
    · exact h.sourced c hc hcto
    · exact .block hb
  · intro r hr
    rcases hlive _ hr with hr | heq
    · exact h.trusted r hr
    · cases heq
  · intro r hr
    rcases hlive _ hr with hr | heq
    · obtain ⟨e, he, hdeploys⟩ := h.announced r hr
      refine ⟨e, ?_, hdeploys⟩
      rw [insert_eq hinsert]
      exact Table.mem_live_upsert.mpr (.inr ⟨he, fun hkey => by cases hkey⟩)
    · cases heq

/-- **A BLOCK** keeps the rows grounded, given what it does not withdraw. -/
theorem Grounded.logged (h : Grounded env bs (t.orphan (replacedBy b)))
    (hid : Identified (LogOf bs)) (hb : b ∈ bs)
    (hlogged : IndexerStore.logged env b t = .ok t') : Grounded env bs t' := by
  obtain ⟨u, hu, hlogs⟩ := logged_ok hlogged
  refine foldlM_keeps (P := Grounded env bs) b.logs ?_ hlogs
    (h.insertBlock hb hu)
  intro l hl v v' hv hgrounded
  exact hgrounded.applyLog hid hb hl hv

/-- **REFILLING** keeps the rows grounded. -/
theorem Grounded.finish (h : Grounded env bs t) {s : Store}
    {c : Option (Nat × Option Hash)} (hfinish : IndexerStore.finish env t c = .ok s) :
    Grounded env bs s.rows := by
  have hsame := (finish_spec hfinish).1
  rw [IndexerStore.finish, bind_ok] at hfinish
  obtain ⟨u, hu, hfinish⟩ := hfinish
  dsimp only at hfinish
  split at hfinish
  · obtain rfl := Except.ok.inj hfinish
    refine h.outside hsame ?_
    intro r hr
    obtain ⟨e, he, ⟨token, controller, nonce, salt, hevent⟩, horigin⟩ :=
      rebuildCTOTx_treasury hu hr
    -- The event came from a live row, and the registry's rows are trusted.
    rw [ctoEvents_eq, List.mem_filterMap] at he
    obtain ⟨row, hrow, he⟩ := he
    obtain ⟨hdecoded, -, hplace⟩ := ctoEventOf_some he
    rw [hevent] at hdecoded
    have hlive := mem_eventsOf.mp hrow
    obtain ⟨-, -, haddress, -⟩ := h.trusted row hlive _ hdecoded rfl
    exact ⟨row, (hsame (.event row) rfl).mpr hlive,
      ⟨haddress, token, controller, nonce, salt, hdecoded⟩,
      hplace.symm.trans horigin.symm⟩
  · cases hfinish

end

/-! ## What a block leaves alone, and what it adds -/

/-- The log is stored whatever is in the database. -/
def AlwaysStored (env : Env) (l : Log) : Prop :=
  ∀ look, selected env look l = true

/-- The rows of the blocks are there, and of the logs that are stored in any
    case. -/
structure Complete (env : Env) (bs : List Block) (t : Rows) : Prop where
  blocks : ∀ b ∈ bs, .block (blockRow b) ∈ t.live
  events : ∀ l, LogOf bs l → AlwaysStored env l → .event (eventRow l) ∈ t.live

section
variable {env : Env} {bs : List Block} {b : Block} {t t' u : Rows} {c : Body}

theorem Complete.outside (h : Complete env bs u) (hsame : SameOutside t u) :
    Complete env bs t where
  blocks b hb := (hsame _ rfl).mpr (h.blocks b hb)
  events l hl hof := (hsame _ rfl).mpr (h.events l hl hof)

theorem replacedBy_below (h : c.place.1 < b.number) : replacedBy b c = false := by
  rw [replacedBy, decide_eq_false (by omega), Bool.false_and]

/-- **ROWS UNDER THE BLOCK** are left alone. -/
theorem logged_below (hgrounded : Grounded env bs t) (hchain : Served env (bs ++ [b]))
    (h : logged env b t = .ok t') (hcto : c.isCTO = false)
    (hbelow : c.place.1 < b.number) : c ∈ t'.live ↔ c ∈ t.live := by
  obtain ⟨u, hu, hlogs⟩ := logged_ok h
  have hblock : c ∈ u.live ↔ c ∈ t.live := by
    rw [insert_eq hu, Table.mem_live_upsert, Table.live_orphan, List.mem_filter,
      replacedBy_below hbelow]
    constructor
    · rintro (rfl | ⟨⟨hc, -⟩, -⟩)
      · exact absurd hbelow (lt_irrefl _)
      · exact hc
    · intro hc
      refine .inr ⟨⟨hc, rfl⟩, ?_⟩
      -- A block of the chain has another hash, a log's row another table.
      cases hgrounded.sourced c hc hcto with
      | block hb =>
          intro hkey
          exact hchain.hash_ne_last hb (Key.block.inj hkey)
      | log _ _ _ _ hof _ _ =>
          obtain ⟨table, htable⟩ := hof
          intro hkey
          cases htable.symm.trans hkey
  rw [← hblock]
  refine foldlM_keeps (P := fun v => c ∈ v.live ↔ c ∈ u.live) b.logs ?_ hlogs
    Iff.rfl
  intro l hl v v' hv hlive
  obtain ⟨hnumber, -, hinsert⟩ := applyLog_ok hv
  rw [← hlive]
  constructor
  · intro hc
    rcases live_insertEvent hinsert hc with hc | ⟨hwrote, -⟩
    · exact hc
    · -- What the log wrote stands at the height of the block.
      have hheight := congrArg Prod.fst hwrote.place
      dsimp only at hheight
      omega
  · intro hc
    refine (insertEvent_frame ?_ hinsert).mpr hc
    rintro ⟨table, hkey⟩
    cases hgrounded.sourced c (hblock.mp (hlive.mp hc)) hcto with
    | block _ => cases hkey
    | @log b' a _ hb ha _ _ hof hplace _ =>
        obtain ⟨table', hkey'⟩ := hof
        injection hkey'.symm.trans hkey with _ htx hindex
        obtain rfl := hchain.identified a l
          ⟨b', List.mem_append_left _ hb, ha⟩
          ⟨b, List.mem_append_right _ (List.mem_singleton_self b), hl⟩
          (Prod.ext htx hindex)
        have hheight := congrArg Prod.fst hplace
        dsimp only at hheight
        omega

/-- **A BLOCK** adds its row and the rows of its logs. -/
theorem Complete.logged (h : Complete env bs t) (hgrounded : Grounded env bs t)
    (hchain : Served env (bs ++ [b]))
    (hstart : Grounded env (bs ++ [b]) (t.orphan (replacedBy b)))
    (hlogged : IndexerStore.logged env b t = .ok t') :
    Complete env (bs ++ [b]) t' := by
  have hlast : b ∈ bs ++ [b] := List.mem_append_right _ (List.mem_singleton_self b)
  refine ⟨?_, ?_⟩
  · intro b' hb'
    rcases List.mem_append.mp hb' with hb' | hb'
    · exact (logged_below (c := .block (blockRow b')) hgrounded hchain hlogged rfl
        (hchain.lt_last hb')).mpr (h.blocks b' hb')
    · obtain rfl := List.mem_singleton.mp hb'
      obtain ⟨u, hu, hlogs⟩ := logged_ok hlogged
      refine foldlM_keeps (P := fun v => .block (blockRow b') ∈ v.live) b'.logs ?_
        hlogs ?_
      · intro l _ v v' hv hlive
        refine (insertEvent_frame ?_ (applyLog_ok hv).2.2).mpr hlive
        rintro ⟨table, hkey⟩
        cases hkey
      · rw [insert_eq hu]
        exact Table.mem_live_upsert.mpr (.inl rfl)
  · rintro l ⟨b', hb', hl⟩ hof
    rcases List.mem_append.mp hb' with hb' | hb'
    · have hlive := h.events l ⟨b', hb', hl⟩ hof
      obtain ⟨c, hc, hplace⟩ := (hgrounded.sourced _ hlive rfl).place
      refine (logged_below hgrounded hchain hlogged rfl ?_).mpr hlive
      rw [hplace]
      exact hchain.lt_last hc
    · obtain rfl := List.mem_singleton.mp hb'
      obtain ⟨u, hu, hlogs⟩ := logged_ok hlogged
      obtain ⟨pre, post, hsplit⟩ := List.append_of_mem hl
      have hrest : ∀ x, x ∈ pre ++ l :: post → x ∈ b'.logs := fun x hx => hsplit ▸ hx
      rw [hsplit, List.foldlM_append, bind_ok] at hlogs
      obtain ⟨v, hv, hlogs⟩ := hlogs
      rw [List.foldlM_cons, bind_ok] at hlogs
      obtain ⟨w, hw, hlogs⟩ := hlogs
      have hv' := foldlM_keeps (P := Grounded env (bs ++ [b'])) pre
        (fun x hx _ _ hstep hg => hg.applyLog hchain.identified hlast
          (hrest x (List.mem_append_left _ hx)) hstep) hv
        (hstart.insertBlock hlast hu)
      have hw' := hv'.applyLog hchain.identified hlast hl hw
      have hown : .event (eventRow l) ∈ w.live :=
        (insertEvent_own (hof _) (applyLog_ok hw).2.2 _ ⟨_, rfl⟩).mpr rfl
      -- The logs after it leave its row, or are the same log.
      refine (foldlM_keeps (P := fun x => Grounded env (bs ++ [b']) x ∧
        .event (eventRow l) ∈ x.live) post ?_ hlogs ⟨hw', hown⟩).2
      rintro x hx y y' hy ⟨hg, hlive⟩
      have hxlogs := hrest x
        (List.mem_append_right _ (List.mem_cons_of_mem _ hx))
      exact ⟨hg.applyLog hchain.identified hlast hxlogs hy,
        hg.event_kept hchain.identified ⟨b', hlast, hxlogs⟩
          (applyLog_ok hy).2.2 hlive⟩

/-! ## The order of the registry's events -/

theorem rank_lt {a l : Log} (h : a.position < l.position) :
    (eventRow a).rank < (eventRow l).rank := by
  simp only [Log.position, Prod.Lex.toLex_lt_toLex] at h
  simp only [EventRow.rank, eventRow, originOf, List.cons_lt_cons_iff]
  tauto

/-- **PROPOSALS ARE OPENED BEFORE THEY CHANGE**, among the events the CTO tables
    are refilled from. -/
theorem opened_ctoEvents (hgrounded : Grounded env bs t)
    (hcomplete : Complete env bs t) (hchain : Served env bs) :
    Opened (ctoEvents t.live) := by
  intro pre e post id hsplit hupdates
  rw [ctoEvents_eq, List.filterMap_eq_append_iff] at hsplit
  obtain ⟨before, rest, hrows, hbefore, hrest⟩ := hsplit
  obtain ⟨skipped, r, after, hrest', hskipped, hr, -⟩ :=
    List.filterMap_eq_cons_iff.mp hrest
  have hsorted : (eventsOf t.live).Pairwise fun a b => a.rank ≤ b.rank :=
    orderBy_pairwise _ _
  rw [hrows, hrest'] at hsorted
  -- The row is that of a log of the registry, so its opening is in the chain.
  obtain ⟨hdecoded, hemitter, -⟩ := ctoEventOf_some hr
  have hlive : .event r ∈ t.live := by
    rw [← mem_eventsOf, hrows, hrest']
    simp
  have hof := hgrounded.trusted r hlive _ hdecoded (kind_of_updates hupdates)
  cases hgrounded.sourced _ hlive rfl with
  | @log b l _ hb hl _ _ _ _ hevent =>
      obtain rfl := hevent r rfl
      obtain ⟨e', he', -, -, hupdates'⟩ := normalized_eq_cto hdecoded
      obtain ⟨c, hc, -, a, ha, ⟨haddress, event, haevent, hopens⟩, hposition⟩ :=
        hchain.opened b hb l hl id
          ⟨hof.2.2.1, e', he', hupdates'.symm.trans hupdates⟩
      -- Its row is live, on a live block, and ranks before.
      obtain ⟨event', hnormal, hkind', hopens', -⟩ := normalized_cto event
      have hadecoded : (eventRow a).decoded = .cto event' := by
        show normalizedEventValues a.event = _
        rw [haevent, hnormal]
      have haof : OfRegistry env (eventRow a) :=
        ⟨hof.1, hof.2.1, haddress, event', hadecoded,
          hkind'.trans (kind_of_opens hopens)⟩
      have halive := hcomplete.events a ⟨c, hc, ha⟩ (selected_registry haof)
      obtain ⟨d, hd, hplace⟩ := (hgrounded.sourced _ halive rfl).place
      have hstamp := stampOf_isSome (hcomplete.blocks d hd)
      have hhash : (eventRow a).origin.blockHash = d.hash := congrArg Prod.snd hplace
      rw [show d.hash = (blockRow d).blockHash from rfl] at hhash
      rw [← hhash] at hstamp
      obtain ⟨a', ha', haevent', haemitter⟩ := ctoEventOf_of hadecoded hstamp
      have hrank := rank_lt hposition
      have hmem := mem_eventsOf.mpr halive
      rw [hrows, hrest', ← List.append_assoc] at hmem
      rw [← List.append_assoc] at hsorted
      rcases List.mem_append.mp hmem with hmem | hmem
      · rcases List.mem_append.mp hmem with hmem | hmem
        · refine ⟨a', hbefore ▸ List.mem_filterMap.mpr ⟨_, hmem, ha'⟩, ?_, ?_⟩
          · rw [haemitter, hemitter, hof.2.2.1]
            exact haddress
          · rw [haevent', hopens', hopens]
        · rw [hskipped _ hmem] at ha'
          cases ha'
      · rcases List.mem_cons.mp hmem with heq | hmem
        · rw [heq] at hrank
          exact absurd hrank (lt_irrefl _)
        · have hle := List.rel_of_pairwise_cons
            (List.pairwise_append.mp hsorted).2.1 hmem
          exact absurd hrank (not_lt_of_ge hle)

end

end IndexerStore
