import Cooket.CTOJournalProofs
import Cooket.IndexerForksProofs

/-! # What the CTO tables hold

    `rebuildCTOTx` reads the CTO events of the live rows in order and writes
    the seven CTO tables from scratch.  Every event writes a short list of rows
    (`written`), and what the tables hold at the end is read off the events:
    a proposal's row is what its events make of it (`rowOf`), a row of the fee
    ledger is one event (`ledgerRowOf`), and a token is routed by an activation
    whose transaction switched its fee route (`routesOf`).

    `Filled` says so, for all the tables a hand-over reads, and holds after
    every rebuild (`filled_rebuild`). -/

namespace IndexerStore

open CheckedArith Contract IndexerEvents Keyset Lockstep RowTable TradeRows
open CTOJournal (about)

/-! ## What one event writes -/

/-- What an event sets in the row of the proposal it changes. -/
def changed (e : CanonicalCTOEvent) (r : ProposalRow) : ProposalRow :=
  match e.event with
  | .accepted _ _ _ _ acceptedAt =>
      { r with
        state := .accepted
        acceptedTimestamp := some acceptedAt
        accepted := some e.origin
        lifecycle := e.origin }
  | .ready _ _ executeAfter executeDeadline =>
      { r with
        executeAfter := some executeAfter
        executeDeadline := some executeDeadline
        ready := some e.origin
        lifecycle := e.origin }
  | .cancelled .. =>
      { r with
        state := .cancelled
        cancelledTimestamp := some e.timestamp
        cancelled := some e.origin
        lifecycle := e.origin }
  | .expired .. =>
      { r with
        state := .expired
        expiredTimestamp := some e.timestamp
        expired := some e.origin
        lifecycle := e.origin }
  | .activated .. =>
      { r with
        state := .active
        activatedTimestamp := some e.timestamp
        activated := some e.origin
        lifecycle := e.origin }
  | _ => r

/-- The row of a proposal after one more event about it. -/
def rowStep (row : Option ProposalRow) (e : CanonicalCTOEvent) :
    Option ProposalRow :=
  match e.event with
  | .proposed id token creator controller treasury previous nonce deadline hash
      uri =>
      some (proposalRow e id token creator controller treasury previous nonce
        deadline hash uri)
  | _ => row.map (changed e)

/-- **THE ROW OF A PROPOSAL**, from the events about it. -/
def rowOf (es : List CanonicalCTOEvent) (registry : Address) (id : Nat) :
    Option ProposalRow :=
  (es.filter fun e => e.emitter = registry && about e.event = some id).foldl
    rowStep none

/-- The row an event adds to the fee ledger. -/
def ledgerRowOf (e : CanonicalCTOEvent) : Option LedgerRow :=
  match e.event with
  | .creatorFeeCheckpointed token previous amount =>
      some ⟨e.emitter, token, previous, .checkpoint, amount, none, e.origin⟩
  | .checkpointedCreatorFeesClaimed token recipient triggeredBy amount =>
      some ⟨e.emitter, token, recipient, .claim, amount, some triggeredBy,
        e.origin⟩
  | _ => none

/-- The row an activation leaves for a fee manager. -/
def tokenStateOf (e : CanonicalCTOEvent) (feeManager : Address) :
    Option TokenStateRow :=
  match e.event with
  | .activated id token treasury _ previous _ =>
      some ⟨feeManager, token, e.emitter, treasury, id, previous, e.origin⟩
  | _ => none

/-- The fee managers that switched the route an activation is about. -/
def routesOf (live : List Body) (e : CanonicalCTOEvent) : List Address :=
  match e.event with
  | .activated _ token treasury _ _ _ =>
      feeRoutes live e.origin.transactionHash token treasury
  | _ => []

/-- The stored row of a proposal. -/
def storedProposal (t : Rows) (registry : Address) (id : Nat) :
    Option ProposalRow :=
  match t.stored (.proposal registry id) with
  | some (.proposal r) => some r
  | _ => none

/-- **THE ROWS AN EVENT WRITES**. -/
def written (t : Rows) (e : CanonicalCTOEvent) : List Body :=
  match e.event with
  | .treasuryDeployed token controller treasury nonce salt =>
      [.treasury ⟨e.emitter, treasury, token, controller, nonce, salt, e.origin⟩]
  | .proposed id .. | .accepted id .. | .ready id .. | .cancelled id ..
  | .expired id .. =>
      (rowStep (storedProposal t e.emitter id) e).toList.map .proposal
  | .activated id .. =>
      (rowStep (storedProposal t e.emitter id) e).toList.map .proposal ++
        ((routesOf t.live e).filterMap (tokenStateOf e)).map .tokenState
  | .creatorFeeCheckpointed .. | .checkpointedCreatorFeesClaimed .. =>
      (ledgerRowOf e).toList.map .ledger
  | .supportedAssetRegistered asset controller =>
      [.supportedAsset ⟨e.emitter, asset, controller, e.origin⟩]
  | .treasuryAssetTransferred asset recipient amount controller =>
      [.treasuryTransfer ⟨e.emitter, asset, recipient, amount, controller,
        e.origin⟩]
  | .creatorFeesPulled token asset amount triggeredBy =>
      [.feePull ⟨e.emitter, token, asset, amount, triggeredBy, e.origin⟩]
  | .pendingCreatorPayoutInvalidated .. | .feeRouteActivated ..
  | .acceptanceSubmitted .. => []

section
variable {env : Env} {t t' : Rows} {e : CanonicalCTOEvent} {b c : Body}

theorem updateProposal_written {registry : Address} {id : Nat}
    {f : ProposalRow → ProposalRow}
    (h : updateProposal env t registry id f = .ok t') :
    (((storedProposal t registry id).map f).toList.map Body.proposal).foldlM
      (insert env) t = .ok t' := by
  rw [updateProposal] at h
  rw [storedProposal]
  cases hstored : t.stored (.proposal registry id) with
  | none =>
      rw [hstored] at h
      exact h
  | some b =>
      rw [hstored] at h
      cases b with
      | proposal r => exact insert_single h
      | _ => exact h

/-- An `UPDATE` writes the changed row. -/
theorem updated_written {id : Nat} {f : ProposalRow → ProposalRow}
    (hupdates : updates e.event = some id) (hf : changed e = f)
    (h : updateProposal env t e.emitter id f = .ok t') :
    ((rowStep (storedProposal t e.emitter id) e).toList.map
      Body.proposal).foldlM (insert env) t = .ok t' := by
  subst hf
  have hstep : rowStep (storedProposal t e.emitter id) e =
      (storedProposal t e.emitter id).map (changed e) := by
    rw [rowStep]
    split
    · next hevent => simp [hevent, updates] at hupdates
    · rfl
  rw [hstep]
  exact updateProposal_written h

/-- **AN EVENT INSERTS WHAT IT WRITES**. -/
theorem projectCanonicalCTOEvent_written
    (h : projectCanonicalCTOEvent env t e = .ok t') :
    (written t e).foldlM (insert env) t = .ok t' ∧
      (routesOf t.live e).length ≤ 1 := by
  rw [projectCanonicalCTOEvent] at h
  rw [written, routesOf]
  cases hevent : e.event with
  | treasuryDeployed =>
      rw [hevent] at h
      exact ⟨insert_single h, Nat.zero_le _⟩
  | proposed =>
      rw [hevent] at h
      refine ⟨?_, Nat.zero_le _⟩
      simp only [rowStep, hevent]
      exact insert_single h
  | accepted =>
      rw [hevent] at h
      refine ⟨updated_written (by rw [hevent]; rfl) ?_ h, Nat.zero_le _⟩
      funext r
      simp only [changed, hevent]
  | ready =>
      rw [hevent] at h
      refine ⟨updated_written (by rw [hevent]; rfl) ?_ h, Nat.zero_le _⟩
      funext r
      simp only [changed, hevent]
  | cancelled =>
      rw [hevent] at h
      refine ⟨updated_written (by rw [hevent]; rfl) ?_ h, Nat.zero_le _⟩
      funext r
      simp only [changed, hevent]
  | expired =>
      rw [hevent] at h
      refine ⟨updated_written (by rw [hevent]; rfl) ?_ h, Nat.zero_le _⟩
      funext r
      simp only [changed, hevent]
  | activated id token treasury controller previous executor =>
      rw [hevent] at h
      dsimp only at h ⊢
      rw [bind_ok] at h
      obtain ⟨v, hv, h⟩ := h
      rw [feeRoutes_same (updateProposal_outside hv)] at h
      have hupdates : updates e.event = some id := by
        rw [hevent]
        rfl
      have hrows := updated_written hupdates
        (by funext r; simp only [changed, hevent]) hv
      rw [List.foldlM_append, hrows]
      show List.foldlM (insert env) v (List.map Body.tokenState
        (List.filterMap (tokenStateOf e) (feeRoutes t.live
          e.origin.transactionHash token treasury))) = .ok t' ∧ _
      split at h
      · next hnone =>
          rw [hnone]
          exact ⟨h, Nat.zero_le _⟩
      · next feeManager hone =>
          rw [hone]
          refine ⟨?_, Nat.le_refl _⟩
          simp only [List.filterMap_cons, tokenStateOf, hevent,
            List.filterMap_nil]
          exact insert_single h
      · cases h
  | creatorFeeCheckpointed =>
      rw [hevent] at h
      refine ⟨?_, Nat.zero_le _⟩
      simp only [ledgerRowOf, hevent]
      exact insert_single h
  | checkpointedCreatorFeesClaimed =>
      rw [hevent] at h
      refine ⟨?_, Nat.zero_le _⟩
      simp only [ledgerRowOf, hevent]
      exact insert_single h
  | supportedAssetRegistered =>
      rw [hevent] at h
      exact ⟨insert_single h, Nat.zero_le _⟩
  | treasuryAssetTransferred =>
      rw [hevent] at h
      exact ⟨insert_single h, Nat.zero_le _⟩
  | creatorFeesPulled =>
      rw [hevent] at h
      exact ⟨insert_single h, Nat.zero_le _⟩
  | pendingCreatorPayoutInvalidated =>
      rw [hevent] at h
      exact ⟨h, Nat.zero_le _⟩
  | feeRouteActivated =>
      rw [hevent] at h
      exact ⟨h, Nat.zero_le _⟩
  | acceptanceSubmitted =>
      rw [hevent] at h
      exact ⟨h, Nat.zero_le _⟩
/-! ## The rows of one kind -/

/-- What is live after some rows of different keys are inserted. -/
theorem live_inserts_iff {rows : List Body} (hkeys : (rows.map Body.key).Nodup)
    (h : rows.foldlM (insert env) t = .ok t') : c ∈ t'.live ↔
      c ∈ rows ∨ (c ∈ t.live ∧ ∀ b ∈ rows, c.key ≠ b.key) := by
  induction rows generalizing t with
  | nil =>
      obtain rfl := Except.ok.inj h
      simp
  | cons b rows ih =>
      rw [List.foldlM_cons, bind_ok] at h
      obtain ⟨u, hu, h⟩ := h
      rw [List.map_cons, List.nodup_cons] at hkeys
      rw [ih hkeys.2 h, insert_eq hu, Table.mem_live_upsert]
      simp only [List.mem_cons, forall_eq_or_imp]
      constructor
      · rintro (hc | ⟨rfl | ⟨hc, hkey⟩, hrest⟩)
        · exact .inl (.inr hc)
        · exact .inl (.inl rfl)
        · exact .inr ⟨hc, hkey, hrest⟩
      · rintro ((rfl | hc) | ⟨hc, hkey, hrest⟩)
        · refine .inr ⟨.inl rfl, fun b' hb' hkey => hkeys.1 ?_⟩
          exact List.mem_map.mpr ⟨b', hb', hkey.symm⟩
        · exact .inl hc
        · exact .inr ⟨.inr ⟨hc, hkey⟩, hrest⟩

theorem written_ledger {r : LedgerRow} :
    .ledger r ∈ written t e ↔ ledgerRowOf e = some r := by
  rw [written, ledgerRowOf]
  cases e.event <;> simp [eq_comm]

theorem written_treasury {r : TreasuryRow} (h : .treasury r ∈ written t e) :
    ∃ nonce salt, e.event = .treasuryDeployed r.tokenAddress
      r.controllerAddress r.treasuryAddress nonce salt := by
  rw [written] at h
  cases hevent : e.event <;> simp [hevent, ledgerRowOf] at h
  subst h
  exact ⟨_, _, rfl⟩

theorem written_tokenState {r : TokenStateRow} : .tokenState r ∈ written t e ↔
    ∃ m ∈ routesOf t.live e, tokenStateOf e m = some r := by
  rw [written, routesOf]
  cases hevent : e.event <;> simp [hevent, ledgerRowOf]

theorem written_proposal {r : ProposalRow} : .proposal r ∈ written t e ↔
    ∃ id, about e.event = some id ∧
      rowStep (storedProposal t e.emitter id) e = some r := by
  rw [written]
  cases hevent : e.event <;> simp [hevent, ledgerRowOf, about]
/-- The rows an event writes have different keys. -/
theorem written_keys (h : (routesOf t.live e).length ≤ 1) :
    ((written t e).map Body.key).Nodup := by
  have hrow : ∀ row : Option ProposalRow,
      ((row.toList.map Body.proposal).map Body.key).Nodup := by
    intro row
    cases row <;> simp
  rw [written]
  cases hevent : e.event with
  | activated id token treasury controller previous executor =>
      rw [List.map_append]
      refine List.Nodup.append (hrow _) ?_ ?_
      · have hlength : (List.filterMap (tokenStateOf e)
            (routesOf t.live e)).length ≤ 1 :=
          (List.length_filterMap_le _ _).trans h
        match hrows : List.filterMap (tokenStateOf e) (routesOf t.live e),
          hlength with
        | [], _ => exact List.nodup_nil
        | [r], _ => exact List.nodup_singleton _
      · intro k hk hk'
        rw [List.map_map] at hk hk'
        obtain ⟨r, -, rfl⟩ := List.mem_map.mp hk
        obtain ⟨r', -, heq⟩ := List.mem_map.mp hk'
        cases heq
  | proposed => exact hrow _
  | accepted => exact hrow _
  | ready => exact hrow _
  | cancelled => exact hrow _
  | expired => exact hrow _
  | _ => simp [ledgerRowOf, hevent]

/-! ## The row of a proposal -/

theorem storedProposal_of_live {r : ProposalRow} (h : .proposal r ∈ t.live) :
    storedProposal t r.registryAddress r.proposalId = some r := by
  have hstored : t.stored (.proposal r.registryAddress r.proposalId) =
      some (.proposal r) := Table.stored_of_live h
  rw [storedProposal, hstored]

theorem rowStep_key {row : Option ProposalRow} {r : ProposalRow} {id : Nat}
    (habout : about e.event = some id) (h : rowStep row e = some r)
    (hrow : ∀ r₀ ∈ row, r₀.registryAddress = e.emitter ∧ r₀.proposalId = id) :
    r.registryAddress = e.emitter ∧ r.proposalId = id := by
  have hchanged : ∀ r₀, (changed e r₀).registryAddress = r₀.registryAddress ∧
      (changed e r₀).proposalId = r₀.proposalId := by
    intro r₀
    rw [changed]
    cases e.event <;> exact ⟨rfl, rfl⟩
  rw [rowStep] at h
  split at h
  · next hevent =>
      obtain rfl := Option.some.inj h
      rw [hevent] at habout
      exact ⟨rfl, Option.some.inj habout⟩
  · obtain ⟨r₀, hr₀, rfl⟩ := Option.map_eq_some_iff.mp h
    rw [(hchanged r₀).1, (hchanged r₀).2]
    exact hrow r₀ hr₀

/-- The rows of a proposal carry its key. -/
theorem rowOf_key {es : List CanonicalCTOEvent} {registry : Address} {id : Nat}
    {r : ProposalRow} (h : rowOf es registry id = some r) :
    r.registryAddress = registry ∧ r.proposalId = id := by
  have hfold : ∀ (es : List CanonicalCTOEvent) (row : Option ProposalRow),
      (∀ e ∈ es, e.emitter = registry ∧ about e.event = some id) →
      (∀ r₀ ∈ row, r₀.registryAddress = registry ∧ r₀.proposalId = id) →
      ∀ r ∈ es.foldl rowStep row,
        r.registryAddress = registry ∧ r.proposalId = id := by
    intro es
    induction es with
    | nil => exact fun row _ hrow => hrow
    | cons e es ih =>
        intro row hes hrow
        obtain ⟨hemitter, habout⟩ := hes e (List.mem_cons_self ..)
        refine ih _ (fun e' he' => hes e' (List.mem_cons_of_mem _ he')) ?_
        intro r hr
        rw [← hemitter]
        exact rowStep_key habout hr fun r₀ hr₀ => hemitter ▸ hrow r₀ hr₀
  refine hfold _ none ?_ (fun r₀ hr₀ => by cases hr₀) r h
  intro e he
  simpa using (List.mem_filter.mp he).2

theorem rowOf_append (es : List CanonicalCTOEvent) (e : CanonicalCTOEvent)
    (registry : Address) (id : Nat) : rowOf (es ++ [e]) registry id =
      if e.emitter = registry ∧ about e.event = some id then
        rowStep (rowOf es registry id) e
      else rowOf es registry id := by
  rw [rowOf, List.filter_append, List.filter_singleton, List.foldl_append]
  by_cases h : e.emitter = registry ∧ about e.event = some id
  · rw [if_pos h]
    simp [h, rowOf]
  · rw [if_neg h]
    have hfalse : (decide (e.emitter = registry) &&
        decide (about e.event = some id)) = false := by
      simpa using h
    rw [hfalse]
    rfl
theorem rowStep_isSome {row : Option ProposalRow} (h : row.isSome = true)
    (e : CanonicalCTOEvent) : (rowStep row e).isSome = true := by
  rw [rowStep]
  split
  · rfl
  · rw [Option.isSome_map]
    exact h

/-- An opened proposal has a row. -/
theorem rowOf_isSome {es : List CanonicalCTOEvent} {a : CanonicalCTOEvent}
    {id : Nat} (ha : a ∈ es) (hopens : opens a.event = some id) :
    (rowOf es a.emitter id).isSome = true := by
  have hkeep : ∀ (es : List CanonicalCTOEvent) {row : Option ProposalRow},
      row.isSome = true → (es.foldl rowStep row).isSome = true := by
    intro es
    induction es with
    | nil => exact fun h => h
    | cons e es ih => exact fun h => ih (rowStep_isSome h e)
  have hmem : a ∈ es.filter fun e =>
      e.emitter = a.emitter && about e.event = some id := by
    refine List.mem_filter.mpr ⟨ha, ?_⟩
    cases hevent : a.event <;> simp_all [opens, about]
  obtain ⟨pre, post, hsplit⟩ := List.append_of_mem hmem
  rw [rowOf, hsplit, List.foldl_append, List.foldl_cons]
  refine hkeep post ?_
  rw [rowStep]
  cases hevent : a.event <;> simp_all [opens]

/-! ## What the tables hold -/

/-- **THE TABLES HOLD** what the events say. -/
structure Filled (live : List Body) (es : List CanonicalCTOEvent) (t : Rows) :
    Prop where
  proposals : ∀ r, .proposal r ∈ t.live ↔
    rowOf es r.registryAddress r.proposalId = some r
  ledger : ∀ r, .ledger r ∈ t.live ↔ ∃ e ∈ es, ledgerRowOf e = some r
  treasuries : ∀ r, .treasury r ∈ t.live → ∃ e ∈ es, ∃ nonce salt,
    e.event = .treasuryDeployed r.tokenAddress r.controllerAddress
      r.treasuryAddress nonce salt
  routed : ∀ r, .tokenState r ∈ t.live → ∃ e ∈ es,
    r.feeManagerAddress ∈ routesOf live e ∧
      tokenStateOf e r.feeManagerAddress = some r
  activated : ∀ e ∈ es, ∀ m ∈ routesOf live e, ∀ r, tokenStateOf e m = some r →
    LiveKey t (.tokenState m r.tokenAddress)

theorem filled_start {live : List Body} (h : ∀ c ∈ t.live, c.isCTO = false) :
    Filled live [] t := by
  have hnone : ∀ {c : Body}, c ∈ t.live → c.isCTO = true → False := by
    intro c hc hcto
    rw [h c hc] at hcto
    cases hcto
  refine ⟨?_, ?_, ?_, ?_, ?_⟩
  · intro r
    constructor
    · intro hr
      exact (hnone hr rfl).elim
    · intro hr
      cases hr
  · intro r
    constructor
    · intro hr
      exact (hnone hr rfl).elim
    · rintro ⟨_, he, -⟩
      exact absurd he List.not_mem_nil
  · intro r hr
    exact (hnone hr rfl).elim
  · intro r hr
    exact (hnone hr rfl).elim
  · intro _ he
    exact absurd he List.not_mem_nil

/-- The row an event writes to the ledger carries the event's place. -/
theorem ledgerRowOf_origin {r : LedgerRow} (h : ledgerRowOf e = some r) :
    r.origin = e.origin := by
  rw [ledgerRowOf] at h
  split at h
  · obtain rfl := Option.some.inj h
    rfl
  · obtain rfl := Option.some.inj h
    rfl
  · cases h

/-- An event about an opened proposal rewrites its row. -/
theorem Filled.proposals_step {live : List Body} {pre : List CanonicalCTOEvent}
    (h : Filled live pre t) (hlength : (routesOf t.live e).length ≤ 1)
    (hopened : ∀ id, updates e.event = some id →
      (rowOf pre e.emitter id).isSome = true)
    (hwritten : (written t e).foldlM (insert env) t = .ok t') (r : ProposalRow) :
    .proposal r ∈ t'.live ↔
      rowOf (pre ++ [e]) r.registryAddress r.proposalId = some r := by
  -- The stored row of an opened proposal is what its events made of it.
  have hstored : ∀ id, about e.event = some id →
      rowStep (storedProposal t e.emitter id) e =
        rowStep (rowOf pre e.emitter id) e ∧
      (rowStep (rowOf pre e.emitter id) e).isSome = true := by
    intro id habout
    cases hupdates : updates e.event with
    | none =>
        cases hevent : e.event <;>
          simp_all [about, updates, rowStep]
    | some id' =>
        obtain rfl : id' = id := by
          cases hevent : e.event <;> simp_all [about, updates]
        have hsome := hopened id' hupdates
        obtain ⟨r₀, hr₀⟩ := Option.isSome_iff_exists.mp hsome
        obtain ⟨hregistry, hid⟩ := rowOf_key hr₀
        have hlive := (h.proposals r₀).mpr (by rw [hregistry, hid]; exact hr₀)
        have hrow := storedProposal_of_live hlive
        rw [hregistry, hid] at hrow
        exact ⟨by rw [hrow, hr₀], rowStep_isSome hsome e⟩
  rw [live_inserts_iff (written_keys hlength) hwritten, written_proposal,
    rowOf_append]
  by_cases hmatch : e.emitter = r.registryAddress ∧
      about e.event = some r.proposalId
  · obtain ⟨hemitter, habout⟩ := hmatch
    obtain ⟨hsame, hsome⟩ := hstored r.proposalId habout
    rw [if_pos ⟨hemitter, habout⟩, ← hemitter, ← hsame]
    constructor
    · rintro (⟨id, hid, hstep⟩ | ⟨-, hkey⟩)
      · obtain rfl := Option.some.inj (habout.symm.trans hid)
        exact hstep
      · -- The row is overwritten.
        obtain ⟨r', hr'⟩ := Option.isSome_iff_exists.mp hsome
        obtain ⟨hregistry', hid'⟩ := rowStep_key habout hr'
          fun r₀ hr₀ => rowOf_key hr₀
        refine absurd ?_ (hkey (.proposal r')
          (written_proposal.mpr ⟨_, habout, hsame.trans hr'⟩))
        show Key.proposal _ _ = Key.proposal _ _
        rw [hregistry', hid', hemitter]
    · intro hstep
      exact .inl ⟨_, habout, hstep⟩
  · rw [if_neg hmatch, ← h.proposals r]
    have hother : ∀ id r', about e.event = some id →
        rowStep (storedProposal t e.emitter id) e = some r' →
        (Body.proposal r).key ≠ (Body.proposal r').key := by
      intro id r' habout hstep hkey
      rw [(hstored id habout).1] at hstep
      obtain ⟨hregistry', hid'⟩ := rowStep_key habout hstep
        fun r₀ hr₀ => rowOf_key hr₀
      injection hkey with hregistry hid
      exact hmatch ⟨hregistry'.symm.trans hregistry.symm,
        by rw [habout, hid, hid']⟩
    constructor
    · rintro (⟨id, habout, hstep⟩ | ⟨hr, -⟩)
      · exact absurd rfl (hother id r habout hstep)
      · exact hr
    · intro hr
      refine .inr ⟨hr, ?_⟩
      intro b hb hkey
      cases b with
      | proposal r' =>
          obtain ⟨id, habout, hstep⟩ := written_proposal.mp hb
          exact hother id r' habout hstep hkey
      | _ => cases hkey

/-- **ONE EVENT** fills the tables further. -/
theorem Filled.step {live : List Body} {pre : List CanonicalCTOEvent}
    (h : Filled live pre t) (hroutes : routesOf t.live e = routesOf live e)
    (hopened : ∀ id, updates e.event = some id →
      (rowOf pre e.emitter id).isSome = true)
    (hdistinct : ∀ a ∈ pre, a.origin.key .ctoCreatorFeeCheckpointLedger ≠
      e.origin.key .ctoCreatorFeeCheckpointLedger)
    (hstep : projectCanonicalCTOEvent env t e = .ok t') :
    Filled live (pre ++ [e]) t' := by
  obtain ⟨hwritten, hlength⟩ := projectCanonicalCTOEvent_written hstep
  have hlive := fun {c : Body} =>
    live_inserts_iff (c := c) (written_keys hlength) hwritten
  have hlast : e ∈ pre ++ [e] :=
    List.mem_append_right _ (List.mem_singleton_self e)
  refine ⟨h.proposals_step hlength hopened hwritten, ?_, ?_, ?_, ?_⟩
  · intro r
    rw [hlive, written_ledger]
    constructor
    · rintro (hr | ⟨hr, -⟩)
      · exact ⟨e, hlast, hr⟩
      · obtain ⟨a, ha, hr⟩ := (h.ledger r).mp hr
        exact ⟨a, List.mem_append_left _ ha, hr⟩
    · rintro ⟨a, ha, hr⟩
      rcases List.mem_append.mp ha with ha | ha
      · refine .inr ⟨(h.ledger r).mpr ⟨a, ha, hr⟩, ?_⟩
        intro b hb hkey
        cases b with
        | ledger r' =>
            refine hdistinct a ha ?_
            rw [← ledgerRowOf_origin hr,
              ← ledgerRowOf_origin (written_ledger.mp hb)]
            exact hkey
        | _ => cases hkey
      · obtain rfl := List.mem_singleton.mp ha
        exact .inl hr
  · intro r hr
    rcases hlive.mp hr with hr | ⟨hr, -⟩
    · exact ⟨e, hlast, written_treasury hr⟩
    · obtain ⟨a, ha, hevent⟩ := h.treasuries r hr
      exact ⟨a, List.mem_append_left _ ha, hevent⟩
  · intro r hr
    rcases hlive.mp hr with hr | ⟨hr, -⟩
    · obtain ⟨m, hm, hrow⟩ := written_tokenState.mp hr
      have hmanager : r.feeManagerAddress = m := by
        rw [tokenStateOf] at hrow
        split at hrow
        · obtain rfl := Option.some.inj hrow
          rfl
        · cases hrow
      subst hmanager
      exact ⟨e, hlast, hroutes ▸ hm, hrow⟩
    · obtain ⟨a, ha, hrow⟩ := h.routed r hr
      exact ⟨a, List.mem_append_left _ ha, hrow⟩
  · intro a ha m hm r hrow
    rcases List.mem_append.mp ha with ha | ha
    · exact (h.activated a ha m hm r hrow).project hstep
    · obtain rfl := List.mem_singleton.mp ha
      have hmem : .tokenState r ∈ written t a :=
        written_tokenState.mpr ⟨m, hroutes.symm ▸ hm, hrow⟩
      refine ⟨.tokenState r, hlive.mpr (.inl hmem), ?_⟩
      rw [tokenStateOf] at hrow
      split at hrow
      · obtain rfl := Option.some.inj hrow
        rfl
      · cases hrow

/-! ## After a rebuild -/

theorem eventsOf_nodup (t : Rows) : (eventsOf t.live).Nodup := by
  rw [eventsOf, (Keyset.orderBy_perm _ _).nodup_iff]
  refine t.live_nodup.filterMap ?_
  intro a b r ha hb
  cases a with
  | event r' =>
      cases b with
      | event r'' =>
          obtain rfl := Option.some.inj ha
          obtain rfl := Option.some.inj hb
          rfl
      | _ => cases hb
  | _ => cases ha

/-- Two CTO events of live rows stand at different logs. -/
theorem ctoEvents_distinct (t : Rows) : (ctoEvents t.live).Pairwise fun a b =>
    a.origin.key .ctoCreatorFeeCheckpointLedger ≠
      b.origin.key .ctoCreatorFeeCheckpointLedger := by
  have hrows : (eventsOf t.live).Pairwise fun a b =>
      a.origin.key .chainEvents ≠ b.origin.key .chainEvents := by
    refine (eventsOf_nodup t).imp_of_mem ?_
    intro a b ha hb hne hkey
    exact hne (Body.event.inj (Table.live_eq_of_key (mem_eventsOf.mp ha)
      (mem_eventsOf.mp hb) hkey))
  rw [ctoEvents_eq]
  refine List.pairwise_filterMap.mpr (hrows.imp ?_)
  intro a b hne x hx y hy hkey
  rw [(ctoEventOf_some hx).2.2, (ctoEventOf_some hy).2.2] at hkey
  refine hne ?_
  injection hkey with _ htx hindex
  exact congrArg₂ (Key.log .chainEvents) htx hindex

/-- **AFTER A REBUILD** the tables hold what the live events say. -/
theorem filled_rebuild (hopened : Opened (ctoEvents t.live))
    (h : rebuildCTOTx env t = .ok t') :
    Filled t.live (ctoEvents t.live) t' := by
  rw [rebuildCTOTx, ctoEvents_same (orphan_outside t)] at h
  refine (foldlM_run (P := fun pre v => SameOutside v t ∧
    Filled t.live pre v) _ ?_ h ⟨orphan_outside t, filled_start ?_⟩).2
  · rintro pre e post v v' hsplit hstep ⟨hsame, hfilled⟩
    refine ⟨(projectCanonicalCTOEvent_outside hstep).trans hsame,
      hfilled.step ?_ ?_ ?_ hstep⟩
    · rw [routesOf, routesOf, feeRoutes_same hsame]
    · intro id hid
      obtain ⟨a, ha, hemitter, hopens⟩ := hopened pre e post id hsplit hid
      rw [← hemitter]
      exact rowOf_isSome ha hopens
    · intro a ha
      have hdistinct := ctoEvents_distinct t
      rw [hsplit] at hdistinct
      exact (List.pairwise_append.mp hdistinct).2.2 a ha e
        (List.mem_cons_self ..)
  · intro c hc
    rw [Table.live_orphan, List.mem_filter] at hc
    simpa using hc.2

end
/-! ## After a chain -/

section
variable {env : Env} {bs : List Block} {s : Store}

/-- **AFTER A CHAIN** the tables hold what the live events say. -/
theorem filled_applyAll (hserved : Served env bs)
    (h : applyAll env fresh bs = .ok s) :
    Filled s.rows.live (ctoEvents s.rows.live) s.rows := by
  have hcanon := canon_applyAll hserved h
  obtain ⟨u, d, hfinish⟩ := hcanon.settled
  have hsame := (finish_spec hfinish).1
  rw [finish, bind_ok] at hfinish
  obtain ⟨v, hv, hfinish⟩ := hfinish
  dsimp only at hfinish
  split at hfinish
  · obtain rfl := Except.ok.inj hfinish
    have hopened : Opened (ctoEvents u.live) := by
      rw [← ctoEvents_same hsame]
      exact opened_ctoEvents hcanon.grounded hcanon.complete hserved
    have hfilled := filled_rebuild hopened hv
    rw [← ctoEvents_same hsame] at hfilled
    refine ⟨hfilled.proposals, hfilled.ledger, hfilled.treasuries, ?_, ?_⟩
    · intro r hr
      obtain ⟨e, he, hm, hrow⟩ := hfilled.routed r hr
      refine ⟨e, he, ?_, hrow⟩
      rw [routesOf, feeRoutes_same hsame]
      exact hm
    · intro e he m hm
      rw [routesOf, feeRoutes_same hsame] at hm
      exact hfilled.activated e he m hm
  · cases hfinish

/-- A chain that was applied is a history. -/
theorem history_applyAll (hserved : Served env bs)
    (h : applyAll env fresh bs = .ok s) : History env bs s := by
  induction bs using List.reverseRecOn generalizing s with
  | nil =>
      obtain rfl := Except.ok.inj h
      exact .start
  | append_singleton bs b ih =>
      rw [applyAll_append, bind_ok] at h
      obtain ⟨s₀, h₀, h⟩ := h
      have hbelow : below b.number bs = bs :=
        below_eq_self fun c hc => hserved.lt_last hc
      have hnext := History.apply (ih hserved.init h₀)
        (fun c hc => (hserved.lt_last hc).le)
        (fun c hc hnumber => absurd (hserved.lt_last hc) (by omega))
        (by rw [hbelow]; exact hserved) h
      rwa [hbelow] at hnext

/-- A live event row is that of a log that was selected. -/
theorem selected_applyAll (hserved : Served env bs)
    (h : applyAll env fresh bs = .ok s) {r : EventRow}
    (hr : .event r ∈ s.rows.live) : ∃ l, LogOf bs l ∧ r = eventRow l ∧
      ∃ look, selected env look l = true := by
  induction bs using List.reverseRecOn generalizing s r with
  | nil =>
      obtain rfl := Except.ok.inj h
      exact absurd hr List.not_mem_nil
  | append_singleton bs b ih =>
      rw [applyAll_append, bind_ok] at h
      obtain ⟨s₀, h₀, h⟩ := h
      rw [applyWithProvenance_eq, bind_ok] at h
      obtain ⟨t, ht, hfinish⟩ := h
      obtain ⟨u, hu, hlogs⟩ := logged_ok ht
      rw [(finish_spec hfinish).1 _ rfl] at hr
      revert r
      refine foldlM_keeps (P := fun v => ∀ {r : EventRow}, .event r ∈ v.live →
        ∃ l, LogOf (bs ++ [b]) l ∧ r = eventRow l ∧
          ∃ look, selected env look l = true) b.logs ?_ hlogs ?_
      · intro l hl v v' hv hall r hr
        rcases live_insertEvent (applyLog_ok hv).2.2 hr with hr | ⟨hwrote, hsel⟩
        · exact hall hr
        · exact ⟨l, ⟨b, List.mem_append_right _ (List.mem_singleton_self b), hl⟩,
            hwrote.event r rfl, _, hsel⟩
      · intro r hr
        rw [insert_eq hu, Table.mem_live_upsert, Table.live_orphan,
          List.mem_filter] at hr
        rcases hr with heq | ⟨⟨hr, -⟩, -⟩
        · cases heq
        · obtain ⟨l, ⟨c, hc, hl⟩, hrow⟩ := ih hserved.init h₀ hr
          exact ⟨l, ⟨c, List.mem_append_left _ hc, hl⟩, hrow⟩

end

end IndexerStore
