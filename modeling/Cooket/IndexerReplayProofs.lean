import Cooket.IndexerQueriesProofs
import Cooket.LockstepProofs

/-! # Writing the same to two databases

    A transaction of the indexer run on two databases with the same live rows
    ENDS THE SAME WAY in both: with the same error, or with the same live rows
    again.

    One statement of the indexer finds rows that are not live: the `UPDATE` of
    a proposal names the row by its primary key, and PostgreSQL may hold a
    withdrawn row there.  The CTO tables are refilled from the events in their
    order, so the row is live when the proposal was opened by an EARLIER EVENT;
    then no withdrawn row is ever updated (`Opened`). -/

namespace IndexerStore

open CheckedArith Contract IndexerEvents Keyset Lockstep RowTable TradeRows

/-! ## One row -/

section
variable {env : Env} {t t' u : Rows} {b c : Body}

/-- Only rows outside the CTO tables clash with one outside them. -/
theorem clashes_outside (hb : b.isCTO = false) (h : b.clashes c = true) :
    c.isCTO = false := by
  rw [Body.clashes, Bool.and_eq_true, List.any_eq_true] at h
  obtain ⟨-, k, hk, hkey⟩ := h
  cases b with
  | block r =>
      -- A block's entry is its height, and only blocks have one.
      obtain rfl : k = .blockHeight r.blockNumber := by
        simpa [Body.uniqueKeys] using hkey
      cases c <;> first | rfl | simp [Body.uniqueKeys] at hk
  | event r => cases hkey
  | token r => cases hkey
  | curve r => cases hkey
  | trade r => cases hkey
  | graduation r => cases hkey
  | liquidityEvent r => cases hkey
  | _ => cases hb

theorem clashes_same (h : t.Same u) (b : Body) :
    t.live.any b.clashes = u.live.any b.clashes :=
  h.perm.any_eq

theorem insert_both (h : t.Same u) (b : Body) :
    Both Table.Same (insert env t b) (insert env u b) := by
  rw [insert, insert, clashes_same h]
  split
  · exact .error _
  · split
    · exact .error _
    · exact .ok (h.upsert b)

/-- A row outside the CTO tables needs the other rows outside them only. -/
theorem insert_outside_both (hb : b.isCTO = false) (h : SameOutside t u) :
    Both SameOutside (insert env t b) (insert env u b) := by
  have hclashes : t.live.any b.clashes = u.live.any b.clashes := by
    rw [Bool.eq_iff_iff, List.any_eq_true, List.any_eq_true]
    constructor
    · rintro ⟨c, hc, hclash⟩
      exact ⟨c, (h c (clashes_outside hb hclash)).mp hc, hclash⟩
    · rintro ⟨c, hc, hclash⟩
      exact ⟨c, (h c (clashes_outside hb hclash)).mpr hc, hclash⟩
  rw [insert, insert, hclashes]
  split
  · exact .error _
  · split
    · exact .error _
    · refine .ok fun c hc => ?_
      rw [Table.mem_live_upsert, Table.mem_live_upsert, h c hc]

end

/-! ## Keys that are live -/

/-- Some live row has the key. -/
def LiveKey (t : Rows) (k : Key) : Prop := ∃ c ∈ t.live, c.key = k

section
variable {env : Env} {t t' u : Rows} {b : Body} {k : Key}

theorem LiveKey.of_same (h : t.Same u) (hk : LiveKey t k) : LiveKey u k := by
  obtain ⟨c, hc, hkey⟩ := hk
  exact ⟨c, (h c).mp hc, hkey⟩

/-- Inserts withdraw no key. -/
theorem LiveKey.insert (hk : LiveKey t k) (h : insert env t b = .ok t') :
    LiveKey t' k := by
  obtain ⟨c, hc, rfl⟩ := hk
  rw [insert_eq h]
  by_cases hkey : c.key = b.key
  · exact ⟨b, Table.mem_live_upsert.mpr (.inl rfl), hkey.symm⟩
  · exact ⟨c, Table.mem_live_upsert.mpr (.inr ⟨hc, hkey⟩), rfl⟩

theorem LiveKey.inserts {rows : List Body} (hk : LiveKey t k)
    (h : rows.foldlM (IndexerStore.insert env) t = .ok t') : LiveKey t' k :=
  foldlM_keeps (P := fun v => LiveKey v k) rows
    (fun _ _ _ _ hstep hk => hk.insert hstep) h hk

/-- Inserted keys are live. -/
theorem liveKey_inserted {rows : List Body}
    (h : rows.foldlM (IndexerStore.insert env) t = .ok t') (hb : b ∈ rows) :
    LiveKey t' b.key := by
  obtain ⟨pre, post, rfl⟩ := List.append_of_mem hb
  rw [List.foldlM_append, bind_ok] at h
  obtain ⟨v, -, h⟩ := h
  rw [List.foldlM_cons, bind_ok] at h
  obtain ⟨w, hw, h⟩ := h
  refine LiveKey.inserts ⟨b, ?_, rfl⟩ h
  rw [insert_eq hw]
  exact Table.mem_live_upsert.mpr (.inl rfl)

/-- A live row was live before the inserts, or is one of them. -/
theorem live_inserts {rows : List Body} {c : Body}
    (h : rows.foldlM (IndexerStore.insert env) t = .ok t') (hc : c ∈ t'.live) :
    c ∈ t.live ∨ c ∈ rows := by
  revert c
  refine foldlM_keeps (P := fun v => ∀ {c}, c ∈ v.live → c ∈ t.live ∨ c ∈ rows)
    rows ?_ h .inl
  intro b hb v v' hv hlive c hc
  rw [insert_eq hv, Table.mem_live_upsert] at hc
  rcases hc with rfl | ⟨hc, -⟩
  · exact .inr hb
  · exact hlive hc

/-- The row under a live proposal key is a proposal, and the one an `UPDATE`
    finds. -/
theorem stored_proposal {registry : Address} {id : Nat}
    (hk : LiveKey t (.proposal registry id)) :
    ∃ r, .proposal r ∈ t.live ∧ (Body.proposal r).key = .proposal registry id ∧
      t.stored (.proposal registry id) = some (.proposal r) := by
  obtain ⟨c, hc, hkey⟩ := hk
  have hstored := Table.stored_of_live hc
  rw [hkey] at hstored
  cases c with
  | proposal r => exact ⟨r, hc, hkey, hstored⟩
  | _ => cases hkey

end

/-! ## One event of the CTO tables -/

/-- The proposal an event opens. -/
def opens : CTOEvent → Option Nat
  | .proposed id .. => some id
  | _ => none

/-- The proposal an event changes. -/
def updates : CTOEvent → Option Nat
  | .accepted id .. | .ready id .. | .cancelled id .. | .expired id ..
  | .activated id .. => some id
  | _ => none

/-- What an event writes: a treasury's row only for a deployment, and the row
    of the proposal it opens. -/
structure Writes (e : CanonicalCTOEvent) (rows : List Body) : Prop where
  treasury : ∀ r, .treasury r ∈ rows →
    (∃ token controller nonce salt, e.event =
      .treasuryDeployed token controller r.treasuryAddress nonce salt) ∧
    r.origin = e.origin
  opened : ∀ id, opens e.event = some id →
    ∃ c ∈ rows, c.key = .proposal e.emitter id

section
variable {env : Env} {t t' u : Rows} {e : CanonicalCTOEvent}

theorem Writes.nil (h : opens e.event = none) : Writes e [] where
  treasury r hr := absurd hr List.not_mem_nil
  opened id hid := by
    rw [h] at hid
    cases hid

theorem Writes.single {b : Body} (h : opens e.event = none)
    (hb : ∀ r, b ≠ .treasury r) : Writes e [b] where
  treasury r hr := absurd (List.mem_singleton.mp hr).symm (hb r)
  opened id hid := by
    rw [h] at hid
    cases hid

theorem insert_single {b : Body} (h : insert env t b = .ok t') :
    [b].foldlM (insert env) t = .ok t' := by
  rw [List.foldlM_cons, h]
  rfl

/-- An `UPDATE` inserts the changed row, or nothing. -/
theorem updateProposal_inserts {registry : Address} {id : Nat}
    {f : ProposalRow → ProposalRow}
    (h : updateProposal env t registry id f = .ok t') :
    ∃ rows : List Body, rows.foldlM (insert env) t = .ok t' ∧
      ∀ b ∈ rows, ∃ r, b = .proposal r := by
  rw [updateProposal] at h
  split at h
  · next r _ =>
      refine ⟨[.proposal (f r)], insert_single h, fun b hb => ?_⟩
      exact ⟨f r, List.mem_singleton.mp hb⟩
  · exact ⟨[], h, fun b hb => absurd hb List.not_mem_nil⟩

/-- The rows of an event that opens nothing and deploys nothing. -/
theorem Writes.of_ne {rows : List Body} (h : opens e.event = none)
    (hrows : ∀ b ∈ rows, ∀ r, b ≠ .treasury r) : Writes e rows where
  treasury r hr := absurd rfl (hrows _ hr r)
  opened id hid := by
    rw [h] at hid
    cases hid

/-- **AN EVENT INSERTS ITS ROWS**. -/
theorem projectCanonicalCTOEvent_inserts
    (h : projectCanonicalCTOEvent env t e = .ok t') :
    ∃ rows : List Body, rows.foldlM (insert env) t = .ok t' ∧ Writes e rows := by
  have hupdate : ∀ {v v' : Rows} {registry : Address} {id : Nat}
      {f : ProposalRow → ProposalRow}, opens e.event = none →
      updateProposal env v registry id f = .ok v' →
      ∃ rows : List Body, rows.foldlM (insert env) v = .ok v' ∧ Writes e rows := by
    intro v v' registry id f hopens hv
    obtain ⟨rows, hrows, hall⟩ := updateProposal_inserts hv
    refine ⟨rows, hrows, .of_ne hopens fun b hb r => ?_⟩
    obtain ⟨p, rfl⟩ := hall b hb
    exact Body.noConfusion
  have hsingle : ∀ {b : Body}, opens e.event = none → (∀ r, b ≠ .treasury r) →
      insert env t b = .ok t' →
      ∃ rows : List Body, rows.foldlM (insert env) t = .ok t' ∧ Writes e rows :=
    fun hopens hb hv => ⟨[_], insert_single hv, .single hopens hb⟩
  rw [projectCanonicalCTOEvent] at h
  cases hevent : e.event with
  | treasuryDeployed token controller treasury nonce salt =>
      rw [hevent] at h
      refine ⟨_, insert_single h, ?_, ?_⟩
      · intro r hr
        obtain rfl := Body.treasury.inj (List.mem_singleton.mp hr)
        exact ⟨⟨token, controller, nonce, salt, hevent⟩, rfl⟩
      · intro id hid
        rw [hevent] at hid
        cases hid
  | proposed id =>
      rw [hevent] at h
      refine ⟨_, insert_single h, ?_, ?_⟩
      · intro r hr
        cases List.mem_singleton.mp hr
      · intro id' hid
        rw [hevent] at hid
        obtain rfl := Option.some.inj hid
        exact ⟨_, List.mem_singleton_self _, rfl⟩
  | accepted => rw [hevent] at h; exact hupdate (by rw [hevent]; rfl) h
  | ready => rw [hevent] at h; exact hupdate (by rw [hevent]; rfl) h
  | cancelled => rw [hevent] at h; exact hupdate (by rw [hevent]; rfl) h
  | expired => rw [hevent] at h; exact hupdate (by rw [hevent]; rfl) h
  | activated id token treasury controller previous executor =>
      rw [hevent] at h
      dsimp only at h
      rw [bind_ok] at h
      obtain ⟨v, hv, h⟩ := h
      have hopens : opens e.event = none := by rw [hevent]; rfl
      obtain ⟨rows, hrows, hwrites⟩ := hupdate hopens hv
      split at h
      · obtain rfl := Except.ok.inj h
        exact ⟨rows, hrows, hwrites⟩
      · next feeManager _ =>
          refine ⟨rows ++ [.tokenState ⟨feeManager, token, e.emitter, treasury,
            id, previous, e.origin⟩], ?_, .of_ne hopens ?_⟩
          · rw [List.foldlM_append, hrows]
            exact insert_single h
          · intro b hb r heq
            subst heq
            rcases List.mem_append.mp hb with hb | hb
            · obtain ⟨⟨_, _, _, _, hdeployed⟩, -⟩ := hwrites.treasury r hb
              rw [hevent] at hdeployed
              cases hdeployed
            · cases List.mem_singleton.mp hb
      · cases h
  | creatorFeeCheckpointed =>
      rw [hevent] at h
      exact hsingle (by rw [hevent]; rfl) (fun _ => Body.noConfusion) h
  | checkpointedCreatorFeesClaimed =>
      rw [hevent] at h
      exact hsingle (by rw [hevent]; rfl) (fun _ => Body.noConfusion) h
  | supportedAssetRegistered =>
      rw [hevent] at h
      exact hsingle (by rw [hevent]; rfl) (fun _ => Body.noConfusion) h
  | treasuryAssetTransferred =>
      rw [hevent] at h
      exact hsingle (by rw [hevent]; rfl) (fun _ => Body.noConfusion) h
  | creatorFeesPulled =>
      rw [hevent] at h
      exact hsingle (by rw [hevent]; rfl) (fun _ => Body.noConfusion) h
  | pendingCreatorPayoutInvalidated =>
      rw [hevent] at h
      exact ⟨[], h, .nil (by rw [hevent]; rfl)⟩
  | feeRouteActivated =>
      rw [hevent] at h
      exact ⟨[], h, .nil (by rw [hevent]; rfl)⟩
  | acceptanceSubmitted =>
      rw [hevent] at h
      exact ⟨[], h, .nil (by rw [hevent]; rfl)⟩

/-- An `UPDATE` of a proposal that is live changes the same row. -/
theorem updateProposal_both {registry : Address} {id : Nat}
    (f : ProposalRow → ProposalRow) (h : t.Same u)
    (hlive : LiveKey t (.proposal registry id)) :
    Both Table.Same (updateProposal env t registry id f)
      (updateProposal env u registry id f) := by
  obtain ⟨r, hr, hkey, hstored⟩ := stored_proposal hlive
  obtain ⟨r', hr', hkey', hstored'⟩ := stored_proposal (hlive.of_same h)
  -- Both are the live row of that key.
  obtain rfl : r = r' := Body.proposal.inj
    (Table.live_eq_of_key ((h _).mp hr) hr' (hkey.trans hkey'.symm))
  rw [updateProposal, updateProposal, hstored, hstored']
  exact insert_both h _

/-- **AN EVENT WRITES THE SAME** to both databases when the proposal it changes
    is live. -/
theorem projectCanonicalCTOEvent_both (h : t.Same u)
    (hlive : ∀ id, updates e.event = some id →
      LiveKey t (.proposal e.emitter id)) :
    Both Table.Same (projectCanonicalCTOEvent env t e)
      (projectCanonicalCTOEvent env u e) := by
  rw [projectCanonicalCTOEvent, projectCanonicalCTOEvent]
  cases hevent : e.event with
  | treasuryDeployed => exact insert_both h _
  | proposed => exact insert_both h _
  | accepted =>
      exact updateProposal_both _ h (hlive _ (by rw [hevent]; rfl))
  | ready => exact updateProposal_both _ h (hlive _ (by rw [hevent]; rfl))
  | cancelled => exact updateProposal_both _ h (hlive _ (by rw [hevent]; rfl))
  | expired => exact updateProposal_both _ h (hlive _ (by rw [hevent]; rfl))
  | activated id token treasury controller previous executor =>
      refine (updateProposal_both _ h (hlive _ (by rw [hevent]; rfl))).bind ?_
      intro v w _ _ hvw
      rw [feeRoutes_same (.of_same hvw)]
      split
      · exact .ok hvw
      · exact insert_both hvw _
      · exact .error _
  | creatorFeeCheckpointed => exact insert_both h _
  | checkpointedCreatorFeesClaimed => exact insert_both h _
  | supportedAssetRegistered => exact insert_both h _
  | treasuryAssetTransferred => exact insert_both h _
  | creatorFeesPulled => exact insert_both h _
  | pendingCreatorPayoutInvalidated => exact .ok h
  | feeRouteActivated => exact .ok h
  | acceptanceSubmitted => exact .ok h

/-- Events withdraw no key. -/
theorem LiveKey.project {k : Key} (hk : LiveKey t k)
    (h : projectCanonicalCTOEvent env t e = .ok t') : LiveKey t' k := by
  obtain ⟨rows, hrows, -⟩ := projectCanonicalCTOEvent_inserts h
  exact hk.inserts hrows

end

/-! ## Refilling the CTO tables -/

/-- Every proposal that is changed was opened earlier by the same registry. -/
def Opened (es : List CanonicalCTOEvent) : Prop :=
  ∀ pre e post id, es = pre ++ e :: post → updates e.event = some id →
    ∃ a ∈ pre, a.emitter = e.emitter ∧ opens a.event = some id

section
variable {env : Env} {t t' u : Rows}

/-- Starting the CTO tables from scratch touches no other table. -/
theorem orphan_outside (t : Rows) : SameOutside (t.orphan Body.isCTO) t := by
  intro b hb
  rw [Table.live_orphan, List.mem_filter, hb]
  simp

/-- **REFILLING THE CTO TABLES** ends the same way in both databases. -/
theorem rebuildCTOTx_both (h : SameOutside t u)
    (hopened : Opened (ctoEvents t.live)) :
    Both Table.Same (rebuildCTOTx env t) (rebuildCTOTx env u) := by
  have hstart : (t.orphan Body.isCTO).Same (u.orphan Body.isCTO) := by
    intro b
    rw [Table.live_orphan, Table.live_orphan, List.mem_filter, List.mem_filter]
    constructor
    · rintro ⟨hb, hcto⟩
      exact ⟨(h b (by simpa using hcto)).mp hb, hcto⟩
    · rintro ⟨hb, hcto⟩
      exact ⟨(h b (by simpa using hcto)).mpr hb, hcto⟩
  rw [rebuildCTOTx, rebuildCTOTx]
  rw [← ctoEvents_same (.of_same hstart), ctoEvents_same (orphan_outside t)]
  -- Besides the live rows, the proposals opened so far are live.
  refine (Both.foldlM_prefix (R := fun pre v w => v.Same w ∧
    ∀ a ∈ pre, ∀ id, opens a.event = some id →
      LiveKey v (.proposal a.emitter id)) _ ?_ ⟨hstart, ?_⟩).mono
    fun _ _ hvw => hvw.1
  · rintro pre e post v w hsplit ⟨hvw, hlive⟩
    refine ((projectCanonicalCTOEvent_both hvw fun id hid => ?_).and
      (P := fun v' => ∀ a ∈ pre ++ [e], ∀ id, opens a.event = some id →
        LiveKey v' (.proposal a.emitter id)) (Q := fun _ => True) ?_
      (fun _ _ => trivial)).mono fun _ _ hvw => ⟨hvw.1, hvw.2.1⟩
    · obtain ⟨a, ha, hemitter, hopens⟩ := hopened pre e post id hsplit hid
      rw [← hemitter]
      exact hlive a ha id hopens
    · intro v' hv' a ha id hid
      rcases List.mem_append.mp ha with ha | ha
      · exact (hlive a ha id hid).project hv'
      · obtain rfl := List.mem_singleton.mp ha
        obtain ⟨rows, hrows, hwrites⟩ := projectCanonicalCTOEvent_inserts hv'
        obtain ⟨c, hc, hkey⟩ := hwrites.opened id hid
        exact hkey ▸ liveKey_inserted hrows hc
  · intro a ha
    exact absurd ha List.not_mem_nil

/-- A treasury's row comes from the event that deployed it. -/
theorem rebuildCTOTx_treasury (h : rebuildCTOTx env t = .ok t') {r : TreasuryRow}
    (hr : .treasury r ∈ t'.live) :
    ∃ e ∈ ctoEvents t.live, (∃ token controller nonce salt, e.event =
      .treasuryDeployed token controller r.treasuryAddress nonce salt) ∧
      r.origin = e.origin := by
  rw [rebuildCTOTx] at h
  rw [ctoEvents_same (orphan_outside t)] at h
  revert r
  refine foldlM_keeps (P := fun v => ∀ {r : TreasuryRow}, .treasury r ∈ v.live →
    ∃ e ∈ ctoEvents t.live, (∃ token controller nonce salt, e.event =
      .treasuryDeployed token controller r.treasuryAddress nonce salt) ∧
      r.origin = e.origin) _ ?_ h ?_
  · intro e he v v' hv hall r hr
    obtain ⟨rows, hrows, hwrites⟩ := projectCanonicalCTOEvent_inserts hv
    rcases live_inserts hrows hr with hr | hr
    · exact hall hr
    · exact ⟨e, he, hwrites.treasury r hr⟩
  · intro r hr
    rw [Table.live_orphan, List.mem_filter] at hr
    cases hr.2

/-- The databases show the same: the live rows and what is recomputed. -/
def SameStore (s s' : Store) : Prop :=
  s.rows.Same s'.rows ∧ s.derived = s'.derived

/-- **THE END OF A TRANSACTION** is the same in both databases. -/
theorem finish_both (h : SameOutside t u) (hopened : Opened (ctoEvents t.live))
    (c d : Option (Nat × Option Hash)) :
    Both SameStore (finish env t c) (finish env u d) := by
  rw [finish, finish]
  refine (rebuildCTOTx_both h hopened).bind ?_
  intro v w _ _ hvw
  dsimp only
  rw [rebuild_same env (.of_same hvw)]
  split
  · exact .ok ⟨hvw, rfl⟩
  · exact .error _

end

end IndexerStore
