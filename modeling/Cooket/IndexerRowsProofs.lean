import Cooket.IndexerAnalyticsProofs

/-! # What applying a block leaves in the tables

    Applying a block withdraws the rows of other blocks at its height, inserts
    the rows of its logs one log after the other, and then empties and refills
    the CTO tables.  Every row of a log is stored under the transaction and the
    index of that log, so ROWS OF OTHER LOGS ARE NOT TOUCHED
    (`insertEvent_frame`), and the refilling touches no table but the CTO
    tables (`finish_spec`).

    `Holds` says of one kind of event rows which logs they come from; one log
    adds itself (`Holds.insertEvent`), a block adds its logs
    (`Holds.applyWithProvenance`). -/

namespace IndexerStore

open CheckedArith Contract IndexerEvents RowTable TradeRows

/-! ## Inserting rows -/

section
variable {env : Env} {t t' : Rows} {b c : Body}

/-- An insert that goes through is an upsert. -/
theorem insert_eq (h : insert env t b = .ok t') : t' = t.upsert b := by
  rw [insert] at h
  split at h
  · cases h
  · split at h
    · cases h
    · exact (Except.ok.inj h).symm

/-- Rows of other keys survive a list of inserts. -/
theorem inserts_frame (rows : List Body) (hkey : ∀ b ∈ rows, c.key ≠ b.key)
    (h : rows.foldlM (insert env) t = .ok t') : c ∈ t'.live ↔ c ∈ t.live := by
  induction rows generalizing t with
  | nil =>
      obtain rfl := Except.ok.inj h
      exact Iff.rfl
  | cons b rows ih =>
      rw [List.foldlM_cons, bind_ok] at h
      obtain ⟨u, hu, h⟩ := h
      have hne := hkey b (List.mem_cons_self ..)
      rw [ih (fun b' hb' => hkey b' (List.mem_cons_of_mem _ hb')) h,
        insert_eq hu, Table.mem_live_upsert]
      constructor
      · rintro (rfl | ⟨hc, -⟩)
        · exact absurd rfl hne
        · exact hc
      · intro hc
        exact .inr ⟨hc, hne⟩

/-- A row that is inserted, and not overwritten after that, is live. -/
theorem inserted_live (rows rest : List Body)
    (hkey : ∀ b' ∈ rest, b.key ≠ b'.key)
    (h : (rows ++ b :: rest).foldlM (insert env) t = .ok t') : b ∈ t'.live := by
  rw [List.foldlM_append, bind_ok] at h
  obtain ⟨u, -, h⟩ := h
  rw [List.foldlM_cons, bind_ok] at h
  obtain ⟨v, hv, h⟩ := h
  rw [inserts_frame rest hkey h, insert_eq hv, Table.mem_live_upsert]
  exact .inl rfl

end

/-! ## The CTO tables and the others -/

/-- The key belongs to a table `rebuildCTOTx` starts from scratch. -/
def Key.isCTO : Key → Bool
  | .block _ => false
  | .log .chainEvents _ _ | .log .tokens _ _ | .log .curves _ _
  | .log .trades _ _ | .log .graduations _ _ | .log .liquidityEvents _ _ => false
  | _ => true

theorem isCTO_key (b : Body) : b.key.isCTO = b.isCTO := by
  cases b <;> rfl

/-- The tables have the same live rows outside the CTO tables. -/
def SameOutside (t u : Rows) : Prop :=
  ∀ b : Body, b.isCTO = false → (b ∈ t.live ↔ b ∈ u.live)

theorem SameOutside.refl (t : Rows) : SameOutside t t := fun _ _ => Iff.rfl

theorem SameOutside.trans {t u v : Rows} (h : SameOutside t u)
    (h' : SameOutside u v) : SameOutside t v :=
  fun b hb => (h b hb).trans (h' b hb)

section
variable {env : Env} {t t' : Rows} {b : Body}

theorem insert_outside (hb : b.isCTO = true) (h : insert env t b = .ok t') :
    SameOutside t' t := by
  intro c hc
  refine inserts_frame [b] ?_ (by
    rw [List.foldlM_cons, h]
    rfl)
  intro b' hb'
  obtain rfl := List.mem_singleton.mp hb'
  intro hkey
  rw [← isCTO_key, hkey, isCTO_key, hb] at hc
  cases hc

theorem updateProposal_outside {registry : Address} {id : Nat}
    {f : ProposalRow → ProposalRow}
    (h : updateProposal env t registry id f = .ok t') : SameOutside t' t := by
  rw [updateProposal] at h
  split at h
  · exact insert_outside rfl h
  · obtain rfl := Except.ok.inj h
    exact .refl t

theorem projectCanonicalCTOEvent_outside {e : CanonicalCTOEvent}
    (h : projectCanonicalCTOEvent env t e = .ok t') : SameOutside t' t := by
  rw [projectCanonicalCTOEvent] at h
  cases hevent : e.event with
  | treasuryDeployed => rw [hevent] at h; exact insert_outside rfl h
  | proposed => rw [hevent] at h; exact insert_outside rfl h
  | accepted => rw [hevent] at h; exact updateProposal_outside h
  | ready => rw [hevent] at h; exact updateProposal_outside h
  | cancelled => rw [hevent] at h; exact updateProposal_outside h
  | expired => rw [hevent] at h; exact updateProposal_outside h
  | activated =>
      rw [hevent] at h
      dsimp only at h
      rw [bind_ok] at h
      obtain ⟨u, hu, h⟩ := h
      refine SameOutside.trans ?_ (updateProposal_outside hu)
      split at h
      · obtain rfl := Except.ok.inj h
        exact .refl u
      · exact insert_outside rfl h
      · cases h
  | creatorFeeCheckpointed => rw [hevent] at h; exact insert_outside rfl h
  | checkpointedCreatorFeesClaimed =>
      rw [hevent] at h; exact insert_outside rfl h
  | supportedAssetRegistered => rw [hevent] at h; exact insert_outside rfl h
  | treasuryAssetTransferred => rw [hevent] at h; exact insert_outside rfl h
  | creatorFeesPulled => rw [hevent] at h; exact insert_outside rfl h
  | pendingCreatorPayoutInvalidated =>
      rw [hevent] at h
      obtain rfl := Except.ok.inj h
      exact .refl t
  | feeRouteActivated =>
      rw [hevent] at h
      obtain rfl := Except.ok.inj h
      exact .refl t
  | acceptanceSubmitted =>
      rw [hevent] at h
      obtain rfl := Except.ok.inj h
      exact .refl t

/-- **REBUILDING THE CTO TABLES** touches no other table. -/
theorem rebuildCTOTx_outside (h : rebuildCTOTx env t = .ok t') :
    SameOutside t' t := by
  have hfold : ∀ (es : List CanonicalCTOEvent) (u : Rows),
      es.foldlM (projectCanonicalCTOEvent env) u = .ok t' → SameOutside t' u := by
    intro es
    induction es with
    | nil =>
        intro u hu
        obtain rfl := Except.ok.inj hu
        exact .refl _
    | cons e es ih =>
        intro u hu
        rw [List.foldlM_cons, bind_ok] at hu
        obtain ⟨v, hv, hu⟩ := hu
        exact (ih v hu).trans (projectCanonicalCTOEvent_outside hv)
  refine (hfold _ _ h).trans ?_
  intro b hb
  rw [Table.live_orphan, List.mem_filter, hb]
  simp

/-- **THE END OF A TRANSACTION**. -/
theorem finish_spec {s : Store} {checkpoint : Option (Nat × Option Hash)}
    (h : finish env t checkpoint = .ok s) :
    SameOutside s.rows t ∧ s.derived = rebuild env s.rows.live ∧
      s.checkpoint = checkpoint := by
  rw [finish, bind_ok] at h
  obtain ⟨u, hu, h⟩ := h
  dsimp only at h
  split at h
  · obtain rfl := Except.ok.inj h
    exact ⟨rebuildCTOTx_outside hu, rfl, rfl⟩
  · cases h

end

/-! ## The rows of a log -/

section
variable {env : Env} {look : Lookup} {b : Block} {t t' : Rows} {l : Log}
  {rows : List Body}

/-- The row is stored under the transaction and the index of the log. -/
def OfLog (l : Log) (c : Body) : Prop :=
  ∃ table, c.key = .log table l.txHash l.index

theorem tradeRows_keys (h : tradeRows env look b l = .ok rows) :
    ∀ c ∈ rows, c.key = .log .trades l.txHash l.index := by
  rw [tradeRows] at h
  split at h
  · cases h
  · obtain rfl := Except.ok.inj h
    intro c hc
    exact absurd hc List.not_mem_nil
  · next r hr =>
      obtain rfl := Except.ok.inj h
      intro c hc
      obtain rfl := List.mem_singleton.mp hc
      have hrow : r.transactionHash = l.txHash ∧ r.logIndex = l.index := by
        rw [projection] at hr
        split at hr
        · split at hr
          · cases hr
          · obtain rfl := Option.some.inj (Except.ok.inj hr)
            exact ⟨rfl, rfl⟩
        · split at hr
          · cases hr
          · obtain rfl := Option.some.inj (Except.ok.inj hr)
            exact ⟨rfl, rfl⟩
        · obtain ⟨token, trader, -, rfl⟩ := projectUniswapV3Swap_ok hr
          exact ⟨rfl, rfl⟩
        · cases hr
      show Key.log .trades r.transactionHash r.logIndex = _
      rw [hrow.1, hrow.2]

/-- A log's projections are stored under the log, and none is an event row. -/
theorem projected_keys (h : projected env look b l = .ok rows) :
    ∀ c ∈ rows, ∃ table, table ≠ .chainEvents ∧
      c.key = .log table l.txHash l.index := by
  have htrades : ∀ {rows}, tradeRows env look b l = .ok rows → ∀ c ∈ rows,
      ∃ table, table ≠ .chainEvents ∧ c.key = .log table l.txHash l.index :=
    fun h c hc => ⟨.trades, by decide, tradeRows_keys h c hc⟩
  have hnone : (.ok [] : Except IndexError (List Body)) = .ok rows → ∀ c ∈ rows,
      ∃ table, table ≠ .chainEvents ∧ c.key = .log table l.txHash l.index := by
    intro h c hc
    obtain rfl := Except.ok.inj h
    exact absurd hc List.not_mem_nil
  rw [projected] at h
  split at h
  · split at h
    · exact hnone h
    · split at h
      · cases h
      · split at h
        · cases h
        · obtain rfl := Except.ok.inj h
          intro c hc
          rcases List.mem_cons.mp hc with rfl | hc
          · exact ⟨.tokens, by decide, rfl⟩
          · obtain rfl := List.mem_singleton.mp hc
            exact ⟨.curves, by decide, rfl⟩
  · exact htrades h
  · exact htrades h
  · exact htrades h
  · split at h
    · exact hnone h
    · obtain rfl := Except.ok.inj h
      intro c hc
      obtain rfl := List.mem_singleton.mp hc
      exact ⟨.graduations, by decide, rfl⟩
  · split at h
    · exact hnone h
    · obtain rfl := Except.ok.inj h
      intro c hc
      obtain rfl := List.mem_singleton.mp hc
      exact ⟨.liquidityEvents, by decide, rfl⟩
  · exact hnone h

/-- What `insertEvent` did: nothing, or the event row and its projections. -/
theorem insertEvent_cases (h : insertEvent env b t l = .ok t') :
    (selected env (lookupOf env t.live) l = false ∧ t' = t) ∨
      selected env (lookupOf env t.live) l = true ∧
      ∃ rows, projected env (lookupOf env t.live) b l = .ok rows ∧
        (Body.event (eventRow l) :: rows).foldlM (insert env) t = .ok t' := by
  rw [insertEvent, bind_ok] at h
  obtain ⟨rows, hrows, h⟩ := h
  rw [statements] at hrows
  split at hrows
  · next hsel =>
      rw [bind_ok] at hrows
      obtain ⟨rest, hrest, hrows⟩ := hrows
      obtain rfl := Except.ok.inj hrows
      exact .inr ⟨hsel, rest, hrest, h⟩
  · next hsel =>
      obtain rfl := Except.ok.inj hrows
      exact .inl ⟨Bool.eq_false_of_not_eq_true hsel, (Except.ok.inj h).symm⟩

/-- **ROWS OF OTHER LOGS ARE NOT TOUCHED**. -/
theorem insertEvent_frame {c : Body} (hother : ¬ OfLog l c)
    (h : insertEvent env b t l = .ok t') : c ∈ t'.live ↔ c ∈ t.live := by
  rcases insertEvent_cases h with ⟨-, rfl⟩ | ⟨-, rows, hrows, h⟩
  · exact Iff.rfl
  · refine inserts_frame _ ?_ h
    intro c' hc' hkey
    rcases List.mem_cons.mp hc' with rfl | hc'
    · exact hother ⟨.chainEvents, hkey⟩
    · obtain ⟨table, -, htable⟩ := projected_keys hrows c' hc'
      exact hother ⟨table, hkey.trans htable⟩

/-- A selected log's own row is live, and no other event row has its place. -/
theorem insertEvent_own (hsel : selected env (lookupOf env t.live) l = true)
    (h : insertEvent env b t l = .ok t') (r : EventRow)
    (hr : OfLog l (.event r)) : .event r ∈ t'.live ↔ r = eventRow l := by
  rcases insertEvent_cases h with ⟨hsel', -⟩ | ⟨-, rows, hrows, h⟩
  · rw [hsel] at hsel'
    cases hsel'
  · have hlive : Body.event (eventRow l) ∈ t'.live := by
      refine inserted_live [] _ ?_ h
      intro c hc hkey
      obtain ⟨table, htable, hckey⟩ := projected_keys hrows c hc
      rw [hckey] at hkey
      injection hkey with htable'
      exact htable htable'.symm
    constructor
    · intro hrlive
      obtain ⟨table, htable⟩ := hr
      have hkey : (Body.event r).key = (Body.event (eventRow l)).key := by
        have htable' : LogTable.chainEvents = table := by
          injection htable
        rw [htable, ← htable']
        rfl
      exact Body.event.inj (Table.live_eq_of_key hrlive hlive hkey)
    · rintro rfl
      exact hlive

/-- The launch of a token that is not excluded leaves a row of the token. -/
theorem insertEvent_token {creator token curve payout pool : Address}
    {totalSupply curveAllocation lpAllocation : Nat}
    (hevent : l.event = .tokenLaunchedV3 creator token curve totalSupply
      curveAllocation lpAllocation payout pool)
    (hexcluded : env.excluded token = false)
    (h : insertEvent env b t l = .ok t') :
    ∃ r, .token r ∈ t'.live ∧ r.tokenAddress = token ∧ r.origin = originOf l := by
  rcases insertEvent_cases h with ⟨hsel, -⟩ | ⟨-, rows, hrows, h⟩
  · rw [selected, hevent] at hsel
    cases hsel
  · rw [projected, hevent] at hrows
    dsimp only at hrows
    rw [hexcluded, if_neg Bool.false_ne_true] at hrows
    split at hrows
    · cases hrows
    · next m _ =>
        split at hrows
        · cases hrows
        · obtain rfl := Except.ok.inj hrows
          refine ⟨_, inserted_live [.event (eventRow l)] [_] ?_ h, rfl,
            rfl⟩
          intro c hc hkey
          obtain rfl := List.mem_singleton.mp hc
          cases hkey

end

/-! ## The rows of a block -/

/-- Logs with one identity are one log. -/
def Identified (ls : Log → Prop) : Prop :=
  ∀ a b, ls a → ls b → a.identity = b.identity → a = b

/-- Every log whose row is of the kind is stored. -/
def Stored (env : Env) (kind : EventRow → Prop) : Prop :=
  ∀ look l, kind (eventRow l) → selected env look l = true

/-- The live event rows of one kind are those of some logs. -/
def Holds (kind : EventRow → Prop) (t : Rows) (ls : Log → Prop) : Prop :=
  ∀ r, kind r → (.event r ∈ t.live ↔ ∃ l, ls l ∧ eventRow l = r)

/-- A row of the token its launch log left. -/
def TokenLive (t : Rows) (token : Address) (launch : Log) : Prop :=
  ∃ r, .token r ∈ t.live ∧ r.tokenAddress = token ∧ r.origin = originOf launch

section
variable {env : Env} {kind : EventRow → Prop} {known ls : Log → Prop}
  {b : Block} {t t' : Rows} {l : Log}

/-- An event row is a log's when it carries its identity. -/
theorem ofLog_event {a : Log} : OfLog l (.event (eventRow a)) ↔
    a.identity = l.identity := by
  constructor
  · rintro ⟨table, hkey⟩
    injection hkey with _ htx hindex
    exact Prod.ext htx hindex
  · intro h
    refine ⟨.chainEvents, ?_⟩
    show Key.log .chainEvents a.txHash a.index = _
    rw [(Prod.mk.inj h).1, (Prod.mk.inj h).2]

/-- **ONE LOG ADDS ITSELF**. -/
theorem Holds.insertEvent (hid : Identified known)
    (hknown : ∀ a, ls a → known a) (hl : known l) (hstored : Stored env kind)
    (hold : Holds kind t ls) (h : insertEvent env b t l = .ok t') :
    Holds kind t' fun a => ls a ∨ a = l ∧ kind (eventRow l) := by
  intro r hr
  by_cases hown : OfLog l (.event r)
  · cases hsel : selected env (lookupOf env t.live) l with
    | true =>
        rw [insertEvent_own hsel h r hown]
        constructor
        · rintro rfl
          exact ⟨l, .inr ⟨rfl, hr⟩, rfl⟩
        · rintro ⟨a, hfrom, rfl⟩
          rcases hfrom with ha | ⟨rfl, -⟩
          · rw [hid a l (hknown a ha) hl (ofLog_event.mp hown)]
          · rfl
    | false =>
        rcases insertEvent_cases h with ⟨-, rfl⟩ | ⟨hsel', -⟩
        · rw [hold r hr]
          constructor
          · rintro ⟨a, ha, har⟩
            exact ⟨a, .inl ha, har⟩
          · rintro ⟨a, hfrom, har⟩
            rcases hfrom with ha | ⟨rfl, hkind⟩
            · exact ⟨a, ha, har⟩
            · rw [hstored _ _ hkind] at hsel
              cases hsel
        · rw [hsel] at hsel'
          cases hsel'
  · rw [insertEvent_frame hown h, hold r hr]
    constructor
    · rintro ⟨a, ha, har⟩
      exact ⟨a, .inl ha, har⟩
    · rintro ⟨a, hfrom, rfl⟩
      rcases hfrom with ha | ⟨rfl, -⟩
      · exact ⟨a, ha, rfl⟩
      · exact absurd (ofLog_event.mpr rfl) hown

/-- A log of the block is inserted when its place is the block's. -/
theorem applyLog_ok (h : applyLog env b t l = .ok t') :
    l.blockNumber = b.number ∧ l.blockHash = b.hash ∧
      insertEvent env b t l = .ok t' := by
  rw [applyLog] at h
  split at h
  · cases h
  · next hplace =>
      rw [not_or, not_not, not_not] at hplace
      exact ⟨hplace.1, hplace.2, h⟩

theorem Holds.logs (hid : Identified known) (hstored : Stored env kind)
    {logs : List Log} (hlogs : ∀ a ∈ logs, known a) (hknown : ∀ a, ls a → known a)
    (hold : Holds kind t ls) (h : logs.foldlM (applyLog env b) t = .ok t') :
    Holds kind t' fun a => ls a ∨ a ∈ logs ∧ kind (eventRow a) := by
  induction logs generalizing t ls with
  | nil =>
      obtain rfl := Except.ok.inj h
      intro r hr
      rw [hold r hr]
      simp
  | cons l logs ih =>
      rw [List.foldlM_cons, bind_ok] at h
      obtain ⟨u, hu, h⟩ := h
      have hl := hlogs l (List.mem_cons_self ..)
      have hstep := hold.insertEvent hid hknown hl hstored (applyLog_ok hu).2.2
      have hrest := ih (fun a ha => hlogs a (List.mem_cons_of_mem _ ha)) (by
        rintro a (ha | ⟨rfl, -⟩)
        · exact hknown a ha
        · exact hl) hstep h
      intro r hr
      rw [hrest r hr]
      constructor
      · rintro ⟨a, (ha | ⟨rfl, hkind⟩) | ⟨ha, hkind⟩, har⟩
        · exact ⟨a, .inl ha, har⟩
        · exact ⟨a, .inr ⟨List.mem_cons_self .., hkind⟩, har⟩
        · exact ⟨a, .inr ⟨List.mem_cons_of_mem _ ha, hkind⟩, har⟩
      · rintro ⟨a, ha | ⟨ha, hkind⟩, har⟩
        · exact ⟨a, .inl (.inl ha), har⟩
        · rcases List.mem_cons.mp ha with rfl | ha
          · exact ⟨a, .inl (.inr ⟨rfl, hkind⟩), har⟩
          · exact ⟨a, .inr ⟨ha, hkind⟩, har⟩

/-- The parts of a transaction that applies a block. -/
theorem applyWithProvenance_cases {s s' : Store}
    (h : applyWithProvenance env s b = .ok s') :
    ∃ t t', insert env (s.rows.orphan (replacedBy b)) (.block (blockRow b)) =
        .ok t ∧
      b.logs.foldlM (applyLog env b) t = .ok t' ∧ SameOutside s'.rows t' ∧
      s'.derived = rebuild env s'.rows.live ∧
      s'.checkpoint = some (b.number, some b.hash) := by
  simp only [applyWithProvenance, bind_ok] at h
  obtain ⟨_, -, _, -, t, ht, t', ht', h⟩ := h
  obtain ⟨hrows, hderived, hcheckpoint⟩ := finish_spec h
  exact ⟨t, t', ht, ht', hrows, hderived, hcheckpoint⟩

/-- A row that is neither withdrawn nor a block's survives up to the logs. -/
theorem live_before_logs {s : Store} {c : Body}
    (hkeep : replacedBy b c = false) (hblock : c.key ≠ .block b.hash)
    (ht : insert env (s.rows.orphan (replacedBy b)) (.block (blockRow b)) =
      .ok t) : c ∈ t.live ↔ c ∈ s.rows.live := by
  rw [insert_eq ht, Table.mem_live_upsert, Table.live_orphan, List.mem_filter,
    hkeep]
  constructor
  · rintro (rfl | ⟨⟨hc, -⟩, -⟩)
    · exact absurd rfl hblock
    · exact hc
  · intro hc
    exact .inr ⟨⟨hc, rfl⟩, hblock⟩

/-- **A BLOCK ADDS ITS LOGS**. -/
theorem Holds.applyWithProvenance {s s' : Store} (hid : Identified known)
    (hstored : Stored env kind) (hlogs : ∀ a ∈ b.logs, known a)
    (hknown : ∀ a, ls a → known a)
    (hkeep : ∀ r, kind r → .event r ∈ s.rows.live →
      replacedBy b (.event r) = false)
    (hold : Holds kind s.rows ls) (h : applyWithProvenance env s b = .ok s') :
    Holds kind s'.rows fun a => ls a ∨ a ∈ b.logs ∧ kind (eventRow a) := by
  obtain ⟨t, t', ht, ht', hrows, -, -⟩ := applyWithProvenance_cases h
  have hstart : Holds kind t ls := by
    intro r hr
    rw [← hold r hr]
    by_cases hlive : .event r ∈ s.rows.live
    · exact live_before_logs (hkeep r hr hlive) (by intro hkey; cases hkey) ht
    · refine iff_of_false ?_ hlive
      rw [insert_eq ht, Table.mem_live_upsert, Table.live_orphan,
        List.mem_filter]
      rintro (heq | ⟨⟨hc, -⟩, -⟩)
      · cases heq
      · exact hlive hc
  have hend := hstart.logs hid hstored hlogs hknown ht'
  intro r hr
  rw [hrows (.event r) rfl]
  exact hend r hr

/-- A token's row survives the logs of a block, or is left by them. -/
theorem TokenLive.logs {token creator curve payout pool : Address}
    {totalSupply curveAllocation lpAllocation : Nat} {launch : Log}
    (hid : Identified known) (hlaunch : known launch)
    (hevent : launch.event = .tokenLaunchedV3 creator token curve totalSupply
      curveAllocation lpAllocation payout pool)
    (hexcluded : env.excluded token = false) {logs : List Log}
    (hlogs : ∀ a ∈ logs, known a)
    (hlive : TokenLive t token launch ∨ launch ∈ logs)
    (h : logs.foldlM (applyLog env b) t = .ok t') : TokenLive t' token launch := by
  induction logs generalizing t with
  | nil =>
      obtain rfl := Except.ok.inj h
      exact hlive.resolve_right List.not_mem_nil
  | cons l logs ih =>
      rw [List.foldlM_cons, bind_ok] at h
      obtain ⟨u, hu, h⟩ := h
      have hinsert := (applyLog_ok hu).2.2
      refine ih (fun a ha => hlogs a (List.mem_cons_of_mem _ ha)) ?_ h
      by_cases hsame : l = launch
      · subst hsame
        exact .inl (insertEvent_token hevent hexcluded hinsert)
      · rcases hlive with ⟨r, hr, htoken, horigin⟩ | hmem
        · refine .inl ⟨r, (insertEvent_frame ?_ hinsert).mpr hr, htoken, horigin⟩
          rintro ⟨table, hkey⟩
          injection hkey with _ htx hindex
          rw [horigin] at htx hindex
          exact hsame (hid l launch (hlogs l (List.mem_cons_self ..)) hlaunch
            (Prod.ext htx.symm hindex.symm))
        · rcases List.mem_cons.mp hmem with heq | hmem
          · exact absurd heq.symm hsame
          · exact .inr hmem

end

end IndexerStore
