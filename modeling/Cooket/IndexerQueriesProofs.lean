import Cooket.IndexerRowsProofs

/-! # The queries see nothing but live rows

    Every query of the indexer reads canonical rows, and sorts them by columns
    that hold the primary key.  So TWO DATABASES WITH THE SAME LIVE ROWS GIVE
    THE SAME ANSWERS, whatever rows each of them withdrew on the way and in
    whatever order it stored them.

    All but one query look at no CTO table, so for these the rows outside the
    CTO tables are enough (`SameOutside`).  The exception is the query of
    `trustedCTOEmitter`, which takes a treasury's row or the event that
    deployed it: it too needs no CTO table while every treasury's row has its
    event (`Announced`). -/

namespace IndexerStore

open Contract IndexerEvents Keyset RowTable TradeRows

/-! ## One table -/

section
variable {t u : Rows} {X R : Type} {pick : Body → Option X} {wrap : X → Body}

theorem SameOutside.symm (h : SameOutside t u) : SameOutside u t :=
  fun b hb => (h b hb).symm

theorem SameOutside.of_same (h : t.Same u) : SameOutside t u := fun b _ => h b

/-- The rows of one table, in the order either database stored them. -/
theorem SameOutside.pick_perm (h : SameOutside t u)
    (hpick : ∀ b x, pick b = some x ↔ b = wrap x)
    (hcto : ∀ x, (wrap x).isCTO = false) :
    (t.live.filterMap pick).Perm (u.live.filterMap pick) := by
  have hinj : ∀ a b x, x ∈ pick a → x ∈ pick b → a = b := by
    intro a b x ha hb
    rw [(hpick a x).mp ha, (hpick b x).mp hb]
  refine (List.perm_ext_iff_of_nodup (t.live_nodup.filterMap hinj)
    (u.live_nodup.filterMap hinj)).mpr fun x => ?_
  have hmem : ∀ v : Rows, x ∈ v.live.filterMap pick ↔ wrap x ∈ v.live := by
    intro v
    rw [List.mem_filterMap]
    constructor
    · rintro ⟨b, hb, hx⟩
      rwa [(hpick b x).mp hx] at hb
    · intro hx
      exact ⟨_, hx, (hpick _ x).mpr rfl⟩
  rw [hmem, hmem, h (wrap x) (hcto x)]

/-- A query that sorts one table by a rank with the primary key in it. -/
theorem SameOutside.orderBy_pick [LinearOrder R] {rank : X → R}
    (h : SameOutside t u) (wrap : X → Body)
    (hpick : ∀ b x, pick b = some x ↔ b = wrap x)
    (hcto : ∀ x, (wrap x).isCTO = false)
    (hrank : ∀ x y, rank x = rank y → (wrap x).key = (wrap y).key) :
    orderBy rank (t.live.filterMap pick) =
      orderBy rank (u.live.filterMap pick) := by
  refine orderBy_perm (h.pick_perm hpick hcto) ?_
  intro x hx y hy hxy
  obtain ⟨a, ha, hax⟩ := List.mem_filterMap.mp hx
  obtain ⟨b, hb, hby⟩ := List.mem_filterMap.mp hy
  have hax' := (hpick a x).mp hax
  have hby' := (hpick b y).mp hby
  -- Equal ranks are equal keys, and a key names one live row.
  have hab : a = b := by
    refine Table.live_eq_of_key ha hb ?_
    rw [hax', hby']
    exact hrank x y hxy
  rw [hab, hby] at hax
  exact (Option.some.inj hax).symm

end

/-! ## The queries -/

section
variable {t u : Rows}

theorem eventsOf_same (h : SameOutside t u) : eventsOf t.live = eventsOf u.live := by
  refine h.orderBy_pick Body.event ?_ (fun _ => rfl) ?_
  · intro b x
    cases b <;> simp
  · intro x y hxy
    simp only [EventRow.rank, List.cons.injEq] at hxy
    show x.origin.key .chainEvents = y.origin.key .chainEvents
    rw [Origin.key, Origin.key, hxy.2.2.1, hxy.2.2.2.1]

theorem tokensOf_same (h : SameOutside t u) : tokensOf t.live = tokensOf u.live := by
  refine h.orderBy_pick Body.token ?_ (fun _ => rfl) ?_
  · intro b x
    cases b <;> simp
  · intro x y hxy
    simp only [TokenRow.rank, List.cons.injEq, neg_inj, Nat.cast_inj] at hxy
    show x.origin.key .tokens = y.origin.key .tokens
    rw [Origin.key, Origin.key, hxy.2.1, hxy.2.2.2.1]

theorem curvesOf_same (h : SameOutside t u) : curvesOf t.live = curvesOf u.live := by
  refine h.orderBy_pick Body.curve ?_ (fun _ => rfl) ?_
  · intro b x
    cases b <;> simp
  · intro x y hxy
    simp only [CurveRow.rank, List.cons.injEq, neg_inj, Nat.cast_inj] at hxy
    show x.origin.key .curves = y.origin.key .curves
    rw [Origin.key, Origin.key, hxy.2.1, hxy.2.2.1]

theorem tradesOf_same (h : SameOutside t u) : tradesOf t.live = tradesOf u.live := by
  refine h.orderBy_pick Body.trade ?_ (fun _ => rfl) ?_
  · intro b x
    cases b <;> simp
  · intro x y hxy
    simp only [tradeRank, List.cons.injEq] at hxy
    show Key.log .trades x.transactionHash x.logIndex =
      Key.log .trades y.transactionHash y.logIndex
    rw [hxy.2.2.1, hxy.2.2.2.1]

theorem blocksOf_same (h : SameOutside t u) : blocksOf t.live = blocksOf u.live := by
  refine h.orderBy_pick Body.block ?_ (fun _ => rfl) ?_
  · intro b x
    cases b <;> simp
  · intro x y hxy
    simp only [BlockRow.rank, List.cons.injEq] at hxy
    exact congrArg Key.block hxy.2.1

theorem stampOf_same (h : SameOutside t u) : stampOf t.live = stampOf u.live := by
  funext hash
  rw [stampOf, stampOf, blocksOf_same h]

theorem canonicalBlockHash_same (h : SameOutside t u) :
    canonicalBlockHash t.live = canonicalBlockHash u.live := by
  funext number
  rw [canonicalBlockHash, canonicalBlockHash, blocksOf_same h]

theorem poolToken_same (h : SameOutside t u) :
    poolToken t.live = poolToken u.live := by
  funext pool
  rw [poolToken, poolToken, curvesOf_same h, tokensOf_same h]

theorem ctoEvents_same (h : SameOutside t u) :
    ctoEvents t.live = ctoEvents u.live := by
  rw [ctoEvents, ctoEvents, eventsOf_same h, stampOf_same h]

theorem feeRoutes_same (h : SameOutside t u) :
    feeRoutes t.live = feeRoutes u.live := by
  funext tx token treasury
  rw [feeRoutes, feeRoutes, eventsOf_same h]

/-- The events are the live event rows. -/
theorem mem_eventsOf {live : List Body} {r : EventRow} :
    r ∈ eventsOf live ↔ .event r ∈ live := by
  rw [eventsOf, (Keyset.orderBy_perm _ _).mem_iff, List.mem_filterMap]
  constructor
  · rintro ⟨c, hc, hr⟩
    cases c with
    | event r' =>
        obtain rfl := Option.some.inj hr
        exact hc
    | _ => cases hr
  · intro hr
    exact ⟨_, hr, rfl⟩

theorem mem_curvesOf {live : List Body} {r : CurveRow} :
    r ∈ curvesOf live ↔ .curve r ∈ live := by
  rw [curvesOf, (Keyset.orderBy_perm _ _).mem_iff, List.mem_filterMap]
  constructor
  · rintro ⟨c, hc, hr⟩
    cases c with
    | curve r' =>
        obtain rfl := Option.some.inj hr
        exact hc
    | _ => cases hr
  · intro hr
    exact ⟨_, hr, rfl⟩

theorem mem_blocksOf {live : List Body} {r : BlockRow} :
    r ∈ blocksOf live ↔ .block r ∈ live := by
  rw [blocksOf, (Keyset.orderBy_perm _ _).mem_iff, List.mem_filterMap]
  constructor
  · rintro ⟨c, hc, hr⟩
    cases c with
    | block r' =>
        obtain rfl := Option.some.inj hr
        exact hc
    | _ => cases hr
  · intro hr
    exact ⟨_, hr, rfl⟩

/-- A live block has a timestamp. -/
theorem stampOf_isSome {live : List Body} {b : BlockRow}
    (hb : .block b ∈ live) : (stampOf live b.blockHash).isSome = true := by
  rw [stampOf, Option.isSome_map, List.find?_isSome]
  exact ⟨b, mem_blocksOf.mpr hb, decide_eq_true rfl⟩

/-! ## What is recomputed -/

theorem curveState_same (h : SameOutside t u) :
    curveState t.live = curveState u.live := by
  funext c
  rw [curveState, curveState, tradesOf_same h, eventsOf_same h]

theorem holders_same (h : SameOutside t u) : holders t.live = holders u.live := by
  have hdeltas : deltas t.live = deltas u.live := by
    rw [deltas, deltas, eventsOf_same h, tokensOf_same h]
  rw [holders, holders, hdeltas]

theorem onCanonicalBlock_same (h : SameOutside t u) :
    onCanonicalBlock t.live = onCanonicalBlock u.live := by
  funext ts
  rw [onCanonicalBlock, onCanonicalBlock, stampOf_same h]

theorem stampIn_same (h : SameOutside t u) : stampIn t.live = stampIn u.live := by
  funext hash
  rw [stampIn, stampIn, stampOf_same h]

theorem recent_same (h : SameOutside t u) : recent t.live = recent u.live := by
  have hanchor : anchor t.live = anchor u.live := by
    rw [anchor, anchor, blocksOf_same h]
  funext ts
  rw [recent, recent, hanchor, onCanonicalBlock_same h, stampIn_same h]

theorem metricsRow_same (env : Env) (h : SameOutside t u) :
    metricsRow env t.live = metricsRow env u.live := by
  have hanchor : anchor t.live = anchor u.live := by
    rw [anchor, anchor, blocksOf_same h]
  funext token
  rw [metricsRow, metricsRow, tradesOf_same h, holders_same h,
    onCanonicalBlock_same h, stampIn_same h, recent_same h, hanchor]

theorem bucketRows_same (env : Env) (h : SameOutside t u) :
    bucketRows env t.live = bucketRows env u.live := by
  funext token
  rw [bucketRows, bucketRows, tradesOf_same h, onCanonicalBlock_same h,
    stampIn_same h]

/-- **WHAT IS RECOMPUTED** depends on the live rows outside the CTO tables. -/
theorem rebuild_same (env : Env) (h : SameOutside t u) :
    rebuild env t.live = rebuild env u.live := by
  rw [rebuild, rebuild, curvesOf_same h, curveState_same h, holders_same h,
    canonicalTokens, canonicalTokens, tokensOf_same h, metricsRow_same env h,
    bucketRows_same env h]

end

/-! ## The query that looks at a CTO table -/

/-- The event deployed the treasury. -/
def deploys (roots : CTOProvenance) (treasury : Address) (r : EventRow) : Prop :=
  r.contractAddress = roots.registry ∧
    ∃ token controller nonce salt, r.decoded =
      .cto (.treasuryDeployed token controller treasury nonce salt)

/-- Every treasury's row has its event, at the same place. -/
def Announced (roots : CTOProvenance) (t : Rows) : Prop :=
  ∀ r, .treasury r ∈ t.live →
    ∃ e, .event e ∈ t.live ∧ deploys roots r.treasuryAddress e ∧
      e.origin = r.origin

section
variable {env : Env} {t u : Rows}

/-- The query of `trustedCTOEmitter` finds a deployed treasury by its event. -/
theorem deployedTreasury_iff {roots : CTOProvenance} {emitter : Address}
    (h : Announced roots t) : deployedTreasury roots t.live emitter = true ↔
      ∃ e, .event e ∈ t.live ∧ deploys roots emitter e := by
  rw [deployedTreasury, List.any_eq_true]
  constructor
  · rintro ⟨c, hc, hfound⟩
    cases c with
    | treasury r =>
        obtain ⟨e, he, hdeploys, -⟩ := h r hc
        rw [decide_eq_true_iff] at hfound
        exact ⟨e, he, hfound ▸ hdeploys⟩
    | event e =>
        dsimp only at hfound
        split at hfound
        · next token controller treasury nonce salt hdecoded =>
            rw [Bool.and_eq_true, decide_eq_true_iff, decide_eq_true_iff] at hfound
            obtain ⟨haddress, rfl⟩ := hfound
            exact ⟨e, hc, haddress, token, controller, nonce, salt, hdecoded⟩
        · cases hfound
    | _ => cases hfound
  · rintro ⟨e, he, haddress, token, controller, nonce, salt, hdecoded⟩
    refine ⟨_, he, ?_⟩
    simp [hdecoded, haddress]

theorem deployedTreasury_same {roots : CTOProvenance} (h : SameOutside t u)
    (ht : Announced roots t) (hu : Announced roots u) :
    deployedTreasury roots t.live = deployedTreasury roots u.live := by
  funext emitter
  rw [Bool.eq_iff_iff, deployedTreasury_iff ht, deployedTreasury_iff hu]
  constructor
  · rintro ⟨e, he, hdeploys⟩
    exact ⟨e, (h (.event e) rfl).mp he, hdeploys⟩
  · rintro ⟨e, he, hdeploys⟩
    exact ⟨e, (h (.event e) rfl).mpr he, hdeploys⟩

/-- **WHAT AN INSERT LOOKS UP** is the same in both databases. -/
theorem lookupOf_same (h : SameOutside t u) (ht : Announced env.roots t)
    (hu : Announced env.roots u) : lookupOf env t.live = lookupOf env u.live := by
  rw [lookupOf, lookupOf, poolToken_same h, deployedTreasury_same h ht hu]

end

end IndexerStore
