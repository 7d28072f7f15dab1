import Cooket.IndexerBatchProofs
import Cooket.IndexerChainProofs

/-! # Reorganisations leave no trace

    The indexer follows a chain that may be replaced under it.  It then either
    applies another block at the height of its last one, or withdraws every
    block from some height on and goes on from there.  A `History` is any
    sequence of these; it has one list of SURVIVING blocks.

    The law: the database a history leaves shows exactly what a FRESH indexer
    shows after the surviving blocks alone (`history_rebuilt`), and it accepts
    or refuses the next block exactly as that one does (`history_next`).

    `recover` walks down until the stored hash is the node's.  On any history
    it keeps exactly the stored blocks that are still on the node's chain
    (`recover_common`). -/

namespace IndexerStore

open CheckedArith Contract IndexerEvents Keyset Lockstep RowTable TradeRows

/-! ## A chain on an empty database -/

/-- The database is what some transaction ended with. -/
def Settled (env : Env) (s : Store) : Prop :=
  ∃ u c, finish env u c = .ok s

/-- What a chain leaves in an empty database. -/
structure Canon (env : Env) (bs : List Block) (s : Store) : Prop where
  grounded : Grounded env bs s.rows
  complete : Complete env bs s.rows
  settled : Settled env s

section
variable {env : Env} {bs : List Block} {b : Block} {s s' : Store} {t : Rows}

theorem canon_fresh (env : Env) : Canon env [] fresh where
  grounded := .empty env
  complete :=
    ⟨fun _ hb => absurd hb List.not_mem_nil,
      fun _ hl => by obtain ⟨_, hb, -⟩ := hl; exact absurd hb List.not_mem_nil⟩
  settled := ⟨Table.empty, none, rfl⟩

/-- Withdrawing the other blocks of a height keeps the rows grounded. -/
theorem Grounded.replace (h : Grounded env bs t) {bs' : List Block}
    (hsub : ∀ c ∈ bs, c.number ≠ b.number ∨ c.hash = b.hash → c ∈ bs') :
    Grounded env bs' (t.orphan (replacedBy b)) := by
  refine h.orphan (q := fun place => place.1 = b.number && place.2 ≠ b.hash)
    (fun _ => rfl) fun c hc hq => hsub c hc ?_
  by_cases hnumber : c.number = b.number
  · refine .inr ?_
    simpa [hnumber] using hq
  · exact .inl hnumber

/-- **A BLOCK ON TOP** of a chain. -/
theorem Canon.apply (h : Canon env bs s) (hserved : Served env (bs ++ [b]))
    (happly : applyWithProvenance env s b = .ok s') :
    Canon env (bs ++ [b]) s' := by
  have hstart : Grounded env (bs ++ [b]) (s.rows.orphan (replacedBy b)) :=
    h.grounded.replace fun c hc _ => List.mem_append_left _ hc
  rw [applyWithProvenance_eq, bind_ok] at happly
  obtain ⟨t, ht, hfinish⟩ := happly
  have hground := hstart.logged hserved.identified
    (List.mem_append_right _ (List.mem_singleton_self b)) ht
  have hcomplete := h.complete.logged h.grounded hserved hstart ht
  exact ⟨hground.finish hfinish, hcomplete.outside (finish_spec hfinish).1,
    t, _, hfinish⟩

theorem applyAll_append (env : Env) (s : Store) (bs : List Block) (b : Block) :
    applyAll env s (bs ++ [b]) =
      applyAll env s bs >>= fun s => applyWithProvenance env s b := by
  rw [applyAll, List.foldlM_append, applyAll]
  refine bind_congr fun s => ?_
  rw [List.foldlM_cons]
  exact bind_pure _

/-- **A CHAIN** on an empty database. -/
theorem canon_applyAll (hserved : Served env bs)
    (h : applyAll env fresh bs = .ok s) : Canon env bs s := by
  induction bs using List.reverseRecOn generalizing s with
  | nil =>
      obtain rfl := Except.ok.inj h
      exact canon_fresh env
  | append_singleton bs b ih =>
      rw [applyAll_append, bind_ok] at h
      obtain ⟨s₁, h₁, h⟩ := h
      exact (ih hserved.init h₁).apply hserved h

/-- The rows under a height are those a chain cut there leaves. -/
def UpTo (height : Nat) (t u : Rows) : Prop :=
  ∀ c : Body, c.isCTO = false →
    (c ∈ u.live ↔ c ∈ t.live ∧ c.place.1 < height)

theorem Grounded.upTo_self (h : Grounded env bs t) {height : Nat}
    (habove : ∀ c ∈ bs, c.number < height) : UpTo height t t := by
  intro c hcto
  refine ⟨fun hc => ⟨hc, ?_⟩, And.left⟩
  obtain ⟨b, hb, hplace⟩ := (h.sourced c hc hcto).place
  rw [hplace]
  exact habove b hb

/-- **CUTTING A CHAIN** cuts the rows. -/
theorem applyAll_below (hserved : Served env bs)
    (h : applyAll env fresh bs = .ok s) (height : Nat) :
    ∃ s₁, applyAll env fresh (below height bs) = .ok s₁ ∧
      UpTo height s.rows s₁.rows := by
  induction bs using List.reverseRecOn generalizing s with
  | nil => exact ⟨s, h, (canon_applyAll hserved h).grounded.upTo_self
      fun _ hc => absurd hc List.not_mem_nil⟩
  | append_singleton bs b ih =>
      by_cases hheight : height ≤ b.number
      · rw [below_append_le hheight]
        rw [applyAll_append, bind_ok] at h
        obtain ⟨s₀, h₀, h⟩ := h
        obtain ⟨s₁, h₁, hcut⟩ := ih hserved.init h₀
        refine ⟨s₁, h₁, fun c hcto => (hcut c hcto).trans ?_⟩
        rw [applyWithProvenance_eq, bind_ok] at h
        obtain ⟨t, ht, hfinish⟩ := h
        have hsame := (finish_spec hfinish).1 c hcto
        have hground := (canon_applyAll hserved.init h₀).grounded
        constructor
        · rintro ⟨hc, hplace⟩
          exact ⟨hsame.mpr ((logged_below hground hserved ht hcto
            (by omega)).mpr hc), hplace⟩
        · rintro ⟨hc, hplace⟩
          exact ⟨(logged_below hground hserved ht hcto
            (by omega)).mp (hsame.mp hc), hplace⟩
      · have habove : ∀ c ∈ bs ++ [b], c.number < height := by
          intro c hc
          rcases List.mem_append.mp hc with hc | hc
          · have := hserved.lt_last hc
            omega
          · obtain rfl := List.mem_singleton.mp hc
            omega
        rw [below_eq_self habove]
        exact ⟨s, h, (canon_applyAll hserved h).grounded.upTo_self habove⟩

end

/-! ## One transaction on two databases -/

section
variable {env : Env} {bs : List Block} {b : Block} {s s₁ : Store} {l : Log}
  {t u : Rows}

theorem insertEvent_both (h : SameOutside t u) (ht : Announced env.roots t)
    (hu : Announced env.roots u) :
    Both SameOutside (insertEvent env b t l) (insertEvent env b u l) := by
  rw [insertEvent, insertEvent, lookupOf_same h ht hu]
  refine (Both.refl (R := Eq) _ fun _ _ => rfl).bind ?_
  rintro rows _ hrows _ rfl
  refine Both.foldlM rows (fun c hc v w hvw => ?_) h
  exact insert_outside_both (statements_wrote hrows c hc).1.outside hvw

/-- **A BLOCK'S ROWS** are the same in both databases. -/
theorem logged_both
    (h : SameOutside (t.orphan (replacedBy b)) (u.orphan (replacedBy b)))
    (ht : Grounded env bs (t.orphan (replacedBy b)))
    (hu : Grounded env bs (u.orphan (replacedBy b)))
    (hid : Identified (LogOf bs)) (hb : b ∈ bs) :
    Both SameOutside (logged env b t) (logged env b u) := by
  rw [logged, logged]
  refine (Both.refl (R := Eq) _ fun _ _ => rfl).bind ?_
  rintro _ _ _ _ rfl
  refine (Both.refl (R := Eq) _ fun _ _ => rfl).bind ?_
  rintro _ _ _ _ rfl
  refine (insert_outside_both rfl h).bind ?_
  intro v w hv hw hvw
  -- Besides the rows, both databases stay grounded, log after log.
  refine (Both.foldlM (R := fun v w => SameOutside v w ∧ Grounded env bs v ∧
    Grounded env bs w) b.logs ?_ ⟨hvw, ht.insertBlock hb hv,
      hu.insertBlock hb hw⟩).mono fun _ _ hvw => hvw.1
  rintro l hl v w ⟨hvw, hv, hw⟩
  have hboth : Both SameOutside (applyLog env b v l) (applyLog env b w l) := by
    rw [applyLog, applyLog]
    split
    · exact .error _
    · exact insertEvent_both hvw hv.announced hw.announced
  exact hboth.and (fun _ hv' => hv.applyLog hid hb hl hv')
    fun _ hw' => hw.applyLog hid hb hl hw'

/-- **A TRANSACTION** ends the same way on a chain and on a database with the
    chain's rows under the block. -/
theorem apply_both (hcanon : Canon env bs s₁) (hserved : Served env (bs ++ [b]))
    (h : SameOutside (s.rows.orphan (replacedBy b))
      (s₁.rows.orphan (replacedBy b)))
    (hs : Grounded env (bs ++ [b]) (s.rows.orphan (replacedBy b))) :
    Both SameStore (applyWithProvenance env s b)
      (applyWithProvenance env s₁ b) := by
  have hlast : b ∈ bs ++ [b] := List.mem_append_right _ (List.mem_singleton_self b)
  have hs₁ : Grounded env (bs ++ [b]) (s₁.rows.orphan (replacedBy b)) :=
    hcanon.grounded.replace fun c hc _ => List.mem_append_left _ hc
  rw [applyWithProvenance_eq, applyWithProvenance_eq]
  refine (logged_both h hs hs₁ hserved.identified hlast).bind ?_
  intro v w _ hw hvw
  refine finish_both hvw ?_ _ _
  rw [ctoEvents_same hvw]
  exact opened_ctoEvents (hs₁.logged hserved.identified hlast hw)
    (hcanon.complete.logged hcanon.grounded hserved hs₁ hw) hserved

/-- **REFILLING AGAIN** changes nothing. -/
theorem Canon.refinish (hcanon : Canon env bs s₁) (hserved : Served env bs)
    (h : SameOutside t s₁.rows) (c : Option (Nat × Option Hash)) :
    ∃ s', finish env t c = .ok s' ∧ SameStore s' s₁ := by
  obtain ⟨u, d, hu⟩ := hcanon.settled
  have hsame := h.trans (finish_spec hu).1
  refine (finish_both hsame ?_ c d).ok_right hu
  rw [ctoEvents_same h]
  exact opened_ctoEvents hcanon.grounded hcanon.complete hserved

end

/-! ## Histories -/

/-- What the indexer may have done, with the blocks that survived it. -/
inductive History (env : Env) : List Block → Store → Prop where
  | start : History env [] fresh
  | apply {bs : List Block} {b : Block} {s s' : Store} (h : History env bs s)
      (habove : ∀ c ∈ bs, c.number ≤ b.number)
      (hother : ∀ c ∈ bs, c.number = b.number → c.hash ≠ b.hash)
      (hserved : Served env (below b.number bs ++ [b]))
      (happly : applyWithProvenance env s b = .ok s') :
      History env (below b.number bs ++ [b]) s'
  | rewind {bs : List Block} {s s' : Store} (height : Nat)
      (h : History env bs s) (hrewind : rewind env s height = .ok s') :
      History env (below height bs) s'

section
variable {env : Env} {bs : List Block} {b : Block} {s s₀ s₁ : Store}
  {height : Nat}

theorem served_nil (env : Env) : Served env [] where
  ascending := .nil
  hashes := .nil
  identified a _ ha := by
    obtain ⟨_, hb, -⟩ := ha
    cases hb
  opened _ hb := absurd hb List.not_mem_nil

theorem History.served (h : History env bs s) : Served env bs := by
  induction h with
  | start => exact served_nil env
  | apply _ _ _ hserved _ _ => exact hserved
  | rewind height _ _ ih => exact ih.under height

theorem SameStore.symm (h : SameStore s s₁) : SameStore s₁ s :=
  ⟨h.1.symm, h.2.symm⟩

theorem SameStore.trans (h : SameStore s s₁) (h' : SameStore s₁ s₀) :
    SameStore s s₀ :=
  ⟨h.1.trans h'.1, h.2.trans h'.2⟩

/-- Withdrawing from a height on leaves what the cut chain leaves. -/
theorem UpTo.atOrAbove (h : UpTo height s₀.rows s₁.rows) (hs : SameStore s s₀) :
    SameOutside (s.rows.orphan (atOrAbove height)) s₁.rows := by
  intro c hcto
  rw [Table.live_orphan, List.mem_filter, h c hcto, hs.1 c]
  simp [IndexerStore.atOrAbove]

/-- **A REWIND** never fails, and leaves what the cut chain leaves. -/
theorem rewind_rebuilt (hserved : Served env bs)
    (h₀ : applyAll env fresh bs = .ok s₀) (hs : SameStore s s₀) (height : Nat) :
    ∃ s' s₁, rewind env s height = .ok s' ∧
      applyAll env fresh (below height bs) = .ok s₁ ∧ SameStore s' s₁ := by
  obtain ⟨s₁, h₁, hcut⟩ := applyAll_below hserved h₀ height
  have hcut' := hserved.under height
  obtain ⟨s', hs', hsame⟩ := (canon_applyAll hcut' h₁).refinish hcut'
    (hcut.atOrAbove hs) _
  exact ⟨s', s₁, hs', h₁, hsame⟩

/-- **THE NEXT BLOCK** ends the same way on both databases, the blocks at its
    height being others. -/
theorem next_both (hserved : Served env bs) (h₀ : applyAll env fresh bs = .ok s₀)
    (hs : SameStore s s₀) (habove : ∀ c ∈ bs, c.number ≤ b.number)
    (hother : ∀ c ∈ bs, c.number = b.number → c.hash ≠ b.hash)
    (hnext : Served env (below b.number bs ++ [b])) :
    ∃ s₁, applyAll env fresh (below b.number bs) = .ok s₁ ∧
      Both SameStore (applyWithProvenance env s b)
        (applyWithProvenance env s₁ b) := by
  obtain ⟨s₁, h₁, hcut⟩ := applyAll_below hserved h₀ b.number
  refine ⟨s₁, h₁, ?_⟩
  have hcanon₀ := canon_applyAll hserved h₀
  have hcanon₁ := canon_applyAll (hserved.under b.number) h₁
  refine apply_both hcanon₁ hnext ?_ ?_
  · -- What stands at the height of the block is withdrawn on both sides.
    intro c hcto
    rw [Table.live_orphan, Table.live_orphan, List.mem_filter, List.mem_filter,
      hcut c hcto, hs.1 c]
    constructor
    · rintro ⟨hc, hkeep⟩
      obtain ⟨d, hd, hplace⟩ := (hcanon₀.grounded.sourced c hc hcto).place
      refine ⟨⟨hc, ?_⟩, hkeep⟩
      rw [replacedBy, hplace] at hkeep
      have hle := habove d hd
      have hne := hother d hd
      rw [hplace]
      show d.number < b.number
      by_contra hge
      have hnumber : d.number = b.number := by omega
      simp [hnumber, hne hnumber] at hkeep
    · rintro ⟨⟨hc, -⟩, hkeep⟩
      exact ⟨hc, hkeep⟩
  · refine (hcanon₀.grounded.of_same hs.1).replace fun c hc hkeep => ?_
    have hle := habove c hc
    have hne := hother c hc
    refine List.mem_append_left _ (mem_below.mpr ⟨hc, ?_⟩)
    rcases hkeep with hkeep | hkeep
    · omega
    · by_contra hge
      exact hne (by omega) hkeep

/-- **REORGANISATIONS LEAVE NO TRACE**: the database of a history is that of a
    fresh indexer that applied the surviving blocks. -/
theorem History.rebuilt (h : History env bs s) :
    ∃ s₀, applyAll env fresh bs = .ok s₀ ∧ SameStore s s₀ := by
  induction h with
  | start => exact ⟨fresh, rfl, Table.Same.refl _, rfl⟩
  | apply h habove hother hnext happly ih =>
      obtain ⟨s₀, h₀, hs⟩ := ih
      obtain ⟨s₁, h₁, hboth⟩ := next_both h.served h₀ hs habove hother hnext
      obtain ⟨s₂, h₂, hsame⟩ := hboth.ok_left happly
      refine ⟨s₂, ?_, hsame⟩
      rw [applyAll_append, h₁]
      exact h₂
  | rewind height h hrewind ih =>
      obtain ⟨s₀, h₀, hs⟩ := ih
      obtain ⟨s', s₁, hs', h₁, hsame⟩ := rewind_rebuilt h.served h₀ hs height
      obtain rfl := Except.ok.inj (hs'.symm.trans hrewind)
      exact ⟨s₁, h₁, hsame⟩

/-- A block at a new height follows a history as it follows the surviving
    blocks. -/
theorem next_same (h : History env bs s) (h₀ : applyAll env fresh bs = .ok s₀)
    (hs : SameStore s s₀) (hnext : Served env (bs ++ [b])) :
    Both SameStore (applyWithProvenance env s b)
      (applyWithProvenance env s₀ b) := by
  have hbelow : below b.number bs = bs :=
    below_eq_self fun c hc => hnext.lt_last hc
  obtain ⟨s₁, h₁, hboth⟩ := next_both h.served h₀ hs
    (fun c hc => (hnext.lt_last hc).le)
    (fun c hc hnumber => absurd (hnext.lt_last hc) (by omega))
    (hbelow.symm ▸ hnext)
  rw [hbelow] at h₁
  obtain rfl := Except.ok.inj (h₀.symm.trans h₁)
  exact hboth

/-- **REORGANISATIONS LEAVE NO TRACE**: the live rows and everything recomputed
    are those of a fresh indexer that applied the surviving blocks alone; every
    rewind goes through; and the next block is applied with the same result, or
    refused with the same error, as by that indexer. -/
theorem history_rebuilt (h : History env bs s) :
    ∃ s₀, applyAll env fresh bs = .ok s₀ ∧
      s.rows.Same s₀.rows ∧ s.derived = s₀.derived ∧
      (∀ height, ∃ s', rewind env s height = .ok s') ∧
      ∀ b, Served env (bs ++ [b]) →
        (∀ e, applyWithProvenance env s b = .error e ↔
          applyWithProvenance env s₀ b = .error e) ∧
        ∀ s', applyWithProvenance env s b = .ok s' →
          ∃ s₀', applyWithProvenance env s₀ b = .ok s₀' ∧
            s'.rows.Same s₀'.rows ∧ s'.derived = s₀'.derived := by
  obtain ⟨s₀, h₀, hs⟩ := h.rebuilt
  refine ⟨s₀, h₀, hs.1, hs.2, ?_, ?_⟩
  · intro height
    obtain ⟨s', _, hrewind, -⟩ := rewind_rebuilt h.served h₀ hs height
    exact ⟨s', hrewind⟩
  · intro b hnext
    have hboth := next_same h h₀ hs hnext
    exact ⟨hboth.error_iff, fun s' hs' => hboth.ok_left hs'⟩

end

/-! ## A history with a replaced block -/

/-- Nothing is excluded, and the roots are configured. -/
def sampleEnv : Env where
  excluded := fun _ => false
  roots := ⟨1, 2, 3⟩
  mixedCase := fun _ => false
  div := fun a b => a / b

/-- A block with one transfer. -/
def sampleBlock (number : Nat) (hash : Hash) : Block :=
  ⟨number, hash, number, 100 + number,
    [⟨7, .transfer 0 9 5, number, hash, 50 + hash, 0, 0⟩],
    fun _ => none, fun _ => none⟩

theorem sample_served {bs : List Block}
    (hsample : ∀ b ∈ bs, ∃ number hash, b = sampleBlock number hash)
    (hascending : bs.Pairwise fun a b => a.number < b.number)
    (hhashes : bs.Pairwise fun a b => a.hash ≠ b.hash) :
    Served sampleEnv bs where
  ascending := hascending
  hashes := hhashes
  identified := by
    rintro a l ⟨b, hb, ha⟩ ⟨c, hc, hl⟩ heq
    have hnodup : (bs.map (·.hash)).Nodup := List.pairwise_map.mpr hhashes
    obtain ⟨n, hash, rfl⟩ := hsample b hb
    obtain ⟨m, hash', rfl⟩ := hsample c hc
    obtain rfl := List.mem_singleton.mp ha
    obtain rfl := List.mem_singleton.mp hl
    have hhash : (50 + hash : Nat) = 50 + hash' := (Prod.mk.inj heq).1
    have hsame := List.inj_on_of_nodup_map hnodup hb hc
      (Nat.add_left_cancel hhash)
    obtain ⟨rfl, rfl, -⟩ := Block.mk.inj hsame
    rfl
  opened := by
    intro b hb l hl id hupdates
    obtain ⟨n, hash, rfl⟩ := hsample b hb
    obtain rfl := List.mem_singleton.mp hl
    obtain ⟨-, e, he, -⟩ := hupdates
    cases he

/-- A block is applied, another one of its height replaces it, and a third
    block follows. -/
theorem sample_history :
    ∃ s, History sampleEnv [sampleBlock 1 12, sampleBlock 2 21] s := by
  have hrun : ∃ s₁ s₂ s₃,
      applyWithProvenance sampleEnv fresh (sampleBlock 1 11) = .ok s₁ ∧
      applyWithProvenance sampleEnv s₁ (sampleBlock 1 12) = .ok s₂ ∧
      applyWithProvenance sampleEnv s₂ (sampleBlock 2 21) = .ok s₃ :=
    ⟨_, _, _, rfl, rfl, rfl⟩
  obtain ⟨s₁, s₂, s₃, h₁, h₂, h₃⟩ := hrun
  have hone : History sampleEnv [sampleBlock 1 11] s₁ :=
    .apply .start (by simp) (by simp)
      (sample_served (by simp [below]) (by simp [below]) (by simp [below])) h₁
  have htwo : History sampleEnv [sampleBlock 1 12] s₂ :=
    .apply hone (by simp [sampleBlock]) (by simp [sampleBlock])
      (sample_served (by simp [below, sampleBlock])
        (by simp [below, sampleBlock]) (by simp [below, sampleBlock])) h₂
  exact ⟨s₃, .apply htwo (by simp [sampleBlock]) (by simp [sampleBlock])
    (sample_served (by simp [below, sampleBlock])
      (by simp [below, sampleBlock]) (by simp [below, sampleBlock])) h₃⟩

/-- At the sample history the law holds. -/
theorem sample_rebuilt : ∃ s s₀,
    History sampleEnv [sampleBlock 1 12, sampleBlock 2 21] s ∧
    applyAll sampleEnv fresh [sampleBlock 1 12, sampleBlock 2 21] = .ok s₀ ∧
    s.rows.Same s₀.rows := by
  obtain ⟨s, h⟩ := sample_history
  obtain ⟨s₀, h₀, hsame, -⟩ := history_rebuilt h
  exact ⟨s, s₀, h, h₀, hsame⟩

/-! ## Recovering -/

/-- **`recover`**, against a node whose block hashes are `header` throughout. -/
def recover (env : Env) (header : Nat → Hash) (s : Store) :
    Nat → Except IndexError (Store × IndexerBatch.Cursor)
  | 0 =>
      if canonicalBlockHash s.rows.live 0 = some (header 0) then do
        let s' ← rewind env s 1
        .ok (s', ⟨0, some (header 0)⟩)
      else do
        let s' ← rewind env s 1
        .ok (s', ⟨0, none⟩)
  | last + 1 =>
      if canonicalBlockHash s.rows.live (last + 1) = some (header (last + 1)) then do
        let s' ← rewind env s (last + 2)
        .ok (s', ⟨last + 1, some (header (last + 1))⟩)
      else recover env header s last

/-- The block is on the node's chain. -/
def onChain (header : Nat → Hash) (b : Block) : Bool := header b.number = b.hash

/-- Where the indexer stands after some blocks. -/
def lastOf (bs : List Block) : IndexerBatch.Cursor :=
  match bs.getLast? with
  | none => ⟨0, none⟩
  | some b => ⟨b.number, some b.hash⟩

section
variable {env : Env} {bs : List Block} {s : Store} {header : Nat → Hash}

/-- One block a height. -/
theorem Served.eq_of_number (h : Served env bs) {b c : Block} (hb : b ∈ bs)
    (hc : c ∈ bs) (hnumber : b.number = c.number) : b = c := by
  have hnodup : (bs.map (·.number)).Nodup :=
    List.pairwise_map.mpr (h.ascending.imp fun hlt => Nat.ne_of_lt hlt)
  exact List.inj_on_of_nodup_map hnodup hb hc hnumber

/-- The canonical hash of a height is that of the surviving block. -/
theorem History.canonicalBlockHash_iff (h : History env bs s) {n : Nat}
    {hash : Hash} : canonicalBlockHash s.rows.live n = some hash ↔
      ∃ b ∈ bs, b.number = n ∧ b.hash = hash := by
  obtain ⟨s₀, h₀, hs⟩ := h.rebuilt
  have hcanon := canon_applyAll h.served h₀
  have hblock : ∀ r, r ∈ blocksOf s₀.rows.live ↔ ∃ b ∈ bs, blockRow b = r := by
    intro r
    rw [mem_blocksOf]
    constructor
    · intro hr
      cases hcanon.grounded.sourced _ hr rfl with
      | block hb => exact ⟨_, hb, rfl⟩
      | log _ _ _ _ hof _ _ =>
          obtain ⟨table, hkey⟩ := hof
          cases hkey
    · rintro ⟨b, hb, rfl⟩
      exact hcanon.complete.blocks b hb
  rw [canonicalBlockHash_same (.of_same hs.1), canonicalBlockHash,
    Option.map_eq_some_iff]
  constructor
  · rintro ⟨r, hr, rfl⟩
    obtain ⟨b, hb, rfl⟩ := (hblock r).mp (List.mem_of_find?_eq_some hr)
    have hnumber := List.find?_some hr
    rw [decide_eq_true_iff] at hnumber
    exact ⟨b, hb, hnumber, rfl⟩
  · rintro ⟨b, hb, rfl, rfl⟩
    have hsome := List.find?_isSome (p := fun r : BlockRow =>
      decide (r.blockNumber = b.number)) |>.mpr
        ⟨blockRow b, (hblock _).mpr ⟨b, hb, rfl⟩, decide_eq_true rfl⟩
    obtain ⟨r, hr⟩ := Option.isSome_iff_exists.mp hsome
    obtain ⟨c, hc, rfl⟩ := (hblock r).mp (List.mem_of_find?_eq_some hr)
    have hnumber := List.find?_some hr
    rw [decide_eq_true_iff] at hnumber
    obtain rfl := h.served.eq_of_number hc hb hnumber
    exact ⟨_, hr, rfl⟩

/-- The last of the blocks under a height is the one right under it. -/
theorem lastOf_below (h : Served env bs) {b : Block} (hb : b ∈ bs) :
    lastOf (below (b.number + 1) bs) = ⟨b.number, some b.hash⟩ := by
  have hmem : b ∈ below (b.number + 1) bs := mem_below.mpr ⟨hb, by omega⟩
  obtain ⟨init, last, hsplit⟩ := List.eq_nil_or_concat (below (b.number + 1) bs)
    |>.resolve_left (List.ne_nil_of_mem hmem)
  rw [List.concat_eq_append] at hsplit
  have hlast : last ∈ below (b.number + 1) bs := by
    rw [hsplit]
    simp
  obtain ⟨hlastmem, hlt⟩ := mem_below.mp hlast
  have hserved := h.under (b.number + 1)
  rw [hsplit] at hserved hmem
  -- The last block is not under this one, and not over it.
  obtain rfl : last = b := by
    rcases List.mem_append.mp hmem with hmem | hmem
    · have := hserved.lt_last hmem
      omega
    · exact (List.mem_singleton.mp hmem).symm
  rw [lastOf, hsplit, List.getLast?_concat]

/-- Walking down keeps exactly the stored blocks that are on the node's chain,
    and goes on from the last of them. -/
theorem recover_common (h : History env bs s) (last : Nat)
    (hlast : ∀ b ∈ bs, b.number ≤ last)
    (hlinked : ∀ b ∈ bs, onChain header b = true →
      ∀ c ∈ bs, c.number ≤ b.number → onChain header c = true)
    (hgenesis : ∀ b ∈ bs, b.number = 0 → onChain header b = true) :
    ∃ s', recover env header s last =
        .ok (s', lastOf (bs.filter (onChain header))) ∧
      History env (bs.filter (onChain header)) s' := by
  have hrewind : ∀ height, ∃ s', rewind env s height = .ok s' ∧
      History env (below height bs) s' := by
    intro height
    obtain ⟨s₀, h₀, hs⟩ := h.rebuilt
    obtain ⟨s', -, hs', -⟩ := rewind_rebuilt h.served h₀ hs height
    exact ⟨s', hs', h.rewind height hs'⟩
  have hhash : ∀ n, canonicalBlockHash s.rows.live n = some (header n) ↔
      ∃ b ∈ bs, b.number = n ∧ onChain header b = true := by
    intro n
    rw [h.canonicalBlockHash_iff]
    constructor
    · rintro ⟨b, hb, rfl, heq⟩
      exact ⟨b, hb, rfl, decide_eq_true heq.symm⟩
    · rintro ⟨b, hb, rfl, hon⟩
      exact ⟨b, hb, rfl, (of_decide_eq_true hon).symm⟩
  -- A stored block of the node's chain at the height: cut over it.
  have hfound : ∀ n, (∀ b ∈ bs, onChain header b = true → b.number ≤ n) →
      canonicalBlockHash s.rows.live n = some (header n) →
      bs.filter (onChain header) = below (n + 1) bs ∧
        lastOf (below (n + 1) bs) = ⟨n, some (header n)⟩ := by
    intro n hle heq
    obtain ⟨b, hb, rfl, hon⟩ := (hhash n).mp heq
    refine ⟨List.filter_congr fun c hc => ?_, ?_⟩
    · rw [Bool.eq_iff_iff, decide_eq_true_iff]
      constructor
      · intro hc'
        have := hle c hc hc'
        omega
      · intro hc'
        exact hlinked b hb hon c hc (by omega)
    · rw [lastOf_below h.served hb, of_decide_eq_true hon]
  -- Walking down, no block of the node's chain is above.
  have hwalk : ∀ n, (∀ b ∈ bs, onChain header b = true → b.number ≤ n) →
      ∃ s', recover env header s n =
          .ok (s', lastOf (bs.filter (onChain header))) ∧
        History env (bs.filter (onChain header)) s' := by
    intro n
    induction n with
    | zero =>
        intro hle
        rw [recover]
        obtain ⟨s', hs', hhistory⟩ := hrewind 1
        rw [hs']
        split
        · next heq =>
            obtain ⟨hkept, hcursor⟩ := hfound 0 hle heq
            rw [hkept, hcursor]
            exact ⟨s', rfl, hhistory⟩
        · next hne =>
            -- There is no block zero then, and nothing is kept.
            have hnone : ∀ b ∈ bs, b.number ≠ 0 := fun b hb hzero =>
              hne ((hhash 0).mpr ⟨b, hb, hzero, hgenesis b hb hzero⟩)
            have hkept : bs.filter (onChain header) = [] :=
              List.filter_eq_nil_iff.mpr fun b hb hon =>
                hnone b hb (Nat.le_zero.mp (hle b hb hon))
            have hbelow : below 1 bs = [] :=
              List.filter_eq_nil_iff.mpr fun b hb hlt =>
                hnone b hb (by simpa using hlt)
            rw [hbelow] at hhistory
            rw [hkept]
            exact ⟨s', rfl, hhistory⟩
    | succ n ih =>
        intro hle
        rw [recover]
        split
        · next heq =>
            obtain ⟨s', hs', hhistory⟩ := hrewind (n + 2)
            obtain ⟨hkept, hcursor⟩ := hfound (n + 1) hle heq
            rw [hs', hkept, hcursor]
            exact ⟨s', rfl, hhistory⟩
        · next hne =>
            refine ih fun b hb hon => ?_
            have hb' := hle b hb hon
            by_contra hgt
            exact hne ((hhash (n + 1)).mpr ⟨b, hb, by omega, hon⟩)
  exact hwalk last fun b hb _ => hlast b hb

/-- **`recover` FINDS THE FORK**: it always succeeds, leaves what a fresh indexer
    has after exactly the stored blocks that are still on the node's chain, and
    goes on from the last of them. -/
theorem recover_finds_fork (header : Nat → Hash) (h : History env bs s)
    (last : Nat)
    (hlast : ∀ b ∈ bs, b.number ≤ last)
    (hlinked : ∀ b ∈ bs, onChain header b = true →
      ∀ c ∈ bs, c.number ≤ b.number → onChain header c = true)
    (hgenesis : ∀ b ∈ bs, b.number = 0 → onChain header b = true) :
    ∃ s' s₀, recover env header s last =
        .ok (s', lastOf (bs.filter (onChain header))) ∧
      applyAll env fresh (bs.filter (onChain header)) = .ok s₀ ∧
      s'.rows.Same s₀.rows ∧ s'.derived = s₀.derived := by
  obtain ⟨s', hs', hhistory⟩ := recover_common h last hlast hlinked hgenesis
  obtain ⟨s₀, h₀, hsame⟩ := hhistory.rebuilt
  exact ⟨s', s₀, hs', h₀, hsame⟩

/-- The node kept the first block of the sample history and replaced the
    second. -/
theorem sample_recovered : ∃ s s' s₀,
    History sampleEnv [sampleBlock 1 12, sampleBlock 2 21] s ∧
    recover sampleEnv (fun n => if n = 1 then 12 else 99) s 2 =
      .ok (s', ⟨1, some 12⟩) ∧
    applyAll sampleEnv fresh [sampleBlock 1 12] = .ok s₀ ∧
    s'.rows.Same s₀.rows := by
  obtain ⟨s, h⟩ := sample_history
  obtain ⟨s', s₀, hs', h₀, hsame, -⟩ := recover_finds_fork
    (fun n => if n = 1 then 12 else 99) h 2 (by simp [sampleBlock])
    (by simp [sampleBlock, onChain]) (by simp [sampleBlock])
  exact ⟨s, s', s₀, h, hs', h₀, hsame⟩

end

end IndexerStore
