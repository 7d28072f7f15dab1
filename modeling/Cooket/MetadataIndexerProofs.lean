import Cooket.MetadataSessionProofs

/-! # The transactions of the indexer keep the invariant

    The indexer writes the row of a launch, takes the advisory lock of the
    launch, and looks for a draft.  If there is one, it is attached
    (`Inv.recover`); if there is none, none is linked to the launch, and none
    will be before the indexer commits (`Inv.leave`). -/

namespace MetadataLink

section Steps

variable {mint : Nat → Nat × Details} {excluded : Nat → Bool}
variable {s : State}

/-! ## A statement of the indexer -/

/-- The indexer goes on: the sessions and the tables do not notice. -/
theorem Inv.set_indexer (h : Inv mint excluded s) {x : Indexer}
    (hclear : ∀ w i σ, x.work = some w → s.sessions i = some σ → Clear w σ)
    (hwork : ∀ w, x.work = some w → WorkInv mint excluded s.db w x.current)
    (hserialized : ∀ w l, x = .serialized w l →
      ∃ held, w.advisory = (l.token, l.txHash) :: held) :
    Inv mint excluded (s.setIndexer x) where
  drafts := h.drafts
  tokens := h.tokens
  session := h.session
  apart := h.apart
  clear := hclear
  work := hwork
  serialized := hserialized

theorem Inv.crash (h : Inv mint excluded s) :
    Inv mint excluded (s.setIndexer .idle) :=
  h.set_indexer (fun _ _ _ hw => (nomatch hw)) (fun _ hw => (nomatch hw))
    (fun _ _ hx => (nomatch hx))

theorem orphaned_some {p : TokenRow → Bool} {tokens : Key → Option TokenRow}
    {key : Key} {r : TokenRow} (hr : orphaned p tokens key = some r) :
    ∃ r₀, tokens key = some r₀ ∧ r₀.isCanonical = true ∧ p r₀ = true ∧
      r = { r₀ with isCanonical := false } := by
  unfold orphaned at hr
  split at hr
  case h_1 => cases hr
  case h_2 r₀ hr₀ =>
      split at hr
      case isTrue hp =>
          cases hr
          rw [Bool.and_eq_true] at hp
          exact ⟨r₀, hr₀, hp.1, hp.2, rfl⟩
      case isFalse => cases hr

/-- **ROWS ARE WITHDRAWN**, and the launches of a block are to come. -/
theorem Inv.take_up (h : Inv mint excluded s) {number hash : Nat}
    {launches : List Launch} {p : TokenRow → Bool}
    (hfree : ∀ key, (orphaned p s.db.tokens key).isSome → s.TokenFree key)
    (hnone : ∀ l ∈ launches, ∀ key, orphaned p s.db.tokens key = none)
    (honTop : ∀ key r, s.db.tokens key = some r → r.isCanonical = true →
      ∀ l ∈ launches, (l.key = key ↔ l.token = r.tokenAddress))
    (hminted : ∀ l ∈ launches, (l.creator, l.details) = mint l.token)
    (hdistinct :
      launches.Pairwise (fun a b => a.token ≠ b.token ∧ a.key ≠ b.key)) :
    Inv mint excluded (s.setIndexer (.working (takeUp number hash launches
      (orphaned p s.db.tokens)))) := by
  have hwithdrawn : ∀ {key r}, orphaned p s.db.tokens key = some r →
      r.isCanonical = true → False := by
    intro key r hr hc
    obtain ⟨r₀, -, -, -, rfl⟩ := orphaned_some hr
    cases hc
  refine h.set_indexer ?_ ?_ (fun _ _ hx => (nomatch hx))
  · rintro w i σ ⟨⟩ hσ
    refine ⟨?_, fun _ => List.not_mem_nil, List.not_mem_nil⟩
    intro key hkey
    by_contra hsome
    exact hfree key (Option.isSome_iff_ne_none.mpr hsome) i σ hσ hkey
  · rintro w ⟨⟩
    exact {
      minted := by
        intro key r hr
        obtain ⟨r₀, hr₀, -, -, rfl⟩ := orphaned_some hr
        exact h.tokens.minted key r₀ hr₀
      stamped := fun key r hr hc => (hwithdrawn hr hc).elim
      apart := fun key key' r r' hr _ hc => (hwithdrawn hr hc).elim
      onTop := fun key key' r r' _ hr' _ hc' => (hwithdrawn hr' hc').elim
      shown := by
        intro key r m hr hm
        obtain ⟨r₀, hr₀, -, -, rfl⟩ := orphaned_some hr
        exact h.tokens.shown key r₀ m hr₀ hm
      covered := fun key r hr hc => (hwithdrawn hr hc).elim
      attached := fun id d key r hr hc => (hwithdrawn hr hc).elim
      carried := fun key r r₀ hr hc => (hwithdrawn hr hc).elim
      marks := fun id hid => (nomatch hid)
      todo_minted := hminted
      todo_onTop := fun l hl key r hr hc => honTop key r hr hc l hl
      todo_apart := hdistinct
      todo_new := by
        intro l hl
        refine ⟨hnone l hl l.key, ?_⟩
        exact fun key r hr hc => (hwithdrawn hr hc).elim
      done := fun l hl => Or.inl hl
      current := fun l hl => (nomatch hl) }

theorem write_some {w : Work} {key key' : Key} {r r' : TokenRow} :
    (w.write key r).writes key' = some r' ↔
      key' = key ∧ r' = r ∨ key' ≠ key ∧ w.writes key' = some r' := by
  show Function.update w.writes key (some r) key' = some r' ↔ _
  by_cases hkey : key' = key
  · subst hkey
    rw [Function.update_self, Option.some_inj]
    simp [eq_comm]
  · rw [Function.update_of_ne hkey]
    simp [hkey]

section Launches

variable {w : Work} {l : Launch} {rest : List Launch}

/-- A launch of an excluded token is passed over. -/
theorem Inv.skip (h : Inv mint excluded s) (hw : s.indexer = .working w)
    (htodo : w.todo = l :: rest) (hexcluded : excluded l.token = true) :
    Inv mint excluded (s.setIndexer (.working (w.next rest))) := by
  have hwork := h.work w (by rw [hw]; rfl)
  rw [hw] at hwork
  have hin : ∀ a ∈ rest, a ∈ w.todo := by
    intro a ha
    rw [htodo]
    exact List.mem_cons_of_mem l ha
  refine h.set_indexer ?_ ?_ (fun _ _ hx => (nomatch hx))
  · rintro w' i σ ⟨⟩ hσ
    have hclear := h.clear w i σ (by rw [hw]; rfl) hσ
    exact ⟨hclear.row, hclear.launch, hclear.draft⟩
  · rintro w' ⟨⟩
    exact { hwork with
      todo_minted := fun a ha => hwork.todo_minted a (hin a ha)
      todo_onTop := fun a ha => hwork.todo_onTop a (hin a ha)
      todo_apart := by
        have hpairs := hwork.todo_apart
        rw [htodo] at hpairs
        exact (List.pairwise_cons.mp hpairs).2
      todo_new := fun a ha => hwork.todo_new a (hin a ha)
      done := by
        intro a ha
        rcases hwork.done a ha with hmem | hdone
        · rw [htodo] at hmem
          rcases List.mem_cons.mp hmem with rfl | hmem
          · exact Or.inr (Or.inl hexcluded)
          · exact Or.inl hmem
        · exact Or.inr hdone }

/-- **THE ROW OF A LAUNCH** is written.  If the launch is canonical already,
    the row keeps what is attached to it. -/
theorem Inv.upsert (h : Inv mint excluded s) (hw : s.indexer = .working w)
    (htodo : w.todo = l :: rest) (hfree : s.TokenFree l.key) :
    Inv mint excluded (s.setIndexer (.upserted ((w.next rest).write l.key
      (w.rowOf l (overlay w.writes s.db.tokens l.key))) l)) := by
  have hwork := h.work w (by rw [hw]; rfl)
  rw [hw] at hwork
  have hhead : l ∈ w.todo := by
    rw [htodo]
    exact List.mem_cons_self
  have hin : ∀ a ∈ rest, a ∈ w.todo := by
    intro a ha
    rw [htodo]
    exact List.mem_cons_of_mem l ha
  have hpairs := hwork.todo_apart
  rw [htodo, List.pairwise_cons] at hpairs
  obtain ⟨hunwritten, hnewToken⟩ := hwork.todo_new l hhead
  have hold : overlay w.writes s.db.tokens l.key = s.db.tokens l.key := by
    rw [overlay, hunwritten]
    rfl
  rw [hold]
  have hminted := hwork.todo_minted l hhead
  -- what the row shows was attached to the same launch
  have hcontent : ∀ r₀, s.db.tokens l.key = some r₀ →
      r₀.tokenAddress = l.token →
      (w.rowOf l (s.db.tokens l.key)).content = r₀.content := by
    intro r₀ hr₀ htoken
    have hsame := h.tokens.minted l.key r₀ hr₀
    rw [htoken, ← hminted, Prod.mk.injEq] at hsame
    rw [hr₀, Work.rowOf]
    exact if_pos ⟨htoken, hsame.1, hsame.2⟩
  refine h.set_indexer ?_ ?_ (fun _ _ hx => (nomatch hx))
  · rintro w' i σ ⟨⟩ hσ
    have hclear := h.clear w i σ (by rw [hw]; rfl) hσ
    refine ⟨?_, hclear.launch, hclear.draft⟩
    intro key hkey
    have hne : key ≠ l.key := by
      rintro rfl
      exact hfree i σ hσ hkey
    exact (Function.update_of_ne hne _ _).trans (hclear.row key hkey)
  · rintro w' ⟨⟩
    exact {
      minted := by
        intro key r hr
        rcases write_some.mp hr with ⟨-, rfl⟩ | ⟨-, hr⟩
        · exact hminted
        · exact hwork.minted key r hr
      stamped := by
        intro key r hr hc
        rcases write_some.mp hr with ⟨-, rfl⟩ | ⟨-, hr⟩
        · exact ⟨rfl, rfl⟩
        · exact hwork.stamped key r hr hc
      apart := by
        intro key key' r r' hr hr' hc hc' heq
        rcases write_some.mp hr with ⟨hkey, rfl⟩ | ⟨-, hr⟩ <;>
          rcases write_some.mp hr' with ⟨hkey', rfl⟩ | ⟨-, hrow⟩
        · exact hkey.trans hkey'.symm
        · exact absurd heq.symm (hnewToken key' r' hrow hc')
        · exact absurd heq (hnewToken key r hr hc)
        · exact hwork.apart key key' r r' hr hrow hc hc' heq
      onTop := by
        intro key key' r r' hr hr' hc hc'
        rcases write_some.mp hr' with ⟨rfl, rfl⟩ | ⟨-, hr'⟩
        · exact hwork.todo_onTop l hhead key r hr hc
        · exact hwork.onTop key key' r r' hr hr' hc hc'
      shown := by
        intro key r m hr hm
        rcases write_some.mp hr with ⟨rfl, rfl⟩ | ⟨-, hr⟩
        · -- the old row is of the same launch, or nothing is shown
          cases hr₀ : s.db.tokens l.key with
          | none =>
              rw [hr₀] at hm
              cases hm
          | some r₀ =>
              by_cases hsame : r₀.tokenAddress = l.token ∧
                  r₀.creatorAddress = l.creator ∧ r₀.details = l.details
              · rw [hcontent r₀ hr₀ hsame.1] at hm
                obtain ⟨id, d, hd, ⟨ht, hx, hc, hdetails⟩, hdm⟩ :=
                  h.tokens.shown l.key r₀ m hr₀ hm
                exact ⟨id, d, hd, ⟨ht.trans (congrArg some hsame.1), hx,
                  hc.trans (congrArg some hsame.2.1),
                  hdetails.trans hsame.2.2⟩, hdm⟩
              · rw [hr₀, Work.rowOf] at hm
                dsimp only at hm
                rw [if_neg hsame] at hm
                cases hm
        · exact hwork.shown key r m hr hm
      covered := by
        intro key r hr hc hcurrent
        rcases write_some.mp hr with ⟨hkey, -⟩ | ⟨-, hr⟩
        · exact absurd hkey (hcurrent l rfl)
        · exact hwork.covered key r hr hc (fun _ hl => (nomatch hl))
      attached := by
        intro id d key r hr hc hcurrent hd hmatch
        rcases write_some.mp hr with ⟨hkey, -⟩ | ⟨-, hr⟩
        · exact absurd hkey (hcurrent l rfl)
        · exact hwork.attached id d key r hr hc (fun _ hl => (nomatch hl))
            hd hmatch
      carried := by
        intro key r r₀ hr hc hr₀ hc₀
        rcases write_some.mp hr with ⟨rfl, rfl⟩ | ⟨-, hr⟩
        · exact hcontent r₀ hr₀
            ((hwork.todo_onTop l hhead l.key r₀ hr₀ hc₀).mp rfl).symm
        · exact hwork.carried key r r₀ hr hc hr₀ hc₀
      marks := by
        intro id hid
        obtain ⟨d, key, r, hd, hr, hc, hmatch⟩ := hwork.marks id hid
        refine ⟨d, key, r, hd, write_some.mpr (Or.inr ⟨?_, hr⟩), hc, hmatch⟩
        rintro rfl
        rw [hunwritten] at hr
        cases hr
      todo_minted := fun a ha => hwork.todo_minted a (hin a ha)
      todo_onTop := fun a ha => hwork.todo_onTop a (hin a ha)
      todo_apart := hpairs.2
      todo_new := by
        intro a ha
        obtain ⟨hnone, htoken⟩ := hwork.todo_new a (hin a ha)
        refine ⟨?_, ?_⟩
        · have hne : a.key ≠ l.key := (hpairs.1 a ha).2.symm
          exact (Function.update_of_ne hne _ _).trans hnone
        · intro key r hr hc
          rcases write_some.mp hr with ⟨-, rfl⟩ | ⟨-, hr⟩
          · exact (hpairs.1 a ha).1
          · exact htoken key r hr hc
      done := by
        intro a ha
        rcases hwork.done a ha with hmem | hexcluded | ⟨r, hr, hwritten⟩
        · rw [htodo] at hmem
          rcases List.mem_cons.mp hmem with rfl | hmem
          · exact Or.inr (Or.inr ⟨_, write_some.mpr (Or.inl ⟨rfl, rfl⟩),
              rfl, rfl, rfl, rfl⟩)
          · exact Or.inl hmem
        · exact Or.inr (Or.inl hexcluded)
        · refine Or.inr (Or.inr ⟨r, write_some.mpr (Or.inr ⟨?_, hr⟩),
            hwritten⟩)
          intro heq
          rw [heq, hunwritten] at hr
          cases hr
      current := by
        rintro l' ⟨⟩
        exact ⟨_, write_some.mpr (Or.inl ⟨rfl, rfl⟩), rfl, rfl, rfl, rfl⟩ }

/-- The advisory lock of the launch. -/
theorem Inv.advisory (h : Inv mint excluded s) (hw : s.indexer = .upserted w l)
    (hfree : s.LaunchFree l.token l.txHash) :
    Inv mint excluded (s.setIndexer (.serialized (w.serialize l) l)) := by
  have hwork := h.work w (by rw [hw]; rfl)
  rw [hw] at hwork
  refine h.set_indexer ?_ ?_ ?_
  · rintro w' i σ ⟨⟩ hσ
    have hclear := h.clear w i σ (by rw [hw]; rfl) hσ
    refine ⟨hclear.row, ?_, hclear.draft⟩
    intro hserial hmem
    rcases List.mem_cons.mp hmem with heq | hmem
    · exact hfree i σ hσ hserial heq
    · exact hclear.launch hserial hmem
  · rintro w' ⟨⟩
    exact { hwork with
      covered := fun key r hr hc hcurrent =>
        (hwork.covered key r hr hc hcurrent).imp_left
          (List.mem_cons_of_mem _) }
  · rintro w' l' ⟨⟩
    exact ⟨w.advisory, rfl⟩

/-- A draft that matches the row of the launch at hand is one that the indexer
    looks for. -/
theorem candidate_of_matches {r : TokenRow} {id : Nat} {d : Draft}
    (hcurrent : r.tokenAddress = l.token ∧ r.creatorAddress = l.creator ∧
      r.details = l.details) (hd : s.db.drafts id = some d) :
    d.Matches l.key r ↔ l.Candidate s.db id d := by
  obtain ⟨htoken, hcreator, hdetails⟩ := hcurrent
  rw [Draft.Matches, htoken, hcreator, hdetails]
  constructor
  · rintro ⟨ht, hx, hc, hsame⟩
    exact ⟨hd, ⟨ht, hx, hc⟩, hsame⟩
  · rintro ⟨-, ⟨ht, hx, hc⟩, hsame⟩
    exact ⟨ht, hx, hc, hsame⟩

/-- **THE METADATA IS DONE** with: the row of the launch is as the others. -/
theorem WorkInv.settle {db : Database}
    (hwork : WorkInv mint excluded db w (some l)) {advisory : List (Nat × Nat)}
    (hadvisory : ∀ key r, w.writes key = some r → r.isCanonical = true →
      key ≠ l.key → (r.tokenAddress, key.1) ∈ w.advisory →
        (r.tokenAddress, key.1) ∈ advisory)
    (hcovered : ∀ r, w.writes l.key = some r → r.isCanonical = true →
      (r.tokenAddress, l.txHash) ∈ advisory ∨
        ∃ r₀, db.tokens l.key = some r₀ ∧ r₀.isCanonical = true)
    (hattached : ∀ id d r, w.writes l.key = some r → r.isCanonical = true →
      db.drafts id = some d → d.Matches l.key r →
      r.content = some d.content ∧
        (d.finalized = true ∨ id ∈ w.marked)) :
    WorkInv mint excluded db { w with advisory := advisory } none :=
  { hwork with
    covered := by
      intro key r hr hc _
      by_cases hkey : key = l.key
      · subst hkey
        exact hcovered r hr hc
      · refine (hwork.covered key r hr hc ?_).imp_left
          (hadvisory key r hr hc hkey)
        rintro l' ⟨⟩
        exact hkey
    attached := by
      intro id d key r hr hc _ hd hmatch
      by_cases hkey : key = l.key
      · subst hkey
        exact hattached id d r hr hc hd hmatch
      · refine hwork.attached id d key r hr hc ?_ hd hmatch
        rintro l' ⟨⟩
        exact hkey
    current := fun _ hl => (nomatch hl) }

/-- No draft for the launch, or more than one: the latter cannot be. -/
theorem Inv.leave (h : Inv mint excluded s) (hw : s.indexer = .serialized w l)
    (hnone : ¬ ∃ id d, l.Candidate s.db id d ∧
      ∀ id' d', l.Candidate s.db id' d' → id' = id) :
    Inv mint excluded (s.setIndexer (.working w)) := by
  have hwork := h.work w (by rw [hw]; rfl)
  rw [hw] at hwork
  obtain ⟨held, hheld⟩ := h.serialized w l hw
  obtain ⟨r₁, hr₁, -, hcurrent⟩ := hwork.current l rfl
  refine h.set_indexer ?_ ?_ (fun _ _ hx => (nomatch hx))
  · rintro w' i σ ⟨⟩ hσ
    exact h.clear w i σ (by rw [hw]; rfl) hσ
  · rintro w' ⟨⟩
    refine hwork.settle (fun _ _ _ _ _ hmem => hmem) ?_ ?_
    · intro r hr _
      rw [hr₁] at hr
      cases hr
      left
      rw [hheld, hcurrent.1]
      exact List.mem_cons_self
    · intro id d r hr _ hd hmatch
      rw [hr₁] at hr
      cases hr
      have hcandidate := (candidate_of_matches hcurrent hd).mp hmatch
      refine absurd ⟨id, d, hcandidate, ?_⟩ hnone
      intro id' d' hcandidate'
      exact h.drafts.single id' id d' d _ _ _ hcandidate'.1 hd
        hcandidate'.2.1 hcandidate.2.1

/-- The one row that the indexer takes to be the launch is its own. -/
theorem indexed_iff (h : Inv mint excluded s) (hw : s.indexer = .serialized w l)
    (key : Key) :
    (∃ r, overlay w.writes s.db.tokens key = some r ∧ l.Indexed key r) ↔
      key = l.key := by
  have hwork := h.work w (by rw [hw]; rfl)
  rw [hw] at hwork
  obtain ⟨r₁, hr₁, hc₁, htoken, hcreator, hdetails⟩ := hwork.current l rfl
  constructor
  · rintro ⟨r, hr, hc, ht, -, -⟩
    rw [overlay, Option.or_eq_some_iff] at hr
    rcases hr with hr | ⟨-, hr⟩
    · exact hwork.apart key l.key r r₁ hr hr₁ hc hc₁ (ht.trans htoken.symm)
    · exact ((hwork.onTop key l.key r r₁ hr hr₁ hc hc₁).mpr
        (htoken.trans ht.symm)).symm
  · rintro rfl
    refine ⟨r₁, ?_, hc₁, htoken, rfl, hdetails⟩
    rw [overlay, hr₁]
    rfl

/-- **THE DRAFT IS FOUND**, and attached. -/
theorem Inv.recover (h : Inv mint excluded s) (hw : s.indexer = .serialized w l)
    {id : Nat} {d : Draft} {key : Key} {r : TokenRow}
    (hcandidate : l.Candidate s.db id d)
    (honly : ∀ id' d', l.Candidate s.db id' d' → id' = id)
    (hfree : s.DraftFree id)
    (hr : overlay w.writes s.db.tokens key = some r)
    (hindexed : l.Indexed key r) :
    Inv mint excluded (s.setIndexer (.working ((w.mark id).write key
      { r with content := some d.content }))) := by
  obtain rfl := (indexed_iff h hw key).mp ⟨r, hr, hindexed⟩
  have hwork := h.work w (by rw [hw]; rfl)
  rw [hw] at hwork
  obtain ⟨held, hheld⟩ := h.serialized w l hw
  obtain ⟨r₁, hr₁, hc₁, hcurrent⟩ := hwork.current l rfl
  have hsame : r = r₁ := by
    rw [overlay, hr₁] at hr
    exact (Option.some_inj.mp hr).symm
  subst hsame
  have hd := hcandidate.1
  have hmatches : d.Matches l.key { r with content := some d.content } :=
    (candidate_of_matches hcurrent hd).mpr hcandidate
  refine h.set_indexer ?_ ?_ (fun _ _ hx => (nomatch hx))
  · rintro w' i σ ⟨⟩ hσ
    have hclear := h.clear w i σ (by rw [hw]; rfl) hσ
    refine ⟨?_, hclear.launch, ?_⟩
    · intro key hkey
      have hnone := hclear.row key hkey
      have hne : key ≠ l.key := by
        rintro rfl
        rw [hr₁] at hnone
        cases hnone
      exact (Function.update_of_ne hne _ _).trans hnone
    · intro hmem
      rcases List.mem_cons.mp hmem with heq | hmem
      · exact hfree i σ hσ heq
      · exact hclear.draft hmem
  · rintro w' ⟨⟩
    -- but for what it shows, the row is the one that was written
    have hrow : ∀ key' r', ((w.mark id).write l.key
        { r with content := some d.content }).writes key' = some r' →
        ∃ r₂, w.writes key' = some r₂ ∧
          r' = { r₂ with content := r'.content } ∧
          (key' ≠ l.key → r' = r₂) := by
      intro key' r' hr'
      rcases write_some.mp hr' with ⟨rfl, rfl⟩ | ⟨-, hr'⟩
      · exact ⟨r, hr₁, rfl, fun hne => absurd rfl hne⟩
      · exact ⟨r', hr', rfl, fun _ => rfl⟩
    exact {
      minted := by
        intro key' r' hr'
        obtain ⟨r₂, hr₂, heq, -⟩ := hrow key' r' hr'
        rw [heq]
        exact hwork.minted key' r₂ hr₂
      stamped := by
        intro key' r' hr' hc
        obtain ⟨r₂, hr₂, heq, -⟩ := hrow key' r' hr'
        rw [heq] at hc ⊢
        exact hwork.stamped key' r₂ hr₂ hc
      apart := by
        intro key₁ key₂ r₁ r₂ hr₁ hr₂ hc₁ hc₂ htoken
        obtain ⟨r₃, hr₃, heq₁, -⟩ := hrow key₁ r₁ hr₁
        obtain ⟨r₄, hr₄, heq₂, -⟩ := hrow key₂ r₂ hr₂
        rw [heq₁] at hc₁ htoken
        rw [heq₂] at hc₂ htoken
        exact hwork.apart key₁ key₂ r₃ r₄ hr₃ hr₄ hc₁ hc₂ htoken
      onTop := by
        intro key₁ key₂ r₁ r₂ hr₁ hr₂ hc₁ hc₂
        obtain ⟨r₄, hr₄, heq₂, -⟩ := hrow key₂ r₂ hr₂
        rw [heq₂] at hc₂ ⊢
        exact hwork.onTop key₁ key₂ r₁ r₄ hr₁ hr₄ hc₁ hc₂
      shown := by
        intro key' r' m hr' hm
        rcases write_some.mp hr' with ⟨rfl, rfl⟩ | ⟨-, hr'⟩
        · exact ⟨id, d, hd, hmatches, Option.some_inj.mp hm⟩
        · exact hwork.shown key' r' m hr' hm
      covered := by
        intro key' r' hr' hc _
        rcases write_some.mp hr' with ⟨rfl, rfl⟩ | ⟨hkey, hr'⟩
        · left
          show (r.tokenAddress, l.txHash) ∈ w.advisory
          rw [hheld, hcurrent.1]
          exact List.mem_cons_self
        · refine hwork.covered key' r' hr' hc ?_
          rintro l' ⟨⟩
          exact hkey
      attached := by
        intro id' d' key' r' hr' hc _ hd' hmatch
        rcases write_some.mp hr' with ⟨rfl, rfl⟩ | ⟨hkey, hr'⟩
        · have heq := honly id' d'
            ((candidate_of_matches hcurrent hd').mp hmatch)
          subst heq
          rw [hd] at hd'
          cases hd'
          exact ⟨rfl, Or.inr List.mem_cons_self⟩
        · have hold := hwork.attached id' d' key' r' hr' hc (by
            rintro l' ⟨⟩
            exact hkey) hd' hmatch
          exact ⟨hold.1, hold.2.imp_right (List.mem_cons_of_mem _)⟩
      carried := by
        intro key' r' r₀ hr' hc hr₀ hc₀
        rcases write_some.mp hr' with ⟨rfl, rfl⟩ | ⟨-, hr'⟩
        · -- the launch is canonical, so the draft is attached to it already
          have htoken := (hwork.onTop l.key l.key r₀ r hr₀ hr₁ hc₀ hc₁).mp rfl
          have hmatch₀ : d.Matches l.key r₀ := hmatches.of_minted
            (hwork.minted l.key r hr₁) (h.tokens.minted l.key r₀ hr₀) htoken
          exact (h.tokens.attached id d l.key r₀ hd hr₀ hc₀ hmatch₀).1.symm
        · exact hwork.carried key' r' r₀ hr' hc hr₀ hc₀
      marks := by
        intro id' hid'
        rcases List.mem_cons.mp hid' with rfl | hid'
        · exact ⟨d, l.key, _, hd, write_some.mpr (Or.inl ⟨rfl, rfl⟩), hc₁,
            hmatches⟩
        · obtain ⟨d', key', r', hd', hr', hc, hmatch⟩ := hwork.marks id' hid'
          by_cases hkey : key' = l.key
          · subst hkey
            rw [hr₁] at hr'
            cases hr'
            exact ⟨d', l.key, _, hd', write_some.mpr (Or.inl ⟨rfl, rfl⟩), hc,
              hmatch⟩
          · exact ⟨d', key', r', hd', write_some.mpr (Or.inr ⟨hkey, hr'⟩),
              hc, hmatch⟩
      todo_minted := hwork.todo_minted
      todo_onTop := hwork.todo_onTop
      todo_apart := hwork.todo_apart
      todo_new := by
        intro a ha
        obtain ⟨hnone, htoken⟩ := hwork.todo_new a ha
        refine ⟨?_, ?_⟩
        · have hne : a.key ≠ l.key := by
            intro heq
            rw [heq, hr₁] at hnone
            cases hnone
          exact (Function.update_of_ne hne _ _).trans hnone
        · intro key' r' hr' hc
          obtain ⟨r₂, hr₂, heq, -⟩ := hrow key' r' hr'
          rw [heq] at hc ⊢
          exact htoken key' r₂ hr₂ hc
      done := by
        intro a ha
        rcases hwork.done a ha with hmem | hexcluded | ⟨r', hr', hwritten⟩
        · exact Or.inl hmem
        · exact Or.inr (Or.inl hexcluded)
        · refine Or.inr (Or.inr ?_)
          by_cases hkey : a.key = l.key
          · rw [hkey, hr₁] at hr'
            cases hr'
            exact ⟨_, write_some.mpr (Or.inl ⟨hkey, rfl⟩), hwritten⟩
          · exact ⟨r', write_some.mpr (Or.inr ⟨hkey, hr'⟩), hwritten⟩
      current := fun _ hl => (nomatch hl) }

/-- **THE INDEXER GIVES WAY** to a session: the launch was canonical already,
    with what is attached to it. -/
theorem Inv.give_way (h : Inv mint excluded s)
    (hwork : s.indexer.work = some w) (hcurrent : s.indexer.current = some l)
    (hblocked : s.Blocked w l) {advisory : List (Nat × Nat)}
    (hsub : ∀ x ∈ advisory, x ∈ w.advisory)
    (hadvisory : ∀ x ∈ w.advisory, x ≠ (l.token, l.txHash) → x ∈ advisory) :
    Inv mint excluded
      (s.setIndexer (.working { w with advisory := advisory })) := by
  have hinv := h.work w hwork
  rw [hcurrent] at hinv
  obtain ⟨r₁, hr₁, hc₁, hlaunch⟩ := hinv.current l rfl
  obtain ⟨i, σ, key, r₀, -, -, htoken, -, hr₀, hindexed, -⟩ := hblocked
  have hsame : r₁.tokenAddress = r₀.tokenAddress :=
    hlaunch.1.trans (htoken.symm.trans hindexed.2.1.symm)
  obtain rfl := (hinv.onTop key l.key r₀ r₁ hr₀ hr₁ hindexed.1 hc₁).mpr hsame
  refine h.set_indexer ?_ ?_ (fun _ _ hx => (nomatch hx))
  · rintro w' j τ ⟨⟩ hτ
    have hclear := h.clear w j τ hwork hτ
    exact ⟨hclear.row, fun hserial hmem =>
      hclear.launch hserial (hsub _ hmem), hclear.draft⟩
  · rintro w' ⟨⟩
    refine hinv.settle ?_ ?_ ?_
    · intro key r hr hc hkey hmem
      refine hadvisory _ hmem ?_
      intro heq
      refine hkey (hinv.apart key l.key r r₁ hr hr₁ hc hc₁ ?_)
      exact (congrArg Prod.fst heq).trans hlaunch.1.symm
    · exact fun r _ _ => Or.inr ⟨r₀, hr₀, hindexed.1⟩
    · intro id d r hr hc hd hmatch
      rw [hr₁] at hr
      cases hr
      have hmatch₀ : d.Matches l.key r₀ := hmatch.of_minted
        (hinv.minted l.key r₁ hr₁) (h.tokens.minted l.key r₀ hr₀) hsame
      obtain ⟨hshown, hdone⟩ :=
        h.tokens.attached id d l.key r₀ hd hr₀ hindexed.1 hmatch₀
      rw [hinv.carried l.key r₁ r₀ hr₁ hc₁ hr₀ hindexed.1]
      exact ⟨hshown, Or.inl hdone⟩

/-- A committed draft is as it was, or finalized. -/
theorem commit_draft {db : Database} {id : Nat} {d' : Draft}
    (hd' : (w.commit db).drafts id = some d') :
    ∃ d, db.drafts id = some d ∧ (id ∉ w.marked → d' = d) ∧
      d'.tokenAddress = d.tokenAddress ∧
      d'.transactionHash = d.transactionHash ∧
      d'.creatorAddress = d.creatorAddress ∧ d'.details = d.details ∧
      d'.content = d.content ∧
      (d'.finalized = true ↔ d.finalized = true ∨ id ∈ w.marked) := by
  obtain ⟨d, hd, heq⟩ := Option.map_eq_some_iff.mp hd'
  refine ⟨d, hd, ?_⟩
  by_cases hid : id ∈ w.marked
  · rw [if_pos hid] at heq
    subst heq
    exact ⟨fun hnot => absurd hid hnot, rfl, rfl, rfl, rfl, rfl,
      fun _ => Or.inr hid, fun _ => rfl⟩
  · rw [if_neg hid] at heq
    subst heq
    exact ⟨fun _ => rfl, rfl, rfl, rfl, rfl, rfl, Or.inl,
      fun hf => hf.resolve_right hid⟩

theorem kept_commit (w : Work) (db : Database) : Kept db (w.commit db) := by
  intro id d hd
  have hmap : (w.commit db).drafts id = some
      (if id ∈ w.marked then { d with finalized := true } else d) := by
    show (db.drafts id).map _ = _
    rw [hd]
    rfl
  refine ⟨_, hmap, ?_⟩
  by_cases hid : id ∈ w.marked
  · rw [if_pos hid]
    exact ⟨rfl, rfl, fun _ => rfl, fun _ _ _ hclaims => hclaims⟩
  · rw [if_neg hid]
    exact ⟨rfl, rfl, fun hf => hf, fun _ _ _ hclaims => hclaims⟩

/-- **THE BLOCK IS COMMITTED.** -/
theorem Inv.commit (h : Inv mint excluded s) (hw : s.indexer = .working w) :
    Inv mint excluded (s.commitWork w) := by
  have hwork := h.work w (by rw [hw]; rfl)
  rw [hw] at hwork
  have hdone : ∀ (key : Key) (l : Launch),
      (Indexer.working w).current = some l → key ≠ l.key :=
    fun _ _ hl => (nomatch hl)
  have hrows : ∀ {key r}, overlay w.writes s.db.tokens key = some r →
      w.writes key = some r ∨
        w.writes key = none ∧ s.db.tokens key = some r := by
    intro key r hr
    exact Option.or_eq_some_iff.mp hr
  have hmatches : ∀ {d d' : Draft} {key : Key} {r : TokenRow},
      d'.tokenAddress = d.tokenAddress → d'.transactionHash =
        d.transactionHash → d'.creatorAddress = d.creatorAddress →
      d'.details = d.details → d'.Matches key r → d.Matches key r := by
    intro d d' key r ht hx hc hdetails hmatch
    exact ⟨ht ▸ hmatch.1, hx ▸ hmatch.2.1, hc ▸ hmatch.2.2.1,
      hdetails ▸ hmatch.2.2.2⟩
  exact {
    drafts := {
      linked := by
        intro id d' hd'
        obtain ⟨d, hd, -, ht, hx, -, -, -, hf⟩ := commit_draft hd'
        rw [ht, hx, hf]
        refine ⟨(h.drafts.linked id d hd).1, ?_⟩
        rintro (hfinal | hmarked)
        · exact (h.drafts.linked id d hd).2 hfinal
        · obtain ⟨d₁, key, r, hd₁, -, -, hmatch⟩ := hwork.marks id hmarked
          rw [hd] at hd₁
          cases hd₁
          rw [hmatch.1]
          rfl
      single := by
        intro id id' d₁ d₂ k x c hd₁ hd₂ hc₁ hc₂
        obtain ⟨d₃, hd₃, -, ht₃, hx₃, hcr₃, -⟩ := commit_draft hd₁
        obtain ⟨d₄, hd₄, -, ht₄, hx₄, hcr₄, -⟩ := commit_draft hd₂
        refine h.drafts.single id id' d₃ d₄ k x c hd₃ hd₄ ?_ ?_
        · exact ⟨ht₃ ▸ hc₁.1, hx₃ ▸ hc₁.2.1, hcr₃ ▸ hc₁.2.2⟩
        · exact ⟨ht₄ ▸ hc₂.1, hx₄ ▸ hc₂.2.1, hcr₄ ▸ hc₂.2.2⟩ }
    tokens := {
      minted := by
        intro key r hr
        rcases hrows hr with hr | ⟨-, hr⟩
        · exact hwork.minted key r hr
        · exact h.tokens.minted key r hr
      apart := by
        intro key key' r r' hr hr' hc hc' heq
        rcases hrows hr with hr | ⟨-, hr⟩ <;>
          rcases hrows hr' with hrow | ⟨-, hrow⟩
        · exact hwork.apart key key' r r' hr hrow hc hc' heq
        · exact (hwork.onTop key' key r' r hrow hr hc' hc).mpr heq
        · exact ((hwork.onTop key key' r r' hr hrow hc hc').mpr heq.symm).symm
        · exact h.tokens.apart key key' r r' hr hrow hc hc' heq
      shown := by
        intro key r m hr hm
        have hold : ∃ id d, s.db.drafts id = some d ∧ d.Matches key r ∧
            d.content = m := by
          rcases hrows hr with hr | ⟨-, hr⟩
          · exact hwork.shown key r m hr hm
          · exact h.tokens.shown key r m hr hm
        obtain ⟨id, d, hd, hmatch, hcontent⟩ := hold
        obtain ⟨d', hd', hcontent', hmatch'⟩ :=
          (kept_commit w s.db).matches hd hmatch
        exact ⟨id, d', hd', hmatch', hcontent'.trans hcontent⟩
      attached := by
        intro id d' key r hd' hr hc hmatch'
        obtain ⟨d, hd, -, ht, hx, hcr, hdetails, hcontent, hf⟩ :=
          commit_draft hd'
        have hmatch := hmatches ht hx hcr hdetails hmatch'
        rw [hcontent, hf]
        rcases hrows hr with hr | ⟨-, hr⟩
        · exact hwork.attached id d key r hr hc (hdone key) hd hmatch
        · obtain ⟨hshown, hfinal⟩ :=
            h.tokens.attached id d key r hd hr hc hmatch
          exact ⟨hshown, Or.inl hfinal⟩ }
    session := by
      intro i σ hσ
      have hsession := h.session i σ hσ
      have hclear := h.clear w i σ (by rw [hw]; rfl) hσ
      refine hsession.later ?_ ?_ ?_ ?_
      · show (s.db.drafts _).map _ = _
        rw [hsession.read]
        exact congrArg some (if_neg hclear.draft)
      · intro id d' k x c hid hd' hc hc'
        obtain ⟨d, hd, -, ht, hx, hcr, -⟩ := commit_draft hd'
        exact hsession.single id d k x c hid hd hc
          ⟨ht ▸ hc'.1, hx ▸ hc'.2.1, hcr ▸ hc'.2.2⟩
      · -- a row of its launch would have needed the session's lock
        intro hstage hun key r hr hindexed
        rcases hrows hr with hr | ⟨-, hr⟩
        · have hserial : σ.serializes = true := by
            simp [Session.serializes, hun, hstage]
          rcases hwork.covered key r hr hindexed.1 (hdone key) with
            hheld | ⟨r₀, hr₀, hc₀⟩
          · rw [hindexed.2.1, hindexed.2.2] at hheld
            exact absurd hheld (hclear.launch hserial)
          · have htoken :=
              (hwork.onTop key key r₀ r hr₀ hr hc₀ hindexed.1).mp rfl
            exact ⟨key, r₀, hr₀, hc₀, htoken.symm.trans hindexed.2.1,
              hindexed.2.2⟩
        · exact ⟨key, r, hr, hindexed⟩
      · intro key r hstage hr hindexed
        refine ⟨r, ?_, hindexed⟩
        show (w.writes key).or (s.db.tokens key) = some r
        rw [hclear.row key hstage, hr]
        rfl
    apart := h.apart
    clear := fun _ _ _ hx => (nomatch hx)
    work := fun _ hx => (nomatch hx)
    serialized := fun _ _ hx => (nomatch hx) }

/-- **EVERY LAUNCH OF THE BLOCK** that is not excluded is canonical then. -/
theorem launch_committed (h : Inv mint excluded s)
    (hw : s.indexer = .working w) (htodo : w.todo = []) (hl : l ∈ w.launches)
    (hexcluded : excluded l.token = false) :
    ∃ r, (s.commitWork w).db.tokens l.key = some r ∧ l.Written r := by
  rcases (h.work w (by rw [hw]; rfl)).done l hl with
    hmem | hskipped | ⟨r, hr, hwritten⟩
  · rw [htodo] at hmem
    cases hmem
  · rw [hexcluded] at hskipped
    cases hskipped
  · refine ⟨r, ?_, hwritten⟩
    show (w.writes l.key).or _ = some r
    rw [hr]
    rfl

end Launches

end Steps

end MetadataLink
