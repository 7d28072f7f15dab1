import Cooket.MetadataInvariantProofs

/-! # The transactions of FinalizeMetadata keep the invariant

    One lemma for each statement.  A session that goes on disturbs nobody
    (`Inv.advance`), as long as what it locks or claims was free.  What it
    COMMITS is another matter: a link that is committed while the launch is
    not there (`Inv.commit_pending`), and a draft that is committed together
    with its launch (`Inv.commit_attached`). -/

namespace MetadataLink

section Steps

variable {mint : Nat → Nat × Details} {excluded : Nat → Bool}
variable {s : State}

/-! ## A statement of a session -/

theorem Apart.symm {σ τ : Session} (h : Apart σ τ) : Apart τ σ where
  draft := h.draft.symm
  launch := fun hτ hσ => (h.launch hσ hτ).symm
  row := fun key hτ hσ => h.row key hσ hτ
  claim := fun k x c hτ hσ => h.claim k x c hσ hτ

theorem setSession_some {i j : Nat} {σ τ : Session} :
    (s.setSession i (some σ)).sessions j = some τ ↔
      j = i ∧ τ = σ ∨ j ≠ i ∧ s.sessions j = some τ := by
  show Function.update s.sessions i (some σ) j = some τ ↔ _
  by_cases hj : j = i
  · subst hj
    rw [Function.update_self, Option.some_inj]
    simp [eq_comm]
  · rw [Function.update_of_ne hj]
    simp [hj]

theorem setSession_none {i j : Nat} {τ : Session}
    (h : (s.setSession i none).sessions j = some τ) :
    j ≠ i ∧ s.sessions j = some τ := by
  change Function.update s.sessions i none j = some τ at h
  by_cases hj : j = i
  · subst hj
    rw [Function.update_self] at h
    cases h
  · rw [Function.update_of_ne hj] at h
    exact ⟨hj, h⟩

/-- A session begins, or goes on: nobody else notices. -/
theorem Inv.set_session (h : Inv mint excluded s) {i : Nat} {σ : Session}
    (hσ : SessionInv mint s.db σ)
    (hapart : ∀ j τ, j ≠ i → s.sessions j = some τ → Apart σ τ)
    (hclear : ∀ w, s.indexer.work = some w → Clear w σ) :
    Inv mint excluded (s.setSession i (some σ)) where
  drafts := h.drafts
  tokens := h.tokens
  session := by
    intro j τ hτ
    rcases setSession_some.mp hτ with ⟨-, rfl⟩ | ⟨-, hτ⟩
    · exact hσ
    · exact h.session j τ hτ
  apart := by
    intro j k τ υ hjk hτ hυ
    rcases setSession_some.mp hτ with ⟨rfl, rfl⟩ | ⟨hj, hτold⟩ <;>
      rcases setSession_some.mp hυ with ⟨rfl, rfl⟩ | ⟨hk, hυold⟩
    · exact absurd rfl hjk
    · exact hapart k υ hk hυold
    · exact (hapart j τ hj hτold).symm
    · exact h.apart j k τ υ hjk hτold hυold
  clear := by
    intro w j τ hw hτ
    rcases setSession_some.mp hτ with ⟨-, rfl⟩ | ⟨-, hτ⟩
    · exact hclear w hw
    · exact h.clear w j τ hw hτ
  work := h.work
  serialized := h.serialized

/-- A session ends without a trace. -/
theorem Inv.drop_session (h : Inv mint excluded s) (i : Nat) :
    Inv mint excluded (s.setSession i none) where
  drafts := h.drafts
  tokens := h.tokens
  session := fun j τ hτ => h.session j τ (setSession_none hτ).2
  apart := fun j k τ υ hjk hτ hυ =>
    h.apart j k τ υ hjk (setSession_none hτ).2 (setSession_none hυ).2
  clear := fun w j τ hw hτ => h.clear w j τ hw (setSession_none hτ).2
  work := h.work
  serialized := h.serialized

/-- **A SESSION GOES ON** with the same request.  What it does not have yet, a
    lock or a claim, must be free. -/
theorem Inv.advance (h : Inv mint excluded s) {i : Nat} {σ σ' : Session}
    (hi : s.sessions i = some σ) (hrequest : σ'.request = σ.request)
    (hσ : SessionInv mint s.db σ')
    (hlaunch : σ'.serializes = true → σ.serializes = true ∨
      s.LaunchFree σ.request.token σ.request.txHash ∧
      ∀ w, s.indexer.work = some w →
        (σ.request.token, σ.request.txHash) ∉ w.advisory)
    (hrow : ∀ key, σ'.stage = .attached key → σ.stage = .attached key ∨
      s.TokenFree key ∧ ∀ w, s.indexer.work = some w → w.writes key = none)
    (hclaim : σ'.draft = σ.draft ∨ ∀ k x c, σ'.draft.Claims k x c →
      ∀ j τ, s.sessions j = some τ →
        τ.request.draftID ≠ σ.request.draftID → ¬ τ.draft.Claims k x c) :
    Inv mint excluded (s.setSession i (some σ')) := by
  refine h.set_session hσ ?_ ?_
  · intro j τ hj hτ
    have hold := h.apart i j σ τ (Ne.symm hj) hi hτ
    refine ⟨?_, ?_, ?_, ?_⟩
    · rw [hrequest]
      exact hold.draft
    · intro hσ' hτ'
      rw [hrequest]
      rcases hlaunch hσ' with hheld | ⟨hfree, -⟩
      · exact hold.launch hheld hτ'
      · exact (hfree j τ hτ hτ').symm
    · intro key hkey
      rcases hrow key hkey with hheld | ⟨hfree, -⟩
      · exact hold.row key hheld
      · exact hfree j τ hτ
    · intro k x c hc
      rcases hclaim with heq | hfree
      · rw [heq] at hc
        exact hold.claim k x c hc
      · exact hfree k x c hc j τ hτ hold.draft.symm
  · intro w hw
    have hold := h.clear w i σ hw hi
    refine ⟨?_, ?_, ?_⟩
    · intro key hkey
      rcases hrow key hkey with hheld | ⟨-, hfree⟩
      · exact hold.row key hheld
      · exact hfree w hw
    · intro hσ'
      rw [hrequest]
      rcases hlaunch hσ' with hheld | ⟨-, hfree⟩
      · exact hold.launch hheld
      · exact hfree w hw
    · rw [hrequest]
      exact hold.draft

/-- A session begins at one of three places. -/
theorem firstStage_cases (d : Draft) :
    firstStage d = .locked ∧ d.unlinked = true ∨
    firstStage d = .claiming ∧ d.unlinked = false ∨
    firstStage d = .linked ∧ d.unlinked = false ∧
      d.creatorAddress.isNone = false := by
  unfold firstStage
  cases d.unlinked <;> cases d.creatorAddress.isNone <;> simp

/-- It has no lock yet but that of its draft. -/
theorem firstStage_early (q : Request) (d : Draft) :
    firstStage d ≠ .serialized ∧ firstStage d ≠ .unclaimed ∧
    firstStage d ≠ .pending ∧ firstStage d ≠ .matched ∧
    (∀ key, firstStage d ≠ .attached key) ∧
    (Session.mk q d d (firstStage d)).serializes = false := by
  simp only [Session.serializes]
  rcases firstStage_cases d with ⟨heq, hun⟩ | ⟨heq, hun⟩ | ⟨heq, hun, -⟩ <;>
    simp [heq, hun]

/-- A draft that is neither unlinked nor refused is linked to the launch. -/
theorem linked_of_accepted {q : Request} {d : Draft}
    (hlinked : (d.tokenAddress.isSome ↔ d.transactionHash.isSome) ∧
      (d.finalized = true → d.tokenAddress.isSome))
    (haccepted : q.refused d = false) (hun : d.unlinked = false) :
    d.tokenAddress = some q.token ∧ d.transactionHash = some q.txHash := by
  rcases (refused_iff.mp haccepted).1 with ⟨htoken, htx⟩ | hlink
  · have hfinal : d.finalized = true := by
      by_contra hfalse
      have hun' : d.unlinked = true :=
        unlinked_iff.mpr ⟨Bool.eq_false_iff.mpr hfalse, htoken, htx⟩
      rw [hun] at hun'
      cases hun'
    have hsome := hlinked.2 hfinal
    rw [htoken] at hsome
    cases hsome
  · exact hlink

/-- `SELECT … FOR UPDATE` on the draft. -/
theorem Inv.lock (h : Inv mint excluded s) {i : Nat} {q : Request} {d : Draft}
    (hd : s.db.drafts q.draftID = some d) (hfree : s.DraftFree q.draftID)
    (hmarked : ∀ w, s.indexer.work = some w → q.draftID ∉ w.marked)
    (haccepted : q.refused d = false) :
    Inv mint excluded (s.setSession i (some ⟨q, d, d, firstStage d⟩)) := by
  obtain ⟨hserialized, hunclaimed, hpending, hmatched, hattached, hserial⟩ :=
    firstStage_early q d
  refine h.set_session ?_ ?_ ?_
  · refine ⟨hd, haccepted, ?_, ?_, ?_, ?_, ?_, ?_, ?_⟩
    · rintro (hlocked | hlate | hlate)
      · refine ⟨?_, rfl⟩
        rcases firstStage_cases d with ⟨-, hun⟩ | ⟨heq, -⟩ | ⟨heq, -⟩
        · exact hun
        · exact absurd (heq.symm.trans hlocked) (by simp)
        · exact absurd (heq.symm.trans hlocked) (by simp)
      · exact absurd hlate hserialized
      · exact absurd hlate hunclaimed
    · intro hclaiming
      refine ⟨?_, rfl⟩
      rcases firstStage_cases d with ⟨heq, -⟩ | ⟨-, hun⟩ | ⟨heq, -⟩
      · exact absurd (heq.symm.trans hclaiming) (by simp)
      · exact hun
      · exact absurd (heq.symm.trans hclaiming) (by simp)
    · -- linked and signed before, so the link changes nothing
      intro hwrote
      dsimp only at hwrote ⊢
      rcases firstStage_cases d with ⟨heq, -⟩ | ⟨heq, -⟩ | ⟨-, hun, hsigned⟩
      · rw [heq] at hwrote
        cases hwrote
      · rw [heq] at hwrote
        cases hwrote
      · obtain ⟨htoken, htx⟩ := linked_of_accepted
          (h.drafts.linked q.draftID d hd) haccepted hun
        rcases (refused_iff.mp haccepted).2 with hnone | hcreator
        · rw [hnone] at hsigned
          cases hsigned
        · exact (link_eq htoken htx hcreator).symm
    · intro id d' k x c hne hd' hc hc'
      exact hne (h.drafts.single id q.draftID d' d k x c hd' hd hc' hc)
    · exact fun hstage => absurd hstage hpending
    · rintro (hstage | ⟨key, hstage⟩)
      · exact absurd hstage hmatched
      · exact absurd hstage (hattached key)
    · exact fun key hstage => absurd hstage (hattached key)
  · intro j τ _ hτ
    refine ⟨(hfree j τ hτ).symm, ?_, ?_, ?_⟩
    · intro hserial'
      rw [hserial] at hserial'
      cases hserial'
    · exact fun key hstage => absurd hstage (hattached key)
    · intro k x c hc hc'
      exact (h.session j τ hτ).single q.draftID d k x c
        (hfree j τ hτ).symm hd hc' hc
  · intro w hw
    refine ⟨?_, ?_, hmarked w hw⟩
    · exact fun key hstage => absurd hstage (hattached key)
    · intro hserial'
      rw [hserial] at hserial'
      cases hserial'

/-- Past the first stage, a session that ever has its advisory lock has it. -/
theorem serializes_kept {σ : Session} {q : Request} {d : Draft}
    {stage : Stage} (hstage : σ.stage ≠ .locked)
    (h : (Session.mk q σ.read d stage).serializes = true) :
    σ.serializes = true := by
  simp only [Session.serializes, Bool.and_eq_true] at h ⊢
  exact ⟨h.1, decide_eq_true hstage⟩

/-- A session goes on before it has written anything. -/
theorem SessionInv.wait {db : Database} {σ : Session} {stage : Stage}
    (hσ : SessionInv mint db σ)
    (hearly : σ.stage = .locked ∨ σ.stage = .serialized ∨ σ.stage = .unclaimed)
    (hstage : stage = .serialized ∨ stage = .unclaimed) :
    SessionInv mint db { σ with stage := stage } where
  read := hσ.read
  accepted := hσ.accepted
  early := fun _ => hσ.early hearly
  claiming := by
    rintro rfl
    rcases hstage with hstage | hstage <;> cases hstage
  late := by
    rcases hstage with rfl | rfl <;> exact fun hwrote => (nomatch hwrote)
  single := hσ.single
  pending := by
    rintro rfl
    rcases hstage with hstage | hstage <;> cases hstage
  matched := by
    rintro (rfl | ⟨key, rfl⟩) <;> rcases hstage with hstage | hstage <;>
      cases hstage
  attached := by
    rintro key rfl
    rcases hstage with hstage | hstage <;> cases hstage

/-- A session goes on after it has written its link. -/
theorem SessionInv.proceed {db : Database} {σ : Session} {stage : Stage}
    (hσ : SessionInv mint db σ) (hwrote : σ.stage.wrote = true)
    (hstage : stage.wrote = true)
    (hpending : stage = .pending →
      ∀ key r, db.tokens key = some r → ¬ σ.request.Indexed key r)
    (hmatched : (stage = .matched ∨ ∃ key, stage = .attached key) →
      (σ.request.creator, σ.read.details) = mint σ.request.token)
    (hattached : ∀ key, stage = .attached key →
      ∃ r, db.tokens key = some r ∧ σ.request.Indexed key r) :
    SessionInv mint db { σ with stage := stage } where
  read := hσ.read
  accepted := hσ.accepted
  early := by
    rintro (rfl | rfl | rfl) <;> cases hstage
  claiming := by
    rintro rfl
    cases hstage
  late := fun _ => hσ.late hwrote
  single := hσ.single
  pending := fun hstage _ => hpending hstage
  matched := hmatched
  attached := hattached

/-- The advisory lock; the claims are compared; no other has this one. -/
theorem Inv.serialize (h : Inv mint excluded s) {i : Nat} {σ : Session}
    (hi : s.sessions i = some σ) (hstage : σ.stage = .locked)
    (hfree : s.LaunchFree σ.request.token σ.request.txHash)
    (hwork : ∀ w, s.indexer.work = some w →
      (σ.request.token, σ.request.txHash) ∉ w.advisory) :
    Inv mint excluded
      (s.setSession i (some { σ with stage := .serialized })) := by
  exact h.advance hi rfl
    ((h.session i σ hi).wait (Or.inl hstage) (Or.inl rfl))
    (fun _ => Or.inr ⟨hfree, hwork⟩) (fun key hkey => (nomatch hkey))
    (Or.inl rfl)

theorem Inv.unclaimed (h : Inv mint excluded s) {i : Nat} {σ : Session}
    (hi : s.sessions i = some σ) (hstage : σ.stage = .serialized) :
    Inv mint excluded
      (s.setSession i (some { σ with stage := .unclaimed })) := by
  refine h.advance hi rfl
    ((h.session i σ hi).wait (Or.inr (Or.inl hstage)) (Or.inr rfl))
    (fun hserial => Or.inl ?_) (fun key hkey => (nomatch hkey)) (Or.inl rfl)
  exact serializes_kept (by simp [hstage]) hserial

/-- **THE LINK** is written, under the unique index. -/
theorem Inv.link (h : Inv mint excluded s) {i : Nat} {σ : Session} {d : Draft}
    (hi : s.sessions i = some σ)
    (hstage : σ.stage = .unclaimed ∨ σ.stage = .claiming)
    (hd : d = σ.read.link σ.request)
    (hfree : s.ClaimFree σ.request.draftID σ.request.token σ.request.txHash
      σ.request.creator) :
    Inv mint excluded
      (s.setSession i (some ⟨σ.request, σ.read, d, .linked⟩)) := by
  have hσ := h.session i σ hi
  have hclaims : d.Claims σ.request.token σ.request.txHash
      σ.request.creator := by
    rw [hd]
    exact link_claims _ _
  refine h.advance hi rfl ?_ ?_ (fun key hkey => (nomatch hkey)) (Or.inr ?_)
  · exact {
      read := hσ.read
      accepted := hσ.accepted
      early := by
        rintro (hstage | hstage | hstage) <;> cases hstage
      claiming := fun hstage => (nomatch hstage)
      late := fun _ => hd
      single := by
        intro id d' k x c hne hd' hc
        obtain ⟨rfl, rfl, rfl⟩ := claims_unique hc hclaims
        exact hfree.1 id d' hne hd'
      pending := fun hstage => (nomatch hstage)
      matched := by
        rintro (hstage | ⟨key, hstage⟩) <;> cases hstage
      attached := fun key hstage => (nomatch hstage) }
  · refine fun hserial => Or.inl (serializes_kept ?_ hserial)
    rcases hstage with hstage | hstage <;> simp [hstage]
  · intro k x c hc j τ hτ hne
    obtain ⟨rfl, rfl, rfl⟩ := claims_unique hc hclaims
    exact hfree.2 j τ hτ hne

/-- The draft that a legacy link gets its signer by is the linked one. -/
theorem claim_eq (h : Inv mint excluded s) {i : Nat} {σ : Session}
    (hi : s.sessions i = some σ) (hstage : σ.stage = .claiming) :
    { σ.read with creatorAddress := some σ.request.creator } =
      σ.read.link σ.request := by
  have hσ := h.session i σ hi
  obtain ⟨htoken, htx⟩ := linked_of_accepted
    (h.drafts.linked _ _ hσ.read) hσ.accepted (hσ.claiming hstage).1
  rw [Draft.link, ← htoken, ← htx]

/-- `SELECT … FROM tokens`, and no row. -/
theorem Inv.absent (h : Inv mint excluded s) {i : Nat} {σ : Session}
    (hi : s.sessions i = some σ) (hstage : σ.stage = .linked)
    (hnone : ∀ key r, s.db.tokens key = some r →
      ¬ σ.request.Indexed key r) :
    Inv mint excluded (s.setSession i (some { σ with stage := .pending })) := by
  have hwrote : σ.stage.wrote = true := by rw [hstage]; rfl
  refine h.advance hi rfl ?_
    (fun hserial => Or.inl (serializes_kept (by simp [hstage]) hserial))
    (fun key hkey => (nomatch hkey)) (Or.inl rfl)
  refine (h.session i σ hi).proceed hwrote rfl (fun _ => hnone) ?_
    (fun key hstage => (nomatch hstage))
  rintro (hstage | ⟨key, hstage⟩) <;> cases hstage

/-- A row, of the same launch: so far as the address of a token tells, for
    good. -/
theorem Inv.agree (h : Inv mint excluded s) {i : Nat} {σ : Session} {key : Key}
    {r : TokenRow} (hi : s.sessions i = some σ) (hstage : σ.stage = .linked)
    (hr : s.db.tokens key = some r) (hindexed : σ.request.Indexed key r)
    (hdetails : r.details = σ.draft.details)
    (hcreator : r.creatorAddress = σ.request.creator) :
    Inv mint excluded (s.setSession i (some { σ with stage := .matched })) := by
  have hσ := h.session i σ hi
  have hwrote : σ.stage.wrote = true := by rw [hstage]; rfl
  refine h.advance hi rfl ?_
    (fun hserial => Or.inl (serializes_kept (by simp [hstage]) hserial))
    (fun key hkey => (nomatch hkey)) (Or.inl rfl)
  refine hσ.proceed hwrote rfl (fun hstage => (nomatch hstage)) ?_
    (fun key hstage => (nomatch hstage))
  intro _
  have hminted := h.tokens.minted key r hr
  rw [hindexed.2.1, hcreator, hdetails, hσ.late hwrote] at hminted
  exact hminted

/-- `UPDATE tokens`: the row is locked from here on. -/
theorem Inv.attach (h : Inv mint excluded s) {i : Nat} {σ : Session} {key : Key}
    {r : TokenRow} (hi : s.sessions i = some σ) (hstage : σ.stage = .matched)
    (hr : s.db.tokens key = some r) (hindexed : σ.request.Indexed key r)
    (hfree : s.TokenFree key)
    (hwork : ∀ w, s.indexer.work = some w → w.writes key = none) :
    Inv mint excluded
      (s.setSession i (some { σ with stage := .attached key })) := by
  have hσ := h.session i σ hi
  have hwrote : σ.stage.wrote = true := by rw [hstage]; rfl
  refine h.advance hi rfl ?_
    (fun hserial => Or.inl (serializes_kept (by simp [hstage]) hserial))
    ?_ (Or.inl rfl)
  · refine hσ.proceed hwrote rfl (fun hstage => (nomatch hstage))
      (fun _ => hσ.matched (Or.inl hstage)) ?_
    rintro key' ⟨⟩
    exact ⟨r, hr, hindexed⟩
  · rintro key' ⟨⟩
    exact Or.inr ⟨hfree, hwork⟩

/-! ## A session commits -/

/-- What a later database keeps of the drafts: all but a link or a signer that
    was not there. -/
def Kept (db db' : Database) : Prop :=
  ∀ id d, db.drafts id = some d → ∃ d', db'.drafts id = some d' ∧
    d'.details = d.details ∧ d'.content = d.content ∧
    (d.finalized = true → d'.finalized = true) ∧
    ∀ k x c, d.Claims k x c → d'.Claims k x c

theorem Kept.refl (db : Database) : Kept db db :=
  fun _ d hd => ⟨d, hd, rfl, rfl, id, fun _ _ _ => id⟩

/-- A draft that matches a row goes on to. -/
theorem Kept.matches {db db' : Database} (h : Kept db db') {id : Nat}
    {d : Draft} {key : Key} {r : TokenRow} (hd : db.drafts id = some d)
    (hmatch : d.Matches key r) : ∃ d', db'.drafts id = some d' ∧
      d'.content = d.content ∧ d'.Matches key r := by
  obtain ⟨d', hd', hdetails, hcontent, -, hclaims⟩ := h id d hd
  obtain ⟨ht, hx, hc⟩ := hclaims _ _ _ hmatch.claims
  exact ⟨d', hd', hcontent, ht, hx, hc, hdetails.trans hmatch.2.2.2⟩

/-- A transaction of the indexer, while something else is committed: rows it
    has written stay as they are, and no draft comes to match one. -/
theorem WorkInv.later {db db' : Database} {w : Work} {current : Option Launch}
    (hw : WorkInv mint excluded db w current) (hkept : Kept db db')
    (hback : ∀ key r', db'.tokens key = some r' → ∃ r,
      db.tokens key = some r ∧ r'.isCanonical = r.isCanonical ∧
      r'.tokenAddress = r.tokenAddress ∧ ((w.writes key).isSome → r' = r))
    (hforth : ∀ key r, db.tokens key = some r → ∃ r',
      db'.tokens key = some r' ∧ r'.isCanonical = r.isCanonical)
    (hnew : ∀ id d' key r, db'.drafts id = some d' →
      w.writes key = some r → r.isCanonical = true →
      (∀ l, current = some l → key ≠ l.key) → d'.Matches key r →
      ∃ d, db.drafts id = some d ∧ d.Matches key r ∧ d'.content = d.content ∧
        (d.finalized = true → d'.finalized = true)) :
    WorkInv mint excluded db' w current where
  minted := hw.minted
  stamped := hw.stamped
  apart := hw.apart
  onTop := by
    intro key key' r r' hr hr' hc hc'
    obtain ⟨r₀, hr₀, hcanonical, htoken, -⟩ := hback key r hr
    rw [htoken]
    exact hw.onTop key key' r₀ r' hr₀ hr' (hcanonical ▸ hc) hc'
  shown := by
    intro key r m hr hm
    obtain ⟨id, d, hd, hmatch, hcontent⟩ := hw.shown key r m hr hm
    obtain ⟨d', hd', hcontent', hmatch'⟩ := hkept.matches hd hmatch
    exact ⟨id, d', hd', hmatch', hcontent'.trans hcontent⟩
  covered := by
    intro key r hr hc hcurrent
    rcases hw.covered key r hr hc hcurrent with hheld | ⟨r₀, hr₀, hc₀⟩
    · exact Or.inl hheld
    · obtain ⟨r', hr', hcanonical⟩ := hforth key r₀ hr₀
      exact Or.inr ⟨r', hr', hcanonical.trans hc₀⟩
  attached := by
    intro id d' key r hr hc hcurrent hd' hmatch'
    obtain ⟨d, hd, hmatch, hcontent, hfinal⟩ :=
      hnew id d' key r hd' hr hc hcurrent hmatch'
    obtain ⟨hshown, hdone⟩ :=
      hw.attached id d key r hr hc hcurrent hd hmatch
    rw [hcontent]
    exact ⟨hshown, hdone.imp_left hfinal⟩
  carried := by
    intro key r r' hr hc hr' hc'
    obtain ⟨r₀, hr₀, hcanonical, -, hsame⟩ := hback key r' hr'
    have heq : r' = r₀ := hsame (by rw [hr]; rfl)
    rw [heq]
    exact hw.carried key r r₀ hr hc hr₀ (hcanonical ▸ hc')
  marks := by
    intro id hid
    obtain ⟨d, key, r, hd, hr, hc, hmatch⟩ := hw.marks id hid
    obtain ⟨d', hd', -, hmatch'⟩ := hkept.matches hd hmatch
    exact ⟨d', key, r, hd', hr, hc, hmatch'⟩
  todo_minted := hw.todo_minted
  todo_onTop := by
    intro l hl key r' hr' hc'
    obtain ⟨r₀, hr₀, hcanonical, htoken, -⟩ := hback key r' hr'
    rw [htoken]
    exact hw.todo_onTop l hl key r₀ hr₀ (hcanonical ▸ hc')
  todo_apart := hw.todo_apart
  todo_new := hw.todo_new
  done := hw.done
  current := hw.current

/-- A session, while something else is committed. -/
theorem SessionInv.later {db db' : Database} {σ : Session}
    (hσ : SessionInv mint db σ)
    (hread : db'.drafts σ.request.draftID = db.drafts σ.request.draftID)
    (hsingle : ∀ id d k x c, id ≠ σ.request.draftID →
      db'.drafts id = some d → σ.draft.Claims k x c → ¬ d.Claims k x c)
    (hback : σ.stage = .pending → σ.read.unlinked = true → ∀ key r',
      db'.tokens key = some r' → σ.request.Indexed key r' →
      ∃ key r, db.tokens key = some r ∧ σ.request.Indexed key r)
    (hforth : ∀ key r, σ.stage = .attached key → db.tokens key = some r →
      σ.request.Indexed key r → ∃ r', db'.tokens key = some r' ∧
        σ.request.Indexed key r') :
    SessionInv mint db' σ where
  read := hread.trans hσ.read
  accepted := hσ.accepted
  early := hσ.early
  claiming := hσ.claiming
  late := hσ.late
  single := hsingle
  pending := by
    intro hstage hun key r' hr' hindexed
    obtain ⟨key₀, r, hr, hindexed⟩ := hback hstage hun key r' hr' hindexed
    exact hσ.pending hstage hun key₀ r hr hindexed
  matched := hσ.matched
  attached := by
    intro key hstage
    obtain ⟨r, hr, hindexed⟩ := hσ.attached key hstage
    exact hforth key r hstage hr hindexed

theorem setDraft_some {db : Database} {id id' : Nat} {d d' : Draft} :
    (db.setDraft id d).drafts id' = some d' ↔
      id' = id ∧ d' = d ∨ id' ≠ id ∧ db.drafts id' = some d' := by
  show Function.update db.drafts id (some d) id' = some d' ↔ _
  by_cases hid : id' = id
  · subst hid
    rw [Function.update_self, Option.some_inj]
    simp [eq_comm]
  · rw [Function.update_of_ne hid]
    simp [hid]

theorem setToken_some {db : Database} {key key' : Key} {r r' : TokenRow} :
    (db.setToken key r).tokens key' = some r' ↔
      key' = key ∧ r' = r ∨ key' ≠ key ∧ db.tokens key' = some r' := by
  show Function.update db.tokens key (some r) key' = some r' ↔ _
  by_cases hkey : key' = key
  · subst hkey
    rw [Function.update_self, Option.some_inj]
    simp [eq_comm]
  · rw [Function.update_of_ne hkey]
    simp [hkey]

section Commit

variable {i : Nat} {σ : Session} {f : Bool}

/-- The draft a session commits. -/
def Session.final (σ : Session) (f : Bool) : Draft :=
  { σ.read.link σ.request with finalized := f }

/-- A session links its draft, or signs it, or it repeats what was done. -/
theorem repeats_or_new (h : Inv mint excluded s)
    (hi : s.sessions i = some σ) :
    σ.read.unlinked = true ∨ σ.signs = true ∨
      σ.read.link σ.request = σ.read := by
  have hσ := h.session i σ hi
  cases hread : σ.read.unlinked with
  | true => exact Or.inl rfl
  | false =>
      right
      obtain ⟨htoken, htx⟩ := linked_of_accepted
        (h.drafts.linked _ _ hσ.read) hσ.accepted hread
      rcases (refused_iff.mp hσ.accepted).2 with hnone | hcreator
      · left
        rw [Session.signs, hread, hnone]
        rfl
      · exact Or.inr (link_eq htoken htx hcreator)

theorem kept_final (h : Inv mint excluded s) (hi : s.sessions i = some σ)
    (hf : σ.read.finalized = true → f = true) {db : Database}
    (hdb : db.drafts = s.db.drafts) :
    Kept s.db (db.setDraft σ.request.draftID (σ.final f)) := by
  intro id d hd
  by_cases hid : id = σ.request.draftID
  · subst hid
    have hread := (h.session i σ hi).read
    rw [hd] at hread
    cases hread
    refine ⟨σ.final f, setDraft_some.mpr (Or.inl ⟨rfl, rfl⟩), rfl, rfl, hf, ?_⟩
    intro k x c hclaims
    -- a claim that the draft had is the one that the session repeats
    have hlink := link_of_claims (h.session i σ hi).accepted hclaims
    have hfinal : (σ.read.link σ.request).Claims k x c := by
      rw [hlink]
      exact hclaims
    exact hfinal
  · refine ⟨d, setDraft_some.mpr (Or.inr ⟨hid, ?_⟩), rfl, rfl,
      fun hd => hd, fun _ _ _ hclaims => hclaims⟩
    rw [hdb]
    exact hd

/-- The draft of a session has the claims of its link. -/
theorem final_claims (h : Inv mint excluded s) (hi : s.sessions i = some σ)
    (hwrote : σ.stage.wrote = true) {k x c : Nat} :
    (σ.final f).Claims k x c ↔ σ.draft.Claims k x c := by
  rw [(h.session i σ hi).late hwrote]
  exact Iff.rfl

theorem DraftsInv.final (h : Inv mint excluded s) (hi : s.sessions i = some σ)
    (hwrote : σ.stage.wrote = true) {db : Database}
    (hdb : db.drafts = s.db.drafts) :
    DraftsInv (db.setDraft σ.request.draftID (σ.final f)) := by
  have hσ := h.session i σ hi
  refine ⟨?_, ?_⟩
  · intro id d hd
    rcases setDraft_some.mp hd with ⟨-, rfl⟩ | ⟨-, hd⟩
    · exact ⟨Iff.rfl, fun _ => rfl⟩
    · rw [hdb] at hd
      exact h.drafts.linked id d hd
  · intro id id' d d' k x c hd hd' hc hc'
    rcases setDraft_some.mp hd with ⟨hid, rfl⟩ | ⟨hid, hd⟩ <;>
      rcases setDraft_some.mp hd' with ⟨hid', rfl⟩ | ⟨hid', hdold⟩
    · rw [hid, hid']
    · rw [hdb] at hdold
      rw [final_claims h hi hwrote] at hc
      exact absurd hc' (hσ.single id' d' k x c hid' hdold hc)
    · rw [hdb] at hd
      rw [final_claims h hi hwrote] at hc'
      exact absurd hc (hσ.single id d k x c hid hd hc')
    · rw [hdb] at hd hdold
      exact h.drafts.single id id' d d' k x c hd hdold hc hc'

/-- The other sessions keep apart from the draft that is committed. -/
theorem SessionInv.final (h : Inv mint excluded s) (hi : s.sessions i = some σ)
    (hwrote : σ.stage.wrote = true) {j : Nat} {τ : Session} (hj : j ≠ i)
    (hτ : s.sessions j = some τ) {db : Database}
    (hdb : db.drafts = s.db.drafts)
    (hback : ∀ key r', db.tokens key = some r' →
      ∃ r, s.db.tokens key = some r ∧ r'.isCanonical = r.isCanonical ∧
        r'.tokenAddress = r.tokenAddress)
    (hforth : ∀ key r, s.db.tokens key = some r →
      ∃ r', db.tokens key = some r' ∧ r'.isCanonical = r.isCanonical ∧
        r'.tokenAddress = r.tokenAddress) :
    SessionInv mint (db.setDraft σ.request.draftID (σ.final f)) τ := by
  have hapart := h.apart i j σ τ (Ne.symm hj) hi hτ
  refine (h.session j τ hτ).later ?_ ?_ ?_ ?_
  · show Function.update db.drafts _ _ _ = _
    rw [Function.update_of_ne hapart.draft.symm, hdb]
  · intro id d k x c hid hd hc
    rcases setDraft_some.mp hd with ⟨-, rfl⟩ | ⟨-, hd⟩
    · rw [final_claims h hi hwrote]
      exact fun hclaim => hapart.claim k x c hclaim hc
    · rw [hdb] at hd
      exact (h.session j τ hτ).single id d k x c hid hd hc
  · intro _ _ key r' hr' hindexed
    obtain ⟨r, hr, hcanonical, htoken⟩ := hback key r' hr'
    exact ⟨key, r, hr, hcanonical ▸ hindexed.1, htoken ▸ hindexed.2.1,
      hindexed.2.2⟩
  · intro key r _ hr hindexed
    obtain ⟨r', hr', hcanonical, htoken⟩ := hforth key r hr
    exact ⟨r', hr', hcanonical.trans hindexed.1, htoken.trans hindexed.2.1,
      hindexed.2.2⟩

/-- What is committed when the launch is not there: the link. -/
theorem commit_pending_db (h : Inv mint excluded s)
    (hi : s.sessions i = some σ) (hstage : σ.stage = .pending) :
    (s.commitPending i σ).db = s.db.setDraft σ.request.draftID
      (σ.final σ.read.finalized) := by
  rw [State.commitPending, (h.session i σ hi).late (by rw [hstage]; rfl)]
  rfl

/-- What is committed when it is: the link, and what the draft shows. -/
theorem commit_attached_db (h : Inv mint excluded s)
    (hi : s.sessions i = some σ) {key : Key} (hstage : σ.stage = .attached key)
    (r : TokenRow) :
    (s.commitAttached i σ key r).db =
      (s.db.setToken key { r with content := some σ.read.content }).setDraft
        σ.request.draftID (σ.final true) := by
  rw [State.commitAttached, (h.session i σ hi).late (by rw [hstage]; rfl)]
  rfl

/-- The row that a draft is attached to is that of its launch. -/
theorem attached_matches (h : Inv mint excluded s)
    (hi : s.sessions i = some σ) {key : Key} {r : TokenRow}
    (hstage : σ.stage = .attached key) (hr : s.db.tokens key = some r) :
    r.isCanonical = true ∧ (σ.final true).Matches key r := by
  have hσ := h.session i σ hi
  obtain ⟨r₀, hr₀, hc, htoken, htx⟩ := hσ.attached key hstage
  rw [hr] at hr₀
  cases hr₀
  have hsession := hσ.matched (Or.inr ⟨key, hstage⟩)
  rw [← htoken, ← h.tokens.minted key r hr, Prod.mk.injEq] at hsession
  exact ⟨hc, congrArg some htoken.symm, congrArg some htx.symm,
    congrArg some hsession.1, hsession.2⟩

/-- **A LINK IS COMMITTED** while the launch is not there; a signer, while it
    is not too late. -/
theorem Inv.commit_pending (h : Inv mint excluded s)
    (hi : s.sessions i = some σ) (hstage : σ.stage = .pending)
    (hprompt : σ.signs = true → ∀ key r, ¬ s.TooLate σ.draft key r) :
    Inv mint excluded (s.commitPending i σ) := by
  have hσ := h.session i σ hi
  have hwrote : σ.stage.wrote = true := by
    rw [hstage]
    rfl
  have hdraft : σ.draft = σ.final σ.read.finalized := hσ.late hwrote
  have hkept : Kept s.db (s.commitPending i σ).db := by
    rw [commit_pending_db h hi hstage]
    exact kept_final h hi (fun hf => hf) rfl
  -- a draft that comes to match a row is one that was linked before
  have hnew : ∀ id d' key r,
      (s.commitPending i σ).db.drafts id = some d' → d'.Matches key r →
      (∃ d, s.db.drafts id = some d ∧ d.Matches key r ∧
        d'.content = d.content ∧ (d.finalized = true → d'.finalized = true)) ∨
      (σ.read.unlinked = true ∧ r.tokenAddress = σ.request.token ∧
        key.1 = σ.request.txHash) ∨
      σ.signs = true ∧ σ.draft.Matches key r := by
    intro id d' key r hd' hmatch
    rcases setDraft_some.mp hd' with ⟨rfl, rfl⟩ | ⟨-, hd⟩
    · rcases repeats_or_new h hi with hread | hsigns | hlink
      · refine Or.inr (Or.inl ?_)
        rw [hdraft] at hmatch
        obtain ⟨ht, hx, -⟩ := hmatch
        exact ⟨hread, (Option.some_inj.mp ht).symm,
          (Option.some_inj.mp hx).symm⟩
      · exact Or.inr (Or.inr ⟨hsigns, hmatch⟩)
      · left
        have hsame : σ.draft = σ.read := (hσ.late hwrote).trans hlink
        rw [hsame] at hmatch ⊢
        exact ⟨σ.read, hσ.read, hmatch, rfl, fun hf => hf⟩
    · exact Or.inl ⟨d', hd, hmatch, rfl, fun hf => hf⟩
  exact {
    drafts := by
      rw [commit_pending_db h hi hstage]
      exact DraftsInv.final h hi hwrote rfl
    tokens := {
      minted := h.tokens.minted
      apart := h.tokens.apart
      shown := by
        intro key r m hr hm
        obtain ⟨id, d, hd, hmatch, hcontent⟩ := h.tokens.shown key r m hr hm
        obtain ⟨d', hd', hcontent', hmatch'⟩ := hkept.matches hd hmatch
        exact ⟨id, d', hd', hmatch', hcontent'.trans hcontent⟩
      attached := by
        intro id d' key r hd' hr hc hmatch'
        rcases hnew id d' key r hd' hmatch' with
          ⟨d, hd, hmatch, hcontent, hfinal⟩ | ⟨hread, ht, hx⟩ |
            ⟨hsigns, hmatch⟩
        · obtain ⟨hshown, hdone⟩ :=
            h.tokens.attached id d key r hd hr hc hmatch
          rw [hcontent]
          exact ⟨hshown, hfinal hdone⟩
        · exact absurd ⟨hc, ht, hx⟩ (hσ.pending hstage hread key r hr)
        · exact absurd ⟨hmatch, hc, Or.inl hr⟩ (hprompt hsigns key r) }
    session := by
      intro j τ hτ
      obtain ⟨hj, hτ⟩ := setSession_none (s := s) hτ
      rw [commit_pending_db h hi hstage]
      exact SessionInv.final h hi hwrote hj hτ rfl
        (fun key r hr => ⟨r, hr, rfl, rfl⟩)
        (fun key r hr => ⟨r, hr, rfl, rfl⟩)
    apart := fun j k τ υ hjk hτ hυ =>
      h.apart j k τ υ hjk (setSession_none (s := s) hτ).2
        (setSession_none (s := s) hυ).2
    clear := fun w j τ hw hτ =>
      h.clear w j τ hw (setSession_none (s := s) hτ).2
    work := by
      intro w hw
      have hwork := h.work w hw
      refine hwork.later hkept (fun key r hr => ⟨r, hr, rfl, rfl, fun _ => rfl⟩)
        (fun key r hr => ⟨r, hr, rfl⟩) ?_
      intro id d' key r hd' hr hc hcurrent hmatch
      rcases hnew id d' key r hd' hmatch with
        hold | ⟨hread, ht, hx⟩ | ⟨hsigns, hmatch⟩
      · exact hold
      · -- the session has the advisory lock of the row
        exfalso
        have hserial : σ.serializes = true := by
          simp [Session.serializes, hread, hstage]
        rcases hwork.covered key r hr hc hcurrent with hheld | ⟨r₀, hr₀, hc₀⟩
        · rw [ht, hx] at hheld
          exact (h.clear w i σ hw hi).launch hserial hheld
        · have htoken := (hwork.onTop key key r₀ r hr₀ hr hc₀ hc).mp rfl
          exact hσ.pending hstage hread key r₀ hr₀
            ⟨hc₀, htoken.symm.trans ht, hx⟩
      · exact absurd ⟨hmatch, hc, Or.inr ⟨w, hw, hr, hcurrent⟩⟩
          (hprompt hsigns key r)
    serialized := h.serialized }

/-- **A DRAFT AND ITS LAUNCH** are committed together. -/
theorem Inv.commit_attached (h : Inv mint excluded s)
    (hi : s.sessions i = some σ) {key : Key} {r : TokenRow}
    (hstage : σ.stage = .attached key) (hr : s.db.tokens key = some r) :
    Inv mint excluded (s.commitAttached i σ key r) := by
  have hσ := h.session i σ hi
  have hwrote : σ.stage.wrote = true := by
    rw [hstage]
    rfl
  obtain ⟨hc, hmatches⟩ := attached_matches h hi hstage hr
  have htoken : r.tokenAddress = σ.request.token :=
    (Option.some_inj.mp hmatches.1).symm
  have hdb := commit_attached_db h hi hstage r
  have hkept : Kept s.db (s.commitAttached i σ key r).db := by
    rw [hdb]
    exact kept_final h hi (fun _ => rfl) rfl
  have hback : ∀ key' r', (s.db.setToken key
      { r with content := some σ.read.content }).tokens key' = some r' →
      ∃ r₁, s.db.tokens key' = some r₁ ∧ r'.isCanonical = r₁.isCanonical ∧
        r'.tokenAddress = r₁.tokenAddress := by
    intro key' r' hr'
    rcases setToken_some.mp hr' with ⟨rfl, rfl⟩ | ⟨-, hr'⟩
    · exact ⟨r, hr, rfl, rfl⟩
    · exact ⟨r', hr', rfl, rfl⟩
  have hforth : ∀ key' r₁, s.db.tokens key' = some r₁ →
      ∃ r', (s.db.setToken key
        { r with content := some σ.read.content }).tokens key' = some r' ∧
        r'.isCanonical = r₁.isCanonical ∧
        r'.tokenAddress = r₁.tokenAddress := by
    intro key' r₁ hr₁
    by_cases hkey : key' = key
    · subst hkey
      rw [hr] at hr₁
      cases hr₁
      exact ⟨_, setToken_some.mpr (Or.inl ⟨rfl, rfl⟩), rfl, rfl⟩
    · exact ⟨r₁, setToken_some.mpr (Or.inr ⟨hkey, hr₁⟩), rfl, rfl⟩
  -- a draft that comes to match a row is one that was linked before, or this
  have hnew : ∀ id d' key' r',
      (s.commitAttached i σ key r).db.drafts id = some d' →
      d'.Matches key' r' →
      (∃ d, s.db.drafts id = some d ∧ d.Matches key' r' ∧
        d'.content = d.content ∧ (d.finalized = true → d'.finalized = true)) ∨
      d' = σ.final true ∧ r'.tokenAddress = σ.request.token := by
    intro id d' key' r' hd' hmatch
    rw [hdb] at hd'
    rcases setDraft_some.mp hd' with ⟨-, rfl⟩ | ⟨-, hd⟩
    · exact Or.inr ⟨rfl, (Option.some_inj.mp hmatch.1).symm⟩
    · exact Or.inl ⟨d', hd, hmatch, rfl, fun hf => hf⟩
  exact {
    drafts := by
      rw [hdb]
      exact DraftsInv.final h hi hwrote rfl
    tokens := {
      minted := by
        intro key' r' hr'
        rw [hdb] at hr'
        rcases setToken_some.mp hr' with ⟨-, rfl⟩ | ⟨-, hr'⟩
        · exact h.tokens.minted key r hr
        · exact h.tokens.minted key' r' hr'
      apart := by
        intro key₁ key₂ r₁ r₂ hr₁ hr₂ hc₁ hc₂ heq
        rw [hdb] at hr₁ hr₂
        obtain ⟨r₁', hr₁', hcan₁, htok₁⟩ := hback key₁ r₁ hr₁
        obtain ⟨r₂', hr₂', hcan₂, htok₂⟩ := hback key₂ r₂ hr₂
        exact h.tokens.apart key₁ key₂ r₁' r₂' hr₁' hr₂' (hcan₁ ▸ hc₁)
          (hcan₂ ▸ hc₂) (by rw [← htok₁, ← htok₂, heq])
      shown := by
        intro key' r' m hr' hm
        rw [hdb] at hr'
        rcases setToken_some.mp hr' with ⟨rfl, rfl⟩ | ⟨-, hr'⟩
        · refine ⟨σ.request.draftID, σ.final true, ?_, hmatches, ?_⟩
          · rw [hdb]
            exact setDraft_some.mpr (Or.inl ⟨rfl, rfl⟩)
          · exact Option.some_inj.mp hm
        · obtain ⟨id, d, hd, hmatch, hcontent⟩ :=
            h.tokens.shown key' r' m hr' hm
          obtain ⟨d', hd', hcontent', hmatch'⟩ := hkept.matches hd hmatch
          exact ⟨id, d', hd', hmatch', hcontent'.trans hcontent⟩
      attached := by
        intro id d' key' r' hd' hr' hc' hmatch'
        rw [hdb] at hd' hr'
        rcases setToken_some.mp hr' with ⟨rfl, rfl⟩ | ⟨hkey, hr'⟩ <;>
          rcases setDraft_some.mp hd' with ⟨rfl, rfl⟩ | ⟨hid, hd⟩
        · exact ⟨rfl, rfl⟩
        · -- the launch has no other draft of its creator
          exfalso
          refine hσ.single id d' _ _ _ hid hd ?_ hmatch'.claims
          exact (final_claims (f := true) h hi hwrote).mp hmatches.claims
        · -- nor another row
          exfalso
          have htoken' : r'.tokenAddress = σ.request.token :=
            (Option.some_inj.mp hmatch'.1).symm
          exact hkey (h.tokens.apart key' key r' r hr' hr hc' hc
            (htoken'.trans htoken.symm))
        · exact h.tokens.attached id d' key' r' hd hr' hc' hmatch' }
    session := by
      intro j τ hτ
      obtain ⟨hj, hτ⟩ := setSession_none (s := s) hτ
      rw [hdb]
      exact SessionInv.final h hi hwrote hj hτ rfl hback hforth
    apart := fun j k τ υ hjk hτ hυ =>
      h.apart j k τ υ hjk (setSession_none (s := s) hτ).2
        (setSession_none (s := s) hυ).2
    clear := fun w j τ hw hτ =>
      h.clear w j τ hw (setSession_none (s := s) hτ).2
    work := by
      intro w hw
      have hwork := h.work w hw
      have hlocked := (h.clear w i σ hw hi).row key hstage
      refine hwork.later hkept ?_ ?_ ?_
      · intro key' r' hr'
        rw [hdb] at hr'
        rcases setToken_some.mp hr' with ⟨rfl, rfl⟩ | ⟨-, hr'⟩
        · refine ⟨r, hr, rfl, rfl, ?_⟩
          rw [hlocked]
          rintro ⟨⟩
        · exact ⟨r', hr', rfl, rfl, fun _ => rfl⟩
      · intro key' r₁ hr₁
        rw [hdb]
        obtain ⟨r', hr', hcanonical, -⟩ := hforth key' r₁ hr₁
        exact ⟨r', hr', hcanonical⟩
      · intro id d' key' r' hd' hr' hc' hcurrent hmatch
        rcases hnew id d' key' r' hd' hmatch with hold | ⟨-, ht⟩
        · exact hold
        · -- the indexer would have to write the row the session has locked
          exfalso
          have hkey := (hwork.onTop key key' r r' hr hr' hc hc').mpr
            (ht.trans htoken.symm)
          rw [hkey, hlocked] at hr'
          cases hr'
    serialized := h.serialized }

end Commit

theorem kept_save {db : Database} {id : Nat} (details : Details)
    (content : Content) (hnone : db.drafts id = none) :
    Kept db (db.setDraft id (saved details content)) := by
  intro id' d hd
  refine ⟨d, setDraft_some.mpr (Or.inr ⟨?_, hd⟩), rfl, rfl, fun hf => hf,
    fun _ _ _ hclaims => hclaims⟩
  rintro rfl
  rw [hnone] at hd
  cases hd

/-- A draft is saved: it has no claim yet. -/
theorem Inv.save (h : Inv mint excluded s) {id : Nat} (details : Details)
    (content : Content) (hnone : s.db.drafts id = none) :
    Inv mint excluded
      { s with db := s.db.setDraft id (saved details content) } := by
  have hold : ∀ id' d, (s.db.setDraft id (saved details content)).drafts id' =
      some d → d = saved details content ∨ s.db.drafts id' = some d := by
    intro id' d hd
    rcases setDraft_some.mp hd with ⟨-, rfl⟩ | ⟨-, hd⟩
    · exact Or.inl rfl
    · exact Or.inr hd
  have hclaims : ∀ k x c, ¬ (saved details content).Claims k x c :=
    fun k x c hc => (nomatch hc.1)
  have hkept := kept_save details content hnone
  exact {
    drafts := {
      linked := by
        intro id' d hd
        rcases hold id' d hd with rfl | hd
        · exact ⟨Iff.rfl, fun hf => (nomatch hf)⟩
        · exact h.drafts.linked id' d hd
      single := by
        intro id₁ id₂ d₁ d₂ k x c hd₁ hd₂ hc₁ hc₂
        rcases hold id₁ d₁ hd₁ with rfl | hd₁
        · exact absurd hc₁ (hclaims k x c)
        · rcases hold id₂ d₂ hd₂ with rfl | hd₂
          · exact absurd hc₂ (hclaims k x c)
          · exact h.drafts.single id₁ id₂ d₁ d₂ k x c hd₁ hd₂ hc₁ hc₂ }
    tokens := {
      minted := h.tokens.minted
      apart := h.tokens.apart
      shown := by
        intro key r m hr hm
        obtain ⟨id', d, hd, hmatch, hcontent⟩ := h.tokens.shown key r m hr hm
        obtain ⟨d', hd', hcontent', hmatch'⟩ := hkept.matches hd hmatch
        exact ⟨id', d', hd', hmatch', hcontent'.trans hcontent⟩
      attached := by
        intro id' d key r hd hr hc hmatch
        rcases hold id' d hd with rfl | hd
        · exact absurd hmatch.claims (hclaims _ _ _)
        · exact h.tokens.attached id' d key r hd hr hc hmatch }
    session := by
      intro i σ hσ
      have hsession := h.session i σ hσ
      refine hsession.later ?_ ?_ (fun _ _ key r hr hx => ⟨key, r, hr, hx⟩)
        (fun key r _ hr hx => ⟨r, hr, hx⟩)
      · have hne : σ.request.draftID ≠ id := by
          rintro rfl
          have hread := hsession.read
          rw [hnone] at hread
          cases hread
        exact Function.update_of_ne hne _ _
      · intro id' d k x c hid hd hc
        rcases hold id' d hd with rfl | hd
        · exact hclaims k x c
        · exact hsession.single id' d k x c hid hd hc
    apart := h.apart
    clear := h.clear
    work := by
      intro w hw
      refine (h.work w hw).later hkept
        (fun key r hr => ⟨r, hr, rfl, rfl, fun _ => rfl⟩)
        (fun key r hr => ⟨r, hr, rfl⟩) ?_
      intro id' d key r hd _ _ _ hmatch
      rcases hold id' d hd with rfl | hd
      · exact absurd hmatch.claims (hclaims _ _ _)
      · exact ⟨d, hd, hmatch, rfl, fun hf => hf⟩
    serialized := h.serialized }

end Steps

end MetadataLink
