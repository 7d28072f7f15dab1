import Cooket.MetadataIndexerProofs

/-! # Metadata is attached in either order

    A draft that its creator has linked is attached to its launch, whichever
    of the two transactions commits first; no row shows what its creator has
    not linked; and doing either again changes nothing.

    The ADVISORY LOCK carries the first: a session that has found no launch
    keeps the lock until its link is committed, so the indexer, which takes
    the lock before it looks for drafts, finds the link.  The ROW LOCK of the
    draft does the same when the link is there already.  That a row is still
    of the launch it was compared with needs neither: the address of a token
    fixes its creator, its name and its symbol.

    A draft that was linked BEFORE SIGNERS were recorded gets its signer
    without the advisory lock.  The indexer may look for drafts, and find none,
    after the session has looked for the launch and before it commits; then
    neither attaches the draft.  The law is that of the runs in which this does
    not happen (`Prompt`); `late_signature` is one in which it does. -/

namespace MetadataLink

section Steps

variable {mint : Nat → Nat × Details} {excluded : Nat → Bool}
variable {start : Database} {s s' : State}

/-! ## Every run -/

/-- **EVERY STATEMENT** of every transaction keeps the invariant, if it does
    not commit a signer too late. -/
theorem Step.inv (hstep : Step mint excluded s s') (hprompt : Prompt s s')
    (h : Inv mint excluded s) : Inv mint excluded s' := by
  cases hstep with
  | save hnone => exact h.save _ _ hnone
  | lock _ hd hfree hmarked haccepted =>
      exact h.lock hd hfree hmarked haccepted
  | serialize hi hstage hfree hwork => exact h.serialize hi hstage hfree hwork
  | unclaimed hi hstage _ => exact h.unclaimed hi hstage
  | link hi hstage hfree => exact h.link hi (Or.inl hstage) rfl hfree
  | claim hi hstage hfree =>
      exact h.link hi (Or.inr hstage) (claim_eq h hi hstage) hfree
  | absent hi hstage hnone => exact h.absent hi hstage hnone
  | agree hi hstage hr hindexed hdetails hcreator =>
      exact h.agree hi hstage hr hindexed hdetails hcreator
  | attach hi hstage hr hindexed _ hfree hwork =>
      exact h.attach hi hstage hr hindexed hfree hwork
  | commitPending hi hstage =>
      exact h.commit_pending hi hstage
        fun hsigns => hprompt _ _ hi hstage hsigns rfl
  | commitAttached hi hstage hr => exact h.commit_attached hi hstage hr
  | abort => exact h.drop_session _
  | apply _ htop hminted hdistinct hfree =>
      refine h.take_up hfree ?_ ?_ hminted hdistinct
      · -- no row of the height is of another block
        intro l _ key
        rw [Option.eq_none_iff_forall_ne_some]
        rintro r hr
        obtain ⟨r₀, hr₀, hc₀, hp, -⟩ := orphaned_some hr
        simp only [Bool.and_eq_true, decide_eq_true_eq] at hp
        rcases (htop key r₀ hr₀ hc₀).1 with hlt | ⟨-, hhash⟩
        · omega
        · exact hp.2 hhash
      · exact fun key r hr hc l hl => (htop key r hr hc).2 l hl
  | skip hw htodo hexcluded => exact h.skip hw htodo hexcluded
  | upsert hw htodo _ hfree => exact h.upsert hw htodo hfree
  | advisory hw hfree => exact h.advisory hw hfree
  | recover hw hcandidate honly hfree hr hindexed _ _ =>
      exact h.recover hw hcandidate honly hfree hr hindexed
  | leave hw hnone => exact h.leave hw hnone
  | @missed w l hw hnone =>
      exfalso
      obtain ⟨r, hr, hindexed⟩ := (indexed_iff h hw l.key).mpr rfl
      refine hnone ⟨l.key, r, hr, hindexed, ?_⟩
      exact fun key' r' hr' hx => (indexed_iff h hw key').mp ⟨r', hr', hx⟩
  | @victimLock w l hw hblocked =>
      exact h.give_way (by rw [hw]; rfl) (by rw [hw]; rfl) hblocked
        (fun x (hx : x ∈ w.advisory) => hx) (fun _ hx _ => hx)
  | @victimDraft w l hw hblocked =>
      obtain ⟨held, hheld⟩ := h.serialized w l hw
      refine h.give_way (by rw [hw]; rfl) (by rw [hw]; rfl) hblocked ?_ ?_
      · exact fun x hx => List.mem_of_mem_tail hx
      · intro x hx hne
        rw [hheld] at hx ⊢
        exact (List.mem_cons.mp hx).resolve_left hne
  | rewind _ hfree =>
      exact h.take_up hfree (fun _ hl => (nomatch hl))
        (fun _ _ _ _ _ hl => (nomatch hl)) (fun _ hl => (nomatch hl))
        List.Pairwise.nil
  | commit hw _ => exact h.commit hw
  | crash => exact h.crash

theorem Database.Fresh.inv (h : start.Fresh) :
    Inv mint excluded ⟨start, fun _ => none, .idle⟩ where
  drafts := {
    linked := h.linked
    single := by
      intro id id' d d' k x c hd _ hc _
      have := hc.2.2
      rw [h.unsigned id d hd] at this
      cases this }
  tokens := {
    minted := fun key r hr => by
      rw [h.tokens key] at hr
      cases hr
    apart := fun key _ r _ hr => by
      rw [h.tokens key] at hr
      cases hr
    shown := fun key r _ hr => by
      rw [h.tokens key] at hr
      cases hr
    attached := fun _ _ key r _ hr => by
      rw [h.tokens key] at hr
      cases hr }
  session := fun _ _ hσ => (nomatch hσ)
  apart := fun _ _ _ _ _ hσ => (nomatch hσ)
  clear := fun _ _ _ hw => (nomatch hw)
  work := fun _ hw => (nomatch hw)
  serialized := fun _ _ hx => (nomatch hx)

/-- **EVERY RUN** of such statements keeps the invariant. -/
theorem Reachable.inv (hrun : Reachable mint excluded Prompt start s)
    (hfresh : start.Fresh) : Inv mint excluded s := by
  induction hrun with
  | start => exact hfresh.inv
  | step _ hstep hprompt ih => exact hstep.inv hprompt ih

/-- No statement takes a link back, or a signer. -/
theorem Step.kept (hstep : Step mint excluded s s') (h : Inv mint excluded s) :
    Kept s.db s'.db := by
  cases hstep with
  | save hnone => exact kept_save _ _ hnone
  | commitPending hi hstage =>
      rw [commit_pending_db h hi hstage]
      exact kept_final h hi (fun hf => hf) rfl
  | commitAttached hi hstage _ =>
      rw [commit_attached_db h hi hstage]
      exact kept_final h hi (fun _ => rfl) rfl
  | commit => exact kept_commit _ _
  | lock | serialize | unclaimed | link | claim | absent | agree | attach
  | abort | apply | skip | upsert | advisory | recover | leave | missed
  | victimLock | victimDraft | rewind | crash => exact Kept.refl _

/-! ## Once more -/

/-- A row written over a canonical one, for the same block, is that row. -/
theorem rewritten (h : Inv mint excluded s) {w : Work}
    (hw : s.indexer = .working w) {key : Key} {r r₀ : TokenRow}
    (hr : w.writes key = some r) (hc : r.isCanonical = true)
    (hr₀ : s.db.tokens key = some r₀) (hc₀ : r₀.isCanonical = true)
    (hnumber : r₀.blockNumber = w.number) (hhash : r₀.blockHash = w.hash) :
    r = r₀ := by
  have hwork := h.work w (by rw [hw]; rfl)
  rw [hw] at hwork
  have htoken := (hwork.onTop key key r₀ r hr₀ hr hc₀ hc).mp rfl
  have hidentity := hwork.minted key r hr
  rw [htoken, ← h.tokens.minted key r₀ hr₀, Prod.mk.injEq] at hidentity
  obtain ⟨hn, hh⟩ := hwork.stamped key r hr hc
  have hcontent := hwork.carried key r r₀ hr hc hr₀ hc₀
  obtain ⟨hcreator, hdetails⟩ := hidentity
  cases r
  cases r₀
  simp_all

theorem setDraft_self {db : Database} {id : Nat} {d : Draft}
    (hd : db.drafts id = some d) : db.setDraft id d = db :=
  congrArg (Database.mk · db.tokens) (Function.update_eq_self_iff.mpr hd.symm)

theorem setToken_self {db : Database} {key : Key} {r : TokenRow}
    (hr : db.tokens key = some r) : db.setToken key r = db :=
  congrArg (Database.mk db.drafts) (Function.update_eq_self_iff.mpr hr.symm)

/-- **FINALIZED AGAIN**, a draft and its row stay as they are. -/
theorem finalized_again (h : Inv mint excluded s) {i : Nat} {σ : Session}
    (hi : s.sessions i = some σ)
    (hclaims : σ.read.Claims σ.request.token σ.request.txHash
      σ.request.creator) :
    (σ.stage = .pending → (s.commitPending i σ).db = s.db) ∧
    ∀ key r, σ.stage = .attached key → s.db.tokens key = some r →
      (s.commitAttached i σ key r).db = s.db := by
  have hσ := h.session i σ hi
  obtain ⟨ht, hx, hcreator⟩ := hclaims
  have hlink : σ.read.link σ.request = σ.read := link_eq ht hx hcreator
  refine ⟨?_, ?_⟩
  · intro hstage
    have hfinal : σ.final σ.read.finalized = σ.read := hlink
    rw [commit_pending_db h hi hstage, hfinal, setDraft_self hσ.read]
  · intro key r hstage hr
    obtain ⟨hc, hmatch⟩ := attached_matches h hi hstage hr
    have hmatch' : σ.read.Matches key r := by
      rw [← hlink]
      exact hmatch
    obtain ⟨hcontent, hdone⟩ :=
      h.tokens.attached _ σ.read key r hσ.read hr hc hmatch'
    have hrow : { r with content := some σ.read.content } = r := by
      rw [← hcontent]
    have hfinal : σ.final true = σ.read := by
      rw [Session.final, hlink, ← hdone]
    rw [commit_attached_db h hi hstage, hrow, hfinal, setToken_self hr,
      setDraft_self hσ.read]

/-- **APPLIED AGAIN**, a block changes nothing. -/
theorem applied_again (h : Inv mint excluded s) {w : Work}
    (hw : s.indexer = .working w)
    (hagain : ∀ key r, w.writes key = some r → r.isCanonical = true ∧
      ∃ r₀, s.db.tokens key = some r₀ ∧ r₀.isCanonical = true ∧
        r₀.blockNumber = w.number ∧ r₀.blockHash = w.hash) :
    w.commit s.db = s.db := by
  have hwork := h.work w (by rw [hw]; rfl)
  have hdrafts : (w.commit s.db).drafts = s.db.drafts := by
    funext id
    show (s.db.drafts id).map _ = s.db.drafts id
    cases hd : s.db.drafts id with
    | none => rfl
    | some d =>
        rw [Option.map_some]
        by_cases hid : id ∈ w.marked
        · obtain ⟨d', key, r, hd', hr, hc, hmatch⟩ := hwork.marks id hid
          rw [hd] at hd'
          cases hd'
          obtain ⟨-, r₀, hr₀, hc₀, hnumber, hhash⟩ := hagain key r hr
          have heq := rewritten h hw hr hc hr₀ hc₀ hnumber hhash
          subst heq
          have hfinal := (h.tokens.attached id d key r hd hr₀ hc₀ hmatch).2
          rw [if_pos hid, ← hfinal]
        · rw [if_neg hid]
  have htokens : (w.commit s.db).tokens = s.db.tokens := by
    funext key
    show (w.writes key).or (s.db.tokens key) = s.db.tokens key
    cases hr : w.writes key with
    | none => rfl
    | some r =>
        obtain ⟨hc, r₀, hr₀, hc₀, hnumber, hhash⟩ := hagain key r hr
        rw [hr₀, rewritten h hw hr hc hr₀ hc₀ hnumber hhash]
        rfl
  exact congrArg₂ Database.mk hdrafts htokens

/-! ## Too late -/

/-- **A SIGNER THAT COMES TOO LATE** is lost: the row shows nothing. -/
theorem late_lost (h : Inv mint excluded s) {i : Nat} {σ : Session}
    (hi : s.sessions i = some σ) (hsigns : σ.signs = true) {key : Key}
    {r : TokenRow} (hlate : s.TooLate σ.draft key r) : r.content = none := by
  have hσ := h.session i σ hi
  obtain ⟨hmatch, -, hwhere⟩ := hlate
  -- no draft matches the row but the session's, which is not signed yet
  have hshown : ∀ id d, s.db.drafts id = some d → d.Matches key r → False := by
    intro id d hd hmatch'
    by_cases hid : id = σ.request.draftID
    · subst hid
      rw [hσ.read] at hd
      cases hd
      simp [Session.signs, hmatch'.2.2.1] at hsigns
    · exact hσ.single id d _ _ _ hid hd hmatch.claims hmatch'.claims
  rw [Option.eq_none_iff_forall_ne_some]
  rintro m hm
  rcases hwhere with hr | ⟨w, hw, hr, -⟩
  · obtain ⟨id, d, hd, hmatch', -⟩ := h.tokens.shown key r m hr hm
    exact hshown id d hd hmatch'
  · obtain ⟨id, d, hd, hmatch', -⟩ := (h.work w hw).shown key r m hr hm
    exact hshown id d hd hmatch'

/-! ## The law -/

/-- **METADATA.**  In every state of every run in which no signer is committed
    too late:

    a draft linked with its signer, who is the creator, and alike the launch,
    is attached to that launch and to no other;

    what a row shows was linked to it by its creator, in a draft like it;

    a session that commits leaves its draft linked with its signer, and, if it
    has found the launch, attached to it; a block that is committed leaves its
    launches canonical; no statement takes a link back;

    a signer who finalizes again what is linked changes nothing, whether the
    launch is indexed or not; nor does a block that is applied again;

    and where a signer would be committed too late, nothing is attached. -/
theorem metadata_law (hfresh : start.Fresh)
    (hrun : Reachable mint excluded Prompt start s) :
    (∀ id d key r, s.db.drafts id = some d →
      s.db.tokens key = some r → r.isCanonical = true → d.Matches key r →
        r.content = some d.content ∧ d.finalized = true ∧
        ∀ key' r', s.db.tokens key' = some r' → r'.isCanonical = true →
          d.Matches key' r' → key' = key) ∧
    (∀ key r m, s.db.tokens key = some r → r.content = some m →
      ∃ id d, s.db.drafts id = some d ∧ d.Matches key r ∧ d.content = m) ∧
    (∀ i σ, s.sessions i = some σ →
      s.db.drafts σ.request.draftID = some σ.read ∧
      (σ.stage = .pending → (s.commitPending i σ).db =
        s.db.setDraft σ.request.draftID (σ.read.link σ.request)) ∧
      ∀ key r, σ.stage = .attached key → s.db.tokens key = some r →
        (r.isCanonical = true ∧ (σ.final true).Matches key r) ∧
        (s.commitAttached i σ key r).db =
          (s.db.setToken key { r with content := some σ.read.content }).setDraft
            σ.request.draftID (σ.final true)) ∧
    (∀ w, s.indexer = .working w → w.todo = [] → ∀ l ∈ w.launches,
      excluded l.token = false →
        ∃ r, (s.commitWork w).db.tokens l.key = some r ∧ l.Written r) ∧
    (∀ s', Step mint excluded s s' → Kept s.db s'.db) ∧
    (∀ i σ, s.sessions i = some σ →
      σ.read.Claims σ.request.token σ.request.txHash σ.request.creator →
        (σ.stage = .pending → (s.commitPending i σ).db = s.db) ∧
        ∀ key r, σ.stage = .attached key → s.db.tokens key = some r →
          (s.commitAttached i σ key r).db = s.db) ∧
    (∀ w, s.indexer = .working w →
      (∀ key r, w.writes key = some r → r.isCanonical = true ∧
        ∃ r₀, s.db.tokens key = some r₀ ∧ r₀.isCanonical = true ∧
          r₀.blockNumber = w.number ∧ r₀.blockHash = w.hash) →
        w.commit s.db = s.db) ∧
    (∀ i σ key r, s.sessions i = some σ → σ.signs = true →
      s.TooLate σ.draft key r → r.content = none) := by
  have h := hrun.inv hfresh
  refine ⟨?_, h.tokens.shown, ?_,
    fun w hw htodo l hl => launch_committed h hw htodo hl,
    fun s' hstep => hstep.kept h, fun i σ hi => finalized_again h hi,
    fun w hw => applied_again h hw,
    fun i σ key r hi hsigns hlate => late_lost h hi hsigns hlate⟩
  · intro id d key r hd hr hc hmatch
    obtain ⟨hcontent, hfinal⟩ := h.tokens.attached id d key r hd hr hc hmatch
    refine ⟨hcontent, hfinal, ?_⟩
    intro key' r' hr' hc' hmatch'
    have htoken : r'.tokenAddress = r.tokenAddress :=
      Option.some_inj.mp (hmatch'.1.symm.trans hmatch.1)
    exact h.tokens.apart key' key r' r hr' hr hc' hc htoken
  · intro i σ hi
    refine ⟨(h.session i σ hi).read, commit_pending_db h hi, ?_⟩
    exact fun key r hstage hr => ⟨attached_matches h hi hstage hr,
      commit_attached_db h hi hstage r⟩

end Steps

/-! ## One draft -/

def gold : Details := ⟨"Gold", "GLD", 1000⟩

def card : Content := ⟨"A coin.", "/gold.png", "/gold.json", none, none, none,
  none⟩

/-- The creator 7 signs for token 5 of transaction 9. -/
def claimGold : Request := ⟨1, 5, 9, 7⟩

def launchGold : Launch := ⟨5, 9, 0, 7, gold⟩

/-- A database with one draft, saved under 1, and at most one session. -/
def alone (d : Draft) (o : Option Session) (x : Indexer) : State where
  db := ⟨fun id => if id = 1 then some d else none, fun _ => none⟩
  sessions := fun i => if i = 0 then o else none
  indexer := x

/-- The runs from there, in which every token is this creator's. -/
abbrev GoldRun (allowed : State → State → Prop) (d : Draft) : State → Prop :=
  Reachable (fun _ => (7, gold)) (fun _ => false) allowed
    (alone d none .idle).db

section Alone

variable {allowed : State → State → Prop} {d d₀ : Draft}
variable {o o' : Option Session} {x : Indexer} {σ : Session}

theorem alone_draft {id : Nat} {d' : Draft} :
    (alone d o x).db.drafts id = some d' ↔ id = 1 ∧ d = d' := by
  show (if id = 1 then some d else none) = some d' ↔ _
  split <;> simp_all

theorem alone_session {i : Nat} :
    (alone d o x).sessions i = some σ ↔ i = 0 ∧ o = some σ := by
  show (if i = 0 then o else none) = some σ ↔ _
  split <;> simp_all

theorem alone_draftFree (id : Nat) : (alone d none x).DraftFree id := by
  intro i τ hτ
  cases (alone_session.mp hτ).2

theorem alone_fresh (hunsigned : d.creatorAddress = none)
    (hlinked : (d.tokenAddress.isSome ↔ d.transactionHash.isSome) ∧
      (d.finalized = true → d.tokenAddress.isSome)) :
    (alone d o x).db.Fresh where
  tokens := fun _ => rfl
  unsigned := by
    intro id d' hd
    rw [← (alone_draft.mp hd).2]
    exact hunsigned
  linked := by
    intro id d' hd
    rw [← (alone_draft.mp hd).2]
    exact hlinked

theorem alone_start : GoldRun allowed d (alone d none .idle) := by
  have heq : alone d none .idle =
      ⟨(alone d none .idle).db, fun _ => none, .idle⟩ := by
    simp [alone]
  exact heq ▸ Reachable.start

/-- The one session takes a step. -/
theorem alone_next (hrun : GoldRun allowed d₀ (alone d o x))
    (hstep : Step (fun _ => (7, gold)) (fun _ => false) (alone d o x)
      ((alone d o x).setSession 0 o'))
    (hallowed : ∀ s', allowed (alone d o x) s') :
    GoldRun allowed d₀ (alone d o' x) := by
  have heq : (alone d o x).setSession 0 o' = alone d o' x := by
    simp only [alone, State.setSession, State.mk.injEq, true_and, and_true]
    funext i
    by_cases hi : i = 0 <;> simp [hi]
  exact heq ▸ hrun.step hstep (hallowed _)

/-- Its claim has no rival. -/
theorem alone_claimFree (hσ : ∀ τ, o = some τ → τ.request.draftID = 1)
    (k c : Nat) (y : Nat) : (alone d o x).ClaimFree 1 k y c := by
  refine ⟨?_, ?_⟩
  · intro id d' hid hd
    exact absurd (alone_draft.mp hd).1 hid
  · intro i τ hτ hid
    exact absurd (hσ τ (alone_session.mp hτ).2) hid

/-- It commits its link. -/
theorem alone_commit (hid : σ.request.draftID = 1) :
    (alone d (some σ) x).commitPending 0 σ = alone σ.draft none x := by
  simp only [alone, State.commitPending, Database.setDraft, hid,
    State.mk.injEq, Database.mk.injEq, and_true]
  refine ⟨?_, ?_⟩
  · funext id
    by_cases hone : id = 1 <;> simp [hone]
  · funext i
    by_cases hi : i = 0 <;> simp [hi]

/-- The block of the launch, before anything of it is written. -/
def blockGold : Work := takeUp 3 33 [launchGold] (fun _ => none)

/-- The row of the launch. -/
def rowGold : TokenRow := blockGold.rowOf launchGold none

/-- The indexer is about to look for drafts. -/
def lookingGold : Work :=
  ((blockGold.next []).write (9, 0) rowGold).serialize launchGold

/-- It gets there beside a session without the locks it needs. -/
theorem looking_run (hrun : GoldRun allowed d₀ (alone d o .idle))
    (hquiet : ∀ τ, o = some τ →
      τ.serializes = false ∧ ∀ key, τ.stage ≠ .attached key)
    (hallowed : ∀ y s', allowed (alone d o y) s') :
    GoldRun allowed d₀ (alone d o (.serialized lookingGold launchGold)) := by
  have hrow : ∀ (y : Indexer) (key : Key), (alone d o y).TokenFree key :=
    fun y key i τ hτ => (hquiet τ (alone_session.mp hτ).2).2 key
  have hlaunch : ∀ y : Indexer, (alone d o y).LaunchFree 5 9 := by
    intro y i τ hτ hserial
    rw [(hquiet τ (alone_session.mp hτ).2).1] at hserial
    cases hserial
  have happlied : GoldRun allowed d₀ (alone d o (.working blockGold)) :=
    hrun.step (.apply rfl (fun _ _ hr => (nomatch hr)) (by simp [launchGold])
      (List.pairwise_singleton _ _) (fun key _ => hrow _ key)) (hallowed _ _)
  have hupserted : GoldRun allowed d₀ (alone d o (.upserted
      ((blockGold.next []).write (9, 0) rowGold) launchGold)) :=
    happlied.step (@Step.upsert _ _ (alone d o (.working blockGold)) blockGold
      launchGold [] rfl rfl rfl (hrow _ _)) (hallowed _ _)
  exact hupserted.step (@Step.advisory _ _ (alone d o (.upserted
    ((blockGold.next []).write (9, 0) rowGold) launchGold))
    ((blockGold.next []).write (9, 0) rowGold) launchGold rfl (hlaunch _))
    (hallowed _ _)

end Alone

/-! ## A link before its launch -/

/-- The draft as its creator has linked it. -/
def linkedGold : Draft := (saved gold card).link claimGold

/-- The session of the creator, at a stage where it has the draft as read. -/
def linking (d : Draft) (stage : Stage) : Option Session :=
  some ⟨claimGold, saved gold card, d, stage⟩

theorem linking_prompt {d d' : Draft} {stage : Stage} {x : Indexer}
    (s' : State) : Prompt (alone d (linking d' stage) x) s' := by
  intro i σ hσ _ hsigns
  obtain ⟨-, heq⟩ := alone_session.mp hσ
  cases Option.some_inj.mp heq
  cases hsigns

theorem alone_prompt {d : Draft} {x : Indexer} (s' : State) :
    Prompt (alone d none x) s' := by
  intro i σ hσ
  cases (alone_session.mp hσ).2

/-- The creator links the draft; the launch is not there. -/
theorem linked_run :
    GoldRun Prompt (saved gold card) (alone linkedGold none .idle) := by
  have hlocked : GoldRun Prompt (saved gold card)
      (alone (saved gold card) (linking (saved gold card) .locked) .idle) :=
    alone_next alone_start (.lock rfl rfl (alone_draftFree _)
      (fun _ hw => (nomatch hw)) rfl) alone_prompt
  have hserialized : GoldRun Prompt (saved gold card) (alone (saved gold card)
      (linking (saved gold card) .serialized) .idle) :=
    alone_next hlocked (@Step.serialize _ _ (alone (saved gold card)
      (linking (saved gold card) .locked) .idle) 0
      ⟨claimGold, saved gold card, saved gold card, .locked⟩ rfl rfl (by
        intro i σ hσ hserial
        cases (alone_session.mp hσ).2
        cases hserial) (fun _ hw => (nomatch hw))) linking_prompt
  have hunclaimed : GoldRun Prompt (saved gold card) (alone (saved gold card)
      (linking (saved gold card) .unclaimed) .idle) :=
    alone_next hserialized (@Step.unclaimed _ _ (alone (saved gold card)
      (linking (saved gold card) .serialized) .idle) 0
      ⟨claimGold, saved gold card, saved gold card, .serialized⟩ rfl rfl
      (fun id d hid hd => absurd (alone_draft.mp hd).1 hid)) linking_prompt
  have hlinked : GoldRun Prompt (saved gold card)
      (alone (saved gold card) (linking linkedGold .linked) .idle) :=
    alone_next hunclaimed (@Step.link _ _ (alone (saved gold card)
      (linking (saved gold card) .unclaimed) .idle) 0
      ⟨claimGold, saved gold card, saved gold card, .unclaimed⟩ rfl rfl
      (alone_claimFree (by
        rintro τ ⟨⟩
        rfl) _ _ _)) linking_prompt
  have hpending : GoldRun Prompt (saved gold card)
      (alone (saved gold card) (linking linkedGold .pending) .idle) :=
    alone_next hlinked (@Step.absent _ _
      (alone (saved gold card) (linking linkedGold .linked) .idle) 0
      ⟨claimGold, saved gold card, linkedGold, .linked⟩ rfl rfl
      (fun _ _ hr => (nomatch hr))) linking_prompt
  have hcommitted := hpending.step (.commitPending (i := 0) rfl rfl)
    (linking_prompt _)
  rw [linking, alone_commit rfl] at hcommitted
  exact hcommitted

/-- The indexer finds the link, and commits. -/
def attachedGold : Work :=
  (lookingGold.mark 1).write (9, 0) { rowGold with content := some card }

theorem attached_run : GoldRun Prompt (saved gold card)
    ((alone linkedGold none (.working attachedGold)).commitWork
      attachedGold) := by
  have hlooking := looking_run linked_run (fun _ ho => (nomatch ho))
    (fun _ => alone_prompt)
  have hcandidate : launchGold.Candidate (alone linkedGold none
      (.serialized lookingGold launchGold)).db 1 linkedGold :=
    ⟨rfl, ⟨rfl, rfl, rfl⟩, rfl⟩
  have hkey : ∀ key r, overlay lookingGold.writes (alone linkedGold none
      (.serialized lookingGold launchGold)).db.tokens key = some r →
      key = (9, 0) := by
    intro key r hr
    rcases Option.or_eq_some_iff.mp hr with hr | ⟨-, hr⟩
    · rcases write_some.mp hr with ⟨hkey, -⟩ | ⟨-, hr⟩
      · exact hkey
      · cases hr
    · cases hr
  have hfound : GoldRun Prompt (saved gold card)
      (alone linkedGold none (.working attachedGold)) :=
    hlooking.step (.recover rfl hcandidate
      (fun id d hd => (alone_draft.mp hd.1).1) (alone_draftFree _) rfl
      ⟨rfl, rfl, rfl, rfl⟩ (fun key r hr _ => hkey key r hr) (by
        intro i τ hτ
        cases (alone_session.mp hτ).2)) (alone_prompt _)
  exact hfound.step (.commit rfl rfl) (alone_prompt _)

/-- The launch of the linked draft is indexed, and shows it. -/
theorem metadata_law_gold : ∃ s r, GoldRun Prompt (saved gold card) s ∧
    s.db.tokens (9, 0) = some r ∧ r.isCanonical = true ∧
    r.content = some card := by
  refine ⟨_, { rowGold with content := some card }, attached_run, rfl, rfl, ?_⟩
  have hfresh : (alone (saved gold card) none .idle).db.Fresh :=
    alone_fresh rfl ⟨Iff.rfl, fun hf => Bool.noConfusion hf⟩
  exact ((metadata_law hfresh attached_run).1 1
    { linkedGold with finalized := true } (9, 0) _ rfl rfl rfl
    ⟨rfl, rfl, rfl, rfl⟩).1

/-! ## A signer that comes too late -/

/-- The draft as it was linked before signers were recorded. -/
def oldGold : Draft :=
  { saved gold card with tokenAddress := some 5, transactionHash := some 9 }

/-- The session of the creator, with the draft as read. -/
def signing (d : Draft) (stage : Stage) : Option Session :=
  some ⟨claimGold, oldGold, d, stage⟩

/-- **A RUN THAT LOSES THE METADATA.**  The creator signs for the draft while
    the launch is not there; before that is committed, the indexer writes the
    launch, finds no draft with a signer, and commits.  Then both are there,
    and nobody attaches the one to the other. -/
theorem late_signature : (alone oldGold none .idle).db.Fresh ∧
    ∃ s d r, GoldRun (fun _ _ => True) oldGold s ∧
      (∀ i, s.sessions i = none) ∧ s.indexer = .idle ∧
      s.db.drafts 1 = some d ∧ s.db.tokens (9, 0) = some r ∧
      r.isCanonical = true ∧ d.Matches (9, 0) r ∧
      d.finalized = false ∧ r.content = none := by
  have hsigning : GoldRun (fun _ _ => True) oldGold
      (alone oldGold (signing oldGold .claiming) .idle) :=
    alone_next alone_start (.lock rfl rfl (alone_draftFree _)
      (fun _ hw => (nomatch hw)) rfl) (fun _ => trivial)
  have hlinked : GoldRun (fun _ _ => True) oldGold
      (alone oldGold (signing linkedGold .linked) .idle) :=
    alone_next hsigning (@Step.claim _ _
      (alone oldGold (signing oldGold .claiming) .idle) 0
      ⟨claimGold, oldGold, oldGold, .claiming⟩ rfl rfl (alone_claimFree (by
        rintro τ ⟨⟩
        rfl) _ _ _)) (fun _ => trivial)
  have hpending : GoldRun (fun _ _ => True) oldGold
      (alone oldGold (signing linkedGold .pending) .idle) :=
    alone_next hlinked (@Step.absent _ _
      (alone oldGold (signing linkedGold .linked) .idle) 0
      ⟨claimGold, oldGold, linkedGold, .linked⟩ rfl rfl
      (fun _ _ hr => (nomatch hr))) (fun _ => trivial)
  have hlooking := looking_run hpending (by
    rintro τ ⟨⟩
    exact ⟨rfl, fun _ hkey => (nomatch hkey)⟩) (fun _ _ => trivial)
  have hleft : GoldRun (fun _ _ => True) oldGold
      (alone oldGold (signing linkedGold .pending) (.working lookingGold)) :=
    hlooking.step (.leave rfl (by
      rintro ⟨id, d, ⟨hd, hclaims, -⟩, -⟩
      cases (alone_draft.mp hd).2
      cases hclaims.2.2)) trivial
  have hindexed := hleft.step (.commit rfl rfl) trivial
  have hcommitted := hindexed.step (.commitPending (i := 0) rfl rfl) trivial
  refine ⟨alone_fresh rfl ⟨Iff.rfl, fun _ => rfl⟩, _, linkedGold, rowGold,
    hcommitted, ?_, rfl, rfl, rfl, rfl, ⟨rfl, rfl, rfl, rfl⟩, rfl, rfl⟩
  intro i
  show Function.update (fun i => if i = 0 then _ else none) 0 none i = none
  by_cases hi : i = 0 <;> simp [hi]

end MetadataLink
