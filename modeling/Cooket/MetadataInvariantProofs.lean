import Cooket.MetadataLinkProofs

/-! # What holds between drafts and launches

    The invariant of the transactions that link metadata.  Of the COMMITTED
    tables: a row shows only what its creator has linked to it, and what is
    linked it shows.  Of a SESSION: its draft is as it was read; if it found
    no launch, there is still none.  Of the INDEXER: a launch whose metadata
    it is done with has its advisory lock, or was canonical before.  And no
    two of them hold one lock. -/

namespace MetadataLink

/-! ## Links -/

theorem refused_iff {q : Request} {d : Draft} :
    q.refused d = false ↔
      (d.tokenAddress = none ∧ d.transactionHash = none ∨
        d.tokenAddress = some q.token ∧ d.transactionHash = some q.txHash) ∧
      (d.creatorAddress = none ∨ d.creatorAddress = some q.creator) := by
  obtain ⟨details, content, token, tx, creator, finalized⟩ := d
  cases token <;> cases tx <;> cases creator <;>
    simp [Request.refused]

theorem unlinked_iff {d : Draft} :
    d.unlinked = true ↔ d.finalized = false ∧ d.tokenAddress = none ∧
      d.transactionHash = none := by
  simp [Draft.unlinked, and_assoc]

/-- A draft that carries its link and its signer is not changed by it. -/
theorem link_eq {q : Request} {d : Draft}
    (ht : d.tokenAddress = some q.token)
    (hx : d.transactionHash = some q.txHash)
    (hc : d.creatorAddress = some q.creator) : d.link q = d := by
  rw [Draft.link, ← ht, ← hx, ← hc]

/-- Nor is one that some claim holds of. -/
theorem link_of_claims {q : Request} {d : Draft} {k x c : Nat}
    (haccepted : q.refused d = false) (hd : d.Claims k x c) :
    d.link q = d := by
  obtain ⟨ht, hx, hc⟩ := hd
  obtain ⟨hlink, hcreator⟩ := refused_iff.mp haccepted
  rcases hlink with ⟨hnone, -⟩ | ⟨htoken, htx⟩
  · rw [ht] at hnone
    cases hnone
  · rcases hcreator with hnone | hcreator
    · rw [hc] at hnone
      cases hnone
    · exact link_eq htoken htx hcreator

theorem Draft.Matches.claims {d : Draft} {key : Key} {r : TokenRow}
    (h : d.Matches key r) :
    d.Claims r.tokenAddress key.1 r.creatorAddress :=
  ⟨h.1, h.2.1, h.2.2.1⟩

/-- Rows of one token are of one launch, as far as their creator and their
    details go. -/
theorem Draft.Matches.of_minted {mint : Nat → Nat × Details} {d : Draft}
    {key : Key} {r r' : TokenRow} (h : d.Matches key r)
    (hr : (r.creatorAddress, r.details) = mint r.tokenAddress)
    (hr' : (r'.creatorAddress, r'.details) = mint r'.tokenAddress)
    (htoken : r.tokenAddress = r'.tokenAddress) : d.Matches key r' := by
  rw [htoken, ← hr', Prod.mk.injEq] at hr
  obtain ⟨ht, hx, hc, hdetails⟩ := h
  exact ⟨ht.trans (congrArg some htoken), hx,
    hc.trans (congrArg some hr.1), hdetails.trans hr.2⟩

theorem link_claims (d : Draft) (q : Request) :
    (d.link q).Claims q.token q.txHash q.creator := ⟨rfl, rfl, rfl⟩

/-- A claim is on one launch by one creator. -/
theorem claims_unique {d : Draft} {k x c k' x' c' : Nat}
    (h : d.Claims k x c) (h' : d.Claims k' x' c') :
    k = k' ∧ x = x' ∧ c = c' := by
  obtain ⟨ht, hx, hc⟩ := h
  obtain ⟨ht', hx', hc'⟩ := h'
  rw [ht] at ht'
  rw [hx] at hx'
  rw [hc] at hc'
  cases ht'
  cases hx'
  cases hc'
  exact ⟨rfl, rfl, rfl⟩

/-- The stages in which the draft of the session carries its link. -/
def Stage.wrote : Stage → Bool
  | .linked | .pending | .matched | .attached _ => true
  | _ => false

/-! ## What stays true -/

structure DraftsInv (db : Database) : Prop where
  linked : ∀ id d, db.drafts id = some d →
    (d.tokenAddress.isSome ↔ d.transactionHash.isSome) ∧
    (d.finalized = true → d.tokenAddress.isSome)
  single : ∀ id id' d d' k x c, db.drafts id = some d →
    db.drafts id' = some d' → d.Claims k x c → d'.Claims k x c → id = id'

/-- The row is that of the launch, and canonical. -/
def Launch.Written (l : Launch) (r : TokenRow) : Prop :=
  r.isCanonical = true ∧ r.tokenAddress = l.token ∧
    r.creatorAddress = l.creator ∧ r.details = l.details

section Invariants

variable (mint : Nat → Nat × Details) (excluded : Nat → Bool)

/-- Of the committed rows: what they show was linked by the creator, and what
    was linked by the creator they show. -/
structure TokensInv (db : Database) : Prop where
  minted : ∀ key r, db.tokens key = some r →
    (r.creatorAddress, r.details) = mint r.tokenAddress
  apart : ∀ key key' r r', db.tokens key = some r →
    db.tokens key' = some r' → r.isCanonical = true →
    r'.isCanonical = true → r.tokenAddress = r'.tokenAddress → key = key'
  shown : ∀ key r m, db.tokens key = some r → r.content = some m →
    ∃ id d, db.drafts id = some d ∧ d.Matches key r ∧ d.content = m
  attached : ∀ id d key r, db.drafts id = some d →
    db.tokens key = some r → r.isCanonical = true → d.Matches key r →
    r.content = some d.content ∧ d.finalized = true

/-- Of one session. -/
structure SessionInv (db : Database) (σ : Session) : Prop where
  read : db.drafts σ.request.draftID = some σ.read
  accepted : σ.request.refused σ.read = false
  early : σ.stage = .locked ∨ σ.stage = .serialized ∨ σ.stage = .unclaimed →
    σ.read.unlinked = true ∧ σ.draft = σ.read
  claiming : σ.stage = .claiming →
    σ.read.unlinked = false ∧ σ.draft = σ.read
  late : σ.stage.wrote = true → σ.draft = σ.read.link σ.request
  single : ∀ id d k x c, id ≠ σ.request.draftID → db.drafts id = some d →
    σ.draft.Claims k x c → ¬ d.Claims k x c
  pending : σ.stage = .pending → σ.read.unlinked = true →
    ∀ key r, db.tokens key = some r → ¬ σ.request.Indexed key r
  matched : (σ.stage = .matched ∨ ∃ key, σ.stage = .attached key) →
    (σ.request.creator, σ.read.details) = mint σ.request.token
  attached : ∀ key, σ.stage = .attached key →
    ∃ r, db.tokens key = some r ∧ σ.request.Indexed key r

/-- Two sessions hold no lock both, and no claim. -/
structure Apart (σ τ : Session) : Prop where
  draft : σ.request.draftID ≠ τ.request.draftID
  launch : σ.serializes = true → τ.serializes = true →
    (σ.request.token, σ.request.txHash) ≠ (τ.request.token, τ.request.txHash)
  row : ∀ key, σ.stage = .attached key → τ.stage ≠ .attached key
  claim : ∀ k x c, σ.draft.Claims k x c → ¬ τ.draft.Claims k x c

/-- Nor do a session and the indexer. -/
structure Clear (w : Work) (σ : Session) : Prop where
  row : ∀ key, σ.stage = .attached key → w.writes key = none
  launch : σ.serializes = true →
    (σ.request.token, σ.request.txHash) ∉ w.advisory
  draft : σ.request.draftID ∉ w.marked

/-- Of a transaction of the indexer, and the launch it has at hand. -/
structure WorkInv (db : Database) (w : Work) (current : Option Launch) :
    Prop where
  minted : ∀ key r, w.writes key = some r →
    (r.creatorAddress, r.details) = mint r.tokenAddress
  stamped : ∀ key r, w.writes key = some r → r.isCanonical = true →
    r.blockNumber = w.number ∧ r.blockHash = w.hash
  apart : ∀ key key' r r', w.writes key = some r → w.writes key' = some r' →
    r.isCanonical = true → r'.isCanonical = true →
    r.tokenAddress = r'.tokenAddress → key = key'
  onTop : ∀ key key' r r', db.tokens key = some r → w.writes key' = some r' →
    r.isCanonical = true → r'.isCanonical = true →
    (key' = key ↔ r'.tokenAddress = r.tokenAddress)
  shown : ∀ key r m, w.writes key = some r → r.content = some m →
    ∃ id d, db.drafts id = some d ∧ d.Matches key r ∧ d.content = m
  covered : ∀ key r, w.writes key = some r → r.isCanonical = true →
    (∀ l, current = some l → key ≠ l.key) →
    (r.tokenAddress, key.1) ∈ w.advisory ∨
      ∃ r₀, db.tokens key = some r₀ ∧ r₀.isCanonical = true
  attached : ∀ id d key r, w.writes key = some r → r.isCanonical = true →
    (∀ l, current = some l → key ≠ l.key) →
    db.drafts id = some d → d.Matches key r →
    r.content = some d.content ∧ (d.finalized = true ∨ id ∈ w.marked)
  carried : ∀ key r r₀, w.writes key = some r → r.isCanonical = true →
    db.tokens key = some r₀ → r₀.isCanonical = true →
    r.content = r₀.content
  marks : ∀ id ∈ w.marked, ∃ d key r, db.drafts id = some d ∧
    w.writes key = some r ∧ r.isCanonical = true ∧ d.Matches key r
  todo_minted : ∀ l ∈ w.todo, (l.creator, l.details) = mint l.token
  todo_onTop : ∀ l ∈ w.todo, ∀ key r, db.tokens key = some r →
    r.isCanonical = true → (l.key = key ↔ l.token = r.tokenAddress)
  todo_apart : w.todo.Pairwise (fun a b => a.token ≠ b.token ∧ a.key ≠ b.key)
  todo_new : ∀ l ∈ w.todo, w.writes l.key = none ∧
    ∀ key r, w.writes key = some r → r.isCanonical = true →
      r.tokenAddress ≠ l.token
  done : ∀ l ∈ w.launches, l ∈ w.todo ∨ excluded l.token = true ∨
    ∃ r, w.writes l.key = some r ∧ l.Written r
  current : ∀ l, current = some l → ∃ r, w.writes l.key = some r ∧ l.Written r

end Invariants

structure Inv (mint : Nat → Nat × Details) (excluded : Nat → Bool)
    (s : State) : Prop where
  drafts : DraftsInv s.db
  tokens : TokensInv mint s.db
  session : ∀ i σ, s.sessions i = some σ → SessionInv mint s.db σ
  apart : ∀ i j σ τ, i ≠ j → s.sessions i = some σ →
    s.sessions j = some τ → Apart σ τ
  clear : ∀ w i σ, s.indexer.work = some w → s.sessions i = some σ → Clear w σ
  work : ∀ w, s.indexer.work = some w →
    WorkInv mint excluded s.db w s.indexer.current
  serialized : ∀ w l, s.indexer = .serialized w l →
    ∃ held, w.advisory = (l.token, l.txHash) :: held

end MetadataLink
