import Mathlib.Logic.Function.Basic
import Mathlib.Data.List.Basic

/-! # Metadata drafts and canonical launches

    A creator saves a draft of a token's presentation, launches the token, and
    then signs for the draft.  Two programs bring the two together in one
    database.  `FinalizeMetadata` of the API links the draft to the launch and
    attaches it if the launch is there; the indexer, when it writes a launch,
    looks for a draft that is linked to it.

    Here both are given STATEMENT BY STATEMENT, in transactions of the default
    isolation: a statement reads what is committed when it runs, and its own
    transaction's writes.  A row lock and an advisory lock are held to the end
    of the transaction, and a statement that meets a lock waits.  Any number of
    sessions of the API run at once, beside one indexer.

    Addresses and hashes are compared without regard to case, so they are
    numbers here; the chain is fixed. -/

namespace MetadataLink

/-! ## The tables -/

/-- What a draft and its launch have to agree in. -/
structure Details where
  name : String
  symbol : String
  initialSupply : Nat
  deriving DecidableEq

/-- What is attached to a token. -/
structure Content where
  description : String
  imageURL : String
  metadataURL : String
  websiteURL : Option String
  xURL : Option String
  telegramURL : Option String
  discordURL : Option String
  deriving DecidableEq

/-- A row of `token_metadata_drafts`. -/
structure Draft where
  details : Details
  content : Content
  tokenAddress : Option Nat
  transactionHash : Option Nat
  creatorAddress : Option Nat
  finalized : Bool
  deriving DecidableEq

/-- The primary key of a token: transaction hash and log index. -/
abbrev Key := Nat × Nat

/-- A row of `tokens`, but for its key. -/
structure TokenRow where
  tokenAddress : Nat
  creatorAddress : Nat
  details : Details
  blockNumber : Nat
  blockHash : Nat
  content : Option Content
  isCanonical : Bool
  deriving DecidableEq

structure Database where
  drafts : Nat → Option Draft
  tokens : Key → Option TokenRow

namespace Database

variable (db : Database)

def setDraft (id : Nat) (d : Draft) : Database :=
  { db with drafts := Function.update db.drafts id (some d) }

def setToken (key : Key) (r : TokenRow) : Database :=
  { db with tokens := Function.update db.tokens key (some r) }

end Database

/-- The draft is that of the launch in this row: linked to it by its creator,
    and alike. -/
def Draft.Matches (d : Draft) (key : Key) (r : TokenRow) : Prop :=
  d.tokenAddress = some r.tokenAddress ∧ d.transactionHash = some key.1 ∧
    d.creatorAddress = some r.creatorAddress ∧ d.details = r.details

/-- The columns of the unique index of claims. -/
def Draft.Claims (d : Draft) (token tx creator : Nat) : Prop :=
  d.tokenAddress = some token ∧ d.transactionHash = some tx ∧
    d.creatorAddress = some creator

/-! ## Finalizing -/

/-- The arguments of `FinalizeMetadata`; the creator is the signer. -/
structure Request where
  draftID : Nat
  token : Nat
  txHash : Nat
  creator : Nat
  deriving DecidableEq

/-- The draft belongs to another launch or to another signer. -/
def Request.refused (q : Request) (d : Draft) : Bool :=
  ((d.tokenAddress.isSome || d.transactionHash.isSome) &&
    (d.tokenAddress ≠ some q.token || d.transactionHash ≠ some q.txHash)) ||
  (d.creatorAddress.isSome && d.creatorAddress ≠ some q.creator)

/-- The draft is not linked yet. -/
def Draft.unlinked (d : Draft) : Bool :=
  !d.finalized && d.tokenAddress.isNone && d.transactionHash.isNone

def Draft.link (d : Draft) (q : Request) : Draft :=
  { d with tokenAddress := some q.token, transactionHash := some q.txHash,
           creatorAddress := some q.creator }

/-- Where a transaction of `FinalizeMetadata` stands. -/
inductive Stage where
  | locked
  | serialized
  | unclaimed
  | claiming
  | linked
  | pending
  | matched
  | attached (key : Key)
  deriving DecidableEq

/-- A transaction of `FinalizeMetadata`: the draft as it was read under its
    lock, and as the transaction has it now. -/
structure Session where
  request : Request
  read : Draft
  draft : Draft
  stage : Stage

/-- The session holds the advisory lock of its launch. -/
def Session.serializes (σ : Session) : Bool :=
  σ.read.unlinked && σ.stage ≠ .locked

/-- The session records the signer of a draft that was linked without one.  It
    takes no advisory lock for it. -/
def Session.signs (σ : Session) : Bool :=
  !σ.read.unlinked && σ.read.creatorAddress.isNone

/-! ## Indexing -/

/-- A log `TokenLaunchedV3`, with the name, symbol and supply of its token. -/
structure Launch where
  token : Nat
  txHash : Nat
  logIndex : Nat
  creator : Nat
  details : Details

def Launch.key (l : Launch) : Key := (l.txHash, l.logIndex)

/-- A transaction of the indexer.  Of the launches of its block, those that
    are still to be projected; of the drafts, those it has finalized. -/
structure Work where
  number : Nat
  hash : Nat
  launches : List Launch
  todo : List Launch
  writes : Key → Option TokenRow
  advisory : List (Nat × Nat)
  marked : List Nat

/-- Where the indexer stands.  It projects one launch after the other: the row
    first, then, under the advisory lock of the launch, its metadata. -/
inductive Indexer where
  | idle
  | working (w : Work)
  | upserted (w : Work) (l : Launch)
  | serialized (w : Work) (l : Launch)

def Indexer.work : Indexer → Option Work
  | .idle => none
  | .working w => some w
  | .upserted w _ => some w
  | .serialized w _ => some w

/-- The launch whose row is written, and whose metadata is not. -/
def Indexer.current : Indexer → Option Launch
  | .upserted _ l => some l
  | .serialized _ l => some l
  | _ => none

/-- The table as a transaction with these writes sees it. -/
def overlay (writes tokens : Key → Option TokenRow) : Key → Option TokenRow :=
  fun key => (writes key).or (tokens key)

/-- The row of a launch.  What was attached to the row stays, if it is still
    of the same launch. -/
def Work.rowOf (w : Work) (l : Launch) (old : Option TokenRow) : TokenRow where
  tokenAddress := l.token
  creatorAddress := l.creator
  details := l.details
  blockNumber := w.number
  blockHash := w.hash
  content :=
    match old with
    | none => none
    | some r =>
        if r.tokenAddress = l.token ∧ r.creatorAddress = l.creator ∧
          r.details = l.details
        then r.content else none
  isCanonical := true

/-- Rows that are taken out of the chain. -/
def orphaned (p : TokenRow → Bool) (tokens : Key → Option TokenRow) :
    Key → Option TokenRow :=
  fun key =>
    match tokens key with
    | none => none
    | some r =>
        if r.isCanonical && p r then some { r with isCanonical := false }
        else none

namespace Work

variable (w : Work)

def next (todo : List Launch) : Work := { w with todo := todo }

def write (key : Key) (r : TokenRow) : Work :=
  { w with writes := Function.update w.writes key (some r) }

def serialize (l : Launch) : Work :=
  { w with advisory := (l.token, l.txHash) :: w.advisory }

/-- Back to the savepoint: the lock taken after it is released. -/
def rollback : Work := { w with advisory := w.advisory.tail }

def mark (id : Nat) : Work := { w with marked := id :: w.marked }

end Work

/-- Writes that are committed. -/
def Work.commit (w : Work) (db : Database) : Database where
  drafts := fun id => (db.drafts id).map fun d =>
    if id ∈ w.marked then { d with finalized := true } else d
  tokens := overlay w.writes db.tokens

/-! ## Waiting -/

structure State where
  db : Database
  sessions : Nat → Option Session
  indexer : Indexer

namespace State

variable (s : State)

/-- No session has the row lock of the draft. -/
def DraftFree (id : Nat) : Prop :=
  ∀ i σ, s.sessions i = some σ → σ.request.draftID ≠ id

/-- No session has the advisory lock of the launch. -/
def LaunchFree (token tx : Nat) : Prop :=
  ∀ i σ, s.sessions i = some σ → σ.serializes = true →
    (σ.request.token, σ.request.txHash) ≠ (token, tx)

/-- No session has the row lock of the token. -/
def TokenFree (key : Key) : Prop :=
  ∀ i σ, s.sessions i = some σ → σ.stage ≠ .attached key

/-- The unique index lets the draft have this claim: no other draft has it,
    and no other session is about to give it to one. -/
def ClaimFree (id token tx creator : Nat) : Prop :=
  (∀ id' d, id' ≠ id → s.db.drafts id' = some d →
    ¬ d.Claims token tx creator) ∧
  ∀ i σ, s.sessions i = some σ → σ.request.draftID ≠ id →
    ¬ σ.draft.Claims token tx creator

def setSession (i : Nat) (σ : Option Session) : State :=
  { s with sessions := Function.update s.sessions i σ }

def setIndexer (x : Indexer) : State := { s with indexer := x }

def commitWork (w : Work) : State :=
  { s with db := w.commit s.db, indexer := .idle }

end State

/-! ## The statements -/

/-- A row that the API takes to be the launch. -/
def Request.Indexed (q : Request) (key : Key) (r : TokenRow) : Prop :=
  r.isCanonical = true ∧ r.tokenAddress = q.token ∧ key.1 = q.txHash

/-- A draft that the indexer takes to be the launch's. -/
def Launch.Candidate (l : Launch) (db : Database) (id : Nat) (d : Draft) :
    Prop :=
  db.drafts id = some d ∧ d.Claims l.token l.txHash l.creator ∧
    d.details = l.details

/-- A row that the indexer takes to be the launch. -/
def Launch.Indexed (l : Launch) (key : Key) (r : TokenRow) : Prop :=
  r.isCanonical = true ∧ r.tokenAddress = l.token ∧ key.1 = l.txHash ∧
    r.details = l.details

/-- A session waits for a row of the launch that the indexer has written. -/
def State.Blocked (s : State) (w : Work) (l : Launch) : Prop :=
  ∃ i σ key r, s.sessions i = some σ ∧ σ.stage = .matched ∧
    σ.request.token = l.token ∧ σ.request.txHash = l.txHash ∧
    s.db.tokens key = some r ∧ σ.request.Indexed key r ∧
    (w.writes key).isSome

/-- The draft is too late for this row: it is canonical, or the indexer has
    written it and been through looking for its drafts. -/
def State.TooLate (s : State) (d : Draft) (key : Key) (r : TokenRow) : Prop :=
  d.Matches key r ∧ r.isCanonical = true ∧
    (s.db.tokens key = some r ∨ ∃ w, s.indexer.work = some w ∧
      w.writes key = some r ∧
      ∀ l, s.indexer.current = some l → key ≠ l.key)

/-- A block that goes on the canonical ones, or that is the last of them once
    more.  `Run` rewinds before it takes another block at a height.  A token
    has one launch on a chain, at one place. -/
def OnTop (db : Database) (number hash : Nat) (launches : List Launch) :
    Prop :=
  ∀ key r, db.tokens key = some r → r.isCanonical = true →
    (r.blockNumber < number ∨ r.blockNumber = number ∧ r.blockHash = hash) ∧
    ∀ l ∈ launches, l.key = key ↔ l.token = r.tokenAddress

/-- A fresh row of `SaveMetadataDraft`. -/
def saved (details : Details) (content : Content) : Draft where
  details := details
  content := content
  tokenAddress := none
  transactionHash := none
  creatorAddress := none
  finalized := false

/-- What `FinalizeMetadata` does next to a draft that is not refused. -/
def firstStage (d : Draft) : Stage :=
  if d.unlinked then .locked
  else if d.creatorAddress.isNone then .claiming
  else .linked

/-- A session commits its draft, and ends. -/
def State.commitPending (s : State) (i : Nat) (σ : Session) : State where
  db := s.db.setDraft σ.request.draftID σ.draft
  sessions := Function.update s.sessions i none
  indexer := s.indexer

/-- A session commits its draft and the row it attached it to, and ends. -/
def State.commitAttached (s : State) (i : Nat) (σ : Session) (key : Key)
    (r : TokenRow) : State where
  db := (s.db.setToken key { r with content := some σ.draft.content }).setDraft
    σ.request.draftID { σ.draft.link σ.request with finalized := true }
  sessions := Function.update s.sessions i none
  indexer := s.indexer

/-- A transaction of the indexer that has withdrawn rows. -/
def takeUp (number hash : Nat) (launches : List Launch)
    (writes : Key → Option TokenRow) : Work where
  number := number
  hash := hash
  launches := launches
  todo := launches
  writes := writes
  advisory := []
  marked := []

section Step

/- `mint` gives the creator of a token, and what its contract says of itself:
    the address of a token is made from these. -/
variable (mint : Nat → Nat × Details) (excluded : Nat → Bool)

/-- **ONE STATEMENT** of one transaction.  A constructor has the locks that
    its statement may have to wait for as premises. -/
inductive Step : State → State → Prop where
  -- the API
  | save {s id details content} :
      s.db.drafts id = none →
      Step s { s with db := s.db.setDraft id (saved details content) }
  | lock {s i q d} :
      s.sessions i = none → s.db.drafts q.draftID = some d →
      s.DraftFree q.draftID →
      (∀ w, s.indexer.work = some w → q.draftID ∉ w.marked) →
      q.refused d = false →
      Step s (s.setSession i (some ⟨q, d, d, firstStage d⟩))
  | serialize {s i σ} :
      s.sessions i = some σ → σ.stage = .locked →
      s.LaunchFree σ.request.token σ.request.txHash →
      (∀ w, s.indexer.work = some w →
        (σ.request.token, σ.request.txHash) ∉ w.advisory) →
      Step s (s.setSession i (some { σ with stage := .serialized }))
  | unclaimed {s i σ} :
      s.sessions i = some σ → σ.stage = .serialized →
      (∀ id d, id ≠ σ.request.draftID → s.db.drafts id = some d →
        ¬ d.Claims σ.request.token σ.request.txHash σ.request.creator) →
      Step s (s.setSession i (some { σ with stage := .unclaimed }))
  | link {s i σ} :
      s.sessions i = some σ → σ.stage = .unclaimed →
      s.ClaimFree σ.request.draftID σ.request.token σ.request.txHash
        σ.request.creator →
      Step s (s.setSession i (some
        ⟨σ.request, σ.read, σ.read.link σ.request, .linked⟩))
  | claim {s i σ} :
      s.sessions i = some σ → σ.stage = .claiming →
      s.ClaimFree σ.request.draftID σ.request.token σ.request.txHash
        σ.request.creator →
      Step s (s.setSession i (some ⟨σ.request, σ.read,
        { σ.read with creatorAddress := some σ.request.creator }, .linked⟩))
  | absent {s i σ} :
      s.sessions i = some σ → σ.stage = .linked →
      (∀ key r, s.db.tokens key = some r → ¬ σ.request.Indexed key r) →
      Step s (s.setSession i (some { σ with stage := .pending }))
  | agree {s i σ key r} :
      s.sessions i = some σ → σ.stage = .linked →
      s.db.tokens key = some r → σ.request.Indexed key r →
      r.details = σ.draft.details → r.creatorAddress = σ.request.creator →
      Step s (s.setSession i (some { σ with stage := .matched }))
  | attach {s i σ key r} :
      s.sessions i = some σ → σ.stage = .matched →
      s.db.tokens key = some r → σ.request.Indexed key r →
      (∀ key' r', s.db.tokens key' = some r' → σ.request.Indexed key' r' →
        key' = key) →
      s.TokenFree key →
      (∀ w, s.indexer.work = some w → w.writes key = none) →
      Step s (s.setSession i (some { σ with stage := .attached key }))
  | commitPending {s i σ} :
      s.sessions i = some σ → σ.stage = .pending →
      Step s (s.commitPending i σ)
  | commitAttached {s i σ key r} :
      s.sessions i = some σ → σ.stage = .attached key →
      s.db.tokens key = some r →
      Step s (s.commitAttached i σ key r)
  -- a mismatch, an error, a client that went away
  | abort {s i} : Step s (s.setSession i none)
  -- the indexer
  | apply {s number hash launches} :
      s.indexer = .idle → OnTop s.db number hash launches →
      (∀ l ∈ launches, (l.creator, l.details) = mint l.token) →
      launches.Pairwise (fun a b => a.token ≠ b.token ∧ a.key ≠ b.key) →
      (∀ key, (orphaned (fun r => r.blockNumber = number &&
        r.blockHash ≠ hash) s.db.tokens key).isSome → s.TokenFree key) →
      Step s (s.setIndexer (.working (takeUp number hash launches
        (orphaned (fun r => r.blockNumber = number && r.blockHash ≠ hash)
          s.db.tokens))))
  | skip {s w l rest} :
      s.indexer = .working w → w.todo = l :: rest → excluded l.token = true →
      Step s (s.setIndexer (.working (w.next rest)))
  | upsert {s w l rest} :
      s.indexer = .working w → w.todo = l :: rest →
      excluded l.token = false → s.TokenFree l.key →
      Step s (s.setIndexer (.upserted ((w.next rest).write l.key
        (w.rowOf l (overlay w.writes s.db.tokens l.key))) l))
  | advisory {s w l} :
      s.indexer = .upserted w l → s.LaunchFree l.token l.txHash →
      Step s (s.setIndexer (.serialized (w.serialize l) l))
  | recover {s w l id d key r} :
      s.indexer = .serialized w l →
      l.Candidate s.db id d → (∀ id' d', l.Candidate s.db id' d' → id' = id) →
      s.DraftFree id →
      overlay w.writes s.db.tokens key = some r → l.Indexed key r →
      (∀ key' r', overlay w.writes s.db.tokens key' = some r' →
        l.Indexed key' r' → key' = key) →
      s.TokenFree key →
      Step s (s.setIndexer (.working ((w.mark id).write key
        { r with content := some d.content })))
  -- no draft, or more than one
  | leave {s w l} :
      s.indexer = .serialized w l →
      (¬ ∃ id d, l.Candidate s.db id d ∧
        ∀ id' d', l.Candidate s.db id' d' → id' = id) →
      Step s (s.setIndexer (.working w))
  -- no row, or more than one: the savepoint is rolled back
  | missed {s w l} :
      s.indexer = .serialized w l →
      (¬ ∃ key r, overlay w.writes s.db.tokens key = some r ∧
        l.Indexed key r ∧ ∀ key' r',
          overlay w.writes s.db.tokens key' = some r' →
          l.Indexed key' r' → key' = key) →
      Step s (s.setIndexer (.working w.rollback))
  -- a deadlock with a session, of which the indexer is the victim: as before
  | victimLock {s w l} :
      s.indexer = .upserted w l → s.Blocked w l →
      Step s (s.setIndexer (.working w))
  | victimDraft {s w l} :
      s.indexer = .serialized w l → s.Blocked w l →
      Step s (s.setIndexer (.working w.rollback))
  | rewind {s start} :
      s.indexer = .idle →
      (∀ key, (orphaned (fun r => start ≤ r.blockNumber)
        s.db.tokens key).isSome → s.TokenFree key) →
      Step s (s.setIndexer (.working (takeUp start 0 []
        (orphaned (fun r => start ≤ r.blockNumber) s.db.tokens))))
  | commit {s w} :
      s.indexer = .working w → w.todo = [] →
      Step s (s.commitWork w)
  | crash {s} : Step s (s.setIndexer .idle)

/-- Any interleaving of the statements of any transactions, of which each is
    `allowed`. -/
inductive Reachable (allowed : State → State → Prop) (start : Database) :
    State → Prop where
  | start : Reachable allowed start ⟨start, fun _ => none, .idle⟩
  | step {s s'} : Reachable allowed start s → Step mint excluded s s' →
      allowed s s' → Reachable allowed start s'

end Step

/-- No signer of a draft that was linked without one is committed too late for
    the launch. -/
def Prompt (s s' : State) : Prop :=
  ∀ i σ, s.sessions i = some σ → σ.stage = .pending → σ.signs = true →
    s' = s.commitPending i σ → ∀ key r, ¬ s.TooLate σ.draft key r

/-- No token is indexed yet.  A draft may have been linked before signers were
    recorded. -/
structure Database.Fresh (db : Database) : Prop where
  tokens : ∀ key, db.tokens key = none
  unsigned : ∀ id d, db.drafts id = some d → d.creatorAddress = none
  linked : ∀ id d, db.drafts id = some d →
    (d.tokenAddress.isSome ↔ d.transactionHash.isSome) ∧
    (d.finalized = true → d.tokenAddress.isSome)

end MetadataLink
