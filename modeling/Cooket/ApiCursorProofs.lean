import Cooket.ApiPagingProofs
import Cooket.Base64UrlProofs
import Cooket.JsonTextProofs

/-! # Is every cursor the API hands out accepted back?

    A cursor leaves the API as text: `encodeCursor` writes the fields of a
    `pageCursor` as JSON, without the empty ones, and the JSON as base64.  It
    comes back through `pagination` of the HTTP handler, which asks
    `validOpaqueCursor`, and through `decodeCursor` of the repository.

    The text carries the fields: `readCursor_encodeCursor`.  So a cursor is
    accepted back just when its fields are, and `cursor_accepted_iff` says
    when that is, for every paginated endpoint: the handler's switch must name
    the kind of the cursor, which it does for all but the discovery views and
    the holdings, and the row the cursor was made from must carry well-formed
    columns. -/

namespace ApiCursor

open ApiQueries hiding decodeCursor validOpaqueCursor validCursorInteger
open ApiPaging Base64Url CheckedArith JsonText Keyset

/-! ## The fields of a cursor and their text -/

/-- `pageCursor`, with the fields' own types. -/
structure CursorFields where
  kind : Text := []
  blockNumber : ℤ := 0
  tokenAddress : Text := []
  transaction : Text := []
  transactionIndex : ℤ := 0
  logIndex : ℤ := 0
  tradeCount : ℤ := 0
  volume : Text := []
  recentTrades : ℤ := 0
  recentUsers : ℤ := 0
  query : Text := []
  proposalID : Text := []
  view : Text := []
  threshold : Text := []
  deriving DecidableEq

/-- A string field that is left out when empty. -/
def omitText (key : Char) (s : Text) : List (Text × Scalar) :=
  if s = [] then [] else [([key], .text s)]

/-- An integer field that is left out when zero. -/
def omitInt (key : Char) (n : ℤ) : List (Text × Scalar) :=
  if n = 0 then [] else [([key], .int n)]

/-- The JSON members of a cursor, in the order of the struct. -/
def CursorFields.members (c : CursorFields) : List (Text × Scalar) :=
  [(['k'], .text c.kind), (['b'], .int c.blockNumber)] ++
    omitText 'a' c.tokenAddress ++ omitText 't' c.transaction ++
    omitInt 'i' c.transactionIndex ++ omitInt 'l' c.logIndex ++
    omitInt 'n' c.tradeCount ++ omitText 'v' c.volume ++
    omitInt 'r' c.recentTrades ++ omitInt 'u' c.recentUsers ++
    omitText 'q' c.query ++ omitText 'p' c.proposalID ++
    omitText 'w' c.view ++ omitText 'h' c.threshold

def encodeCursor (c : CursorFields) : Text :=
  encode (utf8 (printObject c.members))

/-- A string is set by a string, left alone by `null`. -/
def setText (v : Json) (old : Text) : Option Text :=
  match v with
  | .string s => some s
  | .null => some old
  | _ => none

/-- An integer is set by a number that `ParseInt` takes. -/
def setInt (v : Json) (old : ℤ) : Option ℤ :=
  match v with
  | .number s => parseInt64 s
  | .null => some old
  | _ => none

/-- Names of members match fields without regard to case; the Kelvin sign
    folds to a letter. -/
def foldLetter (c : Char) : Char :=
  if c = Char.ofNat 0x212A then 'k' else c.toLower

/-- What a member does to the struct, by its folded name.  A member that names
    no field is skipped. -/
def assignField (c : CursorFields) (name : Text) (v : Json) :
    Option CursorFields :=
  match name with
  | ['k'] => (setText v c.kind).map fun x => { c with kind := x }
  | ['b'] => (setInt v c.blockNumber).map fun x =>
      { c with blockNumber := x }
  | ['a'] => (setText v c.tokenAddress).map fun x =>
      { c with tokenAddress := x }
  | ['t'] => (setText v c.transaction).map fun x =>
      { c with transaction := x }
  | ['i'] => (setInt v c.transactionIndex).map fun x =>
      { c with transactionIndex := x }
  | ['l'] => (setInt v c.logIndex).map fun x => { c with logIndex := x }
  | ['n'] => (setInt v c.tradeCount).map fun x => { c with tradeCount := x }
  | ['v'] => (setText v c.volume).map fun x => { c with volume := x }
  | ['r'] => (setInt v c.recentTrades).map fun x =>
      { c with recentTrades := x }
  | ['u'] => (setInt v c.recentUsers).map fun x =>
      { c with recentUsers := x }
  | ['q'] => (setText v c.query).map fun x => { c with query := x }
  | ['p'] => (setText v c.proposalID).map fun x =>
      { c with proposalID := x }
  | ['w'] => (setText v c.view).map fun x => { c with view := x }
  | ['h'] => (setText v c.threshold).map fun x => { c with threshold := x }
  | _ => some c

def assign (c : CursorFields) (m : Text × Json) : Option CursorFields :=
  assignField c (m.1.map foldLetter) m.2

/-- `json.Unmarshal` into an empty `pageCursor`. -/
def unmarshal (bs : List UInt8) : Option CursorFields :=
  match parse (runes bs) with
  | some (.object ms) => ms.foldlM assign {}
  | some .null => some {}
  | _ => none

/-- The fields of a raw cursor. -/
def readCursor (raw : Text) : Option CursorFields := do
  let bs ← decode raw
  unmarshal bs

/-- The text of a numeric column. -/
def numericText : Option Numeric → Text
  | none => []
  | some none => "NaN".toList
  | some (some n) => decimal n

/-! ## The checks -/

/-- The `k` field of each kind. -/
def kindName : Kind → Text
  | .tokens => "tokens".toList
  | .creator => "creator".toList
  | .search => "search".toList
  | .trending => "trending".toList
  | .discovery => "discovery".toList
  | .holdings => "holdings".toList
  | .trades => "trades".toList
  | .activity => "activity".toList
  | .ctoProposals => "cto_proposals".toList
  | .ctoCheckpoints => "cto_checkpoints".toList
  | .ctoTransfers => "cto_transfers".toList
  | .ctoFeePulls => "cto_fee_pulls".toList

/-- The `w` field of each view. -/
def viewName : View → Text
  | .top => "top".toList
  | .near => "near".toList
  | .linked => "linked".toList

/-- `validCursorInteger`: digits, and not all of them zeros unless zero is
    allowed. -/
def validCursorInteger (value : Text) (allowZero : Bool) : Bool :=
  value ≠ [] && value.all Char.isDigit &&
    (allowZero || !value.all fun digit => digit = '0')

/-- `decodeCursor`. -/
def decodeCursor (raw kind : Text) : Except Error CursorFields :=
  if raw = [] then .ok {}
  else
    match readCursor raw with
    | none => .error .invalidCursor
    | some c => do
        refuse (c.kind ≠ kind || c.blockNumber < 0)
        refuse ((kind = kindName .tokens || kind = kindName .creator ||
          kind = kindName .holdings) && !validCursorHex c.tokenAddress 40)
        refuse (kind = kindName .trending &&
          (!validCursorHex c.tokenAddress 40 || c.volume = []))
        refuse (kind = kindName .search &&
          (!validCursorHex c.tokenAddress 40 || c.query = []))
        refuse (kind = kindName .discovery &&
          (!validCursorHex c.tokenAddress 40 || (c.view ≠ viewName .top &&
            c.view ≠ viewName .near && c.view ≠ viewName .linked)))
        refuse (kind = kindName .discovery &&
          ((c.view = viewName .top && !validCursorInteger c.volume true) ||
            (c.view = viewName .near && (!validCursorInteger c.volume true ||
              !validCursorInteger c.threshold false))))
        refuse ((kind = kindName .trades || kind = kindName .activity) &&
          (!validCursorHex c.transaction 64 || c.transactionIndex < 0 ||
            c.logIndex < 0))
        refuse (kind = kindName .ctoProposals &&
          (!validCursorHex c.transaction 64 ||
            !validCursorHex c.proposalID 64 || c.logIndex < 0))
        refuse ((kind = kindName .ctoCheckpoints ||
          kind = kindName .ctoTransfers || kind = kindName .ctoFeePulls) &&
          (!validCursorHex c.transaction 64 || c.logIndex < 0))
        .ok c

/-- The cases of the switch of `validOpaqueCursor`. -/
def switched : List Kind :=
  [.tokens, .creator, .search, .trending, .trades, .activity, .ctoProposals,
    .ctoCheckpoints, .ctoTransfers, .ctoFeePulls]

/-- `validOpaqueCursor`. -/
def validOpaqueCursor (raw : Text) : Bool :=
  match readCursor raw with
  | none => false
  | some c => 0 ≤ c.blockNumber &&
      switched.any (fun kind => c.kind = kindName kind) &&
      (decodeCursor raw c.kind).isOk

/-- The `limit` parameter; an absent one is empty. -/
def pageLimit (limit : Text) : Except String Nat :=
  if limit = [] then .ok 20
  else
    match parseInt64 limit with
    | some n =>
        if n < 1 || 100 < n then .error "limit must be between 1 and 100"
        else .ok n.toNat
    | none => .error "limit must be between 1 and 100"

/-- `pagination`, on the two query parameters. -/
def pagination (limit cursor : Text) : Except String (Nat × Text) := do
  let limit ← pageLimit limit
  if cursor ≠ [] && !validOpaqueCursor cursor then .error "cursor is invalid"
  else .ok (limit, cursor)

/-- The fields a repository function writes into a cursor. -/
def fields (c : PageCursor) : CursorFields where
  kind := kindName c.kind
  blockNumber := c.blockNumber
  tokenAddress := c.tokenAddress
  transaction := c.transaction
  transactionIndex := c.transactionIndex
  logIndex := c.logIndex
  volume := numericText c.volume
  recentTrades := c.recentTrades
  recentUsers := c.recentUsers
  query := c.query
  proposalID := c.proposalID
  view := (c.view.map viewName).getD []
  threshold := numericText c.threshold

/-! ## The lists of `cto_repository.go` -/

/-- A row of `cto_proposals`: where its lifecycle stands. -/
structure ProposalRow where
  chainId : ℤ
  tokenAddress : Text
  proposalID : Text
  lifecycleBlockNumber : ℤ
  lifecycleTransactionHash : Text
  lifecycleLogIndex : ℤ
  isCanonical : Bool
  deriving DecidableEq

/-- A row of `cto_treasury_transfers`, `cto_fee_pulls` or
    `cto_creator_fee_checkpoint_ledger`: its owner is a treasury in the first
    two, a token in the third. -/
structure LedgerRow where
  chainId : ℤ
  owner : Text
  blockNumber : ℤ
  transactionHash : Text
  logIndex : ℤ
  isCanonical : Bool
  deriving DecidableEq

structure CTOTables where
  proposals : List ProposalRow
  treasuryTransfers : List LedgerRow
  feePulls : List LedgerRow
  checkpointLedger : List LedgerRow

section Listings

variable {Key : Type} [LinearOrder Key] (P : Locale Key)

/-- `ORDER BY block_number DESC, transaction_hash DESC, log_index DESC`. -/
def ledgerOrder (block : ℤ) (hash : Text) (log : ℤ) :
    ℤᵒᵈ ×ₗ Keyᵒᵈ ×ₗ ℤᵒᵈ :=
  toLex (OrderDual.toDual block, toLex (OrderDual.toDual (P.collate hash),
    OrderDual.toDual log))

/-- `CTOProposals`. -/
def ctoProposals (T : CTOTables) (chain : ℤ) (layer : Layer) (token : Text) :
    Listing ProposalRow PageCursor Error
      ((ℤᵒᵈ ×ₗ Keyᵒᵈ ×ₗ ℤᵒᵈ) ×ₗ Keyᵒᵈ) where
  matching := T.proposals.filter fun r => r.chainId = chain &&
    r.isCanonical && r.tokenAddress = P.lower token
  order := fun r => toLex (ledgerOrder P r.lifecycleBlockNumber
      r.lifecycleTransactionHash r.lifecycleLogIndex,
    OrderDual.toDual (P.collate r.proposalID))
  mark := fun last => .ok
    { kind := .ctoProposals
      blockNumber := last.lifecycleBlockNumber
      transaction := last.lifecycleTransactionHash
      logIndex := last.lifecycleLogIndex
      proposalID := last.proposalID }
  accepts := presented layer .ctoProposals
  admits := fun c r => r.lifecycleBlockNumber < c.blockNumber ||
    (r.lifecycleBlockNumber = c.blockNumber &&
      (P.collate r.lifecycleTransactionHash < P.collate c.transaction ||
        (r.lifecycleTransactionHash = c.transaction &&
          (r.lifecycleLogIndex < c.logIndex ||
            (r.lifecycleLogIndex = c.logIndex &&
              P.collate r.proposalID < P.collate c.proposalID)))))

/-- The three ledgers page alike. -/
def ledgerListing (kind : Kind) (rows : List LedgerRow) (chain : ℤ)
    (layer : Layer) (owner : Text) :
    Listing LedgerRow PageCursor Error (ℤᵒᵈ ×ₗ Keyᵒᵈ ×ₗ ℤᵒᵈ) where
  matching := rows.filter fun r => r.chainId = chain &&
    r.owner = P.lower owner && r.isCanonical
  order := fun r => ledgerOrder P r.blockNumber r.transactionHash r.logIndex
  mark := fun last => .ok
    { kind := kind
      blockNumber := last.blockNumber
      transaction := last.transactionHash
      logIndex := last.logIndex }
  accepts := presented layer kind
  admits := fun c r => r.blockNumber < c.blockNumber ||
    (r.blockNumber = c.blockNumber &&
      (P.collate r.transactionHash < P.collate c.transaction ||
        (r.transactionHash = c.transaction && r.logIndex < c.logIndex)))

/-- `CTOTreasuryTransfers`. -/
def ctoTreasuryTransfers (T : CTOTables) (chain : ℤ) (layer : Layer)
    (treasury : Text) :
    Listing LedgerRow PageCursor Error (ℤᵒᵈ ×ₗ Keyᵒᵈ ×ₗ ℤᵒᵈ) :=
  ledgerListing P .ctoTransfers T.treasuryTransfers chain layer treasury

/-- `CTOTreasuryFeePulls`. -/
def ctoTreasuryFeePulls (T : CTOTables) (chain : ℤ) (layer : Layer)
    (treasury : Text) :
    Listing LedgerRow PageCursor Error (ℤᵒᵈ ×ₗ Keyᵒᵈ ×ₗ ℤᵒᵈ) :=
  ledgerListing P .ctoFeePulls T.feePulls chain layer treasury

/-- `CTOCheckpoints`. -/
def ctoCheckpoints (T : CTOTables) (chain : ℤ) (layer : Layer)
    (token : Text) :
    Listing LedgerRow PageCursor Error (ℤᵒᵈ ×ₗ Keyᵒᵈ ×ₗ ℤᵒᵈ) :=
  ledgerListing P .ctoCheckpoints T.checkpointLedger chain layer token

end Listings

/-! ## The paginated endpoints -/

/-- What a request asks for. -/
inductive Request where
  | list (q : Query)
  | ctoProposals (token : Text)
  | ctoCheckpoints (token : Text)
  | ctoTransfers (treasury : Text)
  | ctoFeePulls (treasury : Text)

/-- The kind of the cursors of a request. -/
def Request.kind : Request → Kind
  | .list .newest => .tokens
  | .list (.search _) => .search
  | .list (.discovery _) => .discovery
  | .list .trending => .trending
  | .list (.creator _) => .creator
  | .list (.holdings _) => .holdings
  | .list (.trades _) => .trades
  | .list (.activity _) => .activity
  | .ctoProposals _ => .ctoProposals
  | .ctoCheckpoints _ => .ctoCheckpoints
  | .ctoTransfers _ => .ctoTransfers
  | .ctoFeePulls _ => .ctoFeePulls

/-- A listing with the types of its rows and its order, and what a row must
    carry for its cursor to be well formed. -/
structure Endpoint where
  Row : Type
  K : Type
  [ord : LinearOrder K]
  listing : Listing Row PageCursor Error K
  Writable : Row → Prop

/-- The rows after the cursor of the request, whatever its predicate admits,
    cut to a page; the cursor of the response is text. -/
def Endpoint.serve (E : Endpoint) (limit : Nat) (admitted : E.Row → Bool) :
    Except Error (List E.Row × Option Text) :=
  letI := E.ord
  (E.listing.cut limit (E.listing.matching.filter admitted)).map
    fun page => (page.1, page.2.map fun c => encodeCursor (fields c))

/-- The row a page ends at when there is another one after it. -/
def Endpoint.endRow (E : Endpoint) (limit : Nat) (admitted : E.Row → Bool) :
    Option E.Row :=
  letI := E.ord
  (E.listing.sorted (E.listing.matching.filter admitted))[limit - 1]?

section Endpoints

variable {Key : Type} [LinearOrder Key]
variable (P : Locale Key) (db : Database) (T : CTOTables) (chain : ℤ)

/-- A row of a ledger whose cursor is well formed. -/
def LedgerRow.Writable (r : LedgerRow) : Prop :=
  0 ≤ r.blockNumber ∧ validCursorHex r.transactionHash 64 = true ∧
    0 ≤ r.logIndex

/-- A proposal whose cursor is well formed. -/
def ProposalRow.Writable (r : ProposalRow) : Prop :=
  0 ≤ r.lifecycleBlockNumber ∧
    validCursorHex r.lifecycleTransactionHash 64 = true ∧
    validCursorHex r.proposalID 64 = true ∧ 0 ≤ r.lifecycleLogIndex

/-- The listing a request is answered from.  The CTO endpoints first ask that
    the token or the treasury exists, which no cursor changes. -/
def Request.endpoint : Request → Endpoint
  | .list .newest =>
      ⟨_, _, listTokens P db chain .http, fun t => Addressable t.token⟩
  | .list (.search q) =>
      ⟨_, _, searchTokens P db chain .http q,
        fun t => Addressable t.token ∧ P.normalize q ≠ []⟩
  | .list (.discovery .top) =>
      ⟨_, _, topTokens P db chain .http, fun t => Addressable t.token ∧
        ApiQueries.validCursorInteger (some (fullyDilutedValue t)) true =
          true⟩
  | .list (.discovery .near) =>
      ⟨_, _, nearTokens P db chain .http,
        fun t => Addressable t.token ∧ Measured t⟩
  | .list (.discovery .linked) =>
      ⟨_, _, linkedTokens P db chain .http, fun t => Addressable t.token⟩
  | .list .trending =>
      ⟨_, _, trendingTokens P db chain .http, fun t => Addressable t.token⟩
  | .list (.creator a) =>
      ⟨_, _, creatorTokens P db chain .http a, fun t => Addressable t.token⟩
  | .list (.holdings a) =>
      ⟨_, _, walletHoldings P db chain .http a,
        fun h => validCursorHex h.token.tokenAddress 40 = true⟩
  | .list (.trades a) =>
      ⟨_, _, ApiQueries.trades P db chain .http a,
        fun r => Placeable r.place⟩
  | .list (.activity a) =>
      ⟨_, _, ApiQueries.activity P db chain .http a,
        fun r => Placeable r.place⟩
  | .ctoProposals a =>
      ⟨_, _, ApiCursor.ctoProposals P T chain .http a, ProposalRow.Writable⟩
  | .ctoCheckpoints a =>
      ⟨_, _, ApiCursor.ctoCheckpoints P T chain .http a, LedgerRow.Writable⟩
  | .ctoTransfers a =>
      ⟨_, _, ctoTreasuryTransfers P T chain .http a, LedgerRow.Writable⟩
  | .ctoFeePulls a =>
      ⟨_, _, ctoTreasuryFeePulls P T chain .http a, LedgerRow.Writable⟩

end Endpoints

/-! ## The text carries the fields -/

/-- What a `BIGINT` column and an `int64` hold. -/
def Bigint (n : ℤ) : Prop := -2 ^ 63 ≤ n ∧ n < 2 ^ 63

/-- The integer fields are `int64`s. -/
def CursorFields.Bigint (c : CursorFields) : Prop :=
  ApiCursor.Bigint c.blockNumber ∧ ApiCursor.Bigint c.transactionIndex ∧
  ApiCursor.Bigint c.logIndex ∧ ApiCursor.Bigint c.tradeCount ∧
  ApiCursor.Bigint c.recentTrades ∧ ApiCursor.Bigint c.recentUsers

/-- Reading the members takes one struct to another. -/
def Loads (c : CursorFields) (ms : List (Text × Scalar))
    (c' : CursorFields) : Prop :=
  (ms.map fun m => (m.1, m.2.json)).foldlM assign c = some c'

theorem Loads.append {a b c : CursorFields} {xs ys : List (Text × Scalar)}
    (hxs : Loads a xs b) (hys : Loads b ys c) : Loads a (xs ++ ys) c := by
  rw [Loads, List.map_append, List.foldlM_append, show List.foldlM assign a
    (xs.map fun m => (m.1, m.2.json)) = some b from hxs]
  exact hys

theorem loads_member {c c' : CursorFields} {key : Char} {v : Scalar}
    (hkey : foldLetter key = key)
    (hset : assignField c [key] v.json = some c') :
    Loads c [([key], v)] c' := by
  rw [Loads, List.map_cons, List.map_nil, List.foldlM_cons, assign,
    List.map_cons, List.map_nil, hkey, hset]
  rfl

theorem loads_omitText {c c' : CursorFields} {key : Char} {s : Text}
    (hkey : foldLetter key = key)
    (hset : assignField c [key] (.string s) = some c')
    (hskip : s = [] → c = c') : Loads c (omitText key s) c' := by
  unfold omitText
  split
  · exact congrArg some (hskip ‹_›)
  · exact loads_member hkey hset

theorem loads_omitInt {c c' : CursorFields} {key : Char} {n : ℤ}
    (hkey : foldLetter key = key)
    (hset : assignField c [key] (.number (decimal n)) = some c')
    (hskip : n = 0 → c = c') : Loads c (omitInt key n) c' := by
  unfold omitInt
  split
  · exact congrArg some (hskip ‹_›)
  · exact loads_member hkey hset

/-- The members are read one after the other: each sets its own field, and
    one that was left out has the empty value its field starts with. -/
theorem loads_members {c : CursorFields} (hc : c.Bigint) :
    Loads {} c.members c := by
  obtain ⟨k, b, a, t, i, l, n, v, r, u, q, p, w, h⟩ := c
  obtain ⟨hb, hi, hl, hn, hr, hu⟩ := hc
  have hset : ∀ {n old : ℤ} (f : ℤ → CursorFields), Bigint n →
      (setInt (.number (decimal n)) old).map f = some (f n) := by
    intro n old f h
    rw [setInt, parseInt64_decimal h]
    rfl
  have hstart : Loads {} [(['k'], .text k), (['b'], .int b)]
      ⟨k, b, [], [], 0, 0, 0, [], 0, 0, [], [], [], []⟩ := by
    have hk : Loads {} [(['k'], .text k)]
        ⟨k, 0, [], [], 0, 0, 0, [], 0, 0, [], [], [], []⟩ :=
      loads_member (by decide) rfl
    exact hk.append (loads_member (by decide) (hset _ hb))
  have ha : Loads ⟨k, b, [], [], 0, 0, 0, [], 0, 0, [], [], [], []⟩
      (omitText 'a' a)
      ⟨k, b, a, [], 0, 0, 0, [], 0, 0, [], [], [], []⟩ :=
    loads_omitText (by decide) rfl fun h => by rw [h]
  have ht : Loads ⟨k, b, a, [], 0, 0, 0, [], 0, 0, [], [], [], []⟩
      (omitText 't' t)
      ⟨k, b, a, t, 0, 0, 0, [], 0, 0, [], [], [], []⟩ :=
    loads_omitText (by decide) rfl fun h => by rw [h]
  have hi : Loads ⟨k, b, a, t, 0, 0, 0, [], 0, 0, [], [], [], []⟩
      (omitInt 'i' i)
      ⟨k, b, a, t, i, 0, 0, [], 0, 0, [], [], [], []⟩ :=
    loads_omitInt (by decide) (hset _ hi) fun h => by rw [h]
  have hl : Loads ⟨k, b, a, t, i, 0, 0, [], 0, 0, [], [], [], []⟩
      (omitInt 'l' l)
      ⟨k, b, a, t, i, l, 0, [], 0, 0, [], [], [], []⟩ :=
    loads_omitInt (by decide) (hset _ hl) fun h => by rw [h]
  have hn : Loads ⟨k, b, a, t, i, l, 0, [], 0, 0, [], [], [], []⟩
      (omitInt 'n' n)
      ⟨k, b, a, t, i, l, n, [], 0, 0, [], [], [], []⟩ :=
    loads_omitInt (by decide) (hset _ hn) fun h => by rw [h]
  have hv : Loads ⟨k, b, a, t, i, l, n, [], 0, 0, [], [], [], []⟩
      (omitText 'v' v)
      ⟨k, b, a, t, i, l, n, v, 0, 0, [], [], [], []⟩ :=
    loads_omitText (by decide) rfl fun h => by rw [h]
  have hr : Loads ⟨k, b, a, t, i, l, n, v, 0, 0, [], [], [], []⟩
      (omitInt 'r' r)
      ⟨k, b, a, t, i, l, n, v, r, 0, [], [], [], []⟩ :=
    loads_omitInt (by decide) (hset _ hr) fun h => by rw [h]
  have hu : Loads ⟨k, b, a, t, i, l, n, v, r, 0, [], [], [], []⟩
      (omitInt 'u' u)
      ⟨k, b, a, t, i, l, n, v, r, u, [], [], [], []⟩ :=
    loads_omitInt (by decide) (hset _ hu) fun h => by rw [h]
  have hq : Loads ⟨k, b, a, t, i, l, n, v, r, u, [], [], [], []⟩
      (omitText 'q' q)
      ⟨k, b, a, t, i, l, n, v, r, u, q, [], [], []⟩ :=
    loads_omitText (by decide) rfl fun h => by rw [h]
  have hp : Loads ⟨k, b, a, t, i, l, n, v, r, u, q, [], [], []⟩
      (omitText 'p' p)
      ⟨k, b, a, t, i, l, n, v, r, u, q, p, [], []⟩ :=
    loads_omitText (by decide) rfl fun h => by rw [h]
  have hw : Loads ⟨k, b, a, t, i, l, n, v, r, u, q, p, [], []⟩
      (omitText 'w' w)
      ⟨k, b, a, t, i, l, n, v, r, u, q, p, w, []⟩ :=
    loads_omitText (by decide) rfl fun h => by rw [h]
  have hh : Loads ⟨k, b, a, t, i, l, n, v, r, u, q, p, w, []⟩
      (omitText 'h' h)
      ⟨k, b, a, t, i, l, n, v, r, u, q, p, w, h⟩ :=
    loads_omitText (by decide) rfl fun h => by rw [h]
  exact (((((((((((hstart.append ha).append ht).append hi).append
    hl).append hn).append hv).append hr).append hu).append hq).append
    hp).append hw).append hh

theorem members_ne_nil (c : CursorFields) : c.members ≠ [] := by
  simp [CursorFields.members]

/-- **THE ROUND TRIP**: a cursor of `int64`s is read as it was written. -/
theorem readCursor_encodeCursor {c : CursorFields} (h : c.Bigint) :
    readCursor (encodeCursor c) = some c := by
  rw [readCursor, encodeCursor, decode_encode, Option.bind_eq_bind,
    Option.bind_some, unmarshal, runes_utf8,
    parse_printObject (members_ne_nil c)]
  exact loads_members h

theorem encodeCursor_ne_nil (c : CursorFields) : encodeCursor c ≠ [] :=
  encode_ne_nil (utf8_ne_nil (List.cons_ne_nil _ _))

/-! ## The checks see the fields -/

theorem kindName_inj {a b : Kind} : kindName a = kindName b ↔ a = b := by
  constructor
  · intro h
    cases a <;> cases b <;> first | rfl | exact absurd h (by decide)
  · rintro rfl
    rfl

theorem viewText_eq {v : Option View} {w : View} :
    (v.map viewName).getD [] = viewName w ↔ v = some w := by
  cases v with
  | none => cases w <;> simp [viewName]
  | some v => cases v <;> cases w <;> simp [viewName]

theorem numericText_eq_nil {v : Option Numeric} :
    numericText v = [] ↔ v = none := by
  rcases v with _ | _ | n
  · simp [numericText]
  · simp [numericText]
  · obtain ⟨c, rest, heq, -⟩ := decimal_head n
    simp [numericText, heq]

/-- The digits of a numeric say what the numeric says. -/
theorem validCursorInteger_numericText (v : Option Numeric)
    (allowZero : Bool) :
    validCursorInteger (numericText v) allowZero =
      ApiQueries.validCursorInteger v allowZero := by
  rcases v with _ | _ | n | n
  · rfl
  · rfl
  · have hdigits : (Nat.toDigits 10 n).all Char.isDigit = true :=
      List.all_eq_true.mpr fun _ hc => toDigits_isDigit hc
    have hzero : ((Nat.toDigits 10 n).all fun d => d = '0') = true ↔
        n = 0 := by
      constructor
      · intro h
        rcases toDigits_cases n with heq | ⟨c, rest, heq, hne⟩
        · have hvalue := @Nat.ofDigitChars_ten_toDigits n
          rw [heq] at hvalue
          exact hvalue.symm
        · rw [heq] at h
          simp [hne] at h
      · rintro rfl
        rfl
    have hnat : ((Int.ofNat n : ℤ) = 0) ↔ n = 0 := Int.ofNat_eq_zero
    show (Nat.toDigits 10 n ≠ [] && (Nat.toDigits 10 n).all Char.isDigit &&
        (allowZero || !(Nat.toDigits 10 n).all fun d => d = '0')) =
      (decide ((0 : ℤ) ≤ Int.ofNat n) &&
        (allowZero || decide (Int.ofNat n ≠ 0)))
    rw [hdigits, Bool.eq_iff_iff]
    simp only [Nat.toDigits_ne_nil, ne_eq, not_false_eq_true, decide_true,
      Bool.and_true, Bool.true_and, Bool.or_eq_true, Bool.not_eq_true',
      Bool.and_eq_true, decide_eq_true_eq, hnat, ← hzero, Bool.not_eq_true]
    exact (and_iff_right (Int.natCast_nonneg n)).symm
  · rfl

/-- **THE TEXT IS CHECKED AS THE FIELDS ARE**: decoding what was written gives
    the fields back just when the checks pass on them. -/
theorem decodeCursor_fields {c : PageCursor} (h : (fields c).Bigint)
    (kind : Kind) :
    decodeCursor (encodeCursor (fields c)) (kindName kind) =
        .ok (fields c) ↔
      ApiQueries.decodeCursor c kind = .ok () := by
  rw [decodeCursor, if_neg (encodeCursor_ne_nil _),
    readCursor_encodeCursor h]
  -- the guards as propositions first, the fields of the struct after
  simp only [ApiQueries.decodeCursor, check_ok, refuse_ok,
    Bool.or_eq_false_iff, Bool.and_eq_false_iff, decide_eq_false_iff_not,
    Bool.not_eq_false', ne_eq, not_not]
  simp only [fields, viewText_eq, numericText_eq_nil,
    validCursorInteger_numericText, kindName_inj]
  rcases c.view with _ | _ | _ | _ <;> simp

/-- `validOpaqueCursor` of a written cursor: the switch names its kind, and the
    checks pass. -/
theorem validOpaqueCursor_fields {c : PageCursor} (h : (fields c).Bigint) :
    validOpaqueCursor (encodeCursor (fields c)) = true ↔
      Named c.kind ∧ ApiQueries.decodeCursor c c.kind = .ok () := by
  have hok : (decodeCursor (encodeCursor (fields c))
      (kindName c.kind)).isOk = true ↔
        ApiQueries.decodeCursor c c.kind = .ok () := by
    rw [← decodeCursor_fields h]
    rcases hd : decodeCursor (encodeCursor (fields c)) (kindName c.kind)
      with e | f
    · simp [Except.isOk, Except.toBool]
    · have hf : f = fields c := by
        rw [decodeCursor, if_neg (encodeCursor_ne_nil _),
          readCursor_encodeCursor h] at hd
        simp only [check_ok] at hd
        obtain ⟨-, -, -, -, -, -, -, -, -, hd⟩ := hd
        exact (Except.ok.inj hd).symm
      simp [Except.isOk, Except.toBool, hf]
  have hswitch : switched.any (fun kind =>
      (fields c).kind = kindName kind) = true ↔ Named c.kind := by
    show switched.any (fun kind => kindName c.kind = kindName kind) = true ↔ _
    simp only [kindName_inj, Named]
    cases c.kind <;> simp [switched]
  rw [validOpaqueCursor, readCursor_encodeCursor h]
  simp only [Bool.and_eq_true, decide_eq_true_eq, hswitch]
  show (_ ∧ _) ∧ (decodeCursor _ (kindName c.kind)).isOk = true ↔ _
  rw [hok]
  constructor
  · rintro ⟨⟨-, hnamed⟩, hd⟩
    exact ⟨hnamed, hd⟩
  · rintro ⟨hnamed, hd⟩
    exact ⟨⟨(decodeCursor_ok.mp hd).2.1, hnamed⟩, hd⟩

/-- What `pagination` says of a cursor that is there. -/
theorem pagination_ok {limitText raw : Text} {limit : Nat}
    (hlimit : pagination limitText [] = .ok (limit, []))
    (hraw : raw ≠ []) :
    pagination limitText raw = .ok (limit, raw) ↔
      validOpaqueCursor raw = true := by
  unfold pagination at hlimit ⊢
  rw [bind_ok] at hlimit ⊢
  obtain ⟨n, hn, hnil⟩ := hlimit
  have hsame : n = limit := by
    simp at hnil
    exact hnil
  subst hsame
  constructor
  · rintro ⟨m, -, hcursor⟩
    by_contra hinvalid
    rw [Bool.not_eq_true] at hinvalid
    simp [hraw, hinvalid] at hcursor
  · intro hvalid
    exact ⟨n, hn, by simp [hvalid]⟩

/-! ## Every endpoint -/

section Endpoints

variable {Key : Type} [LinearOrder Key]
variable (P : Locale Key) (db : Database) (T : CTOTables) (chain : ℤ)

/-- The integer columns are `BIGINT`s. -/
structure BigintColumns (db : Database) (T : CTOTables) : Prop where
  tokens : ∀ t ∈ db.tokens, Bigint t.blockNumber
  tokenMetrics : ∀ m ∈ db.tokenMetrics,
    Bigint m.recentTradeCount ∧ Bigint m.recentTraderCount
  trades : ∀ r ∈ db.trades, Bigint r.blockNumber ∧
    Bigint r.transactionIndex ∧ Bigint r.logIndex
  chainEvents : ∀ r ∈ db.chainEvents, Bigint r.blockNumber ∧
    Bigint r.transactionIndex ∧ Bigint r.logIndex
  proposals : ∀ r ∈ T.proposals,
    Bigint r.lifecycleBlockNumber ∧ Bigint r.lifecycleLogIndex
  ledgers : ∀ r, r ∈ T.treasuryTransfers ∨ r ∈ T.feePulls ∨
    r ∈ T.checkpointLedger → Bigint r.blockNumber ∧ Bigint r.logIndex

theorem bigint_zero : Bigint 0 := by
  constructor <;> decide

theorem mem_canonicalTokens {t : TokenRow}
    (h : t ∈ canonicalTokens P db chain) : t ∈ db.tokens := by
  have hsorted := mem_of_mem_distinctOn h
  exact (List.mem_filter.mp
    ((List.perm_insertionSort _ _).mem_iff.mp hsorted)).1

theorem mem_tokenSelect {t : TokenView} (h : t ∈ tokenSelect P db chain) :
    t.token ∈ db.tokens := by
  obtain ⟨row, hrow, rfl⟩ := List.mem_map.mp h
  exact mem_canonicalTokens P db chain hrow

omit [LinearOrder Key] in
theorem mem_metricsOf {address : Text} {m : MetricsRow}
    (h : metricsOf P db chain address = some m) : m ∈ db.tokenMetrics :=
  (List.mem_filter.mp ((List.perm_insertionSort _ _).mem_iff.mp
    (List.mem_of_head? h))).1

/-- The cursor of a trending row is made from metrics that are there. -/
theorem mark_trending {row : TokenView} {c : PageCursor}
    (h : (trendingTokens P db chain .http).mark row = .ok c) :
    ∃ m, metricsOf P db chain row.token.tokenAddress = some m ∧
      c = { launchCursor .trending row with
        volume := some m.recentVolume
        recentTrades := m.recentTradeCount
        recentUsers := m.recentTraderCount } := by
  cases hm : metricsOf P db chain row.token.tokenAddress with
  | none =>
      simp only [trendingTokens, hm] at h
      cases h
  | some m =>
      simp only [trendingTokens, hm, Except.ok.injEq] at h
      exact ⟨m, rfl, h.symm⟩

/-- Every cursor an endpoint makes from a row holds `int64`s. -/
theorem mark_bigint (hcols : BigintColumns db T) (r : Request)
    {row : (r.endpoint P db T chain).Row} {c : PageCursor}
    (hrow : row ∈ (r.endpoint P db T chain).listing.matching)
    (hmark : (r.endpoint P db T chain).listing.mark row = .ok c) :
    (fields c).Bigint := by
  have hlaunch : ∀ t : TokenView, t ∈ tokenSelect P db chain →
      Bigint t.token.blockNumber :=
    fun t ht => hcols.tokens _ (mem_tokenSelect P db chain ht)
  have hz := bigint_zero
  cases r with
  | list q =>
      cases q with
      | newest =>
          cases hmark
          exact ⟨hlaunch _ hrow, hz, hz, hz, hz, hz⟩
      | search q =>
          cases hmark
          exact ⟨hlaunch _ (List.mem_filter.mp hrow).1, hz, hz, hz, hz, hz⟩
      | creator a =>
          cases hmark
          exact ⟨hlaunch _ (List.mem_filter.mp hrow).1, hz, hz, hz, hz, hz⟩
      | discovery view =>
          cases view with
          | top =>
              cases hmark
              exact ⟨hlaunch _ hrow, hz, hz, hz, hz, hz⟩
          | near =>
              cases hmark
              exact ⟨hlaunch _ (List.mem_filter.mp hrow).1, hz, hz, hz, hz,
                hz⟩
          | linked =>
              cases hmark
              exact ⟨hlaunch _ (List.mem_filter.mp hrow).1, hz, hz, hz, hz,
                hz⟩
      | trending =>
          obtain ⟨m, hm, rfl⟩ := mark_trending P db chain hmark
          obtain ⟨htrades, htraders⟩ :=
            hcols.tokenMetrics m (mem_metricsOf P db chain hm)
          exact ⟨hlaunch _ hrow, hz, hz, hz, htrades, htraders⟩
      | holdings a =>
          cases hmark
          exact ⟨hz, hz, hz, hz, hz, hz⟩
      | trades a =>
          cases hmark
          obtain ⟨hb, hi, hl⟩ := hcols.trades _ (List.mem_filter.mp hrow).1
          exact ⟨hb, hi, hl, hz, hz, hz⟩
      | activity a =>
          cases hmark
          obtain ⟨hb, hi, hl⟩ :=
            hcols.chainEvents _ (List.mem_filter.mp hrow).1
          exact ⟨hb, hi, hl, hz, hz, hz⟩
  | ctoProposals a =>
      cases hmark
      obtain ⟨hb, hl⟩ := hcols.proposals _ (List.mem_filter.mp hrow).1
      exact ⟨hb, hz, hl, hz, hz, hz⟩
  | ctoCheckpoints a =>
      cases hmark
      obtain ⟨hb, hl⟩ := hcols.ledgers _
        (Or.inr (Or.inr (List.mem_filter.mp hrow).1))
      exact ⟨hb, hz, hl, hz, hz, hz⟩
  | ctoTransfers a =>
      cases hmark
      obtain ⟨hb, hl⟩ := hcols.ledgers _
        (Or.inl (List.mem_filter.mp hrow).1)
      exact ⟨hb, hz, hl, hz, hz, hz⟩
  | ctoFeePulls a =>
      cases hmark
      obtain ⟨hb, hl⟩ := hcols.ledgers _
        (Or.inr (Or.inl (List.mem_filter.mp hrow).1))
      exact ⟨hb, hz, hl, hz, hz, hz⟩

/-- The checks of the repository pass on a cursor just when its row carries
    well-formed columns. -/
theorem mark_decodes (r : Request)
    {row : (r.endpoint P db T chain).Row} {c : PageCursor}
    (hmark : (r.endpoint P db T chain).listing.mark row = .ok c) :
    c.kind = r.kind ∧ (ApiQueries.decodeCursor c r.kind = .ok () ↔
      (r.endpoint P db T chain).Writable row) := by
  cases r with
  | list q =>
      cases q with
      | discovery view =>
          cases view <;> cases hmark <;> refine ⟨rfl, ?_⟩ <;>
            rw [decodeCursor_ok] <;>
            simp [Request.endpoint, Request.kind, launchCursor, Addressable,
              Measured, and_comm, and_assoc]
      | trending =>
          obtain ⟨m, -, rfl⟩ := mark_trending P db chain hmark
          refine ⟨rfl, ?_⟩
          rw [decodeCursor_ok]
          simp [Request.endpoint, Request.kind, launchCursor, Addressable,
            and_comm]
      | _ =>
          cases hmark
          refine ⟨rfl, ?_⟩
          rw [decodeCursor_ok]
          simp [Request.endpoint, Request.kind, launchCursor, Addressable,
            Placeable, and_comm, and_left_comm, and_assoc]
  | ctoProposals a =>
      cases hmark
      refine ⟨rfl, ?_⟩
      rw [decodeCursor_ok]
      simp [Request.endpoint, Request.kind, ProposalRow.Writable]
  | _ =>
      cases hmark
      refine ⟨rfl, ?_⟩
      rw [decodeCursor_ok]
      simp [Request.endpoint, Request.kind, LedgerRow.Writable]

/-- **WHEN A CURSOR IS ACCEPTED BACK**: for every request, every state of the
    database and every page, the handler and the repository accept the cursor
    of the response, as that of its last row, just when the switch of the
    handler names its kind and the row where the page ends carries well-formed
    columns. -/
theorem cursor_accepted_iff (hcols : BigintColumns db T) (r : Request)
    {limitText raw : Text} {limit : Nat}
    {admitted : (r.endpoint P db T chain).Row → Bool}
    {items : List (r.endpoint P db T chain).Row}
    (hlimit : pagination limitText [] = .ok (limit, []))
    (hserve : (r.endpoint P db T chain).serve limit admitted =
      .ok (items, some raw)) :
    (pagination limitText raw = .ok (limit, raw) ∧
      ∃ last c, items.getLast? = some last ∧
        (r.endpoint P db T chain).listing.mark last = .ok c ∧
        decodeCursor raw (kindName r.kind) = .ok (fields c)) ↔
    Named r.kind ∧
      ∀ last, (r.endpoint P db T chain).endRow limit admitted = some last →
        (r.endpoint P db T chain).Writable last := by
  let _ := (r.endpoint P db T chain).ord
  unfold Endpoint.serve at hserve
  obtain ⟨⟨items', next⟩, hcut, heq⟩ : ∃ page,
      (r.endpoint P db T chain).listing.cut limit
        ((r.endpoint P db T chain).listing.matching.filter admitted) =
          .ok page ∧ (page.1, page.2.map fun c => encodeCursor (fields c)) =
            (items, some raw) := by
    cases hcut : (r.endpoint P db T chain).listing.cut limit
        ((r.endpoint P db T chain).listing.matching.filter admitted) with
    | error e =>
        rw [hcut] at hserve
        cases hserve
    | ok page =>
        rw [hcut] at hserve
        exact ⟨page, rfl, Except.ok.inj hserve⟩
  obtain ⟨rfl, hnext⟩ := Prod.mk.injEq .. ▸ heq
  obtain ⟨c, rfl, rfl⟩ := Option.map_eq_some_iff.mp hnext
  obtain ⟨last, hlast, hmark, hend, hmem⟩ := Listing.cut_cursor hcut
  have hbig := mark_bigint P db T chain hcols r
    (List.mem_filter.mp hmem).1 hmark
  obtain ⟨hkind, hdecodes⟩ := mark_decodes P db T chain r hmark
  have hendRow : (r.endpoint P db T chain).endRow limit admitted =
      some last := hend
  rw [pagination_ok hlimit (encodeCursor_ne_nil _),
    validOpaqueCursor_fields hbig, hkind, hdecodes, hendRow]
  constructor
  · rintro ⟨⟨hnamed, hwritable⟩, -⟩
    refine ⟨hnamed, ?_⟩
    rintro _ ⟨⟩
    exact hwritable
  · rintro ⟨hnamed, hwritable⟩
    refine ⟨⟨hnamed, hwritable last rfl⟩, last, c, hlast, hmark, ?_⟩
    rw [decodeCursor_fields hbig, hdecodes]
    exact hwritable last rfl

end Endpoints

/-! ## Two tokens are enough -/

/-- No CTO was ever proposed. -/
def noCTO : CTOTables where
  proposals := []
  treasuryTransfers := []
  feePulls := []
  checkpointLedger := []

theorem migrated_bigint : BigintColumns migrated noCTO where
  tokens := by
    intro t ht
    simp only [migrated, List.mem_cons, List.not_mem_nil, or_false] at ht
    rcases ht with rfl | rfl <;> exact ⟨by decide, by decide⟩
  tokenMetrics := fun _ h => nomatch h
  trades := by
    intro r hr
    simp only [migrated, List.mem_cons, List.not_mem_nil, or_false] at hr
    rcases hr with rfl | rfl <;>
      exact ⟨⟨by decide, by decide⟩, ⟨by decide, by decide⟩,
        ⟨by decide, by decide⟩⟩
  chainEvents := fun _ h => nomatch h
  proposals := fun _ h => nomatch h
  ledgers := fun _ h => h.elim (nomatch ·) (·.elim (nomatch ·) (nomatch ·))

/-- The cursor after the first token in launch order. -/
def afterNewest : PageCursor where
  kind := .tokens
  blockNumber := 5
  tokenAddress := hexText 'c' 40

/-- The first of the two tokens. -/
def firstToken : TokenView where
  token := launchedToken 'c' 0
  curve := none
  metrics := none

set_option maxRecDepth 4000 in
theorem newest_page :
    (listTokens codePoints migrated 1 .http).cut 1
      ((listTokens codePoints migrated 1 .http).matching.filter
        fun _ => true) = .ok ([firstToken], some afterNewest) := rfl

set_option maxRecDepth 4000 in
theorem top_page :
    (topTokens codePoints migrated 1 .http).cut 1
      ((topTokens codePoints migrated 1 .http).matching.filter
        fun _ => true) = .ok ([firstToken], some afterFirst) := rfl

theorem newest_served :
    ((Request.list .newest).endpoint codePoints migrated noCTO 1).serve 1
      (fun _ => true) =
        .ok ([firstToken], some (encodeCursor (fields afterNewest))) := by
  show Except.map _ ((listTokens codePoints migrated 1 .http).cut 1
    ((listTokens codePoints migrated 1 .http).matching.filter
      fun _ => true)) = _
  rw [newest_page]
  rfl

theorem top_served :
    ((Request.list (.discovery .top)).endpoint codePoints migrated
      noCTO 1).serve 1 (fun _ => true) =
        .ok ([firstToken], some (encodeCursor (fields afterFirst))) := by
  show Except.map _ ((topTokens codePoints migrated 1 .http).cut 1
    ((topTokens codePoints migrated 1 .http).matching.filter
      fun _ => true)) = _
  rw [top_page]
  rfl

/-- The newest of the two tokens comes with a cursor that is accepted. -/
theorem cursor_accepted_iff_newest :
    pagination ['1'] (encodeCursor (fields afterNewest)) =
        .ok (1, encodeCursor (fields afterNewest)) ∧
      ∃ last c, [firstToken].getLast? = some last ∧
        (listTokens codePoints migrated 1 .http).mark last = .ok c ∧
        decodeCursor (encodeCursor (fields afterNewest))
          (kindName .tokens) = .ok (fields c) := by
  refine (cursor_accepted_iff codePoints migrated noCTO 1 migrated_bigint
    (.list .newest) (by decide +kernel) newest_served).mpr
    ⟨⟨by decide, by decide⟩, ?_⟩
  obtain ⟨last, hlast, -, hend, -⟩ := Listing.cut_cursor newest_page
  cases hlast
  intro last h
  obtain rfl : firstToken = last :=
    Option.some.inj (hend.symm.trans h)
  exact ⟨by decide +kernel, by decide⟩

/-- The view `top` hands out a cursor with the first of two tokens, and the
    handler refuses it. -/
theorem top_cursor_refused :
    ∃ raw, ((Request.list (.discovery .top)).endpoint codePoints migrated
        noCTO 1).serve 1 (fun _ => true) = .ok ([firstToken], some raw) ∧
      pagination ['1'] raw = .error "cursor is invalid" := by
  refine ⟨encodeCursor (fields afterFirst), top_served, ?_⟩
  have hbig : (fields afterFirst).Bigint :=
    ⟨⟨by decide, by decide⟩, bigint_zero, bigint_zero, bigint_zero,
      bigint_zero, bigint_zero⟩
  have hrefused :
      validOpaqueCursor (encodeCursor (fields afterFirst)) = false := by
    rw [← Bool.not_eq_true, validOpaqueCursor_fields hbig]
    rintro ⟨⟨hdiscovery, -⟩, -⟩
    exact hdiscovery rfl
  have hlimit : pageLimit ['1'] = .ok 1 := by decide +kernel
  rw [pagination, hlimit, hrefused]
  simp [encodeCursor_ne_nil, bind, Except.bind]

end ApiCursor
