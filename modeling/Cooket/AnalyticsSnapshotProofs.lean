import Cooket.AnalyticsExportProofs
import Cooket.CheckedArithProofs

/-! # Whether an analytics export is one snapshot

    While the exporter reads, the indexer goes on.  `all_tokens` lists the
    tokens in pages, which carry no checkpoint; then the details and trades of
    every token are read, four tokens at a time, each answer with the
    checkpoint it was read at.  The export is cut at the least of those.

    TRADES ARE CUT RIGHTLY: every answer is past the cutoff, and the metrics
    of a token tell how many of its trades there must be (`kept_trades`).  Two
    things are not.  A token launched after the first page of the list, but
    not after the cutoff, is missing from every table; and how far a token
    was is read off its detail as it stood, which may be past the cutoff.
    `export_law` says that nothing else goes wrong: an export that succeeds
    shows the canonical state of its cutoff just when neither happened. -/

namespace AnalyticsSnapshot

open Ascending AnalyticsExport CheckedArith Keyset

/-! ## The canonical state -/

/-- What the chain holds, block by block: launches and trades by the block
    they are in, the curve and the graduation of a token as of each block. -/
structure History where
  tokens : List Token
  trades : List Trade
  curve : Nat → Nat → Option Curve
  phase : Nat → Nat → Option String
  tokens_key : (tokens.map Token.address).Nodup
  trades_key : (trades.map Trade.key).Nodup
  launched : ∀ t ∈ trades, ∃ k ∈ tokens, k.address = t.tokenAddress ∧
    k.blockNumber ≤ t.blockNumber

namespace History

variable (H : History)

def tokensAt (n : Nat) : List Token :=
  H.tokens.filter (·.blockNumber ≤ n)

def tradesAt (n : Nat) : List Trade :=
  H.trades.filter (·.blockNumber ≤ n)

/-- The trades of one token. -/
def tradesOf (n address : Nat) : List Trade :=
  (H.tradesAt n).filter (·.tokenAddress = address)

/-- The detail of a token, read through block `n`. -/
def detailAt (n : Nat) (k : Token) : Detail where
  token := k
  curve := H.curve k.address n
  phase := H.phase k.address n
  metrics := metricsOf (H.tradesOf n k.address)
  indexedThroughBlock := n

/-- The line of a token as of block `n`. -/
def lineAt (n : Nat) (k : Token) : Line := lineOf (H.detailAt n k)

/-- **THE TABLES AS OF A BLOCK**, from all there is up to it. -/
def tablesAt (n : Nat) (indexedAt generatedAt : String) (since : Since) :
    Tables :=
  tablesOf ((H.tokensAt n).map (H.lineAt n)) (H.tradesAt n)
    ⟨n, indexedAt, generatedAt⟩ since

/-- The list of tokens as the API serves it through block `n`: the newest
    first, continued by block and address. -/
def tokenListing (n : Nat) :
    Listing Token (Nat × Nat) Empty (Natᵒᵈ ×ₗ Nat) where
  matching := H.tokensAt n
  order := fun k => toLex (OrderDual.toDual k.blockNumber, k.address)
  mark := fun k => .ok (k.blockNumber, k.address)
  accepts := fun _ => .ok ()
  admits := fun c k => k.blockNumber < c.1 ||
    (k.blockNumber = c.1 && c.2 < k.address)

end History

/-! ## The exporter -/

/-- A page of trades. -/
structure TradePage where
  indexedThroughBlock : Nat
  items : List Trade

/-- What the API answered for one token. -/
structure Answer where
  detail : Detail
  pages : List TradePage

namespace Answer

def trades (a : Answer) : List Trade := a.pages.flatMap TradePage.items

def checkpoints (a : Answer) : List Nat :=
  a.detail.indexedThroughBlock :: a.pages.map TradePage.indexedThroughBlock

end Answer

/-- `positive_checkpoint`. -/
def positiveCheckpoint (value : Nat) : Except String Nat :=
  if value = 0 then .error "returned a non-positive indexer checkpoint"
  else .ok value

/-- `token_bundle`. -/
def tokenBundle (a : Answer) :
    Except String (Detail × List Trade × List Nat) := do
  let detailCheckpoint ← positiveCheckpoint a.detail.indexedThroughBlock
  let checkpoints ← a.pages.mapM
    fun page => positiveCheckpoint page.indexedThroughBlock
  validateTokenMetrics a.detail a.trades detailCheckpoint
  return (a.detail, a.trades, detailCheckpoint :: checkpoints)

/-- `fetch_source`, on the answers in the order they were completed. -/
def fetchSource (listed : List Token) (answers : List Answer) :
    Except String (List Detail × List Trade × List Nat) :=
  if listed = [] then .error "Cooket API returned no valid token addresses"
  else do
    let bundles ← answers.mapM tokenBundle
    return (orderBy (fun d : Detail =>
        (toLex (d.token.blockNumber, d.token.address) : Nat ×ₗ Nat))
          (bundles.map Prod.fst),
      bundles.flatMap (fun b => b.2.1), bundles.flatMap (fun b => b.2.2))

/-- `main`, up to writing the tables: the cutoff, and what was built. -/
def exportTables (indexedAt : Nat → String) (generatedAt : String)
    (since : Since) (listed : List Token) (answers : List Answer) :
    Except String (Nat × Tables) := do
  let source ← fetchSource listed answers
  let cutoff := source.2.2.min?.getD 0
  let tables ← buildExport source.1 source.2.1
    ⟨cutoff, indexedAt cutoff, generatedAt⟩ since
  return (cutoff, tables)

/-- One run of the exporter against an API that goes on indexing.  The list
    is read first, each page at its own block; then the answers of the tokens
    come in any order, each page of trades after the detail.  Which canonical
    rows a page of trades has, and how many pages there are, is left open:
    the reconciliation with the metrics has to find out. -/
structure Session (H : History) where
  listing : List Nat
  listed : List Token
  listing_run : Listing.Growing H.tokenListing 100 none listing listed
  listing_ascends : listing.Pairwise (· ≤ ·)
  answers : List Answer
  answered : (answers.map fun a => a.detail.token).Perm listed
  true_detail : ∀ a ∈ answers,
    a.detail = H.detailAt a.detail.indexedThroughBlock a.detail.token
  after_list : ∀ a ∈ answers, ∀ n ∈ listing,
    n ≤ a.detail.indexedThroughBlock
  true_pages : ∀ a ∈ answers, ∀ page ∈ a.pages,
    a.detail.indexedThroughBlock ≤ page.indexedThroughBlock ∧
    ∀ t ∈ page.items,
      t ∈ H.tradesOf page.indexedThroughBlock a.detail.token.address

section Law

variable {H : History}

/-- The details that are in an export. -/
def Session.kept (S : Session H) (cutoff : Nat) : List Detail :=
  (S.answers.map Answer.detail).filter (·.token.blockNumber ≤ cutoff)

/-- The condition of a session: every token of the cutoff was there when the
    list was begun; and of those, as many have graduated, and each that has a
    row is shown, as at the cutoff. -/
structure Settled (S : Session H) (cutoff : Nat) (since : Since) : Prop where
  listed : ∀ k ∈ H.tokens, k.blockNumber ≤ cutoff →
    ∀ first ∈ S.listing.head?, k.blockNumber ≤ first
  graduated :
    ((S.kept cutoff).filter
      fun d => graduationStatus d = "graduated").length =
    ((S.kept cutoff).filter fun d =>
      graduationStatus (H.detailAt cutoff d.token) = "graduated").length
  shown : ∀ d ∈ S.kept cutoff,
    shows since (H.tokensAt cutoff) (H.tradesAt cutoff) d.token = true →
      lineOf d = H.lineAt cutoff d.token

/-! ## The list -/

/-- **THE LIST** has the tokens there were when its first page was read. -/
theorem listed_perm (S : Session H) :
    ∃ first ∈ S.listing.head?, S.listed.Perm (H.tokensAt first) := by
  obtain ⟨first, later, hlisting⟩ := S.listing_run.head
  have hrun := S.listing_run
  have hascends := S.listing_ascends
  rw [hlisting] at hrun hascends ⊢
  refine ⟨first, rfl, ?_⟩
  have hadmits : ∀ n, ∀ a ∈ H.tokensAt n, ∀ c,
      (H.tokenListing n).mark a = .ok c →
      (H.tokenListing n).accepts c = .ok () → ∀ b ∈ H.tokensAt n,
        ((H.tokenListing n).admits c b = true ↔
          (H.tokenListing n).order a < (H.tokenListing n).order b) := by
    rintro n a - c ⟨⟩ - b -
    simp only [History.tokenListing, Bool.or_eq_true, Bool.and_eq_true,
      decide_eq_true_eq, Prod.Lex.toLex_lt_toLex, OrderDual.toDual_lt_toDual,
      EmbeddingLike.apply_eq_iff_eq]
    refine or_congr_right (and_congr_left' ?_)
    exact eq_comm
  have hpages := @Listing.pages_of_growing _ _ _ _ _ _ 100 first ?_ none _ _
    hrun ?_ ?_
  · have hne : (H.tokenListing first).matching.Pairwise (fun a b =>
        (H.tokenListing first).order a ≠ (H.tokenListing first).order b) := by
      refine ((List.pairwise_map.mp H.tokens_key).filter _).imp ?_
      intro a b hab heq
      exact hab (congrArg (fun k => (ofLex k).2) heq)
    rw [Listing.pages_first (by omega) hne (hadmits first) hpages]
    exact Listing.sorted_perm _
  · -- the cursor of a row of the first page admits no row that came later
    rintro n hn a ha c ⟨⟩
    show (H.tokenListing n).cut 100 _ = (H.tokenListing first).cut 100 _
    have hrows : (H.tokenListing n).matching.filter
        ((H.tokenListing n).admits (a.blockNumber, a.address)) =
        (H.tokenListing first).matching.filter
          ((H.tokenListing first).admits (a.blockNumber, a.address)) := by
      have hblock : a.blockNumber ≤ first := by
        simpa using (List.mem_filter.mp ha).2
      show ((H.tokens.filter _).filter _) = ((H.tokens.filter _).filter _)
      rw [List.filter_filter, List.filter_filter]
      refine List.filter_congr ?_
      intro b _
      rw [Bool.eq_iff_iff]
      simp only [History.tokenListing, Bool.and_eq_true, Bool.or_eq_true,
        decide_eq_true_eq]
      omega
    rw [hrows]
    rfl
  · intro n hn
    rcases List.mem_cons.mp hn with rfl | hn
    · exact le_rfl
    · exact (List.pairwise_cons.mp hascends).1 n hn
  · rintro n ⟨⟩
    rfl

/-! ## The trades -/

theorem nodup_of_dedup_length {α : Type} [DecidableEq α] {xs : List α}
    (h : xs.dedup.length = xs.length) : xs.Nodup :=
  List.dedup_eq_self.mp ((List.dedup_sublist xs).eq_of_length h)

/-- Rows that pass the reconciliation are distinct and have the metrics of
    the token. -/
theorem validateTokenMetrics_ok {d : Detail} {trades : List Trade} {n : Nat}
    (h : validateTokenMetrics d trades n = .ok ()) :
    ((trades.filter (·.blockNumber ≤ n)).map Trade.key).Nodup ∧
      metricsOf (trades.filter (·.blockNumber ≤ n)) = d.metrics := by
  unfold validateTokenMetrics at h
  dsimp only at h
  generalize trades.filter (fun t => decide (t.blockNumber ≤ n)) = rows at h ⊢
  split at h
  case isTrue => cases h
  case isFalse hdistinct =>
      split at h
      case isTrue => cases h
      case isFalse hagree =>
          refine ⟨nodup_of_dedup_length ?_, ?_⟩
          · rw [not_not.mp hdistinct, List.length_map]
          · have hall : metricsOf rows = d.metrics := by
              simp at hagree
              obtain ⟨htrades, hbuys, hsells, htraders, hvolume⟩ := hagree
              cases hm : metricsOf rows
              cases hd : d.metrics
              simp_all
            exact hall

/-- **THE TRADES OF A TOKEN**: canonical rows that pass the reconciliation are
    all the trades of the token up to the checkpoint of its detail. -/
theorem token_trades (S : Session H) {a : Answer} (ha : a ∈ S.answers)
    (h : validateTokenMetrics a.detail a.trades
      a.detail.indexedThroughBlock = .ok ()) :
    ∀ t, (t ∈ a.trades ∧ t.blockNumber ≤ a.detail.indexedThroughBlock) ↔
      t ∈ H.tradesOf a.detail.indexedThroughBlock
        a.detail.token.address := by
  obtain ⟨hkeys, hmetrics⟩ := validateTokenMetrics_ok h
  have hsound : ∀ t ∈ a.trades,
      t.blockNumber ≤ a.detail.indexedThroughBlock →
      t ∈ H.tradesOf a.detail.indexedThroughBlock
        a.detail.token.address := by
    intro t ht hblock
    obtain ⟨page, hpage, hitem⟩ := List.mem_flatMap.mp ht
    have hrow := (S.true_pages a ha page hpage).2 t hitem
    obtain ⟨hrow, haddress⟩ := List.mem_filter.mp hrow
    exact List.mem_filter.mpr ⟨List.mem_filter.mpr
      ⟨List.mem_of_mem_filter hrow, decide_eq_true hblock⟩, haddress⟩
  have hsub : (a.trades.filter
      (·.blockNumber ≤ a.detail.indexedThroughBlock)) ⊆
        H.tradesOf a.detail.indexedThroughBlock a.detail.token.address := by
    intro t ht
    obtain ⟨ht, hblock⟩ := List.mem_filter.mp ht
    exact hsound t ht (of_decide_eq_true hblock)
  have hcount := congrArg Metrics.tradeCount hmetrics
  rw [S.true_detail a ha] at hcount
  have hperm := (List.subperm_of_subset hkeys.of_map hsub).perm_of_length_le
    (le_of_eq hcount.symm)
  intro t
  rw [← hperm.mem_iff, List.mem_filter, decide_eq_true_eq]

/-- One trade more: it is in, unless it is past the cutoff. -/
theorem keep_ok {cutoff : Nat} {deduped deduped' : List Trade} {t : Trade}
    (h : keep cutoff deduped t = .ok deduped')
    (hkeys : (deduped.map Trade.key).Nodup) :
    (deduped'.map Trade.key).Nodup ∧
    ∀ x, x ∈ deduped' ↔ x ∈ deduped ∨ (x = t ∧ t.blockNumber ≤ cutoff) := by
  unfold keep at h
  split at h
  case isTrue hpast =>
      cases h
      refine ⟨hkeys, ?_⟩
      intro x
      constructor
      · exact Or.inl
      · rintro (hx | ⟨-, hblock⟩)
        · exact hx
        · omega
  case isFalse hblock =>
      split at h
      case h_1 hnew =>
          cases h
          have hout : ∀ x ∈ deduped, x.key ≠ t.key := by
            intro x hx heq
            have := List.find?_eq_none.mp hnew x hx
            exact this (decide_eq_true heq)
          refine ⟨?_, ?_⟩
          · rw [List.map_append, List.nodup_append]
            refine ⟨hkeys, List.nodup_singleton _, ?_⟩
            intro k hk k' hk' heq
            obtain ⟨x, hx, rfl⟩ := List.mem_map.mp hk
            rw [List.map_singleton, List.mem_singleton] at hk'
            exact hout x hx (heq.trans hk')
          · intro x
            rw [List.mem_append, List.mem_singleton]
            refine or_congr_right ?_
            exact ⟨fun hx => ⟨hx, by omega⟩, fun hx => hx.1⟩
      case h_2 seen hseen =>
          split at h
          case isTrue => cases h
          case isFalse hsame =>
              cases h
              have hsame : seen = t := not_not.mp hsame
              subst hsame
              refine ⟨hkeys, ?_⟩
              intro x
              constructor
              · exact Or.inl
              · rintro (hx | ⟨rfl, -⟩)
                · exact hx
                · exact List.mem_of_find?_eq_some hseen

theorem foldlM_keep {cutoff : Nat} {ts deduped kept : List Trade}
    (h : ts.foldlM (keep cutoff) deduped = .ok kept)
    (hkeys : (deduped.map Trade.key).Nodup) :
    (kept.map Trade.key).Nodup ∧
    ∀ x, x ∈ kept ↔ x ∈ deduped ∨ (x ∈ ts ∧ x.blockNumber ≤ cutoff) := by
  induction ts generalizing deduped with
  | nil =>
      rw [List.foldlM_nil, pure_ok] at h
      subst h
      exact ⟨hkeys, fun x => by simp⟩
  | cons t ts ih =>
      rw [List.foldlM_cons, bind_ok] at h
      obtain ⟨deduped', hstep, h⟩ := h
      obtain ⟨hkeys', hmem'⟩ := keep_ok hstep hkeys
      obtain ⟨hkept, hmem⟩ := ih h hkeys'
      refine ⟨hkept, ?_⟩
      intro x
      rw [hmem, hmem', List.mem_cons]
      constructor
      · rintro ((hx | ⟨rfl, hblock⟩) | ⟨hx, hblock⟩)
        · exact Or.inl hx
        · exact Or.inr ⟨Or.inl rfl, hblock⟩
        · exact Or.inr ⟨Or.inr hx, hblock⟩
      · rintro (hx | ⟨rfl | hx, hblock⟩)
        · exact Or.inl (Or.inl hx)
        · exact Or.inl (Or.inr ⟨rfl, hblock⟩)
        · exact Or.inr ⟨hx, hblock⟩

/-! ## An export that succeeds -/

theorem tokenBundle_ok {a : Answer} {b : Detail × List Trade × List Nat}
    (h : tokenBundle a = .ok b) :
    b = (a.detail, a.trades, a.checkpoints) ∧
      validateTokenMetrics a.detail a.trades
        a.detail.indexedThroughBlock = .ok () := by
  have hpositive : ∀ {n m : Nat}, positiveCheckpoint n = .ok m → m = n := by
    intro n m hm
    unfold positiveCheckpoint at hm
    split at hm
    case isTrue => cases hm
    case isFalse =>
        cases hm
        rfl
  unfold tokenBundle at h
  rw [bind_ok] at h
  obtain ⟨n, hn, h⟩ := h
  rw [bind_ok] at h
  obtain ⟨ns, hns, h⟩ := h
  rw [bind_ok] at h
  obtain ⟨u, hvalid, h⟩ := h
  rw [pure_ok] at h
  obtain ⟨hns, -⟩ := mapM_ok_map
    (fun page m hm => hpositive (n := page.indexedThroughBlock) hm) hns
  subst hns
  rw [hpositive hn] at h hvalid
  exact ⟨h.symm, hvalid⟩

/-- What an export that succeeds is built from. -/
theorem exportTables_ok {indexedAt : Nat → String} {generatedAt : String}
    {since : Since} {listed : List Token} {answers : List Answer}
    {cutoff : Nat} {tables : Tables}
    (h : exportTables indexedAt generatedAt since listed answers =
      .ok (cutoff, tables)) :
    listed ≠ [] ∧
    (∀ a ∈ answers, validateTokenMetrics a.detail a.trades
      a.detail.indexedThroughBlock = .ok ()) ∧
    cutoff = (answers.flatMap Answer.checkpoints).min?.getD 0 ∧
    ∃ details : List Detail, details.Perm (answers.map Answer.detail) ∧
      buildExport details (answers.flatMap Answer.trades)
        ⟨cutoff, indexedAt cutoff, generatedAt⟩ since = .ok tables := by
  unfold exportTables at h
  rw [bind_ok] at h
  obtain ⟨source, hsource, h⟩ := h
  rw [bind_ok] at h
  obtain ⟨built, hbuilt, h⟩ := h
  rw [pure_ok] at h
  cases h
  unfold fetchSource at hsource
  split at hsource
  case isTrue => cases hsource
  case isFalse hlisted =>
      rw [bind_ok] at hsource
      obtain ⟨bundles, hbundles, hsource⟩ := hsource
      rw [pure_ok] at hsource
      subst hsource
      obtain ⟨rfl, hall⟩ := mapM_ok_map
        (fun a b hb => (tokenBundle_ok hb).1) hbundles
      refine ⟨hlisted, fun a ha => (tokenBundle_ok (hall a ha)).2, ?_, ?_⟩
      · simp only [List.flatMap_map]
      · refine ⟨orderBy (fun d : Detail =>
          (toLex (d.token.blockNumber, d.token.address) : Nat ×ₗ Nat))
            ((answers.map fun a =>
              (a.detail, a.trades, a.checkpoints)).map Prod.fst), ?_, ?_⟩
        · exact (orderBy_perm _ _).trans
            (List.Perm.of_eq (List.map_map ..))
        · simp only [List.flatMap_map] at hbuilt ⊢
          exact hbuilt

theorem buildExport_ok {details : List Detail} {trades : List Trade}
    {stamp : Stamp} {since : Since} {tables : Tables}
    (h : buildExport details trades stamp since = .ok tables) :
    ∃ kept, trades.foldlM (keep stamp.cutoff) [] = .ok kept ∧
      tables = tablesOf ((details.filter
        fun d => d.token.blockNumber ≤ stamp.cutoff).map lineOf) kept stamp
          since := by
  unfold buildExport at h
  dsimp only at h
  rw [bind_ok] at h
  obtain ⟨kept, hkept, h⟩ := h
  split at h
  case isTrue => cases h
  case isFalse =>
      split at h
      case isTrue => cases h
      case isFalse =>
          cases h
          exact ⟨kept, hkept, rfl⟩

/-! ## The cutoff -/

/-- The cutoff is past the list, and no answer was read before it. -/
theorem cutoff_bounds (S : Session H) {first cutoff : Nat}
    (hlisted : S.listed ≠ []) (hfirst : first ∈ S.listing.head?)
    (hcutoff : cutoff =
      (S.answers.flatMap Answer.checkpoints).min?.getD 0) :
    first ≤ cutoff ∧
      ∀ a ∈ S.answers, cutoff ≤ a.detail.indexedThroughBlock := by
  have hanswers : S.answers ≠ [] := by
    rintro hnil
    have hperm := S.answered
    rw [hnil] at hperm
    exact hlisted hperm.nil_eq.symm
  have hin : ∀ a ∈ S.answers, a.detail.indexedThroughBlock ∈
      S.answers.flatMap Answer.checkpoints :=
    fun a ha => List.mem_flatMap.mpr ⟨a, ha, List.mem_cons_self⟩
  have hmin : ∃ m, (S.answers.flatMap Answer.checkpoints).min? = some m := by
    obtain ⟨a, ha⟩ := List.exists_mem_of_ne_nil _ hanswers
    rw [← Option.isSome_iff_exists, List.isSome_min?_iff]
    exact List.ne_nil_of_mem (hin a ha)
  obtain ⟨m, hm⟩ := hmin
  rw [hm, Option.getD_some] at hcutoff
  subst hcutoff
  obtain ⟨hmem, hle⟩ := List.min?_eq_some_iff.mp hm
  refine ⟨?_, fun a ha => hle _ (hin a ha)⟩
  obtain ⟨a, ha, hmem⟩ := List.mem_flatMap.mp hmem
  have hafter := S.after_list a ha first (List.mem_of_mem_head? hfirst)
  rcases List.mem_cons.mp hmem with rfl | hmem
  · exact hafter
  · obtain ⟨page, hpage, rfl⟩ := List.mem_map.mp hmem
    exact hafter.trans (S.true_pages a ha page hpage).1

/-! ## The two sides -/

/-- The line an export has for a token. -/
def Session.line (S : Session H) (cutoff : Nat) (k : Token) : Line :=
  match S.answers.find? (fun a => a.detail.token = k) with
  | some a => lineOf a.detail
  | none => H.lineAt cutoff k

theorem line_token (S : Session H) (cutoff : Nat) (k : Token) :
    (S.line cutoff k).token = k := by
  unfold Session.line
  split
  case h_1 a ha =>
      have hfound := List.find?_some ha
      exact of_decide_eq_true hfound
  case h_2 => rfl

/-- One answer a token. -/
theorem answered_nodup (S : Session H) :
    ((S.answers.map Answer.detail).map Detail.token).Nodup := by
  obtain ⟨first, -, hperm⟩ := listed_perm S
  rw [List.map_map]
  exact (S.answered.trans hperm).nodup_iff.mpr (H.tokens_key.of_map.filter _)

theorem line_answered (S : Session H) (cutoff : Nat) {a : Answer}
    (ha : a ∈ S.answers) :
    S.line cutoff a.detail.token = lineOf a.detail := by
  have hfind : ∃ b, S.answers.find?
      (fun b => b.detail.token = a.detail.token) = some b := by
    rw [← Option.isSome_iff_exists, List.find?_isSome]
    exact ⟨a, ha, decide_eq_true rfl⟩
  obtain ⟨b, hb⟩ := hfind
  have hfound := List.find?_some hb
  have hdetail : b.detail = a.detail :=
    List.inj_on_of_nodup_map (answered_nodup S)
      (List.mem_map_of_mem (List.mem_of_find?_eq_some hb))
      (List.mem_map_of_mem ha) (of_decide_eq_true hfound)
  rw [Session.line, hb]
  exact congrArg lineOf hdetail

/-- The trades in an export are the canonical ones of the tokens answered. -/
theorem mem_kept (S : Session H) {cutoff : Nat} {kept : List Trade}
    (hvalid : ∀ a ∈ S.answers, validateTokenMetrics a.detail a.trades
      a.detail.indexedThroughBlock = .ok ())
    (hle : ∀ a ∈ S.answers, cutoff ≤ a.detail.indexedThroughBlock)
    (hkept : ∀ t, t ∈ kept ↔
      t ∈ S.answers.flatMap Answer.trades ∧ t.blockNumber ≤ cutoff)
    (t : Trade) :
    t ∈ kept ↔ t ∈ H.tradesAt cutoff ∧
      ∃ a ∈ S.answers, t.tokenAddress = a.detail.token.address := by
  rw [hkept, List.mem_flatMap, History.tradesAt, List.mem_filter,
    decide_eq_true_eq]
  constructor
  · rintro ⟨⟨a, ha, ht⟩, hblock⟩
    have hrow := (token_trades S ha (hvalid a ha) t).mp
      ⟨ht, hblock.trans (hle a ha)⟩
    obtain ⟨hrow, haddress⟩ := List.mem_filter.mp hrow
    exact ⟨⟨List.mem_of_mem_filter hrow, hblock⟩, a, ha,
      of_decide_eq_true haddress⟩
  · rintro ⟨⟨ht, hblock⟩, a, ha, haddress⟩
    have hrow : t ∈ H.tradesOf a.detail.indexedThroughBlock
        a.detail.token.address :=
      List.mem_filter.mpr ⟨List.mem_filter.mpr
        ⟨ht, decide_eq_true (hblock.trans (hle a ha))⟩,
        decide_eq_true haddress⟩
    exact ⟨⟨a, ha, ((token_trades S ha (hvalid a ha) t).mpr hrow).1⟩, hblock⟩

/-- Tables of the same cutoff have the same tokens only if none was launched
    between the list and the cutoff. -/
theorem tokensAt_eq {first cutoff : Nat} (hle : first ≤ cutoff) :
    (H.tokensAt first).length = (H.tokensAt cutoff).length ↔
      ∀ k ∈ H.tokens, k.blockNumber ≤ cutoff → k.blockNumber ≤ first := by
  have hsub : (H.tokensAt first).Sublist (H.tokensAt cutoff) := by
    refine List.monotone_filter_right _ ?_
    intro k hk
    simp only [decide_eq_true_eq] at hk ⊢
    exact hk.trans hle
  constructor
  · intro hlength k hk hblock
    have hmem : k ∈ H.tokensAt first := by
      rw [hsub.eq_of_length hlength]
      exact List.mem_filter.mpr ⟨hk, decide_eq_true hblock⟩
    exact of_decide_eq_true (List.mem_filter.mp hmem).2
  · intro hall
    refine congrArg List.length (List.filter_congr ?_)
    intro k hk
    rw [decide_eq_decide]
    exact ⟨fun h => h.trans hle, hall k hk⟩

/-! ## The law -/

/-- An export of a token list that was complete: the condition is that of
    the tables, token by token. -/
theorem export_complete (S : Session H) {cutoff : Nat} {stamp : Stamp}
    {since : Since} {details : List Detail} {kept : List Trade}
    (hdetails : details.Perm (S.kept cutoff))
    (htokens : (details.map Detail.token).Perm (H.tokensAt cutoff))
    (hkept : kept.Perm (H.tradesAt cutoff)) :
    tablesOf (details.map lineOf) kept stamp since =
      tablesOf ((H.tokensAt cutoff).map (H.lineAt cutoff))
        (H.tradesAt cutoff) stamp since ↔
    (((S.kept cutoff).filter
        fun d => graduationStatus d = "graduated").length =
      ((S.kept cutoff).filter fun d =>
        graduationStatus (H.detailAt cutoff d.token) = "graduated").length) ∧
    ∀ d ∈ S.kept cutoff,
      shows since (H.tokensAt cutoff) (H.tradesAt cutoff) d.token = true →
        lineOf d = H.lineAt cutoff d.token := by
  have hline : ∀ d ∈ details, S.line cutoff d.token = lineOf d := by
    intro d hd
    obtain ⟨a, ha, rfl⟩ := List.mem_map.mp
      (List.mem_of_mem_filter (hdetails.mem_iff.mp hd))
    exact line_answered S cutoff ha
  have hlines : details.map lineOf =
      (details.map Detail.token).map (S.line cutoff) := by
    rw [List.map_map]
    exact List.map_congr_left (fun d hd => (hline d hd).symm)
  have hcount : ∀ (p : Token → Bool) (q : Detail → Bool),
      (∀ d ∈ details, p d.token = q d) →
      ((details.map Detail.token).filter p).length =
        ((S.kept cutoff).filter q).length := by
    intro p q hpq
    rw [List.filter_map, List.length_map, ← (hdetails.filter q).length_eq]
    exact congrArg List.length (List.filter_congr hpq)
  have hkey : ((details.map Detail.token).map Token.address).Nodup :=
    (htokens.map Token.address).nodup_iff.mpr
      ((List.filter_sublist.map _).nodup H.tokens_key)
  rw [hlines, tablesOf_eq_iff htokens hkept hkey (line_token S cutoff)
      (fun k => rfl),
    hcount _ (fun d => graduationStatus d = "graduated")
      (fun d hd => by rw [hline d hd]; rfl),
    hcount _ (fun d => graduationStatus (H.detailAt cutoff d.token) =
      "graduated") (fun d hd => rfl)]
  refine and_congr_right' ?_
  simp only [shows, touched_perm htokens hkept]
  constructor
  · intro hall d hd hshown
    rw [← hline d (hdetails.mem_iff.mpr hd)]
    exact hall d.token
      (List.mem_map_of_mem (hdetails.mem_iff.mpr hd)) hshown
  · intro hall k hk hshown
    obtain ⟨d, hd, rfl⟩ := List.mem_map.mp hk
    rw [hline d hd]
    exact hall d (hdetails.mem_iff.mp hd) hshown

/-- **ONE SNAPSHOT.**  An export that succeeds has the tables of the
    canonical state at its cutoff exactly when every token of the cutoff was
    launched before the list was begun, as many of them had graduated by
    their details as by the cutoff, and every token that has a row stood in
    its detail as it stood at the cutoff. -/
theorem export_law {indexedAt : Nat → String} {generatedAt : String}
    {since : Since} (S : Session H) {cutoff : Nat} {tables : Tables}
    (h : exportTables indexedAt generatedAt since S.listed S.answers =
      .ok (cutoff, tables)) :
    tables = H.tablesAt cutoff (indexedAt cutoff) generatedAt since ↔
      Settled S cutoff since := by
  obtain ⟨hlisted, hvalid, hcutoff, details, hdetails, hbuild⟩ :=
    exportTables_ok h
  obtain ⟨kept, hkeep, htables⟩ := buildExport_ok hbuild
  subst htables
  obtain ⟨hkeptKeys, hkept⟩ := foldlM_keep hkeep List.nodup_nil
  simp only [List.not_mem_nil, false_or] at hkept
  obtain ⟨first, hfirst, hperm⟩ := listed_perm S
  obtain ⟨hfirstLe, hle⟩ := cutoff_bounds S hlisted hfirst hcutoff
  have hmem := mem_kept S hvalid hle hkept
  have hsource := hdetails.filter
    (fun d => decide (d.token.blockNumber ≤ cutoff))
  -- every answer is of a token of the list, so the cut drops none
  have hall : (S.answers.map Answer.detail).filter
      (fun d => decide (d.token.blockNumber ≤ cutoff)) =
      S.answers.map Answer.detail := by
    refine List.filter_eq_self.mpr ?_
    intro d hd
    obtain ⟨a, ha, rfl⟩ := List.mem_map.mp hd
    have hin := (S.answered.trans hperm).mem_iff.mp
      (List.mem_map.mpr ⟨a, ha, rfl⟩)
    have hblock := of_decide_eq_true (List.mem_filter.mp hin).2
    exact decide_eq_true (hblock.trans hfirstLe)
  have htokens : ((details.filter
      fun d => d.token.blockNumber ≤ cutoff).map Detail.token).Perm
        (H.tokensAt first) := by
    refine (hsource.map Detail.token).trans ?_
    rw [hall, List.map_map]
    exact S.answered.trans hperm
  have hcomplete : (∀ k ∈ H.tokens, k.blockNumber ≤ cutoff →
      k.blockNumber ≤ first) →
      ((details.filter
        fun d => d.token.blockNumber ≤ cutoff).map Detail.token).Perm
          (H.tokensAt cutoff) ∧ kept.Perm (H.tradesAt cutoff) := by
    intro hin
    have heq : H.tokensAt first = H.tokensAt cutoff := by
      refine List.filter_congr ?_
      intro k hk
      rw [decide_eq_decide]
      exact ⟨fun hk' => hk'.trans hfirstLe, hin k hk⟩
    refine ⟨heq ▸ htokens, ?_⟩
    have htrades : (H.tradesAt cutoff).Nodup :=
      (H.trades_key.of_map).filter _
    refine (List.perm_ext_iff_of_nodup hkeptKeys.of_map htrades).mpr ?_
    intro t
    rw [hmem]
    refine ⟨And.left, fun ht => ⟨ht, ?_⟩⟩
    -- a trade is not before its token, and the token is in the list
    obtain ⟨htrade, hblock⟩ := List.mem_filter.mp ht
    obtain ⟨k, hk, haddress, hlaunch⟩ := H.launched t htrade
    have hanswered := (S.answered.trans hperm).mem_iff.mpr
      (List.mem_filter.mpr ⟨hk, decide_eq_true
        (hin k hk (hlaunch.trans (of_decide_eq_true hblock)))⟩)
    obtain ⟨a, ha, rfl⟩ := List.mem_map.mp hanswered
    exact ⟨a, ha, haddress.symm⟩
  constructor
  · intro heq
    have hin : ∀ k ∈ H.tokens, k.blockNumber ≤ cutoff →
        k.blockNumber ≤ first := by
      have hcount := congrArg (fun t => t.overview.totalTokens) heq
      simp only [History.tablesAt, tablesOf_overview, overviewOf,
        List.length_map] at hcount
      have hlength := htokens.length_eq
      rw [List.length_map, hcount] at hlength
      exact (tokensAt_eq hfirstLe).mp hlength.symm
    obtain ⟨hks, hts⟩ := hcomplete hin
    obtain ⟨hgraduated, hshown⟩ :=
      (export_complete S hsource hks hts).mp heq
    refine ⟨?_, hgraduated, hshown⟩
    intro k hk hblock n hn
    rw [Option.mem_unique hn hfirst]
    exact hin k hk hblock
  · rintro ⟨hin, hgraduated, hshown⟩
    obtain ⟨hks, hts⟩ := hcomplete (fun k hk hblock =>
      hin k hk hblock first hfirst)
    exact (export_complete S hsource hks hts).mpr ⟨hgraduated, hshown⟩

/-- An API that stands still while the exporter reads gives it a snapshot. -/
theorem settled_of_still (S : Session H) {n : Nat} (since : Since)
    (hlist : ∀ first ∈ S.listing.head?, first = n)
    (hanswers : ∀ a ∈ S.answers, a.detail.indexedThroughBlock = n) :
    Settled S n since := by
  have hdetail : ∀ d ∈ S.kept n, d = H.detailAt n d.token := by
    intro d hd
    obtain ⟨a, ha, rfl⟩ := List.mem_map.mp (List.mem_of_mem_filter hd)
    have htrue := S.true_detail a ha
    rw [hanswers a ha] at htrue
    exact htrue
  refine ⟨?_, ?_, ?_⟩
  · intro k _ hblock first hfirst
    rw [hlist first hfirst]
    exact hblock
  · refine congrArg List.length (List.filter_congr ?_)
    intro d hd
    rw [← hdetail d hd]
  · intro d hd _
    exact congrArg lineOf (hdetail d hd)

end Law

/-! ## Two launches -/

/-- A token of block 5. -/
def early : Token := ⟨1, 7, "Early", "EAR", 5, 500⟩

/-- A token of block 12. -/
def late : Token := ⟨2, 8, "Late", "LAT", 12, 1200⟩

/-- The first buy of the earlier token, in block 8. -/
def firstTrade : Trade where
  tokenAddress := 1
  trader := 9
  side := .buy
  source := .curve
  curveValue := 10 ^ 18
  reserveAmount := 10 ^ 18
  blockNumber := 8
  blockTimestamp := 800
  transactionHash := 31
  logIndex := 0

def twoLaunches : History where
  tokens := [early, late]
  trades := [firstTrade]
  curve := fun _ n => some ⟨if n < 8 then 0 else 4, 800, "active"⟩
  phase := fun _ _ => none
  tokens_key := by decide
  trades_key := List.nodup_singleton _
  launched := by
    intro t ht
    rw [List.mem_singleton.mp ht]
    exact ⟨early, List.mem_cons_self .., rfl, by decide⟩

/-- The list is read through block 10, the rest through block `n`. -/
def readThrough (n : Nat) (h : 10 ≤ n) : Session twoLaunches where
  listing := [10]
  listed := [early]
  listing_run := .last rfl
  listing_ascends := List.pairwise_singleton _ _
  answers := [⟨twoLaunches.detailAt n early,
    [⟨n, twoLaunches.tradesOf n early.address⟩]⟩]
  answered := List.Perm.refl _
  true_detail := by
    intro a ha
    rw [List.mem_singleton.mp ha]
    rfl
  after_list := by
    intro a ha m hm
    rw [List.mem_singleton.mp ha, List.mem_singleton.mp hm]
    exact h
  true_pages := by
    intro a ha page hpage
    rw [List.mem_singleton.mp ha] at hpage ⊢
    rw [List.mem_singleton.mp hpage]
    exact ⟨le_rfl, fun _ ht => ht⟩

/-- Block 11: the trade is there, the second token not yet. -/
theorem export_law_early :
    exportTables (fun _ => "2026-01-01") "2026-01-02" ⟨none, none⟩
        [early] (readThrough 11 (by decide)).answers =
      .ok (11, twoLaunches.tablesAt 11 "2026-01-01" "2026-01-02"
        ⟨none, none⟩) ∧
      (twoLaunches.tablesAt 11 "2026-01-01" "2026-01-02"
        ⟨none, none⟩).overview.totalTrades = 1 ∧
      Settled (readThrough 11 (by decide)) 11 ⟨none, none⟩ := by
  have hexport : exportTables (fun _ => "2026-01-01") "2026-01-02"
      ⟨none, none⟩ [early] (readThrough 11 (by decide)).answers =
        .ok (11, twoLaunches.tablesAt 11 "2026-01-01" "2026-01-02"
          ⟨none, none⟩) := rfl
  exact ⟨hexport, rfl,
    (export_law (readThrough 11 (by decide)) hexport).mp rfl⟩

/-- **A TOKEN LAUNCHED WHILE THE EXPORTER READ** is before the cutoff, and in
    no table. -/
theorem late_launch_missing :
    ∃ tables,
      exportTables (fun _ => "2026-01-01") "2026-01-02" ⟨none, none⟩
        [early] (readThrough 20 (by decide)).answers = .ok (20, tables) ∧
      tables ≠ twoLaunches.tablesAt 20 "2026-01-01" "2026-01-02"
        ⟨none, none⟩ := by
  refine ⟨_, rfl, ?_⟩
  intro heq
  have hcount := congrArg (fun t => t.overview.totalTokens) heq
  change 1 = 2 at hcount
  cases hcount

end AnalyticsSnapshot
