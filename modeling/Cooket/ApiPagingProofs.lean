import Cooket.ApiQueriesProofs
import Cooket.CheckedArithProofs

/-! # When following the API's cursors loses no row

    A client asks for the first page of a list and then follows `next_cursor`
    until it is absent.  `paging_lossless_iff` says, for every state of the
    database and every list query, when this serves every matching row exactly
    once and in order at EVERY page size: when the query is `Coherent`.

    Four things can break it.  The lists of trades and activity order rows by
    log index before transaction hash and continue by hash before log index;
    rows of one block that share a transaction index, as migrated rows do, can
    disagree.  The view `near` orders by a rounded quotient and continues by
    the exact one.  Trending rereads the metrics of the last row and fails
    where it has none.  And the HTTP handler knows neither the cursors of the
    discovery views nor those of holdings, so it refuses their second page. -/

namespace ApiPaging

open ApiQueries CheckedArith Keyset

variable {Key : Type} [LinearOrder Key]
variable (P : Locale Key) (db : Database) (chain : ℤ) (layer : Layer)

/-! ## What an accepted cursor says -/

@[simp] theorem refuse_ok {bad : Bool} {u : Unit} :
    refuse bad = .ok u ↔ bad = false := by
  cases bad <;> simp [refuse]

/-- A check that passes is followed by what comes after it. -/
theorem check_ok {α : Type} {x : Except Error Unit}
    {f : Unit → Except Error α} {b : α} :
    (x >>= f) = .ok b ↔ x = .ok () ∧ f () = .ok b := by
  rw [bind_ok]
  constructor
  · rintro ⟨⟨⟩, h⟩
    exact h
  · intro h
    exact ⟨(), h⟩

/-- A cursor made from a token row. -/
def Addressable (t : TokenRow) : Prop :=
  validCursorHex t.tokenAddress 40 = true ∧ 0 ≤ t.blockNumber

/-- The switch of `validOpaqueCursor` names the kind. -/
def Named (kind : Kind) : Prop := kind ≠ .discovery ∧ kind ≠ .holdings

/-- `decodeCursor` accepts a cursor of the asked kind whose block is not
    negative and whose fields of that kind are well formed. -/
theorem decodeCursor_ok {c : PageCursor} {kind : Kind} :
    decodeCursor c kind = .ok () ↔
      c.kind = kind ∧ 0 ≤ c.blockNumber ∧
      match kind with
      | .tokens | .creator | .holdings =>
          validCursorHex c.tokenAddress 40 = true
      | .trending =>
          validCursorHex c.tokenAddress 40 = true ∧ c.volume ≠ none
      | .search => validCursorHex c.tokenAddress 40 = true ∧ c.query ≠ []
      | .discovery => validCursorHex c.tokenAddress 40 = true ∧
          match c.view with
          | none => False
          | some .top => validCursorInteger c.volume true = true
          | some .near => validCursorInteger c.volume true = true ∧
              validCursorInteger c.threshold false = true
          | some .linked => True
      | .trades | .activity => validCursorHex c.transaction 64 = true ∧
          0 ≤ c.transactionIndex ∧ 0 ≤ c.logIndex
      | .ctoProposals => validCursorHex c.transaction 64 = true ∧
          validCursorHex c.proposalID 64 = true ∧ 0 ≤ c.logIndex
      | .ctoCheckpoints | .ctoTransfers | .ctoFeePulls =>
          validCursorHex c.transaction 64 = true ∧ 0 ≤ c.logIndex := by
  cases kind with
  | discovery =>
      rcases hv : c.view with _ | _ | _ | _ <;>
        simp [decodeCursor, hv, and_assoc]
  | _ => simp [decodeCursor, and_assoc]

/-- For the kinds that are named the handler asks nothing more. -/
theorem presented_named {layer : Layer} {kind : Kind} (hk : Named kind)
    (c : PageCursor) :
    presented layer kind c = .ok () ↔ decodeCursor c kind = .ok () := by
  simp only [presented, check_ok, refuse_ok]
  constructor
  · rintro ⟨-, h⟩
    exact h
  · intro h
    refine ⟨?_, h⟩
    obtain ⟨rfl, hblock, -⟩ := decodeCursor_ok.mp h
    have hvalid : validOpaqueCursor c = true := by
      have hok : (decodeCursor c c.kind).isOk = true := by
        rw [h]
        rfl
      revert hok
      obtain ⟨hd, hh⟩ := hk
      rw [validOpaqueCursor]
      cases hc : c.kind with
      | discovery => exact absurd hc hd
      | holdings => exact absurd hc hh
      | _ => simp [hblock]
    simp [hvalid]

theorem presented_repository (kind : Kind) (c : PageCursor) :
    presented .repository kind c = .ok () ↔ decodeCursor c kind = .ok () := by
  simp [presented]

/-- **THE UNNAMED KINDS** never pass the handler. -/
theorem presented_http {kind : Kind} (hk : ¬ Named kind) (c : PageCursor) :
    presented .http kind c ≠ .ok () := by
  intro h
  simp only [presented, check_ok, refuse_ok] at h
  obtain ⟨hpasses, h⟩ := h
  obtain ⟨hkind, -⟩ := decodeCursor_ok.mp h
  have hvalid : validOpaqueCursor c = true := by simpa using hpasses
  have hunnamed : c.kind = .discovery ∨ c.kind = .holdings := by
    rw [hkind]
    by_contra hne
    exact hk ⟨fun h => hne (Or.inl h), fun h => hne (Or.inr h)⟩
  rcases hunnamed with h | h <;>
    simp [validOpaqueCursor, h] at hvalid

/-! ## Rows do not tie -/

/-- One canonical token an address. -/
theorem canonicalTokens_pairwise :
    (canonicalTokens P db chain).Pairwise
      (fun a b => P.lower a.tokenAddress ≠ P.lower b.tokenAddress) :=
  distinctOn_pairwise _ _

omit [LinearOrder Key] in
theorem launchOrder_ne {rows : List TokenView}
    (h : rows.Pairwise
      (fun a b => a.token.tokenAddress ≠ b.token.tokenAddress)) :
    rows.Pairwise (fun a b => launchOrder P a ≠ launchOrder P b) := by
  refine h.imp ?_
  intro a b hne heq
  have hkey : P.collate a.token.tokenAddress =
      P.collate b.token.tokenAddress := congrArg (fun k => (ofLex k).2) heq
  exact hne (P.collate_injective hkey)

/-- No two rows of the token select have one address. -/
theorem tokenSelect_pairwise :
    (tokenSelect P db chain).Pairwise
      (fun a b => a.token.tokenAddress ≠ b.token.tokenAddress) := by
  rw [tokenSelect, List.pairwise_map]
  refine (canonicalTokens_pairwise P db chain).imp ?_
  intro a b hne heq
  exact hne (congrArg P.lower heq)

theorem tokenSelect_metrics {t : TokenView}
    (h : t ∈ tokenSelect P db chain) :
    metricsOf P db chain t.token.tokenAddress = t.metrics := by
  obtain ⟨row, -, rfl⟩ := List.mem_map.mp h
  rfl

/-! ## The lists in launch order -/

/-- The predicate of a launch cursor is its order. -/
theorem afterLaunch_iff {c : PageCursor} {a b : TokenView}
    (hblock : c.blockNumber = a.token.blockNumber)
    (haddress : c.tokenAddress = a.token.tokenAddress) :
    afterLaunch P c b = true ↔ launchOrder P a < launchOrder P b := by
  simp only [afterLaunch, launchOrder, hblock, haddress,
    Prod.Lex.toLex_lt_toLex, OrderDual.toDual_lt_toDual, Bool.or_eq_true,
    Bool.and_eq_true, decide_eq_true_eq, EmbeddingLike.apply_eq_iff_eq]
  refine or_congr_right (and_congr_left' ?_)
  exact eq_comm

/-- A launch listing is lossless just when the rows that have a successor
    make cursors that are accepted. -/
theorem launch_lossless_iff {rows : List TokenView}
    {mark : TokenView → PageCursor}
    {accepts : PageCursor → Except Error Unit} {kind : Kind}
    (hrows : rows.Pairwise
      (fun a b => a.token.tokenAddress ≠ b.token.tokenAddress))
    (valid : TokenView → Prop)
    (hmark : ∀ a ∈ rows, (mark a).blockNumber = a.token.blockNumber ∧
      (mark a).tokenAddress = a.token.tokenAddress)
    (hvalid : ∀ a ∈ rows, ((presented layer kind (mark a) = .ok () ∧
      accepts (mark a) = .ok ()) ↔ valid a)) :
    (∀ limit, 1 ≤ limit → limit ≤ 100 →
      (launchListing P layer rows mark accepts kind).Lossless limit) ↔
      ∀ a ∈ rows,
        (launchListing P layer rows mark accepts kind).Continued a →
          valid a := by
  refine Listing.lossless_iff_valid (by omega) valid ?_
    (launchOrder_ne P hrows)
  intro a ha b _
  obtain ⟨hblock, haddress⟩ := hmark a ha
  rw [← hvalid a ha, ← check_ok (f := fun _ => accepts (mark a)),
    Listing.follows_iff rfl]
  exact and_congr_right'
    (afterLaunch_iff P hblock haddress)

theorem listTokens_lossless_iff :
    (∀ limit, 1 ≤ limit → limit ≤ 100 →
      (listTokens P db chain layer).Lossless limit) ↔
      ∀ t ∈ (listTokens P db chain layer).matching,
        (listTokens P db chain layer).Continued t →
          Addressable t.token := by
  refine launch_lossless_iff P layer (tokenSelect_pairwise P db chain) _
    (fun _ _ => ⟨rfl, rfl⟩) ?_
  intro t _
  rw [presented_named (by simp [Named]), decodeCursor_ok]
  simp [launchCursor, Addressable, and_comm]

theorem creatorTokens_lossless_iff (creator : Text) :
    (∀ limit, 1 ≤ limit → limit ≤ 100 →
      (creatorTokens P db chain layer creator).Lossless limit) ↔
      ∀ t ∈ (creatorTokens P db chain layer creator).matching,
        (creatorTokens P db chain layer creator).Continued t →
          Addressable t.token := by
  refine launch_lossless_iff P layer
    ((tokenSelect_pairwise P db chain).filter _) _
    (fun _ _ => ⟨rfl, rfl⟩) ?_
  intro t _
  rw [presented_named (by simp [Named]), decodeCursor_ok]
  simp [launchCursor, Addressable, and_comm]

/-- The cursor of a search also carries the query, which may not be empty. -/
theorem searchTokens_lossless_iff (query : Text) :
    (∀ limit, 1 ≤ limit → limit ≤ 100 →
      (searchTokens P db chain layer query).Lossless limit) ↔
      ∀ t ∈ (searchTokens P db chain layer query).matching,
        (searchTokens P db chain layer query).Continued t →
          Addressable t.token ∧ P.normalize query ≠ [] := by
  refine launch_lossless_iff P layer
    ((tokenSelect_pairwise P db chain).filter _) _
    (fun _ _ => ⟨rfl, rfl⟩) ?_
  intro t _
  rw [presented_named (by simp [Named]), decodeCursor_ok]
  simp [launchCursor, Addressable]
  tauto

/-! ## The discovery views -/

/-- Over HTTP a discovery view has one page. -/
theorem discovery_http {K : Type} [LinearOrder K]
    {L : Listing TokenView PageCursor Error K}
    (h : ∀ c, L.accepts c = .ok () →
      presented .http .discovery c = .ok ()) :
    (∀ limit, 1 ≤ limit → limit ≤ 100 → L.Lossless limit) ↔
      L.matching.length ≤ 1 := by
  refine Listing.lossless_iff_refused (by omega) ?_
  rintro a b ⟨c, -, hok, -⟩
  exact presented_http (by simp [Named]) c (h c hok)

theorem linkedTokens_lossless_iff :
    (∀ limit, 1 ≤ limit → limit ≤ 100 →
      (linkedTokens P db chain .repository).Lossless limit) ↔
      ∀ t ∈ (linkedTokens P db chain .repository).matching,
        (linkedTokens P db chain .repository).Continued t →
          Addressable t.token := by
  refine launch_lossless_iff P .repository
    ((tokenSelect_pairwise P db chain).filter _) _
    (fun _ _ => ⟨rfl, rfl⟩) ?_
  intro t _
  rw [presented_repository, decodeCursor_ok]
  simp [launchCursor, Addressable, and_comm]

/-- A ranked list: a rank over the launch order, and a cursor predicate that
    says the same of both. -/
theorem ranked_lossless_iff {R : Type} [LinearOrder R]
    {L : Listing TokenView PageCursor Error (R ×ₗ ℤᵒᵈ ×ₗ Key)}
    (rank : TokenView → R)
    (horder : ∀ t, L.order t = toLex (rank t, launchOrder P t))
    (hrows : L.matching.Pairwise
      (fun a b => a.token.tokenAddress ≠ b.token.tokenAddress))
    (valid : TokenView → Prop)
    (hfollows : ∀ a ∈ L.matching, ∀ b ∈ L.matching,
      (L.Follows a b ↔ valid a ∧ (rank a < rank b ∨
        (rank a = rank b ∧ launchOrder P a < launchOrder P b)))) :
    (∀ limit, 1 ≤ limit → limit ≤ 100 → L.Lossless limit) ↔
      ∀ t ∈ L.matching, L.Continued t → valid t := by
  refine Listing.lossless_iff_valid (by omega) valid ?_ ?_
  · intro a ha b hb
    rw [hfollows a ha b hb, horder a, horder b, Prod.Lex.toLex_lt_toLex]
  · refine (launchOrder_ne P hrows).imp ?_
    intro a b hne heq
    rw [horder a, horder b] at heq
    exact hne (congrArg (fun k => (ofLex k).2) heq)

theorem topTokens_lossless_iff :
    (∀ limit, 1 ≤ limit → limit ≤ 100 →
      (topTokens P db chain .repository).Lossless limit) ↔
      ∀ t ∈ (topTokens P db chain .repository).matching,
        (topTokens P db chain .repository).Continued t →
          Addressable t.token ∧
          validCursorInteger (some (fullyDilutedValue t)) true = true := by
  refine ranked_lossless_iff P
    (fun t => OrderDual.toDual (fullyDilutedValue t)) (fun _ => rfl)
    (tokenSelect_pairwise P db chain) _ ?_
  intro a _ b _
  rw [Listing.follows_iff rfl]
  refine and_congr ?_ ?_
  · show (do presented .repository .discovery _; refuse _) = _ ↔ _
    simp only [check_ok, presented_repository, decodeCursor_ok, refuse_ok]
    simp [launchCursor, Addressable]
    tauto
  · simp only [topTokens, launchCursor, launchOrder, Option.getD_some,
      Prod.Lex.toLex_lt_toLex, OrderDual.toDual_lt_toDual, Bool.or_eq_true,
      Bool.and_eq_true, decide_eq_true_eq, EmbeddingLike.apply_eq_iff_eq]
    grind

/-! ## The view `near` -/

/-- The exact share of the threshold that is sold; a NaN threshold has none,
    and comes after every share. -/
def share (t : TokenView) : WithBot ℚ :=
  match soldSupply t, graduationThreshold t with
  | some s, some h => some ((s : ℚ) / h)
  | _, _ => ⊥

/-- The order the cursor of `near` continues by. -/
def exactOrder (t : TokenView) : (WithBot ℚ)ᵒᵈ ×ₗ ℤᵒᵈ ×ₗ Key :=
  toLex (OrderDual.toDual (share t), launchOrder P t)

/-- Cross multiplication compares shares, from a row whose threshold is an
    integer. -/
theorem cross_lt {v h : ℤ} (hh : 0 < h) {t : TokenView}
    (ht : 0 < graduationThreshold t)
    (hs : soldSupply t < graduationThreshold t) :
    mul (soldSupply t) (some h) < mul (some v) (graduationThreshold t) ↔
      share t < (((v : ℚ) / h : ℚ) : WithBot ℚ) := by
  unfold share
  cases hsold : soldSupply t with
  | none => rw [hsold] at hs; exact absurd hs (not_top_lt)
  | some s =>
      cases hthr : graduationThreshold t with
      | none =>
          show ((s * h : ℤ) : Numeric) < ⊤ ↔ (⊥ : WithBot ℚ) < _
          exact iff_of_true (WithTop.coe_lt_top _) (WithBot.bot_lt_coe _)
      | some k =>
          have hk : (0 : ℤ) < k := by
            rw [hthr] at ht
            exact WithTop.coe_lt_coe.mp ht
          show ((s * h : ℤ) : Numeric) < ((v * k : ℤ) : Numeric) ↔
            (((s : ℚ) / k : ℚ) : WithBot ℚ) < _
          rw [WithTop.coe_lt_coe, WithBot.coe_lt_coe,
            div_lt_div_iff₀ (by exact_mod_cast hk) (by exact_mod_cast hh)]
          exact_mod_cast Iff.rfl

theorem cross_eq {v h : ℤ} (hh : 0 < h) {t : TokenView}
    (ht : 0 < graduationThreshold t)
    (hs : soldSupply t < graduationThreshold t) :
    mul (soldSupply t) (some h) = mul (some v) (graduationThreshold t) ↔
      share t = (((v : ℚ) / h : ℚ) : WithBot ℚ) := by
  unfold share
  cases hsold : soldSupply t with
  | none => rw [hsold] at hs; exact absurd hs (not_top_lt)
  | some s =>
      cases hthr : graduationThreshold t with
      | none =>
          show ((s * h : ℤ) : Numeric) = ⊤ ↔ (⊥ : WithBot ℚ) = _
          exact iff_of_false (WithTop.coe_ne_top) (WithBot.bot_ne_coe)
      | some k =>
          have hk : (0 : ℤ) < k := by
            rw [hthr] at ht
            exact WithTop.coe_lt_coe.mp ht
          show ((s * h : ℤ) : Numeric) = ((v * k : ℤ) : Numeric) ↔
            (((s : ℚ) / k : ℚ) : WithBot ℚ) = _
          rw [WithTop.coe_inj, WithBot.coe_inj, div_eq_div_iff
            (by exact_mod_cast hk.ne') (by exact_mod_cast hh.ne')]
          exact_mod_cast Iff.rfl

/-- A row whose amounts make a cursor of `near`. -/
def Measured (t : TokenView) : Prop :=
  validCursorInteger (some (soldSupply t)) true = true ∧
    validCursorInteger (some (graduationThreshold t)) false = true

theorem mem_near {t : TokenView}
    (h : t ∈ (nearTokens P db chain layer).matching) :
    0 < graduationThreshold t ∧ soldSupply t < graduationThreshold t := by
  have h' := (List.mem_filter.mp h).2
  simp only [Bool.and_eq_true, decide_eq_true_eq] at h'
  exact ⟨h'.1.2, h'.2⟩

theorem measured_amounts {t : TokenView} (h : Measured t) :
    ∃ v k : ℤ, soldSupply t = some v ∧ graduationThreshold t = some k ∧
      0 < k := by
  obtain ⟨hs, ht⟩ := h
  cases hsold : soldSupply t with
  | none => rw [hsold] at hs; exact absurd hs (by decide)
  | some v =>
      cases hthr : graduationThreshold t with
      | none => rw [hthr] at ht; exact absurd ht (by decide)
      | some k =>
          refine ⟨v, k, rfl, rfl, ?_⟩
          rw [hthr] at ht
          have hk : 0 ≤ k ∧ k ≠ 0 := by
            simpa [validCursorInteger] using ht
          omega

/-- The cursor of a measured row continues by the exact order. -/
theorem near_admits {a b : TokenView} (ha : Measured a)
    (ht : 0 < graduationThreshold b)
    (hs : soldSupply b < graduationThreshold b) :
    (nearTokens P db chain layer).admits
      { launchCursor .discovery a with
        view := some .near
        volume := some (soldSupply a)
        threshold := some (graduationThreshold a) } b = true ↔
      exactOrder P a < exactOrder P b := by
  obtain ⟨v, k, hv, hk, hpos⟩ := measured_amounts ha
  have hshare : share a = (((v : ℚ) / k : ℚ) : WithBot ℚ) := by
    rw [share, hv, hk]
    rfl
  show (decide (mul (soldSupply b) (graduationThreshold a) <
        mul (soldSupply a) (graduationThreshold b)) ||
      (decide (mul (soldSupply b) (graduationThreshold a) =
          mul (soldSupply a) (graduationThreshold b)) &&
        decide (b.token.blockNumber < a.token.blockNumber)) ||
      (decide (mul (soldSupply b) (graduationThreshold a) =
          mul (soldSupply a) (graduationThreshold b)) &&
        decide (b.token.blockNumber = a.token.blockNumber) &&
        decide (P.collate a.token.tokenAddress <
          P.collate b.token.tokenAddress))) = true ↔ _
  rw [hv, hk]
  simp only [exactOrder, launchOrder, hshare, Prod.Lex.toLex_lt_toLex,
    OrderDual.toDual_lt_toDual, Bool.or_eq_true, Bool.and_eq_true,
    decide_eq_true_eq, EmbeddingLike.apply_eq_iff_eq,
    cross_lt hpos ht hs, cross_eq hpos ht hs]
  grind

/-- **NEAR**: the rounded quotient must order the rows as the exact share
    does. -/
theorem nearTokens_lossless_iff :
    (∀ limit, 1 ≤ limit → limit ≤ 100 →
      (nearTokens P db chain .repository).Lossless limit) ↔
      (∀ t ∈ (nearTokens P db chain .repository).matching,
        (nearTokens P db chain .repository).Continued t →
          Addressable t.token ∧ Measured t) ∧
      ∀ a ∈ (nearTokens P db chain .repository).matching,
        ∀ b ∈ (nearTokens P db chain .repository).matching,
          (nearTokens P db chain .repository).order a <
              (nearTokens P db chain .repository).order b →
            exactOrder P a < exactOrder P b := by
  have haddress : (nearTokens P db chain .repository).matching.Pairwise
      (fun a b => a.token.tokenAddress ≠ b.token.tokenAddress) :=
    (tokenSelect_pairwise P db chain).filter _
  have hne := launchOrder_ne P haddress
  have hmost : 1 ≤ 100 := by omega
  have hrule := Listing.lossless_iff_key hmost
    (L := nearTokens P db chain .repository)
    (fun t => Addressable t.token ∧ Measured t) (exactOrder P) ?_ ?_
  · rw [hrule]
    constructor
    · rintro ⟨-, h⟩
      refine ⟨?_, fun a ha b hb hab => (h a ha b hb hab).2⟩
      rintro a ha ⟨b, hb, hab⟩
      exact (h a ha b hb hab).1
    · rintro ⟨hvalid, horder⟩
      refine ⟨hne.imp ?_, fun a ha b hb hab =>
        ⟨hvalid a ha ⟨b, hb, hab⟩, horder a ha b hb hab⟩⟩
      intro a b hne heq
      exact hne (congrArg (fun k => (ofLex k).2) heq)
  · intro a _ b hb
    obtain ⟨ht, hs⟩ := mem_near P db chain .repository hb
    have haccepts : (nearTokens P db chain .repository).accepts
        { launchCursor .discovery a with
          view := some .near
          volume := some (soldSupply a)
          threshold := some (graduationThreshold a) } = .ok () ↔
        Addressable a.token ∧ Measured a := by
      show (do presented .repository .discovery _; refuse _) = _ ↔ _
      simp only [check_ok, presented_repository, decodeCursor_ok, refuse_ok]
      simp [launchCursor, Addressable, Measured]
      tauto
    rw [Listing.follows_iff rfl, haccepts]
    refine and_congr_right ?_
    rintro ⟨-, hm⟩
    exact near_admits P db chain .repository hm ht hs
  · intro a ha b hb heq
    have hmap : ((nearTokens P db chain .repository).matching.map
        (fun t => t.token.tokenAddress)).Nodup :=
      List.pairwise_map.mpr haddress
    have hlaunch : launchOrder P a = launchOrder P b :=
      congrArg (fun k => (ofLex k).2) heq
    have hkey : P.collate a.token.tokenAddress =
        P.collate b.token.tokenAddress :=
      congrArg (fun k => (ofLex k).2) hlaunch
    rw [List.inj_on_of_nodup_map hmap ha hb (P.collate_injective hkey)]

/-! ## Trending -/

/-- The cursor of a trending row is made from the metrics the row itself was
    ranked by, where there are any. -/
theorem trendingTokens_lossless_iff :
    (∀ limit, 1 ≤ limit → limit ≤ 100 →
      (trendingTokens P db chain layer).Lossless limit) ↔
      ∀ t ∈ (trendingTokens P db chain layer).matching,
        (trendingTokens P db chain layer).Continued t →
          Addressable t.token ∧ t.metrics ≠ none := by
  refine Listing.lossless_iff_valid (by omega) _ ?_ ?_
  · intro a ha b _
    have hmetrics := tokenSelect_metrics P db chain ha
    cases hm : a.metrics with
    | none =>
        constructor
        · rintro ⟨c, hc, -⟩
          simp only [trendingTokens, hmetrics, hm] at hc
          cases hc
        · rintro ⟨⟨-, hnone⟩, -⟩
          exact absurd rfl hnone
    | some m =>
        have hmark : (trendingTokens P db chain layer).mark a =
            .ok { launchCursor .trending a with
              volume := some m.recentVolume
              recentTrades := m.recentTradeCount
              recentUsers := m.recentTraderCount } := by
          simp only [trendingTokens, hmetrics, hm]
        rw [Listing.follows_iff hmark]
        refine and_congr ?_ ?_
        · show presented layer .trending _ = _ ↔ _
          rw [presented_named (by simp [Named]), decodeCursor_ok]
          simp [launchCursor, Addressable, and_comm]
        · have hrecent : recent a =
              (m.recentVolume, m.recentTradeCount, m.recentTraderCount) := by
            rw [recent, hm]
          simp only [trendingTokens, launchCursor, launchOrder,
            Option.getD_some, hrecent, Prod.Lex.toLex_lt_toLex,
            OrderDual.toDual_lt_toDual, Bool.or_eq_true, Bool.and_eq_true,
            decide_eq_true_eq, EmbeddingLike.apply_eq_iff_eq]
          grind
  · refine (launchOrder_ne P (tokenSelect_pairwise P db chain)).imp ?_
    intro a b hne heq
    exact hne (congrArg
      (fun k => (ofLex (ofLex (ofLex k).2).2).2) heq)

/-! ## Holdings -/

theorem mem_holdings {holder : Text} {h : Holding}
    (hm : h ∈ (walletHoldings P db chain layer holder).matching) :
    h.token ∈ canonicalTokens P db chain := by
  obtain ⟨b, -, hb⟩ := List.mem_flatMap.mp hm
  obtain ⟨t, ht, rfl⟩ := List.mem_map.mp hb
  exact List.mem_of_mem_filter ht

/-- **HOLDINGS**: one balance row a token. -/
theorem walletHoldings_lossless_iff (holder : Text) :
    (∀ limit, 1 ≤ limit → limit ≤ 100 →
      (walletHoldings P db chain .repository holder).Lossless limit) ↔
      (walletHoldings P db chain .repository holder).matching.Pairwise
        (fun a b => a.token.tokenAddress ≠ b.token.tokenAddress) ∧
      ∀ h ∈ (walletHoldings P db chain .repository holder).matching,
        (walletHoldings P db chain .repository holder).Continued h →
          validCursorHex h.token.tokenAddress 40 = true := by
  have hmost : 1 ≤ 100 := by omega
  have hrule := Listing.lossless_iff_key hmost
    (L := walletHoldings P db chain .repository holder)
    (fun h => validCursorHex h.token.tokenAddress 40 = true)
    (fun h => P.collate (P.lower h.token.tokenAddress)) ?_ ?_
  · rw [hrule]
    have hne : ∀ a b : Holding,
        (walletHoldings P db chain .repository holder).order a ≠
          (walletHoldings P db chain .repository holder).order b ↔
        a.token.tokenAddress ≠ b.token.tokenAddress := by
      intro a b
      refine not_congr ⟨?_, ?_⟩
      · intro heq
        have hkey : P.collate a.token.tokenAddress =
            P.collate b.token.tokenAddress :=
          congrArg (fun k => (ofLex k).2) heq
        exact P.collate_injective hkey
      · intro heq
        simp only [walletHoldings, heq]
    simp only [hne]
    refine and_congr_right (fun _ => ?_)
    constructor
    · rintro h a ha ⟨b, hb, hab⟩
      exact (h a ha b hb hab).1
    · intro h a ha b hb hab
      refine ⟨h a ha ⟨b, hb, hab⟩, ?_⟩
      rcases Prod.Lex.toLex_lt_toLex.mp hab with hlt | ⟨heq, hlt⟩
      · exact hlt
      · -- equal lowered addresses are one canonical token
        have htokens : ((canonicalTokens P db chain).map
            (fun t => P.lower t.tokenAddress)).Nodup :=
          List.pairwise_map.mpr (canonicalTokens_pairwise P db chain)
        have hsame : a.token = b.token :=
          List.inj_on_of_nodup_map htokens
            (mem_holdings P db chain .repository ha)
            (mem_holdings P db chain .repository hb)
            (P.collate_injective heq)
        simp only [hsame] at hlt
        exact absurd hlt (lt_irrefl _)
  · intro a _ b _
    rw [Listing.follows_iff rfl]
    refine and_congr ?_ ?_
    · show presented .repository .holdings _ = _ ↔ _
      rw [presented_repository, decodeCursor_ok]
      simp
    · simp only [walletHoldings, decide_eq_true_eq]
  · intro a _ b _ heq
    exact congrArg (fun k => (ofLex k).1) heq

theorem walletHoldings_http (holder : Text) :
    (∀ limit, 1 ≤ limit → limit ≤ 100 →
      (walletHoldings P db chain .http holder).Lossless limit) ↔
      (walletHoldings P db chain .http holder).matching.length ≤ 1 := by
  refine Listing.lossless_iff_refused (by omega) ?_
  rintro a b ⟨c, -, hok, -⟩
  exact presented_http (by simp [Named]) c hok

/-! ## Trades and activity -/

/-- A place that makes a cursor. -/
def Placeable (p : Place) : Prop :=
  0 ≤ p.blockNumber ∧ validCursorHex p.transactionHash 64 = true ∧
    0 ≤ p.transactionIndex ∧ 0 ≤ p.logIndex

/-- The order the cursor continues by. -/
def cursorOrder (p : Place) : ℤᵒᵈ ×ₗ ℤᵒᵈ ×ₗ Keyᵒᵈ ×ₗ ℤᵒᵈ :=
  toLex (OrderDual.toDual p.blockNumber,
    toLex (OrderDual.toDual p.transactionIndex,
      toLex (OrderDual.toDual (P.collate p.transactionHash),
        OrderDual.toDual p.logIndex)))

omit [LinearOrder Key] in
/-- The ORDER BY tells places apart. -/
theorem chainOrder_injective : Function.Injective (chainOrder P) := by
  intro p q h
  simp only [chainOrder, EmbeddingLike.apply_eq_iff_eq,
    Prod.mk.injEq] at h
  obtain ⟨hblock, htx, hlog, hhash⟩ := h
  cases p
  cases q
  simp only [Place.mk.injEq]
  exact ⟨hblock, htx, P.collate_injective hhash, hlog⟩

/-- **THE SLIP**: within one transaction index the two orders of a pair agree
    when the later log does not have the smaller hash. -/
theorem orders_agree {Row : Type} {rows : List Row} {place : Row → Place} :
    (∀ a ∈ rows, ∀ b ∈ rows,
      chainOrder P (place a) < chainOrder P (place b) →
        cursorOrder P (place a) < cursorOrder P (place b)) ↔
    ∀ a ∈ rows, ∀ b ∈ rows,
      (place a).blockNumber = (place b).blockNumber →
      (place a).transactionIndex = (place b).transactionIndex →
      (place b).logIndex < (place a).logIndex →
        P.collate (place b).transactionHash ≤
          P.collate (place a).transactionHash := by
  refine forall₂_congr (fun a _ => forall₂_congr (fun b _ => ?_))
  simp only [chainOrder, cursorOrder, Prod.Lex.toLex_lt_toLex,
    OrderDual.toDual_lt_toDual, EmbeddingLike.apply_eq_iff_eq]
  constructor
  · intro h hblock htx hlog
    rcases h (Or.inr ⟨hblock, Or.inr ⟨htx, Or.inl hlog⟩⟩) with
      hlt | ⟨-, hlt | ⟨-, hlt | ⟨heq, -⟩⟩⟩
    · exact absurd hlt (by omega)
    · exact absurd hlt (by omega)
    · exact hlt.le
    · exact heq.ge
  · rintro h (hlt | ⟨hblock, hlt | ⟨htx, hlt | ⟨hlog, hlt⟩⟩⟩)
    · exact Or.inl hlt
    · exact Or.inr ⟨hblock, Or.inl hlt⟩
    · rcases lt_or_eq_of_le (h hblock htx hlt) with hhash | hhash
      · exact Or.inr ⟨hblock, Or.inr ⟨htx, Or.inl hhash⟩⟩
      · exact Or.inr ⟨hblock, Or.inr ⟨htx, Or.inr ⟨hhash.symm, hlt⟩⟩⟩
    · exact Or.inr ⟨hblock, Or.inr ⟨htx, Or.inl hlt⟩⟩

theorem afterPlace_iff {kind : Kind} {p q : Place} :
    afterPlace P
      { kind := kind
        blockNumber := p.blockNumber
        transactionIndex := p.transactionIndex
        transaction := p.transactionHash
        logIndex := p.logIndex } q = true ↔
      cursorOrder P p < cursorOrder P q := by
  have hhash : q.transactionHash = p.transactionHash ↔
      P.collate p.transactionHash = P.collate q.transactionHash := by
    rw [P.collate_injective.eq_iff]
    exact eq_comm
  simp only [afterPlace, cursorOrder, Prod.Lex.toLex_lt_toLex,
    OrderDual.toDual_lt_toDual, EmbeddingLike.apply_eq_iff_eq,
    Bool.or_eq_true, Bool.and_eq_true, decide_eq_true_eq, hhash]
  rw [eq_comm (a := q.blockNumber), eq_comm (a := q.transactionIndex)]

/-- **TRADES AND ACTIVITY**, over any table keyed by transaction and log. -/
theorem placed_lossless_iff {Row : Type} {kind : Kind} {rows : List Row}
    {place : Row → Place} (hk : kind = .trades ∨ kind = .activity)
    (hrows : rows.Pairwise (fun a b =>
      ((place a).transactionHash, (place a).logIndex) ≠
        ((place b).transactionHash, (place b).logIndex))) :
    (∀ limit, 1 ≤ limit → limit ≤ 100 →
      (placedListing P layer kind rows place).Lossless limit) ↔
      (∀ r ∈ rows, (placedListing P layer kind rows place).Continued r →
        Placeable (place r)) ∧
      ∀ a ∈ rows, ∀ b ∈ rows,
        (place a).blockNumber = (place b).blockNumber →
        (place a).transactionIndex = (place b).transactionIndex →
        (place b).logIndex < (place a).logIndex →
          P.collate (place b).transactionHash ≤
            P.collate (place a).transactionHash := by
  rw [← orders_agree P]
  have hmost : 1 ≤ 100 := by omega
  have hrule := Listing.lossless_iff_key hmost
    (L := placedListing P layer kind rows place)
    (fun r => Placeable (place r)) (fun r => cursorOrder P (place r)) ?_ ?_
  · rw [hrule]
    constructor
    · rintro ⟨-, h⟩
      refine ⟨?_, fun a ha b hb hab => (h a ha b hb hab).2⟩
      rintro a ha ⟨b, hb, hab⟩
      exact (h a ha b hb hab).1
    · rintro ⟨hvalid, horder⟩
      refine ⟨hrows.imp ?_, fun a ha b hb hab =>
        ⟨hvalid a ha ⟨b, hb, hab⟩, horder a ha b hb hab⟩⟩
      intro a b hne heq
      have hplace : place a = place b := chainOrder_injective P heq
      exact hne (by rw [hplace])
  · intro a _ b _
    rw [Listing.follows_iff rfl]
    refine and_congr ?_ (afterPlace_iff P)
    show presented layer kind _ = _ ↔ _
    rcases hk with rfl | rfl <;>
      rw [presented_named (by simp [Named]), decodeCursor_ok] <;>
      simp [Placeable]
  · intro a _ b _ heq
    have hplace : place a = place b := chainOrder_injective P heq
    simp only [hplace]

/-! ## Every list query -/

/-- The list queries of the API. -/
inductive Query where
  | newest
  | search (query : Text)
  | discovery (view : View)
  | trending
  | creator (address : Text)
  | holdings (holder : Text)
  | trades (token : Text)
  | activity (token : Text)

/-- Following `next_cursor` from the first page serves every matching row of
    the query exactly once and in its order. -/
def Query.Lossless (limit : Nat) : Query → Prop
  | .newest => (listTokens P db chain layer).Lossless limit
  | .search q => (searchTokens P db chain layer q).Lossless limit
  | .discovery .top => (topTokens P db chain layer).Lossless limit
  | .discovery .near => (nearTokens P db chain layer).Lossless limit
  | .discovery .linked => (linkedTokens P db chain layer).Lossless limit
  | .trending => (trendingTokens P db chain layer).Lossless limit
  | .creator a => (creatorTokens P db chain layer a).Lossless limit
  | .holdings a => (walletHoldings P db chain layer a).Lossless limit
  | .trades a => (ApiQueries.trades P db chain layer a).Lossless limit
  | .activity a => (ApiQueries.activity P db chain layer a).Lossless limit

/-- Every row of the list that is not the last one meets the condition. -/
def Inner {Row K : Type} [LinearOrder K]
    (L : Listing Row PageCursor Error K) (valid : Row → Prop) : Prop :=
  ∀ r ∈ L.matching, L.Continued r → valid r

/-- Rows of one block that share a transaction index: the later log has not
    the smaller transaction hash. -/
def HashesFollowLogs {Row : Type} (rows : List Row) (place : Row → Place) :
    Prop :=
  ∀ a ∈ rows, ∀ b ∈ rows,
    (place a).blockNumber = (place b).blockNumber →
    (place a).transactionIndex = (place b).transactionIndex →
    (place b).logIndex < (place a).logIndex →
      P.collate (place b).transactionHash ≤
        P.collate (place a).transactionHash

/-- When the cursor of a query agrees with its order, in the rows of the
    database: what each row that has a successor must carry, and where the two
    orders of the query could differ. -/
def Query.Coherent : Query → Prop
  | .newest => Inner (listTokens P db chain layer)
      fun t => Addressable t.token
  | .creator a => Inner (creatorTokens P db chain layer a)
      fun t => Addressable t.token
  | .search q => Inner (searchTokens P db chain layer q)
      fun t => Addressable t.token ∧ P.normalize q ≠ []
  | .trending => Inner (trendingTokens P db chain layer)
      fun t => Addressable t.token ∧ t.metrics ≠ none
  | .discovery .linked =>
      match layer with
      | .http => (linkedTokens P db chain .http).matching.length ≤ 1
      | .repository => Inner (linkedTokens P db chain .repository)
          fun t => Addressable t.token
  | .discovery .top =>
      match layer with
      | .http => (topTokens P db chain .http).matching.length ≤ 1
      | .repository => Inner (topTokens P db chain .repository)
          fun t => Addressable t.token ∧
            validCursorInteger (some (fullyDilutedValue t)) true = true
  | .discovery .near =>
      match layer with
      | .http => (nearTokens P db chain .http).matching.length ≤ 1
      | .repository =>
          Inner (nearTokens P db chain .repository)
            (fun t => Addressable t.token ∧ Measured t) ∧
          ∀ a ∈ (nearTokens P db chain .repository).matching,
            ∀ b ∈ (nearTokens P db chain .repository).matching,
              toLex (OrderDual.toDual (progress P a), launchOrder P a) <
                  toLex (OrderDual.toDual (progress P b), launchOrder P b) →
                exactOrder P a < exactOrder P b
  | .holdings a =>
      match layer with
      | .http => (walletHoldings P db chain .http a).matching.length ≤ 1
      | .repository =>
          (walletHoldings P db chain .repository a).matching.Pairwise
            (fun a b => a.token.tokenAddress ≠ b.token.tokenAddress) ∧
          Inner (walletHoldings P db chain .repository a)
            fun h => validCursorHex h.token.tokenAddress 40 = true
  | .trades a =>
      Inner (ApiQueries.trades P db chain layer a)
        (fun r => Placeable r.place) ∧
      HashesFollowLogs P (ApiQueries.trades P db chain layer a).matching
        TradeRow.place
  | .activity a =>
      Inner (ApiQueries.activity P db chain layer a)
        (fun r => Placeable r.place) ∧
      HashesFollowLogs P (ApiQueries.activity P db chain layer a).matching
        EventRow.place

theorem trades_lossless_iff (token : Text) :
    (∀ limit, 1 ≤ limit → limit ≤ 100 →
      (ApiQueries.trades P db chain layer token).Lossless limit) ↔
      (Query.trades token).Coherent P db chain layer := by
  refine placed_lossless_iff P layer (Or.inl rfl) ?_
  refine (db.trades_key.filter _).imp_of_mem ?_
  intro a b ha hb hne heq
  have hchain : a.chainId = b.chainId := by
    have hca := (List.mem_filter.mp ha).2
    have hcb := (List.mem_filter.mp hb).2
    simp only [Bool.and_eq_true, decide_eq_true_eq] at hca hcb
    rw [hca.1.1.1, hcb.1.1.1]
  exact hne (by rw [Prod.mk.injEq]; exact ⟨hchain, heq⟩)

theorem activity_lossless_iff (token : Text) :
    (∀ limit, 1 ≤ limit → limit ≤ 100 →
      (ApiQueries.activity P db chain layer token).Lossless limit) ↔
      (Query.activity token).Coherent P db chain layer := by
  refine placed_lossless_iff P layer (Or.inr rfl) ?_
  refine (db.events_key.filter _).imp_of_mem ?_
  intro a b ha hb hne heq
  have hchain : a.chainId = b.chainId := by
    have hca := (List.mem_filter.mp ha).2
    have hcb := (List.mem_filter.mp hb).2
    simp only [Bool.and_eq_true, decide_eq_true_eq] at hca hcb
    rw [hca.1.1.1, hcb.1.1.1]
  exact hne (by rw [Prod.mk.injEq]; exact ⟨hchain, heq⟩)

/-- **PAGING IS LOSSLESS IFF COHERENT**: in every state of the database, for
    every list query, through the handler or at the repository, every page
    size serves every matching row once and in order just when the cursor of
    the query agrees with its order on the rows there are. -/
theorem paging_lossless_iff (q : Query) :
    (∀ limit, 1 ≤ limit → limit ≤ 100 →
      q.Lossless P db chain layer limit) ↔
      q.Coherent P db chain layer := by
  cases q with
  | newest => exact listTokens_lossless_iff P db chain layer
  | search q => exact searchTokens_lossless_iff P db chain layer q
  | trending => exact trendingTokens_lossless_iff P db chain layer
  | creator a => exact creatorTokens_lossless_iff P db chain layer a
  | trades a => exact trades_lossless_iff P db chain layer a
  | activity a => exact activity_lossless_iff P db chain layer a
  | holdings a =>
      cases layer with
      | repository => exact walletHoldings_lossless_iff P db chain a
      | http => exact walletHoldings_http P db chain a
  | discovery view =>
      cases layer with
      | repository =>
          cases view with
          | top => exact topTokens_lossless_iff P db chain
          | near => exact nearTokens_lossless_iff P db chain
          | linked => exact linkedTokens_lossless_iff P db chain
      | http =>
          cases view with
          | top => exact discovery_http fun c h => (check_ok.mp h).1
          | near => exact discovery_http fun c h => (check_ok.mp h).1
          | linked => exact discovery_http fun c h => (check_ok.mp h).1

/-! ## Two rows are enough -/

/-- A locale that compares text by its code points. -/
def codePoints : Locale Text where
  collate := id
  collate_injective := Function.injective_id
  lower := List.map Char.toLower
  like := fun s pattern => pattern.dropLast.isPrefixOf s
  quotient := fun s h => (((2 * s * 10 ^ 20 + h) / (2 * h) : ℤ) : ℚ) / 10 ^ 20
  normalize := List.map Char.toLower

/-- An address or a hash of one digit. -/
def hexText (digit : Char) (count : Nat) : Text :=
  '0' :: 'x' :: List.replicate count digit

/-- A trade that was migrated: its transaction index is the default. -/
def migratedTrade (hash : Char) (logIndex : ℤ) : TradeRow where
  chainId := 1
  tokenAddress := hexText 'c' 40
  traderAddress := hexText 'd' 40
  blockNumber := 7
  transactionIndex := 0
  transactionHash := hexText hash 64
  logIndex := logIndex
  isCanonical := true

/-- A token of block 5. -/
def launchedToken (address : Char) (logIndex : ℤ) : TokenRow where
  chainId := 1
  tokenAddress := hexText address 40
  creatorAddress := hexText 'd' 40
  name := "Coin".toList
  symbol := "COIN".toList
  xUrl := none
  blockNumber := 5
  transactionHash := hexText 'e' 64
  logIndex := logIndex
  isCanonical := true

/-- Two tokens, and two trades of block 7 whose transaction index was never
    rewritten: the earlier log has the greater hash. -/
def migrated : Database where
  tokens := [launchedToken 'c' 0, launchedToken 'd' 1]
  curves := []
  tokenMetrics := []
  tokenHolderBalances := []
  trades := [migratedTrade 'b' 1, migratedTrade 'a' 2]
  chainEvents := []
  applicationTokenExclusions := []
  tokens_key := by decide
  curves_key := by decide
  metrics_key := by decide
  balances_key := by decide
  balances_nonneg := by
    intro b hb
    cases hb
  trades_key := by decide +kernel
  events_key := by decide

/-- The cursor after the later one of the two trades. -/
def afterLater : PageCursor where
  kind := .trades
  blockNumber := 7
  transactionIndex := 0
  transaction := hexText 'a' 64
  logIndex := 2

/-- The cursor after the first token of the view `top`. -/
def afterFirst : PageCursor where
  kind := .discovery
  blockNumber := 5
  tokenAddress := hexText 'c' 40
  view := some .top
  volume := some 0

set_option maxRecDepth 4000 in
theorem second_page_empty :
    (ApiQueries.trades codePoints migrated 1 .http (hexText 'c' 40)).page 1
      (some afterLater) = .ok ([], none) := rfl

set_option maxRecDepth 4000 in
theorem second_page_refused :
    (topTokens codePoints migrated 1 .http).page 1 (some afterFirst) =
      .error .invalidCursor := rfl

/-- Of two migrated trades the pages of one row serve one, and of two tokens
    in the view `top` the handler serves one. -/
theorem migrated_rows_lost :
    ((ApiQueries.trades codePoints migrated 1 .http
        (hexText 'c' 40)).matching.length = 2 ∧
      ¬ (Query.trades (hexText 'c' 40)).Lossless codePoints migrated 1
        .http 1) ∧
    (topTokens codePoints migrated 1 .http).matching.length = 2 ∧
      ¬ (Query.discovery .top).Lossless codePoints migrated 1 .http 1 := by
  refine ⟨⟨rfl, ?_⟩, rfl, ?_⟩
  · rintro ⟨served, hpages, hperm, -⟩
    have hfirst : (ApiQueries.trades codePoints migrated 1 .http
        (hexText 'c' 40)).page 1 none =
          .ok ([migratedTrade 'a' 2], some afterLater) := rfl
    have hserved : served.length = 1 := by
      cases hpages with
      | last h =>
          rw [hfirst] at h
          cases h
      | more h hrest =>
          rw [hfirst] at h
          cases h
          cases hrest with
          | last h =>
              rw [second_page_empty] at h
              cases h
              rfl
          | more h _ =>
              rw [second_page_empty] at h
              cases h
    have htwo : served.length = 2 := hperm.length_eq
    omega
  · rintro ⟨served, hpages, -⟩
    have hfirst : (topTokens codePoints migrated 1 .http).page 1 none =
        .ok ([⟨launchedToken 'c' 0, none, none⟩], some afterFirst) := rfl
    cases hpages with
    | last h =>
        rw [hfirst] at h
        cases h
    | more h hrest =>
        rw [hfirst] at h
        cases h
        cases hrest with
        | last h =>
            rw [second_page_refused] at h
            cases h
        | more h _ =>
            rw [second_page_refused] at h
            cases h

end ApiPaging
