import Cooket.ApiPagingProofs
import Cooket.GoTextProofs

/-! # What a search of the tokens finds

    The handler `tokens` trims and lowers the search, lets through letters,
    digits, spaces, dots, underscores and hyphens, and the repository splices
    what it got into a `LIKE` pattern: the query and a percent sign.  A column
    should match when it STARTS with the query.

    To `LIKE` an underscore is a wildcard.  `search_law` says when following a
    search to its last page finds exactly the tokens that start with the
    query: when no other token has a column that agrees with the query
    everywhere but at its underscores, and the rows make cursors.  The other
    characters that pass are literal there, so a query without an underscore
    is always answered (`loose_of_literal`). -/

namespace TokenSearch

open ApiQueries ApiPaging GoText Keyset

/-! ## The text of a search -/

/-- The class of `^[a-z0-9 _.-]+$`. -/
def searchable (c : Char) : Bool :=
  ('a' ≤ c && c ≤ 'z') || ('0' ≤ c && c ≤ '9') || c = ' ' || c = '_' ||
    c = '.' || c = '-'

/-- `unicode.ToLower`, as far as it matters: it leaves the searchable
    characters alone and makes no space of another character. -/
structure Letters where
  toLower : Char → Char
  toLower_searchable : ∀ c, searchable c = true → toLower c = c
  toLower_space : ∀ c, isSpace (toLower c) = true → isSpace c = true

/-- `strings.ToLower(strings.TrimSpace(s))`. -/
def normalize (U : Letters) (s : Text) : Text := (trimSpace s).map U.toLower

/-- `len([]byte(s))`. -/
def byteLength (s : Text) : Nat := (s.map Char.utf8Size).sum

/-! ## The handler -/

/-- What the handler asks of the repository. -/
inductive Route where
  | search (query : Text)
  | discovery (view : View)
  | newest
  deriving DecidableEq

/-- The discovery view a parameter names. -/
def viewOf (view : Text) : Option View :=
  if view = "top".toList then some .top
  else if view = "near".toList then some .near
  else if view = "linked".toList then some .linked
  else none

/-- The handler `tokens`, on the parameters `search` and `view`, up to its
    call of the repository. -/
def tokens (U : Letters) (rawSearch rawView : Text) : Except String Route :=
  let search := normalize U rawSearch
  let view := normalize U rawView
  if 64 < byteLength search ∨ (search ≠ [] ∧ search.all searchable = false)
  then .error ("search must be at most 64 characters and use letters, " ++
    "numbers, spaces, dots, underscores, or hyphens")
  else if view ≠ [] ∧ view ≠ "new".toList ∧ viewOf view = none
  then .error "view must be one of new, top, near, or linked"
  else if search ≠ [] ∧ view ≠ []
  then .error "search and view cannot be combined"
  else if search ≠ [] then .ok (.search search)
  else match viewOf view with
    | some v => .ok (.discovery v)
    | none => .ok .newest

/-! ## The pattern -/

/-- `LIKE`, by its pattern.  A pattern that ends in its escape is an error of
    the database, which no search runs into. -/
def likePattern : Text → Text → Bool
  | [], s => s.isEmpty
  | '%' :: p, s => s.tails.any (likePattern p)
  | '_' :: p, s =>
      match s with
      | [] => false
      | _ :: s => likePattern p s
  | ['\\'], _ => false
  | '\\' :: c :: p, s =>
      match s with
      | [] => false
      | d :: s => c == d && likePattern p s
  | c :: p, s =>
      match s with
      | [] => false
      | d :: s => c == d && likePattern p s

/-- The text begins with the query when an underscore stands for any
    character. -/
def loosePrefix : Text → Text → Bool
  | [], _ => true
  | _ :: _, [] => false
  | c :: q, d :: s => (c == '_' || c == d) && loosePrefix q s

/-- The database and the API as one locale. -/
def Letters.locale {Key : Type} (U : Letters) (P : Locale Key) :
    Locale Key :=
  { P with
    like := fun s pattern => likePattern pattern s
    normalize := normalize U }

/-! ## What a search should find and does find -/

section Statement

variable {Key : Type} [LinearOrder Key]
variable (P : Locale Key) (db : Database) (chain : ℤ)

/-- A lowered column of the token. -/
def columns (t : TokenView) : List Text :=
  [P.lower t.token.name, P.lower t.token.symbol,
    P.lower t.token.tokenAddress]

/-- A column starts with the query. -/
def StartsWith (query : Text) (t : TokenView) : Prop :=
  ∃ s ∈ columns P t, query <+: s

/-- A column agrees with the query except at its underscores. -/
def Loose (query : Text) (t : TokenView) : Prop :=
  ∃ s ∈ columns P t, loosePrefix query s = true

/-- Following the answers of a route to the last page serves these rows. -/
def Serves (limit : Nat) : Route → List TokenView → Prop
  | .search q, served =>
      (searchTokens P db chain .http q).Pages limit none served
  | .newest, served => (listTokens P db chain .http).Pages limit none served
  | .discovery .top, served =>
      (topTokens P db chain .http).Pages limit none served
  | .discovery .near, served =>
      (nearTokens P db chain .http).Pages limit none served
  | .discovery .linked, served =>
      (linkedTokens P db chain .http).Pages limit none served

/-- The last page is reached, and the tokens served on the way are exactly
    those that start with the query. -/
def Finds (limit : Nat) (route : Route) (query : Text) : Prop :=
  ∃ served, Serves P db chain limit route served ∧
    ∀ t, t ∈ served ↔
      t ∈ tokenSelect P db chain ∧ StartsWith P query t

end Statement

/-! ## Trimming and lowering twice -/

theorem normalize_trimmed (U : Letters) (s : Text) :
    Trimmed (normalize U s) := by
  obtain ⟨hhead, hlast⟩ := trimSpace_trimmed s
  have hspace : ∀ c, isSpace c = false → isSpace (U.toLower c) = false := by
    intro c hc
    rw [Bool.eq_false_iff]
    intro hlow
    rw [U.toLower_space c hlow] at hc
    cases hc
  constructor
  · intro c hc
    rw [normalize, List.head?_map, Option.mem_map] at hc
    obtain ⟨d, hd, rfl⟩ := hc
    exact hspace d (hhead d hd)
  · intro c hc
    rw [normalize, List.getLast?_map, Option.mem_map] at hc
    obtain ⟨d, hd, rfl⟩ := hc
    exact hspace d (hlast d hd)

/-- What the handler lets through, the repository does not change. -/
theorem normalize_normalize (U : Letters) {s : Text}
    (h : (normalize U s).all searchable = true) :
    normalize U (normalize U s) = normalize U s := by
  have hlower : (normalize U s).map U.toLower = normalize U s := by
    refine (List.map_congr_left ?_).trans (List.map_id _)
    intro c hc
    exact U.toLower_searchable c (List.all_eq_true.mp h c hc)
  rw [normalize, trimSpace_eq_self (normalize_trimmed U s), hlower]

/-! ## What the pattern matches -/

/-- A pattern of a plain character begins with it. -/
theorem likePattern_plain {c : Char} {p s : Text} (hpercent : c ≠ '%')
    (hunder : c ≠ '_') (hescape : c ≠ '\\') :
    likePattern (c :: p) s =
      match s with
      | [] => false
      | d :: s => c == d && likePattern p s := by
  rw [likePattern.eq_def]
  split <;> simp_all

/-- **PREFIX**: a query of searchable characters and a percent sign match
    what begins with the query, up to its underscores. -/
theorem likePattern_search {q : Text} (hq : q.all searchable = true)
    (s : Text) : likePattern (q ++ ['%']) s = loosePrefix q s := by
  induction q generalizing s with
  | nil =>
      show s.tails.any (likePattern []) = true
      rw [List.any_eq_true]
      exact ⟨[], (List.mem_tails _ _).mpr List.nil_suffix, rfl⟩
  | cons c q ih =>
      rw [List.all_cons, Bool.and_eq_true] at hq
      obtain ⟨hc, hrest⟩ := hq
      by_cases hunder : c = '_'
      · subst hunder
        cases s with
        | nil => rfl
        | cons d s =>
            show likePattern (q ++ ['%']) s = loosePrefix q s
            exact ih hrest s
      · have hpercent : c ≠ '%' := by
          rintro rfl
          exact absurd hc (by decide)
        have hescape : c ≠ '\\' := by
          rintro rfl
          exact absurd hc (by decide)
        rw [List.cons_append, likePattern_plain hpercent hunder hescape]
        cases s with
        | nil => rfl
        | cons d s =>
            show (c == d && likePattern (q ++ ['%']) s) =
              ((c == '_' || c == d) && loosePrefix q s)
            rw [ih hrest s, beq_false_of_ne hunder, Bool.false_or]

/-- A literal prefix agrees with the query. -/
theorem loosePrefix_of_literal {q s : Text} (h : q <+: s) :
    loosePrefix q s = true := by
  induction q generalizing s with
  | nil => rfl
  | cons c q ih =>
      obtain ⟨r, rfl⟩ := h
      show ((c == '_' || c == c) && loosePrefix q (q ++ r)) = true
      rw [ih (List.prefix_append q r)]
      simp

/-- Without underscores there is nothing else that agrees. -/
theorem literal_of_loosePrefix {q s : Text} (hq : '_' ∉ q)
    (h : loosePrefix q s = true) : q <+: s := by
  induction q generalizing s with
  | nil => exact List.nil_prefix
  | cons c q ih =>
      have hc : c ≠ '_' := fun h => hq (h ▸ List.mem_cons_self ..)
      have hrest : '_' ∉ q := fun h => hq (List.mem_cons_of_mem _ h)
      cases s with
      | nil => cases h
      | cons d s =>
          rw [loosePrefix, Bool.and_eq_true] at h
          have hcd : c = d := by
            simpa [beq_false_of_ne hc] using h.1
          subst hcd
          exact List.cons_prefix_cons.mpr ⟨rfl, ih hrest h.2⟩

section Law

variable {Key : Type} [LinearOrder Key]
variable (P : Locale Key) (db : Database) (chain : ℤ)

omit [LinearOrder Key] in
theorem loose_of_startsWith {q : Text} {t : TokenView}
    (h : StartsWith P q t) : Loose P q t := by
  obtain ⟨s, hs, hprefix⟩ := h
  exact ⟨s, hs, loosePrefix_of_literal hprefix⟩

omit [LinearOrder Key] in
/-- **WITHOUT UNDERSCORES** the two readings of a query are one. -/
theorem loose_of_literal {q : Text} {t : TokenView} (hq : '_' ∉ q) :
    Loose P q t ↔ StartsWith P q t := by
  constructor
  · rintro ⟨s, hs, hloose⟩
    exact ⟨s, hs, literal_of_loosePrefix hq hloose⟩
  · exact loose_of_startsWith P

/-- The rows of the query are those that agree loosely. -/
theorem mem_searchTokens (U : Letters) {q : Text}
    (hq : q.all searchable = true) (hnormal : normalize U q = q)
    (layer : Layer) (t : TokenView) :
    t ∈ (searchTokens (U.locale P) db chain layer q).matching ↔
      t ∈ tokenSelect (U.locale P) db chain ∧ Loose (U.locale P) q t := by
  show t ∈ (tokenSelect (U.locale P) db chain).filter (fun t =>
    likePattern (normalize U q ++ ['%']) (P.lower t.token.name) ||
      likePattern (normalize U q ++ ['%']) (P.lower t.token.symbol) ||
      likePattern (normalize U q ++ ['%']) (P.lower t.token.tokenAddress)) ↔ _
  rw [hnormal, List.mem_filter]
  refine and_congr_right (fun _ => ?_)
  simp only [likePattern_search hq, Bool.or_eq_true, Loose, columns,
    List.mem_cons, List.not_mem_nil, or_false, or_assoc]
  constructor
  · rintro (h | h | h)
    · exact ⟨_, Or.inl rfl, h⟩
    · exact ⟨_, Or.inr (Or.inl rfl), h⟩
    · exact ⟨_, Or.inr (Or.inr rfl), h⟩
  · rintro ⟨s, rfl | rfl | rfl, h⟩
    · exact Or.inl h
    · exact Or.inr (Or.inl h)
    · exact Or.inr (Or.inr h)

/-! ## Following a list in launch order -/

variable {P}

/-- A run of pages of a launch listing serves its rows. -/
theorem launch_served {layer : Layer} {rows : List TokenView}
    {mark : TokenView → PageCursor}
    {accepts : PageCursor → Except Error Unit} {kind : Kind}
    (hrows : rows.Pairwise
      (fun a b => a.token.tokenAddress ≠ b.token.tokenAddress))
    (hmark : ∀ a ∈ rows, (mark a).blockNumber = a.token.blockNumber ∧
      (mark a).tokenAddress = a.token.tokenAddress)
    {limit : Nat} (hlimit : 1 ≤ limit) :
    ((launchListing P layer rows mark accepts kind).Lossless limit ↔
      ∃ served, (launchListing P layer rows mark accepts kind).Pages limit
        none served) ∧
    ∀ served, (launchListing P layer rows mark accepts kind).Pages limit
      none served → ∀ t, t ∈ served ↔ t ∈ rows := by
  have hadmits : ∀ a ∈ rows, ∀ c : PageCursor,
      (Except.ok (mark a) : Except Error PageCursor) = .ok c →
      (launchListing P layer rows mark accepts kind).accepts c = .ok () →
      ∀ b ∈ rows, (afterLaunch P c b = true ↔
        launchOrder P a < launchOrder P b) := by
    rintro a ha c ⟨⟩ - b -
    exact afterLaunch_iff P (hmark a ha).1 (hmark a ha).2
  refine ⟨Listing.lossless_iff_pages hlimit (launchOrder_ne P hrows)
    hadmits, ?_⟩
  intro served h t
  rw [Listing.pages_first hlimit (launchOrder_ne P hrows) hadmits h]
  exact (Listing.sorted_perm rows).mem_iff

/-- Following a launch listing finds a set of tokens at every page size when
    that set is its rows and it is lossless. -/
theorem launch_finds_iff {layer : Layer} {rows : List TokenView}
    {mark : TokenView → PageCursor}
    {accepts : PageCursor → Except Error Unit} {kind : Kind}
    (hrows : rows.Pairwise
      (fun a b => a.token.tokenAddress ≠ b.token.tokenAddress))
    (hmark : ∀ a ∈ rows, (mark a).blockNumber = a.token.blockNumber ∧
      (mark a).tokenAddress = a.token.tokenAddress)
    (wanted : TokenView → Prop) :
    (∀ limit, 1 ≤ limit → limit ≤ 100 → ∃ served,
      (launchListing P layer rows mark accepts kind).Pages limit none
        served ∧ ∀ t, t ∈ served ↔ wanted t) ↔
    (∀ t, t ∈ rows ↔ wanted t) ∧
      ∀ limit, 1 ≤ limit → limit ≤ 100 →
        (launchListing P layer rows mark accepts kind).Lossless limit := by
  constructor
  · intro h
    refine ⟨?_, ?_⟩
    · obtain ⟨served, hpages, hserved⟩ := h 1 le_rfl (by omega)
      intro t
      rw [← (launch_served hrows hmark le_rfl).2 served hpages t]
      exact hserved t
    · intro limit hlimit hmost
      obtain ⟨served, hpages, -⟩ := h limit hlimit hmost
      exact (launch_served hrows hmark hlimit).1.mpr ⟨served, hpages⟩
  · rintro ⟨hwanted, h⟩ limit hlimit hmost
    obtain ⟨served, hpages⟩ :=
      (launch_served hrows hmark hlimit).1.mp (h limit hlimit hmost)
    refine ⟨served, hpages, ?_⟩
    intro t
    rw [(launch_served hrows hmark hlimit).2 served hpages t]
    exact hwanted t

/-! ## The law -/

/-- What the handler accepts as a search is searched for as it is, and an
    empty search asks for the newest tokens. -/
theorem tokens_ok {U : Letters} {rawSearch rawView : Text} {route : Route}
    (h : tokens U rawSearch rawView = .ok route)
    (hsearch : ∀ v, route ≠ .discovery v) :
    (route = .search (normalize U rawSearch) ∧
      normalize U rawSearch ≠ [] ∧
      (normalize U rawSearch).all searchable = true) ∨
    (route = .newest ∧ normalize U rawSearch = []) := by
  unfold tokens at h
  dsimp only at h
  split at h
  case isTrue => cases h
  case isFalse hsize =>
      split at h
      case isTrue => cases h
      case isFalse =>
          split at h
          case isTrue => cases h
          case isFalse =>
              split at h
              case isTrue hne =>
                  cases h
                  refine Or.inl ⟨rfl, hne, ?_⟩
                  cases hall : (normalize U rawSearch).all searchable with
                  | true => rfl
                  | false => exact absurd (Or.inr ⟨hne, hall⟩) hsize
              case isFalse hempty =>
                  split at h
                  case h_1 v hv =>
                      cases h
                      exact absurd rfl (hsearch v)
                  case h_2 =>
                      cases h
                      exact Or.inr ⟨rfl, not_not.mp hempty⟩

variable (P)

/-- The condition of a search: the loose answers are the literal ones, and the
    answers that have a successor make cursors. -/
def Answerable (query : Text) : Prop :=
  (∀ t ∈ tokenSelect P db chain, Loose P query t → StartsWith P query t) ∧
  ∀ a ∈ tokenSelect P db chain, ∀ b ∈ tokenSelect P db chain,
    StartsWith P query a → StartsWith P query b →
      launchOrder P a < launchOrder P b → Addressable a.token

/-- The rows of a lossless listing are the wanted ones, and its inner rows are
    valid: the same in terms of the tokens themselves. -/
theorem answerable_iff {query : Text} {matching : List TokenView}
    (hmatching : ∀ t, t ∈ matching ↔
      t ∈ tokenSelect P db chain ∧ Loose P query t) :
    ((∀ t, t ∈ matching ↔
        t ∈ tokenSelect P db chain ∧ StartsWith P query t) ∧
      ∀ a ∈ matching, (∃ b ∈ matching, launchOrder P a < launchOrder P b) →
        Addressable a.token) ↔
    Answerable P db chain query := by
  constructor
  · rintro ⟨hwanted, hinner⟩
    refine ⟨?_, ?_⟩
    · intro t ht hloose
      exact ((hwanted t).mp ((hmatching t).mpr ⟨ht, hloose⟩)).2
    · intro a ha b hb hsa hsb hab
      exact hinner a ((hwanted a).mpr ⟨ha, hsa⟩)
        ⟨b, (hwanted b).mpr ⟨hb, hsb⟩, hab⟩
  · rintro ⟨hliteral, haddress⟩
    have hwanted : ∀ t, t ∈ matching ↔
        t ∈ tokenSelect P db chain ∧ StartsWith P query t := by
      intro t
      rw [hmatching t]
      refine and_congr_right ?_
      intro ht
      exact ⟨hliteral t ht, loose_of_startsWith P⟩
    refine ⟨hwanted, ?_⟩
    rintro a ha ⟨b, hb, hab⟩
    obtain ⟨ha', hsa⟩ := (hwanted a).mp ha
    obtain ⟨hb', hsb⟩ := (hwanted b).mp hb
    exact haddress a ha' b hb' hsa hsb hab

/-- **A SEARCH** that the handler let through. -/
theorem search_finds_iff (U : Letters) {q : Text} (hne : q ≠ [])
    (hall : q.all searchable = true) (hnormal : normalize U q = q) :
    (∀ limit, 1 ≤ limit → limit ≤ 100 →
      Finds (U.locale P) db chain limit (.search q) q) ↔
      Answerable (U.locale P) db chain q := by
  have hrows : (searchTokens (U.locale P) db chain .http q).matching.Pairwise
      (fun a b => a.token.tokenAddress ≠ b.token.tokenAddress) :=
    (tokenSelect_pairwise (U.locale P) db chain).filter _
  have hfinds : (∀ limit, 1 ≤ limit → limit ≤ 100 →
      Finds (U.locale P) db chain limit (.search q) q) ↔ _ :=
    launch_finds_iff hrows (fun _ _ => ⟨rfl, rfl⟩)
      (fun t => t ∈ tokenSelect (U.locale P) db chain ∧
        StartsWith (U.locale P) q t)
  rw [hfinds, ← answerable_iff (U.locale P) db chain
    (mem_searchTokens P db chain U hall hnormal .http)]
  refine and_congr_right (fun _ => ?_)
  refine (searchTokens_lossless_iff (U.locale P) db chain .http q).trans ?_
  refine forall₃_congr (fun a _ _ => ?_)
  have hkept : (U.locale P).normalize q ≠ [] := by
    show normalize U q ≠ []
    rwa [hnormal]
  exact and_iff_left hkept

/-- **NO SEARCH**: the newest tokens, all of which start with nothing. -/
theorem newest_finds_iff :
    (∀ limit, 1 ≤ limit → limit ≤ 100 →
      Finds P db chain limit .newest []) ↔ Answerable P db chain [] := by
  have hfinds : (∀ limit, 1 ≤ limit → limit ≤ 100 →
      Finds P db chain limit .newest []) ↔ _ :=
    launch_finds_iff (tokenSelect_pairwise P db chain)
      (fun _ _ => ⟨rfl, rfl⟩)
      (fun t => t ∈ tokenSelect P db chain ∧ StartsWith P [] t)
  have hloose : ∀ t, t ∈ (listTokens P db chain .http).matching ↔
      t ∈ tokenSelect P db chain ∧ Loose P [] t := by
    intro t
    refine (and_iff_left ?_).symm
    exact ⟨_, List.mem_cons_self .., rfl⟩
  rw [hfinds, ← answerable_iff P db chain hloose]
  exact and_congr_right (fun _ => listTokens_lossless_iff P db chain .http)

/-- **THE SEARCH LAW**: for every accepted search that is not a discovery
    view, following it to its last page finds exactly the tokens that start
    with the query, at every page size, just when no other token agrees with
    the query up to its underscores, and the tokens that start with it and
    have a successor make cursors. -/
theorem search_law (U : Letters) (rawSearch rawView : Text) {route : Route}
    (haccept : tokens U rawSearch rawView = .ok route)
    (hsearch : ∀ v, route ≠ .discovery v) :
    (∀ limit, 1 ≤ limit → limit ≤ 100 →
      Finds (U.locale P) db chain limit route (normalize U rawSearch)) ↔
    Answerable (U.locale P) db chain (normalize U rawSearch) := by
  rcases tokens_ok haccept hsearch with ⟨rfl, hne, hall⟩ | ⟨rfl, hempty⟩
  · exact search_finds_iff P db chain U hne hall (normalize_normalize U hall)
  · rw [hempty]
    exact newest_finds_iff (U.locale P) db chain

end Law

/-! ## An underscore -/

theorem not_isUpper {c : Char} (hc : searchable c = true) :
    c.isUpper = false := by
  rw [Bool.eq_false_iff]
  intro hup
  have h : 65 ≤ c.toNat ∧ c.toNat ≤ 90 := by
    simpa [Char.isUpper, UInt32.le_iff_toNat_le] using hup
  have hval : c.val.toNat = c.toNat := rfl
  simp [searchable, Char.le_def, UInt32.le_iff_toNat_le, Char.ext_iff,
    ← UInt32.toNat_inj] at hc
  omega

theorem toLower_of_not_isUpper {c : Char} (hc : c.isUpper = false) :
    c.toLower = c := by
  unfold Char.toLower
  refine dif_neg ?_
  intro h
  have hup : c.isUpper = true := by simpa [Char.isUpper] using h
  rw [hc] at hup
  cases hup

theorem isSpace_of_toLower {c : Char} (hc : isSpace c.toLower = true) :
    isSpace c = true := by
  by_cases hup : c.isUpper = true
  · -- a lowered capital is a letter
    have h : 65 ≤ c.toNat ∧ c.toNat ≤ 90 := by
      simpa [Char.isUpper, UInt32.le_iff_toNat_le] using hup
    have hval : c.val.toNat = c.toNat := rfl
    have hlower : c.toLower.toNat = c.toNat + 32 := by
      unfold Char.toLower
      rw [dif_pos (by simpa [Char.isUpper] using hup)]
      show (c.val + 32).toNat = c.val.toNat + 32
      rw [UInt32.toNat_add]
      simp
      omega
    simp [isSpace, hlower] at hc
    omega
  · rwa [toLower_of_not_isUpper (Bool.eq_false_iff.mpr hup)] at hc

/-- `ToLower` as it acts on ASCII. -/
def asciiLetters : Letters where
  toLower := Char.toLower
  toLower_searchable := fun _ hc => toLower_of_not_isUpper (not_isUpper hc)
  toLower_space := fun _ => isSpace_of_toLower

/-- The law at a search with capitals and spaces at its ends, of two tokens of
    that name: both are found. -/
theorem search_law_coin :
    (searchTokens (asciiLetters.locale codePoints) migrated 1 .http
      "coin".toList).matching.length = 2 ∧
    ∀ limit, 1 ≤ limit → limit ≤ 100 →
      Finds (asciiLetters.locale codePoints) migrated 1 limit
        (.search "coin".toList) (normalize asciiLetters " COIN ".toList) := by
  refine ⟨by decide, (search_law codePoints migrated 1 asciiLetters
    " COIN ".toList [] (by decide) (by rintro v ⟨⟩)).mpr ⟨?_, ?_⟩⟩
  · intro t _ hloose
    exact (loose_of_literal _ (by decide)).mp hloose
  · have hall : ∀ a ∈ tokenSelect (asciiLetters.locale codePoints) migrated 1,
        Addressable a.token := by
      unfold Addressable
      decide
    exact fun a ha _ _ _ _ _ => hall a ha

/-- One token, by the name of "axb". -/
def oneToken : Database where
  tokens := [{ launchedToken 'c' 0 with name := "axb".toList }]
  curves := []
  tokenMetrics := []
  tokenHolderBalances := []
  trades := []
  chainEvents := []
  applicationTokenExclusions := []
  tokens_key := by decide
  curves_key := migrated.curves_key
  metrics_key := migrated.metrics_key
  balances_key := migrated.balances_key
  balances_nonneg := migrated.balances_nonneg
  trades_key := by decide
  events_key := migrated.events_key

/-- The row of that token. -/
def axb : TokenView where
  token := { launchedToken 'c' 0 with name := "axb".toList }
  curve := none
  metrics := none

/-- **THE WILDCARD**: the search "a_b" is accepted, and at every page size it
    serves the token "axb", no column of which starts with it. -/
theorem underscore_matches_any :
    tokens asciiLetters "a_b".toList [] = .ok (.search "a_b".toList) ∧
    normalize asciiLetters "a_b".toList = "a_b".toList ∧
    ∀ limit, 1 ≤ limit → limit ≤ 100 →
      ¬ Finds (asciiLetters.locale codePoints) oneToken 1 limit
        (.search "a_b".toList) "a_b".toList := by
  refine ⟨by decide, by decide, ?_⟩
  rintro limit hlimit - ⟨served, hserves, hexact⟩
  have hrows : (searchTokens (asciiLetters.locale codePoints) oneToken 1
      .http "a_b".toList).matching.Pairwise
      (fun a b => a.token.tokenAddress ≠ b.token.tokenAddress) :=
    (tokenSelect_pairwise _ _ _).filter _
  have hserved := (launch_served hrows (fun _ _ => ⟨rfl, rfl⟩) hlimit).2
    served hserves axb
  have hrow : axb ∈ (searchTokens (asciiLetters.locale codePoints) oneToken 1
      .http "a_b".toList).matching := by
    decide
  have hstarts := ((hexact axb).mp (hserved.mpr hrow)).2
  revert hstarts
  unfold StartsWith
  decide

end TokenSearch
