import Mathlib.Data.List.Sort
import Mathlib.Order.Basic

/-! # Keyset pagination — a list served in pages, by a cursor on its last row

    A listing has an ORDER BY key and, separately, a cursor: a value made from
    the last row of a page, and a predicate that the next page adds to its
    WHERE clause.  Nothing forces the two to speak of the same order.

    `Lossless` says that following the cursors from the first page serves
    every matching row exactly once and in order.  At EVERY page size it holds
    just when the listing is `Coherent` (`lossless_iff`): no two rows tie in
    the order, and the cursor of a row is accepted and admits every row after
    it.  One page size alone would not do: a row is only at a page edge for
    some of them, and a page of one row puts every row there.

    The rule asks two things of the cursor: admission is transitive on the
    matching rows, and no row admits one tied with it. -/

namespace Keyset

variable {Row Cursor E K M : Type}

/-- Rows by a key, ties in the order they came. -/
def orderBy [LinearOrder K] (key : Row → K) (rows : List Row) : List Row :=
  rows.insertionSort (fun a b => key a ≤ key b)

theorem orderBy_perm [LinearOrder K] (key : Row → K) (rows : List Row) :
    (orderBy key rows).Perm rows :=
  List.perm_insertionSort _ rows

theorem orderBy_pairwise [LinearOrder K] (key : Row → K)
    (rows : List Row) :
    (orderBy key rows).Pairwise (fun a b => key a ≤ key b) := by
  have htotal : Std.Total (fun a b : Row => key a ≤ key b) :=
    ⟨fun a b => le_total _ _⟩
  have htrans : IsTrans Row (fun a b => key a ≤ key b) :=
    ⟨fun _ _ _ => le_trans⟩
  exact List.pairwise_insertionSort _ rows

/-- Rows without ties are in strict order. -/
theorem orderBy_strict [LinearOrder K] {key : Row → K} {rows : List Row}
    (h : rows.Pairwise (fun a b => key a ≠ key b)) :
    (orderBy key rows).Pairwise (fun a b => key a < key b) :=
  (orderBy_pairwise key rows).imp₂ (fun _ _ h h' => lt_of_le_of_ne h h')
    ((orderBy_perm key rows).symm.pairwise h (fun h => h.symm))

/-- `DISTINCT ON`: the first row of each key. -/
def distinctOn [DecidableEq K] (key : Row → K) : List Row → List Row
  | [] => []
  | a :: rows => a :: (distinctOn key rows).filter (fun b => key b ≠ key a)

/-- One list query.  `matching` is what its WHERE clause keeps before any
    cursor, `order` its ORDER BY, `mark` the cursor made from a row. -/
structure Listing (Row Cursor E K : Type) where
  matching : List Row
  order : Row → K
  mark : Row → Except E Cursor
  accepts : Cursor → Except E Unit
  admits : Cursor → Row → Bool

theorem mem_of_mem_distinctOn [DecidableEq K] {key : Row → K} {a : Row} :
    ∀ {rows : List Row}, a ∈ distinctOn key rows → a ∈ rows := by
  intro rows
  induction rows with
  | nil => exact id
  | cons b rows ih =>
      intro h
      rcases List.mem_cons.mp h with rfl | h'
      · exact List.mem_cons_self ..
      · exact List.mem_cons_of_mem _ (ih (List.mem_of_mem_filter h'))

/-- `DISTINCT ON` leaves one row a key. -/
theorem distinctOn_pairwise [DecidableEq K] (key : Row → K)
    (rows : List Row) :
    (distinctOn key rows).Pairwise (fun a b => key a ≠ key b) := by
  induction rows with
  | nil => exact List.Pairwise.nil
  | cons a rows ih =>
      refine List.pairwise_cons.mpr ⟨?_, ih.filter _⟩
      intro b hb
      have hne : key b ≠ key a := by
        simpa using (List.mem_filter.mp hb).2
      exact hne.symm

namespace Listing

section Definitions

variable [LinearOrder K] (L : Listing Row Cursor E K)

/-- Rows by the ORDER BY. -/
def sorted (rows : List Row) : List Row := orderBy L.order rows

/-- `LIMIT limit+1`: the extra row only tells that there is a next page, and
    the cursor is made from the last row kept. -/
def cut (limit : Nat) (rows : List Row) :
    Except E (List Row × Option Cursor) :=
  let found := (L.sorted rows).take (limit + 1)
  if limit < found.length then
    let kept := found.take limit
    match kept.getLast? with
    | none => .ok (kept, none)
    | some last => do
        let next ← L.mark last
        .ok (kept, some next)
  else .ok (found, none)

/-- One page, from an absent or a presented cursor. -/
def page (limit : Nat) :
    Option Cursor → Except E (List Row × Option Cursor)
  | none => L.cut limit L.matching
  | some c => do
      L.accepts c
      L.cut limit (L.matching.filter (L.admits c))

/-- Following the cursors: `Pages limit raw served` when the pages from `raw`
    on end, and serve `served`. -/
inductive Pages (limit : Nat) : Option Cursor → List Row → Prop
  | last {raw items} : L.page limit raw = .ok (items, none) →
      Pages limit raw items
  | more {raw items c rest} : L.page limit raw = .ok (items, some c) →
      Pages limit (some c) rest → Pages limit raw (items ++ rest)

/-- Every matching row exactly once, in the order of the query. -/
def Lossless (limit : Nat) : Prop :=
  ∃ served, L.Pages limit none served ∧ served.Perm L.matching ∧
    served.Pairwise (fun a b => L.order a ≤ L.order b)

end Definitions

/-- The cursor of `a` exists, is accepted, and admits `b`. -/
def Follows (L : Listing Row Cursor E K) (a b : Row) : Prop :=
  ∃ c, L.mark a = .ok c ∧ L.accepts c = .ok () ∧ L.admits c b = true

/-- The row is not the last one of the order. -/
def Continued [LinearOrder K] (L : Listing Row Cursor E K) (a : Row) : Prop :=
  ∃ b ∈ L.matching, L.order a < L.order b

/-- No two rows tie, and every row is followed by all the rows after it. -/
def Coherent [LinearOrder K] (L : Listing Row Cursor E K) : Prop :=
  L.matching.Pairwise (fun a b => L.order a ≠ L.order b) ∧
  ∀ a ∈ L.matching, ∀ b ∈ L.matching, L.order a < L.order b → L.Follows a b

variable [LinearOrder K] {L : Listing Row Cursor E K}

omit [LinearOrder K] in
theorem follows_iff {a b : Row} {c : Cursor} (hc : L.mark a = .ok c) :
    L.Follows a b ↔ L.accepts c = .ok () ∧ L.admits c b = true := by
  constructor
  · rintro ⟨c', hc', hok, hadm⟩
    rw [hc] at hc'
    cases hc'
    exact ⟨hok, hadm⟩
  · rintro ⟨hok, hadm⟩
    exact ⟨c, hc, hok, hadm⟩

/-! ## Sorting -/

theorem sorted_perm (rows : List Row) : (L.sorted rows).Perm rows :=
  orderBy_perm _ rows

theorem sorted_pairwise (rows : List Row) :
    (L.sorted rows).Pairwise (fun a b => L.order a ≤ L.order b) :=
  orderBy_pairwise _ rows

/-- A list without ties is the one sorting of its rows. -/
theorem sorted_eq {l rows : List Row}
    (hl : l.Pairwise (fun a b => L.order a < L.order b))
    (hperm : l.Perm rows) : L.sorted rows = l := by
  have hmem : ((L.sorted rows).Perm l) :=
    (sorted_perm rows).trans hperm.symm
  have hne : (L.sorted rows).Pairwise (fun a b => L.order a ≠ L.order b) :=
    hmem.symm.pairwise (hl.imp ne_of_lt) (fun h => h.symm)
  have hlt : (L.sorted rows).Pairwise (fun a b => L.order a < L.order b) :=
    (sorted_pairwise rows).imp₂ (fun _ _ h h' => lt_of_le_of_ne h h') hne
  exact hmem.eq_of_pairwise
    (fun a b _ _ h h' => absurd h' (not_lt_of_gt h)) hlt hl

/-! ## From a coherent listing to its pages -/

section Serving

variable {l : List Row}

omit [LinearOrder K] in
/-- The cursor of a row cuts a followed list right after that row. -/
theorem admitted
    (htrans : ∀ a ∈ l, ∀ b ∈ l, ∀ c ∈ l,
      L.Follows a b → L.Follows b c → L.Follows a c)
    (hirrefl : ∀ a ∈ l, ¬ L.Follows a a)
    {p q : List Row} {a : Row} {c : Cursor} (hsplit : l = p ++ a :: q)
    (hl : l.Pairwise L.Follows)
    (hc : L.mark a = .ok c) (hok : L.accepts c = .ok ()) :
    l.filter (L.admits c) = q := by
  have hiff : ∀ b, L.admits c b = true ↔ L.Follows a b := by
    intro b
    rw [follows_iff hc, and_iff_right hok]
  have hsub : ∀ x ∈ p ++ a :: q, x ∈ l := by
    intro x hx
    rwa [hsplit]
  rw [hsplit] at hl
  obtain ⟨-, haq, hpa⟩ := List.pairwise_append.mp hl
  -- nothing up to the row itself is admitted, everything after it is
  have hp : p.filter (L.admits c) = [] := by
    rw [List.filter_eq_nil_iff]
    intro x hx hadm
    have hax : L.Follows a x := (hiff x).mp hadm
    have hxa : L.Follows x a := hpa x hx a (by simp)
    exact hirrefl a (hsub a (by simp))
      (htrans a (hsub a (by simp)) x (hsub x (by simp [hx])) a
        (hsub a (by simp)) hax hxa)
  have ha : L.admits c a = false := by
    rw [Bool.eq_false_iff]
    intro hadm
    exact hirrefl a (hsub a (by simp)) ((hiff a).mp hadm)
  have hq : q.filter (L.admits c) = q := by
    rw [List.filter_eq_self]
    intro x hx
    exact (hiff x).mpr ((List.pairwise_cons.mp haq).1 x hx)
  rw [hsplit, List.filter_append, hp, List.filter_cons, ha, hq]
  rfl

/-- The pages of a followed list from any of its suffixes on. -/
theorem pages_of_suffix {limit : Nat} (hlimit : 1 ≤ limit)
    (hperm : l.Perm L.matching)
    (hlt : l.Pairwise (fun a b => L.order a < L.order b))
    (hl : l.Pairwise L.Follows)
    (htrans : ∀ a ∈ l, ∀ b ∈ l, ∀ c ∈ l,
      L.Follows a b → L.Follows b c → L.Follows a c)
    (hirrefl : ∀ a ∈ l, ¬ L.Follows a a) :
    ∀ (n : Nat) (p q : List Row) (raw : Option Cursor) (rows : List Row),
      q.length ≤ n → l = p ++ q → L.page limit raw = L.cut limit rows →
      L.sorted rows = q → L.Pages limit raw q := by
  intro n
  induction n with
  | zero =>
      intro p q raw rows hlen _ hpage hrows
      have hq : q = [] := List.length_eq_zero_iff.mp (by omega)
      subst hq
      exact Pages.last (by rw [hpage, cut, hrows]; simp)
  | succ n ih =>
      intro p q raw rows hlen hsplit hpage hrows
      by_cases hmore : limit < q.length
      · -- the page is `k ++ [a]`, and the row it could not hold is `b`
        have hk : q.take limit ≠ [] := by
          intro h
          have := congrArg List.length h
          simp only [List.length_take, List.length_nil] at this
          omega
        obtain ⟨k, a, hka⟩ : ∃ k a, q.take limit = k ++ [a] :=
          ⟨_, _, (List.dropLast_append_getLast hk).symm⟩
        obtain ⟨b, r, hbr⟩ : ∃ b r, q.drop limit = b :: r := by
          cases hd : q.drop limit with
          | nil =>
              have := congrArg List.length hd
              simp only [List.length_drop, List.length_nil] at this
              omega
          | cons b r => exact ⟨b, r, rfl⟩
        have hq : q = (k ++ [a]) ++ b :: r := by
          rw [← hka, ← hbr, List.take_append_drop]
        have hwhole : l = (p ++ k) ++ a :: (b :: r) := by
          rw [hsplit, hq]
          simp
        have hab : L.Follows a b := by
          rw [hwhole] at hl
          exact (List.pairwise_cons.mp
            (List.pairwise_append.mp hl).2.1).1 b (by simp)
        obtain ⟨c, hc, hok, -⟩ := hab
        have hcut : L.cut limit rows = .ok (q.take limit, some c) := by
          have htake : (q.take (limit + 1)).take limit = q.take limit := by
            rw [List.take_take]
            congr 1
            omega
          have hcount : limit < (q.take (limit + 1)).length := by
            rw [List.length_take]
            omega
          simp only [cut, hrows, if_pos hcount, htake, hka,
            List.getLast?_append, List.getLast?_singleton, Option.some_or, hc]
          rfl
        have hnext : L.page limit (some c) =
            L.cut limit (L.matching.filter (L.admits c)) := by
          simp only [page, hok]
          rfl
        have hfilter : (l.filter (L.admits c)) = b :: r :=
          admitted htrans hirrefl hwhole hl hc hok
        have hrest : L.sorted (L.matching.filter (L.admits c)) = b :: r := by
          rw [← hfilter]
          exact sorted_eq (hlt.filter _) (hperm.filter _)
        have hshort : (b :: r).length ≤ n := by
          have := congrArg List.length hbr
          simp only [List.length_drop] at this
          omega
        have htail : L.Pages limit (some c) (b :: r) :=
          ih (p ++ k ++ [a]) (b :: r) (some c) _ hshort
            (by rw [hwhole]; simp) hnext hrest
        have hqq : q = q.take limit ++ b :: r := by
          rw [← hbr, List.take_append_drop]
        rw [hqq]
        exact Pages.more (hpage.trans hcut) htail
      · have htake : q.take (limit + 1) = q :=
          List.take_of_length_le (by omega)
        exact Pages.last (by rw [hpage, cut, hrows, htake]; simp [hmore])

end Serving

/-! ## From the pages of one row to coherence -/

/-- What a page of one row is: nothing more to come and at most one row, or
    one row and the cursor made from it. -/
theorem cut_one {rows : List Row} {items : List Row} {next : Option Cursor}
    (h : L.cut 1 rows = .ok (items, next)) :
    (∀ a ∈ items, a ∈ rows) ∧
    ((next = none ∧ items.length ≤ 1) ∨
      ∃ a c, items = [a] ∧ next = some c ∧ L.mark a = .ok c) := by
  have hmem : ∀ a ∈ L.sorted rows, a ∈ rows := by
    intro a ha
    exact (sorted_perm rows).mem_iff.mp ha
  revert h
  cases hs : L.sorted rows with
  | nil =>
      intro h
      simp only [cut, hs, List.take_nil, List.length_nil] at h
      cases h
      exact ⟨by simp, Or.inl ⟨rfl, by simp⟩⟩
  | cons a r =>
      rw [hs] at hmem
      have ha : a ∈ rows := hmem a (by simp)
      cases r with
      | nil =>
          intro h
          simp only [cut, hs] at h
          cases h
          exact ⟨by simpa using ha, Or.inl ⟨rfl, by simp⟩⟩
      | cons b r =>
          intro h
          simp only [cut, hs] at h
          cases hm : L.mark a with
          | error e =>
              simp [hm, bind, Except.bind] at h
          | ok c =>
              simp only [List.take_succ_cons, List.take_zero,
                List.length_cons, List.length_nil, List.getLast?_singleton,
                hm, bind, Except.bind] at h
              cases h
              exact ⟨by simpa using ha, Or.inr ⟨a, c, rfl, rfl, hm⟩⟩

/-- A page with a cursor ends at the row of its limit, and the cursor is that
    row's. -/
theorem cut_cursor {limit : Nat} {rows items : List Row} {c : Cursor}
    (h : L.cut limit rows = .ok (items, some c)) :
    ∃ last, items.getLast? = some last ∧ L.mark last = .ok c ∧
      (L.sorted rows)[limit - 1]? = some last ∧ last ∈ rows := by
  unfold cut at h
  dsimp only at h
  split at h
  case isFalse => cases h
  case isTrue hlong =>
      split at h
      case h_1 => cases h
      case h_2 last hlast =>
          cases hmark : L.mark last with
          | error e =>
              rw [hmark] at h
              cases h
          | ok next =>
              rw [hmark] at h
              cases h
              refine ⟨last, hlast, hmark, ?_, ?_⟩
              · rw [List.take_take, List.getLast?_eq_getElem?,
                  List.getElem?_take] at hlast
                simp only [List.length_take] at hlast hlong
                rw [show min (min limit (limit + 1)) (L.sorted rows).length =
                  limit by omega] at hlast
                split at hlast
                · exact hlast
                · cases hlast
              · have hmem := List.mem_of_getLast? hlast
                exact (sorted_perm rows).mem_iff.mp
                  (List.mem_of_mem_take (List.mem_of_mem_take hmem))

/-- Served one at a time, every row follows the ones before it. -/
theorem pages_one
    (htrans : ∀ a ∈ L.matching, ∀ b ∈ L.matching, ∀ c ∈ L.matching,
      L.Follows a b → L.Follows b c → L.Follows a c)
    {raw : Option Cursor} {served : List Row} (h : L.Pages 1 raw served) :
    (∀ a ∈ served, a ∈ L.matching) ∧ served.Pairwise L.Follows ∧
    ∀ c, raw = some c →
      L.accepts c = .ok () ∧ ∀ b r, served = b :: r → L.admits c b := by
  -- what a presented cursor had to pass
  have hpassed : ∀ (raw : Option Cursor) (out : List Row × Option Cursor),
      L.page 1 raw = .ok out → ∃ rows, L.cut 1 rows = .ok out ∧
        (∀ a ∈ rows, a ∈ L.matching) ∧
        ∀ c, raw = some c →
          L.accepts c = .ok () ∧ ∀ a ∈ rows, L.admits c a := by
    intro raw out hp
    cases raw with
    | none => exact ⟨L.matching, hp, fun a ha => ha, by simp⟩
    | some c =>
        cases hacc : L.accepts c with
        | error e =>
            simp only [page, hacc] at hp
            cases hp
        | ok u =>
            refine ⟨L.matching.filter (L.admits c), ?_, ?_, ?_⟩
            · rw [page, hacc] at hp
              exact hp
            · intro a ha
              exact List.mem_of_mem_filter ha
            · rintro c' ⟨⟩
              exact ⟨hacc, fun a ha => (List.mem_filter.mp ha).2⟩
  induction h with
  | @last raw items hp =>
      obtain ⟨rows, hcut, hrows, hraw⟩ := hpassed raw _ hp
      obtain ⟨hsub, hcase⟩ := cut_one hcut
      have hlen : items.length ≤ 1 := by
        rcases hcase with ⟨-, hlen⟩ | ⟨a, c, -, hnone, -⟩
        · exact hlen
        · cases hnone
      refine ⟨fun a ha => hrows a (hsub a ha), ?_, ?_⟩
      · match items, hlen with
        | [], _ => exact List.Pairwise.nil
        | [a], _ => exact List.pairwise_singleton _ a
      · intro c hc
        refine ⟨(hraw c hc).1, ?_⟩
        rintro b r rfl
        exact (hraw c hc).2 b (hsub b (by simp))
  | @more raw items c rest hp _ ih =>
      obtain ⟨hmem, hpair, hhead⟩ := ih
      obtain ⟨rows, hcut, hrows, hraw⟩ := hpassed raw _ hp
      obtain ⟨hsub, hcase⟩ := cut_one hcut
      rcases hcase with ⟨hnone, -⟩ | ⟨a, c', rfl, hnext, hmark⟩
      · cases hnone
      · cases hnext
        have ha : a ∈ L.matching := hrows a (hsub a (by simp))
        obtain ⟨hok, hfirst⟩ := hhead c rfl
        -- the next row is admitted by the cursor, the later ones through it
        have hall : ∀ x ∈ rest, L.Follows a x := by
          cases rest with
          | nil => simp
          | cons b r =>
              have hab : L.Follows a b := ⟨c, hmark, hok, hfirst b r rfl⟩
              intro x hx
              rcases List.mem_cons.mp hx with rfl | hx
              · exact hab
              · exact htrans a ha b (hmem b (by simp)) x
                  (hmem x (by simp [hx])) hab
                  ((List.pairwise_cons.mp hpair).1 x hx)
        refine ⟨?_, ?_, ?_⟩
        · intro x hx
          rcases List.mem_cons.mp hx with rfl | hx
          · exact ha
          · exact hmem x hx
        · exact List.pairwise_cons.mpr ⟨hall, hpair⟩
        · intro c'' hc''
          refine ⟨(hraw c'' hc'').1, ?_⟩
          rintro b r ⟨⟩
          exact (hraw c'' hc'').2 a (hsub a (by simp))

/-! ## The rule -/

/-- A followed list has no ties. -/
theorem order_lt
    (htie : ∀ a ∈ L.matching, ∀ b ∈ L.matching, L.order a = L.order b →
      ¬ L.Follows a b)
    {l : List Row} (hmem : ∀ a ∈ l, a ∈ L.matching)
    (hle : l.Pairwise (fun a b => L.order a ≤ L.order b))
    (hl : l.Pairwise L.Follows) :
    l.Pairwise (fun a b => L.order a < L.order b) := by
  refine (hle.and hl).imp_of_mem ?_
  rintro a b ha hb ⟨hab, hf⟩
  exact lt_of_le_of_ne hab
    (fun heq => htie a (hmem a ha) b (hmem b hb) heq hf)

/-- In a strictly ordered list, being before is having the smaller key. -/
theorem follows_of_order {l : List Row} (hl : l.Pairwise L.Follows)
    (hlt : l.Pairwise (fun a b => L.order a < L.order b)) {a b : Row}
    (ha : a ∈ l) (hb : b ∈ l) (hab : L.order a < L.order b) :
    L.Follows a b := by
  induction l with
  | nil => cases ha
  | cons x xs ih =>
      obtain ⟨hx, hxs⟩ := List.pairwise_cons.mp hl
      obtain ⟨hy, hys⟩ := List.pairwise_cons.mp hlt
      rcases List.mem_cons.mp ha with rfl | ha'
      · rcases List.mem_cons.mp hb with rfl | hb'
        · exact absurd hab (lt_irrefl _)
        · exact hx b hb'
      · rcases List.mem_cons.mp hb with rfl | hb'
        · exact absurd hab (not_lt_of_gt (hy a ha'))
        · exact ih hxs hys ha' hb'

/-- **LOSSLESS IFF COHERENT**: keyset pagination loses and repeats nothing at
    any page size just when the cursor of every row is accepted and admits
    the rows after it, and no two rows tie. -/
theorem lossless_iff {most : Nat} (hmost : 1 ≤ most)
    (htrans : ∀ a ∈ L.matching, ∀ b ∈ L.matching, ∀ c ∈ L.matching,
      L.Follows a b → L.Follows b c → L.Follows a c)
    (htie : ∀ a ∈ L.matching, ∀ b ∈ L.matching, L.order a = L.order b →
      ¬ L.Follows a b) :
    (∀ limit, 1 ≤ limit → limit ≤ most → L.Lossless limit) ↔
      L.Coherent := by
  constructor
  · intro hall
    obtain ⟨served, hpages, hperm, hle⟩ := hall 1 le_rfl hmost
    obtain ⟨hmem, hfollows, -⟩ := pages_one htrans hpages
    have hlt := order_lt htie hmem hle hfollows
    refine ⟨hperm.pairwise (hlt.imp ne_of_lt) (fun h => h.symm), ?_⟩
    intro a ha b hb hab
    exact follows_of_order hfollows hlt (hperm.mem_iff.mpr ha)
      (hperm.mem_iff.mpr hb) hab
  · rintro ⟨hne, hfollows⟩ limit hlimit -
    have hperm : (L.sorted L.matching).Perm L.matching := sorted_perm _
    have hlt : (L.sorted L.matching).Pairwise
        (fun a b => L.order a < L.order b) :=
      (sorted_pairwise L.matching).imp₂
        (fun _ _ h h' => lt_of_le_of_ne h h')
        (hperm.symm.pairwise hne (fun h => h.symm))
    have hl : (L.sorted L.matching).Pairwise L.Follows := by
      refine hlt.imp_of_mem ?_
      intro a b ha hb hab
      exact hfollows a (hperm.mem_iff.mp ha) b (hperm.mem_iff.mp hb) hab
    refine ⟨_, ?_, hperm, sorted_pairwise _⟩
    refine pages_of_suffix hlimit hperm hlt hl ?_ ?_ _ [] _ none L.matching
      le_rfl rfl rfl rfl
    · intro a ha b hb c hc
      exact htrans a (hperm.mem_iff.mp ha) b (hperm.mem_iff.mp hb) c
        (hperm.mem_iff.mp hc)
    · intro a ha
      exact htie a (hperm.mem_iff.mp ha) a (hperm.mem_iff.mp ha) rfl

/-- **THE RULE FOR A CURSOR KEY**: where the cursor of a valid row admits the
    rows with a greater cursor key, pagination is lossless just when rows do
    not tie, and each row that has a successor is valid and comes before its
    successors by the cursor key as well. -/
theorem lossless_iff_key [LinearOrder M] {most : Nat} (hmost : 1 ≤ most)
    (valid : Row → Prop) (key : Row → M)
    (hkey : ∀ a ∈ L.matching, ∀ b ∈ L.matching,
      (L.Follows a b ↔ valid a ∧ key a < key b))
    (htie : ∀ a ∈ L.matching, ∀ b ∈ L.matching, L.order a = L.order b →
      key a = key b) :
    (∀ limit, 1 ≤ limit → limit ≤ most → L.Lossless limit) ↔
      L.matching.Pairwise (fun a b => L.order a ≠ L.order b) ∧
      ∀ a ∈ L.matching, ∀ b ∈ L.matching, L.order a < L.order b →
        valid a ∧ key a < key b := by
  have hiff := lossless_iff (L := L) hmost
    (by
      intro a ha b hb c hc hab hbc
      obtain ⟨hva, hkab⟩ := (hkey a ha b hb).mp hab
      obtain ⟨-, hkbc⟩ := (hkey b hb c hc).mp hbc
      exact (hkey a ha c hc).mpr ⟨hva, hkab.trans hkbc⟩)
    (by
      intro a ha b hb heq hab
      have hlt := ((hkey a ha b hb).mp hab).2
      exact absurd (htie a ha b hb heq) (ne_of_lt hlt))
  rw [hiff, Coherent]
  refine and_congr_right (fun _ => ?_)
  constructor
  · intro h a ha b hb hab
    exact (hkey a ha b hb).mp (h a ha b hb hab)
  · intro h a ha b hb hab
    exact (hkey a ha b hb).mpr (h a ha b hb hab)

/-- **THE RULE FOR A CURSOR THAT IS ITS ORDER**: where rows do not tie and the
    cursor of a valid row admits the rows after it, pagination is lossless
    just when every row that has a successor is valid. -/
theorem lossless_iff_valid {most : Nat} (hmost : 1 ≤ most)
    (valid : Row → Prop)
    (hfollows : ∀ a ∈ L.matching, ∀ b ∈ L.matching,
      (L.Follows a b ↔ valid a ∧ L.order a < L.order b))
    (hne : L.matching.Pairwise (fun a b => L.order a ≠ L.order b)) :
    (∀ limit, 1 ≤ limit → limit ≤ most → L.Lossless limit) ↔
      ∀ a ∈ L.matching, L.Continued a → valid a := by
  rw [lossless_iff_key hmost valid L.order hfollows
    (fun _ _ _ _ h => h)]
  constructor
  · rintro ⟨-, h⟩ a ha ⟨b, hb, hab⟩
    exact (h a ha b hb hab).1
  · intro h
    refine ⟨hne, ?_⟩
    intro a ha b hb hab
    exact ⟨h a ha ⟨b, hb, hab⟩, hab⟩

/-- Where no cursor is accepted, only a single row is safe. -/
theorem lossless_iff_refused {most : Nat} (hmost : 1 ≤ most)
    (hrefused : ∀ a b, ¬ L.Follows a b) :
    (∀ limit, 1 ≤ limit → limit ≤ most → L.Lossless limit) ↔
      L.matching.length ≤ 1 := by
  rw [lossless_iff hmost (fun a _ b _ _ _ h _ => absurd h (hrefused a b))
    (fun a _ b _ _ => hrefused a b)]
  constructor
  · rintro ⟨hne, hall⟩
    rcases hm : L.matching with _ | ⟨a, _ | ⟨b, r⟩⟩
    · simp
    · simp
    · rw [hm] at hne hall
      have hab : L.order a ≠ L.order b :=
        (List.pairwise_cons.mp hne).1 b (by simp)
      rcases lt_or_gt_of_ne hab with h | h
      · exact absurd (hall a (by simp) b (by simp) h) (hrefused a b)
      · exact absurd (hall b (by simp) a (by simp) h) (hrefused b a)
  · intro hlen
    rcases hm : L.matching with _ | ⟨a, _ | ⟨b, r⟩⟩
    · simp [Coherent, hm]
    · simp [Coherent, hm]
    · rw [hm] at hlen
      simp at hlen

/-! ## What any run of pages serves -/

/-- A page without a cursor is all there is. -/
theorem cut_last {limit : Nat} (hlimit : 1 ≤ limit) {rows items : List Row}
    (h : L.cut limit rows = .ok (items, none)) : items = L.sorted rows := by
  unfold cut at h
  dsimp only at h
  split at h
  case isTrue hlong =>
      split at h
      case h_1 hlast =>
          -- a full page has a last row
          rw [List.getLast?_eq_none_iff] at hlast
          have hlen := congrArg List.length hlast
          simp only [List.length_take, List.length_nil] at hlen hlong
          omega
      case h_2 last hlast =>
          cases hmark : L.mark last with
          | error e =>
              rw [hmark] at h
              cases h
          | ok next =>
              rw [hmark] at h
              cases h
  case isFalse hshort =>
      cases h
      refine List.take_of_length_le ?_
      rw [List.length_take] at hshort
      omega

/-- A page with a cursor is the first rows of the order. -/
theorem cut_items {limit : Nat} {rows items : List Row} {c : Cursor}
    (h : L.cut limit rows = .ok (items, some c)) :
    items = (L.sorted rows).take limit := by
  unfold cut at h
  dsimp only at h
  split at h
  case isFalse => cases h
  case isTrue =>
      split at h
      case h_1 => cases h
      case h_2 last hlast =>
          cases hmark : L.mark last with
          | error e =>
              rw [hmark] at h
              cases h
          | ok next =>
              rw [hmark] at h
              cases h
              rw [List.take_take]
              congr 1
              omega

omit [LinearOrder K] in
/-- Of a strictly ordered list, the elements after the one in a place are
    those that are greater. -/
theorem filter_after {P : Type} [LinearOrder P] {key : Row → P} {a : Row} :
    ∀ {l : List Row} {n : Nat},
      l.Pairwise (fun x y => key x < key y) → l[n]? = some a →
      l.filter (fun x => key a < key x) = l.drop (n + 1) := by
  intro l
  induction l with
  | nil =>
      intro n _ h
      cases h
  | cons x l ih =>
      intro n hl h
      obtain ⟨hx, hl'⟩ := List.pairwise_cons.mp hl
      cases n with
      | zero =>
          cases h
          rw [List.filter_cons, if_neg (by simp), List.drop_succ_cons,
            List.drop_zero, List.filter_eq_self]
          intro y hy
          exact decide_eq_true (hx y hy)
      | succ n =>
          have ha : a ∈ l := List.mem_of_getElem? h
          have hlt : ¬ key a < key x := not_lt_of_gt (hx a ha)
          rw [List.filter_cons, if_neg (by simpa using hlt),
            List.drop_succ_cons]
          exact ih hl' h

/-- **WHAT IS SERVED**: where rows do not tie and an accepted cursor admits
    exactly the rows after its own, a run of pages that ends has served the
    rows it started from, in order. -/
theorem pages_eq_sorted {limit : Nat} (hlimit : 1 ≤ limit)
    (hne : L.matching.Pairwise (fun a b => L.order a ≠ L.order b))
    (hadmits : ∀ a ∈ L.matching, ∀ c, L.mark a = .ok c →
      L.accepts c = .ok () → ∀ b ∈ L.matching,
        (L.admits c b = true ↔ L.order a < L.order b))
    {raw : Option Cursor} {served : List Row}
    (h : L.Pages limit raw served) :
    ∀ p : Row → Bool,
      (∀ a ∈ L.matching, ∀ b ∈ L.matching, p a = true →
        L.order a < L.order b → p b = true) →
      L.page limit raw = L.cut limit (L.matching.filter p) →
      served = L.sorted (L.matching.filter p) := by
  induction h with
  | last hpage =>
      intro p _ hcut
      rw [hpage] at hcut
      exact cut_last hlimit hcut.symm
  | @more raw items c rest hpage hrest ih =>
      intro p hup hcut
      rw [hpage] at hcut
      have hcut := hcut.symm
      obtain ⟨last, -, hmark, hplace, hmem⟩ := cut_cursor hcut
      obtain ⟨hlast, hp⟩ := List.mem_filter.mp hmem
      have hok : L.accepts c = .ok () := by
        have hany : ∃ out, L.page limit (some c) = .ok out := by
          cases hrest with
          | last h => exact ⟨_, h⟩
          | more h _ => exact ⟨_, h⟩
        obtain ⟨out, hout⟩ := hany
        cases haccepts : L.accepts c with
        | error e =>
            simp only [page, haccepts] at hout
            cases hout
        | ok u => rfl
      have hnext : L.page limit (some c) = L.cut limit (L.matching.filter
          (fun b => decide (L.order last < L.order b))) := by
        simp only [page, hok]
        show L.cut limit _ = _
        congr 1
        refine List.filter_congr ?_
        intro b hb
        have hiff := hadmits last hlast c hmark hok b hb
        rw [Bool.eq_iff_iff, hiff, decide_eq_true_eq]
      have htail := ih _ (by
        intro a _ b _ ha hab
        rw [decide_eq_true_eq] at ha ⊢
        exact ha.trans hab) hnext
      -- the rows after the last one, among the rows of this page's query
      have hlt : (L.sorted (L.matching.filter p)).Pairwise
          (fun a b => L.order a < L.order b) :=
        (sorted_pairwise _).imp₂ (fun _ _ h h' => lt_of_le_of_ne h h')
          ((sorted_perm _).symm.pairwise (hne.filter _) (fun h => h.symm))
      have hdrop := filter_after hlt hplace
      have hafter : L.sorted (L.matching.filter
          (fun b => decide (L.order last < L.order b))) =
          (L.sorted (L.matching.filter p)).drop (limit - 1 + 1) := by
        rw [← hdrop]
        refine sorted_eq (hlt.filter _) ?_
        refine ((sorted_perm _).filter _).trans ?_
        rw [List.filter_filter]
        refine List.Perm.of_eq (List.filter_congr ?_)
        intro b hb
        cases hlb : decide (L.order last < L.order b) with
        | false => rfl
        | true =>
            rw [decide_eq_true_eq] at hlb
            rw [hup last hlast b hb hp hlb]
            rfl
      rw [htail, hafter, cut_items hcut, Nat.sub_add_cancel hlimit,
        List.take_append_drop]

/-- A run from the first page serves every matching row. -/
theorem pages_first {limit : Nat} (hlimit : 1 ≤ limit)
    (hne : L.matching.Pairwise (fun a b => L.order a ≠ L.order b))
    (hadmits : ∀ a ∈ L.matching, ∀ c, L.mark a = .ok c →
      L.accepts c = .ok () → ∀ b ∈ L.matching,
        (L.admits c b = true ↔ L.order a < L.order b))
    {served : List Row} (h : L.Pages limit none served) :
    served = L.sorted L.matching := by
  have hall : L.matching.filter (fun _ => true) = L.matching :=
    List.filter_eq_self.mpr (fun _ _ => rfl)
  have := pages_eq_sorted hlimit hne hadmits h (fun _ => true)
    (fun _ _ _ _ _ _ => rfl) (by rw [hall]; rfl)
  rwa [hall] at this

/-- Such a listing is lossless as soon as following it comes to an end. -/
theorem lossless_iff_pages {limit : Nat} (hlimit : 1 ≤ limit)
    (hne : L.matching.Pairwise (fun a b => L.order a ≠ L.order b))
    (hadmits : ∀ a ∈ L.matching, ∀ c, L.mark a = .ok c →
      L.accepts c = .ok () → ∀ b ∈ L.matching,
        (L.admits c b = true ↔ L.order a < L.order b)) :
    L.Lossless limit ↔ ∃ served, L.Pages limit none served := by
  constructor
  · rintro ⟨served, h, -⟩
    exact ⟨served, h⟩
  · rintro ⟨served, h⟩
    have hserved := pages_first hlimit hne hadmits h
    refine ⟨served, h, ?_, ?_⟩
    · rw [hserved]
      exact sorted_perm _
    · rw [hserved]
      exact sorted_pairwise _

/-! ## Rows that are added while the pages are read -/

section Growth

/-- Following the cursors while the rows change: the page of each request is
    that of the listing at its own time. -/
inductive Growing (L : Nat → Listing Row Cursor E K) (limit : Nat) :
    Option Cursor → List Nat → List Row → Prop
  | last {raw n items} : (L n).page limit raw = .ok (items, none) →
      Growing L limit raw [n] items
  | more {raw n items c ns rest} :
      (L n).page limit raw = .ok (items, some c) →
      Growing L limit (some c) ns rest →
      Growing L limit raw (n :: ns) (items ++ rest)

variable {L : Nat → Listing Row Cursor E K}

/-- There is a first request. -/
theorem Growing.head {limit : Nat} {raw : Option Cursor} {ns : List Nat}
    {served : List Row} (h : Growing L limit raw ns served) :
    ∃ first later, ns = first :: later := by
  cases h with
  | last => exact ⟨_, [], rfl⟩
  | more => exact ⟨_, _, rfl⟩

theorem page_some {L : Listing Row Cursor E K} {limit : Nat} {c : Cursor}
    {out : List Row × Option Cursor} (h : L.page limit (some c) = .ok out) :
    L.cut limit (L.matching.filter (L.admits c)) = .ok out := by
  cases haccepts : L.accepts c with
  | error e =>
      simp only [page, haccepts] at h
      cases h
  | ok u =>
      simp only [page, haccepts] at h
      exact h

/-- **ADDED IN FRONT**: where the cursors of the first rows are answered the
    same at every later time, the pages are those of the first time. -/
theorem pages_of_growing {limit first : Nat}
    (hsame : ∀ n, first ≤ n → ∀ a ∈ (L first).matching, ∀ c,
      (L first).mark a = .ok c →
        (L n).page limit (some c) = (L first).page limit (some c))
    {raw : Option Cursor} {ns : List Nat} {served : List Row}
    (h : Growing L limit raw ns served) :
    (∀ n ∈ ns, first ≤ n) →
    (∀ n ∈ ns.head?, (L n).page limit raw = (L first).page limit raw) →
      (L first).Pages limit raw served := by
  induction h with
  | last hpage =>
      intro _ hraw
      rw [hraw _ rfl] at hpage
      exact Pages.last hpage
  | @more raw n items c ns rest hpage hrest ih =>
      intro hlater hraw
      rw [hraw n rfl] at hpage
      refine Pages.more hpage (ih ?_ ?_)
      · intro m hm
        exact hlater m (List.mem_cons_of_mem _ hm)
      · intro m hm
        -- the cursor is that of a row of the first time
        obtain ⟨a, ha, hmark⟩ : ∃ a ∈ (L first).matching,
            (L first).mark a = .ok c := by
          cases raw with
          | none =>
              obtain ⟨a, -, hmark, -, ha⟩ := cut_cursor hpage
              exact ⟨a, ha, hmark⟩
          | some c' =>
              obtain ⟨a, -, hmark, -, ha⟩ := cut_cursor (page_some hpage)
              exact ⟨a, List.mem_of_mem_filter ha, hmark⟩
        refine hsame m ?_ a ha c hmark
        exact hlater m (List.mem_cons_of_mem _ (List.mem_of_mem_head? hm))

end Growth

end Listing

end Keyset
