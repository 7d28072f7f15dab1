import Cooket.KeysetProofs

/-! # Keyed tables whose rows can be withdrawn

    A TABLE holds rows under a primary key.  A row is never deleted: it carries
    a flag, and withdrawing it (`orphan`) only clears the flag.  Inserting
    under a key that is there already overwrites that row and sets its flag
    again (`upsert`).

    Readers see the LIVE rows, those whose flag is set.  Two tables are `Same`
    when they agree on these, in whatever order and beside whatever withdrawn
    rows.  A query that sorts by a rank no two rows share cannot tell `Same`
    tables apart (`orderBy_perm`). -/

namespace RowTable

open Keyset

variable {B K : Type}

/-- A stored row. -/
structure Row (B : Type) where
  body : B
  isCanonical : Bool
  deriving DecidableEq, Repr

/-- Rows under a primary key. -/
structure Table (key : B → K) where
  rows : List (Row B)
  primary : (rows.map (fun r => key r.body)).Nodup

namespace Table

variable {key : B → K}

def empty : Table key := ⟨[], List.nodup_nil⟩

/-- The live rows. -/
def live (t : Table key) : List B :=
  (t.rows.filter (·.isCanonical)).map (·.body)

/-- `UPDATE … SET is_canonical=false WHERE …`. -/
def orphan (p : B → Bool) (t : Table key) : Table key where
  rows := t.rows.map fun r => if p r.body then ⟨r.body, false⟩ else r
  primary := by
    rw [List.map_map]
    refine (congrArg List.Nodup (List.map_congr_left ?_)).mp t.primary
    intro r _
    by_cases h : p r.body = true <;> simp [h]

/-- `INSERT … ON CONFLICT … DO UPDATE SET …, is_canonical=true`. -/
def upsert [DecidableEq K] (t : Table key) (b : B) : Table key :=
  if h : key b ∈ t.rows.map (fun r => key r.body) then
    { rows := t.rows.map fun r => if key r.body = key b then ⟨b, true⟩ else r
      primary := by
        rw [List.map_map]
        refine (congrArg List.Nodup (List.map_congr_left ?_)).mp t.primary
        intro r _
        by_cases hr : key r.body = key b <;> simp [hr] }
  else
    { rows := t.rows ++ [⟨b, true⟩]
      primary := by
        rw [List.map_append]
        refine List.Nodup.append t.primary (List.nodup_singleton _) ?_
        simpa [List.disjoint_singleton] using h }

/-- The row stored under a key, live or not. -/
def stored [DecidableEq K] (t : Table key) (k : K) : Option B :=
  (t.rows.find? (fun r => key r.body = k)).map (·.body)

/-! ## What is live -/

@[simp] theorem live_empty : (empty : Table key).live = [] := rfl

theorem mem_live {t : Table key} {b : B} : b ∈ t.live ↔ ⟨b, true⟩ ∈ t.rows := by
  constructor
  · intro h
    obtain ⟨r, hr, rfl⟩ := List.mem_map.mp h
    obtain ⟨hmem, hflag⟩ := List.mem_filter.mp hr
    have hrow : (⟨r.body, true⟩ : Row B) = r := by
      cases r
      simp_all
    rwa [hrow]
  · intro h
    exact List.mem_map.mpr ⟨⟨b, true⟩, List.mem_filter.mpr ⟨h, rfl⟩, rfl⟩

theorem live_keys_nodup (t : Table key) : (t.live.map key).Nodup := by
  rw [live, List.map_map]
  exact (List.filter_sublist.map _).nodup t.primary

/-- A key names one live row. -/
theorem live_eq_of_key {t : Table key} {a b : B} (ha : a ∈ t.live)
    (hb : b ∈ t.live) (h : key a = key b) : a = b :=
  List.inj_on_of_nodup_map t.live_keys_nodup ha hb h

theorem live_nodup (t : Table key) : t.live.Nodup :=
  List.Nodup.of_map key t.live_keys_nodup

/-- **WITHDRAWING** keeps the live rows outside the predicate. -/
theorem live_orphan (p : B → Bool) (t : Table key) :
    (t.orphan p).live = t.live.filter (fun b => !p b) := by
  simp only [live, orphan]
  generalize t.rows = rows
  induction rows with
  | nil => rfl
  | cons r rows ih =>
      by_cases hp : p r.body = true <;> by_cases hc : r.isCanonical = true <;>
        simp_all

section Keyed

variable [DecidableEq K]

theorem mem_live_upsert {t : Table key} {b c : B} :
    c ∈ (t.upsert b).live ↔ c = b ∨ (c ∈ t.live ∧ key c ≠ key b) := by
  rw [mem_live, mem_live, upsert]
  split
  · next hin =>
    rw [List.mem_map]
    constructor
    · rintro ⟨r, hr, heq⟩
      by_cases hkey : key r.body = key b
      · rw [if_pos hkey] at heq
        exact Or.inl (congrArg Row.body heq).symm
      · rw [if_neg hkey] at heq
        subst heq
        exact Or.inr ⟨hr, hkey⟩
    · rintro (rfl | ⟨hc, hkey⟩)
      · obtain ⟨r, hr, hrkey⟩ := List.mem_map.mp hin
        exact ⟨r, hr, if_pos hrkey⟩
      · exact ⟨⟨c, true⟩, hc, if_neg hkey⟩
  · next hout =>
    rw [List.mem_append, List.mem_singleton]
    constructor
    · rintro (hc | heq)
      · refine Or.inr ⟨hc, ?_⟩
        intro hkey
        exact hout (hkey ▸ List.mem_map.mpr ⟨_, hc, rfl⟩)
      · exact Or.inl (congrArg Row.body heq)
    · rintro (rfl | ⟨hc, -⟩)
      · exact Or.inr rfl
      · exact Or.inl hc

/-- The row stored under the key of a live row is that row. -/
theorem stored_of_live {t : Table key} {b : B} (h : b ∈ t.live) :
    t.stored (key b) = some b := by
  have hrow := mem_live.mp h
  have hfind := List.find?_isSome (p := fun r : Row B => decide (key r.body = key b))
    |>.mpr ⟨_, hrow, by simp⟩
  obtain ⟨r, hr⟩ := Option.isSome_iff_exists.mp hfind
  have hkey : key r.body = key b := by
    simpa using List.find?_some hr
  have hsame : r = ⟨b, true⟩ :=
    List.inj_on_of_nodup_map t.primary (List.mem_of_find?_eq_some hr) hrow hkey
  rw [stored, hr, hsame]
  rfl

end Keyed

/-! ## Tables with the same live rows -/

/-- The live rows agree. -/
def Same (t u : Table key) : Prop := ∀ b, b ∈ t.live ↔ b ∈ u.live

theorem Same.refl (t : Table key) : t.Same t := fun _ => Iff.rfl

theorem Same.symm {t u : Table key} (h : t.Same u) : u.Same t :=
  fun b => (h b).symm

theorem Same.trans {t u v : Table key} (h : t.Same u) (h' : u.Same v) :
    t.Same v :=
  fun b => (h b).trans (h' b)

theorem Same.perm {t u : Table key} (h : t.Same u) : t.live.Perm u.live :=
  (List.perm_ext_iff_of_nodup t.live_nodup u.live_nodup).mpr h

theorem Same.upsert [DecidableEq K] {t u : Table key} (h : t.Same u) (b : B) :
    (t.upsert b).Same (u.upsert b) := by
  intro c
  rw [mem_live_upsert, mem_live_upsert, h c]

end Table

/-! ## Queries -/

/-- Sorting by a rank that tells rows apart does not see their order. -/
theorem orderBy_perm {R : Type} [LinearOrder R] {rank : B → R} {xs ys : List B}
    (h : xs.Perm ys)
    (hinj : ∀ a ∈ xs, ∀ b ∈ xs, rank a = rank b → a = b) :
    orderBy rank xs = orderBy rank ys := by
  have hx : (orderBy rank xs).Perm xs := List.perm_insertionSort _ xs
  have hy : (orderBy rank ys).Perm ys := List.perm_insertionSort _ ys
  have htotal : Std.Total (fun a b : B => rank a ≤ rank b) :=
    ⟨fun a b => le_total _ _⟩
  have htrans : IsTrans B (fun a b => rank a ≤ rank b) :=
    ⟨fun _ _ _ => le_trans⟩
  refine @List.Perm.eq_of_pairwise _ (fun a b => rank a ≤ rank b) _ _ ?_
    (List.pairwise_insertionSort _ xs) (List.pairwise_insertionSort _ ys)
    ((hx.trans h).trans hy.symm)
  intro a b ha hb hab hba
  exact hinj a (hx.mem_iff.mp ha) b (h.mem_iff.mpr (hy.mem_iff.mp hb))
    (le_antisymm hab hba)

end RowTable
