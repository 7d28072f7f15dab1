import Cooket.AscendingProofs
import Mathlib.Data.List.Perm.Subperm
import Mathlib.Order.MinMax

/-! # Aggregates over groups, and over groups of groups

    A grouping query cuts its rows into the FIBRES of a key and takes an
    aggregate of a column in each.  A column may hold no value; the aggregates
    here are COMPLETE, that is, they have no value as soon as one row has none.

    Two questions decide whether such a query can be asked in two stages.  The
    groups must put the rows together again: they always do up to order
    (`groups_perm`), and exactly when the key follows the order of the rows
    (`groups_flatten`).  And the aggregate of the aggregates must be the
    aggregate (`Merges`): it is for the first, the last, the greatest and the
    least value, and it is not for a count of distinct values, which only lies
    between its parts and their sum. -/

namespace Aggregate

open Ascending

variable {α β γ κ : Type} [LinearOrder κ]

/-! ## Groups -/

/-- The rows of one key. -/
def fibre (k : α → κ) (l : List α) (b : κ) : List α :=
  l.filter (fun a => k a = b)

/-- The groups of a list, by ascending key. -/
def groups (k : α → κ) (l : List α) : List (List α) :=
  (ascend (l.map k)).map (fibre k l)

@[simp] theorem mem_fibre {k : α → κ} {l : List α} {b : κ} {a : α} :
    a ∈ fibre k l b ↔ a ∈ l ∧ k a = b := by
  simp [fibre]

theorem groups_ne_nil {k : α → κ} {l : List α} :
    ∀ g ∈ groups k l, g ≠ [] := by
  intro g hg
  obtain ⟨b, hb, rfl⟩ := List.mem_map.mp hg
  obtain ⟨a, ha, rfl⟩ := List.mem_map.mp (mem_ascend.mp hb)
  exact List.ne_nil_of_mem (mem_fibre.mpr ⟨ha, rfl⟩)

/-- Taking one fibre out leaves the others. -/
theorem fibre_of_ne {k : α → κ} {l : List α} {b c : κ} (h : c ≠ b) :
    fibre k (l.filter (fun a => k a ≠ b)) c = fibre k l c := by
  rw [fibre, fibre, List.filter_filter]
  refine List.filter_congr ?_
  intro a _
  by_cases hc : k a = c
  · simp [hc, h]
  · simp [hc]

/-- The fibre of the least key comes first in a list that follows its key. -/
theorem fibre_append {k : α → κ} {b : κ} {l : List α}
    (hsorted : l.Pairwise fun x y => k x ≤ k y) (hleast : ∀ a ∈ l, b ≤ k a) :
    fibre k l b ++ l.filter (fun a => k a ≠ b) = l := by
  induction l with
  | nil => rfl
  | cons x rest ih =>
      obtain ⟨hx, hrest⟩ := List.pairwise_cons.mp hsorted
      by_cases heq : k x = b
      · have hnext := ih hrest (fun a ha => hleast a (List.mem_cons_of_mem _ ha))
        rw [fibre] at hnext ⊢
        rw [List.filter_cons_of_pos (by simpa using heq),
          List.filter_cons_of_neg (by simpa using heq), List.cons_append, hnext]
      · have habove : ∀ a ∈ x :: rest, k a ≠ b := by
          intro a ha hab
          have hbx : b < k x :=
            lt_of_le_of_ne (hleast x List.mem_cons_self) (Ne.symm heq)
          rcases List.mem_cons.mp ha with rfl | ha
          · exact heq hab
          · exact absurd (hx a ha) (not_le_of_gt (hab ▸ hbx))
        have hnone : fibre k (x :: rest) b = [] :=
          List.filter_eq_nil_iff.mpr
            (fun a ha => by simpa using habove a ha)
        rw [hnone, List.nil_append]
        exact List.filter_eq_self.mpr (fun a ha => by simpa using habove a ha)

section
variable {k : α → κ} {keys : List κ}

/-- **THE FIBRES OF A LIST MAKE IT UP**, over any keys that cover it. -/
theorem fibres_perm (hkeys : keys.Pairwise (· < ·)) :
    ∀ {l : List α}, (∀ a ∈ l, k a ∈ keys) →
      (keys.map (fibre k l)).flatten.Perm l := by
  induction keys with
  | nil =>
      intro l hl
      rw [List.eq_nil_iff_forall_not_mem.mpr
        (fun a ha => List.not_mem_nil (hl a ha))]
      exact List.Perm.refl _
  | cons b keys ih =>
      intro l hl
      obtain ⟨hb, hkeys⟩ := List.pairwise_cons.mp hkeys
      have hrest : (keys.map (fibre k l)).flatten.Perm
          (l.filter (fun a => k a ≠ b)) := by
        have hsame : keys.map (fibre k l) =
            keys.map (fibre k (l.filter (fun a => k a ≠ b))) :=
          List.map_congr_left (fun c hc => (fibre_of_ne (hb c hc).ne').symm)
        rw [hsame]
        refine ih hkeys ?_
        intro a ha
        obtain ⟨ha, hne⟩ := List.mem_filter.mp ha
        exact (List.mem_cons.mp (hl a ha)).resolve_left (by simpa using hne)
      rw [List.map_cons, List.flatten_cons]
      refine (hrest.append_left _).trans ?_
      have hsplit := List.filter_append_perm (fun a => decide (k a = b)) l
      simpa only [fibre, ne_eq, decide_not] using hsplit

/-- **IN ORDER**, where the key follows the order of the list. -/
theorem fibres_flatten (hkeys : keys.Pairwise (· < ·)) :
    ∀ {l : List α}, (l.Pairwise fun x y => k x ≤ k y) →
      (∀ a ∈ l, k a ∈ keys) → (keys.map (fibre k l)).flatten = l := by
  induction keys with
  | nil =>
      intro l _ hl
      exact (List.eq_nil_iff_forall_not_mem.mpr
        (fun a ha => List.not_mem_nil (hl a ha))).symm
  | cons b keys ih =>
      intro l hsorted hl
      obtain ⟨hb, hkeys⟩ := List.pairwise_cons.mp hkeys
      have hsame : keys.map (fibre k l) =
          keys.map (fibre k (l.filter (fun a => k a ≠ b))) :=
        List.map_congr_left (fun c hc => (fibre_of_ne (hb c hc).ne').symm)
      have hrest : (keys.map (fibre k l)).flatten =
          l.filter (fun a => k a ≠ b) := by
        rw [hsame]
        refine ih hkeys (hsorted.filter _) ?_
        intro a ha
        obtain ⟨ha, hne⟩ := List.mem_filter.mp ha
        exact (List.mem_cons.mp (hl a ha)).resolve_left (by simpa using hne)
      rw [List.map_cons, List.flatten_cons, hrest]
      refine fibre_append hsorted ?_
      intro a ha
      rcases List.mem_cons.mp (hl a ha) with h | h
      · exact h.ge
      · exact (hb _ h).le

end

theorem groups_perm (k : α → κ) (l : List α) : (groups k l).flatten.Perm l :=
  fibres_perm (ascend_pairwise _)
    (fun _ ha => mem_ascend.mpr (List.mem_map_of_mem ha))

theorem groups_flatten {k : α → κ} {l : List α}
    (h : l.Pairwise fun x y => k x ≤ k y) : (groups k l).flatten = l :=
  fibres_flatten (ascend_pairwise _) h
    (fun _ ha => mem_ascend.mpr (List.mem_map_of_mem ha))

/-! ## Complete aggregates -/

omit [LinearOrder κ]

/-- The aggregate of a column, absent as soon as one value is. -/
def aggregate (column : α → Option β) (x : List β → Option γ) (l : List α) :
    Option γ :=
  (l.mapM column).bind x

section
variable {f : α → Option β}

theorem mapM_flatten (gs : List (List α)) :
    gs.flatten.mapM f = (gs.mapM (fun g : List α => g.mapM f)).map List.flatten := by
  induction gs with
  | nil => rfl
  | cons g gs ih =>
      rw [List.flatten_cons, List.mapM_append, List.mapM_cons, ih]
      cases g.mapM f with
      | none => rfl
      | some ys =>
          cases gs.mapM (fun g : List α => g.mapM f) with
          | none => rfl
          | some yss => rfl

/-- A second computation can wait until the first has run everywhere. -/
theorem mapM_bind (x : β → Option γ) (l : List α) :
    l.mapM (fun a => (f a).bind x) = (l.mapM f).bind (fun ys => ys.mapM x) := by
  induction l with
  | nil => rfl
  | cons a l ih =>
      rw [List.mapM_cons, List.mapM_cons, ih]
      cases f a with
      | none => rfl
      | some y =>
          cases l.mapM f with
          | none =>
              show ((x y).bind fun _ => none) = none
              cases x y <;> rfl
          | some ys =>
              show _ = (y :: ys).mapM x
              rw [List.mapM_cons]
              rfl

/-- A column is read row by row. -/
theorem mapM_forall₂ {l : List α} {ys : List β} (h : l.mapM f = some ys) :
    List.Forall₂ (fun a y => f a = some y) l ys := by
  induction l generalizing ys with
  | nil =>
      obtain rfl : [] = ys := Option.some.inj h
      exact .nil
  | cons a l ih =>
      rw [List.mapM_cons] at h
      cases hy : f a with
      | none =>
          rw [hy] at h
          cases h
      | some y =>
          cases hrest : l.mapM f with
          | none =>
              rw [hy, hrest] at h
              cases h
          | some rest =>
              rw [hy, hrest] at h
              obtain rfl : y :: rest = ys := Option.some.inj h
              exact .cons hy (ih hrest)

/-- Reordering the rows reorders the column. -/
theorem mapM_perm {l l' : List α} (h : l.Perm l') :
    (∃ ys ys', l.mapM f = some ys ∧ l'.mapM f = some ys' ∧ ys.Perm ys') ∨
      (l.mapM f = none ∧ l'.mapM f = none) := by
  induction h with
  | nil => exact .inl ⟨[], [], rfl, rfl, .refl _⟩
  | cons a _ ih =>
      rw [List.mapM_cons, List.mapM_cons]
      cases f a with
      | none => exact .inr ⟨rfl, rfl⟩
      | some y =>
          rcases ih with ⟨ys, ys', hys, hys', hperm⟩ | ⟨hnone, hnone'⟩
          · rw [hys, hys']
            exact .inl ⟨y :: ys, y :: ys', rfl, rfl, hperm.cons y⟩
          · rw [hnone, hnone']
            exact .inr ⟨rfl, rfl⟩
  | swap a b l =>
      simp only [List.mapM_cons]
      cases f a with
      | none =>
          cases f b with
          | none => exact .inr ⟨rfl, rfl⟩
          | some _ => exact .inr ⟨rfl, rfl⟩
      | some y =>
          cases f b with
          | none => exact .inr ⟨rfl, rfl⟩
          | some z =>
              cases l.mapM f with
              | none => exact .inr ⟨rfl, rfl⟩
              | some ys => exact .inl ⟨_, _, rfl, rfl, .swap y z ys⟩
  | trans _ _ ih ih' =>
      rcases ih with ⟨ys, ys', hys, hys', hperm⟩ | ⟨hnone, hnone'⟩
      · rcases ih' with ⟨zs, zs', hzs, hzs', hperm'⟩ | ⟨hnone, -⟩
        · obtain rfl : ys' = zs := Option.some.inj (hys'.symm.trans hzs)
          exact .inl ⟨ys, zs', hys, hzs', hperm.trans hperm'⟩
        · rw [hnone] at hys'
          cases hys'
      · rcases ih' with ⟨zs, zs', hzs, -, -⟩ | ⟨-, hnone''⟩
        · rw [hnone'] at hzs
          cases hzs
        · exact .inr ⟨hnone, hnone''⟩

end

/-- The aggregate of the parts' aggregates is the aggregate. -/
structure Merges (x : List β → Option β) : Prop where
  total : ∀ ys, ys ≠ [] → (x ys).isSome
  flatten : ∀ gs : List (List β), (∀ g ∈ gs, g ≠ []) →
    x gs.flatten = (gs.mapM x).bind x

/-- The order of the values does not matter. -/
def Unordered (x : List β → Option γ) : Prop :=
  ∀ ⦃ys ys' : List β⦄, ys.Perm ys' → x ys = x ys'

theorem aggregate_perm {column : α → Option β} {x : List β → Option γ}
    (hx : Unordered x) {l l' : List α} (h : l.Perm l') :
    aggregate column x l = aggregate column x l' := by
  rcases mapM_perm (f := column) h with
    ⟨ys, ys', hys, hys', hperm⟩ | ⟨hnone, hnone'⟩
  · rw [aggregate, aggregate, hys, hys']
    exact hx hperm
  · rw [aggregate, aggregate, hnone, hnone']

/-- **AN AGGREGATE IN TWO STAGES**. -/
theorem aggregate_flatten {column : α → Option β} {x : List β → Option β}
    (hx : Merges x) {gs : List (List α)} (hne : ∀ g ∈ gs, g ≠ []) :
    aggregate column x gs.flatten =
      aggregate (aggregate column x) x gs := by
  show (gs.flatten.mapM column).bind x =
    (gs.mapM fun g : List α => (g.mapM column).bind x).bind x
  rw [mapM_flatten, mapM_bind]
  cases hread : gs.mapM (fun g : List α => g.mapM column) with
  | none => rfl
  | some yss =>
      refine hx.flatten yss ?_
      intro ys hys he
      subst he
      obtain ⟨g, hg, hempty⟩ : ∃ g ∈ gs, g.mapM column = some [] := by
        have hall := mapM_forall₂ hread
        clear hread hne
        induction hall with
        | nil => exact absurd hys List.not_mem_nil
        | cons hhead _ ih =>
            rcases List.mem_cons.mp hys with rfl | hys
            · exact ⟨_, List.mem_cons_self, hhead⟩
            · obtain ⟨g, hg, h⟩ := ih hys
              exact ⟨g, List.mem_cons_of_mem _ hg, h⟩
      cases hall : mapM_forall₂ hempty with
      | nil => exact hne [] hg rfl

/-- A value is missing exactly if it is missing somewhere. -/
theorem aggregate_eq_none {column : α → Option β} {x : List β → Option β}
    (hx : Merges x) {l : List α} (hl : l ≠ []) :
    aggregate column x l = none ↔ ∃ a ∈ l, column a = none := by
  have hread : l.mapM column = none ↔ ∃ a ∈ l, column a = none := by
    clear hl
    induction l with
    | nil =>
        refine ⟨fun h => ?_, fun ⟨a, ha, _⟩ => absurd ha List.not_mem_nil⟩
        cases h
    | cons a l ih =>
        rw [List.mapM_cons, List.exists_mem_cons_iff, ← ih]
        cases column a with
        | none => exact ⟨fun _ => .inl rfl, fun _ => rfl⟩
        | some y =>
            cases l.mapM column with
            | none => exact ⟨fun _ => .inr rfl, fun _ => rfl⟩
            | some ys =>
                constructor
                · intro h
                  cases h
                · rintro (h | h) <;> cases h
  rw [← hread, aggregate]
  cases hys : l.mapM column with
  | none => exact ⟨fun _ => rfl, fun _ => rfl⟩
  | some ys =>
      have hne : ys ≠ [] := by
        rintro rfl
        cases hall : mapM_forall₂ hys with
        | nil => exact hl rfl
      obtain ⟨y, hy⟩ := Option.isSome_iff_exists.mp (hx.total ys hne)
      refine ⟨fun h => ?_, fun h => ?_⟩
      · rw [Option.bind_some, hy] at h
        cases h
      · cases h

/-! ## First, last, greatest, least -/

/-- **A FOLD OF AN ASSOCIATIVE OPERATION MERGES**. -/
theorem merges_of_fold {x : List β → Option β} (op : β → β → β)
    [hassoc : Std.Associative op]
    (hcons : ∀ y ys, x (y :: ys) = some (ys.foldl op y)) : Merges x where
  total := by
    intro ys hys
    obtain ⟨y, rest, rfl⟩ := List.exists_cons_of_ne_nil hys
    rw [hcons]
    rfl
  flatten := by
    have hrest : ∀ gs : List (List β), (∀ g ∈ gs, g ≠ []) → ∀ a,
        ∃ as, gs.mapM x = some as ∧ gs.flatten.foldl op a = as.foldl op a := by
      intro gs
      induction gs with
      | nil => exact fun _ a => ⟨[], rfl, rfl⟩
      | cons g gs ih =>
          intro hne a
          obtain ⟨y, ys, rfl⟩ :=
            List.exists_cons_of_ne_nil (hne g List.mem_cons_self)
          obtain ⟨as, has, hfold⟩ := ih
            (fun g hg => hne g (List.mem_cons_of_mem _ hg))
            (op a (ys.foldl op y))
          refine ⟨ys.foldl op y :: as, ?_, ?_⟩
          · rw [List.mapM_cons, hcons, has]
            rfl
          · rw [List.flatten_cons, List.cons_append, List.foldl_cons,
              List.foldl_append, List.foldl_assoc, hfold, List.foldl_cons]
    intro gs hne
    cases gs with
    | nil => rfl
    | cons g gs =>
        obtain ⟨y, ys, rfl⟩ :=
          List.exists_cons_of_ne_nil (hne g List.mem_cons_self)
        obtain ⟨as, has, hfold⟩ := hrest gs
          (fun g hg => hne g (List.mem_cons_of_mem _ hg)) (ys.foldl op y)
        rw [List.flatten_cons, List.cons_append, hcons, List.foldl_append,
          hfold, List.mapM_cons, hcons, has]
        exact (hcons _ _).symm

theorem merges_head : Merges (List.head? : List β → Option β) := by
  have : Std.Associative (fun a _ : β => a) := ⟨fun _ _ _ => rfl⟩
  refine merges_of_fold (fun a _ => a) ?_
  intro y ys
  induction ys with
  | nil => rfl
  | cons z ys ih => exact ih

theorem merges_last : Merges (List.getLast? : List β → Option β) := by
  have : Std.Associative (fun _ b : β => b) := ⟨fun _ _ _ => rfl⟩
  refine merges_of_fold (fun _ b => b) ?_
  intro y ys
  induction ys generalizing y with
  | nil => rfl
  | cons z ys ih =>
      rw [List.getLast?_cons_cons, List.foldl_cons]
      exact ih z

section
variable [LinearOrder β]

theorem merges_max : Merges (List.max? : List β → Option β) :=
  merges_of_fold max (fun _ _ => rfl)

theorem merges_min : Merges (List.min? : List β → Option β) :=
  merges_of_fold min (fun _ _ => rfl)

theorem unordered_max : Unordered (List.max? : List β → Option β) := by
  intro ys ys' h
  cases hmax : ys'.max? with
  | none =>
      rw [List.max?_eq_none_iff] at hmax ⊢
      exact (hmax ▸ h).eq_nil
  | some a =>
      rw [List.max?_eq_some_iff] at hmax ⊢
      exact ⟨h.mem_iff.mpr hmax.1, fun b hb => hmax.2 b (h.mem_iff.mp hb)⟩

theorem unordered_min : Unordered (List.min? : List β → Option β) := by
  intro ys ys' h
  cases hmin : ys'.min? with
  | none =>
      rw [List.min?_eq_none_iff] at hmin ⊢
      exact (hmin ▸ h).eq_nil
  | some a =>
      rw [List.min?_eq_some_iff] at hmin ⊢
      exact ⟨h.mem_iff.mpr hmin.1, fun b hb => hmin.2 b (h.mem_iff.mp hb)⟩

end

/-! ## Distinct values -/

/-- A group has at least the distinct values of its parts. -/
theorem distinct_le [DecidableEq β] (f : α → β) {l l' : List α}
    (h : ∀ a ∈ l, a ∈ l') :
    (l.map f).dedup.length ≤ (l'.map f).dedup.length := by
  refine ((List.nodup_dedup _).subperm ?_).length_le
  intro b hb
  obtain ⟨a, ha, rfl⟩ := List.mem_map.mp (List.mem_dedup.mp hb)
  exact List.mem_dedup.mpr (List.mem_map_of_mem (h a ha))

/-- The distinct values of the parts, counted part by part, are as many. -/
theorem distinct_flatten_le [DecidableEq β] (f : α → β) (gs : List (List α)) :
    (gs.flatten.map f).dedup.length ≤
      (gs.map fun g => (g.map f).dedup.length).sum := by
  induction gs with
  | nil => exact Nat.le_refl 0
  | cons g gs ih =>
      rw [List.flatten_cons, List.map_append, List.map_cons, List.sum_cons]
      refine le_trans ?_ (Nat.add_le_add_left ih _)
      rw [← List.length_append]
      refine ((List.nodup_dedup _).subperm ?_).length_le
      intro b hb
      simp only [List.mem_append, List.mem_dedup] at hb ⊢
      exact hb

end Aggregate
