import Mathlib

/-! # Sums over a ledger of entries

    A ledger is a total function from keys to amounts, written one entry at a
    time by `Function.update`.  A running total next to it is right when it
    equals the sum of the entries, so the only fact a bookkeeping proof needs
    is what ONE write does to that sum.  The facts are stated additively, with
    the old entry on the other side, because amounts are natural numbers. -/

namespace LedgerSum

section Update

variable {ι κ : Type} [DecidableEq ι] [DecidableEq κ]

/-- The two-level ledger: one write under key `i`, entry `k`. -/
def update₂ (f : ι → κ → Nat) (i : ι) (k : κ) (v : Nat) : ι → κ → Nat :=
  Function.update f i (Function.update (f i) k v)

@[simp] theorem update₂_self (f : ι → κ → Nat) (i : ι) (k : κ) (v : Nat) :
    update₂ f i k v i k = v := by
  simp [update₂]

theorem update₂_of_ne (f : ι → κ → Nat) {i j : ι} (k l : κ) (v : Nat)
    (h : j ≠ i) : update₂ f i k v j l = f j l := by
  simp [update₂, h]

theorem update₂_of_ne_right (f : ι → κ → Nat) (i j : ι) {k l : κ} (v : Nat)
    (h : l ≠ k) : update₂ f i k v j l = f j l := by
  by_cases hj : j = i
  · subst hj
    simp [update₂, h]
  · exact update₂_of_ne f k l v hj

theorem update₂_apply (f : ι → κ → Nat) (i j : ι) (k l : κ) (v : Nat) :
    update₂ f i k v j l = if j = i ∧ l = k then v else f j l := by
  by_cases hj : j = i
  · subst hj
    by_cases hl : l = k
    · subst hl
      rw [update₂_self, if_pos ⟨rfl, rfl⟩]
    · rw [update₂_of_ne_right _ _ _ _ hl, if_neg (fun h => hl h.2)]
  · rw [update₂_of_ne _ _ _ _ hj, if_neg (fun h => hj h.1)]

/-- Crediting an entry lowers none. -/
theorem le_update_add (f : ι → Nat) (i : ι) (v : Nat) (j : ι) :
    f j ≤ Function.update f i (f i + v) j := by
  by_cases h : j = i
  · subst h
    rw [Function.update_self]
    exact Nat.le_add_right _ _
  · rw [Function.update_of_ne h]

end Update

variable {ι κ : Type} [Fintype ι] [Fintype κ]

/-- No entry exceeds the sum. -/
theorem le_sum (f : ι → Nat) (i : ι) : f i ≤ ∑ j, f j :=
  Finset.single_le_sum (fun _ _ => Nat.zero_le _) (Finset.mem_univ i)

variable [DecidableEq ι] [DecidableEq κ]

/-- One write moves the sum by the difference of the entry. -/
theorem sum_update (f : ι → Nat) (i : ι) (v : Nat) :
    ∑ j, Function.update f i v j + f i = ∑ j, f j + v := by
  rw [Finset.sum_update_of_mem (Finset.mem_univ i),
    ← Finset.add_sum_erase Finset.univ f (Finset.mem_univ i),
    Finset.sdiff_singleton_eq_erase]
  omega

/-- Crediting an entry raises the sum by the credit. -/
theorem sum_update_add (f : ι → Nat) (i : ι) (v : Nat) :
    ∑ j, Function.update f i (f i + v) j = ∑ j, f j + v := by
  have := sum_update f i (f i + v)
  omega

/-- Clearing an entry lowers the sum by what it held. -/
theorem sum_update_zero (f : ι → Nat) (i : ι) :
    ∑ j, Function.update f i 0 j + f i = ∑ j, f j := by
  rw [sum_update, Nat.add_zero]

/-- Moving an amount between two entries keeps the sum. -/
theorem sum_move {f : ι → Nat} {a b : ι} {n : Nat} (h : n ≤ f a) :
    ∑ j, (fun g : ι → Nat => Function.update g b (g b + n))
        (Function.update f a (f a - n)) j = ∑ j, f j := by
  have hb := sum_update_add (Function.update f a (f a - n)) b n
  have ha := sum_update f a (f a - n)
  simp only at hb ⊢
  omega

/-- One write in a two-level ledger moves the double sum by the difference. -/
theorem sum_update₂ (f : ι → κ → Nat) (i : ι) (k : κ) (v : Nat) :
    ∑ j, ∑ l, update₂ f i k v j l + f i k = ∑ j, ∑ l, f j l + v := by
  have hrow := sum_update (f i) k v
  have hcol := sum_update (fun j => ∑ l, f j l) i
    (∑ l, Function.update (f i) k v l)
  have hsum : ∑ j, ∑ l, update₂ f i k v j l
      = ∑ j, Function.update (fun j => ∑ l, f j l) i
          (∑ l, Function.update (f i) k v l) j := by
    refine Finset.sum_congr rfl ?_
    intro j _
    by_cases hj : j = i
    · subst hj
      simp [update₂]
    · simp [update₂, hj]
  rw [hsum]
  omega

omit [Fintype κ] in
/-- One write in a two-level ledger moves its own column by the
    difference. -/
theorem sum_column (f : ι → κ → Nat) (i : ι) (k : κ) (v : Nat) :
    ∑ j, update₂ f i k v j k + f i k = ∑ j, f j k + v := by
  have hcolumn : (fun j => update₂ f i k v j k)
      = Function.update (fun j => f j k) i v := by
    funext j
    by_cases hj : j = i
    · subst hj
      rw [update₂_self, Function.update_self]
    · rw [update₂_of_ne f k k v hj, Function.update_of_ne hj]
  have hsum := sum_update (fun j => f j k) i v
  rw [← hcolumn] at hsum
  exact hsum

omit [Fintype κ] in
/-- … and no other column. -/
theorem sum_column_of_ne (f : ι → κ → Nat) (i : ι) {k l : κ} (v : Nat)
    (h : l ≠ k) : ∑ j, update₂ f i k v j l = ∑ j, f j l :=
  Finset.sum_congr rfl (fun j _ => update₂_of_ne_right f i j v h)

end LedgerSum
