import Mathlib.Data.List.Sort
import Mathlib.Data.List.DropRight
import Mathlib.Data.List.Dedup
import Mathlib.Algebra.BigOperators.Group.List.Basic
import Mathlib.Tactic.Abel

/-! # Ascending lists of distinct keys, and their most recent window

    A grouping query answers with the DISTINCT keys of its rows in ascending
    order, and a client keeps the last few.  Three facts are needed of that,
    and none is about any particular key: such a list is determined by its
    members (`ascend_eq`), rows whose keys are not below the old ones only
    extend it (`ascend_append`), and a window that was already cut loses
    nothing when it is extended and cut again (`window_extend`).

    The last section is about sums over groups: what vanishes in every group
    of a partition vanishes in every group of a coarser one. -/

namespace Ascending

variable {α : Type} [LinearOrder α]

/-- The distinct members of a list, in ascending order. -/
def ascend (xs : List α) : List α := xs.dedup.mergeSort (fun a b => a ≤ b)

@[simp] theorem mem_ascend {a : α} {xs : List α} :
    a ∈ ascend xs ↔ a ∈ xs := by
  simp [ascend]

theorem ascend_pairwise (xs : List α) : (ascend xs).Pairwise (· < ·) := by
  have hle : (ascend xs).Pairwise (· ≤ ·) :=
    List.pairwise_mergeSort' (· ≤ ·) xs.dedup
  have hne : (ascend xs).Pairwise (· ≠ ·) :=
    (List.mergeSort_perm xs.dedup _).nodup_iff.mpr xs.nodup_dedup
  exact hle.imp₂ (fun _ _ h h' => lt_of_le_of_ne h h') hne

omit [LinearOrder α] in
/-- A list in strict order of a rank is fixed by its members. -/
theorem eq_of_ranked {ρ : Type} [LinearOrder ρ] (rank : α → ρ) {xs ys : List α}
    (hx : xs.Pairwise fun a b => rank a < rank b)
    (hy : ys.Pairwise fun a b => rank a < rank b)
    (h : ∀ a, a ∈ xs ↔ a ∈ ys) : xs = ys := by
  have hne : ∀ {a b : α}, rank a < rank b → a ≠ b :=
    fun hab he => absurd hab (he ▸ lt_irrefl _)
  have hperm : xs.Perm ys :=
    (List.perm_ext_iff_of_nodup (hx.imp hne) (hy.imp hne)).mpr h
  exact hperm.eq_of_pairwise
    (fun a b _ _ hab hba => absurd hba (not_lt_of_gt hab)) hx hy

/-- Two ascending lists with the same members are the same list. -/
theorem eq_of_members {xs ys : List α} (hx : xs.Pairwise (· < ·))
    (hy : ys.Pairwise (· < ·)) (h : ∀ a, a ∈ xs ↔ a ∈ ys) : xs = ys :=
  eq_of_ranked id hx hy h

theorem ascend_eq {xs ys : List α} (h : ∀ a, a ∈ xs ↔ a ∈ ys) :
    ascend xs = ascend ys :=
  eq_of_members (ascend_pairwise xs) (ascend_pairwise ys) (by simpa using h)

/-- An ascending list is its own ascent. -/
theorem ascend_of_pairwise {xs : List α} (h : xs.Pairwise (· < ·)) :
    ascend xs = xs :=
  eq_of_members (ascend_pairwise xs) h (by simp)

theorem ascend_filter (p : α → Bool) (xs : List α) :
    (ascend xs).filter p = ascend (xs.filter p) :=
  eq_of_members ((ascend_pairwise xs).filter p) (ascend_pairwise _) (by simp)

/-- Later keys come last. -/
theorem ascend_append {xs ys : List α} (h : ∀ x ∈ xs, ∀ y ∈ ys, x ≤ y) :
    ascend (xs ++ ys) = ascend xs ++ ascend (ys.filter (· ∉ xs)) := by
  refine eq_of_members (ascend_pairwise _) ?_ ?_
  · refine List.pairwise_append.mpr
      ⟨ascend_pairwise xs, ascend_pairwise _, ?_⟩
    intro a ha b hb
    rw [mem_ascend] at ha
    rw [mem_ascend, List.mem_filter, decide_eq_true_eq] at hb
    exact lt_of_le_of_ne (h a ha b hb.1) (fun he => hb.2 (he ▸ ha))
  · intro a
    simp only [mem_ascend, List.mem_append, List.mem_filter,
      decide_eq_true_eq]
    tauto

/-! ## The last entries of a list -/

omit [LinearOrder α] in
theorem rtake_append {n : Nat} (xs ys : List α) :
    (xs.rtake n ++ ys).rtake n = (xs ++ ys).rtake n := by
  simp only [List.rtake_eq_reverse_take_reverse, List.reverse_append,
    List.reverse_reverse, List.take_append, List.take_take]
  congr 3
  omega

omit [LinearOrder α] in
theorem mem_of_mem_rtake {a : α} {n : Nat} {xs : List α}
    (h : a ∈ xs.rtake n) : a ∈ xs :=
  List.mem_of_mem_drop h

omit [LinearOrder α] in
theorem map_rtake {β : Type} (f : α → β) (n : Nat) (xs : List α) :
    (xs.rtake n).map f = (xs.map f).rtake n := by
  simp [List.rtake, List.map_drop]

/-- The greatest member of a nonempty ascending list is in its window. -/
theorem mem_rtake_of_greatest {a : α} {n : Nat} {xs : List α} (hn : 0 < n)
    (hx : xs.Pairwise (· < ·)) (ha : a ∈ xs) (hmax : ∀ x ∈ xs, x ≤ a) :
    a ∈ xs.rtake n := by
  rcases List.eq_nil_or_concat xs with rfl | ⟨ys, b, rfl⟩
  · exact absurd ha (List.not_mem_nil)
  · obtain ⟨n, rfl⟩ := Nat.exists_eq_succ_of_ne_zero (Nat.pos_iff_ne_zero.mp hn)
    rw [List.concat_eq_append] at ha hmax hx ⊢
    have hb : b = a := by
      refine le_antisymm (hmax b (by simp)) ?_
      rcases List.mem_append.mp ha with h | h
      · exact ((List.pairwise_append.mp hx).2.2 a h b (by simp)).le
      · exact (List.mem_singleton.mp h).le
    subst hb
    rw [List.rtake_concat_succ]
    simp

/-- **THE WINDOW LOSES NOTHING.**  Cutting to the last `n` keys, adding keys
    that are not below the ones there were and cutting again gives the last
    `n` of all of them. -/
theorem window_extend {xs ys : List α} (n : Nat)
    (h : ∀ x ∈ xs, ∀ y ∈ ys, x ≤ y) :
    (ascend ((ascend xs).rtake n ++ ys)).rtake n
      = (ascend (xs ++ ys)).rtake n := by
  have hcut : ∀ x ∈ (ascend xs).rtake n, x ∈ xs := fun x hx =>
    mem_ascend.mp (mem_of_mem_rtake hx)
  rcases Nat.eq_zero_or_pos n with rfl | hn
  · rw [List.rtake_zero, List.rtake_zero]
  · have hnew : ys.filter (· ∉ (ascend xs).rtake n) = ys.filter (· ∉ xs) := by
      refine List.filter_congr ?_
      intro y hy
      refine decide_eq_decide.mpr (not_congr ⟨hcut y, fun hyx => ?_⟩)
      exact mem_rtake_of_greatest hn (ascend_pairwise xs)
        (mem_ascend.mpr hyx) (fun x hx => h x (mem_ascend.mp hx) y hy)
    have hwin : ((ascend xs).rtake n).Pairwise (· < ·) :=
      (ascend_pairwise xs).sublist (List.drop_sublist _ _)
    rw [ascend_append (fun x hx y hy => h x (hcut x hx) y hy),
      ascend_append h, hnew, ascend_of_pairwise hwin, rtake_append]

/-- What is left of the old keys after the second cut was there after the
    first one. -/
theorem mem_window {xs ys : List α} {n : Nat} {a : α}
    (h : ∀ x ∈ xs, ∀ y ∈ ys, x ≤ y)
    (ha : a ∈ (ascend (xs ++ ys)).rtake n) (hx : a ∈ xs) :
    a ∈ (ascend xs).rtake n := by
  rcases Nat.eq_zero_or_pos n with rfl | hn
  · rw [List.rtake_zero] at ha
    exact absurd ha (List.not_mem_nil)
  · rw [← window_extend n h] at ha
    rcases List.mem_append.mp (mem_ascend.mp (mem_of_mem_rtake ha)) with h' | hy
    · exact h'
    · exact mem_rtake_of_greatest hn (ascend_pairwise xs)
        (mem_ascend.mpr hx) (fun x hx' => h x (mem_ascend.mp hx') a hy)

/-! ## Sums over groups -/

variable {β κ : Type} [DecidableEq κ]

/-- The sum of `f` over the members of a group. -/
def groupSum (f : β → Int) (p : β → Bool) (xs : List β) : Int :=
  ((xs.filter p).map f).sum

theorem groupSum_cons (f : β → Int) (p : β → Bool) (x : β) (xs : List β) :
    groupSum f p (x :: xs) = (if p x then f x else 0) + groupSum f p xs := by
  by_cases hp : p x = true
  · simp [groupSum, hp]
  · simp [groupSum, hp]

theorem groupSum_split (f : β → Int) (p q : β → Bool) (xs : List β) :
    groupSum f p xs = groupSum f (fun x => p x && q x) xs
      + groupSum f (fun x => p x && !q x) xs := by
  induction xs with
  | nil => rfl
  | cons x xs ih =>
      simp only [groupSum_cons, ih]
      cases p x <;> cases q x <;> simp <;> abel

/-- **COARSER GROUPS.**  If every fibre of `k` sums to zero, so does every
    group that `k` decides. -/
theorem groupSum_of_fibres {f : β → Int} {k : β → κ} (g : κ → Bool) :
    ∀ (n : Nat) (xs : List β), xs.length ≤ n →
      (∀ m, groupSum f (fun x => decide (k x = m)) xs = 0) →
      groupSum f (fun x => g (k x)) xs = 0 := by
  intro n
  induction n with
  | zero =>
      intro xs hlen _
      obtain rfl := List.eq_nil_of_length_eq_zero (Nat.le_zero.mp hlen)
      rfl
  | succ n ih =>
      intro xs hlen hfibre
      match xs with
      | [] => rfl
      | x :: rest =>
          -- the fibre of the head is all in the group or all out of it
          have hrest : ∀ m, groupSum f (fun y => decide (k y = m))
              (rest.filter (fun y => k y ≠ k x)) = 0 := by
            intro m
            by_cases hm : m = k x
            · subst hm
              simp [groupSum, List.filter_filter]
            · have h := hfibre m
              rw [groupSum_cons, if_neg (by simpa using Ne.symm hm),
                zero_add] at h
              rw [← h]
              unfold groupSum
              rw [List.filter_filter]
              congr 2
              refine List.filter_congr ?_
              intro y _
              by_cases hy : k y = m
              · simp [hy, hm]
              · simp [hy]
          have hsmall := ih _ (le_trans (List.length_filter_le _ rest)
            (Nat.le_of_succ_le_succ hlen)) hrest
          have hout : groupSum f (fun y => g (k y) && !decide (k y = k x))
              (x :: rest) = 0 := by
            rw [groupSum_cons, if_neg (by simp), zero_add, ← hsmall]
            unfold groupSum
            rw [List.filter_filter]
            simp
          have hin : groupSum f (fun y => g (k y) && decide (k y = k x))
              (x :: rest) = 0 := by
            cases hg : g (k x) with
            | false =>
                have hnone : (x :: rest).filter
                    (fun y => g (k y) && decide (k y = k x)) = [] := by
                  refine List.filter_eq_nil_iff.mpr ?_
                  intro y _ hy
                  rw [Bool.and_eq_true, decide_eq_true_eq] at hy
                  rw [hy.2, hg] at hy
                  exact absurd hy.1 Bool.false_ne_true
                rw [groupSum, hnone]
                rfl
            | true =>
                rw [← hfibre (k x)]
                unfold groupSum
                congr 2
                refine List.filter_congr ?_
                intro y _
                by_cases hy : k y = k x
                · simp [hy, hg]
                · simp [hy]
          rw [groupSum_split f _ (fun y => decide (k y = k x)), hin, hout]
          rfl

end Ascending
