import Mathlib.Data.List.Basic

/-! # Two runs in lockstep

    The same program run from two states that are related ends both times with
    the same failure, or both times in states that are related again (`Both`).
    The relation is proved for ONE STEP; `Both.bind` and `Both.foldlM` carry it
    through sequences and loops.

    A step that is in lockstep only because of what the steps before it did is
    covered by `Both.foldlM_prefix`, where the relation may name the part of
    the list that was already run. -/

namespace Lockstep

variable {ε α β γ δ σ : Type}

/-- Both runs fail alike, or end in related states. -/
inductive Both (R : α → β → Prop) : Except ε α → Except ε β → Prop where
  | ok {a : α} {b : β} (h : R a b) : Both R (.ok a) (.ok b)
  | error (e : ε) : Both R (.error e) (.error e)

namespace Both

variable {R : α → β → Prop} {S : γ → δ → Prop} {x : Except ε α}
  {y : Except ε β}

theorem mono {R' : α → β → Prop} (h : Both R x y)
    (himp : ∀ a b, R a b → R' a b) : Both R' x y := by
  cases h with
  | ok hab => exact .ok (himp _ _ hab)
  | error e => exact .error e

/-- A result is related to itself when its value is. -/
theorem refl {R : α → α → Prop} (x : Except ε α)
    (h : ∀ a, x = .ok a → R a a) : Both R x x := by
  cases x with
  | ok a => exact .ok (h a rfl)
  | error e => exact .error e

theorem symm (h : Both R x y) : Both (fun b a => R a b) y x := by
  cases h with
  | ok hab => exact .ok hab
  | error e => exact .error e

theorem ok_left {a : α} (h : Both R x y) (hx : x = .ok a) :
    ∃ b, y = .ok b ∧ R a b := by
  cases h with
  | ok hab =>
      obtain rfl := Except.ok.inj hx
      exact ⟨_, rfl, hab⟩
  | error e => cases hx

theorem ok_right {b : β} (h : Both R x y) (hy : y = .ok b) :
    ∃ a, x = .ok a ∧ R a b :=
  h.symm.ok_left hy

theorem error_iff (h : Both R x y) (e : ε) : x = .error e ↔ y = .error e := by
  cases h with
  | ok hab =>
      constructor
      · intro he
        cases he
      · intro he
        cases he
  | error e' =>
      constructor
      · intro he
        rw [Except.error.inj he]
      · intro he
        rw [Except.error.inj he]

/-- Sequencing; the second step may use how the first one came about. -/
theorem bind {f : α → Except ε γ} {g : β → Except ε δ} (h : Both R x y)
    (hnext : ∀ a b, x = .ok a → y = .ok b → R a b → Both S (f a) (g b)) :
    Both S (x >>= f) (y >>= g) := by
  cases h with
  | ok hab => exact hnext _ _ rfl rfl hab
  | error e => exact .error e

/-- A loop whose relation may name what was already run. -/
theorem foldlM_prefix {f : α → σ → Except ε α} {g : β → σ → Except ε β}
    {R : List σ → α → β → Prop} (xs : List σ) {a : α} {b : β}
    (hstep : ∀ pre x post a b, xs = pre ++ x :: post → R pre a b →
      Both (R (pre ++ [x])) (f a x) (g b x))
    (h : R [] a b) : Both (R xs) (xs.foldlM f a) (xs.foldlM g b) := by
  -- Induction on what is left, for every split of the list.
  have hrun : ∀ post pre a b, xs = pre ++ post → R pre a b →
      Both (R xs) (post.foldlM f a) (post.foldlM g b) := by
    intro post
    induction post with
    | nil =>
        intro pre a b hxs hab
        rw [List.append_nil] at hxs
        exact .ok (hxs ▸ hab)
    | cons x post ih =>
        intro pre a b hxs hab
        rw [List.foldlM_cons, List.foldlM_cons]
        refine (hstep pre x post a b hxs hab).bind ?_
        intro a' b' _ _ hab'
        exact ih (pre ++ [x]) a' b' (by rw [hxs, List.append_assoc]; rfl) hab'
  exact hrun xs [] a b rfl h

/-- **A LOOP** keeps the relation when each of its steps does. -/
theorem foldlM {f : α → σ → Except ε α} {g : β → σ → Except ε β}
    (xs : List σ) {a : α} {b : β}
    (hstep : ∀ x ∈ xs, ∀ a b, R a b → Both R (f a x) (g b x)) (h : R a b) :
    Both R (xs.foldlM f a) (xs.foldlM g b) :=
  foldlM_prefix (R := fun _ => R) xs (fun pre x _ a b hxs hab =>
    hstep x (hxs ▸ List.mem_append_right pre (List.mem_cons_self ..)) a b hab) h

/-- What both runs reach may be strengthened by what each keeps on its own. -/
theorem and {P : α → Prop} {Q : β → Prop} (h : Both R x y)
    (hx : ∀ a, x = .ok a → P a) (hy : ∀ b, y = .ok b → Q b) :
    Both (fun a b => R a b ∧ P a ∧ Q b) x y := by
  cases h with
  | ok hab => exact .ok ⟨hab, hx _ rfl, hy _ rfl⟩
  | error e => exact .error e

end Both

/-- What every step keeps, the loop keeps. -/
theorem foldlM_keeps {f : α → σ → Except ε α} {P : α → Prop} (xs : List σ)
    {a a' : α} (hstep : ∀ x ∈ xs, ∀ a a', f a x = .ok a' → P a → P a')
    (h : xs.foldlM f a = .ok a') (ha : P a) : P a' := by
  -- One run, in lockstep with itself.
  have hboth : Both (fun a b => a = b ∧ P a) (xs.foldlM f a) (xs.foldlM f a) := by
    refine Both.foldlM xs ?_ ⟨rfl, ha⟩
    rintro x hx b _ ⟨rfl, hb⟩
    exact .refl _ fun b' hb' => ⟨rfl, hstep x hx b b' hb' hb⟩
  obtain ⟨_, -, -, hP⟩ := hboth.ok_left h
  exact hP

/-- What every step keeps, when it may name what was already run. -/
theorem foldlM_run {f : α → σ → Except ε α} {P : List σ → α → Prop}
    (xs : List σ) {a a' : α}
    (hstep : ∀ pre x post a a', xs = pre ++ x :: post → f a x = .ok a' →
      P pre a → P (pre ++ [x]) a')
    (h : xs.foldlM f a = .ok a') (ha : P [] a) : P xs a' := by
  have hboth : Both (fun a b => a = b ∧ P xs a) (xs.foldlM f a)
      (xs.foldlM f a) := by
    refine Both.foldlM_prefix (R := fun pre a b => a = b ∧ P pre a) xs ?_
      ⟨rfl, ha⟩
    rintro pre x post b _ hxs ⟨rfl, hb⟩
    exact .refl _ fun b' hb' => ⟨rfl, hstep pre x post b b' hxs hb' hb⟩
  obtain ⟨_, -, -, hP⟩ := hboth.ok_left h
  exact hP

end Lockstep
