import Mathlib

/-! # Checked 256-bit arithmetic and guarded failure

    A contract function either returns or reverts, so it is an `Except`
    computation.  This file fixes the three things every such function is made
    of — a guard that reverts, a checked operation that panics, and the bind
    that sequences them — and gives each ONE inversion lemma.  A proof about a
    whole function then never unfolds `bind`: it rewrites with the lemmas below
    and reads off the list of guards that passed. -/

namespace CheckedArith

variable {ε α β : Type}

/-- One past the largest `uint256`. -/
def uintBound : Nat := 2 ^ 256

/-- The error a checked operation raises when it does not fit. -/
class Panics (ε : Type) where
  panic : ε

/-- `if (c) revert e;` -/
def revertIf (c : Prop) [Decidable c] (e : ε) : Except ε Unit :=
  if c then .error e else .ok ()

/-- `a + b`, checked. -/
def add [Panics ε] (a b : Nat) : Except ε Nat :=
  if a + b < uintBound then .ok (a + b) else .error Panics.panic

/-- `a - b`, checked. -/
def sub [Panics ε] (a b : Nat) : Except ε Nat :=
  if b ≤ a then .ok (a - b) else .error Panics.panic

/-- `a * b`, checked. -/
def mul [Panics ε] (a b : Nat) : Except ε Nat :=
  if a * b < uintBound then .ok (a * b) else .error Panics.panic

/-- `a / b`, checked for a zero divisor. -/
def div [Panics ε] (a b : Nat) : Except ε Nat :=
  if b = 0 then .error Panics.panic else .ok (a / b)

/-- One past the largest `uint64`. -/
def uint64Bound : Nat := 2 ^ 64

/-- `a + b`, checked in 64 bits. -/
def add64 [Panics ε] (a b : Nat) : Except ε Nat :=
  if a + b < uint64Bound then .ok (a + b) else .error Panics.panic

/-! ## Inversion -/

/-- A sequence returns exactly when its head returns and its tail does. -/
@[simp] theorem bind_ok {x : Except ε α} {f : α → Except ε β} {b : β} :
    (x >>= f) = .ok b ↔ ∃ a, x = .ok a ∧ f a = .ok b := by
  cases x with
  | error e =>
      constructor
      · intro h
        exact nomatch h
      · rintro ⟨a, ha, -⟩
        exact nomatch ha
  | ok a =>
      constructor
      · intro h
        exact ⟨a, rfl, h⟩
      · rintro ⟨a', ha, h⟩
        cases ha
        exact h

@[simp] theorem pure_ok {a b : α} :
    (pure a : Except ε α) = .ok b ↔ a = b := by
  constructor
  · intro h
    exact Except.ok.inj h
  · intro h
    rw [h]
    rfl

@[simp] theorem throw_ok {e : ε} {a : α} :
    (throw e : Except ε α) = .ok a ↔ False := by
  constructor
  · intro h
    exact nomatch h
  · intro h
    exact h.elim

/-- Where the value of each step is known, so are the values of them all. -/
theorem mapM_ok_map {γ : Type} {f : γ → Except ε α} {g : γ → α}
    (hvalue : ∀ x y, f x = .ok y → y = g x) {xs : List γ} {ys : List α}
    (h : xs.mapM f = .ok ys) :
    ys = xs.map g ∧ ∀ x ∈ xs, f x = .ok (g x) := by
  induction xs generalizing ys with
  | nil =>
      rw [List.mapM_nil, pure_ok] at h
      exact ⟨h.symm, fun x hx => nomatch hx⟩
  | cons x xs ih =>
      rw [List.mapM_cons, bind_ok] at h
      obtain ⟨y, hy, h⟩ := h
      rw [bind_ok] at h
      obtain ⟨rest, hrest, h⟩ := h
      rw [pure_ok] at h
      obtain ⟨hmap, hall⟩ := ih hrest
      have hyx := hvalue x y hy
      subst hyx hmap h
      refine ⟨rfl, ?_⟩
      intro x' hx'
      rcases List.mem_cons.mp hx' with rfl | hx'
      · exact hy
      · exact hall x' hx'

/-- Renaming errors returns exactly when the computation does. -/
@[simp] theorem mapError_ok {ε' : Type} {f : ε → ε'} {x : Except ε α} {a : α} :
    x.mapError f = .ok a ↔ x = .ok a := by
  cases x with
  | error e =>
      constructor
      · intro h
        exact nomatch h
      · intro h
        exact nomatch h
  | ok b =>
      constructor
      · intro h
        rw [Except.ok.inj h]
      · intro h
        rw [Except.ok.inj h]
        rfl

/-- A guard lets control through exactly when its condition is false. -/
@[simp] theorem revertIf_ok {c : Prop} [Decidable c] {e : ε} {u : Unit} :
    revertIf c e = .ok u ↔ ¬ c := by
  unfold revertIf
  by_cases h : c
  · simp [h]
  · simp [h]

@[simp] theorem add_ok [Panics ε] {a b c : Nat} :
    (add a b : Except ε Nat) = .ok c ↔ a + b < uintBound ∧ a + b = c := by
  unfold add
  by_cases h : a + b < uintBound
  · simp [h]
  · simp [h]

@[simp] theorem add64_ok [Panics ε] {a b c : Nat} :
    (add64 a b : Except ε Nat) = .ok c
      ↔ a + b < uint64Bound ∧ a + b = c := by
  unfold add64
  by_cases h : a + b < uint64Bound
  · simp [h]
  · simp [h]

@[simp] theorem sub_ok [Panics ε] {a b c : Nat} :
    (sub a b : Except ε Nat) = .ok c ↔ b ≤ a ∧ a - b = c := by
  unfold sub
  by_cases h : b ≤ a
  · simp [h]
  · simp [h]

@[simp] theorem mul_ok [Panics ε] {a b c : Nat} :
    (mul a b : Except ε Nat) = .ok c ↔ a * b < uintBound ∧ a * b = c := by
  unfold mul
  by_cases h : a * b < uintBound
  · simp [h]
  · simp [h]

@[simp] theorem div_ok [Panics ε] {a b c : Nat} :
    (div a b : Except ε Nat) = .ok c ↔ b ≠ 0 ∧ a / b = c := by
  unfold div
  by_cases h : b = 0
  · simp [h]
  · simp [h]

/-! ## How a computation fails -/

/-- A sequence fails where its head does, or where its tail does after it. -/
theorem bind_error {x : Except ε α} {f : α → Except ε β} {e : ε} :
    (x >>= f) = .error e
      ↔ x = .error e ∨ ∃ a, x = .ok a ∧ f a = .error e := by
  cases x with
  | error e' =>
      constructor
      · intro h
        exact Or.inl (congrArg Except.error (Except.error.inj h))
      · rintro (h | ⟨a, ha, -⟩)
        · exact congrArg Except.error (Except.error.inj h)
        · exact nomatch ha
  | ok a =>
      constructor
      · intro h
        exact Or.inr ⟨a, rfl, h⟩
      · rintro (h | ⟨a', ha, h⟩)
        · exact nomatch h
        · obtain rfl := Except.ok.inj ha
          exact h

theorem revertIf_error {c : Prop} [Decidable c] {e e' : ε} :
    revertIf c e = .error e' ↔ c ∧ e = e' := by
  unfold revertIf
  by_cases h : c
  · rw [if_pos h]
    constructor
    · intro he
      exact ⟨h, Except.error.inj he⟩
    · rintro ⟨-, rfl⟩
      rfl
  · rw [if_neg h]
    constructor
    · intro he
      exact nomatch he
    · rintro ⟨hc, -⟩
      exact absurd hc h

theorem mapError_error {ε' : Type} {f : ε → ε'} {x : Except ε α} {e' : ε'} :
    x.mapError f = .error e' ↔ ∃ e, x = .error e ∧ f e = e' := by
  cases x with
  | error e =>
      constructor
      · intro h
        exact ⟨e, rfl, Except.error.inj h⟩
      · rintro ⟨e₁, he, rfl⟩
        rw [Except.error.inj he]
        rfl
  | ok b =>
      constructor
      · intro h
        exact nomatch h
      · rintro ⟨e₁, he, -⟩
        exact nomatch he

/-! ## Evaluation -/

/-- A guard whose condition holds ends the function with its own error. -/
theorem revertIf_bind_pos {c : Prop} [Decidable c] {e : ε}
    {f : Unit → Except ε β} (h : c) : (revertIf c e >>= f) = .error e := by
  unfold revertIf
  rw [if_pos h]
  rfl

/-- A guard whose condition fails is transparent. -/
theorem revertIf_bind_neg {c : Prop} [Decidable c] {e : ε}
    {f : Unit → Except ε β} (h : ¬ c) : (revertIf c e >>= f) = f () := by
  unfold revertIf
  rw [if_neg h]
  rfl

/-- A returned head is substituted into its tail. -/
theorem ok_bind {a : α} {f : α → Except ε β} :
    ((.ok a : Except ε α) >>= f) = f a := rfl

theorem add_eq [Panics ε] {a b : Nat} (h : a + b < uintBound) :
    (add a b : Except ε Nat) = .ok (a + b) := if_pos h

theorem add64_eq [Panics ε] {a b : Nat} (h : a + b < uint64Bound) :
    (add64 a b : Except ε Nat) = .ok (a + b) := if_pos h

theorem sub_eq [Panics ε] {a b : Nat} (h : b ≤ a) :
    (sub a b : Except ε Nat) = .ok (a - b) := if_pos h

theorem mul_eq [Panics ε] {a b : Nat} (h : a * b < uintBound) :
    (mul a b : Except ε Nat) = .ok (a * b) := if_pos h

theorem div_eq [Panics ε] {a b : Nat} (h : b ≠ 0) :
    (div a b : Except ε Nat) = .ok (a / b) := if_neg h

end CheckedArith
