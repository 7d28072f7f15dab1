import Cooket.LedgerSumProofs

/-! # Balances that move

    Two things every model of money needs.  `move` takes an amount from one
    entry of a balance map to another, the same entry included.  `Erc20` is the
    interface of a fungible token, with what its standard promises of a call
    that returns and when it promises that a call returns.

    A proof about money never unfolds `move`: an entry that is not the source
    never falls (`le_move`), and the sum over all entries stays (`sum_move`). -/

namespace TokenLedger

variable {A : Type} [DecidableEq A]

/-- The balances after `n` moved from `src` to `dst`. -/
def move (f : A → Nat) (src dst : A) (n : Nat) : A → Nat :=
  let debited := Function.update f src (f src - n)
  Function.update debited dst (debited dst + n)

section Move

variable {f : A → Nat} {src dst a : A} {n : Nat}

theorem move_src (h : src ≠ dst) : move f src dst n src = f src - n := by
  unfold move
  rw [Function.update_of_ne h, Function.update_self]

/-- An entry other than the source gains what is sent to it. -/
theorem move_of_ne_src (h : a ≠ src) :
    move f src dst n a = f a + if a = dst then n else 0 := by
  unfold move
  by_cases hd : a = dst
  · subst hd
    rw [Function.update_self, Function.update_of_ne h, if_pos rfl]
  · rw [Function.update_of_ne hd, Function.update_of_ne h, if_neg hd,
      Nat.add_zero]

theorem move_dst (h : src ≠ dst) : move f src dst n dst = f dst + n := by
  rw [move_of_ne_src h.symm, if_pos rfl]

theorem move_of_ne (hs : a ≠ src) (hd : a ≠ dst) :
    move f src dst n a = f a := by
  rw [move_of_ne_src hs, if_neg hd, Nat.add_zero]

/-- Only the source can lose. -/
theorem le_move (h : a ≠ src) : f a ≤ move f src dst n a := by
  rw [move_of_ne_src h]
  exact Nat.le_add_right _ _

/-- … and no more than what is sent. -/
theorem le_move_add : f a ≤ move f src dst n a + n := by
  by_cases hs : a = src
  · subst hs
    by_cases hd : a = dst
    · subst hd
      unfold move
      rw [Function.update_self, Function.update_self]
      omega
    · rw [move_src hd]
      omega
  · exact (le_move hs).trans (Nat.le_add_right _ _)

/-- Sending to oneself changes nothing. -/
theorem move_self (h : n ≤ f a) : move f a a n = f := by
  funext b
  unfold move
  by_cases hb : b = a
  · subst hb
    rw [Function.update_self, Function.update_self, Nat.sub_add_cancel h]
  · rw [Function.update_of_ne hb, Function.update_of_ne hb]

theorem move_zero : move f src dst 0 = f := by
  funext b
  unfold move
  rw [Nat.sub_zero, Function.update_eq_self, Nat.add_zero,
    Function.update_eq_self]

/-- **MONEY IS CONSERVED.** -/
theorem sum_move [Fintype A] (h : n ≤ f src) :
    ∑ b, move f src dst n b = ∑ b, f b :=
  LedgerSum.sum_move h

end Move

/-! ## Tokens -/

/-- **A FUNGIBLE TOKEN**: its balances and allowances, its three functions, and
    what the standard says of them.  Nobody moves more than the owner holds, or
    than the owner allowed. -/
class Erc20 (A ε τ : Type) [DecidableEq A] [Zero A] where
  balanceOf : τ → A → Nat
  allowance : τ → A → A → Nat
  transfer : τ → A → A → Nat → Except ε τ
  transferFrom : τ → A → A → A → Nat → Except ε τ
  approve : τ → A → A → Nat → Except ε τ
  transfer_ok : ∀ t src dst n t', transfer t src dst n = .ok t' →
    n ≤ balanceOf t src ∧ balanceOf t' = move (balanceOf t) src dst n
      ∧ allowance t' = allowance t
  transferFrom_ok : ∀ t spender src dst n t',
    transferFrom t spender src dst n = .ok t' →
    n ≤ allowance t src spender ∧ n ≤ balanceOf t src
      ∧ balanceOf t' = move (balanceOf t) src dst n
      ∧ ∀ o s, allowance t' o s ≤ allowance t o s
  approve_ok : ∀ t owner spender n t', approve t owner spender n = .ok t' →
    balanceOf t' = balanceOf t ∧ allowance t' owner spender = n
      ∧ ∀ o s, (o = owner → s ≠ spender) → allowance t' o s = allowance t o s
  transfer_returns : ∀ t src dst n, src ≠ 0 → dst ≠ 0 →
    n ≤ balanceOf t src → ∃ t', transfer t src dst n = .ok t'
  transferFrom_returns : ∀ t spender src dst n, spender ≠ 0 → src ≠ 0 →
    dst ≠ 0 → n ≤ allowance t src spender → n ≤ balanceOf t src →
    ∃ t', transferFrom t spender src dst n = .ok t'
  approve_returns : ∀ t owner spender n, owner ≠ 0 → spender ≠ 0 →
    ∃ t', approve t owner spender n = .ok t'

/-- The plainest token: two maps. -/
structure Ledger (A : Type) where
  balances : A → Nat
  allowances : A → A → Nat

/-- The maps as a token; `e` is the error of every refusal. -/
@[reducible] def Ledger.erc20 {ε : Type} [Zero A] (e : ε) :
    Erc20 A ε (Ledger A) where
  balanceOf t := t.balances
  allowance t := t.allowances
  transfer t src dst n :=
    if src = 0 ∨ dst = 0 ∨ t.balances src < n then .error e
    else .ok { t with balances := move t.balances src dst n }
  transferFrom t spender src dst n :=
    if spender = 0 ∨ src = 0 ∨ dst = 0 ∨ t.allowances src spender < n
        ∨ t.balances src < n then .error e
    else .ok
      { balances := move t.balances src dst n
        allowances := Function.update t.allowances src
          (Function.update (t.allowances src) spender
            (t.allowances src spender - n)) }
  approve t owner spender n :=
    if owner = 0 ∨ spender = 0 then .error e
    else .ok { t with
      allowances := Function.update t.allowances owner
        (Function.update (t.allowances owner) spender n) }
  transfer_ok t src dst n t' h := by
    split at h
    · exact nomatch h
    · rename_i hc
      obtain rfl := Except.ok.inj h
      exact ⟨by omega, rfl, rfl⟩
  transferFrom_ok t spender src dst n t' h := by
    split at h
    · exact nomatch h
    · rename_i hc
      obtain rfl := Except.ok.inj h
      refine ⟨by omega, by omega, rfl, ?_⟩
      intro o s
      by_cases ho : o = src
      · subst ho
        by_cases hs : s = spender
        · subst hs
          simp only [Function.update_self]
          exact Nat.sub_le _ _
        · simp only [Function.update_self, Function.update_of_ne hs]
          exact Nat.le_refl _
      · simp only [Function.update_of_ne ho]
        exact Nat.le_refl _
  approve_ok t owner spender n t' h := by
    split at h
    · exact nomatch h
    · obtain rfl := Except.ok.inj h
      refine ⟨rfl, ?_, ?_⟩
      · simp only [Function.update_self]
      · intro o s hne
        by_cases ho : o = owner
        · subst ho
          simp only [Function.update_self, Function.update_of_ne (hne rfl)]
        · simp only [Function.update_of_ne ho]
  transfer_returns t src dst n hsrc hdst hn := by
    refine ⟨_, if_neg ?_⟩
    rintro (h | h | h)
    · exact hsrc h
    · exact hdst h
    · omega
  transferFrom_returns t spender src dst n hspender hsrc hdst ha hn := by
    refine ⟨_, if_neg ?_⟩
    rintro (h | h | h | h | h)
    · exact hspender h
    · exact hsrc h
    · exact hdst h
    · omega
    · omega
  approve_returns t owner spender n howner hspender := by
    refine ⟨_, if_neg ?_⟩
    rintro (h | h)
    · exact howner h
    · exact hspender h

end TokenLedger
