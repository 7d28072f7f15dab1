import Cooket.CheckedArithProofs

/-! # Re-entrant execution of guarded entry points

    A machine offers entry points `κ` on a state `σ`.  An entry runs in two
    halves: `enter` does everything up to the moment the code may hand control
    to somebody else, and `leave` what is left once it has control back.  In
    between, UNTRUSTED code runs: a finite tree of further calls (`Script`),
    each of which may be handed control again.  A call whose own code fails, or
    whose callee gives control back with a failure, leaves no trace.

    Quantifying over all scripts quantifies over every adversary: what a
    deterministic callee does with what it sees is one branch of some tree.

    A property that `enter` establishes and `leave` keeps is carried through
    every tree by ONE induction (`run_preorder`); everything proved about a
    machine below goes through that rule or the two built on it. -/

namespace Reentrant

variable {σ κ ρ ε : Type}

/-- Untrusted code: give control back, or make a call and go on. -/
inductive Script (κ : Type) where
  | halt (success : Bool)
  | call (k : κ) (callback rest : Script κ)

/-- Every call of a script satisfies `P`. -/
def Script.All (P : κ → Prop) : Script κ → Prop
  | .halt _ => True
  | .call k callback rest => P k ∧ callback.All P ∧ rest.All P

theorem Script.all_true (p : Script κ) : p.All (fun _ => True) := by
  induction p with
  | halt success => trivial
  | call k callback rest ihc ihr => exact ⟨trivial, ihc, ihr⟩

/-- The first half of an entry: the state in which control may pass to
    untrusted code, whether it does, and what the second half needs. -/
structure Entry (σ ρ : Type) where
  state : σ
  yields : Bool
  ret : ρ

/-- Entry points split at the moment they may lose control. -/
structure Machine (σ κ ρ ε : Type) where
  enter : κ → σ → Except ε (Entry σ ρ)
  leave : ρ → σ → σ

namespace Machine

variable (M : Machine σ κ ρ ε)

/-- One whole call, given what the code it may yield to does. -/
def complete (callback : σ → Option σ) (k : κ) (s : σ) : σ :=
  match M.enter k s with
  | .error _ => s
  | .ok e =>
      if e.yields then
        match callback e.state with
        | none => s
        | some s' => M.leave e.ret s'
      else M.leave e.ret e.state

/-- Run untrusted code; `none` means it gives control back with a failure, so
    that everything it did is undone. -/
def run : Script κ → σ → Option σ
  | .halt success => fun s => if success then some s else none
  | .call k callback rest => fun s =>
      run rest (M.complete (run callback) k s)

/-- One top-level transaction. -/
def transact (k : κ) (callback : Script κ) (s : σ) : σ :=
  M.complete (M.run callback) k s

/-- A sequence of top-level transactions. -/
def runTxs : List (κ × Script κ) → σ → σ
  | [], s => s
  | (k, callback) :: txs, s => runTxs txs (M.transact k callback s)

theorem runTxs_append (xs ys : List (κ × Script κ)) (s : σ) :
    M.runTxs (xs ++ ys) s = M.runTxs ys (M.runTxs xs s) := by
  induction xs generalizing s with
  | nil => rfl
  | cons x xs ih => exact ih _

/-! ## Completed calls -/

/-- The code a call hands control to has come to its end in `s'`; a call that
    hands it to nobody goes on where it stopped. -/
def Resumes (callback : Script κ) (e : Entry σ ρ) (s' : σ) : Prop :=
  if e.yields then M.run callback e.state = some s' else s' = e.state

/-- A transaction whose two halves run is the second after the first. -/
theorem transact_resumes {k : κ} {callback : Script κ} {s s' : σ}
    {e : Entry σ ρ} (hk : M.enter k s = .ok e) (h : M.Resumes callback e s') :
    M.transact k callback s = M.leave e.ret s' := by
  unfold Resumes at h
  unfold transact complete
  rw [hk]
  cases hy : e.yields with
  | false =>
      rw [hy] at h
      subst h
      simp [hy]
  | true =>
      rw [hy, if_pos rfl] at h
      simp [hy, h]

/-- A completed call left no trace, or both halves ran. -/
theorem complete_cases (callback : σ → Option σ) (k : κ) (s : σ) :
    M.complete callback k s = s ∨
    ∃ e s', M.enter k s = .ok e ∧
      (e.yields = true → callback e.state = some s') ∧
      (e.yields = false → s' = e.state) ∧
      M.complete callback k s = M.leave e.ret s' := by
  unfold complete
  cases hk : M.enter k s with
  | error err => exact Or.inl rfl
  | ok e =>
      cases hy : e.yields with
      | false =>
          refine Or.inr ⟨e, e.state, rfl, ?_, fun _ => rfl, ?_⟩
          · intro h
            rw [hy] at h
            exact nomatch h
          · simp [hy]
      | true =>
          cases hc : callback e.state with
          | none =>
              refine Or.inl ?_
              simp [hy, hc]
          | some s' =>
              refine Or.inr ⟨e, s', rfl, fun _ => hc, ?_, ?_⟩
              · intro h
                rw [hy] at h
                exact nomatch h
              · simp [hy, hc]

/-- A failed first half leaves no trace. -/
theorem transact_error {k : κ} {callback : Script κ} {s : σ} {err : ε}
    (h : M.enter k s = .error err) : M.transact k callback s = s := by
  unfold transact complete
  rw [h]

/-- A first half that never returns leaves no trace. -/
theorem transact_not_ok {k : κ} {callback : Script κ} {s : σ}
    (h : ∀ e, M.enter k s ≠ .ok e) : M.transact k callback s = s := by
  cases hk : M.enter k s with
  | error err => exact M.transact_error hk
  | ok e => exact absurd hk (h e)

/-- A failed callee leaves no trace either. -/
theorem transact_callback_fails {k : κ} {callback : Script κ} {s : σ}
    {e : Entry σ ρ} (h : M.enter k s = .ok e) (hy : e.yields = true)
    (hc : M.run callback e.state = none) : M.transact k callback s = s := by
  unfold transact complete
  rw [h]
  simp [hy, hc]

/-! ## The run rule -/

section Preorder

variable {R : σ → σ → Prop}

/-- The step hypothesis of the run rule: a relation that covers the first half
    of a call in `P`, and any code run in between, covers the whole call. -/
def CoversOn (P : κ → Prop) (R : σ → σ → Prop) : Prop :=
  ∀ k s e, P k → M.enter k s = .ok e →
    ∀ s', R e.state s' → R s (M.leave e.ret s')

/-- The same for every call. -/
def Covers (R : σ → σ → Prop) : Prop :=
  ∀ k s e, M.enter k s = .ok e → ∀ s', R e.state s' → R s (M.leave e.ret s')

/-- A covered relation holds across a completed call, if it holds across the
    code the call yields to. -/
theorem complete_preorder {P : κ → Prop} (hrefl : ∀ s, R s s)
    (hcov : M.CoversOn P R) {callback : σ → Option σ}
    (hcb : ∀ s s', callback s = some s' → R s s') {k : κ} (hk : P k) (s : σ) :
    R s (M.complete callback k s) := by
  rcases M.complete_cases callback k s with h | ⟨e, s', he, hy, hn, h⟩
  · rw [h]
    exact hrefl s
  · rw [h]
    refine hcov k s e hk he s' ?_
    cases hyv : e.yields with
    | true => exact hcb _ _ (hy hyv)
    | false =>
        rw [hn hyv]
        exact hrefl _

/-- **THE RUN RULE**: a preorder that covers every call in `P` holds across
    every run of untrusted code that keeps to `P`.  Induction on the script;
    the two hypotheses are the code a call yields to and the code that
    follows it. -/
theorem run_preorder_on {P : κ → Prop} (hrefl : ∀ s, R s s)
    (htrans : ∀ a b c, R a b → R b c → R a c) (hcov : M.CoversOn P R)
    (p : Script κ) :
    p.All P → ∀ s s', M.run p s = some s' → R s s' := by
  induction p with
  | halt success =>
      intro _ s s' h
      cases success with
      | false => exact nomatch h
      | true =>
          have hs : s = s' := Option.some.inj h
          rw [hs]
          exact hrefl s'
  | call k callback rest ihc ihr =>
      rintro ⟨hk, hcallback, hrest⟩ s s' h
      exact htrans _ _ _
        (M.complete_preorder hrefl hcov (ihc hcallback) hk s)
        (ihr hrest _ _ h)

theorem transact_preorder_on {P : κ → Prop} (hrefl : ∀ s, R s s)
    (htrans : ∀ a b c, R a b → R b c → R a c) (hcov : M.CoversOn P R)
    {k : κ} (hk : P k) {callback : Script κ} (hcb : callback.All P) (s : σ) :
    R s (M.transact k callback s) :=
  M.complete_preorder hrefl hcov
    (M.run_preorder_on hrefl htrans hcov callback hcb) hk s

theorem Covers.on {M : Machine σ κ ρ ε} (hcov : M.Covers R) :
    M.CoversOn (fun _ => True) R :=
  fun k s e _ => hcov k s e

theorem run_preorder (hrefl : ∀ s, R s s)
    (htrans : ∀ a b c, R a b → R b c → R a c) (hcov : M.Covers R)
    (p : Script κ) : ∀ s s', M.run p s = some s' → R s s' :=
  M.run_preorder_on hrefl htrans hcov.on p p.all_true

/-- What holds across every run holds across the code a call hands control
    to. -/
theorem resumes_preorder (hrefl : ∀ s, R s s)
    (htrans : ∀ a b c, R a b → R b c → R a c) (hcov : M.Covers R)
    {callback : Script κ} {e : Entry σ ρ} {s' : σ}
    (h : M.Resumes callback e s') : R e.state s' := by
  unfold Resumes at h
  cases hy : e.yields with
  | false =>
      rw [hy] at h
      subst h
      exact hrefl _
  | true =>
      rw [hy, if_pos rfl] at h
      exact M.run_preorder hrefl htrans hcov callback _ _ h

theorem transact_preorder (hrefl : ∀ s, R s s)
    (htrans : ∀ a b c, R a b → R b c → R a c) (hcov : M.Covers R)
    (k : κ) (callback : Script κ) (s : σ) :
    R s (M.transact k callback s) :=
  M.transact_preorder_on hrefl htrans hcov.on (k := k) trivial
    callback.all_true s

theorem runTxs_preorder (hrefl : ∀ s, R s s)
    (htrans : ∀ a b c, R a b → R b c → R a c) (hcov : M.Covers R)
    (txs : List (κ × Script κ)) : ∀ s, R s (M.runTxs txs s) := by
  induction txs with
  | nil => exact hrefl
  | cons tx txs ih =>
      intro s
      exact htrans _ _ _
        (M.transact_preorder hrefl htrans hcov tx.1 tx.2 s) (ih _)

end Preorder

/-! ## Invariants -/

/-- Both halves of every call keep `I`. -/
structure Keeps (I : σ → Prop) : Prop where
  enter : ∀ k s e, M.enter k s = .ok e → I s → I e.state
  leave : ∀ k s e, M.enter k s = .ok e → ∀ s', I s' → I (M.leave e.ret s')

/-- An invariant, read as a relation, covers every call. -/
theorem Keeps.covers {M : Machine σ κ ρ ε} {I : σ → Prop} (h : M.Keeps I) :
    M.Covers (fun s s' => I s → I s') := by
  intro k s e hk s' hR hs
  exact h.leave k s e hk s' (hR (h.enter k s e hk hs))

theorem Keeps.run {M : Machine σ κ ρ ε} {I : σ → Prop} (h : M.Keeps I)
    {p : Script κ} {s s' : σ} (hr : M.run p s = some s') (hs : I s) : I s' :=
  M.run_preorder (R := fun s s' => I s → I s') (fun _ => id)
    (fun _ _ _ f g => g ∘ f) h.covers p s s' hr hs

theorem Keeps.runTxs {M : Machine σ κ ρ ε} {I : σ → Prop} (h : M.Keeps I)
    (txs : List (κ × Script κ)) {s : σ} (hs : I s) : I (M.runTxs txs s) :=
  M.runTxs_preorder (R := fun s s' => I s → I s') (fun _ => id)
    (fun _ _ _ f g => g ∘ f) h.covers txs s hs

/-! ## Half a call at a time -/

/-- One half of a call. -/
inductive Half : σ → σ → Prop where
  | enter {k : κ} {s : σ} {e : Entry σ ρ} :
      M.enter k s = .ok e → Half s e.state
  | leave (r : ρ) (s : σ) : Half s (M.leave r s)

/-- What can follow a state that is not undone: halves of calls, in any
    order.  This allows more than the machine does, since a second half need
    not belong to a first one. -/
def Later : σ → σ → Prop := Relation.ReflTransGen M.Half

theorem covers_later : M.Covers M.Later := by
  intro k s e hk s' h
  exact (Relation.ReflTransGen.head (Half.enter hk) h).tail (Half.leave _ _)

/-- A whole transaction is a sequence of halves. -/
theorem later_transact (k : κ) (callback : Script κ) (s : σ) :
    M.Later s (M.transact k callback s) :=
  M.transact_preorder (fun _ => Relation.ReflTransGen.refl)
    (fun _ _ _ => Relation.ReflTransGen.trans) M.covers_later k callback s

/-- A preorder that both halves respect holds of everything that follows. -/
theorem Later.preorder {M : Machine σ κ ρ ε} {R : σ → σ → Prop}
    (hrefl : ∀ s, R s s) (htrans : ∀ a b c, R a b → R b c → R a c)
    (hhalf : ∀ s s', M.Half s s' → R s s') {s s' : σ} (h : M.Later s s') :
    R s s' := by
  induction h with
  | refl => exact hrefl s
  | tail _ hstep ih => exact htrans _ _ _ ih (hhalf _ _ hstep)

/-- The induction rule for invariants. -/
theorem Later.invariant {M : Machine σ κ ρ ε} {I : σ → Prop}
    (hhalf : ∀ s s', M.Half s s' → I s → I s') {s s' : σ}
    (h : M.Later s s') (hs : I s) : I s' :=
  Later.preorder (R := fun s s' => I s → I s') (fun _ => id)
    (fun _ _ _ f g => g ∘ f) hhalf h hs

/-! ## States in which somebody else has control -/

/-- The states untrusted code can be in: between transactions, handed control
    by a call, or after a call it made. -/
inductive Observable (s₀ : σ) : σ → Prop where
  | start : Observable s₀ s₀
  | handed {k : κ} {s : σ} {e : Entry σ ρ} :
      Observable s₀ s → M.enter k s = .ok e → Observable s₀ e.state
  | called {k : κ} {callback : Script κ} {s : σ} :
      Observable s₀ s → Observable s₀ (M.transact k callback s)

theorem Observable.runTxs {M : Machine σ κ ρ ε} {s₀ : σ}
    (txs : List (κ × Script κ)) :
    ∀ {s : σ}, M.Observable s₀ s → M.Observable s₀ (M.runTxs txs s) := by
  induction txs with
  | nil => exact fun h => h
  | cons tx txs ih => exact fun h => ih (.called h)

/-- Untrusted code sees only what halves of calls can lead to. -/
theorem Observable.later {M : Machine σ κ ρ ε} {s₀ s : σ}
    (h : M.Observable s₀ s) : M.Later s₀ s := by
  induction h with
  | start => exact Relation.ReflTransGen.refl
  | handed _ hk ih => exact ih.tail (.enter hk)
  | called _ ih => exact ih.trans (M.later_transact _ _ _)

/-- A covered preorder holds wherever somebody else has control, if first
    halves respect it. -/
theorem Observable.preorder {M : Machine σ κ ρ ε} {R : σ → σ → Prop}
    (hrefl : ∀ s, R s s) (htrans : ∀ a b c, R a b → R b c → R a c)
    (henter : ∀ k s e, M.enter k s = .ok e → R s e.state) (hcov : M.Covers R)
    {s₀ s : σ} (h : M.Observable s₀ s) : R s₀ s := by
  induction h with
  | start => exact hrefl s₀
  | handed _ hk ih => exact htrans _ _ _ ih (henter _ _ _ hk)
  | called _ ih =>
      exact htrans _ _ _ ih (M.transact_preorder hrefl htrans hcov _ _ _)

/-- An invariant holds wherever somebody else has control. -/
theorem Keeps.observable {M : Machine σ κ ρ ε} {I : σ → Prop} (h : M.Keeps I)
    {s₀ s : σ} (h₀ : I s₀) (hs : M.Observable s₀ s) : I s := by
  induction hs with
  | start => exact h₀
  | handed _ hk ih => exact h.enter _ _ _ hk ih
  | called _ ih =>
      exact M.transact_preorder (R := fun s s' => I s → I s') (fun _ => id)
        (fun _ _ _ f g => g ∘ f) h.covers _ _ _ ih

/-! ## Forgetting part of a state -/

/-- The machine `N` is the machine `M` seen through `f`: both halves of every
    call are what `f` makes of them. -/
structure Seen {τ : Type} (M : Machine σ κ ρ ε) (N : Machine τ κ ρ ε)
    (f : σ → τ) : Prop where
  enter : ∀ k s, N.enter k (f s) =
    (M.enter k s).map fun e => ⟨f e.state, e.yields, e.ret⟩
  leave : ∀ r s, N.leave r (f s) = f (M.leave r s)

namespace Seen

variable {τ : Type} {M : Machine σ κ ρ ε} {N : Machine τ κ ρ ε} {f : σ → τ}

theorem complete (h : M.Seen N f) {callback : σ → Option σ}
    {callback' : τ → Option τ}
    (hcb : ∀ s, callback' (f s) = (callback s).map f) (k : κ) (s : σ) :
    N.complete callback' k (f s) = f (M.complete callback k s) := by
  rw [Machine.complete, Machine.complete, h.enter]
  cases hk : M.enter k s with
  | error err => rfl
  | ok e =>
      show (if e.yields then _ else _) = f (if e.yields then _ else _)
      cases e.yields with
      | false => exact h.leave _ _
      | true =>
          simp only [if_true]
          rw [hcb]
          cases callback e.state with
          | none => rfl
          | some s' => exact h.leave _ _

theorem run (h : M.Seen N f) (p : Script κ) :
    ∀ s, N.run p (f s) = (M.run p s).map f := by
  induction p with
  | halt success =>
      intro s
      cases success <;> rfl
  | call k callback rest ihc ihr =>
      intro s
      show N.run rest (N.complete (N.run callback) k (f s)) = _
      rw [h.complete ihc, ihr]
      rfl

theorem transact (h : M.Seen N f) (k : κ) (callback : Script κ) (s : σ) :
    N.transact k callback (f s) = f (M.transact k callback s) :=
  h.complete (h.run callback) k s

/-- **A RUN SEEN THROUGH A MAP** is the run of what is seen. -/
theorem runTxs (h : M.Seen N f) (txs : List (κ × Script κ)) :
    ∀ s, N.runTxs txs (f s) = f (M.runTxs txs s) := by
  induction txs with
  | nil => exact fun _ => rfl
  | cons tx txs ih =>
      intro s
      show N.runTxs txs (N.transact tx.1 tx.2 (f s)) = _
      rw [h.transact, ih]
      rfl

end Seen

end Machine

/-! ## Second halves that can fail -/

/-- Entry points whose second half may fail as well, which undoes the whole
    call. -/
structure Fallible (σ κ ρ ε : Type) where
  enter : κ → σ → Except ε (Entry σ ρ)
  leave : ρ → σ → Except ε σ

namespace Fallible

variable (F : Fallible σ κ ρ ε)

/-- As a machine: a call keeps the state it goes back to. -/
def machine : Machine σ κ (σ × ρ) ε where
  enter k s := do
    let e ← F.enter k s
    pure ⟨e.state, e.yields, s, e.ret⟩
  leave r s :=
    match F.leave r.2 s with
    | .ok s' => s'
    | .error _ => r.1

theorem machine_enter {k : κ} {s : σ} {e : Entry σ (σ × ρ)}
    (h : F.machine.enter k s = .ok e) :
    ∃ e', F.enter k s = .ok e' ∧ e = ⟨e'.state, e'.yields, s, e'.ret⟩ := by
  unfold machine at h
  cases hk : F.enter k s with
  | error err =>
      simp only [hk] at h
      exact nomatch h
  | ok e' =>
      simp only [hk] at h
      exact ⟨e', rfl, (Except.ok.inj h).symm⟩

/-- A relation that covers every call whose two halves return. -/
def Covers (R : σ → σ → Prop) : Prop :=
  ∀ k s e, F.enter k s = .ok e →
    R s e.state ∧ ∀ s' s'', R e.state s' → F.leave e.ret s' = .ok s'' → R s s''

/-- A covered preorder holds wherever somebody else has control. -/
theorem Covers.observable {F : Fallible σ κ ρ ε} {R : σ → σ → Prop}
    (hrefl : ∀ s, R s s) (htrans : ∀ a b c, R a b → R b c → R a c)
    (hcov : F.Covers R) {s₀ s : σ} (h : F.machine.Observable s₀ s) :
    R s₀ s := by
  refine h.preorder hrefl htrans ?_ ?_
  · intro k s e hk
    obtain ⟨e', hk', rfl⟩ := F.machine_enter hk
    exact (hcov k s e' hk').1
  · intro k s e hk s' hbetween
    obtain ⟨e', hk', rfl⟩ := F.machine_enter hk
    show R s (match F.leave e'.ret s' with
      | .ok s'' => s''
      | .error _ => s)
    cases hleave : F.leave e'.ret s' with
    | error err => exact hrefl s
    | ok s'' => exact (hcov k s e' hk').2 s' s'' hbetween hleave

/-- A call that does not come to its end leaves no trace. -/
theorem transact_fails {F : Fallible σ κ ρ ε} {k : κ} {callback : Script κ}
    {s : σ}
    (h : ∀ e, F.enter k s = .ok e → e.yields = true
      ∧ F.machine.run callback e.state = none) :
    F.machine.transact k callback s = s := by
  rcases F.machine.complete_cases (F.machine.run callback) k s with
    hsame | ⟨e, s', hk, hyields, -, -⟩
  · exact hsame
  · obtain ⟨e', hk', rfl⟩ := F.machine_enter hk
    obtain ⟨hy, hnone⟩ := h e' hk'
    rw [hyields hy] at hnone
    exact nomatch hnone

end Fallible

end Reentrant
