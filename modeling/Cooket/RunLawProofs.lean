import Mathlib.Tactic.Common

/-! # Laws over runs of a deterministic machine

    A machine is a step function.  `Always` says a property holds in every
    state a list of inputs leads through, `Throughout` that every input meets a
    condition in the state it finds.  `always_iff` is the one induction: a
    property that each step keeps EXACTLY IF the step meets the condition holds
    throughout a run exactly if the run meets it throughout. -/

namespace RunLaw

variable {σ δ : Type} (step : σ → δ → σ)

/-- The property holds in every state of the run, the first one included. -/
def Always (Q : σ → Prop) : σ → List δ → Prop
  | s, [] => Q s
  | s, d :: ds => Q s ∧ Always Q (step s d) ds

/-- Every input meets the condition in the state it finds. -/
def Throughout (R : σ → δ → Prop) : σ → List δ → Prop
  | _, [] => True
  | s, d :: ds => R s d ∧ Throughout R (step s d) ds

/-- The states of a run are the states after its prefixes. -/
theorem always_iff_prefix (Q : σ → Prop) (s : σ) (ds : List δ) :
    Always step Q s ds ↔ ∀ ds₁ ds₂, ds = ds₁ ++ ds₂ → Q (ds₁.foldl step s) := by
  induction ds generalizing s with
  | nil =>
      constructor
      · intro h ds₁ ds₂ heq
        obtain ⟨rfl, -⟩ := List.append_eq_nil_iff.mp heq.symm
        exact h
      · intro h
        exact h [] [] rfl
  | cons d ds ih =>
      constructor
      · rintro ⟨hs, hrest⟩ ds₁ ds₂ heq
        cases ds₁ with
        | nil => exact hs
        | cons d' ds₁ =>
            obtain ⟨rfl, htail⟩ := List.cons.inj heq
            exact (ih _).mp hrest ds₁ ds₂ htail
      · intro h
        refine ⟨h [] _ rfl, (ih _).mpr ?_⟩
        intro ds₁ ds₂ heq
        exact h (d :: ds₁) ds₂ (by rw [heq, List.cons_append])

theorem Throughout.imp {R S : σ → δ → Prop} (h : ∀ s d, R s d → S s d) :
    ∀ {s : σ} {ds : List δ}, Throughout step R s ds → Throughout step S s ds := by
  intro s ds
  induction ds generalizing s with
  | nil => exact fun _ => trivial
  | cons d ds ih => exact fun hr => ⟨h s d hr.1, ih hr.2⟩

theorem throughout_true (s : σ) (ds : List δ) :
    Throughout step (fun _ _ => True) s ds := by
  induction ds generalizing s with
  | nil => trivial
  | cons d ds ih => exact ⟨trivial, ih _⟩

/-- A condition on a run is one on its parts. -/
theorem throughout_append {R : σ → δ → Prop} {s : σ} (ds ds' : List δ) :
    Throughout step R s (ds ++ ds') ↔
      Throughout step R s ds ∧ Throughout step R (ds.foldl step s) ds' := by
  induction ds generalizing s with
  | nil =>
      constructor
      · intro h
        exact ⟨trivial, h⟩
      · intro h
        exact h.2
  | cons d ds ih =>
      constructor
      · rintro ⟨hd, hrest⟩
        obtain ⟨hds, hds'⟩ := ih.mp hrest
        exact ⟨⟨hd, hds⟩, hds'⟩
      · rintro ⟨⟨hd, hds⟩, hds'⟩
        exact ⟨hd, ih.mpr ⟨hds, hds'⟩⟩

theorem Always.imp {Q Q' : σ → Prop} (h : ∀ s, Q s → Q' s) :
    ∀ {s : σ} {ds : List δ}, Always step Q s ds → Always step Q' s ds := by
  intro s ds
  induction ds generalizing s with
  | nil => exact h s
  | cons d ds ih => exact fun hq => ⟨h s hq.1, ih hq.2⟩

/-- What every step keeps holds throughout. -/
theorem always_of_keeps {A : σ → δ → Prop} {Inv : σ → Prop}
    (hkeep : ∀ s d, Inv s → A s d → Inv (step s d)) :
    ∀ {s : σ} {ds : List δ}, Inv s → Throughout step A s ds →
      Always step Inv s ds := by
  intro s ds
  induction ds generalizing s with
  | nil => exact fun h _ => h
  | cons d ds ih => exact fun h ha => ⟨h, ih (hkeep s d h ha.1) ha.2⟩

/-- **THE LAW OF A RUN.**  Among the inputs that are allowed (`A`), under an
    invariant every allowed input keeps: if a step keeps the property exactly
    when it meets the condition, so does a run. -/
theorem always_iff {A R : σ → δ → Prop} {Inv Q : σ → Prop}
    (hkeep : ∀ s d, Inv s → A s d → Inv (step s d))
    (hstep : ∀ s d, Inv s → Q s → A s d → (Q (step s d) ↔ R s d)) :
    ∀ {s : σ} {ds : List δ}, Inv s → Q s → Throughout step A s ds →
      (Always step Q s ds ↔ Throughout step R s ds) := by
  intro s ds
  induction ds generalizing s with
  | nil => exact fun _ hq _ => ⟨fun _ => trivial, fun _ => hq⟩
  | cons d ds ih =>
      intro hinv hq ha
      have hiff := hstep s d hinv hq ha.1
      constructor
      · rintro ⟨-, hrest⟩
        have hq' : Q (step s d) := by
          cases ds with
          | nil => exact hrest
          | cons _ _ => exact hrest.1
        exact ⟨hiff.mp hq', (ih (hkeep s d hinv ha.1) hq' ha.2).mp hrest⟩
      · rintro ⟨hr, hrest⟩
        have hq' := hiff.mpr hr
        exact ⟨hq, (ih (hkeep s d hinv ha.1) hq' ha.2).mpr hrest⟩

end RunLaw
