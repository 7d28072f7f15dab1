import Mathlib.Data.List.AList

/-! # Passes over a map

    A loop over the entries of one map that writes, at each key, at most that
    key of another map.  The order of the loop does not matter, since every key
    comes once: after it, each key holds what its own turn left there
    (`lookup_assign`). -/

namespace MapAssign

variable {α β γ : Type} [DecidableEq α]

/-- A map with values of one type. -/
abbrev Map (α β : Type) : Type := AList fun _ : α => β

/-- The loop: `turn` sees a key, its entry and what the other map holds there,
    and may write. -/
def assign (turn : α → β → Option γ → Option γ) (m : Map α β) (p : Map α γ) :
    Map α γ :=
  m.foldl (fun q a b =>
    match turn a b (q.lookup a) with
    | none => q
    | some c => q.insert a c) p

/-- The loop that deletes the keys that are not kept. -/
def restrict (keep : α → Bool) (p : Map α β) : Map α β :=
  p.foldl (fun q a _ => if keep a then q else q.erase a) p

section
variable {turn : α → β → Option γ → Option γ}

/-- One turn writes its own key. -/
theorem lookup_turn (a : α) (b : β) (q : Map α γ) :
    (match turn a b (q.lookup a) with
      | none => q
      | some c => q.insert a c).lookup a =
        (turn a b (q.lookup a)).or (q.lookup a) := by
  cases turn a b (q.lookup a) with
  | none => rfl
  | some c => exact AList.lookup_insert q

/-- And no other. -/
theorem lookup_turn_ne {a x : α} (h : x ≠ a) (b : β) (q : Map α γ) :
    (match turn a b (q.lookup a) with
      | none => q
      | some c => q.insert a c).lookup x = q.lookup x := by
  cases turn a b (q.lookup a) with
  | none => rfl
  | some c => exact AList.lookup_insert_ne h

/-- **AFTER THE LOOP** every key holds what its own turn left. -/
theorem lookup_assign (m : Map α β) (p : Map α γ) (x : α) :
    (assign turn m p).lookup x =
      match m.lookup x with
      | none => p.lookup x
      | some b => (turn x b (p.lookup x)).or (p.lookup x) := by
  obtain ⟨l, hl⟩ := m
  show (l.foldl _ p).lookup x = match l.dlookup x with
    | none => p.lookup x
    | some b => (turn x b (p.lookup x)).or (p.lookup x)
  induction l generalizing p with
  | nil => rfl
  | cons e l ih =>
      obtain ⟨a, b⟩ := e
      obtain ⟨ha, hl⟩ := List.nodupKeys_cons.mp hl
      rw [List.foldl_cons, ih _ hl]
      by_cases hx : x = a
      · subst hx
        rw [List.dlookup_eq_none.mpr ha, List.dlookup_cons_eq]
        exact lookup_turn x b p
      · rw [List.dlookup_cons_ne _ _ hx, lookup_turn_ne hx]

end

/-- **WHAT IS KEPT** stays as it was. -/
theorem lookup_restrict (keep : α → Bool) (p : Map α β) (x : α) :
    (restrict keep p).lookup x = if keep x then p.lookup x else none := by
  have hpass : ∀ (l : List (Sigma fun _ : α => β)) (q : Map α β),
      (l.foldl (fun q e => if keep e.1 then q else q.erase e.1) q).lookup x =
        if keep x = false ∧ x ∈ l.keys then none else q.lookup x := by
    intro l
    induction l with
    | nil => intro q; simp
    | cons e l ih =>
        intro q
        rw [List.foldl_cons, ih]
        by_cases hx : x = e.1
        · subst hx
          cases hkeep : keep e.1 with
          | true => simp
          | false => simp [AList.lookup_erase]
        · have hsame : (if keep e.1 then q else q.erase e.1).lookup x =
              q.lookup x := by
            split
            · rfl
            · exact AList.lookup_erase_ne hx
          rw [hsame]
          simp only [List.keys_cons, List.mem_cons, hx, false_or]
  show (p.entries.foldl _ p).lookup x = _
  rw [hpass]
  cases hkeep : keep x with
  | true => simp
  | false =>
      by_cases hmem : x ∈ p.entries.keys
      · simp [hmem]
      · have hnone : p.lookup x = none := AList.lookup_eq_none.mpr hmem
        simp [hnone]

end MapAssign
