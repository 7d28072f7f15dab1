import Mathlib.Data.List.Nodup
import Mathlib.Logic.Function.Basic

/-! # A bounded memory that forgets the oldest

    A map of bounded size and a QUEUE of its keys, kept in step: what enters the
    one enters the other, and when the memory is full the key at the head of the
    queue leaves both.

    `Tidy` is the representation invariant, and `recent` says which keys there
    are: the last so many that were put in. -/

namespace BoundedMemory

/-- A map, the order in which its keys came, and how many it may have. -/
structure Memory (α β : Type) where
  capacity : Nat
  values : α → Option β
  order : List α

variable {α β : Type} [DecidableEq α]

/-- The empty memory. -/
def empty (capacity : Nat) : Memory α β := ⟨capacity, fun _ => none, []⟩

/-- Forget the oldest key. -/
def evict (m : Memory α β) : Memory α β :=
  match m.order with
  | [] => m
  | oldest :: rest =>
      { m with
        values := Function.update m.values oldest none
        order := rest }

/-- Add a key at the end. -/
def enter (m : Memory α β) (k : α) (v : β) : Memory α β :=
  { m with
    values := Function.update m.values k (some v)
    order := m.order ++ [k] }

/-- Put a new key in, after the oldest has left if the memory is full. -/
def put (m : Memory α β) (k : α) (v : β) : Memory α β :=
  if m.order.length = m.capacity then enter (evict m) k v else enter m k v

/-! ## The representation -/

/-- **THE MAP AND THE QUEUE AGREE**: the same keys, none twice, and not more
    than there is room for. -/
structure Tidy (m : Memory α β) : Prop where
  nodup : m.order.Nodup
  keys : ∀ k, (m.values k).isSome ↔ k ∈ m.order
  bound : m.order.length ≤ m.capacity

omit [DecidableEq α] in
theorem empty_tidy (capacity : Nat) : Tidy (empty capacity : Memory α β) where
  nodup := List.nodup_nil
  keys k := by
    constructor
    · intro h
      cases h
    · intro h
      cases h
  bound := Nat.zero_le _

variable {m : Memory α β}

@[simp] theorem evict_capacity : (evict m).capacity = m.capacity := by
  rw [evict]
  split
  · rfl
  · rfl

theorem evict_order : (evict m).order = m.order.tail := by
  rw [evict]
  split
  · next h =>
    rw [h]
    rfl
  · next h =>
    rw [h]
    rfl

/-- What is left was there before. -/
theorem evict_values {a : α} {b : β} (h : (evict m).values a = some b) :
    m.values a = some b := by
  rw [evict] at h
  split at h
  · exact h
  · next oldest rest _ =>
    dsimp only at h
    by_cases ha : a = oldest
    · rw [ha, Function.update_self] at h
      cases h
    · rw [Function.update_of_ne ha] at h
      exact h

theorem evict_tidy (h : Tidy m) : Tidy (evict m) := by
  cases horder : m.order with
  | nil =>
      have heq : evict m = m := by
        rw [evict, horder]
      rw [heq]
      exact h
  | cons oldest rest =>
      have heq : evict m = { m with
          values := Function.update m.values oldest none
          order := rest } := by
        rw [evict, horder]
      have hnodup := h.nodup
      have hbound := h.bound
      rw [horder] at hnodup hbound
      obtain ⟨hnot, hrest⟩ := List.nodup_cons.mp hnodup
      rw [heq]
      refine ⟨hrest, ?_, Nat.le_trans (Nat.le_succ _) hbound⟩
      intro k
      show (Function.update m.values oldest none k).isSome ↔ k ∈ rest
      by_cases hk : k = oldest
      · subst hk
        rw [Function.update_self]
        constructor
        · intro hsome
          cases hsome
        · intro hmem
          exact absurd hmem hnot
      · rw [Function.update_of_ne hk, h.keys k, horder, List.mem_cons]
        constructor
        · rintro (heq | hmem)
          · exact absurd heq hk
          · exact hmem
        · intro hmem
          exact .inr hmem

theorem enter_tidy (h : Tidy m) {k : α} (v : β) (hk : k ∉ m.order)
    (hroom : m.order.length < m.capacity) : Tidy (enter m k v) := by
  refine ⟨?_, ?_, ?_⟩
  · show (m.order ++ [k]).Nodup
    rw [List.nodup_append]
    refine ⟨h.nodup, List.nodup_singleton k, ?_⟩
    intro a ha b hb hab
    rw [List.mem_singleton.mp hb] at hab
    rw [hab] at ha
    exact hk ha
  · intro a
    show (Function.update m.values k (some v) a).isSome ↔ a ∈ m.order ++ [k]
    rw [List.mem_append, List.mem_singleton]
    by_cases ha : a = k
    · rw [ha, Function.update_self]
      constructor
      · intro _
        exact .inr rfl
      · intro _
        rfl
    · rw [Function.update_of_ne ha, h.keys a]
      constructor
      · intro hmem
        exact .inl hmem
      · rintro (hmem | heq)
        · exact hmem
        · exact absurd heq ha
  · show (m.order ++ [k]).length ≤ m.capacity
    rw [List.length_append, List.length_singleton]
    exact hroom

/-- **PUTTING A NEW KEY IN KEEPS THE MEMORY TIDY**. -/
theorem put_tidy (hcapacity : 0 < m.capacity) (h : Tidy m) {k : α} (v : β)
    (hk : k ∉ m.order) : Tidy (put m k v) := by
  rw [put]
  split
  · next hfull =>
    refine enter_tidy (evict_tidy h) v ?_ ?_
    · rw [evict_order]
      exact fun hmem => hk (List.mem_of_mem_tail hmem)
    · rw [evict_order, evict_capacity, List.length_tail]
      omega
  · next hnot =>
    exact enter_tidy h v hk (Nat.lt_of_le_of_ne h.bound hnot)

@[simp] theorem put_capacity (k : α) (v : β) :
    (put m k v).capacity = m.capacity := by
  rw [put]
  split
  · exact evict_capacity
  · rfl

/-- **WHAT IS FOUND** was put in now or was there before. -/
theorem put_values {k a : α} {v b : β} (h : (put m k v).values a = some b) :
    (a = k ∧ b = v) ∨ m.values a = some b := by
  have henter : ∀ m' : Memory α β, (enter m' k v).values a = some b →
      (a = k ∧ b = v) ∨ m'.values a = some b := by
    intro m' h'
    have h' : Function.update m'.values k (some v) a = some b := h'
    by_cases ha : a = k
    · rw [ha, Function.update_self] at h'
      exact .inl ⟨ha, (Option.some.inj h').symm⟩
    · rw [Function.update_of_ne ha] at h'
      exact .inr h'
  rw [put] at h
  split at h
  · rcases henter _ h with hnew | hold
    · exact .inl hnew
    · exact .inr (evict_values hold)
  · exact henter _ h

/-! ## Which keys there are -/

/-- The last so many of a list. -/
def recent (n : Nat) (l : List α) : List α := l.drop (l.length - n)

omit [DecidableEq α] in
theorem recent_length (n : Nat) (l : List α) :
    (recent n l).length = min n l.length := by
  rw [recent, List.length_drop]
  omega

omit [DecidableEq α] in
/-- One more: the first falls out if there is no room. -/
theorem recent_concat {n : Nat} (hn : 0 < n) (l : List α) (x : α) :
    recent n (l ++ [x]) =
      (if (recent n l).length = n then (recent n l).tail else recent n l) ++
        [x] := by
  rw [recent_length, recent, recent, List.length_append, List.length_singleton]
  by_cases hfull : n ≤ l.length
  · rw [if_pos (Nat.min_eq_left hfull), List.tail_drop,
      show l.length + 1 - n = l.length - n + 1 by omega]
    exact List.drop_append_of_le_length (by omega)
  · rw [if_neg (by omega), show l.length + 1 - n = 0 by omega,
      show l.length - n = 0 by omega]
    rfl

/-- **THE QUEUE IS THE RECENT PAST** of what was put in. -/
theorem put_recent (hcapacity : 0 < m.capacity) {past : List α}
    (h : m.order = recent m.capacity past) (k : α) (v : β) :
    (put m k v).order = recent m.capacity (past ++ [k]) := by
  rw [recent_concat hcapacity, ← h, put]
  by_cases hfull : m.order.length = m.capacity
  · rw [if_pos hfull, if_pos hfull, ← evict_order]
    rfl
  · rw [if_neg hfull, if_neg hfull]
    rfl

end BoundedMemory
