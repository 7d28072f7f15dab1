import Mathlib.Data.List.Induction
import Mathlib.Data.List.Lex
import Mathlib.Tactic.Ring
import Mathlib.Tactic.Linarith

/-! # Numerals of a fixed width

    A number below `b ^ n` has exactly one numeral of `n` digits in base `b`,
    the most significant digit first: `digits` writes it and `value` reads it.

    Numerals of ONE width compare as their numbers do, digit by digit from the
    left.  So do their spellings, in any alphabet that keeps the order of the
    digits: which is why hexadecimal texts and byte strings sort like the
    numbers they stand for. -/

namespace Numeral

/-! ## Writing and reading -/

/-- The number that a string of digits stands for. -/
def value (b : Nat) (ds : List Nat) : Nat :=
  ds.foldl (fun n d => b * n + d) 0

/-- The numeral of a number, in a width. -/
def digits (b : Nat) : Nat → Nat → List Nat
  | 0, _ => []
  | n + 1, x => digits b n (x / b) ++ [x % b]

/-- A string of digits, all of them below the base. -/
def Proper (b : Nat) (ds : List Nat) : Prop := ∀ d ∈ ds, d < b

variable {b : Nat}

theorem value_nil : value b [] = 0 := rfl

/-- The last digit counts once. -/
theorem value_concat (ds : List Nat) (d : Nat) :
    value b (ds ++ [d]) = b * value b ds + d := by
  rw [value, List.foldl_append]
  rfl

/-- The first digit counts most. -/
theorem value_cons (d : Nat) (ds : List Nat) :
    value b (d :: ds) = d * b ^ ds.length + value b ds := by
  induction ds using List.reverseRecOn with
  | nil =>
      show b * 0 + d = d * b ^ 0 + 0
      ring
  | append_singleton ds e ih =>
      rw [← List.cons_append, value_concat, value_concat, ih,
        List.length_append, List.length_singleton, pow_succ]
      ring

@[simp] theorem digits_length (n x : Nat) : (digits b n x).length = n := by
  induction n generalizing x with
  | zero => rfl
  | succ n ih => rw [digits, List.length_append, ih, List.length_singleton]

theorem digits_proper (hb : 0 < b) (n x : Nat) : Proper b (digits b n x) := by
  induction n generalizing x with
  | zero =>
      intro d hd
      cases hd
  | succ n ih =>
      intro d hd
      rcases List.mem_append.mp hd with hd | hd
      · exact ih _ d hd
      · rw [List.mem_singleton.mp hd]
        exact Nat.mod_lt x hb

/-- **READING WHAT WAS WRITTEN**: a numeral stands for its number, as far as the
    width goes. -/
theorem value_digits (n x : Nat) : value b (digits b n x) = x % b ^ n := by
  induction n generalizing x with
  | zero => rw [pow_zero, Nat.mod_one]; rfl
  | succ n ih =>
      rw [digits, value_concat, ih, pow_succ', Nat.mod_mul]
      ring

theorem value_digits_of_lt {n x : Nat} (hx : x < b ^ n) :
    value b (digits b n x) = x := by
  rw [value_digits, Nat.mod_eq_of_lt hx]

theorem value_lt {ds : List Nat} (h : Proper b ds) :
    value b ds < b ^ ds.length := by
  induction ds with
  | nil => exact Nat.one_pos
  | cons d ds ih =>
      have hd : d < b := h d List.mem_cons_self
      have hds := ih (fun e he => h e (List.mem_cons_of_mem _ he))
      rw [value_cons, List.length_cons, pow_succ']
      calc d * b ^ ds.length + value b ds
          < d * b ^ ds.length + b ^ ds.length := Nat.add_lt_add_left hds _
        _ = (d + 1) * b ^ ds.length := by ring
        _ ≤ b * b ^ ds.length := Nat.mul_le_mul_right _ hd

/-- **WRITING WHAT WAS READ**. -/
theorem digits_value {ds : List Nat} (h : Proper b ds) :
    digits b ds.length (value b ds) = ds := by
  induction ds using List.reverseRecOn with
  | nil => rfl
  | append_singleton ds d ih =>
      have hd : d < b := h d (List.mem_append_right _ List.mem_cons_self)
      have hb : 0 < b := Nat.lt_of_le_of_lt (Nat.zero_le d) hd
      have hds := ih (fun e he => h e (List.mem_append_left _ he))
      rw [List.length_append, List.length_singleton, digits, value_concat,
        Nat.mul_add_div hb, Nat.div_eq_of_lt hd, Nat.add_zero, hds,
        Nat.mul_add_mod, Nat.mod_eq_of_lt hd]

/-- One width, one number: one numeral. -/
theorem value_inj {ds es : List Nat} (hds : Proper b ds) (hes : Proper b es)
    (hlength : ds.length = es.length) (h : value b ds = value b es) :
    ds = es := by
  rw [← digits_value hds, ← digits_value hes, hlength, h]

/-- A string of digits is the numeral of a number exactly if it has the width
    and stands for the number. -/
theorem eq_digits_iff {ds : List Nat} (h : Proper b ds) {x : Nat}
    (hx : x < b ^ ds.length) :
    ds = digits b ds.length x ↔ value b ds = x := by
  constructor
  · intro heq
    rw [heq, value_digits_of_lt hx]
  · intro hvalue
    rw [← hvalue, digits_value h]

/-! ## Order -/

/-- **THE LEFTMOST DIFFERENCE DECIDES**. -/
theorem value_lt_iff {ds es : List Nat} (hds : Proper b ds)
    (hes : Proper b es) (hlength : ds.length = es.length) :
    value b ds < value b es ↔ ds < es := by
  induction ds generalizing es with
  | nil =>
      obtain rfl := List.eq_nil_of_length_eq_zero hlength.symm
      constructor
      · intro h
        exact absurd h (Nat.lt_irrefl _)
      · intro h
        exact absurd h (List.not_lt_nil [])
  | cons d ds ih =>
      cases es with
      | nil => exact absurd hlength (Nat.succ_ne_zero _)
      | cons e es =>
          have hlength : ds.length = es.length := Nat.succ.inj hlength
          have hds' : Proper b ds :=
            fun x hx => hds x (List.mem_cons_of_mem _ hx)
          have hes' : Proper b es :=
            fun x hx => hes x (List.mem_cons_of_mem _ hx)
          have hd := value_lt hds'
          have he := value_lt hes'
          rw [value_cons, value_cons, List.cons_lt_cons_iff,
            ← ih hds' hes' hlength, hlength]
          rw [hlength] at hd
          rcases Nat.lt_trichotomy d e with hlt | heq | hgt
          · have hstep := Nat.mul_le_mul_right (b ^ es.length) hlt
            rw [Nat.succ_mul] at hstep
            constructor
            · intro _
              exact .inl hlt
            · intro _
              omega
          · subst heq
            constructor
            · intro h
              exact .inr ⟨rfl, by omega⟩
            · rintro (h | ⟨-, h⟩)
              · exact absurd h (Nat.lt_irrefl _)
              · omega
          · have hstep := Nat.mul_le_mul_right (b ^ es.length) hgt
            rw [Nat.succ_mul] at hstep
            constructor
            · intro h
              omega
            · rintro (h | ⟨h, -⟩)
              · omega
              · omega

/-- Numerals of one width compare as their numbers. -/
theorem digits_lt_iff {n x y : Nat} (hb : 0 < b) (hx : x < b ^ n)
    (hy : y < b ^ n) : digits b n x < digits b n y ↔ x < y := by
  rw [← value_lt_iff (digits_proper hb n x) (digits_proper hb n y)
    ((digits_length n x).trans (digits_length n y).symm),
    value_digits_of_lt hx, value_digits_of_lt hy]

/-! ## Spelling -/

section Spelling

variable {α : Type} [LT α] (spell : Nat → α)

/-- An alphabet in the order of its digits. -/
def Ordered (b : Nat) : Prop :=
  ∀ ⦃d e : Nat⦄, d < b → e < b → (spell d < spell e ↔ d < e)

variable {spell} [Std.Irrefl ((· < ·) : α → α → Prop)]

/-- Spelled digits are told apart. -/
theorem Ordered.spell_inj (h : Ordered spell b) {d e : Nat} (hd : d < b)
    (he : e < b) (heq : spell d = spell e) : d = e := by
  rcases Nat.lt_trichotomy d e with hlt | hsame | hgt
  · have hless := (h hd he).mpr hlt
    rw [heq] at hless
    exact absurd hless (Std.Irrefl.irrefl _)
  · exact hsame
  · have hless := (h he hd).mpr hgt
    rw [heq] at hless
    exact absurd hless (Std.Irrefl.irrefl _)

/-- **SPELLINGS COMPARE AS THEIR DIGITS**. -/
theorem Ordered.map_lt_iff (h : Ordered spell b) {ds es : List Nat}
    (hds : Proper b ds) (hes : Proper b es) :
    ds.map spell < es.map spell ↔ ds < es := by
  induction ds generalizing es with
  | nil =>
      cases es with
      | nil =>
          constructor
          · intro hlt
            exact absurd hlt (List.not_lt_nil _)
          · intro hlt
            exact absurd hlt (List.not_lt_nil _)
      | cons e es =>
          constructor
          · intro _
            exact List.nil_lt_cons e es
          · intro _
            exact List.nil_lt_cons _ _
  | cons d ds ih =>
      cases es with
      | nil =>
          constructor
          · intro hlt
            exact absurd hlt (List.not_lt_nil _)
          · intro hlt
            exact absurd hlt (List.not_lt_nil _)
      | cons e es =>
          have hd : d < b := hds d List.mem_cons_self
          have he : e < b := hes e List.mem_cons_self
          have htail : ds.map spell < es.map spell ↔ ds < es :=
            ih (fun x hx => hds x (List.mem_cons_of_mem _ hx))
              (fun x hx => hes x (List.mem_cons_of_mem _ hx))
          rw [List.map_cons, List.map_cons, List.cons_lt_cons_iff,
            List.cons_lt_cons_iff, htail, h hd he]
          constructor
          · rintro (hlt | ⟨heq, hlt⟩)
            · exact .inl hlt
            · exact .inr ⟨h.spell_inj hd he heq, hlt⟩
          · rintro (hlt | ⟨rfl, hlt⟩)
            · exact .inl hlt
            · exact .inr ⟨rfl, hlt⟩

/-- Spelled numerals of one width compare as their numbers. -/
theorem Ordered.digits_lt_iff (h : Ordered spell b) {n x y : Nat} (hb : 0 < b)
    (hx : x < b ^ n) (hy : y < b ^ n) :
    (digits b n x).map spell < (digits b n y).map spell ↔ x < y := by
  rw [h.map_lt_iff (digits_proper hb n x) (digits_proper hb n y),
    Numeral.digits_lt_iff hb hx hy]

end Spelling

end Numeral
