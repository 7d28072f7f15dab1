import Mathlib.Data.List.DropRight

/-! # Text as Go's `strings` treats it

    The functions of `strings` the API calls on what a client sends.  A text
    is its list of characters. -/

namespace GoText

/-- `unicode.IsSpace`. -/
def isSpace (c : Char) : Bool :=
  [0x09, 0x0A, 0x0B, 0x0C, 0x0D, 0x20, 0x85, 0xA0, 0x1680, 0x2000, 0x2001,
    0x2002, 0x2003, 0x2004, 0x2005, 0x2006, 0x2007, 0x2008, 0x2009, 0x200A,
    0x2028, 0x2029, 0x202F, 0x205F, 0x3000].contains c.toNat

/-- `strings.TrimSpace`. -/
def trimSpace (s : List Char) : List Char :=
  (s.dropWhile isSpace).rdropWhile isSpace

/-- `strings.TrimSuffix`. -/
def trimSuffix (s suffix : List Char) : List Char :=
  if suffix <:+ s then s.take (s.length - suffix.length) else s

/-! ## Trimming twice -/

/-- No space at either end. -/
def Trimmed (s : List Char) : Prop :=
  (∀ c ∈ s.head?, isSpace c = false) ∧ ∀ c ∈ s.getLast?, isSpace c = false

theorem trimSpace_trimmed (s : List Char) : Trimmed (trimSpace s) := by
  constructor
  · intro c hc
    have hsub : trimSpace s <+: s.dropWhile isSpace :=
      List.rdropWhile_prefix _ _
    have hhead : (s.dropWhile isSpace).head? = some c := by
      obtain ⟨r, hr⟩ := hsub
      rw [← hr]
      exact List.mem_head?_append_of_mem_head? hc
    have := List.head?_dropWhile_not isSpace s
    rw [hhead] at this
    exact this
  · intro c hc
    have hne : trimSpace s ≠ [] := by
      rintro hnil
      rw [hnil] at hc
      cases hc
    have hlast := List.rdropWhile_last_not isSpace _ hne
    rw [List.getLast?_eq_some_getLast hne] at hc
    cases hc
    exact Bool.eq_false_iff.mpr hlast

theorem trimSpace_eq_self {s : List Char} (h : Trimmed s) :
    trimSpace s = s := by
  obtain ⟨hhead, hlast⟩ := h
  have hdrop : s.dropWhile isSpace = s := by
    cases s with
    | nil => rfl
    | cons c s =>
        rw [List.dropWhile_cons, if_neg]
        rw [hhead c rfl]
        exact Bool.false_ne_true
  rw [trimSpace, hdrop, List.rdropWhile_eq_self_iff]
  intro hne
  rw [hlast _ (List.getLast?_eq_some_getLast hne)]
  exact Bool.false_ne_true

end GoText
