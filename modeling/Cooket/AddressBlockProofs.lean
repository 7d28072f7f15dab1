import Mathlib.Data.UInt

/-! # Blocks of addresses — masked prefixes of bytes and tables of them

    A block fixes some bits of the first bytes of an address: CIDR prefixes
    are blocks, and so is a test like `ip[1] & 0x0f == 1`.  A TABLE gives a
    standing to each of its blocks, the first block that covers an address
    decides, as in a registry whose special cases stand before the ranges
    they are cut out of.

    Two facts about blocks are decided by looking at the blocks alone: one
    lies within another (`subsumes`), or no address is in both (`clash`).
    From them `settles` decides that a table gives every address of a block
    the same standing. -/

namespace AddressBlock

/-- A mask and the value under it, for each of the first bytes. -/
abbrev Block := List (UInt8 × UInt8)

/-- The bytes begin with the block. -/
def covers : Block → List UInt8 → Bool
  | [], _ => true
  | _ :: _, [] => false
  | (m, v) :: block, x :: bytes => x &&& m == v && covers block bytes

/-- What `inner` fixes includes what the outer block fixes. -/
def subsumes : Block → Block → Bool
  | [], _ => true
  | _ :: _, [] => false
  | (m, v) :: block, (m', v') :: inner =>
      m' &&& m == m && v' &&& m == v && subsumes block inner

/-- Some bit is fixed to different values. -/
def clash : Block → Block → Bool
  | [], _ => false
  | _ :: _, [] => false
  | (m, v) :: block, (m', v') :: other =>
      v &&& m' != v' &&& m || clash block other

theorem covers_of_subsumes :
    ∀ {block inner : Block} {bytes : List UInt8},
      subsumes block inner = true → covers inner bytes = true →
        covers block bytes = true := by
  intro block
  induction block with
  | nil =>
      intro inner bytes _ _
      rfl
  | cons p block ih =>
      intro inner bytes hsub hcov
      obtain ⟨m, v⟩ := p
      cases inner with
      | nil => cases hsub
      | cons p' inner =>
          obtain ⟨m', v'⟩ := p'
          cases bytes with
          | nil => cases hcov
          | cons x bytes =>
              simp only [subsumes, covers, Bool.and_eq_true,
                beq_iff_eq] at hsub hcov ⊢
              obtain ⟨⟨hmask, hvalue⟩, hsub⟩ := hsub
              obtain ⟨hx, hcov⟩ := hcov
              refine ⟨?_, ih hsub hcov⟩
              calc x &&& m = x &&& (m' &&& m) := by rw [hmask]
                _ = x &&& m' &&& m := (UInt8.and_assoc x m' m).symm
                _ = v := by rw [hx, hvalue]

theorem not_covers_of_clash :
    ∀ {block other : Block} {bytes : List UInt8},
      clash block other = true → covers other bytes = true →
        covers block bytes = false := by
  intro block
  induction block with
  | nil =>
      intro other bytes hclash _
      cases hclash
  | cons p block ih =>
      intro other bytes hclash hcov
      obtain ⟨m, v⟩ := p
      cases other with
      | nil => cases hclash
      | cons p' other =>
          obtain ⟨m', v'⟩ := p'
          cases bytes with
          | nil => cases hcov
          | cons x bytes =>
              simp only [clash, covers, Bool.and_eq_true, Bool.or_eq_true,
                bne_iff_ne, beq_iff_eq] at hclash hcov
              obtain ⟨hx, hcov⟩ := hcov
              simp only [covers, Bool.and_eq_false_iff, beq_eq_false_iff_ne]
              rcases hclash with hne | hclash
              · refine Or.inl ?_
                intro hv
                refine hne ?_
                rw [← hv, ← hx, UInt8.and_assoc, UInt8.and_assoc,
                  UInt8.and_comm m m']
              · exact Or.inr (ih hclash hcov)

/-! ## Tables -/

section Table

variable {S : Type}

/-- The standing of the first block that covers the address. -/
def standing (otherwise : S) : List (Block × S) → List UInt8 → S
  | [], _ => otherwise
  | (block, s) :: rows, bytes =>
      if covers block bytes then s else standing otherwise rows bytes

/-- Every address of the block has the standing: a row that covers it all
    comes, and the rows before it have the standing or are elsewhere. -/
def settles [DecidableEq S] (s : S) (inner : Block) :
    List (Block × S) → Bool
  | [] => false
  | (block, t) :: rows =>
      if t = s then subsumes block inner || settles s inner rows
      else clash block inner && settles s inner rows

theorem standing_of_settles [DecidableEq S] {s otherwise : S}
    {inner : Block} {bytes : List UInt8} (hcov : covers inner bytes = true) :
    ∀ {rows : List (Block × S)}, settles s inner rows = true →
      standing otherwise rows bytes = s := by
  intro rows
  induction rows with
  | nil =>
      intro h
      cases h
  | cons row rows ih =>
      intro h
      obtain ⟨block, t⟩ := row
      show (if covers block bytes then t else _) = s
      by_cases hb : covers block bytes = true
      · rw [if_pos hb]
        by_cases ht : t = s
        · exact ht
        · simp only [settles, if_neg ht, Bool.and_eq_true] at h
          rw [not_covers_of_clash h.1 hcov] at hb
          cases hb
      · rw [if_neg hb]
        by_cases ht : t = s
        · simp only [settles, if_pos ht, Bool.or_eq_true] at h
          rcases h with hsub | h
          · exact absurd (covers_of_subsumes hsub hcov) hb
          · exact ih h
        · simp only [settles, if_neg ht, Bool.and_eq_true] at h
          exact ih h.2

/-- Rows that do not cover the address may be left out. -/
theorem standing_filter {otherwise : S} {bytes : List UInt8}
    {keep : Block × S → Bool} :
    ∀ {rows : List (Block × S)},
      (∀ row ∈ rows, keep row = false → covers row.1 bytes = false) →
      standing otherwise (rows.filter keep) bytes =
        standing otherwise rows bytes := by
  intro rows
  induction rows with
  | nil =>
      intro _
      rfl
  | cons row rows ih =>
      intro h
      have hrest := ih (fun r hr => h r (List.mem_cons_of_mem _ hr))
      cases hkeep : keep row with
      | true =>
          rw [List.filter_cons_of_pos hkeep]
          show (if _ then _ else _) = if _ then _ else _
          rw [hrest]
      | false =>
          rw [List.filter_cons_of_neg (Bool.eq_false_iff.mp hkeep), hrest]
          show _ = if _ then _ else _
          rw [if_neg (Bool.eq_false_iff.mp
            (h row (List.mem_cons_self ..) hkeep))]

end Table

end AddressBlock
