import Mathlib.Data.List.Nodup
import Mathlib.Data.List.Perm.Basic
import Cooket.AscendingProofs

/-! # Merging lists by key, and ordering what is left

    Answers collected from several places repeat each other.  A merge keeps the
    FIRST entry of every key and refuses two entries of one key with different
    contents; the entries it keeps are then put in order by a sort that is free
    to leave entries of equal rank in either order.

    Two facts carry everything.  Whether the merge succeeds depends on the
    members of the list alone (`merge_ok_iff`).  And when the rank tells
    entries apart, the sort leaves them in strict order (`RankSort.strict`), so
    that the result depends on the members alone. -/

namespace KeyedMerge

variable {α κ γ ρ : Type}

/-! ## The merge -/

/-- Entries of one key have one content. -/
def Consistent (key : α → κ) (content : α → γ) (xs : List α) : Prop :=
  ∀ a ∈ xs, ∀ b ∈ xs, key a = key b → content a = content b

/-- Keep the first entry of each key; fail on a contradicted key. -/
def merge [DecidableEq κ] [DecidableEq γ] (key : α → κ) (content : α → γ) :
    List α → List α → Except κ (List α)
  | kept, [] => .ok kept
  | kept, a :: rest =>
      match kept.find? (fun b => key b = key a) with
      | some prior =>
          if content prior = content a then merge key content kept rest
          else .error (key a)
      | none => merge key content (kept ++ [a]) rest

section
variable {key : α → κ} {content : α → γ}

/-- What a merge has kept: the entries it was given, one for each key. -/
structure Kept (key : α → κ) (content : α → γ) (xs out : List α) : Prop where
  nodup : (out.map key).Nodup
  given : ∀ b ∈ out, b ∈ xs
  covers : ∀ a ∈ xs, ∃ b ∈ out, key b = key a ∧ content b = content a

/-- What is already kept covers itself. -/
theorem Kept.refl {kept : List α} (h : (kept.map key).Nodup) :
    Kept key content kept kept :=
  ⟨h, fun _ hb => hb, fun a ha => ⟨a, ha, rfl, rfl⟩⟩

/-- An entry whose key was kept adds nothing. -/
theorem Kept.skip {kept rest out : List α} {a prior : α}
    (h : Kept key content (kept ++ rest) out) (hprior : prior ∈ kept)
    (hkey : key prior = key a) (hcontent : content prior = content a) :
    Kept key content (kept ++ a :: rest) out := by
  refine ⟨h.nodup, ?_, ?_⟩
  · intro b hb
    rcases List.mem_append.mp (h.given b hb) with hk | hr
    · exact List.mem_append_left _ hk
    · exact List.mem_append_right _ (List.mem_cons_of_mem _ hr)
  · intro x hx
    rcases List.mem_append.mp hx with hk | hr
    · exact h.covers x (List.mem_append_left _ hk)
    · rcases List.mem_cons.mp hr with rfl | hr
      · obtain ⟨b, hb, hbk, hbc⟩ :=
          h.covers prior (List.mem_append_left _ hprior)
        exact ⟨b, hb, hbk.trans hkey, hbc.trans hcontent⟩
      · exact h.covers x (List.mem_append_right _ hr)

variable [DecidableEq κ] [DecidableEq γ]

/-- **WHAT THE MERGE KEEPS**. -/
theorem merge_kept {kept rest out : List α} (hnodup : (kept.map key).Nodup)
    (h : merge key content kept rest = .ok out) :
    Kept key content (kept ++ rest) out := by
  induction rest generalizing kept with
  | nil =>
      obtain rfl := Except.ok.inj h
      rw [List.append_nil]
      exact Kept.refl hnodup
  | cons a rest ih =>
      rw [merge] at h
      split at h
      · next prior hprior =>
          have hmem := List.mem_of_find?_eq_some hprior
          have hkey : key prior = key a := by
            simpa using List.find?_some hprior
          split at h
          · next hcontent => exact (ih hnodup h).skip hmem hkey hcontent
          · cases h
      · next hnone =>
          have hfresh : ∀ b ∈ kept, key b ≠ key a := by
            simpa using List.find?_eq_none.mp hnone
          have hnodup' : ((kept ++ [a]).map key).Nodup := by
            rw [List.map_append, List.map_singleton]
            refine List.nodup_append.mpr ⟨hnodup, List.nodup_singleton _, ?_⟩
            intro k hk j hj
            obtain ⟨b, hb, rfl⟩ := List.mem_map.mp hk
            rw [List.mem_singleton.mp hj]
            exact hfresh b hb
          have hout := ih hnodup' h
          rwa [List.append_assoc] at hout

/-- What a whole merge keeps. -/
theorem kept_of_merge {xs out : List α} (h : merge key content [] xs = .ok out) :
    Kept key content xs out := by
  have hkept := @merge_kept _ _ _ key content _ _ [] xs out List.nodup_nil h
  rwa [List.nil_append] at hkept

/-- A merge that fails met two entries of one key with different contents. -/
theorem merge_error {kept rest : List α} {k : κ}
    (h : merge key content kept rest = .error k) :
    ¬ Consistent key content (kept ++ rest) := by
  induction rest generalizing kept with
  | nil => cases h
  | cons a rest ih =>
      rw [merge] at h
      split at h
      · next prior hprior =>
          have hmem := List.mem_of_find?_eq_some hprior
          have hkey : key prior = key a := by
            simpa using List.find?_some hprior
          split at h
          · intro hall
            refine ih h fun x hx y hy => hall x ?_ y ?_
            · exact (List.sublist_cons_self a rest).append_left kept |>.subset hx
            · exact (List.sublist_cons_self a rest).append_left kept |>.subset hy
          · next hdiffer =>
              intro hall
              exact hdiffer (hall prior (List.mem_append_left _ hmem) a
                (List.mem_append_right _ (List.mem_cons_self ..)) hkey)
      · intro hall
        refine ih h ?_
        rwa [List.append_assoc]

/-- **THE MERGE SUCCEEDS ON CONSISTENT LISTS**, and on no others. -/
theorem merge_ok_iff {xs : List α} :
    (∃ out, merge key content [] xs = .ok out) ↔ Consistent key content xs := by
  constructor
  · rintro ⟨out, hout⟩ a ha b hb hab
    have hkept := kept_of_merge hout
    obtain ⟨a', ha', hka, hca⟩ := hkept.covers a ha
    obtain ⟨b', hb', hkb, hcb⟩ := hkept.covers b hb
    have hsame : a' = b' :=
      List.inj_on_of_nodup_map hkept.nodup ha' hb' (by rw [hka, hkb, hab])
    rw [← hca, ← hcb, hsame]
  · intro hall
    cases hm : merge key content [] xs with
    | ok out => exact ⟨out, rfl⟩
    | error k => exact absurd hall (merge_error hm)

end

/-! ## The order -/

/-- A sort by rank, which may order entries of equal rank as it likes. -/
structure RankSort [LinearOrder ρ] (rank : α → ρ) where
  sort : List α → List α
  perm : ∀ xs, (sort xs).Perm xs
  ordered : ∀ xs, (sort xs).Pairwise fun a b => rank a ≤ rank b

variable [LinearOrder ρ] {rank : α → ρ}

/-- The stable sort is one of them. -/
def RankSort.stable (rank : α → ρ) : RankSort rank where
  sort xs := xs.insertionSort fun a b => rank a ≤ rank b
  perm xs := List.perm_insertionSort _ xs
  ordered xs := by
    have htotal : Std.Total (fun a b : α => rank a ≤ rank b) :=
      ⟨fun a b => le_total _ _⟩
    have htrans : IsTrans α (fun a b => rank a ≤ rank b) :=
      ⟨fun _ _ _ => le_trans⟩
    exact List.pairwise_insertionSort _ xs

/-- Sorting entries of different ranks gives a strict order. -/
theorem RankSort.strict (s : RankSort rank) {xs : List α}
    (h : (xs.map rank).Nodup) :
    (s.sort xs).Pairwise fun a b => rank a < rank b := by
  have hne : ((s.sort xs).map rank).Nodup :=
    ((s.perm xs).map rank).nodup_iff.mpr h
  have hpair : (s.sort xs).Pairwise fun a b => rank a ≠ rank b :=
    List.pairwise_map.mp hne
  exact (s.ordered xs).imp₂ (fun _ _ hle hneq => lt_of_le_of_ne hle hneq) hpair

end KeyedMerge
