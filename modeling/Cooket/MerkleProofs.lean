import Mathlib

/-! # Merkle trees with sorted pairs

    A tree is hashed from its leaves up; before two hashes are joined they are
    SORTED, so that a proof is a plain list of siblings with no directions.
    Leaves and inner nodes go through the same hash, from preimages that an
    `Encoding` keeps apart.

    No hash with short values is injective, so nothing is assumed of the hash
    in general.  `mem_of_processProof` asks only that it does not collide on
    the preimages that were actually hashed: those of the tree and those met
    while the proof was processed. -/

namespace Merkle

/-- A binary tree of any shape. -/
inductive Tree (α : Type) where
  | leaf (x : α)
  | node (l r : Tree α)
  deriving DecidableEq, Repr

/-- The entries at the leaves. -/
def Tree.members {α : Type} : Tree α → List α
  | .leaf x => [x]
  | .node l r => l.members ++ r.members

/-- The preimages of leaves and of inner nodes. -/
structure Encoding (α H P : Type) where
  leaf : α → P
  pair : H → H → P
  leaf_injective : ∀ x y, leaf x = leaf y → x = y
  pair_injective : ∀ a b c d, pair a b = pair c d → a = c ∧ b = d
  /-- No preimage of a leaf is one of a node. -/
  separated : ∀ x a b, leaf x ≠ pair a b

variable {α H P : Type} [LT H] [DecidableLT H] (E : Encoding α H P)
  (hash : P → H)

/-- The preimage of a node: the two hashes, the smaller one first. -/
def sortedPair (a b : H) : P := if a < b then E.pair a b else E.pair b a

/-- The hash at the top of a tree. -/
def root : Tree α → H
  | .leaf x => hash (E.leaf x)
  | .node l r => hash (sortedPair E (root l) (root r))

/-- Hash a value together with each sibling in turn. -/
def processProof (proof : List H) (computed : H) : H :=
  proof.foldl (fun c sibling => hash (sortedPair E c sibling)) computed

/-- Everything hashed while a tree was built. -/
def preimages : Tree α → List P
  | .leaf x => [E.leaf x]
  | .node l r =>
      sortedPair E (root E hash l) (root E hash r)
        :: (preimages l ++ preimages r)

/-- Everything hashed while a proof was processed. -/
def proofPreimages : List H → H → List P
  | [], _ => []
  | sibling :: proof, computed =>
      sortedPair E computed sibling
        :: proofPreimages proof (hash (sortedPair E computed sibling))

/-- The hash does not collide on what was hashed for a tree, for an entry and
    for a proof. -/
def CollisionFree (t : Tree α) (x : α) (proof : List H) : Prop :=
  ∀ p ∈ E.leaf x :: (preimages E hash t
      ++ proofPreimages E hash proof (hash (E.leaf x))),
    ∀ q ∈ E.leaf x :: (preimages E hash t
      ++ proofPreimages E hash proof (hash (E.leaf x))),
    hash p = hash q → p = q

variable {E hash}

/-- Equal nodes join the same two hashes, in some order. -/
theorem sortedPair_eq {a b c d : H} (h : sortedPair E a b = sortedPair E c d) :
    a = c ∧ b = d ∨ a = d ∧ b = c := by
  unfold sortedPair at h
  split at h
  · split at h
    · exact Or.inl (E.pair_injective _ _ _ _ h)
    · exact Or.inr (E.pair_injective _ _ _ _ h)
  · split at h
    · obtain ⟨hb, ha⟩ := E.pair_injective _ _ _ _ h
      exact Or.inr ⟨ha, hb⟩
    · obtain ⟨hb, ha⟩ := E.pair_injective _ _ _ _ h
      exact Or.inl ⟨ha, hb⟩

/-- A leaf is not a node, sorted or not. -/
theorem leaf_ne_sortedPair {x : α} {a b : H} :
    E.leaf x ≠ sortedPair E a b := by
  unfold sortedPair
  split
  · exact E.separated _ _ _
  · exact E.separated _ _ _

theorem processProof_concat {proof : List H} {sibling computed : H} :
    processProof E hash (proof ++ [sibling]) computed
      = hash (sortedPair E (processProof E hash proof computed) sibling) := by
  unfold processProof
  rw [List.foldl_append]
  rfl

theorem proofPreimages_concat {proof : List H} {sibling : H} :
    ∀ computed, proofPreimages E hash (proof ++ [sibling]) computed
      = proofPreimages E hash proof computed
        ++ [sortedPair E (processProof E hash proof computed) sibling] := by
  induction proof with
  | nil =>
      intro computed
      rfl
  | cons p proof ih =>
      intro computed
      show sortedPair E computed p
          :: proofPreimages E hash (proof ++ [sibling]) _ = _
      rw [ih]
      rfl

/-- Every root is the hash of one of the tree's preimages. -/
theorem exists_preimage (t : Tree α) :
    ∃ p ∈ preimages E hash t, root E hash t = hash p := by
  cases t with
  | leaf x => exact ⟨_, List.mem_singleton_self _, rfl⟩
  | node l r => exact ⟨_, List.mem_cons_self, rfl⟩

/-- What was hashed for a subtree and for the proof without its last sibling
    was hashed for the whole. -/
theorem CollisionFree.anti {t u : Tree α} {x : α} {proof : List H}
    {sibling : H} (h : CollisionFree E hash t x (proof ++ [sibling]))
    (hu : ∀ p ∈ preimages E hash u, p ∈ preimages E hash t) :
    CollisionFree E hash u x proof := by
  have hsub : ∀ p, p ∈ E.leaf x :: (preimages E hash u
        ++ proofPreimages E hash proof (hash (E.leaf x))) →
      p ∈ E.leaf x :: (preimages E hash t
        ++ proofPreimages E hash (proof ++ [sibling]) (hash (E.leaf x))) := by
    intro p hp
    rw [proofPreimages_concat]
    simp only [List.mem_cons, List.mem_append] at hp ⊢
    rcases hp with hleaf | htree | hproof
    · exact Or.inl hleaf
    · exact Or.inr (Or.inl (hu p htree))
    · exact Or.inr (Or.inr (Or.inl hproof))
  intro p hp q hq
  exact h p (hsub p hp) q (hsub q hq)

/-- **SOUNDNESS OF A PROOF**: an entry whose proof leads to the root of a tree
    is an entry of that tree, however long the proof and whatever is in it.
    Induction on the proof from its end, which is the way down the tree. -/
theorem mem_of_processProof {x : α} (proof : List H) :
    ∀ t : Tree α, CollisionFree E hash t x proof →
      processProof E hash proof (hash (E.leaf x)) = root E hash t →
      x ∈ t.members := by
  induction proof using List.reverseRecOn with
  | nil =>
      intro t hfree hroot
      cases t with
      | leaf y =>
          have hxy : E.leaf x = E.leaf y :=
            hfree _ List.mem_cons_self _ (by simp [preimages]) hroot
          rw [E.leaf_injective _ _ hxy]
          exact List.mem_singleton_self _
      | node l r =>
          have hxn : E.leaf x
              = sortedPair E (root E hash l) (root E hash r) :=
            hfree _ List.mem_cons_self _ (by simp [preimages]) hroot
          exact absurd hxn leaf_ne_sortedPair
  | append_singleton proof sibling ih =>
      intro t hfree hroot
      rw [processProof_concat] at hroot
      have hlast : sortedPair E
          (processProof E hash proof (hash (E.leaf x))) sibling
          ∈ E.leaf x :: (preimages E hash t ++ proofPreimages E hash
            (proof ++ [sibling]) (hash (E.leaf x))) := by
        rw [proofPreimages_concat]
        simp
      cases t with
      | leaf y =>
          have hxy := hfree _ hlast (E.leaf y) (by simp [preimages]) hroot
          exact absurd hxy.symm leaf_ne_sortedPair
      | node l r =>
          have hnode := hfree _ hlast
            (sortedPair E (root E hash l) (root E hash r))
            (by simp [preimages]) hroot
          -- the accumulator is the root of one of the two subtrees
          have hbelow : processProof E hash proof (hash (E.leaf x))
                = root E hash l
              ∨ processProof E hash proof (hash (E.leaf x))
                = root E hash r := by
            rcases sortedPair_eq hnode with ⟨hl, -⟩ | ⟨hr, -⟩
            · exact Or.inl hl
            · exact Or.inr hr
          show x ∈ l.members ++ r.members
          rw [List.mem_append]
          rcases hbelow with hl | hr
          · refine Or.inl (ih l (hfree.anti ?_) hl)
            intro p hp
            simp [preimages, hp]
          · refine Or.inr (ih r (hfree.anti ?_) hr)
            intro p hp
            simp [preimages, hp]

end Merkle

namespace Merkle

variable {α H P : Type} [LinearOrder H] {E : Encoding α H P} {hash : P → H}

/-- The order of two siblings does not matter. -/
theorem sortedPair_comm (a b : H) : sortedPair E a b = sortedPair E b a := by
  unfold sortedPair
  rcases lt_trichotomy a b with h | h | h
  · rw [if_pos h, if_neg (lt_asymm h)]
  · rw [h]
  · rw [if_neg (lt_asymm h), if_pos h]

/-- **COMPLETENESS**: every entry of a tree has a proof. -/
theorem exists_proof (t : Tree α) :
    ∀ x ∈ t.members, ∃ proof,
      processProof E hash proof (hash (E.leaf x)) = root E hash t := by
  induction t with
  | leaf y =>
      intro x hx
      obtain rfl := List.mem_singleton.mp hx
      exact ⟨[], rfl⟩
  | node l r ihl ihr =>
      intro x hx
      rcases List.mem_append.mp hx with hl | hr
      · obtain ⟨proof, hproof⟩ := ihl x hl
        refine ⟨proof ++ [root E hash r], ?_⟩
        rw [processProof_concat, hproof]
        rfl
      · obtain ⟨proof, hproof⟩ := ihr x hr
        refine ⟨proof ++ [root E hash l], ?_⟩
        rw [processProof_concat, hproof, sortedPair_comm]
        rfl

end Merkle
