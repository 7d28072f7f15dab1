import Cooket.IndexerEventsProofs

/-! # The pair checks against one-to-one correspondence

    `validateGraduationPairs` and `validateCTOActivationPairs` are meant to say
    that two contracts reported the same happenings: every event on one side
    has a partner on the other, and NO PARTNER SERVES TWICE.  That is
    `OneToOne`, a relation between the logs themselves.

    What the loops compute is weaker in one place and stronger in another.
    Matches are counted per left event, while a matched right event is only
    marked: two equal left events may mark the same partner.  And two equal
    pairs are refused, although they correspond.  Both happen only when the
    LEFT SIDE REPEATS AN IDENTITY; `Untangled` says exactly when the check and
    the correspondence agree. -/

namespace EventPairs

open Contract IndexerEvents

/-! ## One-to-one correspondence -/

/-- Some arrangement of the right list pairs off with the left one. -/
def OneToOne {α β : Type} (agree : α → β → Prop) (xs : List α) (ys : List β) :
    Prop :=
  ∃ ys', List.Forall₂ agree xs ys' ∧ ys'.Perm ys

variable {α β κ : Type}

/-- Corresponding lists are of one length. -/
theorem OneToOne.length_eq {agree : α → β → Prop} {xs : List α} {ys : List β}
    (h : OneToOne agree xs ys) : xs.length = ys.length := by
  obtain ⟨ys', hagree, hperm⟩ := h
  rw [hagree.length_eq, hperm.length_eq]

/-- A list of keyed entries stands entry by entry over its keys. -/
theorem forall₂_keys (f : α → Option κ) (xs : List α) :
    List.Forall₂ (fun k x => f x = some k) (xs.filterMap f)
      (xs.filter fun x => (f x).isSome) := by
  induction xs with
  | nil => exact .nil
  | cons x xs ih =>
      cases hf : f x with
      | none =>
          rw [List.filterMap_cons_none hf,
            List.filter_cons_of_neg (by rw [hf]; exact Bool.false_ne_true)]
          exact ih
      | some k =>
          rw [List.filterMap_cons_some hf,
            List.filter_cons_of_pos (by rw [hf]; rfl)]
          exact .cons hf ih

/-- Entries that agree through their keys have the same keys. -/
theorem keys_eq_of_forall₂ {f : α → Option κ} {g : β → Option κ} {xs : List α}
    {ys : List β}
    (h : List.Forall₂ (fun x y => ∃ k, f x = some k ∧ g y = some k) xs ys) :
    xs.filterMap f = ys.filterMap g := by
  induction h with
  | nil => rfl
  | cons hxy _ ih =>
      obtain ⟨k, hx, hy⟩ := hxy
      rw [List.filterMap_cons_some hx, List.filterMap_cons_some hy, ih]

/-- Entries standing over one list of keys agree. -/
theorem agree_of_keys {f : α → Option κ} {g : β → Option κ} {ks : List κ}
    {xs : List α} {ys : List β}
    (hx : List.Forall₂ (fun k x => f x = some k) ks xs)
    (hy : List.Forall₂ (fun k y => g y = some k) ks ys) :
    List.Forall₂ (fun x y => ∃ k, f x = some k ∧ g y = some k) xs ys := by
  induction hx generalizing ys with
  | nil =>
      cases hy
      exact .nil
  | cons hkx _ ih =>
      cases hy with
      | cons hky hys => exact .cons ⟨_, hkx, hky⟩ (ih hys)

/-- **CORRESPONDENCE IS A PERMUTATION OF KEYS**, when agreeing means carrying
    the same key. -/
theorem oneToOne_iff_perm {f : α → Option κ} {g : β → Option κ} {xs : List α}
    {ys : List β} :
    OneToOne (fun x y => ∃ k, f x = some k ∧ g y = some k)
        (xs.filter fun x => (f x).isSome) (ys.filter fun y => (g y).isSome) ↔
      (xs.filterMap f).Perm (ys.filterMap g) := by
  have hkeys : ∀ {γ : Type} (f : γ → Option κ) (zs : List γ),
      (zs.filter fun z => (f z).isSome).filterMap f = zs.filterMap f := by
    intro γ f zs
    rw [List.filterMap_filter]
    refine congrArg (fun r => zs.filterMap r) (funext fun z => ?_)
    cases f z <;> simp
  constructor
  · rintro ⟨ys', hagree, hperm⟩
    have hfm := hperm.filterMap g
    rw [hkeys, ← keys_eq_of_forall₂ hagree, hkeys] at hfm
    exact hfm
  · intro hperm
    obtain ⟨ys', hy, hys⟩ :=
      List.perm_comp_forall₂ hperm (forall₂_keys g ys)
    exact ⟨ys', agree_of_keys (forall₂_keys f xs) hy, hys⟩

/-! ## What the loops accept -/

/-- No left identity is repeated; or the lists correspond no more than the
    loops accept them: some identity is met unequally often, and some event on
    the left has not exactly one match or one on the right has none. -/
def Untangled [DecidableEq κ] (left right : List κ) : Prop :=
  left.Nodup ∨
    (∃ k, left.count k ≠ right.count k) ∧
      ((∃ k ∈ left, right.count k ≠ 1) ∨ ∃ k ∈ right, k ∉ left)

section
variable [DecidableEq κ] {left right : List κ}

/-- Lists without a left repetition that are accepted correspond. -/
theorem perm_of_validatePairs (hleft : left.Nodup)
    (h : validatePairs left right = .ok ()) : left.Perm right := by
  obtain ⟨hone, hall⟩ := validatePairs_ok_iff.mp h
  rw [List.perm_iff_count]
  intro k
  by_cases hk : k ∈ left
  · rw [List.count_eq_one_of_mem hleft hk, hone k hk]
  · rw [List.count_eq_zero.mpr hk,
      List.count_eq_zero.mpr fun hkr => hk (hall k hkr)]

/-- Accepted lists that correspond repeat nothing. -/
theorem nodup_of_validatePairs (h : validatePairs left right = .ok ())
    (hperm : left.Perm right) : left.Nodup := by
  obtain ⟨hone, -⟩ := validatePairs_ok_iff.mp h
  rw [List.nodup_iff_count_le_one]
  intro k
  by_cases hk : k ∈ left
  · rw [hperm.count_eq, hone k hk]
  · rw [List.count_eq_zero.mpr hk]
    exact Nat.zero_le 1

/-- **WHEN THE CHECK IS EXACT**. -/
theorem exact_iff_untangled :
    (validatePairs left right = .ok () ↔ left.Perm right) ↔
      Untangled left right := by
  by_cases hleft : left.Nodup
  · refine ⟨fun _ => .inl hleft, fun _ => ⟨perm_of_validatePairs hleft, ?_⟩⟩
    intro hperm
    exact validatePairs_of_perm hperm (hperm.nodup_iff.mp hleft)
  · constructor
    · intro hexact
      -- a repeated identity leaves only the lists that both readings refuse
      have hrefused : ¬ validatePairs left right = .ok () := fun h =>
        hleft (nodup_of_validatePairs h (hexact.mp h))
      have hapart : ¬ left.Perm right := fun h => hrefused (hexact.mpr h)
      rw [List.perm_iff_count, not_forall] at hapart
      rw [validatePairs_ok_iff, not_and_or] at hrefused
      refine .inr ⟨hapart, ?_⟩
      rcases hrefused with h | h
      · exact .inl (by simpa using h)
      · exact .inr (by simpa using h)
    · rintro (hnodup | ⟨⟨k, hk⟩, hbad⟩)
      · exact absurd hnodup hleft
      · refine ⟨fun h => ?_, fun h => absurd (h.count_eq k) hk⟩
        obtain ⟨hone, hall⟩ := validatePairs_ok_iff.mp h
        rcases hbad with ⟨j, hj, hcount⟩ | ⟨j, hj, hout⟩
        · exact absurd (hone j hj) hcount
        · exact absurd (hall j hj) hout

end

/-! ## The two checks -/

/-- A curve's `Graduated` and the `GraduatedV3` of the manager it declares. -/
def Settles (curve settled : Log) : Prop :=
  ∃ token manager tokenAmount usdcAmount soldSupply custodian tokenId liquidity,
    curve.event =
      .graduated token manager tokenAmount usdcAmount soldSupply ∧
    settled.event = .graduatedV3 token custodian tokenId liquidity ∧
    settled.address = manager ∧ settled.txHash = curve.txHash ∧
    settled.blockHash = curve.blockHash ∧
    settled.blockNumber = curve.blockNumber

/-- The registry's `CTOActivated` and the fee manager's
    `CTOFeeRouteActivated`. -/
def Routes (roots : CTOProvenance) (activated routed : Log) : Prop :=
  ∃ id token treasury controller previous executor,
    activated.event =
      .cto (.activated id token treasury controller previous executor) ∧
    routed.event = .cto (.feeRouteActivated token previous treasury) ∧
    activated.address = roots.registry ∧ routed.address = roots.feeManager ∧
    routed.txHash = activated.txHash ∧
    routed.blockHash = activated.blockHash ∧
    routed.blockNumber = activated.blockNumber

def isGraduated (l : Log) : Bool := (curveGraduation l).isSome

def isGraduatedV3 (l : Log) : Bool := (settlement l).isSome

def isCTOActivated (roots : CTOProvenance) (l : Log) : Bool :=
  (registryActivation roots l).isSome

def isCTOFeeRouteActivated (roots : CTOProvenance) (l : Log) : Bool :=
  (routeActivation roots l).isSome

theorem settles_iff {curve settled : Log} :
    Settles curve settled ↔
      ∃ k, curveGraduation curve = some k ∧ settlement settled = some k := by
  constructor
  · rintro ⟨token, manager, _, _, _, _, _, _, hc, hs, rfl, ht, hh, hb⟩
    refine ⟨⟨token, settled.address, curve.txHash, curve.blockHash,
      curve.blockNumber⟩, ?_, ?_⟩
    · rw [curveGraduation, hc]
    · rw [settlement, hs, ht, hh, hb]
  · rintro ⟨k, hc, hs⟩
    unfold curveGraduation at hc
    unfold settlement at hs
    split at hc
    · next token manager _ _ _ hevent =>
        obtain rfl := Option.some.inj hc
        split at hs
        · next token' _ _ _ hevent' =>
            injection Option.some.inj hs with htoken hmanager ht hh hb
            subst htoken
            exact ⟨_, _, _, _, _, _, _, _, hevent, hevent', hmanager, ht, hh, hb⟩
        · cases hs
    · cases hc

theorem routes_iff {roots : CTOProvenance} {activated routed : Log} :
    Routes roots activated routed ↔
      ∃ k, registryActivation roots activated = some k ∧
        routeActivation roots routed = some k := by
  constructor
  · rintro ⟨id, token, treasury, _, previous, _, ha, hr, hra, hrr, ht, hh, hb⟩
    refine ⟨⟨token, treasury, previous, activated.txHash, activated.blockHash,
      activated.blockNumber⟩, ?_, ?_⟩
    · simp only [registryActivation, ha, if_pos hra]
    · simp only [routeActivation, hr, if_pos hrr, ht, hh, hb]
  · rintro ⟨k, ha, hr⟩
    unfold registryActivation at ha
    unfold routeActivation at hr
    split at ha
    · next hevent =>
        split at ha
        · next haddress =>
            obtain rfl := Option.some.inj ha
            split at hr
            · next hevent' =>
                split at hr
                · next haddress' =>
                    injection Option.some.inj hr with h₁ h₂ h₃ ht hh hb
                    subst h₁ h₂ h₃
                    exact ⟨_, _, _, _, _, _, hevent, hevent', haddress,
                      haddress', ht, hh, hb⟩
                · cases hr
            · cases hr
        · cases ha
    · cases ha

/-- The graduations and the settlements of a list correspond. -/
def GraduationsPaired (logs : List Log) : Prop :=
  OneToOne Settles (logs.filter isGraduated) (logs.filter isGraduatedV3)

/-- The activations of the two contracts correspond. -/
def ActivationsPaired (roots : CTOProvenance) (logs : List Log) : Prop :=
  OneToOne (Routes roots) (logs.filter (isCTOActivated roots))
    (logs.filter (isCTOFeeRouteActivated roots))

theorem graduationsPaired_iff {logs : List Log} :
    GraduationsPaired logs ↔
      (logs.filterMap curveGraduation).Perm (logs.filterMap settlement) := by
  have hagree : Settles = fun x y =>
      ∃ k, curveGraduation x = some k ∧ settlement y = some k :=
    funext fun x => funext fun y => propext settles_iff
  rw [GraduationsPaired, hagree]
  exact oneToOne_iff_perm

theorem activationsPaired_iff {roots : CTOProvenance} {logs : List Log} :
    ActivationsPaired roots logs ↔
      (logs.filterMap (registryActivation roots)).Perm
        (logs.filterMap (routeActivation roots)) := by
  have hagree : Routes roots = fun x y =>
      ∃ k, registryActivation roots x = some k ∧ routeActivation roots y = some k :=
    funext fun x => funext fun y => propext routes_iff
  rw [ActivationsPaired, hagree]
  exact oneToOne_iff_perm

/-- On events that decode, the graduation check is the pair check. -/
theorem validateGraduationPairs_ok_iff {logs : List Log}
    (hdecodes : ∀ l ∈ logs, graduationIdentity l = .ok ()) :
    validateGraduationPairs logs = .ok () ↔
      validatePairs (logs.filterMap curveGraduation)
        (logs.filterMap settlement) = .ok () := by
  have hidentities : logs.forM graduationIdentity = .ok () := by
    induction logs with
    | nil => rfl
    | cons l logs ih =>
        show (graduationIdentity l >>= fun _ => logs.forM graduationIdentity) = _
        rw [hdecodes l (List.mem_cons_self ..)]
        exact ih fun l' hl' => hdecodes l' (List.mem_cons_of_mem _ hl')
  rw [validateGraduationPairs, hidentities]
  simp only [bind, Except.bind]
  split
  · next h => simp [h]
  · next h => simp [h]

/-- Under declared roots, the activation check is the pair check. -/
theorem validateCTOActivationPairs_ok_iff {roots : CTOProvenance}
    {logs : List Log} (hregistry : roots.registry ≠ 0)
    (hmanager : roots.feeManager ≠ 0) :
    validateCTOActivationPairs roots logs = .ok () ↔
      validatePairs (logs.filterMap (registryActivation roots))
        (logs.filterMap (routeActivation roots)) = .ok () := by
  rw [validateCTOActivationPairs, if_neg (by
    rintro (h | h)
    · exact hregistry h
    · exact hmanager h)]
  split
  · next h => simp [h]
  · next h => simp [h]

/-- **WHEN THE PAIRING IS EXACT**: each check accepts the lists that correspond
    one to one if and only if its identities are untangled. -/
theorem pairing_exact (logs : List Log) (roots : CTOProvenance) :
    ((∀ l ∈ logs, graduationIdentity l = .ok ()) →
      ((validateGraduationPairs logs = .ok () ↔ GraduationsPaired logs) ↔
        Untangled (logs.filterMap curveGraduation)
          (logs.filterMap settlement))) ∧
    (roots.registry ≠ 0 → roots.feeManager ≠ 0 →
      ((validateCTOActivationPairs roots logs = .ok () ↔
          ActivationsPaired roots logs) ↔
        Untangled (logs.filterMap (registryActivation roots))
          (logs.filterMap (routeActivation roots)))) := by
  refine ⟨?_, ?_⟩
  · intro hdecodes
    rw [validateGraduationPairs_ok_iff hdecodes, graduationsPaired_iff]
    exact exact_iff_untangled
  · intro hregistry hmanager
    rw [validateCTOActivationPairs_ok_iff hregistry hmanager,
      activationsPaired_iff]
    exact exact_iff_untangled

/-! ## One settlement for two graduations -/

/-- A log of transaction 9 in block 5. -/
def inTransaction (address : Address) (index : Nat) (event : Event) : Log :=
  ⟨address, event, 5, 50, 9, 0, index⟩

/-- Manager 3 settles token 1 once, and two curves report that it graduated. -/
def sharedSettlement : List Log :=
  [inTransaction 3 0 (.graduatedV3 1 4 11 12),
    inTransaction 2 1 (.graduated 1 3 100 200 300),
    inTransaction 8 2 (.graduated 1 3 100 200 300)]

/-- **THE SHARED PARTNER IS ACCEPTED**. -/
theorem shared_settlement_accepted :
    (∀ l ∈ sharedSettlement, graduationIdentity l = .ok ()) ∧
      validateGraduationPairs sharedSettlement = .ok () ∧
      ¬ GraduationsPaired sharedSettlement := by
  refine ⟨by decide, by decide, ?_⟩
  intro hpaired
  exact absurd (OneToOne.length_eq hpaired) (by decide)

end EventPairs
