import Cooket.LaunchProofs

/-! # The registers of a launch agree

    What the factory, the fee manager, the graduation manager, the curve and
    the token hold about a launched token, in every state of every run.

    Each of these entries is written once.  `Later` is that fact as a preorder
    on states: every call respects it, and `Agrees` is kept by it, so nothing
    about a token that was launched has to be looked at again.  What is left is
    ONE launch, followed through its five contracts (`createToken_ok`). -/

namespace Launching

open CheckedArith Contract Endpoint PoolReservation
open FeeManager (FeeManagerCall FeeManagerStorage Views)
open TokenLedger (Erc20 Ledger)

variable {σ : Type}

/-! ## What is written once -/

/-- A token keeps its immutables, and its supply once it is minted. -/
structure SameToken (t t' : Token) : Prop where
  factory : t'.factory = t.factory
  creator : t'.creator = t.creator
  name : t'.name = t.name
  symbol : t'.symbol = t.symbol
  supply : t.initialized = true →
    t'.initialized = true ∧ t'.totalSupply = t.totalSupply
      ∧ t'.minted = t.minted

/-- A launch keeps everything but whether it graduated. -/
def SameLaunch (l l' : Launch) : Prop :=
  { l' with graduated := false } = { l with graduated := false }

/-- **LATER**: what one of the five contracts holds about a token it still
    holds. -/
structure Later (w w' : World σ) : Prop where
  tokens : ∀ a t, w.tokens a = some t →
    ∃ t', w'.tokens a = some t' ∧ SameToken t t'
  curves : ∀ a c, w.curves a = some c → w'.curves a = some c
  fees : ∀ t, w.fees.curveOf t ≠ 0 →
    w'.fees.curveOf t = w.fees.curveOf t
      ∧ w'.fees.creatorOf t = w.fees.creatorOf t
  launches : ∀ t, (w.manager.launches t).registered = true →
    SameLaunch (w.manager.launches t) (w'.manager.launches t)
  known : ∀ t, w.factory.isToken t = true →
    w'.factory.isToken t = true
      ∧ w'.factory.tokenInfo t = w.factory.tokenInfo t
      ∧ w'.factory.curveOf t = w.factory.curveOf t
  definitions : ∀ id, w.factory.definitionToken id ≠ 0 →
    w'.factory.definitionToken id = w.factory.definitionToken id
  byCreator : ∀ c t, t ∈ w.factory.tokensByCreator c →
    t ∈ w'.factory.tokensByCreator c

theorem SameToken.refl (t : Token) : SameToken t t :=
  ⟨rfl, rfl, rfl, rfl, fun h => ⟨h, rfl, rfl⟩⟩

theorem SameToken.trans {t t' t'' : Token} (h : SameToken t t')
    (h' : SameToken t' t'') : SameToken t t'' := by
  refine ⟨h'.factory.trans h.factory, h'.creator.trans h.creator,
    h'.name.trans h.name, h'.symbol.trans h.symbol, ?_⟩
  intro hinit
  obtain ⟨hinit', hsupply, hminted⟩ := h.supply hinit
  obtain ⟨hinit'', hsupply', hminted'⟩ := h'.supply hinit'
  exact ⟨hinit'', hsupply'.trans hsupply, hminted'.trans hminted⟩

theorem SameLaunch.registered {l l' : Launch} (h : SameLaunch l l') :
    l'.registered = l.registered :=
  show { l' with graduated := false }.registered = _ by rw [h]

theorem SameLaunch.curve {l l' : Launch} (h : SameLaunch l l') :
    l'.curve = l.curve :=
  show { l' with graduated := false }.curve = _ by rw [h]

theorem SameLaunch.creator {l l' : Launch} (h : SameLaunch l l') :
    l'.creator = l.creator :=
  show { l' with graduated := false }.creator = _ by rw [h]

section Later

variable {w w' w'' : World σ}

theorem Later.refl : Later w w where
  tokens _ t h := ⟨t, h, SameToken.refl t⟩
  curves _ _ h := h
  fees _ _ := ⟨rfl, rfl⟩
  launches _ _ := rfl
  known _ h := ⟨h, rfl, rfl⟩
  definitions _ _ := rfl
  byCreator _ _ h := h

theorem Later.trans (h : Later w w') (h' : Later w' w'') : Later w w'' where
  tokens a t ht := by
    obtain ⟨t', ht', hsame⟩ := h.tokens a t ht
    obtain ⟨t'', ht'', hsame'⟩ := h'.tokens a t' ht'
    exact ⟨t'', ht'', hsame.trans hsame'⟩
  curves a c hc := h'.curves a c (h.curves a c hc)
  fees t ht := by
    obtain ⟨hcurve, hcreator⟩ := h.fees t ht
    rw [← hcurve] at ht
    obtain ⟨hcurve', hcreator'⟩ := h'.fees t ht
    exact ⟨hcurve'.trans hcurve, hcreator'.trans hcreator⟩
  launches t ht := by
    have hsame := h.launches t ht
    rw [← hsame.registered] at ht
    exact Eq.trans (h'.launches t ht) hsame
  known t ht := by
    obtain ⟨hknown, hinfo, hcurve⟩ := h.known t ht
    obtain ⟨hknown', hinfo', hcurve'⟩ := h'.known t hknown
    exact ⟨hknown', hinfo'.trans hinfo, hcurve'.trans hcurve⟩
  definitions id hid := by
    have hsame := h.definitions id hid
    rw [← hsame] at hid
    exact (h'.definitions id hid).trans hsame
  byCreator c t ht := h'.byCreator c t (h.byCreator c t ht)

/-- Only tokens changed, each into the same token. -/
theorem later_tokens {tokens : Address → Option Token}
    (h : ∀ a t, w.tokens a = some t →
      ∃ t', tokens a = some t' ∧ SameToken t t') :
    Later w { w with tokens } :=
  { Later.refl with tokens := h }

/-- A token at a new address. -/
theorem later_newToken {a : Address} (t : Token) (h : w.tokens a = none) :
    Later w { w with tokens := Function.update w.tokens a (some t) } := by
  refine later_tokens ?_
  intro b t' ht'
  have hne : b ≠ a := by
    rintro rfl
    rw [h] at ht'
    exact nomatch ht'
  exact ⟨t', (Function.update_of_ne hne _ _).trans ht', SameToken.refl t'⟩

/-- One token changed, into the same token. -/
theorem later_token {a : Address} {t t' : Token} (h : w.tokens a = some t)
    (hsame : SameToken t t') :
    Later w { w with tokens := Function.update w.tokens a (some t') } := by
  refine later_tokens ?_
  intro b u hu
  by_cases hb : b = a
  · subst hb
    obtain rfl : t = u := Option.some.inj (h.symm.trans hu)
    exact ⟨t', Function.update_self _ _ _, hsame⟩
  · exact ⟨u, (Function.update_of_ne hb _ _).trans hu, SameToken.refl u⟩

/-- A curve at a new address. -/
theorem later_newCurve {a : Address} (c : Curve) (h : w.curves a = none) :
    Later w { w with curves := Function.update w.curves a (some c) } := by
  refine { Later.refl with curves := ?_ }
  intro b c' hc'
  have hne : b ≠ a := by
    rintro rfl
    rw [h] at hc'
    exact nomatch hc'
  exact (Function.update_of_ne hne _ _).trans hc'

/-- The fee manager went on. -/
theorem later_fees {fees : FeeManagerStorage}
    (h : ∀ t, w.fees.curveOf t ≠ 0 →
      fees.curveOf t = w.fees.curveOf t
        ∧ fees.creatorOf t = w.fees.creatorOf t) :
    Later w { w with fees } :=
  { Later.refl with fees := h }

/-- The graduation manager went on, and the rest of the chain with it. -/
theorem later_manager {chain : σ} {manager : ManagerStorage}
    (h : ∀ t, (w.manager.launches t).registered = true →
      SameLaunch (w.manager.launches t) (manager.launches t)) :
    Later w { w with chain, manager } :=
  { Later.refl with launches := h }

/-- The factory records a launch. -/
theorem later_factory {id : Bytes32} {token curve creator : Address}
    (hknown : w.factory.isToken token = false)
    (hid : w.factory.definitionToken id = 0) :
    Later w { w with
      factory := w.factory.launched id token curve creator } := by
  refine { Later.refl with known := ?_, definitions := ?_, byCreator := ?_ }
  · intro t ht
    have hne : t ≠ token := by
      rintro rfl
      rw [hknown] at ht
      exact nomatch ht
    exact ⟨(Function.update_of_ne hne _ _).trans ht,
      Function.update_of_ne hne _ _, Function.update_of_ne hne _ _⟩
  · intro id' hid'
    refine Function.update_of_ne ?_ _ _
    rintro rfl
    exact hid' hid
  · intro c t ht
    show t ∈ Function.update w.factory.tokensByCreator creator
      (w.factory.tokensByCreator creator ++ [token]) c
    by_cases hc : c = creator
    · subst hc
      rw [Function.update_self]
      exact List.mem_append_left _ ht
    · rw [Function.update_of_ne hc]
      exact ht

end Later

/-! ## Agreement -/

section Agreement

variable [Chain σ] [Hashes] {D : Deployment} {w w' : World σ}

/-- **THE FIVE CONTRACTS AGREE** about a token: on its curve and its creator,
    on its supply and who it was minted to, and on the definition it took. -/
structure Agrees (D : Deployment) (w : World σ) (t : Address) : Prop where
  token_ne : t ≠ 0
  curve_ne : (w.factory.tokenInfo t).2 ≠ 0
  factoryCurve : w.factory.curveOf t = (w.factory.tokenInfo t).2
  feesCurve : w.fees.curveOf t = (w.factory.tokenInfo t).2
  feesCreator : w.fees.creatorOf t = (w.factory.tokenInfo t).1
  registered : (w.manager.launches t).registered = true
  launchCurve : (w.manager.launches t).curve = (w.factory.tokenInfo t).2
  launchCreator : (w.manager.launches t).creator = (w.factory.tokenInfo t).1
  curve : w.curves (w.factory.tokenInfo t).2
    = some ⟨D.factory, t, (w.factory.tokenInfo t).1, D.feeManager,
      D.graduationManager⟩
  token : ∃ tok, w.tokens t = some tok ∧ tok.factory = D.factory
    ∧ tok.creator = (w.factory.tokenInfo t).1 ∧ tok.initialized = true
    ∧ tok.totalSupply = TOTAL_SUPPLY
    ∧ tok.minted = [((w.factory.tokenInfo t).2, TOTAL_SUPPLY)]
    ∧ w.factory.definitionToken
        (Hashes.definition (w.factory.tokenInfo t).1 tok.name tok.symbol) = t
  listed : t ∈ w.factory.tokensByCreator (w.factory.tokenInfo t).1

/-- Every token the factory knows is agreed on. -/
def Sound (D : Deployment) (w : World σ) : Prop :=
  ∀ t, w.factory.isToken t = true → Agrees D w t

omit [Chain σ] in
/-- **AGREEMENT LASTS.** -/
theorem Agrees.later {t : Address} (h : Agrees D w t)
    (hknown : w.factory.isToken t = true) (hlater : Later w w') :
    Agrees D w' t := by
  obtain ⟨-, hinfo, hcurveOf⟩ := hlater.known t hknown
  have hfees : w.fees.curveOf t ≠ 0 := by
    rw [h.feesCurve]
    exact h.curve_ne
  obtain ⟨hfeesCurve, hfeesCreator⟩ := hlater.fees t hfees
  have hlaunch := hlater.launches t h.registered
  obtain ⟨tok, htok, hfactory, hcreator, hinit, hsupply, hminted, hid⟩ :=
    h.token
  obtain ⟨tok', htok', hsame⟩ := hlater.tokens t tok htok
  obtain ⟨hinit', hsupply', hminted'⟩ := hsame.supply hinit
  have hdefinition : w.factory.definitionToken
      (Hashes.definition (w.factory.tokenInfo t).1 tok.name tok.symbol)
        ≠ 0 := by
    rw [hid]
    exact h.token_ne
  refine ⟨h.token_ne, ?_, ?_, ?_, ?_, ?_, ?_, ?_, ?_, ?_, ?_⟩
  · rw [hinfo]
    exact h.curve_ne
  · rw [hcurveOf, hinfo]
    exact h.factoryCurve
  · rw [hfeesCurve, hinfo]
    exact h.feesCurve
  · rw [hfeesCreator, hinfo]
    exact h.feesCreator
  · rw [hlaunch.registered]
    exact h.registered
  · rw [hinfo, ← h.launchCurve]
    exact hlaunch.curve
  · rw [hinfo, ← h.launchCreator]
    exact hlaunch.creator
  · rw [hinfo]
    exact hlater.curves _ _ h.curve
  · refine ⟨tok', htok', hsame.factory.trans hfactory, ?_, hinit',
      hsupply'.trans hsupply, ?_, ?_⟩
    · rw [hinfo, hsame.creator]
      exact hcreator
    · rw [hinfo, hminted']
      exact hminted
    · rw [hinfo, hsame.name, hsame.symbol, hlater.definitions _ hdefinition]
      exact hid
  · rw [hinfo]
    exact hlater.byCreator _ _ h.listed

omit [Hashes] in
/-- Nothing of the protocol is at an address without code. -/
theorem nothing_at {a : Address} (h : codeAt D w a = false) :
    w.tokens a = none ∧ w.curves a = none := by
  unfold codeAt PoolReservation.hasCode created at h
  simp only [Bool.or_eq_false_iff, Option.isSome_eq_false_iff,
    Option.isNone_iff_eq_none] at h
  exact ⟨h.1.1.2, h.1.2⟩

theorem deployToken_later {sender creator : Address} {userSalt seed : Bytes32}
    {name symbol : Text} {selected : Selection}
    (h : deployToken D w sender creator userSalt name symbol
      = .ok (w', seed, selected)) : Later w w' := by
  obtain ⟨-, hcode, -, rfl⟩ := deployToken_ok h
  exact later_newToken _ (nothing_at hcode).1

omit [Hashes] in
theorem deployCurve_later {sender token creator newCurve : Address}
    (h : deployCurve D w sender token creator newCurve = .ok w') :
    Later w w' := by
  obtain ⟨hcode, rfl⟩ := deployCurve_ok h
  exact later_newCurve _ (nothing_at hcode).2

omit [Chain σ] [Hashes] in
theorem initializeToken_later {sender token owner : Address}
    (h : initializeToken w sender token owner = .ok w') : Later w w' := by
  obtain ⟨t, ht, hinit, rfl⟩ := initializeToken_ok h
  refine later_token ht ⟨rfl, rfl, rfl, rfl, ?_⟩
  intro hdone
  rw [hinit] at hdone
  exact nomatch hdone

omit [Hashes] in
theorem registerToken_later {now : Nat} {token curve creator : Address}
    (h : registerToken D w now token curve creator = .ok w') :
    Later w w' := by
  obtain ⟨hfresh, -, -, fees, rfl, hcurve, hcreator⟩ := registerToken_ok h
  refine later_fees ?_
  intro t ht
  have hne : t ≠ token := by
    rintro rfl
    exact ht hfresh
  rw [hcurve, hcreator]
  exact ⟨Function.update_of_ne hne _ _, Function.update_of_ne hne _ _⟩

omit [Chain σ] [Hashes] in
/-- A launch is registered where there was none. -/
theorem later_newLaunch {token : Address} {chain : σ} {l : Launch}
    {canonicalPoolOf : Address → Address}
    (hfresh : (w.manager.launches token).registered = false) :
    Later w { w with
      chain
      manager := { w.manager with
        launches := Function.update w.manager.launches token l
        canonicalPoolOf } } := by
  refine later_manager ?_
  intro t ht
  have hne : t ≠ token := by
    rintro rfl
    rw [hfresh] at ht
    exact nomatch ht
  show SameLaunch _ (Function.update w.manager.launches token l t)
  rw [Function.update_of_ne hne]
  rfl

omit [Hashes] in
theorem registerWithManager_later {token curve creator : Address}
    {seed : Bytes32} {selected : Selection}
    (h : registerWithManager D w token curve creator seed selected
      = .ok w') : Later w w' := by
  obtain ⟨hfresh, chain, pool, rfl⟩ := registerWithManager_ok h
  exact later_newLaunch hfresh

/-- **ONE LAUNCH**: from agreement, a launch keeps everything that was
    launched before and agrees on what it launches. -/
theorem createToken_agrees {now : Nat} {sender newCurve : Address}
    {name symbol : Text} {userSalt : Bytes32} (hs : Sound D w)
    (h : createToken D w now sender name symbol userSalt newCurve
      = .ok w') :
    Later w w' ∧ ∃ token,
      w'.factory.isToken = Function.update w.factory.isToken token true
        ∧ w'.factory.tokenInfo token = (sender, newCurve)
        ∧ Agrees D w' token := by
  simp only [createToken, bind_ok, revertIf_ok, not_not, not_or,
    ne_eq] at h
  obtain ⟨_, -, _, -, _, -, _, hid, ⟨w₁, seed, selected⟩, htoken, w₂,
    hcurve, w₃, hinit, _, -, w₅, hfees, hmanager⟩ := h
  have h₁ := deployToken_later htoken
  have h₂ := deployCurve_later hcurve
  have h₃ := initializeToken_later hinit
  have h₅ := registerToken_later hfees
  have h₆ := registerWithManager_later hmanager
  obtain ⟨-, hcode, hfree, hw₁⟩ := deployToken_ok htoken
  obtain ⟨-, hw₂⟩ := deployCurve_ok hcurve
  obtain ⟨t, ht, -, hw₃⟩ := initializeToken_ok hinit
  obtain ⟨-, hcurveNe, -, fees, hw₅, hfeesCurve, hfeesCreator⟩ :=
    registerToken_ok hfees
  obtain ⟨-, chain, pool, hw₆⟩ := registerWithManager_ok hmanager
  have hfactory₃ : w₃.factory = w.factory := by
    rw [hw₃, hw₂, hw₁]
  have hunknown : w.factory.isToken selected.candidate = false := by
    cases hk : w.factory.isToken selected.candidate with
    | false => rfl
    | true =>
        obtain ⟨tok, htok, -⟩ := (hs _ hk).token
        rw [(nothing_at hcode).1] at htok
        exact nomatch htok
  have h₄ : Later w₃ { w₃ with
      factory := w₃.factory.launched (Hashes.definition sender name symbol)
        selected.candidate newCurve sender } := by
    refine later_factory ?_ ?_
    · rw [hfactory₃]
      exact hunknown
    · rw [hfactory₃]
      exact hid
  -- the token that was minted is the one just created
  have htokens₂ : w₂.tokens selected.candidate = some ⟨D.factory, sender, name,
      symbol, false, 0, ⟨fun _ => 0, fun _ _ => 0⟩, []⟩ := by
    rw [hw₂, hw₁]
    exact Function.update_self _ _ _
  have ht' : t = ⟨D.factory, sender, name, symbol, false, 0,
      ⟨fun _ => 0, fun _ _ => 0⟩, []⟩ :=
    Option.some.inj (ht.symm.trans htokens₂)
  have htokenNe : selected.candidate ≠ 0 := by
    intro hzero
    rw [hzero] at hfree
    exact nomatch hfree
  have hfactory : w'.factory = w.factory.launched
      (Hashes.definition sender name symbol) selected.candidate newCurve
        sender := by
    rw [hw₆, hw₅, ← hfactory₃]
  have hinfo : w'.factory.tokenInfo selected.candidate
      = (sender, newCurve) := by
    rw [hfactory]
    exact Function.update_self _ _ _
  have htokens : w'.tokens selected.candidate
      = some (t.mint newCurve (t.totalSupply + TOTAL_SUPPLY)) := by
    rw [hw₆, hw₅, hw₃]
    exact Function.update_self _ _ _
  have hlaunch : w'.manager.launches selected.candidate
      = ⟨newCurve, sender, pool, seed, selected.salt, selected.attemptIndex,
        true, false⟩ := by
    rw [hw₆]
    exact Function.update_self _ _ _
  refine ⟨((((h₁.trans h₂).trans h₃).trans h₄).trans h₅).trans h₆,
    selected.candidate, ?_, hinfo, htokenNe, ?_, ?_, ?_, ?_, ?_, ?_, ?_, ?_,
    ?_, ?_⟩
  · rw [hfactory]
    rfl
  · rw [hinfo]
    exact hcurveNe
  · rw [hinfo, hfactory]
    exact Function.update_self _ _ _
  · rw [hinfo, hw₆, hw₅]
    show fees.curveOf selected.candidate = newCurve
    rw [hfeesCurve]
    exact Function.update_self _ _ _
  · rw [hinfo, hw₆, hw₅]
    show fees.creatorOf selected.candidate = sender
    rw [hfeesCreator]
    exact Function.update_self _ _ _
  · rw [hlaunch]
  · rw [hlaunch, hinfo]
  · rw [hlaunch, hinfo]
  · rw [hinfo, hw₆, hw₅, hw₃, hw₂]
    exact Function.update_self _ _ _
  · refine ⟨_, htokens, ?_⟩
    rw [hinfo, ht']
    refine ⟨rfl, rfl, rfl, Nat.zero_add _, rfl, ?_⟩
    rw [hfactory]
    exact Function.update_self _ _ _
  · rw [hinfo, hfactory]
    show selected.candidate ∈ Function.update w.factory.tokensByCreator sender
      (w.factory.tokensByCreator sender ++ [selected.candidate]) sender
    rw [Function.update_self]
    exact List.mem_append_right _ (List.mem_singleton_self _)

omit [Chain σ] [Hashes] in
theorem callToken_later {sender token : Address} {k : TokenCall}
    (h : callToken w sender token k = .ok w') :
    Later w w' ∧ w'.factory = w.factory := by
  unfold callToken at h
  split at h
  · exact nomatch h
  · rename_i t ht
    have hledger : ∀ ledger, Later w { w with
        tokens := Function.update w.tokens token (some { t with ledger }) } :=
      fun ledger =>
        later_token ht ⟨rfl, rfl, rfl, rfl, fun hi => ⟨hi, rfl, rfl⟩⟩
    cases k with
    | transfer to_ value =>
        simp only [bind_ok, pure_ok] at h
        obtain ⟨ledger, -, rfl⟩ := h
        exact ⟨hledger ledger, rfl⟩
    | transferFrom from_ to_ value =>
        simp only [bind_ok, pure_ok] at h
        obtain ⟨ledger, -, rfl⟩ := h
        exact ⟨hledger ledger, rfl⟩
    | approve spender value =>
        simp only [bind_ok, pure_ok] at h
        obtain ⟨ledger, -, rfl⟩ := h
        exact ⟨hledger ledger, rfl⟩

omit [Chain σ] [Hashes] in
theorem setFactoryOnce_later {V : Views} {sender factory_ : Address}
    (h : setFactoryOnce w V sender factory_ = .ok w') :
    Later w w' ∧ w'.factory = w.factory := by
  simp only [setFactoryOnce, bind_ok, revertIf_ok, pure_ok] at h
  obtain ⟨_, -, _, -, _, -, _, -, rfl⟩ := h
  exact ⟨later_manager (fun _ _ => rfl), rfl⟩

omit [Chain σ] [Hashes] in
theorem authorizeGraduation_later {sender token creator : Address}
    (h : authorizeGraduation w sender token creator = .ok w') :
    Later w w' ∧ w'.factory = w.factory := by
  simp only [authorizeGraduation, bind_ok, revertIf_ok, pure_ok] at h
  obtain ⟨_, -, _, -, _, -, _, -, rfl⟩ := h
  refine ⟨later_manager ?_, rfl⟩
  intro t _
  show SameLaunch (w.manager.launches t) (Function.update w.manager.launches
    token { w.manager.launches token with graduated := true } t)
  by_cases ht : t = token
  · subst ht
    rw [Function.update_self]
    rfl
  · rw [Function.update_of_ne ht]
    rfl

/-- **EVERY CALL** keeps what was launched, and agrees on what it launches. -/
theorem exec_later {k : Call σ} (hs : Sound D w) (h : exec D w k = .ok w') :
    Later w w' ∧ ∀ t, w'.factory.isToken t = true →
      w.factory.isToken t = true ∨ Agrees D w' t := by
  -- all calls but one leave the factory alone
  have hsame : Later w w' ∧ w'.factory = w.factory →
      Later w w' ∧ ∀ t, w'.factory.isToken t = true →
        w.factory.isToken t = true ∨ Agrees D w' t := by
    rintro ⟨hlater, hfactory⟩
    refine ⟨hlater, ?_⟩
    intro t ht
    rw [hfactory] at ht
    exact Or.inl ht
  cases k with
  | createToken now sender name symbol userSalt newCurve =>
      obtain ⟨hlater, token, hknown, -, hagrees⟩ := createToken_agrees hs h
      refine ⟨hlater, ?_⟩
      intro t ht
      rw [hknown] at ht
      by_cases htoken : t = token
      · rw [htoken]
        exact Or.inr hagrees
      · rw [Function.update_of_ne htoken] at ht
        exact Or.inl ht
  | deployToken sender creator userSalt name symbol =>
      simp only [exec, bind_ok, pure_ok] at h
      obtain ⟨⟨w₁, seed, selected⟩, hdeploy, rfl⟩ := h
      obtain ⟨-, -, -, hw₁⟩ := deployToken_ok hdeploy
      refine hsame ⟨deployToken_later hdeploy, ?_⟩
      rw [hw₁]
  | deployCurve sender token creator newCurve =>
      obtain ⟨-, hw'⟩ := deployCurve_ok h
      refine hsame ⟨deployCurve_later h, ?_⟩
      rw [hw']
  | initializeToken sender token inventoryOwner =>
      obtain ⟨t, -, -, hw'⟩ := initializeToken_ok h
      refine hsame ⟨initializeToken_later h, ?_⟩
      rw [hw']
  | callToken sender token k => exact hsame (callToken_later h)
  | registerLaunch V sender token curve creator launchSeed candidateSalt
      attemptIndex =>
      simp only [exec, bind_ok, mapError_ok, pure_ok] at h
      obtain ⟨⟨chain, manager, pool⟩, hregister, rfl⟩ := h
      obtain ⟨-, hfresh, -, rfl⟩ := registerLaunch_ok hregister
      exact hsame ⟨later_newLaunch hfresh, rfl⟩
  | setFactoryOnce V sender factory_ => exact hsame (setFactoryOnce_later h)
  | authorizeGraduation sender token creator =>
      exact hsame (authorizeGraduation_later h)
  | fees V msg k =>
      simp only [exec, bind_ok, mapError_ok, pure_ok] at h
      obtain ⟨out, hout, rfl⟩ := h
      refine hsame ⟨later_fees ?_, rfl⟩
      intro t ht
      rw [FeeManager.finish_eq]
      exact FeeManager.call_registered hout ht
  | elsewhere chain =>
      obtain rfl := Except.ok.inj h
      exact hsame ⟨Later.refl.trans (later_manager (fun _ _ => rfl)), rfl⟩

theorem step_later (hs : Sound D w) (k : Call σ) :
    Later w (step D w k) ∧ Sound D (step D w k) := by
  unfold step
  cases h : exec D w k with
  | error e => exact ⟨Later.refl, hs⟩
  | ok w' =>
      obtain ⟨hlater, hknown⟩ := exec_later hs h
      refine ⟨hlater, ?_⟩
      intro t ht
      rcases hknown t ht with hold | hnew
      · exact (hs t hold).later hold hlater
      · exact hnew

/-- A run of calls. -/
def run (D : Deployment) (w : World σ) (ks : List (Call σ)) : World σ :=
  ks.foldl (step D) w

theorem run_later (hs : Sound D w) (ks : List (Call σ)) :
    Later w (run D w ks) ∧ Sound D (run D w ks) := by
  induction ks generalizing w with
  | nil => exact ⟨Later.refl, hs⟩
  | cons k ks ih =>
      obtain ⟨hlater, hs'⟩ := step_later hs k
      obtain ⟨hrest, hend⟩ := ih hs'
      exact ⟨hlater.trans hrest, hend⟩

omit [Chain σ] in
theorem sound_deployed (chain : σ) (governance treasury : Address) :
    Sound D (deployed chain governance treasury) :=
  fun _ h => nomatch h

omit [Chain σ] in
/-- Tokens that are agreed on have curves of their own. -/
theorem Agrees.curve_injective {t t' : Address} (h : Agrees D w t)
    (h' : Agrees D w t')
    (hcurve : (w.factory.tokenInfo t).2 = (w.factory.tokenInfo t').2) :
    t = t' := by
  have hc := h.curve
  rw [hcurve, h'.curve] at hc
  exact (congrArg Curve.token (Option.some.inj hc)).symm

omit [Chain σ] in
/-- … and definitions of their own. -/
theorem Agrees.definition_injective {t t' : Address} {tok tok' : Token}
    (h : Agrees D w t) (h' : Agrees D w t') (htok : w.tokens t = some tok)
    (htok' : w.tokens t' = some tok') (hcreator : tok.creator = tok'.creator)
    (hname : tok.name = tok'.name) (hsymbol : tok.symbol = tok'.symbol) :
    t = t' := by
  obtain ⟨u, hu, -, huc, -, -, -, hid⟩ := h.token
  obtain ⟨u', hu', -, huc', -, -, -, hid'⟩ := h'.token
  obtain rfl := Option.some.inj (hu.symm.trans htok)
  obtain rfl := Option.some.inj (hu'.symm.trans htok')
  rw [← hid, ← hid', ← huc, ← huc', hcreator, hname, hsymbol]

/-- **THE REGISTERS AGREE**, after any calls by anybody: about every token the
    factory knows, all five contracts agree; no two tokens share a curve or a
    definition; what is agreed on never changes; a launch that returns makes one
    token known, of its sender and its curve, and agreed on; and one that fails
    anywhere changes nothing. -/
theorem registry_agreement (D : Deployment) (chain : σ)
    (governance treasury : Address) (ks : List (Call σ)) :
    let w := run D (deployed chain governance treasury) ks
    (∀ t, w.factory.isToken t = true → Agrees D w t)
    ∧ (∀ t t', w.factory.isToken t = true → w.factory.isToken t' = true →
        (w.factory.tokenInfo t).2 = (w.factory.tokenInfo t').2 → t = t')
    ∧ (∀ t t' tok tok', w.factory.isToken t = true →
        w.factory.isToken t' = true → w.tokens t = some tok →
        w.tokens t' = some tok' → tok.creator = tok'.creator →
        tok.name = tok'.name → tok.symbol = tok'.symbol → t = t')
    ∧ (∀ ks' t, w.factory.isToken t = true →
        (run D w ks').factory.isToken t = true
        ∧ (run D w ks').factory.tokenInfo t = w.factory.tokenInfo t
        ∧ Agrees D (run D w ks') t)
    ∧ (∀ now sender name symbol userSalt newCurve w',
        createToken D w now sender name symbol userSalt newCurve = .ok w' →
        ∃ t, w'.factory.isToken
            = Function.update w.factory.isToken t true
          ∧ w'.factory.tokenInfo t = (sender, newCurve)
          ∧ Agrees D w' t)
    ∧ (∀ now sender name symbol userSalt newCurve e,
        createToken D w now sender name symbol userSalt newCurve = .error e →
        step D w (.createToken now sender name symbol userSalt newCurve)
          = w) := by
  intro w
  have hs : Sound D w :=
    (run_later (sound_deployed chain governance treasury) ks).2
  refine ⟨hs, ?_, ?_, ?_,
    fun _ _ _ _ _ _ _ h => (createToken_agrees hs h).2, ?_⟩
  · intro t t' ht ht'
    exact (hs t ht).curve_injective (hs t' ht')
  · intro t t' tok tok' ht ht'
    exact (hs t ht).definition_injective (hs t' ht')
  · intro ks' t ht
    obtain ⟨hlater, hs'⟩ := run_later hs ks'
    obtain ⟨hknown, hinfo, -⟩ := hlater.known t ht
    exact ⟨hknown, hinfo, hs' t hknown⟩
  · intro now sender name symbol userSalt newCurve e h
    have hx : exec D w
        (.createToken now sender name symbol userSalt newCurve) = .error e := h
    unfold step
    rw [hx]

end Agreement

/-- Governance wires the deployment, and the account 10 launches the token
    100. -/
def launchCalls : List (Call (Pairs 6)) :=
  [.fees (views smallDeployment smallWorld) ⟨8, 0, 1⟩ (.setFactoryOnce 1),
   .setFactoryOnce (views smallDeployment smallWorld) 8 1,
   .createToken 5 10 [67] [67] 100 11]

def launchedWorld : World (Pairs 6) :=
  @run _ _ plainHashes smallDeployment (deployed (fun _ => none) 8 9)
    launchCalls

/-- Everything agrees about it, and it is all the supply there is. -/
theorem registry_agreement_launched :
    launchedWorld.factory.isToken 100 = true
      ∧ launchedWorld.factory.tokenInfo 100 = (10, 11)
      ∧ totalSupply launchedWorld 100 = TOTAL_SUPPLY
      ∧ @Agrees _ plainHashes smallDeployment launchedWorld 100 := by
  have hknown : launchedWorld.factory.isToken 100 = true := by decide +kernel
  refine ⟨hknown, by decide +kernel, by decide +kernel, ?_⟩
  obtain ⟨hagrees, -⟩ := @registry_agreement (Pairs 6) _ plainHashes
    smallDeployment (fun _ => none) 8 9 launchCalls
  unfold launchedWorld at hknown ⊢
  exact hagrees 100 hknown

end Launching
