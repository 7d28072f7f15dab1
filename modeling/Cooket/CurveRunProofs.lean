import Cooket.CurveMachineProofs

/-! # A curve through a whole run

    Two relations between states of the world, each covering every call.

    `Kept c` holds between any two states that follow each other, the ones in
    which somebody else has control included: the storage moved by a sequence
    of trades, and the curve's money moved with it.

    `Conducts c` adds the lock.  While the curve is entered nothing of its own
    happens; between transactions its own lines in the journal are the lines
    of whole trades, one after the other. -/

namespace CurveRun

open CheckedArith Contract CurveMachine CurveQuote CurveTrade CurveWorld
  Endpoint Reentrant TokenLedger

variable {τ : Type} [Erc20 Address Revert τ]

/-! ## The trades of a journal -/

/-- The trade an event reports, with its trader. -/
def tradeOf : Line → Option (Address × Trade)
  | .tokensBought _ trader q => some (trader, .bought q)
  | .tokensSold _ trader q => some (trader, .sold q)
  | _ => none

/-- **THE EVENTS OF A CURVE**, in order. -/
def trades (c : Address) (w : World τ) : List (Address × Trade) :=
  (ownLines c w).filterMap tradeOf

/-- The lines of one trade report one trade. -/
theorem tradeOf_tradeLines (D : Deployment) (c : Address)
    (t : Address × Trade) : (tradeLines D c t).filterMap tradeOf = [t] := by
  obtain ⟨trader, q | q⟩ := t
  · show ((buyLines D c trader q) ++ _).filterMap tradeOf = _
    rw [buyLines]
    cases hreach : q.reachesGraduation with
    | false =>
        by_cases hrefund : q.refund ≠ 0
        · rw [if_pos hrefund]
          rfl
        · rw [if_neg hrefund]
          rfl
    | true =>
        by_cases hrefund : q.refund ≠ 0
        · rw [if_pos hrefund]
          rfl
        · rw [if_neg hrefund]
          rfl
  · rfl

theorem tradeOf_flatMap (D : Deployment) (c : Address)
    (ts : List (Address × Trade)) :
    (ts.flatMap (tradeLines D c)).filterMap tradeOf = ts := by
  induction ts with
  | nil => rfl
  | cons t ts ih =>
      rw [List.flatMap_cons, List.filterMap_append, tradeOf_tradeLines, ih]
      rfl

/-! ## What a trade does to the storage -/

section Storage

variable [MulDiv] {s s' : CurveStorage}

/-- An accepted buy moves the reserve by its net input, the sold supply by its
    tokens, and may end the curve. -/
theorem bought_storage {q : BuyQuote} (h : Step s (.bought q) s') :
    s'.activeNativeUsdcReserve
        + (if q.reachesGraduation then GRADUATION_NATIVE_USDC_RESERVE else 0)
        = s.activeNativeUsdcReserve + q.netCurveInput
      ∧ s'.soldSupply = s.soldSupply + q.tokensOut
      ∧ s.graduated = false ∧ s'.graduated = q.reachesGraduation := by
  cases h with
  | buy hfit hq hreach hs =>
      have ha := (quoteBuy_active hq).2
      rw [recordBuy_ok hs, hreach]
      exact ⟨rfl, rfl, ha, ha⟩
  | graduate hfit hq hreach hs hs' =>
      have ha := (quoteBuy_active hq).2
      obtain ⟨-, hreserve, -, hs'⟩ := forwardReserve_ok hs'
      have hs := recordBuy_ok hs
      rw [hs', hreach, if_pos rfl, Nat.zero_add, ← hreserve, hs, hreach]
      exact ⟨rfl, rfl, ha, rfl⟩

/-- An accepted sell moves both back. -/
theorem sold_storage {q : SellQuote} (h : Step s (.sold q) s') :
    s'.activeNativeUsdcReserve + q.grossCurveOutput
        = s.activeNativeUsdcReserve
      ∧ s'.soldSupply + q.tokensIn = s.soldSupply
      ∧ s.graduated = false ∧ s'.graduated = false := by
  cases h with
  | sell hq hs =>
      have ha := (quoteSell_active hq).1
      obtain ⟨hsold, hreserve, rfl⟩ := recordSell_ok hs
      exact ⟨Nat.sub_add_cancel hreserve, Nat.sub_add_cancel hsold, ha, ha⟩

end Storage

/-! ## What every call keeps -/

section Kept

variable [MulDiv] {D : Deployment} {c : Address} {w w' : World τ}

/-- The tokens a curve holds or has already given away for good. -/
def tokenLevel (D : Deployment) (c : Address) (w : World τ) : Nat :=
  w.balanceOf (D.tokenOf c) c + (w.curves c).soldSupply
    + (if (w.curves c).graduated then LP_ALLOCATION else 0)

/-- **WHAT IS KEPT**: the storage moves by trades, the value covers what the
    reserve gained, and the tokens are those of before and the donations. -/
structure Kept (D : Deployment) (c : Address) (a b : World τ) : Prop where
  run : ∃ ts, Run (a.curves c) ts (b.curves c)
  native : a.native c + (b.curves c).activeNativeUsdcReserve
    ≤ b.native c + (a.curves c).activeNativeUsdcReserve
  allowance : NoAllowance D c a → NoAllowance D c b
  tokens : NoAllowance D c a →
    tokenLevel D c b + donated D c c a = tokenLevel D c a + donated D c c b

theorem Kept.refl (w : World τ) : Kept D c w w where
  run := ⟨[], .refl _⟩
  native := Nat.le_refl _
  allowance h := h
  tokens _ := rfl

theorem Kept.trans {w₁ w₂ w₃ : World τ} (h : Kept D c w₁ w₂)
    (h' : Kept D c w₂ w₃) : Kept D c w₁ w₃ := by
  obtain ⟨ts, hrun⟩ := h.run
  obtain ⟨us, hrun'⟩ := h'.run
  refine ⟨⟨ts ++ us, hrun.trans hrun'⟩, ?_, ?_, ?_⟩
  · have h₁ := h.native
    have h₂ := h'.native
    omega
  · exact fun hn => h'.allowance (h.allowance hn)
  · intro hn
    have h₁ := h.tokens hn
    have h₂ := h'.tokens (h.allowance hn)
    omega

theorem Kept.of_frame (h : Frame D c w w') : Kept D c w w' := by
  refine ⟨⟨[], ?_⟩, ?_, h.allowance, ?_⟩
  · rw [h.curve]
    exact .refl _
  · rw [h.curve]
    exact Nat.add_le_add_right h.native _
  · intro hn
    have htokens := h.tokens hn
    simp only [tokenLevel, h.curve]
    omega

theorem bought_kept {trader : Address} {value : Nat} {q : BuyQuote}
    {e : Entry (World τ) Receipt} (h : Bought D w trader c value q e) :
    Kept D c w e.state := by
  obtain ⟨hreserve, hsold, hactive, hgrad⟩ := bought_storage h.step
  obtain ⟨-, hsplit, -⟩ := quoteBuy_amounts h.quote
  have hnative := h.acts.native
  refine ⟨⟨_, .step h.step (.refl _)⟩, ?_, h.acts.allowance, ?_⟩
  · omega
  · intro hn
    have htokens := h.acts.tokens hn
    have hopen : tokenLevel D c w
        = w.balanceOf (D.tokenOf c) c + (w.curves c).soldSupply + 0 := by
      rw [tokenLevel, hactive]
      rfl
    simp only [tokenLevel, hgrad, hsold] at hopen ⊢
    omega

theorem sold_kept {trader : Address} {tokensIn : Nat} {q : SellQuote}
    {e : Entry (World τ) Receipt} (h : Sold D w trader c tokensIn q e) :
    Kept D c w e.state := by
  obtain ⟨hreserve, hsold, hactive, hgrad⟩ := sold_storage h.step
  obtain ⟨-, hsplit, -⟩ := quoteSell_amounts h.quote
  have hnative := h.acts.native
  refine ⟨⟨_, .step h.step (.refl _)⟩, ?_, h.acts.allowance, ?_⟩
  · omega
  · intro hn
    have htokens := h.acts.tokens hn
    simp only [tokenLevel, hactive, hgrad]
    omega

/-- **EVERY FIRST HALF** keeps every curve. -/
theorem enter_kept (hc : D.isCurve c = true) {k : Call}
    {e : Entry (World τ) Receipt} (h : (machine D).enter k w = .ok e) :
    Kept D c w e.state := by
  rcases enter_cases h with ⟨trader, c', value, q, hb⟩
    | ⟨trader, c', tokensIn, q, hs⟩ | ⟨hframes, -⟩
  · by_cases heq : c = c'
    · subst heq
      exact bought_kept hb
    · exact .of_frame (hb.acts.others c hc heq)
  · by_cases heq : c = c'
    · subst heq
      exact sold_kept hs
    · exact .of_frame (hs.acts.others c hc heq)
  · exact .of_frame (hframes c hc)

/-- The end of a trade moves nothing. -/
theorem finish_kept {e : Line} (hdonation : donation D c c e = 0)
    (c' : Address) :
    Kept D c w ((w.emit [e]).setEntered c' false) where
  run := ⟨[], .refl _⟩
  native := Nat.le_refl _
  allowance h := h
  tokens _ := by
    have hsame : donated D c c ((w.emit [e]).setEntered c' false)
        = donated D c c w + donation D c c e := donated_concat rfl
    rw [hsame, hdonation]
    rfl

/-- **EVERY SECOND HALF** keeps every curve. -/
theorem leave_kept (r : Receipt) : Kept D c w ((machine D).leave r w) := by
  cases r with
  | nothing => exact .refl w
  | bought c' trader q => exact finish_kept rfl c'
  | sold c' trader q => exact finish_kept rfl c'
  | fees receipt =>
      exact .of_frame (leave_frame (r := .fees receipt)
        (fun _ _ _ h => nomatch h) (fun _ _ _ h => nomatch h))

/-- **KEPT AT EVERY STATE THAT FOLLOWS.** -/
theorem later_kept (hc : D.isCurve c = true)
    (h : (machine D).Later w w') : Kept D c w w' := by
  refine Machine.Later.preorder (R := Kept D c) Kept.refl
    (fun _ _ _ => Kept.trans) ?_ h
  intro s s' hhalf
  cases hhalf with
  | enter hk => exact enter_kept hc hk
  | leave r s => exact leave_kept r

end Kept

/-! ## Between transactions -/

section Conducts

variable [MulDiv] {D : Deployment} {c : Address}

/-- **HOW A CURVE CONDUCTS ITSELF**: entered, it does nothing; free, it does
    whole trades, with outsiders. -/
structure Conducts (D : Deployment) (c : Address) (a b : World τ) :
    Prop where
  entered : b.entered c = a.entered c
  locked : a.entered c = true →
    b.curves c = a.curves c ∧ ownLines c b = ownLines c a
  free : a.entered c = false → ∃ ts : List (Address × Trade),
    Run (a.curves c) (ts.map Prod.snd) (b.curves c)
      ∧ ownLines c b = ownLines c a ++ ts.flatMap (tradeLines D c)
      ∧ ∀ t ∈ ts, D.internal t.1 ≠ true

theorem Conducts.of_frame {w w' : World τ} (h : Frame D c w w') :
    Conducts D c w w' where
  entered := h.entered
  locked _ := ⟨h.curve, h.own⟩
  free _ := by
    refine ⟨[], ?_, h.own.trans (List.append_nil _).symm,
      fun _ ht => nomatch ht⟩
    rw [h.curve]
    exact .refl _

omit [Erc20 Address Revert τ] in
theorem Conducts.trans {w₁ w₂ w₃ : World τ} (h : Conducts D c w₁ w₂)
    (h' : Conducts D c w₂ w₃) : Conducts D c w₁ w₃ where
  entered := h'.entered.trans h.entered
  locked hl := by
    obtain ⟨hcurve, hown⟩ := h.locked hl
    obtain ⟨hcurve', hown'⟩ := h'.locked (h.entered.trans hl)
    exact ⟨hcurve'.trans hcurve, hown'.trans hown⟩
  free hf := by
    obtain ⟨ts, hrun, hown, hout⟩ := h.free hf
    obtain ⟨us, hrun', hown', hout'⟩ := h'.free (h.entered.trans hf)
    refine ⟨ts ++ us, ?_, ?_, ?_⟩
    · rw [List.map_append]
      exact hrun.trans hrun'
    · rw [hown', hown, List.flatMap_append, List.append_assoc]
    · intro t ht
      rcases List.mem_append.mp ht with ht | ht
      · exact hout t ht
      · exact hout' t ht

omit [Erc20 Address Revert τ] in
/-- A trade, once it is over: the code its receiver ran found the curve
    entered, so the trade's lines stand together. -/
theorem Conducts.of_trade {w w₁ w₂ w₃ : World τ} {t : Address × Trade}
    {ls : List Line} {e : Line} (houtsider : D.internal t.1 ≠ true)
    (hfree : w.entered c = false)
    (hstep : Step (w.curves c) t.2 (w₁.curves c))
    (hlocked : w₁.entered c = true)
    (hown : ownLines c w₁ = ownLines c w ++ ls)
    (hlines : tradeLines D c t = ls ++ [e])
    (hcode : Conducts D c w₁ w₂) (hcurve : w₃.curves c = w₂.curves c)
    (hleft : w₃.entered c = false)
    (hlast : ownLines c w₃ = ownLines c w₂ ++ [e]) :
    Conducts D c w w₃ where
  entered := hleft.trans hfree.symm
  locked h := absurd (hfree.symm.trans h) Bool.false_ne_true
  free _ := by
    obtain ⟨hcurve₂, hown₂⟩ := hcode.locked hlocked
    refine ⟨[t], ?_, ?_, ?_⟩
    · rw [hcurve, hcurve₂]
      exact .step hstep (.refl _)
    · rw [hlast, hown₂, hown, List.flatMap_cons, List.flatMap_nil,
        List.append_nil, hlines, List.append_assoc]
    · exact List.forall_mem_singleton.mpr houtsider

theorem conducts_covers (hc : D.isCurve c = true) :
    (machine (τ := τ) D).Covers (Conducts D c) := by
  intro k w e hk w' hcode
  rcases enter_cases hk with ⟨trader, c', value, q, hb⟩
    | ⟨trader, c', tokensIn, q, hs⟩ | ⟨hframes, hret⟩
  · by_cases heq : c = c'
    · subst heq
      rw [hb.ret]
      exact .of_trade (t := (trader, .bought q)) hb.outsider hb.free hb.step
        hb.locked hb.acts.own rfl hcode rfl (Function.update_self _ _ _)
        (ownLines_own rfl (beq_self_eq_true c))
    · refine (Conducts.of_frame (hb.acts.others c hc heq)).trans
        (hcode.trans (.of_frame (leave_frame ?_ ?_)))
      · rintro c₁ trader₁ q₁ h
        rw [hb.ret] at h
        cases h
        exact heq
      · rintro c₁ trader₁ q₁ h
        rw [hb.ret] at h
        exact nomatch h
  · by_cases heq : c = c'
    · subst heq
      rw [hs.ret]
      exact .of_trade (t := (trader, .sold q)) hs.outsider hs.free hs.step
        hs.locked hs.acts.own rfl hcode rfl (Function.update_self _ _ _)
        (ownLines_own rfl (beq_self_eq_true c))
    · refine (Conducts.of_frame (hs.acts.others c hc heq)).trans
        (hcode.trans (.of_frame (leave_frame ?_ ?_)))
      · rintro c₁ trader₁ q₁ h
        rw [hs.ret] at h
        exact nomatch h
      · rintro c₁ trader₁ q₁ h
        rw [hs.ret] at h
        cases h
        exact heq
  · refine (Conducts.of_frame (hframes c hc)).trans
      (hcode.trans (.of_frame (leave_frame ?_ ?_)))
    · rintro c₁ trader₁ q₁ h
      rcases hret with hret | ⟨r, hret⟩
      · exact nomatch hret.symm.trans h
      · exact nomatch hret.symm.trans h
    · rintro c₁ trader₁ q₁ h
      rcases hret with hret | ⟨r, hret⟩
      · exact nomatch hret.symm.trans h
      · exact nomatch hret.symm.trans h

/-- **BETWEEN TRANSACTIONS** a curve has done whole trades. -/
theorem runTxs_conducts (hc : D.isCurve c = true)
    (txs : List (Call × Script Call)) (w : World τ) :
    Conducts D c w ((machine D).runTxs txs w) :=
  (machine D).runTxs_preorder (R := Conducts D c)
    (fun w => .of_frame (Frame.refl w)) (fun _ _ _ => Conducts.trans)
    (conducts_covers hc) txs w

end Conducts

/-! ## From launch -/

/-- **A LAUNCHED CURVE** holds the whole supply and has done nothing. -/
structure Launched (D : Deployment) (c : Address) (w : World τ) : Prop where
  curve : D.isCurve c = true
  fresh : w.curves c = CurveStorage.fresh
  free : w.entered c = false
  supply : w.balanceOf (D.tokenOf c) c = TOTAL_SUPPLY
  allowance : NoAllowance D c w
  silent : ownLines c w = []
  undonated : donated D c c w = 0

section FromLaunch

variable [MulDiv] {D : Deployment} {c : Address} {w₀ w : World τ}

omit [MulDiv] in
theorem Launched.onCurve (h : Launched D c w₀) : OnCurve (w₀.curves c) := by
  rw [h.fresh]
  exact onCurve_fresh

/-- **ON THE CURVE** at every state that follows a launch. -/
theorem Launched.later_onCurve (h : Launched D c w₀)
    (hw : (machine D).Later w₀ w) : OnCurve (w.curves c) := by
  obtain ⟨ts, hrun⟩ := (later_kept h.curve hw).run
  exact hrun.onCurve h.onCurve

/-- What a run of transactions after a launch leaves. -/
structure Traded (D : Deployment) (c : Address) (w : World τ) : Prop where
  free : w.entered c = false
  run : Run CurveStorage.fresh ((trades c w).map Prod.snd) (w.curves c)
  lines : ownLines c w = (trades c w).flatMap (tradeLines D c)
  outsiders : ∀ t ∈ trades c w, D.internal t.1 ≠ true

/-- **THE JOURNAL TELLS THE STORAGE**: the events of a curve, replayed from
    launch, end in its storage, and its own lines are theirs. -/
theorem Launched.traded (h : Launched D c w₀)
    (txs : List (Call × Script Call)) :
    Traded D c ((machine D).runTxs txs w₀) := by
  have hconducts := runTxs_conducts h.curve txs w₀
  obtain ⟨ts, hrun, hown, hout⟩ := hconducts.free h.free
  rw [h.silent, List.nil_append] at hown
  have hts : trades c ((machine D).runTxs txs w₀) = ts := by
    rw [trades, hown, tradeOf_flatMap]
  rw [h.fresh] at hrun
  refine ⟨hconducts.entered.trans h.free, ?_, ?_, ?_⟩
  · rw [hts]
    exact hrun
  · rw [hts]
    exact hown
  · rw [hts]
    exact hout

/-- Later transactions append their trades. -/
theorem Traded.later (h : Traded D c w) (hc : D.isCurve c = true)
    (txs : List (Call × Script Call)) :
    ∃ ts, trades c ((machine D).runTxs txs w) = trades c w ++ ts
      ∧ Run (w.curves c) (ts.map Prod.snd)
        (((machine D).runTxs txs w).curves c) := by
  obtain ⟨ts, hrun, hown, -⟩ := (runTxs_conducts hc txs w).free h.free
  refine ⟨ts, ?_, hrun⟩
  rw [trades, hown, List.filterMap_append, tradeOf_flatMap]
  rfl

end FromLaunch

/-! ## A launch -/

/-- A protocol with one curve. -/
def oneCurve : Deployment where
  factory := 10
  feeManager := 11
  ctoRegistry := 12
  graduationManager := 13
  settlementExecutor := 14
  permanentLPFeeVault := 15
  nonfungiblePositionManager := 16
  isCurve a := a == 20
  tokenOf _ := 21
  creatorOf _ := 22
  canonicalPoolOf _ := 23
  dependenciesAgree := true
  tokenOf_injective c d hc hd _ := (beq_iff_eq.mp hc).trans
    (beq_iff_eq.mp hd).symm
  zero_not_curve := by decide
  feeManager_not_curve := by decide
  graduationManager_not_curve := by decide
  settlementExecutor_not_curve := by decide
  positionManager_not_curve := by decide
  feeManager_ne_graduationManager := by decide
  feeManager_ne_settlementExecutor := by decide
  graduationManager_ne_settlementExecutor := by decide

/-- Its world right after the launch, with two traders who hold ten thousand
    and one hundred native USDC. -/
def oneLaunch : World (Ledger Address) where
  now := 0
  native a := if a = 30 then 10000 * NATIVE_USDC_UNIT
    else if a = 31 then 100 * NATIVE_USDC_UNIT else 0
  tokens _ := ⟨fun a => if a = 20 then TOTAL_SUPPLY else 0, fun _ _ => 0⟩
  usdcAllowance _ _ := 0
  curves _ := CurveStorage.fresh
  entered _ := false
  fees := { FeeManager.FeeManagerStorage.deployed 40 41 with
    curveOf := fun t => if t = 21 then 20 else 0
    creatorOf := fun t => if t = 21 then 22 else 0
    creatorPayoutOf := fun t => if t = 21 then 22 else 0 }
  launches t := if t = 21 then ⟨20, 22, true, false⟩ else ⟨0, 0, false, false⟩
  settled _ := false
  residualEscrowOf _ := 0
  custodianOf _ := 0
  custodians _ := none
  escrows _ := none
  journal := []

/-- The plainest token serves as the launch token. -/
@[reducible] def plainToken : Erc20 Address Revert (Ledger Address) :=
  Ledger.erc20 .external

theorem launched_oneLaunch :
    @Launched (Ledger Address) plainToken oneCurve 20 oneLaunch := by
  let _ := plainToken
  exact ⟨rfl, rfl, rfl, rfl, fun _ => rfl, rfl, rfl⟩

/-- A pool at its price and a mint that leaves the residuals of one
    rounding. -/
def honestAnswers : Settlement.Answers where
  hasCode a := a == 21 || a == 23 || a == LPVault.CANONICAL_USDC
  sqrtPriceX96 := Settlement.SQRT_PRICE_X96_TOKEN0_LAUNCH
  newCustodian := 50
  newEscrow := 51
  mint p := .ok ⟨7, 1000, p.amount0Desired - 5, p.amount1Desired - 1⟩
  pulled p := (p.amount0Desired - 5, p.amount1Desired - 1)
  ownerOf _ := 50
  positions _ := some ⟨21, LPVault.CANONICAL_USDC, LPVault.POOL_FEE,
    LPVault.FULL_RANGE_TICK_LOWER, LPVault.FULL_RANGE_TICK_UPPER⟩
  isToken _ := true
  curveOf _ := 20

/-- The life of a curve: a buy, a sell whose receiver tries to buy while it is
    paid, and a buy that passes the boundary and is refunded. -/
def life : List (Call × Script Call) :=
  [(.buy 30 20 (1000 * NATIVE_USDC_UNIT) 1 100 honestAnswers, .halt true),
    (.token 30 21 (.approve 20 (10 ^ 26)), .halt true),
    (.sell 30 20 (10 ^ 25) 1 100,
      .call (.buy 31 20 NATIVE_USDC_UNIT 1 100 honestAnswers) (.halt true)
        (.halt true)),
    (.buy 30 20 (8900 * NATIVE_USDC_UNIT) 1 100 honestAnswers, .halt true)]

/-- The world after the first transactions of that life. -/
def lived (n : Nat) : World (Ledger Address) :=
  (@machine _ plainToken exactMulDiv oneCurve).runTxs (life.take n) oneLaunch

end CurveRun
