import Cooket.CurveRunProofs

/-! # A curve is backed, and every trade is whole

    Whatever its traders run while they are being paid, a curve holds the
    value its reserve promises and the tokens it has not sold; it hands its
    reserve to the graduation manager once and in full; and each accepted
    trade hands out its whole fee and its whole refund or net output.

    A trade in which anything it calls fails leaves no trace (`TradeFailure`):
    no call is guarded, so the first failure ends the whole transaction. -/

namespace CurveBacking

open CheckedArith Contract CurveMachine CurveQuote CurveRun CurveTrade
  CurveWorld Endpoint Reentrant Settlement TokenLedger

variable {τ : Type} [Erc20 Address Revert τ]

/-! ## What leaves a curve -/

/-- The value a line of the curve sends, and to whom. -/
def valueOut : Line → Option (Address × Nat)
  | .native _ dst amount => some (dst, amount)
  | _ => none

/-- The tokens a line of the curve sends out of it, and to whom. -/
def tokensOut (c : Address) : Line → Option (Address × Nat)
  | .token _ _ src dst amount => if src = c then some (dst, amount) else none
  | _ => none

/-- All value that left the curve, in order. -/
def valueSent (c : Address) (w : World τ) : List (Address × Nat) :=
  (ownLines c w).filterMap valueOut

/-- All tokens the curve sent, in order. -/
def tokensSent (c : Address) (w : World τ) : List (Address × Nat) :=
  (ownLines c w).filterMap (tokensOut c)

/-- **THE VALUE A TRADE OWES**: its whole fee to the fee manager, at
    graduation the whole reserve to the graduation manager, and the whole
    refund or net output to the trader. -/
def payments (D : Deployment) : Address × Trade → List (Address × Nat)
  | (trader, .bought q) =>
      [(D.feeManager, q.totalFee)]
        ++ (if q.reachesGraduation then
              [(D.graduationManager, GRADUATION_NATIVE_USDC_RESERVE)]
            else [])
        ++ (if q.refund ≠ 0 then [(trader, q.refund)] else [])
  | (trader, .sold q) =>
      [(D.feeManager, q.totalFee), (trader, q.netSellerOutput)]

/-- **THE TOKENS A TRADE OWES.** -/
def deliveries (D : Deployment) : Address × Trade → List (Address × Nat)
  | (trader, .bought q) =>
      [(trader, q.tokensOut)]
        ++ (if q.reachesGraduation then
              [(D.graduationManager, LP_ALLOCATION)]
            else [])
  | (_, .sold _) => []

/-- The parts of a trade are the whole of it. -/
def Whole : Trade → Prop
  | .bought q =>
      q.totalFee + q.netCurveInput + q.refund = q.submittedGross
        ∧ q.creatorFee + q.protocolFee + q.communityFee + q.traderRewardsFee
          = q.totalFee
  | .sold q =>
      q.totalFee + q.netSellerOutput = q.grossCurveOutput
        ∧ q.creatorFee + q.protocolFee + q.communityFee + q.traderRewardsFee
          = q.totalFee

/-- Whether a trade ends the curve. -/
def graduates : Trade → Bool
  | .bought q => q.reachesGraduation
  | .sold _ => false

theorem valueOut_tradeLines (D : Deployment) (c : Address)
    (t : Address × Trade) :
    (tradeLines D c t).filterMap valueOut = payments D t := by
  obtain ⟨trader, q | q⟩ := t
  · show (buyLines D c trader q ++ _).filterMap valueOut = _
    rw [buyLines, payments]
    cases hreach : q.reachesGraduation with
    | false =>
        by_cases hrefund : q.refund ≠ 0
        · rw [if_pos hrefund, if_pos hrefund]
          rfl
        · rw [if_neg hrefund, if_neg hrefund]
          rfl
    | true =>
        by_cases hrefund : q.refund ≠ 0
        · rw [if_pos hrefund, if_pos hrefund]
          rfl
        · rw [if_neg hrefund, if_neg hrefund]
          rfl
  · rfl

theorem tokensOut_tradeLines (D : Deployment) {c : Address}
    {t : Address × Trade} (hne : t.1 ≠ c) :
    (tradeLines D c t).filterMap (tokensOut c) = deliveries D t := by
  obtain ⟨trader, q | q⟩ := t
  · show (buyLines D c trader q ++ _).filterMap (tokensOut c) = _
    rw [buyLines, deliveries]
    cases hreach : q.reachesGraduation with
    | false =>
        by_cases hrefund : q.refund ≠ 0
        · rw [if_pos hrefund]
          simp [tokensOut]
        · rw [if_neg hrefund]
          simp [tokensOut]
    | true =>
        by_cases hrefund : q.refund ≠ 0
        · rw [if_pos hrefund]
          simp [tokensOut, forwardLines, List.filterMap_cons]
        · rw [if_neg hrefund]
          simp [tokensOut, forwardLines, List.filterMap_cons]
  · have hout : tokensOut c (.token c (D.tokenOf c) trader c q.tokensIn)
        = none := if_neg hne
    show List.filterMap (tokensOut c) (_ :: _) = []
    rw [List.filterMap_cons_none hout]
    rfl

/-! ## Once, and in full -/

section Once

variable [MulDiv] {s s' : CurveStorage} {ts : List Trade}

/-- A sequence of trades from an open curve ends it at most once. -/
theorem Run.graduations {α : Type} (x : α) (h : Run s ts s') :
    s.graduated = false →
    (ts.flatMap fun t => if graduates t then [x] else [])
      = if s'.graduated then [x] else [] := by
  induction h with
  | refl s =>
      intro ha
      rw [ha]
      rfl
  | @step s s₁ s' t ts hstep hrest ih =>
      intro _
      have hflag : s₁.graduated = graduates t := by
        cases t with
        | bought q => exact (bought_storage hstep).2.2.2
        | sold q => exact (sold_storage hstep).2.2.2
      rw [List.flatMap_cons]
      cases hg : graduates t with
      | false =>
          rw [ih (hflag.trans hg)]
          rfl
      | true =>
          -- nothing is traded on a graduated curve
          cases hrest with
          | refl =>
              rw [hflag, hg]
              rfl
          | @step _ _ _ t' _ hstep' =>
              have ha : s₁.graduated = false := by
                cases t' with
                | bought q => exact (bought_storage hstep').2.2.1
                | sold q => exact (sold_storage hstep').2.2.1
              exact nomatch (hflag.trans hg).symm.trans ha

theorem Run.whole (h : Run s ts s') : ∀ t ∈ ts, Whole t := by
  induction h with
  | refl s => exact fun t ht => nomatch ht
  | step hstep _ ih =>
      intro t ht
      rcases List.mem_cons.mp ht with rfl | ht
      · cases hstep with
        | buy _ hq =>
            obtain ⟨hsubmitted, hsum, hshares⟩ := quoteBuy_amounts hq
            exact ⟨hsum.trans hsubmitted.symm, hshares⟩
        | graduate _ hq =>
            obtain ⟨hsubmitted, hsum, hshares⟩ := quoteBuy_amounts hq
            exact ⟨hsum.trans hsubmitted.symm, hshares⟩
        | sell hq =>
            obtain ⟨-, hsum, hshares⟩ := quoteSell_amounts hq
            exact ⟨hsum, hshares⟩
      · exact ih t ht

end Once

/-- What a trade pays or delivers to the graduation manager. -/
theorem payments_manager {D : Deployment} {t : Address × Trade}
    (h : D.internal t.1 ≠ true) :
    (payments D t).filter (fun p => p.1 == D.graduationManager)
      = if graduates t.2 then
          [(D.graduationManager, GRADUATION_NATIVE_USDC_RESERVE)]
        else [] := by
  have hfm : (D.feeManager == D.graduationManager) = false :=
    beq_false_of_ne D.feeManager_ne_graduationManager
  have htrader : (t.1 == D.graduationManager) = false := by
    refine beq_false_of_ne ?_
    rintro heq
    exact h (by simp [Deployment.internal, heq])
  obtain ⟨trader, q | q⟩ := t
  · show ((payments D (trader, .bought q)).filter _) = _
    rw [payments, graduates]
    cases q.reachesGraduation with
    | false =>
        by_cases hrefund : q.refund ≠ 0
        · rw [if_pos hrefund]
          simp [hfm, htrader]
        · rw [if_neg hrefund]
          simp [hfm]
    | true =>
        by_cases hrefund : q.refund ≠ 0
        · rw [if_pos hrefund]
          simp [hfm, htrader]
        · rw [if_neg hrefund]
          simp [hfm]
  · simp [payments, graduates, hfm, htrader]

theorem deliveries_manager {D : Deployment} {t : Address × Trade}
    (h : D.internal t.1 ≠ true) :
    (deliveries D t).filter (fun p => p.1 == D.graduationManager)
      = if graduates t.2 then [(D.graduationManager, LP_ALLOCATION)]
        else [] := by
  have htrader : (t.1 == D.graduationManager) = false := by
    refine beq_false_of_ne ?_
    rintro heq
    exact h (by simp [Deployment.internal, heq])
  obtain ⟨trader, q | q⟩ := t
  · rw [deliveries, graduates]
    cases q.reachesGraduation with
    | false => simp [htrader]
    | true => simp [htrader]
  · rfl

/-! ## A trade that returns -/

section Returning

variable [MulDiv]

/-- Value that somebody holds moves, and nothing else. -/
structure Pays (src dst : Address) (amount : Nat) (a b : World τ) : Prop where
  covered : amount ≤ a.native src
  native : b.native = move a.native src dst amount
  tokens : b.tokens = a.tokens

/-- Tokens that somebody holds move, and nothing else. -/
structure Delivers (token src dst : Address) (amount : Nat) (a b : World τ) :
    Prop where
  covered : amount ≤ a.balanceOf token src
  balance : b.balanceOf token = move (a.balanceOf token) src dst amount
  others : ∀ t, t ≠ token → b.tokens t = a.tokens t
  native : b.native = a.native

/-- What a buy forwards, if it reaches the boundary: the liquidity allocation
    and the whole reserve go to the graduation manager, whose settlement
    follows. -/
def Forwards (D : Deployment) (c : Address) (G : Answers) (q : BuyQuote)
    (a b : World τ) : Prop :=
  if q.reachesGraduation then
    ∃ delivered paid settled,
      Delivers (D.tokenOf c) c D.graduationManager LP_ALLOCATION a delivered ∧
      Pays c D.graduationManager GRADUATION_NATIVE_USDC_RESERVE delivered
        paid ∧
      graduate D G paid c (D.tokenOf c) (D.creatorOf c) LP_ALLOCATION
        GRADUATION_NATIVE_USDC_RESERVE GRADUATION_NATIVE_USDC_RESERVE
        = .ok settled ∧
      b.native = settled.native ∧ b.tokens = settled.tokens
  else b.native = a.native ∧ b.tokens = a.tokens

/-- **WHAT A RETURNING BUY MOVES**: the submitted value comes in; the tokens go
    to the trader, the whole fee to the fee manager, what graduates to the
    graduation manager, and the whole refund to the trader. -/
def BuyMoves (D : Deployment) (trader c : Address) (value : Nat) (G : Answers)
    (q : BuyQuote) (a b : World τ) : Prop :=
  ∃ submitted delivered deposited forwarded,
    Pays trader c value a submitted ∧
    Delivers (D.tokenOf c) c trader q.tokensOut submitted delivered ∧
    Pays c D.feeManager q.totalFee delivered deposited ∧
    Forwards D c G q deposited forwarded ∧
    Pays c trader q.refund forwarded b

/-- **WHAT A RETURNING SELL MOVES**: the tokens come in; the whole fee goes to
    the fee manager and the whole net output to the trader. -/
def SellMoves (D : Deployment) (trader c : Address) (q : SellQuote)
    (a b : World τ) : Prop :=
  ∃ collected deposited,
    Delivers (D.tokenOf c) trader c q.tokensIn a collected ∧
    Pays c D.feeManager q.totalFee collected deposited ∧
    Pays c trader q.netSellerOutput deposited b

variable {D : Deployment} {w w' : World τ} {c trader : Address}

omit [MulDiv] in
theorem safeTransfer_delivers {token src dst : Address} {amount : Nat}
    (h : w.safeTransfer src token dst amount = .ok w') :
    Delivers token src dst amount w w' := by
  simp only [World.safeTransfer, bind_ok, pure_ok] at h
  obtain ⟨t, ht, rfl⟩ := h
  obtain ⟨hcovered, hbalance, -⟩ := Erc20.transfer_ok _ _ _ _ _ ht
  refine ⟨hcovered, ?_, fun t hne => Function.update_of_ne hne _ _, rfl⟩
  funext a
  simp only [World.balanceOf, Function.update_self, hbalance]
  rfl

omit [MulDiv] in
theorem safeTransferFrom_delivers {operator token src dst : Address}
    {amount : Nat}
    (h : w.safeTransferFrom operator token src dst amount = .ok w') :
    Delivers token src dst amount w w' := by
  simp only [World.safeTransferFrom, bind_ok, pure_ok] at h
  obtain ⟨t, ht, rfl⟩ := h
  obtain ⟨-, hcovered, hbalance, -⟩ := Erc20.transferFrom_ok _ _ _ _ _ _ ht
  refine ⟨hcovered, ?_, fun t hne => Function.update_of_ne hne _ _, rfl⟩
  funext a
  simp only [World.balanceOf, Function.update_self, hbalance]
  rfl

omit [MulDiv] [Erc20 Address Revert τ] in
theorem depositFees_pays {totalFee creatorFee protocolFee communityFee
    traderRewardsFee : Nat} {isBuy : Bool}
    (h : depositFees D w c totalFee creatorFee protocolFee communityFee
      traderRewardsFee isBuy = .ok w') :
    Pays c D.feeManager totalFee w w' := by
  simp only [depositFees, bind_ok, revertIf_ok, pure_ok, Nat.not_lt] at h
  obtain ⟨_, hle, out, -, rfl⟩ := h
  exact ⟨hle, rfl, rfl⟩

omit [MulDiv] [Erc20 Address Revert τ] in
theorem sendNative_pays {recipient : Address} {amount : Nat}
    (h : sendNative w c recipient amount = .ok w') :
    Pays c recipient amount w w' := by
  simp only [sendNative, bind_ok, revertIf_ok, pure_ok, Nat.not_lt] at h
  obtain ⟨_, -, _, hle, rfl⟩ := h
  exact ⟨hle, rfl, rfl⟩

omit [MulDiv] in
theorem graduateCurve_forwards {G : Answers} {q : BuyQuote}
    (h : (if q.reachesGraduation then graduateCurve D w G c else pure w)
      = .ok w') : Forwards D c G q w w' := by
  unfold Forwards
  cases hreach : q.reachesGraduation with
  | false =>
      rw [hreach] at h
      obtain rfl := Except.ok.inj h
      exact ⟨rfl, rfl⟩
  | true =>
      rw [hreach] at h
      simp only [graduateCurve, bind_ok, revertIf_ok, pure_ok, Nat.not_lt,
        if_true] at h
      obtain ⟨s, hs, w₁, h₁, _, hle, w₂, h₂, rfl⟩ := h
      obtain ⟨-, hreserve, -, -⟩ := forwardReserve_ok hs
      rw [hreserve] at hle h₂
      -- the storage is written before the tokens move
      obtain ⟨hcovered, hbalance, hothers, hnative⟩ := safeTransfer_delivers h₁
      exact ⟨w₁,
        w₁.sendValue c D.graduationManager GRADUATION_NATIVE_USDC_RESERVE, w₂,
        ⟨hcovered, hbalance, hothers, hnative⟩, ⟨hle, rfl, rfl⟩, h₂, rfl, rfl⟩

omit [MulDiv] [Erc20 Address Revert τ] in
/-- The refund is sent unless it is nothing. -/
theorem refund_pays {recipient : Address} {amount : Nat}
    (h : (if amount ≠ 0 then sendNative w c recipient amount else pure w)
      = .ok w') : Pays c recipient amount w w' := by
  by_cases h0 : amount = 0
  · subst h0
    rw [if_neg (fun h => h rfl)] at h
    obtain rfl := Except.ok.inj h
    exact ⟨Nat.zero_le _, move_zero.symm, rfl⟩
  · rw [if_pos h0] at h
    exact sendNative_pays h

/-- **A BUY THAT RETURNS** has moved what its quote says. -/
theorem buy_moves {value minTokensOut deadline : Nat} {G : Answers}
    {e : Entry (World τ) Receipt}
    (h : buy D w trader c value minTokensOut deadline G = .ok e) :
    ∃ q, quoteBuy (w.curves c) value = .ok q ∧
      BuyMoves D trader c value G q w e.state ∧
      e.yields = decide (q.refund ≠ 0) ∧ e.ret = .bought c trader q := by
  simp only [buy, bind_ok, revertIf_ok, pure_ok, not_or, Nat.not_le,
    Nat.not_lt] at h
  obtain ⟨_, -, _, -, _, ⟨-, hcovered⟩, _, -, _, -, q, hq, _, -, s, -, w₁, h₁,
    w₂, h₂, w₃, h₃, w₄, h₄, rfl⟩ := h
  obtain ⟨hheld, hbalance, hothers, hnative⟩ := safeTransfer_delivers h₁
  exact ⟨q, hq, ⟨w.sendValue trader c value, w₁, w₂, w₃,
    ⟨hcovered, rfl, rfl⟩, ⟨hheld, hbalance, hothers, hnative⟩,
    depositFees_pays h₂, graduateCurve_forwards h₃, refund_pays h₄⟩, rfl, rfl⟩

/-- **A SELL THAT RETURNS** has moved what its quote says. -/
theorem sell_moves {tokensIn minNativeUsdcOut deadline : Nat}
    {e : Entry (World τ) Receipt}
    (h : sell D w trader c tokensIn minNativeUsdcOut deadline = .ok e) :
    ∃ q, quoteSell (w.curves c) tokensIn = .ok q ∧
      SellMoves D trader c q w e.state ∧
      e.yields = true ∧ e.ret = .sold c trader q := by
  simp only [sell, bind_ok, revertIf_ok, pure_ok] at h
  obtain ⟨_, -, _, -, _, -, _, -, q, hq, _, -, s, -, w₁, h₁, w₂, h₂, w₃, h₃,
    rfl⟩ := h
  rw [← (quoteSell_amounts hq).1] at h₁
  obtain ⟨hheld, hbalance, hothers, hnative⟩ := safeTransferFrom_delivers h₁
  exact ⟨q, hq, ⟨w₁, w₂, ⟨hheld, hbalance, hothers, hnative⟩,
    depositFees_pays h₂, sendNative_pays h₃⟩, rfl, rfl⟩

/-- While the receiver of a trade has control, nothing more happens to the
    curve. -/
theorem resumes_locked (hc : D.isCurve c = true) {callback : Script Call}
    {e : Entry (World τ) Receipt} {v : World τ}
    (hlocked : e.state.entered c = true)
    (h : (machine D).Resumes callback e v) :
    v.curves c = e.state.curves c ∧ ownLines c v = ownLines c e.state :=
  ((machine D).resumes_preorder (R := Conducts D c)
    (fun w => .of_frame (Frame.refl w)) (fun _ _ _ => Conducts.trans)
    (conducts_covers hc) h).locked hlocked

/-- The end of a trade appends it to the events of the curve. -/
theorem trades_transact {k : Call} {callback : Script Call}
    {e : Entry (World τ) Receipt} {v : World τ} {t : Address × Trade}
    {ls : List Line} {l : Line} (hc : D.isCurve c = true)
    (hk : (machine D).enter k w = .ok e) (hlocked : e.state.entered c = true)
    (hown : ownLines c e.state = ownLines c w ++ ls)
    (hlines : tradeLines D c t = ls ++ [l])
    (hlast : ownLines c ((machine D).leave e.ret v) = ownLines c v ++ [l])
    (hcurve : ((machine D).leave e.ret v).curves = v.curves)
    (h : (machine D).Resumes callback e v) :
    trades c ((machine D).transact k callback w) = trades c w ++ [t] ∧
      ((machine D).transact k callback w).curves c = e.state.curves c := by
  obtain ⟨hcurves, hlines'⟩ := resumes_locked hc hlocked h
  rw [(machine D).transact_resumes hk h]
  refine ⟨?_, (congrFun hcurve c).trans hcurves⟩
  rw [trades, hlast, hlines', hown, List.append_assoc, ← hlines,
    List.filterMap_append, tradeOf_tradeLines]
  rfl

/-- **A RETURNING BUY IS AN EVENT** with the amounts of its quote. -/
theorem buy_trades {value minTokensOut deadline : Nat} {G : Answers}
    {callback : Script Call} {e : Entry (World τ) Receipt} {v : World τ}
    {q : BuyQuote}
    (h : buy D w trader c value minTokensOut deadline G = .ok e)
    (hq : quoteBuy (w.curves c) value = .ok q)
    (hv : (machine D).Resumes callback e v) :
    let w' := (machine D).transact
      (.buy trader c value minTokensOut deadline G) callback w
    trades c w' = trades c w ++ [(trader, .bought q)] ∧
      Step (w.curves c) (.bought q) (w'.curves c) := by
  obtain ⟨q', hb⟩ := buy_ok h
  obtain rfl : q = q' := Except.ok.inj (hq.symm.trans hb.quote)
  have hret := hb.ret
  obtain ⟨htrades, hcurve⟩ := trades_transact (t := (trader, .bought q))
    (l := .tokensBought c trader q)
    (k := .buy trader c value minTokensOut deadline G) hb.curve h hb.locked
    hb.acts.own rfl (by
      rw [hret]
      exact ownLines_own rfl (beq_self_eq_true c)) (by
      rw [hret]
      rfl) hv
  refine ⟨htrades, ?_⟩
  rw [hcurve]
  exact hb.step

/-- **A RETURNING SELL IS AN EVENT** with the amounts of its quote. -/
theorem sell_trades {tokensIn minNativeUsdcOut deadline : Nat}
    {callback : Script Call} {e : Entry (World τ) Receipt} {v : World τ}
    {q : SellQuote}
    (h : sell D w trader c tokensIn minNativeUsdcOut deadline = .ok e)
    (hq : quoteSell (w.curves c) tokensIn = .ok q)
    (hv : (machine D).Resumes callback e v) :
    let w' := (machine D).transact
      (.sell trader c tokensIn minNativeUsdcOut deadline) callback w
    trades c w' = trades c w ++ [(trader, .sold q)] ∧
      Step (w.curves c) (.sold q) (w'.curves c) := by
  obtain ⟨q', hs⟩ := sell_ok h
  obtain rfl : q = q' := Except.ok.inj (hq.symm.trans hs.quote)
  have hret := hs.ret
  obtain ⟨htrades, hcurve⟩ := trades_transact (t := (trader, .sold q))
    (l := .tokensSold c trader q)
    (k := .sell trader c tokensIn minNativeUsdcOut deadline) hs.curve h
    hs.locked hs.acts.own rfl (by
      rw [hret]
      exact ownLines_own rfl (beq_self_eq_true c)) (by
      rw [hret]
      rfl) hv
  refine ⟨htrades, ?_⟩
  rw [hcurve]
  exact hs.step

end Returning

/-! ## A trade that fails -/

section Failures

variable [MulDiv]

/-- The world in which a buy makes its first call. -/
def buyRecorded (w : World τ) (trader c : Address) (value : Nat)
    (s : CurveStorage) : World τ :=
  ((w.sendValue trader c value).setEntered c true).setCurve c s

/-- The world in which a sell makes its first call. -/
def sellRecorded (w : World τ) (c : Address) (s : CurveStorage) : World τ :=
  (w.setEntered c true).setCurve c s

/-- **THE WAYS A TRADE CAN FAIL** in something it calls: the token transfer, the
    fee deposit, the settlement, the refund or the payout, and the code that
    receives either. -/
inductive TradeFailure (D : Deployment) (w : World τ) :
    Call → Script Call → Prop where
  | buyTransfer {trader c : Address} {value minTokensOut deadline : Nat}
      {G : Answers} {callback : Script Call} {q : BuyQuote} {s : CurveStorage}
      {e : Revert} :
      quoteBuy (w.curves c) value = .ok q →
      recordBuy (w.curves c) q = .ok s →
      (buyRecorded w trader c value s).safeTransfer c (D.tokenOf c) trader
        q.tokensOut = .error e →
      TradeFailure D w (.buy trader c value minTokensOut deadline G) callback
  | buyDeposit {trader c : Address} {value minTokensOut deadline : Nat}
      {G : Answers} {callback : Script Call} {q : BuyQuote} {s : CurveStorage}
      {w₁ : World τ} {e : Revert} :
      quoteBuy (w.curves c) value = .ok q →
      recordBuy (w.curves c) q = .ok s →
      (buyRecorded w trader c value s).safeTransfer c (D.tokenOf c) trader
        q.tokensOut = .ok w₁ →
      depositFees D w₁ c q.totalFee q.creatorFee q.protocolFee q.communityFee
        q.traderRewardsFee true = .error e →
      TradeFailure D w (.buy trader c value minTokensOut deadline G) callback
  | buySettlement {trader c : Address} {value minTokensOut deadline : Nat}
      {G : Answers} {callback : Script Call} {q : BuyQuote} {s : CurveStorage}
      {w₁ w₂ : World τ} {e : Revert} :
      quoteBuy (w.curves c) value = .ok q →
      recordBuy (w.curves c) q = .ok s →
      (buyRecorded w trader c value s).safeTransfer c (D.tokenOf c) trader
        q.tokensOut = .ok w₁ →
      depositFees D w₁ c q.totalFee q.creatorFee q.protocolFee q.communityFee
        q.traderRewardsFee true = .ok w₂ →
      q.reachesGraduation = true → graduateCurve D w₂ G c = .error e →
      TradeFailure D w (.buy trader c value minTokensOut deadline G) callback
  | buyRefund {trader c : Address} {value minTokensOut deadline : Nat}
      {G : Answers} {callback : Script Call} {q : BuyQuote} {s : CurveStorage}
      {w₁ w₂ w₃ : World τ} {e : Revert} :
      quoteBuy (w.curves c) value = .ok q →
      recordBuy (w.curves c) q = .ok s →
      (buyRecorded w trader c value s).safeTransfer c (D.tokenOf c) trader
        q.tokensOut = .ok w₁ →
      depositFees D w₁ c q.totalFee q.creatorFee q.protocolFee q.communityFee
        q.traderRewardsFee true = .ok w₂ →
      (if q.reachesGraduation then graduateCurve D w₂ G c else pure w₂)
        = .ok w₃ →
      q.refund ≠ 0 → sendNative w₃ c trader q.refund = .error e →
      TradeFailure D w (.buy trader c value minTokensOut deadline G) callback
  | sellTransfer {trader c : Address} {tokensIn minNativeUsdcOut deadline : Nat}
      {callback : Script Call} {q : SellQuote} {s : CurveStorage}
      {e : Revert} :
      quoteSell (w.curves c) tokensIn = .ok q →
      recordSell (w.curves c) q = .ok s →
      (sellRecorded w c s).safeTransferFrom c (D.tokenOf c) trader c tokensIn
        = .error e →
      TradeFailure D w (.sell trader c tokensIn minNativeUsdcOut deadline)
        callback
  | sellDeposit {trader c : Address} {tokensIn minNativeUsdcOut deadline : Nat}
      {callback : Script Call} {q : SellQuote} {s : CurveStorage}
      {w₁ : World τ} {e : Revert} :
      quoteSell (w.curves c) tokensIn = .ok q →
      recordSell (w.curves c) q = .ok s →
      (sellRecorded w c s).safeTransferFrom c (D.tokenOf c) trader c tokensIn
        = .ok w₁ →
      depositFees D w₁ c q.totalFee q.creatorFee q.protocolFee q.communityFee
        q.traderRewardsFee false = .error e →
      TradeFailure D w (.sell trader c tokensIn minNativeUsdcOut deadline)
        callback
  | sellPayout {trader c : Address} {tokensIn minNativeUsdcOut deadline : Nat}
      {callback : Script Call} {q : SellQuote} {s : CurveStorage}
      {w₁ w₂ : World τ} {e : Revert} :
      quoteSell (w.curves c) tokensIn = .ok q →
      recordSell (w.curves c) q = .ok s →
      (sellRecorded w c s).safeTransferFrom c (D.tokenOf c) trader c tokensIn
        = .ok w₁ →
      depositFees D w₁ c q.totalFee q.creatorFee q.protocolFee q.communityFee
        q.traderRewardsFee false = .ok w₂ →
      sendNative w₂ c trader q.netSellerOutput = .error e →
      TradeFailure D w (.sell trader c tokensIn minNativeUsdcOut deadline)
        callback
  | receiver {k : Call} {callback : Script Call}
      {e : Entry (World τ) Receipt} :
      (machine D).enter k w = .ok e → e.yields = true →
      (machine D).run callback e.state = none →
      TradeFailure D w k callback

variable {D : Deployment} {w : World τ} {c trader : Address}
  {e : Entry (World τ) Receipt}

/-- A buy that goes through has had every one of its calls go through. -/
theorem buy_calls {value minTokensOut deadline : Nat} {G : Answers}
    {q : BuyQuote} {s : CurveStorage}
    (h : buy D w trader c value minTokensOut deadline G = .ok e)
    (hq : quoteBuy (w.curves c) value = .ok q)
    (hs : recordBuy (w.curves c) q = .ok s) :
    ∃ w₁ w₂ w₃ w₄,
      (buyRecorded w trader c value s).safeTransfer c (D.tokenOf c) trader
        q.tokensOut = .ok w₁
      ∧ depositFees D w₁ c q.totalFee q.creatorFee q.protocolFee
        q.communityFee q.traderRewardsFee true = .ok w₂
      ∧ (if q.reachesGraduation then graduateCurve D w₂ G c else pure w₂)
        = .ok w₃
      ∧ (if q.refund ≠ 0 then sendNative w₃ c trader q.refund else pure w₃)
        = .ok w₄ := by
  simp only [buy, bind_ok] at h
  obtain ⟨_, -, _, -, _, -, _, -, _, -, q', hq', _, -, s', hs', w₁, h₁, w₂,
    h₂, w₃, h₃, w₄, h₄, -⟩ := h
  obtain rfl : q = q' := Except.ok.inj (hq.symm.trans hq')
  obtain rfl : s = s' := Except.ok.inj (hs.symm.trans hs')
  exact ⟨w₁, w₂, w₃, w₄, h₁, h₂, h₃, h₄⟩

/-- So has a sell. -/
theorem sell_calls {tokensIn minNativeUsdcOut deadline : Nat}
    {q : SellQuote} {s : CurveStorage}
    (h : sell D w trader c tokensIn minNativeUsdcOut deadline = .ok e)
    (hq : quoteSell (w.curves c) tokensIn = .ok q)
    (hs : recordSell (w.curves c) q = .ok s) :
    ∃ w₁ w₂ w₃,
      (sellRecorded w c s).safeTransferFrom c (D.tokenOf c) trader c tokensIn
        = .ok w₁
      ∧ depositFees D w₁ c q.totalFee q.creatorFee q.protocolFee
        q.communityFee q.traderRewardsFee false = .ok w₂
      ∧ sendNative w₂ c trader q.netSellerOutput = .ok w₃ := by
  simp only [sell, bind_ok] at h
  obtain ⟨_, -, _, -, _, -, _, -, q', hq', _, -, s', hs', w₁, h₁, w₂, h₂, w₃,
    h₃, -⟩ := h
  obtain rfl : q = q' := Except.ok.inj (hq.symm.trans hq')
  obtain rfl : s = s' := Except.ok.inj (hs.symm.trans hs')
  exact ⟨w₁, w₂, w₃, h₁, h₂, h₃⟩

/-- **A FAILED TRADE LEAVES NO TRACE.** -/
theorem TradeFailure.transact {k : Call} {callback : Script Call}
    (hf : TradeFailure D w k callback) :
    (machine D).transact k callback w = w := by
  cases hf with
  | buyTransfer hq hs h =>
      refine (machine D).transact_not_ok ?_
      intro e he
      obtain ⟨w₁, _, _, _, h₁, -⟩ := buy_calls he hq hs
      exact nomatch h.symm.trans h₁
  | buyDeposit hq hs h₁ h =>
      refine (machine D).transact_not_ok ?_
      intro e he
      obtain ⟨w₁', w₂, _, _, h₁', h₂, -⟩ := buy_calls he hq hs
      obtain rfl := Except.ok.inj (h₁.symm.trans h₁')
      exact nomatch h.symm.trans h₂
  | buySettlement hq hs h₁ h₂ hreach h =>
      refine (machine D).transact_not_ok ?_
      intro e he
      obtain ⟨w₁', w₂', w₃, _, h₁', h₂', h₃, -⟩ := buy_calls he hq hs
      obtain rfl := Except.ok.inj (h₁.symm.trans h₁')
      obtain rfl := Except.ok.inj (h₂.symm.trans h₂')
      rw [hreach, if_pos rfl] at h₃
      exact nomatch h.symm.trans h₃
  | buyRefund hq hs h₁ h₂ h₃ hrefund h =>
      refine (machine D).transact_not_ok ?_
      intro e he
      obtain ⟨w₁', w₂', w₃', w₄, h₁', h₂', h₃', h₄⟩ := buy_calls he hq hs
      obtain rfl := Except.ok.inj (h₁.symm.trans h₁')
      obtain rfl := Except.ok.inj (h₂.symm.trans h₂')
      obtain rfl := Except.ok.inj (h₃.symm.trans h₃')
      rw [if_pos hrefund] at h₄
      exact nomatch h.symm.trans h₄
  | sellTransfer hq hs h =>
      refine (machine D).transact_not_ok ?_
      intro e he
      obtain ⟨w₁, _, _, h₁, -⟩ := sell_calls he hq hs
      exact nomatch h.symm.trans h₁
  | sellDeposit hq hs h₁ h =>
      refine (machine D).transact_not_ok ?_
      intro e he
      obtain ⟨w₁', w₂, _, h₁', h₂, -⟩ := sell_calls he hq hs
      obtain rfl := Except.ok.inj (h₁.symm.trans h₁')
      exact nomatch h.symm.trans h₂
  | sellPayout hq hs h₁ h₂ h =>
      refine (machine D).transact_not_ok ?_
      intro e he
      obtain ⟨w₁', w₂', w₃, h₁', h₂', h₃⟩ := sell_calls he hq hs
      obtain rfl := Except.ok.inj (h₁.symm.trans h₁')
      obtain rfl := Except.ok.inj (h₂.symm.trans h₂')
      exact nomatch h.symm.trans h₃
  | receiver hk hyields hrun =>
      exact (machine D).transact_callback_fails hk hyields hrun

end Failures

/-! ## The whole account -/

section Account

variable [MulDiv] {D : Deployment} {c : Address} {w₀ : World τ}

/-- **BACKING**, wherever somebody else has control. -/
theorem backed (h : Launched D c w₀) {w : World τ}
    (hw : (machine D).Observable w₀ w) :
    (w.curves c).activeNativeUsdcReserve ≤ w.native c ∧
      ((w.curves c).graduated = false →
        w.balanceOf (D.tokenOf c) c
          = TOTAL_SUPPLY - (w.curves c).soldSupply + donated D c c w) := by
  have hkept := later_kept h.curve hw.later
  have hcurve := h.later_onCurve hw.later
  refine ⟨?_, ?_⟩
  · have hnative := hkept.native
    have hfresh : (w₀.curves c).activeNativeUsdcReserve = 0 := by
      rw [h.fresh]
      rfl
    omega
  · intro ha
    have htokens := hkept.tokens h.allowance
    have hlaunch : tokenLevel D c w₀ = TOTAL_SUPPLY := by
      rw [tokenLevel, h.supply, h.fresh]
      rfl
    have hnow : tokenLevel D c w = w.balanceOf (D.tokenOf c) c
        + (w.curves c).soldSupply + 0 := by
      rw [tokenLevel, ha]
      rfl
    have hsold := hcurve.sold_lt ha
    have halloc := allocations
    rw [h.undonated] at htokens
    omega

/-- **EVERY CURVE IS BACKED AND EVERY TRADE IS WHOLE**, in every run, whatever
    the traders run while they are paid.  Before graduation the curve holds its
    reserve, and the tokens it has not sold beside what was donated.  A buy or
    a sell that returns has moved the amounts of its quote, its whole fee and
    its whole refund or net output among them, and once its receiver is done
    it is one more event of the curve.  All value and all tokens that ever left
    the curve are what these trades owe.  The graduation manager is handed the
    graduation reserve and the liquidity allocation once, at graduation.  A
    trade in which anything fails leaves no trace. -/
theorem curve_backed (h : Launched D c w₀) :
    (∀ w, (machine D).Observable w₀ w → (w.curves c).graduated = false →
      (w.curves c).activeNativeUsdcReserve ≤ w.native c ∧
      w.balanceOf (D.tokenOf c) c
        = TOTAL_SUPPLY - (w.curves c).soldSupply + donated D c c w) ∧
    (∀ w, (machine D).Observable w₀ w → ∀ trader e v callback,
      (∀ value minTokensOut deadline G,
        buy D w trader c value minTokensOut deadline G = .ok e →
        (machine D).Resumes callback e v →
        ∃ q, quoteBuy (w.curves c) value = .ok q ∧
          Whole (.bought q) ∧ q.submittedGross = value ∧
          BuyMoves D trader c value G q w e.state ∧
          let w' := (machine D).transact
            (.buy trader c value minTokensOut deadline G) callback w
          trades c w' = trades c w ++ [(trader, .bought q)] ∧
            Step (w.curves c) (.bought q) (w'.curves c)) ∧
      (∀ tokensIn minNativeUsdcOut deadline,
        sell D w trader c tokensIn minNativeUsdcOut deadline = .ok e →
        (machine D).Resumes callback e v →
        ∃ q, quoteSell (w.curves c) tokensIn = .ok q ∧
          Whole (.sold q) ∧ q.tokensIn = tokensIn ∧
          SellMoves D trader c q w e.state ∧
          let w' := (machine D).transact
            (.sell trader c tokensIn minNativeUsdcOut deadline) callback w
          trades c w' = trades c w ++ [(trader, .sold q)] ∧
            Step (w.curves c) (.sold q) (w'.curves c))) ∧
    (∀ txs, let w := (machine D).runTxs txs w₀
      valueSent c w = (trades c w).flatMap (payments D) ∧
      tokensSent c w = (trades c w).flatMap (deliveries D) ∧
      (∀ t ∈ trades c w, Whole t.2) ∧
      (valueSent c w).filter (fun p => p.1 == D.graduationManager)
        = (if (w.curves c).graduated then
            [(D.graduationManager, GRADUATION_NATIVE_USDC_RESERVE)]
          else []) ∧
      (tokensSent c w).filter (fun p => p.1 == D.graduationManager)
        = (if (w.curves c).graduated then
            [(D.graduationManager, LP_ALLOCATION)]
          else [])) ∧
    (∀ w, (machine D).Observable w₀ w → ∀ k callback,
      TradeFailure D w k callback →
      (machine D).transact k callback w = w) := by
  refine ⟨?_, ?_, ?_, fun w _ k callback hf => hf.transact⟩
  · intro w hw ha
    exact ⟨(backed h hw).1, (backed h hw).2 ha⟩
  · intro w _ trader e v callback
    refine ⟨?_, ?_⟩
    · intro value minTokensOut deadline G hbuy hv
      obtain ⟨q, hq, hmoves, -, -⟩ := buy_moves hbuy
      obtain ⟨hsubmitted, hsum, hshares⟩ := quoteBuy_amounts hq
      exact ⟨q, hq, ⟨hsum.trans hsubmitted.symm, hshares⟩, hsubmitted, hmoves,
        buy_trades hbuy hq hv⟩
    · intro tokensIn minNativeUsdcOut deadline hsell hv
      obtain ⟨q, hq, hmoves, -, -⟩ := sell_moves hsell
      obtain ⟨htokens, hsum, hshares⟩ := quoteSell_amounts hq
      exact ⟨q, hq, ⟨hsum, hshares⟩, htokens, hmoves, sell_trades hsell hq hv⟩
  · intro txs w
    have ht := h.traded txs
    have hvalue : valueSent c w = (trades c w).flatMap (payments D) := by
      rw [valueSent, ht.lines, List.filterMap_flatMap]
      exact List.flatMap_congr fun t _ => valueOut_tradeLines D c t
    have htokens : tokensSent c w = (trades c w).flatMap (deliveries D) := by
      rw [tokensSent, ht.lines, List.filterMap_flatMap]
      refine List.flatMap_congr ?_
      intro t hmem
      refine tokensOut_tradeLines D ?_
      exact (ne_of_not_curve h.curve
        (outsider_not_curve (ht.outsiders t hmem))).symm
    have honce : ∀ x : Address × Nat,
        ((trades c w).flatMap fun t => if graduates t.2 then [x] else [])
          = if (w.curves c).graduated then [x] else [] := by
      intro x
      have hrun := Run.graduations x ht.run rfl
      rw [List.flatMap_map] at hrun
      exact hrun
    refine ⟨hvalue, htokens, ?_, ?_, ?_⟩
    · intro t hmem
      exact Run.whole ht.run t.2 (List.mem_map_of_mem hmem)
    · rw [hvalue, List.filter_flatMap, ← honce]
      exact List.flatMap_congr fun t hmem =>
        payments_manager (ht.outsiders t hmem)
    · rw [htokens, List.filter_flatMap, ← honce]
      exact List.flatMap_congr fun t hmem =>
        deliveries_manager (ht.outsiders t hmem)

omit [MulDiv] in
/-- The whole life of a curve: it is backed while it trades, its last buy moves
    the fee, the graduation and the refund, and it forwards its reserve
    once. -/
theorem curve_backed_life :
    945 * NATIVE_USDC_UNIT ≤ (lived 3).native 20 ∧
    (∃ q e, @quoteBuy exactMulDiv ((lived 3).curves 20)
        (8900 * NATIVE_USDC_UNIT) = .ok q ∧
      q.reachesGraduation = true ∧ 2536 * NATIVE_USDC_UNIT ≤ q.refund ∧
      @BuyMoves _ plainToken oneCurve 30 20 (8900 * NATIVE_USDC_UNIT)
        honestAnswers q (lived 3) e ∧
      trades 20 (lived 4) = trades 20 (lived 3) ++ [(30, .bought q)]) ∧
    (valueSent 20 (lived 4)).filter
        (fun p => p.1 == oneCurve.graduationManager)
      = [(oneCurve.graduationManager, GRADUATION_NATIVE_USDC_RESERVE)] := by
  have hlaw := @curve_backed _ plainToken exactMulDiv oneCurve 20 oneLaunch
    launched_oneLaunch
  let _ := plainToken
  let _ := exactMulDiv
  have hreached : (machine oneCurve).Observable oneLaunch (lived 3) :=
    Machine.Observable.runTxs (life.take 3) .start
  refine ⟨?_, ?_, ?_⟩
  · have hactive : ((lived 3).curves 20).graduated = false := by decide +kernel
    have hreserve : 945 * NATIVE_USDC_UNIT
        ≤ ((lived 3).curves 20).activeNativeUsdcReserve := by decide +kernel
    exact hreserve.trans (hlaw.1 (lived 3) hreached hactive).1
  · have hreturns : (buy oneCurve (lived 3) 30 20 (8900 * NATIVE_USDC_UNIT) 1
        100 honestAnswers).isOk = true := by decide +kernel
    have hquote : ((quoteBuy ((lived 3).curves 20)
        (8900 * NATIVE_USDC_UNIT)).map fun q => decide
          (q.reachesGraduation = true ∧ 2536 * NATIVE_USDC_UNIT ≤ q.refund))
        = .ok true := by decide +kernel
    cases hbuy : buy oneCurve (lived 3) 30 20 (8900 * NATIVE_USDC_UNIT) 1 100
        honestAnswers with
    | error err =>
        rw [hbuy] at hreturns
        exact nomatch hreturns
    | ok e =>
        have hresumes : (machine oneCurve).Resumes (.halt true) e e.state := by
          unfold Machine.Resumes
          cases e.yields with
          | false => rfl
          | true => rfl
        obtain ⟨q, hq, -, -, hmoves, htrades, -⟩ :=
          (hlaw.2.1 (lived 3) hreached 30 e e.state (.halt true)).1 _ _ _ _
            hbuy hresumes
        rw [hq] at hquote
        obtain ⟨hreach, hrefund⟩ :=
          of_decide_eq_true (Except.ok.inj hquote)
        exact ⟨q, e.state, hq, hreach, hrefund, hmoves, htrades⟩
  · have hended : ((lived 4).curves 20).graduated = true := by decide +kernel
    obtain ⟨-, -, -, honce, -⟩ := hlaw.2.2.1 (life.take 4)
    unfold lived at hended ⊢
    rw [hended] at honce
    exact honce

end Account

end CurveBacking
