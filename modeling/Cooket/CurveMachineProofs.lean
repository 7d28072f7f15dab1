import Cooket.SettlementProofs
import Cooket.ReentrantProofs

/-! # Trades in the world

    `buy`, `sell` and `_graduate` with all their external calls, and everything
    else anybody can do to the money of a curve, as ONE re-entrant machine: a
    refund or a payout hands control to its receiver, who may call anything
    again.

    Beside each function stands what it does to the curve it runs on (`Acts`)
    and to every other curve (`Frame`).  Then `buy_ok` and `sell_ok` say
    everything about a trade once and for all, and no later proof opens one
    again. -/

namespace CurveMachine

open CheckedArith Contract CurveQuote CurveTrade CurveWorld Endpoint
  Reentrant Settlement TokenLedger
open FeeManager (FeeManagerCall Views)

/-- The functions of a launch token. -/
inductive TokenCall where
  | transfer (recipient : Address) (amount : Nat)
  | transferFrom (owner recipient : Address) (amount : Nat)
  | approve (spender : Address) (amount : Nat)

/-- What can be done to the world. -/
inductive Call where
  | buy (trader curve : Address) (value minTokensOut deadline : Nat)
      (G : Answers)
  | sell (trader curve : Address) (tokensIn minNativeUsdcOut deadline : Nat)
  | feeManager (sender : Address) (value : Nat) (V : Views)
      (k : FeeManagerCall)
  | token (sender token : Address) (k : TokenCall)
  | graduate (sender token creator : Address)
      (tokenAmount nativeUsdcAmount value : Nat) (G : Answers)
  /-- Value that arrives without running any code: a self-destruct, or a
      transfer through the ERC-20 face. -/
  | force (sender recipient : Address) (amount : Nat)
  | wait (seconds : Nat)

/-- What a function has left to do once it has control back. -/
inductive Receipt where
  | nothing
  | bought (curve trader : Address) (q : BuyQuote)
  | sold (curve trader : Address) (q : SellQuote)
  | fees (receipt : Option FeeManager.Receipt)

variable {τ : Type} [Erc20 Address Revert τ]

section Functions

variable [MulDiv] (D : Deployment) (w : World τ)

/-- `feeManager.depositFees{value: totalFee}(...)`, by a curve. -/
def depositFees (c : Address) (totalFee creatorFee protocolFee communityFee
    traderRewardsFee : Nat) (isBuy : Bool) : Except Revert (World τ) := do
  revertIf (w.native c < totalFee) .insufficientValue
  let w := w.sendValue c D.feeManager totalFee
  let out ← FeeManager.depositFees ⟨c, totalFee, w.now⟩ w.fees (D.tokenOf c)
    totalFee creatorFee protocolFee communityFee traderRewardsFee isBuy
  pure
    { w with
      fees := out.storage
      journal := w.journal ++ out.events.map .fees }

/-- `_sendNative`, by a curve. -/
def sendNative (c recipient : Address) (amount : Nat) :
    Except Revert (World τ) := do
  revertIf (recipient = 0) (.curve .invalidRecipient)
  revertIf (w.native c < amount) (.curve .nativeTransferFailed)
  pure (w.sendValue c recipient amount)

/-- `_graduate`. -/
def graduateCurve (G : Answers) (c : Address) : Except Revert (World τ) := do
  let token := D.tokenOf c
  let reserveToForward := (w.curves c).activeNativeUsdcReserve
  let s ← forwardReserve (w.curves c) (w.balanceOf token c)
  let w := w.setCurve c s
  let w ← w.safeTransfer c token D.graduationManager LP_ALLOCATION
  revertIf (w.native c < reserveToForward) .insufficientValue
  let w := w.sendValue c D.graduationManager reserveToForward
  let w ← graduate D G w c token (D.creatorOf c) LP_ALLOCATION
    reserveToForward reserveToForward
  pure (w.emit
    [.graduationReserveForwarded c (w.curves c).terminalGraduationReserve
        reserveToForward,
      .graduated c token D.graduationManager LP_ALLOCATION reserveToForward
        (w.curves c).soldSupply])

/-- `buy`, up to the refund. -/
def buy (trader c : Address) (value minTokensOut deadline : Nat)
    (G : Answers) : Except Revert (Entry (World τ) Receipt) := do
  revertIf (D.internal trader = true) .impossibleSender
  revertIf (D.isCurve c = false) .external
  revertIf (uintBound ≤ value ∨ w.native trader < value) .insufficientValue
  let w := w.sendValue trader c value
  revertIf (w.entered c = true) .reentrantCall
  let w := w.setEntered c true
  revertIf (deadline < w.now) (.curve .deadlineExpired)
  let q ← quoteBuy (w.curves c) value
  revertIf (q.tokensOut < minTokensOut) (.curve .slippageExceeded)
  let s ← recordBuy (w.curves c) q
  let w := w.setCurve c s
  let w ← w.safeTransfer c (D.tokenOf c) trader q.tokensOut
  let w ← depositFees D w c q.totalFee q.creatorFee q.protocolFee
    q.communityFee q.traderRewardsFee true
  let w ← (if q.reachesGraduation then graduateCurve D w G c else pure w)
  let w ← (if q.refund ≠ 0 then sendNative w c trader q.refund else pure w)
  pure ⟨w, decide (q.refund ≠ 0), .bought c trader q⟩

/-- `sell`, up to the payout. -/
def sell (trader c : Address) (tokensIn minNativeUsdcOut deadline : Nat) :
    Except Revert (Entry (World τ) Receipt) := do
  revertIf (D.internal trader = true) .impossibleSender
  revertIf (D.isCurve c = false) .external
  revertIf (w.entered c = true) .reentrantCall
  let w := w.setEntered c true
  revertIf (deadline < w.now) (.curve .deadlineExpired)
  let q ← quoteSell (w.curves c) tokensIn
  revertIf (q.netSellerOutput < minNativeUsdcOut) (.curve .slippageExceeded)
  let s ← recordSell (w.curves c) q
  let w := w.setCurve c s
  let w ← w.safeTransferFrom c (D.tokenOf c) trader c tokensIn
  let w ← depositFees D w c q.totalFee q.creatorFee q.protocolFee
    q.communityFee q.traderRewardsFee false
  let w ← sendNative w c trader q.netSellerOutput
  pure ⟨w, true, .sold c trader q⟩

/-- A call of the fee manager by anybody but a curve.  The contracts of the
    protocol refuse value that is sent to them. -/
def callFeeManager (sender : Address) (value : Nat) (V : Views)
    (k : FeeManagerCall) : Except Revert (Entry (World τ) Receipt) := do
  revertIf (D.internal sender = true) .impossibleSender
  revertIf (uintBound ≤ value ∨ w.native sender < value) .insufficientValue
  let w := w.sendValue sender D.feeManager value
  let out ← FeeManager.call ⟨D.feeManager, D.ctoRegistry⟩ V
    ⟨sender, value, w.now⟩ w.fees k
  let w := { w with
    fees := out.storage
    journal := w.journal ++ out.events.map .fees }
  match out.payout with
  | none => pure ⟨w, false, .fees none⟩
  | some p => do
      revertIf (D.internal p.recipient = true
          ∨ w.native D.feeManager < p.amount) (.fees .nativeTransferFailed)
      pure ⟨w.sendValue D.feeManager p.recipient p.amount, true,
        .fees (some p.receipt)⟩

/-- A call of a launch token by anybody but the protocol. -/
def callToken (sender token : Address) (k : TokenCall) :
    Except Revert (World τ) := do
  revertIf (D.internal sender = true) .impossibleSender
  match k with
  | .transfer recipient amount => w.safeTransfer sender token recipient amount
  | .transferFrom owner recipient amount =>
      w.safeTransferFrom sender token owner recipient amount
  | .approve spender amount => w.approve sender token spender amount

/-- A call of `graduate` by anybody but a curve. -/
def callGraduate (sender token creator : Address)
    (tokenAmount nativeUsdcAmount value : Nat) (G : Answers) :
    Except Revert (World τ) := do
  revertIf (D.internal sender = true) .impossibleSender
  revertIf (uintBound ≤ value ∨ w.native sender < value) .insufficientValue
  graduate D G (w.sendValue sender D.graduationManager value) sender token
    creator tokenAmount nativeUsdcAmount value

/-- Value that runs no code. -/
def force (sender recipient : Address) (amount : Nat) :
    Except Revert (World τ) := do
  revertIf (D.internal sender = true) .impossibleSender
  revertIf (w.native sender < amount) .insufficientValue
  pure (w.sendValue sender recipient amount)

end Functions

/-! ## The lines of a trade -/

/-- What a curve journals when it forwards its reserve. -/
def forwardLines (D : Deployment) (c : Address) : List Line :=
  [.token c (D.tokenOf c) c D.graduationManager LP_ALLOCATION,
    .native c D.graduationManager GRADUATION_NATIVE_USDC_RESERVE,
    .graduationReserveForwarded c GRADUATION_NATIVE_USDC_RESERVE
      GRADUATION_NATIVE_USDC_RESERVE,
    .graduated c (D.tokenOf c) D.graduationManager LP_ALLOCATION
      GRADUATION_NATIVE_USDC_RESERVE CURVE_ALLOCATION]

/-- What a curve journals up to the end of a buy's refund. -/
def buyLines (D : Deployment) (c trader : Address) (q : BuyQuote) :
    List Line :=
  [.token c (D.tokenOf c) c trader q.tokensOut,
      .native c D.feeManager q.totalFee]
    ++ (if q.reachesGraduation then forwardLines D c else [])
    ++ (if q.refund ≠ 0 then [.native c trader q.refund] else [])

/-- What a curve journals up to the end of a sell's payout. -/
def sellLines (D : Deployment) (c trader : Address) (q : SellQuote) :
    List Line :=
  [.token c (D.tokenOf c) trader c q.tokensIn,
    .native c D.feeManager q.totalFee, .native c trader q.netSellerOutput]

/-- **EVERYTHING A CURVE DOES FOR ONE ACCEPTED TRADE.** -/
def tradeLines (D : Deployment) (c : Address) : Address × Trade → List Line
  | (trader, .bought q) => buyLines D c trader q ++ [.tokensBought c trader q]
  | (trader, .sold q) => sellLines D c trader q ++ [.tokensSold c trader q]

/-- A call that never loses control. -/
def quiet (w : World τ) : Entry (World τ) Receipt := ⟨w, false, .nothing⟩

/-- **THE MACHINE.** -/
def machine [MulDiv] (D : Deployment) : Machine (World τ) Call Receipt Revert where
  enter
    | .buy trader c value minTokensOut deadline G, w =>
        buy D w trader c value minTokensOut deadline G
    | .sell trader c tokensIn minNativeUsdcOut deadline, w =>
        sell D w trader c tokensIn minNativeUsdcOut deadline
    | .feeManager sender value V k, w => callFeeManager D w sender value V k
    | .token sender token k, w => do
        let w ← callToken D w sender token k
        pure (quiet w)
    | .graduate sender token creator tokenAmount nativeUsdcAmount value G,
        w => do
        let w ← callGraduate D w sender token creator tokenAmount
          nativeUsdcAmount value G
        pure (quiet w)
    | .force sender recipient amount, w => do
        let w ← force D w sender recipient amount
        pure (quiet w)
    | .wait seconds, w => pure (quiet { w with now := w.now + seconds })
  leave
    | .nothing, w => w
    | .bought c trader q, w =>
        (w.emit [.tokensBought c trader q]).setEntered c false
    | .sold c trader q, w =>
        (w.emit [.tokensSold c trader q]).setEntered c false
    | .fees receipt, w =>
        { w with
          fees := (FeeManager.finish receipt w.fees).1
          journal := w.journal
            ++ (FeeManager.finish receipt w.fees).2.map .fees }

/-! ## What each function does -/

/-- The fee events concern no curve. -/
theorem feeLines_other {D : Deployment} (d : Address) (es : List FeeManager.FeeManagerEvent) :
    ∀ l ∈ es.map Line.fees, own d l = false ∧ donation D d d l = 0 := by
  intro l hl
  obtain ⟨e, -, rfl⟩ := List.mem_map.mp hl
  exact ⟨rfl, rfl⟩

theorem outsider_not_curve {D : Deployment} {a : Address} (h : D.internal a ≠ true) :
    D.isCurve a = false := by
  cases hcurve : D.isCurve a with
  | false => rfl
  | true =>
      refine absurd ?_ h
      simp [Deployment.internal, hcurve]

section Acts

variable {D : Deployment} {w w' : World τ} {c : Address}

theorem depositFees_acts (hc : D.isCurve c = true) {totalFee creatorFee
    protocolFee communityFee traderRewardsFee : Nat} {isBuy : Bool}
    (h : depositFees D w c totalFee creatorFee protocolFee communityFee
      traderRewardsFee isBuy = .ok w') :
    Acts D c w w' [.native c D.feeManager totalFee] 0 totalFee 0 0
      ∧ w'.curves = w.curves ∧ w'.entered = w.entered := by
  simp only [depositFees, bind_ok, revertIf_ok, pure_ok, Nat.not_lt] at h
  obtain ⟨_, hle, out, -, rfl⟩ := h
  have hfm := (ne_of_not_curve hc D.feeManager_not_curve).symm
  refine ⟨(sendValue_acts hfm hle).trans (Acts.of_frames hc ?_), rfl, rfl⟩
  intro d _
  exact Frame.of_books rfl rfl rfl rfl rfl (feeLines_other d _)

theorem sendNative_acts {recipient : Address} {amount : Nat}
    (hne : recipient ≠ c) (h : sendNative w c recipient amount = .ok w') :
    Acts D c w w' [.native c recipient amount] 0 amount 0 0
      ∧ w'.curves = w.curves ∧ w'.entered = w.entered := by
  simp only [sendNative, bind_ok, revertIf_ok, pure_ok, Nat.not_lt] at h
  obtain ⟨_, -, _, hle, rfl⟩ := h
  exact ⟨sendValue_acts hne hle, rfl, rfl⟩

/-- **THE FORWARDING** hands over exactly the reserve and the liquidity
    allocation, or fails. -/
theorem graduateCurve_acts (hc : D.isCurve c = true) {G : Answers}
    (h : graduateCurve D w G c = .ok w') :
    (∃ s, forwardReserve (w.curves c) (w.balanceOf (D.tokenOf c) c) = .ok s
        ∧ w'.curves c = s)
      ∧ w'.entered c = w.entered c
      ∧ Acts D c w w' (forwardLines D c) 0 GRADUATION_NATIVE_USDC_RESERVE 0
        LP_ALLOCATION := by
  simp only [graduateCurve, bind_ok, revertIf_ok, pure_ok, Nat.not_lt] at h
  obtain ⟨s, hs, w₁, h₁, _, hle, w₂, h₂, rfl⟩ := h
  have hmanager := (ne_of_not_curve hc D.graduationManager_not_curve).symm
  have hgraduate := graduate_frame hc h₂
  obtain ⟨hsold, hreserve, -, hs'⟩ := forwardReserve_ok hs
  rw [hreserve] at hle h₂ hgraduate
  have htransfer : w₁.curves = (w.setCurve c s).curves
      ∧ w₁.entered = w.entered := by
    simp only [World.safeTransfer, bind_ok, pure_ok] at h₁
    obtain ⟨t, -, rfl⟩ := h₁
    exact ⟨rfl, rfl⟩
  have hcurve : w₂.curves c = s := by
    rw [hgraduate.curve]
    show w₁.curves c = s
    rw [htransfer.1]
    exact Function.update_self _ _ _
  have hterminal :
      s.terminalGraduationReserve = GRADUATION_NATIVE_USDC_RESERVE := by
    rw [hs']
    exact hreserve
  have hsold' : s.soldSupply = CURVE_ALLOCATION := by
    rw [hs']
    exact hsold
  refine ⟨⟨s, hs, hcurve⟩, ?_, ?_⟩
  · show w₂.entered c = w.entered c
    rw [hgraduate.entered]
    show w₁.entered c = w.entered c
    rw [htransfer.2]
  · rw [hcurve, hterminal, hsold', hreserve]
    have hframes : Acts D c _ w₂ [] 0 0 0 0 :=
      Acts.of_frames hc (fun d hd => graduate_frame hd h₂)
    refine ((setCurve_acts s).trans ((safeTransfer_acts hmanager h₁).trans
      ((sendValue_acts hmanager hle).trans (hframes.trans
        (emit_acts ?_ ?_)))))
    · intro e he
      simp only [List.mem_cons, List.not_mem_nil, or_false] at he
      rcases he with rfl | rfl
      · exact ⟨beq_self_eq_true c, rfl⟩
      · exact ⟨beq_self_eq_true c, rfl⟩
    · intro e he d hne
      simp only [List.mem_cons, List.not_mem_nil, or_false] at he
      rcases he with rfl | rfl
      · exact ⟨beq_false_of_ne hne.symm, rfl⟩
      · exact ⟨beq_false_of_ne hne.symm, rfl⟩

/-- The same lines and amounts, written another way. -/
theorem Acts.congr {ls ls' : List Line} {vi vo ti tx vi' vo' ti' tx' : Nat}
    (h : Acts D c w w' ls vi vo ti tx) (hls : ls = ls') (hvi : vi = vi')
    (hvo : vo = vo') (hti : ti = ti') (htx : tx = tx') :
    Acts D c w w' ls' vi' vo' ti' tx' := by
  subst hls hvi hvo hti htx
  exact h

/-- The optional forwarding of a buy. -/
theorem forwarding_acts (hc : D.isCurve c = true) {G : Answers} {b : Bool}
    (h : (if b then graduateCurve D w G c else pure w) = .ok w') :
    (b = false → w'.curves c = w.curves c)
      ∧ (b = true → ∃ s, forwardReserve (w.curves c)
          (w.balanceOf (D.tokenOf c) c) = .ok s ∧ w'.curves c = s)
      ∧ w'.entered c = w.entered c
      ∧ Acts D c w w' (if b then forwardLines D c else []) 0
        (if b then GRADUATION_NATIVE_USDC_RESERVE else 0) 0
        (if b then LP_ALLOCATION else 0) := by
  cases b with
  | false =>
      cases Except.ok.inj h
      refine ⟨fun _ => rfl, (fun hb => nomatch hb), rfl, ?_⟩
      exact Acts.of_frames hc (fun d _ => Frame.refl _)
  | true =>
      obtain ⟨hs, hentered, hacts⟩ := graduateCurve_acts hc h
      exact ⟨(fun hb => nomatch hb), fun _ => hs, hentered, hacts⟩

/-- The optional refund of a buy. -/
theorem refund_acts (hc : D.isCurve c = true) {recipient : Address}
    {amount : Nat} (hne : recipient ≠ c)
    (h : (if amount ≠ 0 then sendNative w c recipient amount else pure w)
      = .ok w') :
    w'.curves = w.curves ∧ w'.entered = w.entered
      ∧ Acts D c w w'
        (if amount ≠ 0 then [.native c recipient amount] else []) 0 amount 0
        0 := by
  by_cases h0 : amount = 0
  · subst h0
    rw [if_neg (fun h => h rfl)] at h
    cases Except.ok.inj h
    refine ⟨rfl, rfl, ?_⟩
    rw [if_neg (fun h => h rfl)]
    exact Acts.of_frames hc (fun d _ => Frame.refl _)
  · rw [if_pos h0] at h
    obtain ⟨hacts, hcurves, hentered⟩ := sendNative_acts hne h
    rw [if_pos h0]
    exact ⟨hcurves, hentered, hacts⟩

end Acts

/-! ## Every trade -/

section Trades

variable [MulDiv]

/-- **AN ACCEPTED BUY**, up to its refund. -/
structure Bought (D : Deployment) (w : World τ) (trader c : Address)
    (value : Nat) (q : BuyQuote) (e : Entry (World τ) Receipt) : Prop where
  curve : D.isCurve c = true
  outsider : D.internal trader ≠ true
  free : w.entered c = false
  ret : e.ret = .bought c trader q
  quote : quoteBuy (w.curves c) value = .ok q
  step : Step (w.curves c) (.bought q) (e.state.curves c)
  locked : e.state.entered c = true
  acts : Acts D c w e.state (buyLines D c trader q) value
    (q.totalFee
      + (if q.reachesGraduation then GRADUATION_NATIVE_USDC_RESERVE else 0)
      + q.refund) 0
    (q.tokensOut + (if q.reachesGraduation then LP_ALLOCATION else 0))

/-- **AN ACCEPTED SELL**, up to its payout. -/
structure Sold (D : Deployment) (w : World τ) (trader c : Address)
    (tokensIn : Nat) (q : SellQuote) (e : Entry (World τ) Receipt) :
    Prop where
  curve : D.isCurve c = true
  outsider : D.internal trader ≠ true
  free : w.entered c = false
  ret : e.ret = .sold c trader q
  quote : quoteSell (w.curves c) tokensIn = .ok q
  step : Step (w.curves c) (.sold q) (e.state.curves c)
  locked : e.state.entered c = true
  acts : Acts D c w e.state (sellLines D c trader q) 0
    (q.totalFee + q.netSellerOutput) q.tokensIn 0

variable {D : Deployment} {w : World τ} {c trader : Address}
  {e : Entry (World τ) Receipt}

omit [MulDiv] in
theorem safeTransfer_curves {w' : World τ} {operator token dst : Address}
    {amount : Nat} (h : w.safeTransfer operator token dst amount = .ok w') :
    w'.curves = w.curves ∧ w'.entered = w.entered := by
  simp only [World.safeTransfer, bind_ok, pure_ok] at h
  obtain ⟨t, -, rfl⟩ := h
  exact ⟨rfl, rfl⟩

omit [MulDiv] in
theorem safeTransferFrom_curves {w' : World τ}
    {operator token src dst : Address} {amount : Nat}
    (h : w.safeTransferFrom operator token src dst amount = .ok w') :
    w'.curves = w.curves ∧ w'.entered = w.entered := by
  simp only [World.safeTransferFrom, bind_ok, pure_ok] at h
  obtain ⟨t, -, rfl⟩ := h
  exact ⟨rfl, rfl⟩

theorem buy_ok {value minTokensOut deadline : Nat} {G : Answers}
    (h : buy D w trader c value minTokensOut deadline G = .ok e) :
    ∃ q, Bought D w trader c value q e := by
  simp only [buy, bind_ok, revertIf_ok, pure_ok, not_or, Nat.not_le] at h
  obtain ⟨_, houtsider, _, hc, _, ⟨hfit, -⟩, _, hfree, _, -, q, hq, _, -, s,
    hs, w₁, h₁, w₂, h₂, w₃, h₃, w₄, h₄, rfl⟩ := h
  have hcurve : D.isCurve c = true := eq_true_of_ne_false hc
  have hfree' : w.entered c = false := eq_false_of_ne_true hfree
  have htrader := outsider_not_curve houtsider
  have hne := (ne_of_not_curve hcurve htrader).symm
  obtain ⟨hcurves₁, hentered₁⟩ := safeTransfer_curves h₁
  obtain ⟨hacts₂, hcurves₂, hentered₂⟩ := depositFees_acts hcurve h₂
  obtain ⟨hopen, hgraduate, hentered₃, hacts₃⟩ := forwarding_acts hcurve h₃
  obtain ⟨hcurves₄, hentered₄, hacts₄⟩ := refund_acts hcurve hne h₄
  have hrecorded : w₂.curves c = s := by
    rw [hcurves₂, hcurves₁]
    exact Function.update_self _ _ _
  refine ⟨q, hcurve, houtsider, hfree', rfl, hq, ?_, ?_, ?_⟩
  · show Step (w.curves c) (.bought q) (w₄.curves c)
    rw [hcurves₄]
    cases hreach : q.reachesGraduation with
    | false =>
        rw [hopen hreach, hrecorded]
        exact .buy hfit hq hreach hs
    | true =>
        obtain ⟨s', hs', heq⟩ := hgraduate hreach
        rw [hrecorded] at hs'
        rw [heq]
        exact .graduate hfit hq hreach hs hs'
  · show w₄.entered c = true
    rw [hentered₄, hentered₃, hentered₂, hentered₁]
    exact Function.update_self _ _ _
  · refine Acts.congr ((receiveValue_acts hcurve htrader).trans
      ((setEntered_acts true).trans ((setCurve_acts s).trans
        ((safeTransfer_acts hne h₁).trans (hacts₂.trans
          (hacts₃.trans hacts₄)))))) ?_ ?_ ?_ ?_ ?_
    · simp only [buyLines, List.nil_append, List.cons_append]
    · omega
    · omega
    · omega
    · omega

theorem sell_ok {tokensIn minNativeUsdcOut deadline : Nat}
    (h : sell D w trader c tokensIn minNativeUsdcOut deadline = .ok e) :
    ∃ q, Sold D w trader c tokensIn q e := by
  simp only [sell, bind_ok, revertIf_ok, pure_ok] at h
  obtain ⟨_, houtsider, _, hc, _, hfree, _, -, q, hq, _, -, s, hs, w₁, h₁, w₂,
    h₂, w₃, h₃, rfl⟩ := h
  have hcurve : D.isCurve c = true := eq_true_of_ne_false hc
  have hfree' : w.entered c = false := eq_false_of_ne_true hfree
  have hne := (ne_of_not_curve hcurve (outsider_not_curve houtsider)).symm
  rw [← (quoteSell_amounts hq).1] at h₁
  obtain ⟨hcurves₁, hentered₁⟩ := safeTransferFrom_curves h₁
  obtain ⟨hacts₂, hcurves₂, hentered₂⟩ := depositFees_acts hcurve h₂
  obtain ⟨hacts₃, hcurves₃, hentered₃⟩ := sendNative_acts hne h₃
  refine ⟨q, hcurve, houtsider, hfree', rfl, hq, ?_, ?_, ?_⟩
  · show Step (w.curves c) (.sold q) (w₃.curves c)
    rw [hcurves₃, hcurves₂, hcurves₁]
    have hrecorded : ((w.setEntered c true).setCurve c s).curves c = s :=
      Function.update_self _ _ _
    rw [hrecorded]
    exact .sell hq hs
  · show w₃.entered c = true
    rw [hentered₃, hentered₂, hentered₁]
    exact Function.update_self _ _ _
  · refine Acts.congr ((setEntered_acts true).trans ((setCurve_acts s).trans
      ((safeTransferFrom_acts hne h₁).trans (hacts₂.trans hacts₃)))) ?_ ?_ ?_
      ?_ ?_
    · rfl
    · omega
    · omega
    · omega
    · omega

end Trades

/-! ## Everything else -/

section Others

variable {D : Deployment} {w w' : World τ} {d : Address}

theorem callFeeManager_frames {sender : Address} {value : Nat} {V : Views}
    {k : FeeManagerCall} {e : Entry (World τ) Receipt}
    (h : callFeeManager D w sender value V k = .ok e) :
    (∀ d, D.isCurve d = true → Frame D d w e.state)
      ∧ ∃ r, e.ret = .fees r := by
  simp only [callFeeManager, bind_ok, revertIf_ok] at h
  obtain ⟨_, hsender, _, -, out, -, h⟩ := h
  have hcall : ∀ d, D.isCurve d = true →
      Frame D d w { w.sendValue sender D.feeManager value with
        fees := out.storage
        journal := (w.sendValue sender D.feeManager value).journal
          ++ out.events.map .fees } := by
    intro d hd
    have hne := ne_of_not_curve hd (outsider_not_curve hsender)
    exact (sendValue_frame hne).trans
      (Frame.of_books rfl rfl rfl rfl rfl (feeLines_other d _))
  split at h
  · cases Except.ok.inj h
    exact ⟨hcall, _, rfl⟩
  · simp only [bind_ok, revertIf_ok, pure_ok] at h
    obtain ⟨_, -, rfl⟩ := h
    refine ⟨?_, _, rfl⟩
    intro d hd
    have hfm := ne_of_not_curve hd D.feeManager_not_curve
    exact (hcall d hd).trans (sendValue_frame hfm)

theorem callToken_frame (hd : D.isCurve d = true) {sender token : Address}
    {k : TokenCall} (h : callToken D w sender token k = .ok w') :
    Frame D d w w' := by
  simp only [callToken, bind_ok, revertIf_ok] at h
  obtain ⟨_, hsender, h⟩ := h
  have hne := ne_of_not_curve hd (outsider_not_curve hsender)
  cases k with
  | transfer recipient amount => exact safeTransfer_frame hne h
  | transferFrom owner recipient amount => exact safeTransferFrom_frame hne h
  | approve spender amount => exact approve_frame hne h

theorem callGraduate_frame (hd : D.isCurve d = true)
    {sender token creator : Address}
    {tokenAmount nativeUsdcAmount value : Nat} {G : Answers}
    (h : callGraduate D w sender token creator tokenAmount nativeUsdcAmount
      value G = .ok w') : Frame D d w w' := by
  simp only [callGraduate, bind_ok, revertIf_ok] at h
  obtain ⟨_, hsender, _, -, h⟩ := h
  have hne := ne_of_not_curve hd (outsider_not_curve hsender)
  exact (sendValue_frame hne).trans (graduate_frame hd h)

theorem force_frame (hd : D.isCurve d = true) {sender recipient : Address}
    {amount : Nat} (h : force D w sender recipient amount = .ok w') :
    Frame D d w w' := by
  simp only [force, bind_ok, revertIf_ok, pure_ok] at h
  obtain ⟨_, hsender, _, -, rfl⟩ := h
  exact sendValue_frame (ne_of_not_curve hd (outsider_not_curve hsender))

/-- **EVERY FIRST HALF** is an accepted buy, an accepted sell, or nothing to
    any curve. -/
theorem enter_cases [MulDiv] {k : Call} {e : Entry (World τ) Receipt}
    (h : (machine D).enter k w = .ok e) :
    (∃ trader c value q, Bought D w trader c value q e) ∨
      (∃ trader c tokensIn q, Sold D w trader c tokensIn q e) ∨
      ((∀ d, D.isCurve d = true → Frame D d w e.state) ∧
        (e.ret = .nothing ∨ ∃ r, e.ret = .fees r)) := by
  cases k with
  | buy trader c value minTokensOut deadline G =>
      obtain ⟨q, hq⟩ := buy_ok h
      exact .inl ⟨trader, c, value, q, hq⟩
  | sell trader c tokensIn minNativeUsdcOut deadline =>
      obtain ⟨q, hq⟩ := sell_ok h
      exact .inr (.inl ⟨trader, c, tokensIn, q, hq⟩)
  | feeManager sender value V k =>
      obtain ⟨hframes, hret⟩ := callFeeManager_frames h
      exact .inr (.inr ⟨hframes, .inr hret⟩)
  | token sender token k =>
      simp only [machine, bind_ok, pure_ok] at h
      obtain ⟨w', h, rfl⟩ := h
      exact .inr (.inr ⟨fun d hd => callToken_frame hd h, .inl rfl⟩)
  | graduate sender token creator tokenAmount nativeUsdcAmount value G =>
      simp only [machine, bind_ok, pure_ok] at h
      obtain ⟨w', h, rfl⟩ := h
      exact .inr (.inr ⟨fun d hd => callGraduate_frame hd h, .inl rfl⟩)
  | force sender recipient amount =>
      simp only [machine, bind_ok, pure_ok] at h
      obtain ⟨w', h, rfl⟩ := h
      exact .inr (.inr ⟨fun d hd => force_frame hd h, .inl rfl⟩)
  | wait seconds =>
      cases Except.ok.inj h
      refine .inr (.inr ⟨fun d _ => ?_, .inl rfl⟩)
      exact Frame.of_silent rfl rfl rfl rfl rfl

/-- A second half is nothing to a curve whose trade it does not end. -/
theorem leave_frame [MulDiv] {r : Receipt}
    (hbought : ∀ c trader q, r = .bought c trader q → d ≠ c)
    (hsold : ∀ c trader q, r = .sold c trader q → d ≠ c) :
    Frame D d w ((machine D).leave r w) := by
  cases r with
  | nothing => exact Frame.refl w
  | bought c trader q =>
      have hne := hbought c trader q rfl
      refine (emit_frame ?_).trans (setEntered_frame false hne)
      exact List.forall_mem_singleton.mpr ⟨beq_false_of_ne hne.symm, rfl⟩
  | sold c trader q =>
      have hne := hsold c trader q rfl
      refine (emit_frame ?_).trans (setEntered_frame false hne)
      exact List.forall_mem_singleton.mpr ⟨beq_false_of_ne hne.symm, rfl⟩
  | fees receipt =>
      exact Frame.of_books rfl rfl rfl rfl rfl (feeLines_other d _)

end Others

end CurveMachine
