import Cooket.CurveRunProofs

/-! # The laws of the curve

    What every run of the world says about a launched curve: its reserve is a
    function of what it has sold (`curve_law`), its quotes do not fail
    (`quotes_return`), and it graduates at the boundary and nowhere else
    (`boundary_exact`).

    The states quantified over are all those in which anybody but the protocol
    has control: between transactions, and inside the refund or the payout of
    a trade. -/

namespace CurveLaw

open CheckedArith CeilDiv Contract CurveMachine CurveQuote CurveRun
  CurveTrade CurveWorld Endpoint Reentrant TokenLedger

variable {τ : Type} [Erc20 Address Revert τ] [MulDiv] {D : Deployment}
  {c : Address} {w₀ : World τ}

/-- On the curve wherever somebody else has control. -/
theorem onCurve_observable (h : Launched D c w₀) {w : World τ}
    (hw : (machine D).Observable w₀ w) : OnCurve (w.curves c) :=
  h.later_onCurve hw.later

/-! ## The reserve -/

omit [MulDiv] in
/-- **THE STORAGE IS A FUNCTION OF THE SOLD SUPPLY.** -/
theorem storage_of_sold {s s' : CurveStorage} (h : OnCurve s)
    (h' : OnCurve s') (hsold : s.soldSupply = s'.soldSupply) : s = s' := by
  cases hg : s.graduated with
  | true =>
      have hg' : s'.graduated = true := by
        rw [h'.graduated_iff, ← hsold]
        exact h.graduated_iff.mp hg
      rw [h.closed hg, h'.closed hg']
  | false =>
      have hg' : s'.graduated = false := by
        cases hg'' : s'.graduated with
        | false => rfl
        | true =>
            have hend := h'.graduated_iff.mp hg''
            have hlt := h.sold_lt hg
            omega
      have hcoord := h.coordinate hg
      have hcoord' := h'.coordinate hg'
      obtain ⟨hterminal, hforwarded⟩ := h.unforwarded hg
      obtain ⟨hterminal', hforwarded'⟩ := h'.unforwarded hg'
      have hreserve :
          s.activeNativeUsdcReserve = s'.activeNativeUsdcReserve := by
        rw [hsold, ← hcoord'] at hcoord
        omega
      cases s
      cases s'
      rw [CurveStorage.mk.injEq]
      exact ⟨hsold, hreserve, hterminal.trans hterminal'.symm,
        hforwarded.trans hforwarded'.symm, hg.trans hg'.symm⟩

/-- **THE LAW OF THE CURVE.**  In every state the reserve is the ceiling of the
    product over what is unsold, before graduation and at it; the same sold
    supply has the same reserve however it came about; the reserve is the sum
    of the net inputs less the sum of the gross outputs; and selling everything
    back, in any split, empties it. -/
theorem curve_law (h : Launched D c w₀) :
    (∀ w, (machine D).Observable w₀ w →
      ((w.curves c).graduated = false →
        VIRTUAL_NATIVE_USDC_RESERVE + (w.curves c).activeNativeUsdcReserve
          = K ⌈/⌉ (VIRTUAL_TOKEN_RESERVE - (w.curves c).soldSupply)) ∧
      ((w.curves c).graduated = true →
        (w.curves c).soldSupply = CURVE_ALLOCATION ∧
        VIRTUAL_NATIVE_USDC_RESERVE
            + (w.curves c).graduationNativeUsdcForwarded
          = K ⌈/⌉ (VIRTUAL_TOKEN_RESERVE - CURVE_ALLOCATION))) ∧
    (∀ w w', (machine D).Observable w₀ w → (machine D).Observable w₀ w' →
      (w.curves c).soldSupply = (w'.curves c).soldSupply →
      (w.curves c).activeNativeUsdcReserve
          = (w'.curves c).activeNativeUsdcReserve
        ∧ reserveCoordinate (w.curves c) = reserveCoordinate (w'.curves c)) ∧
    (∀ txs, let w := (machine D).runTxs txs w₀
      ((trades c w).map fun t => t.2.grossOut).sum
          + reserveCoordinate (w.curves c)
        = ((trades c w).map fun t => t.2.netIn).sum) ∧
    (∀ txs txs' sells, let w := (machine D).runTxs txs w₀
      let w' := (machine D).runTxs txs' w
      trades c w' = trades c w ++ sells →
      (∀ t ∈ sells, t.2.isSell = true) →
      (sells.map fun t => t.2.tokensIn).sum = (w.curves c).soldSupply →
      (w'.curves c).soldSupply = 0
        ∧ (w'.curves c).activeNativeUsdcReserve = 0) := by
  refine ⟨?_, ?_, ?_, ?_⟩
  · intro w hw
    have hcurve := onCurve_observable h hw
    refine ⟨hcurve.coordinate, ?_⟩
    intro hg
    have hsold := hcurve.graduated_iff.mp hg
    have hcoord := hcurve.reserveCoordinate_eq
    rw [hcurve.closed hg] at hcoord ⊢
    exact ⟨rfl, hcoord⟩
  · intro w w' hw hw' hsold
    have heq := storage_of_sold (onCurve_observable h hw)
      (onCurve_observable h hw') hsold
    rw [heq]
    exact ⟨rfl, rfl⟩
  · intro txs
    have hrun := (h.traded txs).run
    have hsum := hrun.reserve onCurve_fresh
    have hfresh : reserveCoordinate CurveStorage.fresh = 0 := rfl
    rw [List.map_map, List.map_map, hfresh] at hsum
    show ((trades c _).map (Trade.grossOut ∘ Prod.snd)).sum + _
      = ((trades c _).map (Trade.netIn ∘ Prod.snd)).sum
    omega
  · intro txs txs' sells w w' htrades hsells htotal
    obtain ⟨ts, hts, hrun⟩ := (h.traded txs).later h.curve txs'
    have heq : ts = sells :=
      List.append_cancel_left (hts.symm.trans htrades)
    subst heq
    have hcurve : OnCurve (w.curves c) :=
      onCurve_observable h (Machine.Observable.runTxs txs .start)
    have hcurve' := hrun.onCurve hcurve
    obtain ⟨-, hsold, hreserve⟩ := hrun.sell_all hcurve
      (by
        intro t ht
        obtain ⟨x, hx, rfl⟩ := List.mem_map.mp ht
        exact hsells x hx)
      (by
        rw [List.map_map]
        exact htotal)
    refine ⟨hsold, ?_⟩
    cases hg : (w'.curves c).graduated with
    | true =>
        rw [hcurve'.closed hg]
    | false =>
        rw [reserveCoordinate, hg] at hreserve
        exact hreserve

omit [MulDiv] in
/-- The law in the middle of a curve's life, after a buy and a sell. -/
theorem curve_law_life :
    VIRTUAL_NATIVE_USDC_RESERVE + ((lived 3).curves 20).activeNativeUsdcReserve
      = K ⌈/⌉ (VIRTUAL_TOKEN_RESERVE - ((lived 3).curves 20).soldSupply) ∧
    0 < ((lived 3).curves 20).soldSupply ∧
    (trades 20 (lived 3)).length = 2 ∧
    ((trades 20 (lived 3)).map fun t => t.2.grossOut).sum
        + reserveCoordinate ((lived 3).curves 20)
      = ((trades 20 (lived 3)).map fun t => t.2.netIn).sum := by
  have hlaw := @curve_law _ plainToken exactMulDiv oneCurve 20 oneLaunch
    launched_oneLaunch
  let _ := plainToken
  let _ := exactMulDiv
  have hactive : ((lived 3).curves 20).graduated = false := by decide +kernel
  have hreached : (machine oneCurve).Observable oneLaunch (lived 3) :=
    Machine.Observable.runTxs (life.take 3) .start
  refine ⟨(hlaw.1 (lived 3) hreached).1 hactive, by decide +kernel,
    by decide +kernel, ?_⟩
  have hsum := hlaw.2.2.1 (life.take 3)
  unfold lived
  exact hsum

/-! ## The quotes -/

/-- **THE QUOTES RETURN.**  From every active state every buy is quoted, and
    every sell of what was sold is quoted or is dust. -/
theorem quotes_return (h : Launched D c w₀) :
    ∀ w, (machine D).Observable w₀ w → (w.curves c).graduated = false →
      (∀ grossInput, 1 ≤ grossInput → grossInput ≤ 2 ^ 256 - 1 →
        ∃ q, quoteBuy (w.curves c) grossInput = .ok q) ∧
      (∀ tokensIn, 1 ≤ tokensIn → tokensIn ≤ (w.curves c).soldSupply →
        (∃ q, quoteSell (w.curves c) tokensIn = .ok q) ∨
          quoteSell (w.curves c) tokensIn = .error (.curve .dustTrade)) := by
  intro w hw ha
  have hcurve := onCurve_observable h hw
  refine ⟨?_, ?_⟩
  · intro gross hpos hle
    have hfit : gross < uintBound := by
      unfold uintBound
      omega
    rcases Nat.lt_or_ge (FloorFee.net 100 gross) (netNeeded (w.curves c))
      with hin | hclip
    · exact ⟨_, quoteBuy_inside hcurve ha hpos hfit hin⟩
    · exact ⟨_, quoteBuy_clipped hcurve ha hfit hclip⟩
  · intro tokensIn hpos hle
    rw [quoteSell_eq hcurve ha hpos hle]
    by_cases h0 : grossOutput (w.curves c) tokensIn = 0
    · rw [if_pos h0]
      exact .inr rfl
    · rw [if_neg h0]
      exact .inl ⟨_, rfl⟩

omit [MulDiv] in
/-- After a buy and a sell, the smallest buy is quoted and so is a sell of
    everything the trader holds. -/
theorem quotes_return_life :
    (∃ q, @quoteBuy exactMulDiv ((lived 3).curves 20) 1 = .ok q) ∧
    ((∃ q, @quoteSell exactMulDiv ((lived 3).curves 20)
        ((lived 3).curves 20).soldSupply = .ok q) ∨
      @quoteSell exactMulDiv ((lived 3).curves 20)
        ((lived 3).curves 20).soldSupply = .error (.curve .dustTrade)) := by
  have hlaw := @quotes_return _ plainToken exactMulDiv oneCurve 20 oneLaunch
    launched_oneLaunch
  let _ := plainToken
  let _ := exactMulDiv
  have hactive : ((lived 3).curves 20).graduated = false := by decide +kernel
  have hsold : 1 ≤ ((lived 3).curves 20).soldSupply := by decide +kernel
  have hreached : (machine oneCurve).Observable oneLaunch (lived 3) :=
    Machine.Observable.runTxs (life.take 3) .start
  obtain ⟨hbuys, hsells⟩ := hlaw (lived 3) hreached hactive
  exact ⟨hbuys 1 (by decide) (by decide), hsells _ hsold (Nat.le_refl _)⟩

/-! ## The boundary -/

/-- **THE BOUNDARY IS EXACT.**  A buy graduates exactly when its net amount is
    at least the net still needed; then it is clipped to the least gross amount
    with that net, refunded the rest, and sells the curve out.  The reserve
    never passes the boundary, and sold out is graduated. -/
theorem boundary_exact (h : Launched D c w₀) :
    ∀ w, (machine D).Observable w₀ w →
      ((w.curves c).graduated = false → ∀ grossInput, 1 ≤ grossInput →
        grossInput ≤ 2 ^ 256 - 1 →
        ∃ q, quoteBuy (w.curves c) grossInput = .ok q ∧
          (q.reachesGraduation = true ↔
            GRADUATION_NATIVE_USDC_RESERVE
                - (w.curves c).activeNativeUsdcReserve
              ≤ grossInput - grossInput / 100) ∧
          (q.reachesGraduation = true →
            IsLeast {g | g - g / 100 = GRADUATION_NATIVE_USDC_RESERVE
                - (w.curves c).activeNativeUsdcReserve} q.acceptedGross
              ∧ q.acceptedGross ≤ grossInput
              ∧ q.refund = grossInput - q.acceptedGross
              ∧ (w.curves c).soldSupply + q.tokensOut = CURVE_ALLOCATION) ∧
          (q.reachesGraduation = false →
            q.acceptedGross = grossInput ∧ q.refund = 0)) ∧
      (w.curves c).activeNativeUsdcReserve
        ≤ GRADUATION_NATIVE_USDC_RESERVE ∧
      ((w.curves c).soldSupply = CURVE_ALLOCATION
        ↔ (w.curves c).graduated = true) := by
  intro w hw
  have hcurve := onCurve_observable h hw
  refine ⟨?_, hcurve.reserve_le, hcurve.graduated_iff.symm⟩
  intro ha gross hpos hle
  have hfit : gross < uintBound := by
    unfold uintBound
    omega
  rcases Nat.lt_or_ge (FloorFee.net 100 gross) (netNeeded (w.curves c))
    with hin | hclip
  · refine ⟨_, quoteBuy_inside hcurve ha hpos hfit hin, ?_, ?_, ?_⟩
    · constructor
      · intro hr
        exact nomatch hr
      · intro hge
        exact absurd hge (Nat.not_le.mpr hin)
    · intro hr
      exact nomatch hr
    · intro _
      exact ⟨rfl, rfl⟩
  · have hsold := hcurve.sold_lt ha
    refine ⟨_, quoteBuy_clipped hcurve ha hfit hclip, ?_, ?_, ?_⟩
    · exact ⟨fun _ => hclip, fun _ => rfl⟩
    · intro _
      refine ⟨FloorFee.gross_isLeast (by decide), gross_netNeeded_le hclip,
        rfl, ?_⟩
      exact Nat.add_sub_cancel' (Nat.le_of_lt hsold)
    · intro hr
      exact nomatch hr

omit [MulDiv] in
/-- A buy that passes the boundary is clipped, and leaves a curve that is sold
    out and graduated. -/
theorem boundary_exact_life :
    (∃ q, @quoteBuy exactMulDiv ((lived 3).curves 20)
        (8900 * NATIVE_USDC_UNIT) = .ok q ∧
      q.reachesGraduation = true ∧
      IsLeast {g | g - g / 100 = GRADUATION_NATIVE_USDC_RESERVE
        - ((lived 3).curves 20).activeNativeUsdcReserve} q.acceptedGross ∧
      ((lived 3).curves 20).soldSupply + q.tokensOut = CURVE_ALLOCATION) ∧
    ((lived 4).curves 20).soldSupply = CURVE_ALLOCATION := by
  have hlaw := @boundary_exact _ plainToken exactMulDiv oneCurve 20 oneLaunch
    launched_oneLaunch
  let _ := plainToken
  let _ := exactMulDiv
  have hobservable : ∀ n, (machine oneCurve).Observable oneLaunch (lived n) :=
    fun n => Machine.Observable.runTxs (life.take n) .start
  refine ⟨?_, ?_⟩
  · have hactive : ((lived 3).curves 20).graduated = false := by decide +kernel
    have hpasses : GRADUATION_NATIVE_USDC_RESERVE
        - ((lived 3).curves 20).activeNativeUsdcReserve
      ≤ 8900 * NATIVE_USDC_UNIT - 8900 * NATIVE_USDC_UNIT / 100 := by
      decide +kernel
    obtain ⟨q, hq, hiff, hclipped, -⟩ := (hlaw (lived 3) (hobservable 3)).1
      hactive (8900 * NATIVE_USDC_UNIT) (by decide) (by decide)
    have hreach := hiff.mpr hpasses
    obtain ⟨hleast, -, -, hsold⟩ := hclipped hreach
    exact ⟨q, hq, hreach, hleast, hsold⟩
  · have hended : ((lived 4).curves 20).graduated = true := by decide +kernel
    exact (hlaw (lived 4) (hobservable 4)).2.2.mpr hended

/-! ## The price -/

omit [MulDiv] in
/-- On the curve the price is a function of what is unsold, rounded up
    twice. -/
theorem priceAt_eq {s : CurveStorage} (h : OnCurve s) :
    priceAt s = (K ⌈/⌉ (VIRTUAL_TOKEN_RESERVE - s.soldSupply) * TOKEN_UNIT)
      ⌈/⌉ (VIRTUAL_TOKEN_RESERVE - s.soldSupply) := by
  unfold priceAt
  rw [h.reserveCoordinate_eq]

omit [MulDiv] in
theorem sold_le {s : CurveStorage} (h : OnCurve s) :
    s.soldSupply ≤ CURVE_ALLOCATION := by
  cases hg : s.graduated with
  | true => rw [h.closed hg]
  | false => exact Nat.le_of_lt (h.sold_lt hg)

omit [MulDiv] in
/-- **THE PRICE RISES WITH WHAT IS SOLD.** -/
theorem priceAt_mono {s s' : CurveStorage} (h : OnCurve s) (h' : OnCurve s')
    (hsold : s.soldSupply ≤ s'.soldSupply) : priceAt s ≤ priceAt s' := by
  have hle := sold_le h'
  have halloc := curveAllocation_lt
  have hunsold : VIRTUAL_TOKEN_RESERVE - s'.soldSupply
      ≤ VIRTUAL_TOKEN_RESERVE - s.soldSupply := by omega
  have hpos : 0 < VIRTUAL_TOKEN_RESERVE - s'.soldSupply := by omega
  have hreserve := ceilDiv_anti (K := K) hpos hunsold
  rw [priceAt_eq h, priceAt_eq h']
  calc (K ⌈/⌉ (VIRTUAL_TOKEN_RESERVE - s.soldSupply) * TOKEN_UNIT)
        ⌈/⌉ (VIRTUAL_TOKEN_RESERVE - s.soldSupply)
      ≤ (K ⌈/⌉ (VIRTUAL_TOKEN_RESERVE - s'.soldSupply) * TOKEN_UNIT)
        ⌈/⌉ (VIRTUAL_TOKEN_RESERVE - s.soldSupply) :=
        ceilDiv_mono (by omega) (Nat.mul_le_mul_right _ hreserve)
    _ ≤ (K ⌈/⌉ (VIRTUAL_TOKEN_RESERVE - s'.soldSupply) * TOKEN_UNIT)
        ⌈/⌉ (VIRTUAL_TOKEN_RESERVE - s'.soldSupply) :=
        ceilDiv_anti hpos hunsold

omit [MulDiv] in
/-- The price of an unsold curve. -/
theorem priceAt_origin {s : CurveStorage} (h : OnCurve s)
    (hsold : s.soldSupply = 0) : priceAt s = INITIAL_NATIVE_USDC_PRICE := by
  rw [priceAt_eq h, hsold]
  decide

omit [MulDiv] in
/-- The price of a graduated curve. -/
theorem priceAt_terminal {s : CurveStorage} (h : OnCurve s)
    (hgraduated : s.graduated = true) :
    priceAt s = TERMINAL_NATIVE_USDC_PRICE := by
  rw [h.closed hgraduated]
  decide

/-- The storage of every graduated curve. -/
def soldOut : CurveStorage :=
  ⟨CURVE_ALLOCATION, 0, GRADUATION_NATIVE_USDC_RESERVE,
    GRADUATION_NATIVE_USDC_RESERVE, true⟩

omit [MulDiv] in
theorem onCurve_soldOut : OnCurve soldOut where
  coordinate h := nomatch h
  below h := nomatch h
  unforwarded h := nomatch h
  closed _ := rfl

omit [MulDiv] in
/-- The two prices bound every other. -/
theorem priceAt_bounds {s : CurveStorage} (h : OnCurve s) :
    INITIAL_NATIVE_USDC_PRICE ≤ priceAt s
      ∧ priceAt s ≤ TERMINAL_NATIVE_USDC_PRICE := by
  constructor
  · rw [← priceAt_origin onCurve_fresh rfl]
    exact priceAt_mono onCurve_fresh h (Nat.zero_le _)
  · rw [← priceAt_terminal onCurve_soldOut rfl]
    exact priceAt_mono h onCurve_soldOut (sold_le h)

/-- Buys only sell. -/
theorem run_buys {s s' : CurveStorage} {ts : List Trade} (h : Run s ts s')
    (hbuys : ∀ t ∈ ts, t.isSell = false) : s.soldSupply ≤ s'.soldSupply := by
  induction h with
  | refl s => exact Nat.le_refl _
  | @step s s₁ s' t ts hstep _ ih =>
      have hrest := ih fun u hu => hbuys u (List.mem_cons_of_mem _ hu)
      cases t with
      | bought q =>
          obtain ⟨-, hsold, -⟩ := bought_storage hstep
          omega
      | sold q => exact nomatch hbuys _ List.mem_cons_self

/-- Sells only take back. -/
theorem run_sells {s s' : CurveStorage} {ts : List Trade} (h : Run s ts s')
    (hsells : ∀ t ∈ ts, t.isSell = true) : s'.soldSupply ≤ s.soldSupply := by
  induction h with
  | refl s => exact Nat.le_refl _
  | @step s s₁ s' t ts hstep _ ih =>
      have hrest := ih fun u hu => hsells u (List.mem_cons_of_mem _ hu)
      cases t with
      | bought q => exact nomatch hsells _ List.mem_cons_self
      | sold q =>
          obtain ⟨-, hsold, -⟩ := sold_storage hstep
          omega

/-- **THE PRICE.**  Wherever somebody else has control it lies between the
    initial and the terminal price, and is the one while nothing is sold and
    the other after graduation.  No accepted buy lowers it and no accepted sell
    raises it, in the state it leaves before its refund or payout and, after
    any transactions whose only trades are buys or only sells, for good. -/
theorem price_law (h : Launched D c w₀) :
    (∀ w, (machine D).Observable w₀ w →
      ∃ p, spotPrice (w.curves c) = .ok p
        ∧ INITIAL_NATIVE_USDC_PRICE ≤ p ∧ p ≤ TERMINAL_NATIVE_USDC_PRICE
        ∧ ((w.curves c).soldSupply = 0 → p = INITIAL_NATIVE_USDC_PRICE)
        ∧ ((w.curves c).graduated = true → p = TERMINAL_NATIVE_USDC_PRICE)) ∧
    (∀ w e p p', (machine D).Observable w₀ w →
      spotPrice (w.curves c) = .ok p →
      spotPrice (e.state.curves c) = .ok p' →
      (∀ trader value minTokensOut deadline G,
        buy D w trader c value minTokensOut deadline G = .ok e → p ≤ p') ∧
      (∀ trader tokensIn minNativeUsdcOut deadline,
        sell D w trader c tokensIn minNativeUsdcOut deadline = .ok e →
        p' ≤ p)) ∧
    (∀ txs txs' news p p', let w := (machine D).runTxs txs w₀
      let w' := (machine D).runTxs txs' w
      trades c w' = trades c w ++ news →
      spotPrice (w.curves c) = .ok p → spotPrice (w'.curves c) = .ok p' →
      ((∀ t ∈ news, t.2.isSell = false) → p ≤ p') ∧
      ((∀ t ∈ news, t.2.isSell = true) → p' ≤ p)) := by
  have hprice : ∀ {s p}, OnCurve s → spotPrice s = .ok p → p = priceAt s := by
    intro s p hs hp
    rw [spotPrice_eq hs] at hp
    exact (Except.ok.inj hp).symm
  refine ⟨?_, ?_, ?_⟩
  · intro w hw
    have hcurve := onCurve_observable h hw
    obtain ⟨hlow, hhigh⟩ := priceAt_bounds hcurve
    exact ⟨_, spotPrice_eq hcurve, hlow, hhigh, priceAt_origin hcurve,
      priceAt_terminal hcurve⟩
  · intro w e p p' hw hp hp'
    have hcurve := onCurve_observable h hw
    rw [hprice hcurve hp]
    refine ⟨?_, ?_⟩
    · intro trader value minTokensOut deadline G hbuy
      obtain ⟨q, hbought⟩ := buy_ok hbuy
      have hcurve' := hbought.step.onCurve hcurve
      obtain ⟨-, hsold, -⟩ := bought_storage hbought.step
      rw [hprice hcurve' hp']
      exact priceAt_mono hcurve hcurve' (by omega)
    · intro trader tokensIn minNativeUsdcOut deadline hsell
      obtain ⟨q, hsold⟩ := sell_ok hsell
      have hcurve' := hsold.step.onCurve hcurve
      obtain ⟨-, hback, -⟩ := sold_storage hsold.step
      rw [hprice hcurve' hp']
      exact priceAt_mono hcurve' hcurve (by omega)
  · intro txs txs' news p p' w w' htrades hp hp'
    obtain ⟨ts, hts, hrun⟩ := (h.traded txs).later h.curve txs'
    have heq : ts = news := List.append_cancel_left (hts.symm.trans htrades)
    subst heq
    have hcurve : OnCurve (w.curves c) :=
      onCurve_observable h (Machine.Observable.runTxs txs .start)
    have hcurve' : OnCurve (w'.curves c) := hrun.onCurve hcurve
    have hsides : ∀ b : Bool, (∀ t ∈ ts, t.2.isSell = b) →
        ∀ t ∈ ts.map Prod.snd, t.isSell = b := by
      intro b hb t ht
      obtain ⟨x, hx, rfl⟩ := List.mem_map.mp ht
      exact hb x hx
    rw [hprice hcurve hp, hprice hcurve' hp']
    refine ⟨?_, ?_⟩
    · intro hbuys
      exact priceAt_mono hcurve hcurve' (run_buys hrun (hsides false hbuys))
    · intro hsells
      exact priceAt_mono hcurve' hcurve (run_sells hrun (hsides true hsells))

omit [MulDiv] in
/-- Over the life of a curve the price leaves its initial value, falls with the
    sell, and ends at its terminal one. -/
theorem price_law_life :
    ∃ p₁ p₃ p₄, @spotPrice exactMulDiv ((lived 1).curves 20) = .ok p₁ ∧
      @spotPrice exactMulDiv ((lived 3).curves 20) = .ok p₃ ∧
      @spotPrice exactMulDiv ((lived 4).curves 20) = .ok p₄ ∧
      INITIAL_NATIVE_USDC_PRICE ≤ p₃ ∧ p₃ ≤ p₁ ∧
      p₄ = TERMINAL_NATIVE_USDC_PRICE := by
  have hlaw := @price_law _ plainToken exactMulDiv oneCurve 20 oneLaunch
    launched_oneLaunch
  let _ := plainToken
  let _ := exactMulDiv
  have hobservable : ∀ n, (machine oneCurve).Observable oneLaunch (lived n) :=
    fun n => Machine.Observable.runTxs (life.take n) .start
  obtain ⟨p₁, hp₁, -⟩ := hlaw.1 (lived 1) (hobservable 1)
  obtain ⟨p₃, hp₃, hlow, -⟩ := hlaw.1 (lived 3) (hobservable 3)
  obtain ⟨p₄, hp₄, -, -, -, hterminal⟩ := hlaw.1 (lived 4) (hobservable 4)
  have hended : ((lived 4).curves 20).graduated = true := by decide +kernel
  -- the two transactions between the first buy and the third state
  obtain ⟨news, hnews, hsells⟩ : ∃ news,
      trades 20 (lived 3) = trades 20 (lived 1) ++ news ∧
        ∀ t ∈ news, t.2.isSell = true :=
    ⟨(trades 20 (lived 3)).drop 1, by decide +kernel, by decide +kernel⟩
  refine ⟨p₁, p₃, p₄, hp₁, hp₃, hp₄, hlow, ?_, hterminal hended⟩
  have hfalls := hlaw.2.2 (life.take 1) ((life.take 3).drop 1) news p₁ p₃
  have hlife : life.take 1 ++ (life.take 3).drop 1 = life.take 3 := rfl
  dsimp only at hfalls
  rw [← Machine.runTxs_append, hlife] at hfalls
  unfold lived at hp₁ hp₃ hnews
  exact (hfalls hnews hp₁ hp₃).2 hsells

/-! ## The fee -/

omit [Erc20 Address Revert τ] in
/-- **THE FEE AND ITS INVERSE**, on every word.  The inverse returns the least
    gross amount with the given net, and reverts, as an invalid amount, exactly
    when that does not fit in a word.  The split never fails, and its four
    parts are the whole fee. -/
theorem fee_inverse :
    (∀ net, net < 2 ^ 256 →
      ∃ g, IsLeast {g | g - g / 100 = net} g
        ∧ (g < 2 ^ 256 → grossRequiredForNet net = .ok g)
        ∧ (grossRequiredForNet net = .error (.curve .invalidAmount)
          ↔ 2 ^ 256 ≤ g)
        ∧ grossRequiredForNet net
          ≠ .error (.curve .graduationAccountingMismatch)) ∧
    (∀ gross, gross < 2 ^ 256 →
      ∃ fees, splitFee gross = .ok fees ∧ fees.totalFee = gross / 100
        ∧ fees.creatorFee + fees.protocolFee + fees.communityFee
          + fees.traderRewardsFee = fees.totalFee) := by
  refine ⟨?_, ?_⟩
  · intro net hnet
    refine ⟨FloorFee.gross 100 net, FloorFee.gross_isLeast (by decide), ?_⟩
    rcases Nat.lt_or_ge (FloorFee.gross 100 net) (2 ^ 256) with hfit | hover
    · have hok := grossRequiredForNet_eq hfit
      refine ⟨fun _ => hok, ⟨?_, ?_⟩, ?_⟩
      · intro herror
        rw [hok] at herror
        exact nomatch herror
      · intro hge
        omega
      · rw [hok]
        exact fun herror => nomatch herror
    · have hfail := grossRequiredForNet_overflow hnet hover
      refine ⟨?_, ⟨fun _ => hover, fun _ => hfail⟩, ?_⟩
      · intro hlt
        omega
      · rw [hfail]
        decide
  · intro gross hgross
    exact ⟨_, splitFee_eq hgross, rfl, feeSplitOf_sum gross⟩

end CurveLaw
