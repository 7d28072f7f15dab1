import Cooket.CurveTradeProofs
import Cooket.FeeManagerProofs
import Cooket.LPVaultProofs
import Cooket.TokenLedgerProofs

/-! # The world a curve lives in

    The storage of every contract a trade can reach, the native value and the
    tokens everybody holds, and a JOURNAL of what happened: every movement of
    value or of tokens, with whoever ordered it, and every event, in order.

    What concerns one curve `c` is little: its storage and its lock, its
    native balance, its balance of its own token, and the entries of the
    journal it wrote itself (`own`).  `Frame c` says that none of this
    changed, except that somebody may have sent the curve something.  Every
    primitive that is not ordered by `c` is such a frame. -/

namespace CurveWorld

open CheckedArith Contract CurveQuote CurveTrade Endpoint TokenLedger
open FeeManager (FeeManagerEvent FeeManagerStorage)
open LPVault (CANONICAL_USDC Custodian Launch)

/-- The addresses and the relations of a deployed protocol, none of which
    changes after a launch. -/
structure Deployment where
  factory : Address
  feeManager : Address
  ctoRegistry : Address
  graduationManager : Address
  settlementExecutor : Address
  permanentLPFeeVault : Address
  nonfungiblePositionManager : Address
  /-- Whether an address is a curve that the factory launched. -/
  isCurve : Address → Bool
  /-- The immutables `token` and `creator` of a curve. -/
  tokenOf : Address → Address
  creatorOf : Address → Address
  /-- `canonicalPoolOf`, written once by the launch. -/
  canonicalPoolOf : Address → Address
  /-- Whether the cross references among the immutables of the deployed
      contracts, which their constructors compare again, agree. -/
  dependenciesAgree : Bool
  tokenOf_injective : ∀ c d, isCurve c = true → isCurve d = true →
    tokenOf c = tokenOf d → c = d
  zero_not_curve : isCurve 0 = false
  feeManager_not_curve : isCurve feeManager = false
  graduationManager_not_curve : isCurve graduationManager = false
  settlementExecutor_not_curve : isCurve settlementExecutor = false
  positionManager_not_curve : isCurve nonfungiblePositionManager = false
  feeManager_ne_graduationManager : feeManager ≠ graduationManager
  feeManager_ne_settlementExecutor : feeManager ≠ settlementExecutor
  graduationManager_ne_settlementExecutor :
    graduationManager ≠ settlementExecutor

/-- The contracts of the protocol that hold or move the money of a trade. -/
def Deployment.internal (D : Deployment) (a : Address) : Bool :=
  D.isCurve a || a == D.feeManager || a == D.graduationManager
    || a == D.settlementExecutor

theorem ne_of_not_curve {D : Deployment} {c a : Address}
    (hc : D.isCurve c = true) (ha : D.isCurve a = false) : c ≠ a := by
  rintro rfl
  exact Bool.false_ne_true (ha.symm.trans hc)

/-- One line of the journal. -/
inductive Line where
  | native (src dst : Address) (amount : Nat)
  | token (operator token src dst : Address) (amount : Nat)
  | tokensBought (curve trader : Address) (q : BuyQuote)
  | tokensSold (curve trader : Address) (q : SellQuote)
  | graduationReserveForwarded (curve : Address)
      (terminalReserveCoordinate nativeUsdcForwarded : Nat)
  | graduated (curve token graduationManager : Address)
      (lpTokens nativeUsdcReserve soldSupply : Nat)
  | graduatedV3 (token custodian : Address) (tokenId liquidity : Nat)
  | permanentCustodianDeployed (launchToken custodian : Address)
  | permanentPositionRegistered (launchToken : Address) (tokenId : Nat)
      (positionManager : Address)
  | residualDeposited (launchToken asset : Address) (amount : Nat)
  | nativeUsdcDustDeposited (launchToken : Address) (amount : Nat)
  | fees (e : FeeManagerEvent)
  deriving DecidableEq, Repr

/-- The immutables and the storage of a `PermanentResidualEscrowV3`. -/
structure Escrow where
  launchToken : Address
  graduationManager : Address
  settlementExecutor : Address
  depositedResidual : Address → Nat
  depositedNativeUsdcDust18 : Nat

/-- The state of everything. -/
structure World (τ : Type) where
  now : Nat
  native : Address → Nat
  /-- The launch tokens, by address. -/
  tokens : Address → τ
  /-- The allowances of the ERC-20 face of the native value. -/
  usdcAllowance : Address → Address → Nat
  curves : Address → CurveStorage
  /-- The re-entrancy guard of each curve. -/
  entered : Address → Bool
  fees : FeeManagerStorage
  /-- The manager's `_launches`, `settled` and `residualEscrowOf`. -/
  launches : Address → Launch
  settled : Address → Bool
  residualEscrowOf : Address → Address
  /-- The custodian deployer's register, and what was created. -/
  custodianOf : Address → Address
  custodians : Address → Option Custodian
  escrows : Address → Option Escrow
  journal : List Line

variable {τ : Type}

namespace World

/-- Append to the journal. -/
def emit (w : World τ) (es : List Line) : World τ :=
  { w with journal := w.journal ++ es }

/-- Native value moves. -/
def sendValue (w : World τ) (src dst : Address) (amount : Nat) : World τ :=
  { w with
    native := move w.native src dst amount
    journal := w.journal ++ [.native src dst amount] }

def setCurve (w : World τ) (c : Address) (s : CurveStorage) : World τ :=
  { w with curves := Function.update w.curves c s }

def setEntered (w : World τ) (c : Address) (b : Bool) : World τ :=
  { w with entered := Function.update w.entered c b }

/-- `balanceOf` of the ERC-20 face of the native value. -/
def usdcBalanceOf (w : World τ) (a : Address) : Nat :=
  w.native a / NATIVE_PER_ERC20_BASE_UNIT

section Tokens

variable [Erc20 Address Revert τ]

/-- `IERC20(token).balanceOf`, of a launch token. -/
def balanceOf (w : World τ) (token a : Address) : Nat :=
  Erc20.balanceOf Revert (w.tokens token) a

/-- `IERC20(asset).balanceOf`, of either asset. -/
def assetBalanceOf (w : World τ) (asset a : Address) : Nat :=
  if asset = CANONICAL_USDC then w.usdcBalanceOf a else w.balanceOf asset a

/-- `safeTransfer`, ordered by `operator`. -/
def safeTransfer (w : World τ) (operator token dst : Address)
    (amount : Nat) : Except Revert (World τ) := do
  let t ← Erc20.transfer (w.tokens token) operator dst amount
  pure
    { w with
      tokens := Function.update w.tokens token t
      journal := w.journal ++ [.token operator token operator dst amount] }

/-- `safeTransferFrom`, ordered by `operator`. -/
def safeTransferFrom (w : World τ) (operator token src dst : Address)
    (amount : Nat) : Except Revert (World τ) := do
  let t ← Erc20.transferFrom (w.tokens token) operator src dst amount
  pure
    { w with
      tokens := Function.update w.tokens token t
      journal := w.journal ++ [.token operator token src dst amount] }

/-- `approve`, ordered by the owner. -/
def approve (w : World τ) (owner token spender : Address)
    (amount : Nat) : Except Revert (World τ) := do
  let t ← Erc20.approve (w.tokens token) owner spender amount
  pure { w with tokens := Function.update w.tokens token t }

end Tokens

end World

/-! ## What concerns one curve -/

/-- Whether a line of the journal is the curve's own doing. -/
def own (c : Address) : Line → Bool
  | .native src _ _ => src == c
  | .token operator _ _ _ _ => operator == c
  | .tokensBought curve _ _ => curve == c
  | .tokensSold curve _ _ => curve == c
  | .graduationReserveForwarded curve _ _ => curve == c
  | .graduated curve _ _ _ _ _ => curve == c
  | _ => false

/-- Everything a curve did, in order. -/
def ownLines (c : Address) (w : World τ) : List Line :=
  w.journal.filter (own c)

/-- How much of the curve's token a line sends to `dst` without the curve
    having ordered it. -/
def donation (D : Deployment) (c dst : Address) : Line → Nat
  | .token operator token _ dst' amount =>
      if operator ≠ c ∧ token = D.tokenOf c ∧ dst' = dst then amount else 0
  | _ => 0

/-- The tokens donated to `dst`. -/
def donated (D : Deployment) (c dst : Address) (w : World τ) : Nat :=
  (w.journal.map (donation D c dst)).sum

theorem ownLines_append {c : Address} {w w' : World τ} {es : List Line}
    (h : w'.journal = w.journal ++ es) :
    ownLines c w' = ownLines c w ++ es.filter (own c) := by
  rw [ownLines, h, List.filter_append]
  rfl

theorem donated_append {D : Deployment} {c dst : Address} {w w' : World τ}
    {es : List Line} (h : w'.journal = w.journal ++ es) :
    donated D c dst w'
      = donated D c dst w + (es.map (donation D c dst)).sum := by
  rw [donated, h, List.map_append, List.sum_append]
  rfl

/-- One more line, not the curve's own. -/
theorem ownLines_other {c : Address} {w w' : World τ} {e : Line}
    (h : w'.journal = w.journal ++ [e]) (hown : own c e = false) :
    ownLines c w' = ownLines c w := by
  rw [ownLines_append h, List.filter_cons_of_neg (by simp [hown])]
  exact List.append_nil _

/-- One more line, the curve's own. -/
theorem ownLines_own {c : Address} {w w' : World τ} {e : Line}
    (h : w'.journal = w.journal ++ [e]) (hown : own c e = true) :
    ownLines c w' = ownLines c w ++ [e] := by
  rw [ownLines_append h, List.filter_cons_of_pos hown]
  rfl

/-- One more line. -/
theorem donated_concat {D : Deployment} {c dst : Address} {w w' : World τ}
    {e : Line} (h : w'.journal = w.journal ++ [e]) :
    donated D c dst w' = donated D c dst w + donation D c dst e := by
  rw [donated_append h]
  rfl

section Frame

variable [Erc20 Address Revert τ]

/-- Nobody may move the curve's tokens. -/
def NoAllowance (D : Deployment) (c : Address) (w : World τ) : Prop :=
  ∀ s, Erc20.allowance Revert (w.tokens (D.tokenOf c)) c s = 0

/-- **NOTHING HAPPENED TO A CURVE**, but that somebody may have sent it value
    or tokens. -/
structure Frame (D : Deployment) (c : Address) (a b : World τ) : Prop where
  curve : b.curves c = a.curves c
  entered : b.entered c = a.entered c
  own : ownLines c b = ownLines c a
  native : a.native c ≤ b.native c
  allowance : NoAllowance D c a → NoAllowance D c b
  tokens : NoAllowance D c a →
    b.balanceOf (D.tokenOf c) c + donated D c c a
      = a.balanceOf (D.tokenOf c) c + donated D c c b

variable {D : Deployment} {c : Address} {w w' : World τ}

theorem Frame.refl (w : World τ) : Frame D c w w where
  curve := rfl
  entered := rfl
  own := rfl
  native := Nat.le_refl _
  allowance h := h
  tokens _ := rfl

theorem Frame.trans {w₁ w₂ w₃ : World τ} (h : Frame D c w₁ w₂)
    (h' : Frame D c w₂ w₃) : Frame D c w₁ w₃ where
  curve := h'.curve.trans h.curve
  entered := h'.entered.trans h.entered
  own := h'.own.trans h.own
  native := h.native.trans h'.native
  allowance hn := h'.allowance (h.allowance hn)
  tokens hn := by
    have h₁ := h.tokens hn
    have h₂ := h'.tokens (h.allowance hn)
    omega

/-- The books and registers of the other contracts do not concern a curve,
    and neither do events that are not its own. -/
theorem Frame.of_books {es : List Line} (hcurve : w'.curves c = w.curves c)
    (hentered : w'.entered c = w.entered c) (hnative : w'.native = w.native)
    (htokens : w'.tokens = w.tokens) (hjournal : w'.journal = w.journal ++ es)
    (hown : ∀ e ∈ es, CurveWorld.own c e = false ∧ donation D c c e = 0) :
    Frame D c w w' where
  curve := hcurve
  entered := hentered
  own := by
    rw [ownLines_append hjournal, List.filter_eq_nil_iff.mpr,
      List.append_nil]
    intro e he
    rw [(hown e he).1]
    exact Bool.false_ne_true
  native := Nat.le_of_eq (congrFun hnative.symm c)
  allowance h := by
    intro s
    rw [htokens]
    exact h s
  tokens _ := by
    have hzero : (es.map (donation D c c)).sum = 0 := by
      refine List.sum_eq_zero ?_
      intro n hn
      obtain ⟨e, he, rfl⟩ := List.mem_map.mp hn
      exact (hown e he).2
    rw [donated_append hjournal, hzero, Nat.add_zero, World.balanceOf,
      World.balanceOf, htokens]

/-- The same with nothing journalled. -/
theorem Frame.of_silent (hcurve : w'.curves c = w.curves c)
    (hentered : w'.entered c = w.entered c) (hnative : w'.native = w.native)
    (htokens : w'.tokens = w.tokens) (hjournal : w'.journal = w.journal) :
    Frame D c w w' :=
  Frame.of_books hcurve hentered hnative htokens
    (hjournal.trans (List.append_nil _).symm) (List.forall_mem_nil _)

theorem setCurve_frame {d : Address} (s : CurveStorage) (h : c ≠ d) :
    Frame D c w (w.setCurve d s) :=
  Frame.of_silent (Function.update_of_ne h _ _) rfl rfl rfl rfl

theorem setEntered_frame {d : Address} (b : Bool) (h : c ≠ d) :
    Frame D c w (w.setEntered d b) :=
  Frame.of_silent rfl (Function.update_of_ne h _ _) rfl rfl rfl

theorem emit_frame {es : List Line}
    (h : ∀ e ∈ es, CurveWorld.own c e = false ∧ donation D c c e = 0) :
    Frame D c w (w.emit es) :=
  Frame.of_books rfl rfl rfl rfl rfl h

/-- Somebody else sends value. -/
theorem sendValue_frame {src dst : Address} {amount : Nat} (h : c ≠ src) :
    Frame D c w (w.sendValue src dst amount) where
  curve := rfl
  entered := rfl
  own := ownLines_other rfl (beq_false_of_ne h.symm)
  native := le_move h
  allowance hn := hn
  tokens _ := by
    have hsame : donated D c c (w.sendValue src dst amount)
        = donated D c c w + donation D c c (.native src dst amount) :=
      donated_concat rfl
    rw [hsame]
    rfl

/-- What a movement of a token does to a curve that did not order it. -/
theorem tokenMove_frame {operator token src dst : Address} {amount : Nat}
    {t : τ} (hop : c ≠ operator)
    (hbalance : (Erc20.balanceOf Revert t : Address → Nat)
      = move (Erc20.balanceOf Revert (w.tokens token)) src dst amount)
    (hallowance : ∀ o s : Address, Erc20.allowance Revert t o s
      ≤ Erc20.allowance Revert (w.tokens token) o s)
    (hsrc : token = D.tokenOf c → src = c → NoAllowance D c w →
      amount = 0) :
    Frame D c w { w with
      tokens := Function.update w.tokens token t
      journal := w.journal ++ [.token operator token src dst amount] } where
  curve := rfl
  entered := rfl
  own := ownLines_other rfl (beq_false_of_ne hop.symm)
  native := Nat.le_refl _
  allowance hn := by
    intro s
    by_cases ht : D.tokenOf c = token
    · have hle := hallowance c s
      have h0 := hn s
      subst ht
      simp only [Function.update_self]
      omega
    · simp only [Function.update_of_ne ht]
      exact hn s
  tokens hn := by
    have hdonated : donated D c c { w with
        tokens := Function.update w.tokens token t
        journal := w.journal ++ [.token operator token src dst amount] }
        = donated D c c w
          + donation D c c (.token operator token src dst amount) :=
      donated_concat rfl
    rw [hdonated]
    simp only [World.balanceOf, donation]
    by_cases ht : D.tokenOf c = token
    · subst ht
      simp only [Function.update_self, hbalance]
      by_cases hs : c = src
      · have h0 := hsrc rfl hs.symm hn
        subst h0
        rw [move_zero, ite_self]
        rfl
      · rw [move_of_ne_src hs]
        by_cases hd : c = dst
        · rw [if_pos hd, if_pos ⟨hop.symm, trivial, hd.symm⟩]
          omega
        · rw [if_neg hd, if_neg (fun h => hd h.2.2.symm)]
          rfl
    · simp only [Function.update_of_ne ht]
      rw [if_neg (fun h => ht h.2.1.symm), Nat.add_zero]

/-- Somebody else transfers. -/
theorem safeTransfer_frame {operator token dst : Address} {amount : Nat}
    (hop : c ≠ operator)
    (h : w.safeTransfer operator token dst amount = .ok w') :
    Frame D c w w' := by
  simp only [World.safeTransfer, bind_ok, pure_ok] at h
  obtain ⟨t, ht, rfl⟩ := h
  obtain ⟨-, hbalance, hallowance⟩ := Erc20.transfer_ok _ _ _ _ _ ht
  refine tokenMove_frame hop hbalance ?_ ?_
  · intro o s
    rw [hallowance]
  · intro _ hsrc
    exact absurd hsrc.symm hop

/-- Somebody else transfers with an allowance. -/
theorem safeTransferFrom_frame {operator token src dst : Address}
    {amount : Nat} (hop : c ≠ operator)
    (h : w.safeTransferFrom operator token src dst amount = .ok w') :
    Frame D c w w' := by
  simp only [World.safeTransferFrom, bind_ok, pure_ok] at h
  obtain ⟨t, ht, rfl⟩ := h
  obtain ⟨hallowed, -, hbalance, hallowance⟩ :=
    Erc20.transferFrom_ok _ _ _ _ _ _ ht
  refine tokenMove_frame hop hbalance hallowance ?_
  rintro rfl rfl hn
  have h0 := hn operator
  omega

/-- Somebody else allows. -/
theorem approve_frame {owner token spender : Address} {amount : Nat}
    (hop : c ≠ owner) (h : w.approve owner token spender amount = .ok w') :
    Frame D c w w' := by
  simp only [World.approve, bind_ok, pure_ok] at h
  obtain ⟨t, ht, rfl⟩ := h
  obtain ⟨hbalance, -, hallowance⟩ := Erc20.approve_ok _ _ _ _ _ ht
  refine ⟨rfl, rfl, rfl, Nat.le_refl _, ?_, ?_⟩
  · intro hn s
    by_cases htoken : D.tokenOf c = token
    · subst htoken
      simp only [Function.update_self]
      rw [hallowance c s (fun heq => absurd heq hop)]
      exact hn s
    · simp only [Function.update_of_ne htoken]
      exact hn s
  · intro _
    have hsame : donated D c c
        { w with tokens := Function.update w.tokens token t }
        = donated D c c w := rfl
    rw [hsame, Nat.add_right_cancel_iff]
    simp only [World.balanceOf]
    by_cases htoken : D.tokenOf c = token
    · subst htoken
      simp only [Function.update_self, hbalance]
    · simp only [Function.update_of_ne htoken]

/-! ## What a curve does itself -/

/-- **WHAT A CURVE DOES**: the lines it writes, the value and the tokens it is
    given and gives away.  Donations are accounted for, so the tokens balance
    exactly; forced value is not, so the value balances one way.  No other
    curve notices. -/
structure Acts (D : Deployment) (c : Address) (a b : World τ)
    (ls : List Line) (valueIn valueOut tokensIn tokensOut : Nat) : Prop where
  own : ownLines c b = ownLines c a ++ ls
  native : a.native c + valueIn ≤ b.native c + valueOut
  allowance : NoAllowance D c a → NoAllowance D c b
  tokens : NoAllowance D c a →
    b.balanceOf (D.tokenOf c) c + tokensOut + donated D c c a
      = a.balanceOf (D.tokenOf c) c + tokensIn + donated D c c b
  others : ∀ d, D.isCurve d = true → d ≠ c → Frame D d a b

/-- What no curve notices. -/
theorem Acts.of_frames (hc : D.isCurve c = true)
    (h : ∀ d, D.isCurve d = true → Frame D d w w') :
    Acts D c w w' [] 0 0 0 0 where
  own := (h c hc).own.trans (List.append_nil _).symm
  native := (h c hc).native
  allowance := (h c hc).allowance
  tokens := (h c hc).tokens
  others d hd _ := h d hd

/-- One thing after the other. -/
theorem Acts.trans {w₁ w₂ w₃ : World τ} {ls ls' : List Line}
    {vi vo ti tx vi' vo' ti' tx' : Nat} (h : Acts D c w₁ w₂ ls vi vo ti tx)
    (h' : Acts D c w₂ w₃ ls' vi' vo' ti' tx') :
    Acts D c w₁ w₃ (ls ++ ls') (vi + vi') (vo + vo') (ti + ti')
      (tx + tx') where
  own := by rw [h'.own, h.own, List.append_assoc]
  native := by
    have h₁ := h.native
    have h₂ := h'.native
    omega
  allowance hn := h'.allowance (h.allowance hn)
  tokens hn := by
    have h₁ := h.tokens hn
    have h₂ := h'.tokens (h.allowance hn)
    omega
  others d hd hne := (h.others d hd hne).trans (h'.others d hd hne)

theorem setCurve_acts (s : CurveStorage) :
    Acts D c w (w.setCurve c s) [] 0 0 0 0 where
  own := (List.append_nil _).symm
  native := Nat.le_refl _
  allowance hn := hn
  tokens _ := rfl
  others _ _ hne := setCurve_frame s hne

theorem setEntered_acts (b : Bool) :
    Acts D c w (w.setEntered c b) [] 0 0 0 0 where
  own := (List.append_nil _).symm
  native := Nat.le_refl _
  allowance hn := hn
  tokens _ := rfl
  others _ _ hne := setEntered_frame b hne

/-- The curve's own events. -/
theorem emit_acts {es : List Line}
    (h : ∀ e ∈ es, CurveWorld.own c e = true ∧ donation D c c e = 0)
    (hothers : ∀ e ∈ es, ∀ d, d ≠ c →
      CurveWorld.own d e = false ∧ donation D d d e = 0) :
    Acts D c w (w.emit es) es 0 0 0 0 where
  own := by
    rw [ownLines_append (w := w) rfl, List.filter_eq_self.mpr]
    exact fun e he => (h e he).1
  native := Nat.le_refl _
  allowance hn := hn
  tokens _ := by
    have hzero : (es.map (donation D c c)).sum = 0 := by
      refine List.sum_eq_zero ?_
      intro n hn
      obtain ⟨e, he, rfl⟩ := List.mem_map.mp hn
      exact (h e he).2
    have hsame : donated D c c (w.emit es)
        = donated D c c w + (es.map (donation D c c)).sum :=
      donated_append rfl
    rw [hsame, hzero]
    rfl
  others d _ hne := emit_frame (fun e he => hothers e he d hne)

/-- Value arrives. -/
theorem receiveValue_acts {src : Address} {amount : Nat}
    (hc : D.isCurve c = true) (hsrc : D.isCurve src = false) :
    Acts D c w (w.sendValue src c amount) [] amount 0 0 0 where
  own := (sendValue_frame (D := D) (ne_of_not_curve hc hsrc)).own.trans
    (List.append_nil _).symm
  native := Nat.le_of_eq (move_dst (ne_of_not_curve hc hsrc).symm).symm
  allowance hn := hn
  tokens := (sendValue_frame (ne_of_not_curve hc hsrc)).tokens
  others _ hd _ := sendValue_frame (ne_of_not_curve hd hsrc)

/-- The curve sends value. -/
theorem sendValue_acts {dst : Address} {amount : Nat} (hdst : dst ≠ c)
    (hle : amount ≤ w.native c) :
    Acts D c w (w.sendValue c dst amount) [.native c dst amount] 0 amount 0
      0 where
  own := ownLines_own rfl (beq_self_eq_true c)
  native := by
    have hsrc : (w.sendValue c dst amount).native c = w.native c - amount :=
      move_src hdst.symm
    omega
  allowance hn := hn
  tokens _ := by
    have hsame : donated D c c (w.sendValue c dst amount)
        = donated D c c w + donation D c c (.native c dst amount) :=
      donated_concat rfl
    rw [hsame]
    rfl
  others _ _ hne := sendValue_frame hne

omit [Erc20 Address Revert τ] in
/-- What the curve moves itself is no donation. -/
theorem donated_own {token src dst a : Address} {amount : Nat} {t : τ} :
    donated D c a { w with
      tokens := Function.update w.tokens token t
      journal := w.journal ++ [.token c token src dst amount] }
      = donated D c a w := by
  refine (donated_concat (e := .token c token src dst amount) rfl).trans ?_
  rw [donation, if_neg (fun h => h.1 rfl), Nat.add_zero]

/-- The curve sends its token. -/
theorem safeTransfer_acts {dst : Address} {amount : Nat} (hdst : dst ≠ c)
    (h : w.safeTransfer c (D.tokenOf c) dst amount = .ok w') :
    Acts D c w w' [.token c (D.tokenOf c) c dst amount] 0 0 0 amount := by
  have hothers : ∀ d, D.isCurve d = true → d ≠ c → Frame D d w w' :=
    fun _ _ hne => safeTransfer_frame hne h
  simp only [World.safeTransfer, bind_ok, pure_ok] at h
  obtain ⟨t, ht, rfl⟩ := h
  obtain ⟨hle, hbalance, hallowance⟩ := Erc20.transfer_ok _ _ _ _ _ ht
  refine ⟨ownLines_own rfl (beq_self_eq_true c), Nat.le_refl _, ?_, ?_,
    hothers⟩
  · intro hn s
    simp only [Function.update_self, hallowance]
    exact hn s
  · intro _
    rw [donated_own]
    simp only [World.balanceOf, Function.update_self, hbalance,
      move_src hdst.symm]
    rw [Nat.sub_add_cancel hle]
    rfl

/-- The curve takes tokens that were allowed to it. -/
theorem safeTransferFrom_acts {src : Address} {amount : Nat} (hsrc : src ≠ c)
    (h : w.safeTransferFrom c (D.tokenOf c) src c amount = .ok w') :
    Acts D c w w' [.token c (D.tokenOf c) src c amount] 0 0 amount 0 := by
  have hothers : ∀ d, D.isCurve d = true → d ≠ c → Frame D d w w' :=
    fun _ _ hne => safeTransferFrom_frame hne h
  simp only [World.safeTransferFrom, bind_ok, pure_ok] at h
  obtain ⟨t, ht, rfl⟩ := h
  obtain ⟨-, -, hbalance, hallowance⟩ :=
    Erc20.transferFrom_ok _ _ _ _ _ _ ht
  refine ⟨ownLines_own rfl (beq_self_eq_true c), Nat.le_refl _, ?_, ?_,
    hothers⟩
  · intro hn s
    have hle := hallowance c s
    have h0 := hn s
    simp only [Function.update_self]
    omega
  · intro _
    rw [donated_own]
    simp only [World.balanceOf, Function.update_self, hbalance,
      move_dst hsrc]
    rfl

end Frame

end CurveWorld
