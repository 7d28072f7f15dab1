import Cooket.NumeralProofs
import Cooket.SettlementProofs
import Cooket.TradeRowsProofs

/-! # Which side of the pool the launch token is on

    A pool orders its two tokens by address, and three programs work the order
    out for themselves: the graduation manager compares NUMBERS when it sets
    the pool's price, the realtime service compares the BYTES of two addresses,
    and the indexer compares two hexadecimal TEXTS after lower-casing them.

    A wrong order turns every buy into a sell.  All three orders are one: bytes
    and hexadecimal digits are numerals of a fixed width. -/

namespace SwapOrientation

open CheckedArith Contract MarketLog Numeral
open LPVault (CANONICAL_USDC)
open Settlement (expectedSqrtPriceX96 SQRT_PRICE_X96_TOKEN0_LAUNCH
  SQRT_PRICE_X96_TOKEN0_USDC)
open TradeRows (ProjectionError)

/-! ## Texts and bytes -/

abbrev Text := List UInt8

/-- A hexadecimal digit, in ASCII. -/
def hexDigit (upper : Bool) (d : Nat) : UInt8 :=
  if d < 10 then UInt8.ofNat (48 + d)
  else if upper then UInt8.ofNat (55 + d)
  else UInt8.ofNat (87 + d)

/-- `common.Address.Hex`.  The checksum only decides which letters are
    capitals, so it is a parameter. -/
def hexText (upper : Nat → Bool) (a : Address) : Text :=
  48 :: 120 :: (digits 16 40 a).mapIdx fun i d => hexDigit (upper i) d

/-- `strings.ToLower`, of an ASCII text. -/
def toLower (t : Text) : Text :=
  t.map fun c => if 65 ≤ c ∧ c ≤ 90 then c + 32 else c

/-- `common.Address.Bytes`. -/
def addressBytes (a : Address) : List UInt8 :=
  (digits 256 20 a).map UInt8.ofNat

/-- `strings.Compare` and `bytes.Compare`: byte by byte. -/
def compareBytes (x y : List UInt8) : Int :=
  if x < y then -1 else if x = y then 0 else 1

/-- `ArcCanonicalUsdc`. -/
def ArcCanonicalUsdc : Text :=
  "0x3600000000000000000000000000000000000000".toList.map fun c =>
    UInt8.ofNat c.toNat

/-! ## The two readings -/

/-- The test of the indexer. -/
def textFirst (token : Text) : Bool :=
  decide (compareBytes (toLower token) (toLower ArcCanonicalUsdc) < 0)

/-- **`normalizeUniswapV3Swap`**. -/
def normalizeUniswapV3Swap (token : Text) (amount0 amount1 : Int) :
    Except ProjectionError (Side × Nat × Nat) :=
  if amount0.sign = 0 ∨ amount1.sign = 0 ∨ amount0.sign = amount1.sign then
    .error .invalidSwapDeltas
  else
    let (tokenDelta, usdcDelta) :=
      if textFirst token then (amount0, amount1) else (amount1, amount0)
    let side := if tokenDelta.sign < 0 then Side.buy else .sell
    .ok (side, tokenDelta.natAbs, usdcDelta.natAbs)

/-- The test of the realtime service. -/
def bytesFirst (token canonicalUSDC : Address) : Bool :=
  decide (compareBytes (addressBytes token) (addressBytes canonicalUSDC) < 0)

/-- **`decodeSwap`**. -/
def decodeSwap (canonicalUSDC : Address) (market : Market) (entry : Log) :
    Except DecodeError Event :=
  match entry.payload with
  | .swap amount0 amount1 =>
      if amount0.sign = 0 ∨ amount1.sign = 0 ∨
          amount0.sign = amount1.sign then
        .error .invalidSignedDeltas
      else
        let (tokenDelta, usdcDelta) :=
          if bytesFirst market.token canonicalUSDC then (amount0, amount1)
          else (amount1, amount0)
        let side := if tokenDelta.sign < 0 then Side.buy else .sell
        .ok (baseEvent market.token entry.address .uniswapV3 side entry
          tokenDelta.natAbs usdcDelta.natAbs 6)
  | _ => .error .notSwap

/-! ## One order -/

theorem compareBytes_neg {x y : List UInt8} : compareBytes x y < 0 ↔ x < y := by
  rw [compareBytes]
  by_cases hlt : x < y
  · rw [if_pos hlt]
    constructor
    · intro _
      exact hlt
    · intro _
      decide
  · rw [if_neg hlt]
    constructor
    · intro h
      split at h
      · exact absurd h (by decide)
      · exact absurd h (by decide)
    · intro h
      exact absurd h hlt

theorem hexDigit_ordered : Ordered (hexDigit false) 16 := by
  intro d e hd he
  interval_cases d <;> interval_cases e <;> decide

theorem byte_ordered : Ordered UInt8.ofNat 256 := by
  intro d e hd he
  rw [UInt8.lt_iff_toNat_lt, UInt8.toNat_ofNat_of_lt' hd,
    UInt8.toNat_ofNat_of_lt' he]

/-- Lower case forgets the capitals. -/
theorem toLower_hexDigit (upper : Bool) {d : Nat} (hd : d < 16) :
    (if 65 ≤ hexDigit upper d ∧ hexDigit upper d ≤ 90 then
      hexDigit upper d + 32 else hexDigit upper d) = hexDigit false d := by
  cases upper <;> interval_cases d <;> decide

theorem toLower_hexText (upper : Nat → Bool) (a : Address) :
    toLower (hexText upper a) =
      48 :: 120 :: (digits 16 40 a).map (hexDigit false) := by
  have hdigits : ((digits 16 40 a).mapIdx fun i d => hexDigit (upper i) d).map
      (fun c => if 65 ≤ c ∧ c ≤ 90 then c + 32 else c) =
        (digits 16 40 a).map (hexDigit false) := by
    refine List.ext_getElem ?_ ?_
    · rw [List.length_map, List.length_mapIdx, List.length_map]
    · intro i h₁ h₂
      have hi : i < (digits 16 40 (a : Nat)).length := by
        rw [List.length_map] at h₂
        exact h₂
      have hproper := digits_proper (b := 16) (by decide) 40 (a : Nat) _
        (List.getElem_mem hi)
      rw [List.getElem_map, List.getElem_mapIdx, List.getElem_map]
      exact toLower_hexDigit (upper i) hproper
  rw [toLower, hexText, List.map_cons, List.map_cons, hdigits]
  rfl

/-- The constant is the text of the address. -/
theorem toLower_usdc : toLower ArcCanonicalUsdc =
    48 :: 120 :: (digits 16 40 CANONICAL_USDC).map (hexDigit false) := by
  decide +kernel

/-- **THE TEXT SORTS AS THE NUMBER**, whatever its capitals. -/
theorem textFirst_iff (upper : Nat → Bool) (a : Address) :
    textFirst (hexText upper a) = true ↔ a < CANONICAL_USDC := by
  have hwidth : ∀ x : Address, (x : Nat) < 16 ^ 40 := by
    intro x
    exact x.isLt.trans_eq (by norm_num)
  rw [textFirst, decide_eq_true_iff, compareBytes_neg, toLower_hexText,
    toLower_usdc, List.cons_lt_cons_self, List.cons_lt_cons_self,
    hexDigit_ordered.digits_lt_iff (by decide) (hwidth a) (hwidth _)]
  exact Iff.rfl

/-- **AND SO DO THE BYTES**. -/
theorem bytesFirst_iff (a usdc : Address) :
    bytesFirst a usdc = true ↔ a < usdc := by
  have hwidth : ∀ x : Address, (x : Nat) < 256 ^ 20 := by
    intro x
    exact x.isLt.trans_eq (by norm_num)
  rw [bytesFirst, decide_eq_true_iff, compareBytes_neg, addressBytes,
    addressBytes, byte_ordered.digits_lt_iff (by decide) (hwidth a) (hwidth _)]
  exact Iff.rfl

/-- The manager's price tells its order. -/
theorem price_iff {token : Address} {price : Nat}
    (h : expectedSqrtPriceX96 token = .ok price) :
    price = SQRT_PRICE_X96_TOKEN0_LAUNCH ↔ token < CANONICAL_USDC := by
  simp only [expectedSqrtPriceX96, bind_ok, revertIf_ok, pure_ok] at h
  obtain ⟨_, -, rfl⟩ := h
  constructor
  · intro hprice
    by_contra hnot
    rw [if_neg hnot] at hprice
    exact absurd hprice (by decide)
  · intro hlt
    rw [if_pos hlt]

/-! ## The two readings over addresses -/

/-- The reading of the text is the reading of the address. -/
theorem normalize_hexText (upper : Nat → Bool) (token : Address)
    (amount0 amount1 : Int) :
    normalizeUniswapV3Swap (hexText upper token) amount0 amount1 =
      TradeRows.normalizeUniswapV3Swap CANONICAL_USDC token amount0 amount1 := by
  have hfirst := textFirst_iff upper token
  rw [normalizeUniswapV3Swap, TradeRows.normalizeUniswapV3Swap, invalidDeltas]
  by_cases hvalid : amount0.sign = 0 ∨ amount1.sign = 0 ∨
      amount0.sign = amount1.sign
  · rw [if_pos hvalid, if_pos (decide_eq_true hvalid)]
  · have hpass : ¬ decide (amount0.sign = 0 ∨ amount1.sign = 0 ∨
        amount0.sign = amount1.sign) = true :=
      fun h => hvalid (of_decide_eq_true h)
    rw [if_neg hvalid, if_neg hpass, orderDeltas]
    by_cases hlt : token < CANONICAL_USDC
    · rw [if_pos (hfirst.mpr hlt), if_pos hlt]
      rfl
    · rw [if_neg (fun h => hlt (hfirst.mp h)), if_neg hlt]
      rfl

theorem decodeSwap_eq (canonicalUSDC : Address) (market : Market)
    (entry : Log) : decodeSwap canonicalUSDC market entry =
      MarketLog.decodeSwap canonicalUSDC market entry := by
  have hfirst := bytesFirst_iff market.token canonicalUSDC
  rw [decodeSwap.eq_def, MarketLog.decodeSwap.eq_def]
  cases entry.payload with
  | swap amount0 amount1 =>
      dsimp only
      rw [invalidDeltas]
      by_cases hvalid : amount0.sign = 0 ∨ amount1.sign = 0 ∨
          amount0.sign = amount1.sign
      · rw [if_pos hvalid, if_pos (decide_eq_true hvalid)]
      · have hpass : ¬ decide (amount0.sign = 0 ∨ amount1.sign = 0 ∨
            amount0.sign = amount1.sign) = true :=
          fun h => hvalid (of_decide_eq_true h)
        rw [if_neg hvalid, if_neg hpass, orderDeltas]
        by_cases hlt : market.token < canonicalUSDC
        · rw [if_pos (hfirst.mpr hlt), if_pos hlt]
          rfl
        · rw [if_neg (fun h => hlt (hfirst.mp h)), if_neg hlt]
          rfl
  | tokensBought token buyer q => rfl
  | tokensSold token seller q => rfl
  | other => rfl

/-- What a reader of an event sees of a swap. -/
def reading (e : Event) : Side × Nat × Nat :=
  (e.side, e.tokenAmountRaw, e.usdcAmountRaw)

/-- **ONE READING OF EVERY SWAP**: the indexer and the realtime service accept
    the same swaps, with one side and the same amounts, and the order both go
    by is the one the graduation manager set the price by. -/
theorem swap_readings_agree (upper : Nat → Bool) (market : Market)
    (entry : Log) (amount0 amount1 : Int) :
    (normalizeUniswapV3Swap (hexText upper market.token) amount0
        amount1).toOption =
      ((decodeSwap CANONICAL_USDC market
        { entry with payload := .swap amount0 amount1 }).toOption.map
          reading) ∧
    ∀ price, expectedSqrtPriceX96 market.token = .ok price →
      (textFirst (hexText upper market.token) = true ↔
        price = SQRT_PRICE_X96_TOKEN0_LAUNCH) ∧
      (bytesFirst market.token CANONICAL_USDC = true ↔
        price = SQRT_PRICE_X96_TOKEN0_LAUNCH) := by
  constructor
  · rw [normalize_hexText, decodeSwap_eq, TradeRows.normalizeUniswapV3Swap,
      MarketLog.decodeSwap]
    dsimp only
    cases invalidDeltas amount0 amount1 with
    | true => rfl
    | false => rfl
  · intro price hprice
    rw [price_iff hprice]
    exact ⟨textFirst_iff upper market.token, bytesFirst_iff _ _⟩

end SwapOrientation
