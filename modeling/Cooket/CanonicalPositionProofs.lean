import Cooket.LPVaultProofs
import Cooket.NumeralProofs
import Cooket.PoolReservationProofs

/-! # Reading a position out of raw memory

    `CanonicalPositionV3` asks a position manager for a position with a raw
    static call, which may fail or answer any bytes.  The answer is a `bytes`
    value in MEMORY: a word with its length, the bytes, and then whatever else
    the memory holds.  Five words are loaded by their offsets, checked for
    stray high bits and for their sign extension, and compared.

    The vaults and the executor work with positions already decoded.  The last
    section says which decoding of a reply that is. -/

namespace CanonicalPosition

open Contract Numeral
open LPVault (FULL_RANGE_TICK_LOWER FULL_RANGE_TICK_UPPER POOL_FEE Position)
open PoolReservation (Reply)

/-! ## Memory -/

/-- The number that a string of bytes stands for. -/
def bytesValue (bytes : List UInt8) : Nat :=
  value 256 (bytes.map UInt8.toNat)

/-- The 32 bytes of a word. -/
def wordBytes (x : Nat) : List UInt8 := (digits 256 32 x).map UInt8.ofNat

/-- A `bytes memory` value, from its pointer on; `rest` is what lies behind. -/
def bytesInMemory (data : List UInt8) (rest : Nat → UInt8) (i : Nat) : UInt8 :=
  ((wordBytes data.length ++ data)[i]?).getD (rest i)

/-- `mload(add(data, offset))`. -/
def mload (memory : Nat → UInt8) (offset : Nat) : Nat :=
  bytesValue ((List.range 32).map fun i => memory (offset + i))

/-- `signextend(2, x)`: bit 23 fills the word. -/
def signextend2 (x : BitVec 256) : BitVec 256 := (x.setWidth 24).signExtend 256

/-! ## The check -/

def POSITIONS_RETURN_LENGTH : Nat := 384

/-- **`isCanonicalFullRangePosition`**. -/
def isCanonicalFullRangePosition (reply : Reply) (rest : Nat → UInt8)
    (expectedToken0 expectedToken1 : Address) : Bool :=
  if reply.ok = false ∨ reply.data.length ≠ POSITIONS_RETURN_LENGTH then false
  else
    let data := bytesInMemory reply.data rest
    let rawToken0 := mload data 96
    let rawToken1 := mload data 128
    let rawFee := mload data 160
    let rawLower := BitVec.ofNat 256 (mload data 192)
    let rawUpper := BitVec.ofNat 256 (mload data 224)
    if 2 ^ 160 - 1 < rawToken0 ∨ 2 ^ 160 - 1 < rawToken1 ∨
        2 ^ 24 - 1 < rawFee then false
    else
      let tickLower := signextend2 rawLower
      let tickUpper := signextend2 rawUpper
      if rawLower ≠ tickLower ∨ rawUpper ≠ tickUpper then false
      else
        decide (Fin.ofNat (2 ^ 160) rawToken0 = expectedToken0) &&
        decide (Fin.ofNat (2 ^ 160) rawToken1 = expectedToken1) &&
        decide (rawFee = 10000) &&
        decide (tickLower = BitVec.ofInt 256 (-887200)) &&
        decide (tickUpper = BitVec.ofInt 256 887200)

/-! ## The encodings -/

/-- A word of a reply, by its index. -/
def word (data : List UInt8) (i : Nat) : List UInt8 := (data.drop (32 * i)).take 32

/-- The encoding of an unsigned number, or of an address. -/
def abiUint (n : Nat) : List UInt8 := wordBytes n

/-- The encoding of a signed number: two's complement, over the whole word. -/
def abiInt (i : Int) : List UInt8 := wordBytes (i % 2 ^ 256).toNat

/-! ## Words in memory -/

theorem bytes_proper (bytes : List UInt8) :
    Proper 256 (bytes.map UInt8.toNat) := by
  intro d hd
  obtain ⟨c, -, rfl⟩ := List.mem_map.mp hd
  exact c.toNat_lt

theorem bytesValue_lt (bytes : List UInt8) :
    bytesValue bytes < 256 ^ bytes.length := by
  have h := value_lt (bytes_proper bytes)
  rw [List.length_map] at h
  exact h

theorem wordBytes_length (x : Nat) : (wordBytes x).length = 32 := by
  rw [wordBytes, List.length_map, digits_length]

/-- The bytes of a word are its digits. -/
theorem wordBytes_digits (x : Nat) :
    (wordBytes x).map UInt8.toNat = digits 256 32 x := by
  rw [wordBytes, List.map_map]
  refine (List.map_congr_left ?_).trans (List.map_id _)
  intro d hd
  exact UInt8.toNat_ofNat_of_lt' (digits_proper (by decide) 32 x d hd)

/-- **ONE WORD, ONE NUMBER**. -/
theorem eq_wordBytes_iff {bytes : List UInt8} (hlength : bytes.length = 32)
    {x : Nat} (hx : x < 256 ^ 32) : bytes = wordBytes x ↔ bytesValue bytes = x := by
  have hwidth : (bytes.map UInt8.toNat).length = 32 := by
    rw [List.length_map, hlength]
  have hiff := eq_digits_iff (bytes_proper bytes) (x := x) (by rw [hwidth]; exact hx)
  rw [hwidth] at hiff
  rw [bytesValue, ← hiff, ← wordBytes_digits]
  constructor
  · intro h
    rw [h]
  · intro h
    exact List.map_injective_iff.mpr (fun _ _ => UInt8.toNat_inj.mp) h

theorem word_length {data : List UInt8} {i : Nat}
    (h : 32 * (i + 1) ≤ data.length) : (word data i).length = 32 := by
  rw [word, List.length_take, List.length_drop]
  omega

/-- **A LOAD AT A WORD'S OFFSET** reads that word: the length comes first, so
    word `i` is behind `i + 1` others.  What lies behind the bytes is not
    read. -/
theorem mload_word {data : List UInt8} (rest : Nat → UInt8) {i : Nat}
    (h : 32 * (i + 1) ≤ data.length) :
    mload (bytesInMemory data rest) (32 * (i + 1)) = bytesValue (word data i) := by
  rw [mload]
  congr 1
  refine List.ext_getElem ?_ ?_
  · rw [List.length_map, List.length_range, word_length h]
  · intro j hj _
    rw [List.length_map, List.length_range] at hj
    have hin : 32 * (i + 1) + j < (wordBytes data.length ++ data).length := by
      rw [List.length_append, wordBytes_length]
      omega
    have hbehind : (wordBytes data.length).length ≤ 32 * (i + 1) + j := by
      rw [wordBytes_length]
      omega
    rw [List.getElem_map, List.getElem_range, bytesInMemory,
      List.getElem?_eq_getElem hin, Option.getD_some,
      List.getElem_append_right hbehind]
    simp only [word, List.getElem_take, List.getElem_drop, wordBytes_length]
    congr 1
    omega

/-! ## The three kinds of words -/

section Kinds

variable {data : List UInt8} (rest : Nat → UInt8) {i : Nat}

/-- An address without stray bits. -/
theorem address_iff (h : 32 * (i + 1) ≤ data.length) (a : Address) :
    (¬ 2 ^ 160 - 1 < mload (bytesInMemory data rest) (32 * (i + 1)) ∧
      Fin.ofNat (2 ^ 160) (mload (bytesInMemory data rest) (32 * (i + 1))) = a) ↔
    bytesValue (word data i) = a := by
  have ha : (a : Nat) < 2 ^ 160 := a.isLt
  rw [mload_word rest h, Fin.ext_iff, Fin.val_ofNat]
  constructor
  · rintro ⟨hle, heq⟩
    rw [Nat.mod_eq_of_lt (by omega)] at heq
    exact heq
  · intro heq
    rw [heq]
    exact ⟨by omega, Nat.mod_eq_of_lt ha⟩

/-- The word of a signed number. -/
theorem signed_iff (h : 32 * (i + 1) ≤ data.length) (tick : Int) :
    BitVec.ofNat 256 (bytesValue (word data i)) = BitVec.ofInt 256 tick ↔
      bytesValue (word data i) = (tick % 2 ^ 256).toNat := by
  have hnat : (BitVec.ofInt 256 tick).toNat = (tick % 2 ^ 256).toNat :=
    BitVec.toNat_ofInt tick
  have hload : bytesValue (word data i) < 2 ^ 256 := by
    have hbound := bytesValue_lt (word data i)
    rw [word_length h] at hbound
    exact hbound.trans_eq (by norm_num)
  constructor
  · intro heq
    have hraw := congrArg BitVec.toNat heq
    rw [BitVec.toNat_ofNat, Nat.mod_eq_of_lt hload, hnat] at hraw
    exact hraw
  · intro heq
    refine BitVec.eq_of_toNat_eq ?_
    rw [BitVec.toNat_ofNat, Nat.mod_eq_of_lt hload, hnat, heq]

/-- A tick whose word is its sign extension.  The constant must be its own. -/
theorem tick_iff (h : 32 * (i + 1) ≤ data.length) {tick : Int}
    (htick : signextend2 (BitVec.ofInt 256 tick) = BitVec.ofInt 256 tick) :
    (BitVec.ofNat 256 (mload (bytesInMemory data rest) (32 * (i + 1))) =
        signextend2 (BitVec.ofNat 256
          (mload (bytesInMemory data rest) (32 * (i + 1)))) ∧
      signextend2 (BitVec.ofNat 256
        (mload (bytesInMemory data rest) (32 * (i + 1)))) =
          BitVec.ofInt 256 tick) ↔
    bytesValue (word data i) = (tick % 2 ^ 256).toNat := by
  rw [mload_word rest h, ← signed_iff h]
  constructor
  · rintro ⟨hsame, heq⟩
    exact hsame.trans heq
  · intro heq
    rw [heq, htick]
    exact ⟨rfl, rfl⟩

/-- The two ticks are canonical. -/
theorem ticks_extended :
    signextend2 (BitVec.ofInt 256 (-887200)) = BitVec.ofInt 256 (-887200) ∧
    signextend2 (BitVec.ofInt 256 887200) = BitVec.ofInt 256 887200 := by
  decide +kernel

end Kinds

/-- The check, in the numbers of the words. -/
theorem isCanonical_words (reply : Reply) (rest : Nat → UInt8)
    (token0 token1 : Address) :
    isCanonicalFullRangePosition reply rest token0 token1 = true ↔
      reply.ok = true ∧ reply.data.length = 384 ∧
      bytesValue (word reply.data 2) = token0 ∧
      bytesValue (word reply.data 3) = token1 ∧
      bytesValue (word reply.data 4) = 10000 ∧
      bytesValue (word reply.data 5) = ((-887200 : Int) % 2 ^ 256).toNat ∧
      bytesValue (word reply.data 6) = ((887200 : Int) % 2 ^ 256).toNat := by
  rw [isCanonicalFullRangePosition]
  by_cases hreply : reply.ok = false ∨
      reply.data.length ≠ POSITIONS_RETURN_LENGTH
  · rw [if_pos hreply]
    constructor
    · intro h
      exact absurd h Bool.false_ne_true
    · rintro ⟨hok, hlength, -⟩
      rcases hreply with hnot | hnot
      · rw [hok] at hnot
        exact absurd hnot (by decide)
      · exact absurd hlength hnot
  · rw [if_neg hreply]
    rw [not_or, not_not, Bool.not_eq_false] at hreply
    obtain ⟨hok, hlength⟩ := hreply
    have hlength : reply.data.length = 384 := hlength
    have hword : ∀ i ≤ 6, 32 * (i + 1) ≤ reply.data.length := by
      intro i hi
      omega
    have h2 := address_iff rest (hword 2 (by decide)) token0
    have h3 := address_iff rest (hword 3 (by decide)) token1
    have h4 := mload_word rest (hword 4 (by decide))
    have h5 := tick_iff rest (hword 5 (by decide)) ticks_extended.1
    have h6 := tick_iff rest (hword 6 (by decide)) ticks_extended.2
    rw [← h2, ← h3, ← h4, ← h5, ← h6]
    dsimp only
    constructor
    · intro h
      split at h
      · exact absurd h Bool.false_ne_true
      · next hraw =>
        split at h
        · exact absurd h Bool.false_ne_true
        · next hticks =>
          simp only [not_or, ne_eq, not_not] at hraw hticks
          simp only [Bool.and_eq_true, decide_eq_true_eq] at h
          obtain ⟨⟨⟨⟨ht0, ht1⟩, hfee⟩, hlower⟩, hupper⟩ := h
          exact ⟨hok, hlength, ⟨hraw.1, ht0⟩, ⟨hraw.2.1, ht1⟩, hfee,
            ⟨hticks.1, hlower⟩, ⟨hticks.2, hupper⟩⟩
    · rintro ⟨-, -, ⟨hraw0, ht0⟩, ⟨hraw1, ht1⟩, hfee, ⟨hlow, hlower⟩,
        ⟨hup, hupper⟩⟩
      have hfee : mload (bytesInMemory reply.data rest) 160 = 10000 := hfee
      have hraw2 : ¬ 2 ^ 24 - 1 <
          mload (bytesInMemory reply.data rest) 160 := by
        rw [hfee]
        decide
      rw [if_neg (not_or.mpr ⟨hraw0, not_or.mpr ⟨hraw1, hraw2⟩⟩),
        if_neg (not_or.mpr ⟨not_not.mpr hlow, not_not.mpr hup⟩)]
      simp only [Bool.and_eq_true, decide_eq_true_eq]
      exact ⟨⟨⟨⟨ht0, ht1⟩, hfee⟩, hlower⟩, hupper⟩

/-! ## The law -/

/-- **WHAT COUNTS AS A FULL-RANGE POSITION**: a successful reply of twelve words
    of which the five are, byte for byte, the canonical encodings.  What else
    the memory holds plays no part. -/
theorem canonical_position_iff (reply : Reply) (rest : Nat → UInt8)
    (token0 token1 : Address) :
    isCanonicalFullRangePosition reply rest token0 token1 = true ↔
      reply.ok = true ∧ reply.data.length = 384 ∧
      word reply.data 2 = abiUint token0 ∧ word reply.data 3 = abiUint token1 ∧
      word reply.data 4 = abiUint 10000 ∧
      word reply.data 5 = abiInt (-887200) ∧
      word reply.data 6 = abiInt 887200 := by
  rw [isCanonical_words]
  refine and_congr_right fun _ => and_congr_right fun hlength => ?_
  have hword : ∀ i ≤ 6, (word reply.data i).length = 32 := by
    intro i hi
    exact word_length (by omega)
  have haddress : ∀ a : Address, (a : Nat) < 256 ^ 32 := by
    intro a
    exact a.isLt.trans (by norm_num)
  rw [abiUint, abiUint, abiUint, abiInt, abiInt,
    eq_wordBytes_iff (hword 2 (by decide)) (haddress token0),
    eq_wordBytes_iff (hword 3 (by decide)) (haddress token1),
    eq_wordBytes_iff (hword 4 (by decide)) (by norm_num),
    eq_wordBytes_iff (hword 5 (by decide)) (by decide +kernel),
    eq_wordBytes_iff (hword 6 (by decide)) (by decide +kernel)]

/-! ## The decoded answer -/

/-- The decoding of a reply that the vaults and the executor go by. -/
def positionOf (reply : Reply) : Option Position :=
  if h : reply.ok = true ∧ reply.data.length = 384 ∧
      bytesValue (word reply.data 2) < 2 ^ 160 ∧
      bytesValue (word reply.data 3) < 2 ^ 160 then
    some ⟨⟨_, h.2.2.1⟩, ⟨_, h.2.2.2⟩, bytesValue (word reply.data 4),
      (BitVec.ofNat 256 (bytesValue (word reply.data 5))).toInt,
      (BitVec.ofNat 256 (bytesValue (word reply.data 6))).toInt⟩
  else none

/-- A tick's word, as the signed number it stands for. -/
theorem toInt_iff {data : List UInt8} {i : Nat}
    (h : 32 * (i + 1) ≤ data.length) {tick : Int}
    (htick : (BitVec.ofInt 256 tick).toInt = tick) :
    (BitVec.ofNat 256 (bytesValue (word data i))).toInt = tick ↔
      bytesValue (word data i) = (tick % 2 ^ 256).toNat := by
  rw [← signed_iff h]
  constructor
  · intro heq
    exact BitVec.eq_of_toInt_eq (heq.trans htick.symm)
  · intro heq
    rw [heq, htick]

/-- **THE CHECK OF THE RAW REPLY IS THE CHECK OF THE DECODED ONE**. -/
theorem isCanonical_decoded (reply : Reply) (rest : Nat → UInt8)
    (token0 token1 : Address) :
    isCanonicalFullRangePosition reply rest token0 token1 =
      LPVault.isCanonicalFullRangePosition (positionOf reply)
        (token0, token1) := by
  rw [Bool.eq_iff_iff, isCanonical_words, LPVault.isCanonicalFullRangePosition,
    beq_iff_eq, positionOf]
  constructor
  · rintro ⟨hok, hlength, h2, h3, h4, h5, h6⟩
    have hlower := (toInt_iff (by omega) (by decide +kernel)).mpr h5
    have hupper := (toInt_iff (by omega) (by decide +kernel)).mpr h6
    rw [dif_pos ⟨hok, hlength, h2 ▸ token0.isLt, h3 ▸ token1.isLt⟩]
    simp only [h2, h3, h4, hlower, hupper]
    rfl
  · intro h
    split at h
    · next hguard =>
      have hlength := hguard.2.1
      have h := Option.some.inj h
      refine ⟨hguard.1, hlength, ?_, ?_, congrArg Position.fee h, ?_, ?_⟩
      · exact congrArg (fun p => (p.token0 : Nat)) h
      · exact congrArg (fun p => (p.token1 : Nat)) h
      · exact (toInt_iff (by omega) (by decide +kernel)).mp
          (congrArg Position.tickLower h)
      · exact (toInt_iff (by omega) (by decide +kernel)).mp
          (congrArg Position.tickUpper h)
    · cases h

end CanonicalPosition
