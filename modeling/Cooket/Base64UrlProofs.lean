import Mathlib.Data.List.Basic

/-! # Unpadded URL-safe base64, and UTF-8

    Three bytes are written as four letters of six bits; one or two bytes at
    the end as two or three letters, the bits that are left being zero.  The
    reader skips line ends and does not look at those last bits.  Text becomes
    bytes as UTF-8, and a byte that starts no well-formed sequence is read as
    the replacement character.

    Two round trips: what is encoded is decoded, and what is written as UTF-8
    is read back. -/

namespace Base64Url

/-! ## Letters -/

/-- The letter of a value below 64. -/
def letter (v : Nat) : Char :=
  if v < 26 then Char.ofNat ('A'.toNat + v)
  else if v < 52 then Char.ofNat ('a'.toNat + (v - 26))
  else if v < 62 then Char.ofNat ('0'.toNat + (v - 52))
  else if v = 62 then '-'
  else '_'

/-- The value of a letter. -/
def letterValue (c : Char) : Option Nat :=
  if 'A' ≤ c && c ≤ 'Z' then some (c.toNat - 'A'.toNat)
  else if 'a' ≤ c && c ≤ 'z' then some (c.toNat - 'a'.toNat + 26)
  else if '0' ≤ c && c ≤ '9' then some (c.toNat - '0'.toNat + 52)
  else if c = '-' then some 62
  else if c = '_' then some 63
  else none

def lineEnd (c : Char) : Bool := c = '\n' || c = '\r'

theorem letterValue_letter {v : Nat} (h : v < 64) :
    letterValue (letter v) = some v ∧ lineEnd (letter v) = false := by
  have hall : ∀ v : Fin 64, letterValue (letter v) = some v.val ∧
      lineEnd (letter v) = false := by decide +kernel
  exact hall ⟨v, h⟩

/-! ## Bytes and sextets -/

/-- The six-bit values of the letters. -/
def sextets : List UInt8 → List Nat
  | x :: y :: z :: rest =>
      x.toNat / 4 :: (x.toNat % 4 * 16 + y.toNat / 16) ::
        (y.toNat % 16 * 4 + z.toNat / 64) :: z.toNat % 64 :: sextets rest
  | [x, y] =>
      [x.toNat / 4, x.toNat % 4 * 16 + y.toNat / 16, y.toNat % 16 * 4]
  | [x] => [x.toNat / 4, x.toNat % 4 * 16]
  | [] => []

/-- The bytes of the six-bit values; one value alone is no byte. -/
def bytes : List Nat → Option (List UInt8)
  | a :: b :: c :: d :: rest => do
      let more ← bytes rest
      some (UInt8.ofNat (a * 4 + b / 16) ::
        UInt8.ofNat (b % 16 * 16 + c / 4) ::
        UInt8.ofNat (c % 4 * 64 + d) :: more)
  | [a, b, c] => some [UInt8.ofNat (a * 4 + b / 16),
      UInt8.ofNat (b % 16 * 16 + c / 4)]
  | [a, b] => some [UInt8.ofNat (a * 4 + b / 16)]
  | [_] => none
  | [] => some []

def encode (bs : List UInt8) : List Char := (sextets bs).map letter

def decode (s : List Char) : Option (List UInt8) := do
  let values ← (s.filter fun c => !lineEnd c).mapM letterValue
  bytes values

theorem sextets_lt (bs : List UInt8) : ∀ v ∈ sextets bs, v < 64 := by
  induction bs using sextets.induct with
  | case1 x y z rest ih =>
      have hx := x.toNat_lt
      have hy := y.toNat_lt
      have hz := z.toNat_lt
      intro v hv
      simp only [sextets, List.mem_cons] at hv
      rcases hv with rfl | rfl | rfl | rfl | hv
      · omega
      · omega
      · omega
      · omega
      · exact ih v hv
  | case2 x y =>
      have hx := x.toNat_lt
      have hy := y.toNat_lt
      intro v hv
      simp only [sextets, List.mem_cons, List.not_mem_nil, or_false] at hv
      rcases hv with rfl | rfl | rfl <;> omega
  | case3 x =>
      have hx := x.toNat_lt
      intro v hv
      simp only [sextets, List.mem_cons, List.not_mem_nil, or_false] at hv
      rcases hv with rfl | rfl <;> omega
  | case4 => simp [sextets]

/-- A byte is put together from its bits. -/
theorem ofNat_eq {x : UInt8} {n : Nat} (h : n = x.toNat) :
    UInt8.ofNat n = x := by
  rw [h, UInt8.ofNat_toNat]

theorem bytes_sextets (bs : List UInt8) : bytes (sextets bs) = some bs := by
  induction bs using sextets.induct with
  | case1 x y z rest ih =>
      have hx := x.toNat_lt
      have hy := y.toNat_lt
      have hz := z.toNat_lt
      simp only [sextets, bytes, ih, Option.bind_eq_bind, Option.bind_some]
      rw [@ofNat_eq x _ (by omega), @ofNat_eq y _ (by omega),
        @ofNat_eq z _ (by omega)]
  | case2 x y =>
      have hx := x.toNat_lt
      have hy := y.toNat_lt
      simp only [sextets, bytes]
      rw [@ofNat_eq x _ (by omega), @ofNat_eq y _ (by omega)]
  | case3 x =>
      have hx := x.toNat_lt
      simp only [sextets, bytes]
      rw [@ofNat_eq x _ (by omega)]
  | case4 => rfl

/-- **WHAT IS ENCODED IS DECODED**. -/
theorem decode_encode (bs : List UInt8) : decode (encode bs) = some bs := by
  have hread : ∀ values : List Nat, (∀ v ∈ values, v < 64) →
      ((values.map letter).filter fun c => !lineEnd c).mapM letterValue =
        some values := by
    intro values
    induction values with
    | nil => intro _; rfl
    | cons v rest ih =>
        intro h
        obtain ⟨hvalue, hend⟩ :=
          letterValue_letter (h v (List.mem_cons_self ..))
        have hrest := ih fun w hw => h w (List.mem_cons_of_mem _ hw)
        rw [List.map_cons, List.filter_cons_of_pos (by simp [hend]),
          List.mapM_cons, hvalue, hrest]
        rfl
  rw [decode, encode, hread _ (sextets_lt bs)]
  exact bytes_sextets bs

theorem encode_ne_nil {bs : List UInt8} (h : bs ≠ []) : encode bs ≠ [] := by
  intro hnil
  have hdecode := decode_encode bs
  rw [hnil] at hdecode
  exact h (Option.some.inj hdecode).symm

/-! ## UTF-8 -/

/-- The bytes of a text. -/
def utf8 (s : List Char) : List UInt8 := s.flatMap String.utf8EncodeChar

/-- The characters of the bytes; `skip` bytes belong to one already read. -/
def runesFrom : Nat → List UInt8 → List Char
  | _, [] => []
  | skip + 1, _ :: rest => runesFrom skip rest
  | 0, x :: rest =>
      match (x :: rest).toByteArray.utf8DecodeChar? 0 with
      | some c => c :: runesFrom (c.utf8Size - 1) rest
      | none => Char.ofNat 0xFFFD :: runesFrom 0 rest

def runes (bs : List UInt8) : List Char := runesFrom 0 bs

theorem runesFrom_append (pre rest : List UInt8) :
    runesFrom pre.length (pre ++ rest) = runesFrom 0 rest := by
  induction pre with
  | nil => rfl
  | cons x pre ih => exact ih

/-- **WHAT IS WRITTEN AS UTF-8 IS READ BACK**. -/
theorem runes_utf8 (s : List Char) : runes (utf8 s) = s := by
  induction s with
  | nil => rfl
  | cons c s ih =>
      have hsize : (String.utf8EncodeChar c).length = c.utf8Size :=
        String.length_utf8EncodeChar c
      show runesFrom 0 (String.utf8EncodeChar c ++ utf8 s) = c :: s
      obtain ⟨x, more, hbytes⟩ := List.exists_cons_of_ne_nil
        (@String.utf8EncodeChar_ne_nil c)
      have hdecode : (x :: (more ++ utf8 s)).toByteArray.utf8DecodeChar? 0 =
          some c := by
        have h := @ByteArray.utf8DecodeChar?_utf8EncodeChar_append
          (utf8 s).toByteArray c
        rwa [hbytes, ← List.toByteArray_append] at h
      rw [hbytes] at hsize ⊢
      rw [List.cons_append, runesFrom, hdecode]
      have hskip : c.utf8Size - 1 = more.length := by
        rw [← hsize]
        rfl
      show c :: runesFrom (c.utf8Size - 1) (more ++ utf8 s) = c :: s
      rw [hskip, runesFrom_append]
      exact congrArg (c :: ·) ih

theorem utf8_ne_nil {s : List Char} (h : s ≠ []) : utf8 s ≠ [] := by
  intro hnil
  have hrunes := runes_utf8 s
  rw [hnil] at hrunes
  exact h hrunes.symm

end Base64Url
