import Mathlib.Data.List.Basic
import Mathlib.Data.Nat.Digits.Defs

/-! # JSON texts

    A reader of JSON texts and a writer of flat objects, as Go's
    `encoding/json` reads and writes them: white space between tokens, the
    escapes of a string, surrogate pairs, the grammar of a number.  The writer
    escapes control characters, quotes, the characters of HTML and the two
    line separators.

    `parse_printObject` is the round trip: a flat object of strings and
    integers is read back member by member. -/

namespace JsonText

/-- A JSON value; a number keeps its text. -/
inductive Json where
  | null
  | bool (b : Bool)
  | number (text : List Char)
  | string (s : List Char)
  | array (items : List Json)
  | object (members : List (List Char × Json))

/-! ## Tokens -/

def isSpace (c : Char) : Bool := c = ' ' || c = '\t' || c = '\n' || c = '\r'

def skip (s : List Char) : List Char := s.dropWhile isSpace

/-- The text after one character and the space before it. -/
def expect (c : Char) (s : List Char) : Option (List Char) :=
  match skip s with
  | x :: rest => if x = c then some rest else none
  | [] => none

/-- The text after a word. -/
def word (w s : List Char) : Option (List Char) :=
  if w.isPrefixOf s then some (s.drop w.length) else none

/-! ## Strings -/

def hexDigit (d : Nat) : Char :=
  if d < 10 then Char.ofNat ('0'.toNat + d) else Char.ofNat ('a'.toNat + d - 10)

def hexValue (c : Char) : Option Nat :=
  if '0' ≤ c && c ≤ '9' then some (c.toNat - '0'.toNat)
  else if 'a' ≤ c && c ≤ 'f' then some (c.toNat - 'a'.toNat + 10)
  else if 'A' ≤ c && c ≤ 'F' then some (c.toNat - 'A'.toNat + 10)
  else none

def hex4 (a b c d : Char) : Option Nat := do
  let a ← hexValue a
  let b ← hexValue b
  let c ← hexValue c
  let d ← hexValue d
  some (((a * 16 + b) * 16 + c) * 16 + d)

/-- The code unit of an escape of one letter. -/
def escaped (c : Char) : Option Nat :=
  if c = '"' || c = '\\' || c = '/' then some c.toNat
  else if c = 'b' then some 8
  else if c = 'f' then some 12
  else if c = 'n' then some 10
  else if c = 'r' then some 13
  else if c = 't' then some 9
  else none

/-- The code units up to the closing quote, and the text after it. -/
def stringBody : List Char → Option (List Nat × List Char)
  | [] => none
  | c :: rest =>
      if c = '"' then some ([], rest)
      else if c = '\\' then
        match rest with
        | [] => none
        | e :: rest =>
            if e = 'u' then
              match rest with
              | a :: b :: c :: d :: rest =>
                  (hex4 a b c d).bind fun n =>
                    (stringBody rest).map fun p => (n :: p.1, p.2)
              | _ => none
            else
              (escaped e).bind fun n =>
                (stringBody rest).map fun p => (n :: p.1, p.2)
      else if c.toNat < 0x20 then none
      else (stringBody rest).map fun p => (c.toNat :: p.1, p.2)

def isHigh (n : Nat) : Bool := 0xD800 ≤ n && n ≤ 0xDBFF
def isLow (n : Nat) : Bool := 0xDC00 ≤ n && n ≤ 0xDFFF

/-- A code unit on its own; half of a pair is replaced. -/
def unit (n : Nat) : Char :=
  if isHigh n || isLow n then Char.ofNat 0xFFFD else Char.ofNat n

/-- Pairs of surrogates are one character. -/
def combine : List Nat → List Char
  | high :: low :: rest =>
      if isHigh high && isLow low then
        Char.ofNat (0x10000 + (high - 0xD800) * 0x400 + (low - 0xDC00)) ::
          combine rest
      else unit high :: combine (low :: rest)
  | [n] => [unit n]
  | [] => []

/-- The string whose opening quote was read. -/
def string (s : List Char) : Option (List Char × List Char) :=
  (stringBody s).map fun p => (combine p.1, p.2)

/-! ## Numbers -/

def minus : List Char → List Char × List Char
  | c :: rest => if c = '-' then (['-'], rest) else ([], c :: rest)
  | [] => ([], [])

def digits (s : List Char) : List Char × List Char :=
  (s.takeWhile Char.isDigit, s.dropWhile Char.isDigit)

/-- No zero before other digits. -/
def whole : List Char → Option (List Char × List Char)
  | c :: rest =>
      if c = '0' then some (['0'], rest)
      else if c.isDigit then some (c :: (digits rest).1, (digits rest).2)
      else none
  | [] => none

def fraction : List Char → Option (List Char × List Char)
  | c :: rest =>
      if c = '.' then
        if (digits rest).1 = [] then none
        else some ('.' :: (digits rest).1, (digits rest).2)
      else some ([], c :: rest)
  | [] => some ([], [])

/-- The sign of an exponent. -/
def plusMinus : List Char → List Char × List Char
  | c :: rest => if c = '+' || c = '-' then ([c], rest) else ([], c :: rest)
  | [] => ([], [])

def exponent : List Char → Option (List Char × List Char)
  | c :: rest =>
      if c = 'e' || c = 'E' then
        let (sign, rest) := plusMinus rest
        if (digits rest).1 = [] then none
        else some (c :: sign ++ (digits rest).1, (digits rest).2)
      else some ([], c :: rest)
  | [] => some ([], [])

/-- The text of a number, and the text after it. -/
def number (s : List Char) : Option (List Char × List Char) := do
  let (m, s) := minus s
  let (w, s) ← whole s
  let (f, s) ← fraction s
  let (e, s) ← exponent s
  some (m ++ w ++ f ++ e, s)

/-! ## Values -/

/-- A word or a number. -/
def scalar (s : List Char) : Option (Json × List Char) :=
  match word "true".toList s, word "false".toList s, word "null".toList s with
  | some rest, _, _ => some (.bool true, rest)
  | _, some rest, _ => some (.bool false, rest)
  | _, _, some rest => some (.null, rest)
  | none, none, none => (number s).map fun p => (.number p.1, p.2)

mutual

/-- A value, and the text after it. -/
def value : Nat → List Char → Option (Json × List Char)
  | 0, _ => none
  | fuel + 1, s =>
      match expect '"' s, expect '\x7b' s, expect '[' s with
      | some s, _, _ => (string s).map fun p => (.string p.1, p.2)
      | _, some s, _ =>
          match expect '\x7d' s with
          | some s => some (.object [], s)
          | none => (members fuel s).map fun p => (.object p.1, p.2)
      | _, _, some s =>
          match expect ']' s with
          | some s => some (.array [], s)
          | none => (elements fuel s).map fun p => (.array p.1, p.2)
      | none, none, none => scalar (skip s)

/-- The members of an object up to its closing brace. -/
def members : Nat → List Char →
    Option (List (List Char × Json) × List Char)
  | 0, _ => none
  | fuel + 1, s => do
      let s ← expect '"' s
      let (key, s) ← string s
      let s ← expect ':' s
      let (v, s) ← value fuel s
      match expect ',' s with
      | some s => (members fuel s).map fun p => ((key, v) :: p.1, p.2)
      | none => (expect '\x7d' s).map fun s => ([(key, v)], s)

/-- The elements of an array up to its closing bracket. -/
def elements : Nat → List Char → Option (List Json × List Char)
  | 0, _ => none
  | fuel + 1, s => do
      let (v, s) ← value fuel s
      match expect ',' s with
      | some s => (elements fuel s).map fun p => (v :: p.1, p.2)
      | none => (expect ']' s).map fun s => ([v], s)

end

/-- The value of a text; every level and element of it has a character. -/
def parse (s : List Char) : Option Json := do
  let (v, rest) ← value (s.length + 1) s
  if skip rest = [] then some v else none

/-! ## Writing -/

/-- What a flat object holds. -/
inductive Scalar where
  | text (s : List Char)
  | int (n : ℤ)
  deriving DecidableEq

def unicode (n : Nat) : List Char :=
  ['\\', 'u', hexDigit (n / 4096), hexDigit (n / 256 % 16),
    hexDigit (n / 16 % 16), hexDigit (n % 16)]

def escape (c : Char) : List Char :=
  if c = '"' then ['\\', '"']
  else if c = '\\' then ['\\', '\\']
  else if c.toNat = 8 then ['\\', 'b']
  else if c.toNat = 12 then ['\\', 'f']
  else if c.toNat = 10 then ['\\', 'n']
  else if c.toNat = 13 then ['\\', 'r']
  else if c.toNat = 9 then ['\\', 't']
  else if c.toNat < 0x20 || c = '<' || c = '>' || c = '&' ||
      c.toNat = 0x2028 || c.toNat = 0x2029 then unicode c.toNat
  else [c]

def quote (s : List Char) : List Char :=
  '"' :: s.flatMap escape ++ ['"']

def decimal : ℤ → List Char
  | .ofNat n => Nat.toDigits 10 n
  | .negSucc n => '-' :: Nat.toDigits 10 (n + 1)

def Scalar.print : Scalar → List Char
  | .text s => quote s
  | .int n => decimal n

/-- The value a reader gets for it. -/
def Scalar.json : Scalar → Json
  | .text s => .string s
  | .int n => .number (decimal n)

/-- The members with the commas between them and the closing brace. -/
def printMembers : List (List Char × Scalar) → List Char
  | [] => ['\x7d']
  | [(k, v)] => quote k ++ ':' :: v.print ++ ['\x7d']
  | (k, v) :: rest => quote k ++ ':' :: v.print ++ ',' :: printMembers rest

def printObject (ms : List (List Char × Scalar)) : List Char :=
  '\x7b' :: printMembers ms

/-- `strconv.ParseInt(s, 10, 64)`. -/
def parseInt64 (s : List Char) : Option ℤ :=
  let (sign, s) := plusMinus s
  if s = [] || !s.all Char.isDigit then none
  else
    let m : ℤ := Nat.ofDigitChars 10 s 0
    let n := if sign = ['-'] then -m else m
    if -2 ^ 63 ≤ n && n < 2 ^ 63 then some n else none

/-! ## Strings are read back -/

theorem hexValue_hexDigit {d : Nat} (h : d < 16) :
    hexValue (hexDigit d) = some d := by
  have hall : ∀ d : Fin 16, hexValue (hexDigit d) = some d.val := by
    decide +kernel
  exact hall ⟨d, h⟩

theorem stringBody_unicode {n : Nat} (h : n < 65536) (rest : List Char) :
    stringBody (unicode n ++ rest) =
      (stringBody rest).map fun p => (n :: p.1, p.2) := by
  have hhex : hex4 (hexDigit (n / 4096)) (hexDigit (n / 256 % 16))
      (hexDigit (n / 16 % 16)) (hexDigit (n % 16)) = some n := by
    simp only [hex4, hexValue_hexDigit (show n / 4096 < 16 by omega),
      hexValue_hexDigit (show n / 256 % 16 < 16 by omega),
      hexValue_hexDigit (show n / 16 % 16 < 16 by omega),
      hexValue_hexDigit (show n % 16 < 16 by omega),
      Option.bind_eq_bind, Option.bind_some, Option.some.injEq]
    omega
  simp [unicode, stringBody, hhex]

theorem stringBody_escaped {e : Char} {n : Nat} (he : e ≠ 'u')
    (hn : escaped e = some n) (rest : List Char) :
    stringBody ('\\' :: e :: rest) =
      (stringBody rest).map fun p => (n :: p.1, p.2) := by
  rw [stringBody.eq_def]
  simp [he, hn]

theorem stringBody_plain {c : Char} (hquote : c ≠ '"') (hslash : c ≠ '\\')
    (hlow : ¬ c.toNat < 0x20) (rest : List Char) :
    stringBody (c :: rest) =
      (stringBody rest).map fun p => (c.toNat :: p.1, p.2) := by
  rw [stringBody.eq_def]
  simp [hquote, hslash, hlow]

/-- One escaped character is one code unit. -/
theorem stringBody_escape (c : Char) (rest : List Char) :
    stringBody (escape c ++ rest) =
      (stringBody rest).map fun p => (c.toNat :: p.1, p.2) := by
  unfold escape
  split_ifs with hquote hslash hb hf hn hr ht hcode
  · subst hquote
    exact stringBody_escaped (by decide) (by decide) rest
  · subst hslash
    exact stringBody_escaped (by decide) (by decide) rest
  · rw [hb]
    exact stringBody_escaped (by decide) (by decide) rest
  · rw [hf]
    exact stringBody_escaped (by decide) (by decide) rest
  · rw [hn]
    exact stringBody_escaped (by decide) (by decide) rest
  · rw [hr]
    exact stringBody_escaped (by decide) (by decide) rest
  · rw [ht]
    exact stringBody_escaped (by decide) (by decide) rest
  · refine stringBody_unicode ?_ rest
    simp only [Bool.or_eq_true, decide_eq_true_eq] at hcode
    rcases hcode with ((((h | rfl) | rfl) | rfl) | h) | h
    · omega
    · decide
    · decide
    · decide
    · omega
    · omega
  · have hlow : ¬ c.toNat < 0x20 := by
      simp only [Bool.or_eq_true, decide_eq_true_eq, not_or] at hcode
      exact hcode.1.1.1.1.1
    exact stringBody_plain hquote hslash hlow rest

theorem stringBody_quoted (s rest : List Char) :
    stringBody (s.flatMap escape ++ '"' :: rest) =
      some (s.map Char.toNat, rest) := by
  induction s with
  | nil =>
      rw [List.flatMap_nil, List.nil_append, stringBody.eq_def]
      rfl
  | cons c s ih =>
      rw [List.flatMap_cons, List.append_assoc, stringBody_escape, ih]
      rfl

/-- No character is half of a surrogate pair. -/
theorem not_surrogate (c : Char) :
    isHigh c.toNat = false ∧ isLow c.toNat = false := by
  have hvalid : c.toNat < 0xD800 ∨ 0xDFFF < c.toNat ∧ c.toNat < 0x110000 :=
    c.valid
  constructor
  · simp only [isHigh, Bool.and_eq_false_iff, decide_eq_false_iff_not]
    omega
  · simp only [isLow, Bool.and_eq_false_iff, decide_eq_false_iff_not]
    omega

theorem combine_toNat (s : List Char) : combine (s.map Char.toNat) = s := by
  have hunit : ∀ c : Char, unit c.toNat = c := by
    intro c
    obtain ⟨hhigh, hlow⟩ := not_surrogate c
    simp [unit, hhigh, hlow]
  induction s with
  | nil => rfl
  | cons c s ih =>
      cases s with
      | nil => exact congrArg (fun x => [x]) (hunit c)
      | cons d s =>
          obtain ⟨hhigh, -⟩ := not_surrogate c
          simp only [List.map_cons, combine, hhigh, Bool.false_and,
            Bool.false_eq_true, if_false, hunit]
          exact congrArg (c :: ·) ih

/-- **A QUOTED STRING IS READ BACK**. -/
theorem string_quote (s rest : List Char) :
    string (s.flatMap escape ++ '"' :: rest) = some (s, rest) := by
  rw [string, stringBody_quoted]
  exact congrArg (fun t => some (t, rest)) (combine_toNat s)

/-! ## Tokens of a printed object -/

theorem expect_self {c : Char} (h : isSpace c = false) (rest : List Char) :
    expect c (c :: rest) = some rest := by
  simp [expect, skip, h]

theorem expect_other {c d : Char} (h : isSpace d = false) (hne : d ≠ c)
    (rest : List Char) : expect c (d :: rest) = none := by
  simp [expect, skip, h, hne]

/-! ## Integers are read back -/

theorem toDigits_isDigit {n : Nat} {c : Char} (h : c ∈ Nat.toDigits 10 n) :
    c.isDigit = true := Nat.isDigit_of_mem_toDigits (by omega) (by omega) h

/-- The digits of a number start with a zero only where it is zero. -/
theorem toDigits_cases (n : Nat) : Nat.toDigits 10 n = ['0'] ∨
    ∃ c rest, Nat.toDigits 10 n = c :: rest ∧ c ≠ '0' := by
  induction n using Nat.strongRecOn with
  | ind n ih =>
      rcases Nat.lt_or_ge n 10 with h | h
      · rw [Nat.toDigits_of_lt_base h]
        rcases Nat.eq_zero_or_pos n with rfl | hpos
        · exact Or.inl rfl
        · refine Or.inr ⟨_, [], rfl, ?_⟩
          have hall : ∀ d : Fin 10, 0 < d.val → d.val.digitChar ≠ '0' := by
            decide
          exact hall ⟨n, h⟩ hpos
      · rw [Nat.toDigits_of_base_le (by omega) h]
        rcases ih (n / 10) (by omega) with hzero | ⟨c, rest, heq, hne⟩
        · have hvalue := @Nat.ofDigitChars_ten_toDigits (n / 10)
          rw [hzero] at hvalue
          have hnum : Nat.ofDigitChars 10 ['0'] 0 = 0 := by decide
          omega
        · refine Or.inr ⟨c, rest ++ [(n % 10).digitChar], ?_, hne⟩
          rw [heq]
          rfl

/-- What may follow a number in an object. -/
def Stops (rest : List Char) : Prop :=
  ∃ c more, rest = c :: more ∧ (c = ',' ∨ c = '\x7d')

theorem digits_stops {ds rest : List Char}
    (hds : ∀ c ∈ ds, c.isDigit = true) (hrest : Stops rest) :
    digits (ds ++ rest) = (ds, rest) := by
  obtain ⟨c, more, rfl, hc⟩ := hrest
  have hnot : c.isDigit = false := by
    rcases hc with rfl | rfl <;> decide
  rw [digits, List.takeWhile_append_of_pos hds,
    List.dropWhile_append_of_pos hds]
  simp [hnot]

theorem whole_toDigits (n : Nat) {rest : List Char} (hrest : Stops rest) :
    whole (Nat.toDigits 10 n ++ rest) = some (Nat.toDigits 10 n, rest) := by
  rcases toDigits_cases n with hzero | ⟨c, ds, heq, hne⟩
  · rw [hzero]
    rfl
  · have hall : ∀ d ∈ c :: ds, d.isDigit = true := by
      intro d hd
      rw [← heq] at hd
      exact toDigits_isDigit hd
    rw [heq, List.cons_append, whole, if_neg hne,
      if_pos (hall c (List.mem_cons_self ..)),
      digits_stops (fun d hd => hall d (List.mem_cons_of_mem _ hd)) hrest]

theorem number_decimal (n : ℤ) {rest : List Char} (hrest : Stops rest) :
    number (decimal n ++ rest) = some (decimal n, rest) := by
  have hfraction : fraction rest = some ([], rest) := by
    obtain ⟨c, more, rfl, rfl | rfl⟩ := hrest <;> rfl
  have hexponent : exponent rest = some ([], rest) := by
    obtain ⟨c, more, rfl, rfl | rfl⟩ := hrest <;> rfl
  cases n with
  | ofNat n =>
      have hminus : minus (Nat.toDigits 10 n ++ rest) =
          ([], Nat.toDigits 10 n ++ rest) := by
        rcases h : Nat.toDigits 10 n with _ | ⟨c, ds⟩
        · exact absurd h Nat.toDigits_ne_nil
        · have hdigit : c.isDigit = true :=
            toDigits_isDigit (n := n) (by rw [h]; exact List.mem_cons_self ..)
          have hne : c ≠ '-' := by
            rintro rfl
            exact absurd hdigit (by decide)
          simp [minus, hne]
      simp only [number, decimal, hminus, whole_toDigits n hrest, hfraction,
        hexponent, Option.bind_eq_bind, Option.bind_some, List.nil_append,
        List.append_nil]
  | negSucc n =>
      simp only [number, decimal, List.cons_append, minus, if_true,
        whole_toDigits (n + 1) hrest, hfraction, hexponent,
        Option.bind_eq_bind, Option.bind_some, List.nil_append,
        List.append_nil]

/-- The first character of a number. -/
theorem decimal_head (n : ℤ) :
    ∃ c rest, decimal n = c :: rest ∧ (c = '-' ∨ c.isDigit = true) := by
  cases n with
  | negSucc n => exact ⟨'-', _, rfl, Or.inl rfl⟩
  | ofNat n =>
      rcases h : Nat.toDigits 10 n with _ | ⟨c, ds⟩
      · exact absurd h Nat.toDigits_ne_nil
      · exact ⟨c, ds, h, Or.inr (toDigits_isDigit (n := n)
          (by rw [h]; exact List.mem_cons_self ..))⟩

theorem parseInt64_digits {s sign : List Char} {m : Nat} {n : ℤ}
    (hsign : plusMinus s = (sign, Nat.toDigits 10 m))
    (hn : (if sign = ['-'] then -(m : ℤ) else m) = n)
    (h : -2 ^ 63 ≤ n ∧ n < 2 ^ 63) : parseInt64 s = some n := by
  have hdigits : (Nat.toDigits 10 m).all Char.isDigit = true :=
    List.all_eq_true.mpr fun _ hc => toDigits_isDigit hc
  have hguard : (Nat.toDigits 10 m = [] ||
      !(Nat.toDigits 10 m).all Char.isDigit) = false := by
    simp [hdigits, Nat.toDigits_ne_nil]
  have hrange : (decide (-2 ^ 63 ≤ n) && decide (n < 2 ^ 63)) = true := by
    simp only [h, decide_true, Bool.and_self]
  rw [parseInt64, hsign]
  simp only [hguard, Bool.false_eq_true, if_false,
    Nat.ofDigitChars_ten_toDigits, hn, hrange, if_true]

/-- **AN INTEGER OF 64 BITS IS READ BACK**. -/
theorem parseInt64_decimal {n : ℤ} (h : -2 ^ 63 ≤ n ∧ n < 2 ^ 63) :
    parseInt64 (decimal n) = some n := by
  cases n with
  | negSucc m => exact @parseInt64_digits _ ['-'] (m + 1) _ rfl rfl h
  | ofNat m =>
      refine @parseInt64_digits _ [] m _ ?_ rfl h
      rcases hds : Nat.toDigits 10 m with _ | ⟨c, ds⟩
      · exact absurd hds Nat.toDigits_ne_nil
      · have hdigit : c.isDigit = true := toDigits_isDigit (n := m)
          (by rw [hds]; exact List.mem_cons_self ..)
        have hplus : c ≠ '+' := by
          rintro rfl
          exact absurd hdigit (by decide)
        have hminus : c ≠ '-' := by
          rintro rfl
          exact absurd hdigit (by decide)
        rw [decimal, hds]
        simp [plusMinus, hplus, hminus]

/-! ## Objects are read back -/

/-- A printed string or integer is read back. -/
theorem value_print (v : Scalar) (fuel : Nat) {rest : List Char}
    (hrest : Stops rest) :
    value (fuel + 1) (v.print ++ rest) = some (v.json, rest) := by
  cases v with
  | text s =>
      have htext : (Scalar.text s).print ++ rest =
          '"' :: (s.flatMap escape ++ '"' :: rest) := by
        simp [Scalar.print, quote]
      rw [htext, value, expect_self (by decide)]
      simp only [string_quote]
      rfl
  | int n =>
      obtain ⟨c, more, heq, hc⟩ := decimal_head n
      have hspace : isSpace c = false := by
        rcases hc with rfl | hc
        · decide
        · rw [isSpace]
          by_contra hne
          simp only [Bool.not_eq_false, Bool.or_eq_true,
            decide_eq_true_eq] at hne
          rcases hne with ((rfl | rfl) | rfl) | rfl <;>
            exact absurd hc (by decide)
      have hother : ∀ d : Char, d ≠ '-' → d.isDigit = false → c ≠ d := by
        rintro d hminus hdigit rfl
        rcases hc with h | h
        · exact hminus h
        · rw [h] at hdigit
          cases hdigit
      have hword : ∀ (d : Char) (w : List Char), c ≠ d →
          word (d :: w) (c :: (more ++ rest)) = none := by
        intro d w hne
        simp [word, List.isPrefixOf, hne.symm]
      have hnumber := number_decimal n hrest
      rw [heq, List.cons_append] at hnumber
      have hskip : skip (c :: (more ++ rest)) = c :: (more ++ rest) := by
        simp [skip, hspace]
      show value (fuel + 1) (decimal n ++ rest) = _
      rw [heq, List.cons_append, value,
        expect_other hspace (hother _ (by decide) (by decide)),
        expect_other hspace (hother _ (by decide) (by decide)),
        expect_other hspace (hother _ (by decide) (by decide))]
      simp only [hskip, scalar]
      rw [show "true".toList = 't' :: ['r', 'u', 'e'] from rfl,
        show "false".toList = 'f' :: ['a', 'l', 's', 'e'] from rfl,
        show "null".toList = 'n' :: ['u', 'l', 'l'] from rfl,
        hword _ _ (hother _ (by decide) (by decide)),
        hword _ _ (hother _ (by decide) (by decide)),
        hword _ _ (hother _ (by decide) (by decide)), hnumber]
      simp only [Option.map_some, Scalar.json, heq]

theorem printMembers_cons (k : List Char) (v : Scalar)
    (ms : List (List Char × Scalar)) :
    printMembers ((k, v) :: ms) = quote k ++ ':' :: v.print ++
      match ms with
      | [] => ['\x7d']
      | _ :: _ => ',' :: printMembers ms := by
  cases ms <;> simp [printMembers]

theorem members_print (ms : List (List Char × Scalar)) (hms : ms ≠ [])
    {fuel : Nat} (hfuel : ms.length < fuel) (rest : List Char) :
    members fuel (printMembers ms ++ rest) =
      some (ms.map fun m => (m.1, m.2.json), rest) := by
  induction ms generalizing fuel with
  | nil => exact absurd rfl hms
  | cons m ms ih =>
      obtain ⟨k, v⟩ := m
      obtain ⟨fuel, rfl⟩ : ∃ f, fuel = f + 2 := ⟨fuel - 2, by
        simp only [List.length_cons] at hfuel
        omega⟩
      have hkey : ∀ t : List Char, expect '"' (quote k ++ t) =
          some (k.flatMap escape ++ '"' :: t) := by
        intro t
        simp only [quote, List.cons_append, List.append_assoc,
          List.nil_append]
        exact expect_self (by decide) _
      cases ms with
      | nil =>
          have hvalue := @value_print v fuel
            ('\x7d' :: rest) ⟨_, _, rfl, Or.inr rfl⟩
          simp only [printMembers_cons, List.append_assoc, List.cons_append,
            List.nil_append]
          rw [members, hkey]
          simp only [Option.bind_eq_bind, Option.bind_some, string_quote,
            expect_self (show isSpace ':' = false by decide), hvalue,
            expect_other (show isSpace '\x7d' = false by decide)
              (show '\x7d' ≠ ',' by decide),
            expect_self (show isSpace '\x7d' = false by decide)]
          rfl
      | cons m' ms =>
          have hvalue := @value_print v fuel
            (',' :: (printMembers (m' :: ms) ++ rest))
            ⟨_, _, rfl, Or.inl rfl⟩
          have hmore := ih (by simp)
            (show (m' :: ms).length < fuel + 1 by
              simp only [List.length_cons] at hfuel ⊢
              omega)
          rw [printMembers_cons]
          simp only [List.append_assoc, List.cons_append]
          rw [members, hkey]
          simp only [Option.bind_eq_bind, Option.bind_some, string_quote,
            expect_self (show isSpace ':' = false by decide), hvalue,
            expect_self (show isSpace ',' = false by decide), hmore]
          rfl

/-- A printed object is longer than the number of its members. -/
theorem length_printMembers (ms : List (List Char × Scalar)) :
    ms.length < (printMembers ms).length := by
  induction ms with
  | nil => simp [printMembers]
  | cons m ms ih =>
      obtain ⟨k, v⟩ := m
      rw [printMembers_cons]
      cases ms with
      | nil =>
          simp [quote]
      | cons m' ms =>
          simp only [List.length_append, List.length_cons, quote] at ih ⊢
          omega

/-- **A FLAT OBJECT IS READ BACK**. -/
theorem parse_printObject {ms : List (List Char × Scalar)} (hms : ms ≠ []) :
    parse (printObject ms) =
      some (.object (ms.map fun m => (m.1, m.2.json))) := by
  have hlength := length_printMembers ms
  have hmembers := @members_print ms hms (printObject ms).length (by
    rw [printObject, List.length_cons]
    omega) []
  rw [List.append_nil] at hmembers
  have hfirst : expect '\x7d' (printMembers ms) = none := by
    obtain ⟨⟨k, v⟩, ms, rfl⟩ := List.exists_cons_of_ne_nil hms
    rw [printMembers_cons]
    exact expect_other (by decide) (by decide) _
  simp only [parse, value]
  rw [show expect '"' (printObject ms) = none from
      expect_other (by decide) (by decide) _,
    show expect '\x7b' (printObject ms) = some (printMembers ms) from
      expect_self (by decide) _]
  simp only [hfirst, hmembers]
  rfl

end JsonText
