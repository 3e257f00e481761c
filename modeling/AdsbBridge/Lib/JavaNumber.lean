import Mathlib.Algebra.Order.Field.Rat
import Mathlib.Data.List.TakeWhile
import Mathlib.Tactic.Linarith
import AdsbBridge.Lib.Binary

/-! # Texts as numbers

`Integer.parseInt` and `Double.parseDouble`. A text names a number exactly; a
`double` is the nearest one to it, or an infinity beyond the greatest one. -/
namespace AdsbBridge.Lib

inductive JavaDouble
  | finite (x : ℚ)
  | infinite (negative : Bool)
  | nan
  deriving DecidableEq, Repr

namespace JavaDouble

def isFinite : JavaDouble → Bool
  | .finite _ => true
  | _ => false

/-- From here on a number rounds to an infinity. -/
def overflow : ℚ := 2 ^ 1024 - 2 ^ 970

def nearest (x : ℚ) : JavaDouble :=
  if overflow ≤ |x| then .infinite (x < 0) else .finite (binary64.round x)

/-- `Double.MAX_VALUE`. -/
def greatest : ℚ := 2 ^ 1024 - 2 ^ 971

theorem greatest_lt_overflow : greatest + 1 < overflow := by
  have hsplit : (2 : ℚ) ^ 971 = 2 ^ 970 * 2 := pow_succ 2 970
  have hone : (1 : ℚ) < 2 ^ 970 := one_lt_pow₀ (by norm_num) (by norm_num)
  rw [greatest, overflow, hsplit]
  generalize (2 : ℚ) ^ 970 = b at hone ⊢
  generalize (2 : ℚ) ^ 1024 = c
  linarith

theorem int_le_greatest : (2 : ℚ) ^ 31 ≤ greatest := by
  have hsplit : (2 : ℚ) ^ 1024 = 2 ^ 971 * 2 ^ 53 := pow_add 2 971 53
  have hle : (2 : ℚ) ^ 31 ≤ 2 ^ 971 := pow_le_pow_right₀ (by norm_num) (by norm_num)
  rw [greatest, hsplit]
  generalize (2 : ℚ) ^ 971 = b at hle ⊢
  linarith

end JavaDouble

/-- A `double` that is a number. -/
structure FiniteDouble where
  value : ℚ
  holds : binary64.Holds value
  le_greatest : |value| ≤ JavaDouble.greatest

namespace Text

def takeSign : Text → Bool × Text
  | '-' :: t => (true, t)
  | '+' :: t => (false, t)
  | t => (false, t)

/-! ## Integers -/

/-- The zeros of the decimal digits `Character.digit` knows. -/
def digitZeros : List ℕ :=
  [0x30, 0x660, 0x6f0, 0x7c0, 0x966, 0x9e6, 0xa66, 0xae6, 0xb66, 0xbe6, 0xc66, 0xce6, 0xd66,
    0xde6, 0xe50, 0xed0, 0xf20, 0x1040, 0x1090, 0x17e0, 0x1810, 0x1946, 0x19d0, 0x1a80, 0x1a90,
    0x1b50, 0x1bb0, 0x1c40, 0x1c50, 0xa620, 0xa8d0, 0xa900, 0xa9d0, 0xa9f0, 0xaa50, 0xabf0, 0xff10]

/-- `Character.digit(c, 10)`. -/
def digitOf (c : Char) : Option ℕ :=
  digitZeros.findSome? fun first =>
    if first ≤ c.toNat ∧ c.toNat < first + 10 then some (c.toNat - first) else none

/-- The number that digits stand for, `acc` being that of the digits in front. -/
def digitsFrom (acc : ℕ) : Text → Option ℕ
  | [] => some acc
  | c :: rest =>
    match digitOf c with
    | some d => digitsFrom (10 * acc + d) rest
    | none => none

def parseInt (t : Text) : Option Int32 :=
  let (negative, digits) := takeSign t
  if digits.isEmpty then none
  else
    match digitsFrom 0 digits with
    | some n =>
      let v : ℤ := if negative then -n else n
      if -2 ^ 31 ≤ v ∧ v < 2 ^ 31 then some (Int32.ofInt v) else none
    | none => none

/-! ## Floating point -/

/-- The number of digits in some base. -/
def ofHexDigits (t : Text) : ℕ :=
  t.foldl (fun acc c => 16 * acc + hexDigits.toList.idxOf c.toUpper) 0

def isHexDigit (c : Char) : Bool := hexDigits.toList.contains c.toUpper

/-- An exponent: a sign and digits, and what follows. -/
def readExponent (t : Text) : Option (ℤ × Text) :=
  let (negative, rest) := takeSign t
  let digits := rest.takeWhile Char.isDigit
  if digits.isEmpty then none
  else
    let e : ℤ := Nat.ofDigitChars 10 digits 0
    some (if negative then -e else e, rest.dropWhile Char.isDigit)

/-- A type suffix or nothing ends the number. -/
def endsNumber : Text → Bool
  | [] => true
  | [c] => c == 'f' || c == 'F' || c == 'd' || c == 'D'
  | _ => false

/-- Digits with a point among them: those in front, those behind, the rest. -/
def readMantissa (digit : Char → Bool) (t : Text) : Text × Text × Text :=
  match t.dropWhile digit with
  | '.' :: rest => (t.takeWhile digit, rest.takeWhile digit, rest.dropWhile digit)
  | rest => (t.takeWhile digit, [], rest)

def parseDecimal (t : Text) : Option ℚ :=
  let (whole, fraction, rest) := readMantissa Char.isDigit t
  if whole.isEmpty && fraction.isEmpty then none
  else
    let exponent := match rest with
      | c :: behind => if c == 'e' || c == 'E' then readExponent behind else some (0, rest)
      | [] => some (0, rest)
    match exponent with
    | some (e, rest) =>
      if endsNumber rest then
        some ((Nat.ofDigitChars 10 (whole ++ fraction) 0 : ℚ) * 10 ^ (e - fraction.length))
      else none
    | none => none

/-- A hexadecimal literal behind its `0x`; the binary exponent is not optional. -/
def parseHex (t : Text) : Option ℚ :=
  let (whole, fraction, rest) := readMantissa isHexDigit t
  if whole.isEmpty && fraction.isEmpty then none
  else
    match rest with
    | c :: behind =>
      if c == 'p' || c == 'P' then
        match readExponent behind with
        | some (e, rest) =>
          if endsNumber rest then
            some ((ofHexDigits (whole ++ fraction) : ℚ) * 2 ^ (e - 4 * fraction.length))
          else none
        | none => none
      else none
    | [] => none

def parseMagnitude : Text → Option ℚ
  | '0' :: 'x' :: t => parseHex t
  | '0' :: 'X' :: t => parseHex t
  | t => parseDecimal t

/-- `Double.parseDouble` of a text without blanks around it. -/
def parseDouble (t : Text) : Option JavaDouble :=
  let (negative, rest) := takeSign t
  if rest = "NaN".toList then some .nan
  else if rest = "Infinity".toList then some (.infinite negative)
  else (parseMagnitude rest).map fun x => JavaDouble.nearest (if negative then -x else x)

/-! ## What the writers print is read back -/

theorem digitOf_of_isDigit {c : Char} (h : c.isDigit) : digitOf c = some (c.toNat - '0'.toNat) := by
  have hl : 48 ≤ c.toNat := by
    simp only [Char.isDigit, Bool.and_eq_true, decide_eq_true_eq] at h
    exact UInt32.le_iff_toNat_le.1 h.1
  have hu : c.toNat ≤ 57 := by
    simp only [Char.isDigit, Bool.and_eq_true, decide_eq_true_eq] at h
    exact UInt32.le_iff_toNat_le.1 h.2
  simp [digitOf, digitZeros, hl, show c.toNat < 58 by omega]

theorem digitsFrom_of_isDigit {t : Text} (h : ∀ c ∈ t, c.isDigit) (acc : ℕ) :
    digitsFrom acc t = some (Nat.ofDigitChars 10 t acc) := by
  induction t generalizing acc with
  | nil => rfl
  | cons c rest ih =>
    rw [digitsFrom, digitOf_of_isDigit (h c List.mem_cons_self), Nat.ofDigitChars_cons]
    exact ih (fun c' hc' => h c' (List.mem_cons_of_mem c hc')) _

theorem digitsFrom_ofNat (n : ℕ) : digitsFrom 0 (ofNat n) = some n := by
  rw [digitsFrom_of_isDigit (fun c hc => ofNat_isDigit hc), ofNat, Nat.ofDigitChars_ten_toDigits]

theorem isEmpty_ofNat (n : ℕ) : (ofNat n).isEmpty = false := by
  rw [List.isEmpty_eq_false_iff]
  exact ofNat_ne_nil n

/-- A number starts with a digit. -/
theorem ofNat_eq_cons (n : ℕ) : ∃ c rest, ofNat n = c :: rest ∧ c.isDigit := by
  obtain ⟨c, rest, hc⟩ := List.exists_cons_of_ne_nil (ofNat_ne_nil n)
  exact ⟨c, rest, hc, ofNat_isDigit (n := n) (by rw [hc]; exact List.mem_cons_self)⟩

theorem takeSign_of_isDigit {c : Char} {t : Text} (hc : c.isDigit) :
    takeSign (c :: t) = (false, c :: t) := by
  rw [takeSign]
  · rintro t ⟨⟩; cases hc
  · rintro t ⟨⟩; cases hc

theorem takeSign_ofInt (v : ℤ) : takeSign (ofInt v) = (decide (v < 0), ofNat v.natAbs) := by
  unfold ofInt
  split
  · next h => simp [takeSign, h]
  · next h =>
    obtain ⟨c, rest, hc, hd⟩ := ofNat_eq_cons v.natAbs
    rw [hc, takeSign_of_isDigit hd]
    simp [h]

/-- The sign put back on the magnitude. -/
theorem signed_natAbs (v : ℤ) : (if v < 0 then -(v.natAbs : ℤ) else v.natAbs) = v := by
  split <;> omega

theorem parseInt_ofInt (v : Int32) : parseInt (ofInt v.toInt) = some v := by
  have hl := v.le_toInt
  have hu := v.toInt_lt
  simp only [parseInt, takeSign_ofInt, isEmpty_ofNat, digitsFrom_ofNat, decide_eq_true_eq,
    signed_natAbs, Bool.false_eq_true, if_false]
  rw [if_pos (by omega), Int32.ofInt_toInt]

/-- Digits alone are a mantissa without a point. -/
theorem readMantissa_ofNat (n : ℕ) : readMantissa Char.isDigit (ofNat n) = (ofNat n, [], []) := by
  have hdigit : ∀ c ∈ ofNat n, c.isDigit := fun _ hc => ofNat_isDigit hc
  have hdrop : (ofNat n).dropWhile Char.isDigit = [] := List.dropWhile_eq_nil_iff.2 hdigit
  have htake : (ofNat n).takeWhile Char.isDigit = ofNat n := List.takeWhile_eq_self_iff.2 hdigit
  rw [readMantissa, hdrop, htake]

/-- Digits are no hexadecimal literal. -/
theorem parseMagnitude_ofNat (n : ℕ) : parseMagnitude (ofNat n) = parseDecimal (ofNat n) := by
  have hx : ∀ c ∈ ofNat n, c ≠ 'x' ∧ c ≠ 'X' := by
    intro c hc
    have hd := ofNat_isDigit hc
    constructor <;> rintro rfl <;> cases hd
  rw [parseMagnitude]
  · intro t ht
    rw [ht] at hx
    exact (hx 'x' (by simp)).1 rfl
  · intro t ht
    rw [ht] at hx
    exact (hx 'X' (by simp)).2 rfl

theorem parseDecimal_ofNat (n : ℕ) : parseDecimal (ofNat n) = some (n : ℚ) := by
  have hvalue : Nat.ofDigitChars 10 (ofNat n) 0 = n := Nat.ofDigitChars_ten_toDigits
  simp [parseDecimal, readMantissa_ofNat, isEmpty_ofNat, endsNumber, hvalue]

theorem abs_lt_overflow {v : ℤ} (hl : -2 ^ 31 ≤ v) (hu : v < 2 ^ 31) :
    |(v : ℚ)| < JavaDouble.overflow := by
  have hcast : |(v : ℚ)| ≤ 2 ^ 31 := by
    rw [abs_le]
    constructor
    · exact_mod_cast hl
    · exact_mod_cast hu.le
  have hfar := JavaDouble.int_le_greatest
  have hlast := JavaDouble.greatest_lt_overflow
  linarith

theorem holds_toInt (v : Int32) : binary64.Holds v.toInt := by
  have hl := v.le_toInt
  have hu := v.toInt_lt
  refine BinaryFormat.holds_intCast ?_ (by decide)
  rw [abs_lt, show (2 : ℤ) ^ binary64.precision = 2 ^ 53 from rfl]
  omega

theorem parseDouble_ofInt (v : Int32) : parseDouble (ofInt v.toInt) = some (.finite v.toInt) := by
  obtain ⟨c, rest, hc, hd⟩ := ofNat_eq_cons v.toInt.natAbs
  have hnan : ofNat v.toInt.natAbs ≠ "NaN".toList := by
    rw [hc]; rintro ⟨⟩; cases hd
  have hinf : ofNat v.toInt.natAbs ≠ "Infinity".toList := by
    rw [hc]; rintro ⟨⟩; cases hd
  have hsigned : (if v.toInt < 0 then -(v.toInt.natAbs : ℚ) else v.toInt.natAbs) = (v.toInt : ℚ) := by
    conv_rhs => rw [← signed_natAbs v.toInt]
    split <;> simp
  simp only [parseDouble, takeSign_ofInt, if_neg hnan, if_neg hinf, parseMagnitude_ofNat,
    parseDecimal_ofNat, Option.map_some, decide_eq_true_eq, hsigned, JavaDouble.nearest]
  rw [if_neg (not_le.2 (abs_lt_overflow v.le_toInt v.toInt_lt)),
    BinaryFormat.round_of_holds (holds_toInt v)]

end Text

end AdsbBridge.Lib
