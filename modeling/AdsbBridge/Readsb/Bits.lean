import Mathlib.Data.Nat.Bitwise
import AdsbBridge.Frame

/-! # Bit fields, the readsb way

`getbit` and `getbits` of `mode_s.h`: bits are numbered from one and a field is
put together from the bytes it lies in. `Frame.getBits` reads the same number
bit by bit. -/
namespace AdsbBridge.Readsb
open AdsbBridge.Frame

def getbit (data : ℕ → ℕ) (bitnum : ℕ) : Bool :=
  let bi := bitnum - 1
  let mask := 1 <<< (7 - (bi &&& 7))
  data (bi >>> 3) &&& mask ≠ 0

def getbits (data : ℕ → ℕ) (firstbit lastbit : ℕ) : ℕ :=
  let fbi := firstbit - 1
  let lbi := lastbit - 1
  let fby := fbi >>> 3
  let lby := lbi >>> 3
  let nby := lby - fby + 1
  let shift := 7 - (lbi &&& 7)
  let topmask := 0xff >>> (fbi &&& 7)
  if nby = 5 then
    (data fby &&& topmask) <<< (32 - shift) ||| data (fby + 1) <<< (24 - shift) |||
      data (fby + 2) <<< (16 - shift) ||| data (fby + 3) <<< (8 - shift) |||
      data (fby + 4) >>> shift
  else if nby = 4 then
    (data fby &&& topmask) <<< (24 - shift) ||| data (fby + 1) <<< (16 - shift) |||
      data (fby + 2) <<< (8 - shift) ||| data (fby + 3) >>> shift
  else if nby = 3 then
    (data fby &&& topmask) <<< (16 - shift) ||| data (fby + 1) <<< (8 - shift) |||
      data (fby + 2) >>> shift
  else if nby = 2 then
    (data fby &&& topmask) <<< (8 - shift) ||| data (fby + 1) >>> shift
  else if nby = 1 then
    (data fby &&& topmask) >>> shift
  else 0

def msg (message : Message) (i : ℕ) : ℕ := (message.byte i).toNat

/-- `mm->ME`, the seven bytes from the fifth on. -/
def me (message : Message) (i : ℕ) : ℕ := msg message (4 + i)

theorem msg_eq (message : Message) (i : ℕ) : msg message i = (message.byte i).toNat := rfl

theorem msg_lt (message : Message) (i : ℕ) : msg message i < 256 := UInt8.toNat_lt _

theorem me_lt (message : Message) (i : ℕ) : me message i < 256 := msg_lt message _

/-! ## Bytes as one number -/

section

variable (data : ℕ → ℕ)

/-- `n` bytes from `first` on, the most significant one first. -/
def bigEndian (first : ℕ) : ℕ → ℕ
  | 0 => 0
  | n + 1 => bigEndian first n * 256 + data (first + n)

/-- `len` bits from `start` on, the most significant one first. -/
def foldBits (start len : ℕ) : ℕ :=
  (List.range len).foldl
    (fun value i => (value <<< 1) ||| (data ((start + i) / 8) >>> (7 - (start + i) % 8)) &&& 1) 0

variable {data}

theorem shiftRight_bigEndian_mod_two (hlt : ∀ i, data i < 256) (first : ℕ) {n m : ℕ}
    (h : m < 8 * n) :
    bigEndian data first n >>> m % 2 = data (first + (n - 1 - m / 8)) >>> (m % 8) % 2 := by
  induction n generalizing m with
  | zero => omega
  | succ n ih =>
    by_cases hm : m < 8
    · have hdiv : (bigEndian data first n * 256 + data (first + n)) / 2 ^ m =
          bigEndian data first n * 2 ^ (7 - m) * 2 + data (first + n) / 2 ^ m := by
        have hpow : bigEndian data first n * 256 =
            bigEndian data first n * 2 ^ (7 - m) * 2 * 2 ^ m := by
          have h256 : 2 ^ (7 - m) * 2 * 2 ^ m = 256 := by
            rw [← pow_succ, ← pow_add, show 7 - m + 1 + m = 8 by omega]; rfl
          rw [Nat.mul_assoc, Nat.mul_assoc, ← Nat.mul_assoc (2 ^ (7 - m)), h256]
        rw [hpow, Nat.add_comm, Nat.add_mul_div_right _ _ (Nat.two_pow_pos m), Nat.add_comm]
      rw [bigEndian, Nat.shiftRight_eq_div_pow, Nat.shiftRight_eq_div_pow, hdiv,
        Nat.mul_add_mod_self_right, Nat.mod_eq_of_lt hm, Nat.div_eq_of_lt hm, Nat.add_sub_cancel,
        Nat.sub_zero]
    · have hstep : bigEndian data first (n + 1) >>> m = bigEndian data first n >>> (m - 8) := by
        rw [bigEndian, show m = 8 + (m - 8) by omega, Nat.shiftRight_add, Nat.add_sub_cancel_left]
        congr 1
        have := hlt (first + n)
        rw [Nat.shiftRight_eq_div_pow]
        omega
      rw [hstep, ih (by omega), show (m - 8) % 8 = m % 8 by omega,
        show n - 1 - (m - 8) / 8 = n + 1 - 1 - m / 8 by omega]

/-- Bits read one by one are a slice of the number. -/
theorem foldBits_eq (hlt : ∀ i, data i < 256) (start : ℕ) {len n : ℕ}
    (h : start % 8 + len ≤ 8 * n) :
    foldBits data start len =
      bigEndian data (start / 8) n >>> (8 * n - start % 8 - len) % 2 ^ len := by
  induction len with
  | zero => simp [foldBits, Nat.mod_one]
  | succ len ih =>
    have hbit := shiftRight_bigEndian_mod_two hlt (start / 8)
      (show 8 * n - start % 8 - (len + 1) < 8 * n by omega)
    have hshift : bigEndian data (start / 8) n >>> (8 * n - start % 8 - len) =
        bigEndian data (start / 8) n >>> (8 * n - start % 8 - (len + 1)) / 2 := by
      rw [show 8 * n - start % 8 - len = 8 * n - start % 8 - (len + 1) + 1 by omega,
        Nat.shiftRight_add]
      rfl
    rw [show start / 8 + (n - 1 - (8 * n - start % 8 - (len + 1)) / 8) = (start + len) / 8 by omega,
      show (8 * n - start % 8 - (len + 1)) % 8 = 7 - (start + len) % 8 by omega] at hbit
    have hfold : foldBits data start (len + 1) = foldBits data start len <<< 1 |||
        (data ((start + len) / 8) >>> (7 - (start + len) % 8)) &&& 1 := by
      rw [foldBits, List.range_succ, List.foldl_append]
      rfl
    rw [hfold, Nat.and_one_is_mod, ← Nat.shiftLeft_add_eq_or_of_lt (Nat.mod_lt _ (by decide)),
      ih (by omega), ← hbit, hshift, Nat.shiftLeft_eq, pow_one, pow_succ' 2 len, Nat.mod_mul]
    omega

/-- The top byte of a field with the bits in front of the field cut off. -/
theorem and_topmask (x : ℕ) {r : ℕ} (h : r < 8) : x &&& (0xff >>> r) = x % 2 ^ (8 - r) := by
  have hmask : ∀ r < 8, 0xff >>> r = 2 ^ (8 - r) - 1 := by decide
  rw [hmask r h, Nat.and_two_pow_sub_one_eq_mod]

theorem append_byte (x : ℕ) {e s : ℕ} (he : e < 256) (hs : s ≤ 8) :
    x <<< (8 - s) ||| e >>> s = (x * 256 + e) >>> s := by
  have hpow : 2 ^ (8 - s) * 2 ^ s = 256 := by
    rw [← pow_add, Nat.sub_add_cancel hs]; rfl
  have hlow : e >>> s < 2 ^ (8 - s) := by
    rw [Nat.shiftRight_eq_div_pow, Nat.div_lt_iff_lt_mul (Nat.two_pow_pos s), hpow]
    exact he
  rw [← Nat.shiftLeft_add_eq_or_of_lt hlow, Nat.shiftLeft_eq, Nat.shiftRight_eq_div_pow,
    Nat.shiftRight_eq_div_pow, ← hpow, ← Nat.mul_assoc, Nat.add_comm (_ * _) e,
    Nat.add_mul_div_right _ _ (Nat.two_pow_pos s), Nat.add_comm]

theorem append_bytes (x : ℕ) {e s : ℕ} (he : e < 256) (hs : s ≤ 8) (k : ℕ) :
    x <<< (8 * (k + 2) - s) ||| e <<< (8 * (k + 1) - s) = (x * 256 + e) <<< (8 * (k + 1) - s) := by
  rw [show 8 * (k + 2) - s = 8 + (8 * (k + 1) - s) by omega, Nat.shiftLeft_add,
    ← Nat.shiftLeft_or_distrib, ← Nat.shiftLeft_add_eq_or_of_lt he, Nat.shiftLeft_eq x]

/-- A top byte with `n` bytes behind it. -/
def joined (data : ℕ → ℕ) (top first : ℕ) : ℕ → ℕ
  | 0 => top
  | n + 1 => joined data top first n * 256 + data (first + n + 1)

theorem joined_eq (hlt : ∀ i, data i < 256) (first t n : ℕ) :
    joined data (data first % 2 ^ t) first n =
      bigEndian data first (n + 1) % 2 ^ (8 * n + t) := by
  induction n with
  | zero => simp [joined, bigEndian]
  | succ n ih =>
    have hbyte := hlt (first + n + 1)
    have hpow : 2 ^ (8 * (n + 1) + t) = 256 * 2 ^ (8 * n + t) := by
      rw [show 8 * (n + 1) + t = 8 + (8 * n + t) by omega, pow_add]; rfl
    have hsucc : bigEndian data first (n + 1 + 1) =
        bigEndian data first (n + 1) * 256 + data (first + n + 1) := rfl
    have hdiv : (bigEndian data first (n + 1) * 256 + data (first + n + 1)) / 256 =
        bigEndian data first (n + 1) := by omega
    have hmod : (bigEndian data first (n + 1) * 256 + data (first + n + 1)) % 256 =
        data (first + n + 1) := by omega
    rw [joined, ih, hsucc, hpow, Nat.mod_mul, hdiv, hmod, Nat.add_comm, Nat.mul_comm]

/-- The five cases of `getbits` are one. -/
theorem getbits_joined (hlt : ∀ i, data i < 256) {firstbit lastbit n : ℕ} (h : n < 5)
    (hn : (lastbit - 1) >>> 3 - (firstbit - 1) >>> 3 = n) :
    getbits data firstbit lastbit =
      joined data (data ((firstbit - 1) >>> 3) &&& (0xff >>> ((firstbit - 1) &&& 7)))
        ((firstbit - 1) >>> 3) n >>> (7 - ((lastbit - 1) &&& 7)) := by
  have hs : 7 - ((lastbit - 1) &&& 7) ≤ 8 := by omega
  unfold getbits
  simp only [hn]
  generalize (firstbit - 1) >>> 3 = first
  generalize data first &&& (0xff >>> ((firstbit - 1) &&& 7)) = a
  generalize 7 - ((lastbit - 1) &&& 7) = s at hs ⊢
  match n, h with
  | 0, _ => rfl
  | 1, _ => exact append_byte a (hlt _) hs
  | 2, _ =>
    have h₁ : a <<< (16 - s) ||| data (first + 1) <<< (8 - s) =
        (a * 256 + data (first + 1)) <<< (8 - s) := append_bytes a (hlt _) hs 0
    simp only [h₁]
    exact append_byte _ (hlt _) hs
  | 3, _ =>
    have h₁ : a <<< (24 - s) ||| data (first + 1) <<< (16 - s) =
        (a * 256 + data (first + 1)) <<< (16 - s) := append_bytes a (hlt _) hs 1
    have h₂ := fun x => (append_bytes x (hlt (first + 2)) hs 0 :
      x <<< (16 - s) ||| data (first + 2) <<< (8 - s) = _)
    simp only [h₁, h₂]
    exact append_byte _ (hlt _) hs
  | 4, _ =>
    have h₁ : a <<< (32 - s) ||| data (first + 1) <<< (24 - s) =
        (a * 256 + data (first + 1)) <<< (24 - s) := append_bytes a (hlt _) hs 2
    have h₂ := fun x => (append_bytes x (hlt (first + 2)) hs 1 :
      x <<< (24 - s) ||| data (first + 2) <<< (16 - s) = (x * 256 + data (first + 2)) <<< (16 - s))
    have h₃ := fun x => (append_bytes x (hlt (first + 3)) hs 0 :
      x <<< (16 - s) ||| data (first + 3) <<< (8 - s) = _)
    simp only [h₁, h₂, h₃]
    exact append_byte _ (hlt _) hs

/-- **Fields put together from bytes** are the bits read one by one. -/
theorem getbits_eq (hlt : ∀ i, data i < 256) {firstbit lastbit : ℕ} (h₀ : 0 < firstbit)
    (h : firstbit ≤ lastbit) (hn : (lastbit - 1) / 8 - (firstbit - 1) / 8 < 5) :
    getbits data firstbit lastbit = foldBits data (firstbit - 1) (lastbit - firstbit + 1) := by
  have hand : ∀ x, x &&& 7 = x % 8 := fun x => Nat.and_two_pow_sub_one_eq_mod x 3
  have hdiv : ∀ x, x >>> 3 = x / 8 := fun x => Nat.shiftRight_eq_div_pow x 3
  rw [getbits_joined hlt (by simpa only [hdiv] using hn) rfl]
  simp only [hand, hdiv]
  rw [and_topmask _ (Nat.mod_lt _ (by decide)), joined_eq hlt,
    foldBits_eq hlt (n := (lastbit - 1) / 8 - (firstbit - 1) / 8 + 1) _ (by omega)]
  have hlen : 8 * ((lastbit - 1) / 8 - (firstbit - 1) / 8) + (8 - (firstbit - 1) % 8) =
      (7 - (lastbit - 1) % 8) + (lastbit - firstbit + 1) := by omega
  have hshift : 8 * ((lastbit - 1) / 8 - (firstbit - 1) / 8 + 1) - (firstbit - 1) % 8 -
      (lastbit - firstbit + 1) = 7 - (lastbit - 1) % 8 := by omega
  rw [hlen, hshift, Nat.shiftRight_eq_div_pow, Nat.shiftRight_eq_div_pow, pow_add,
    Nat.mod_mul_right_div_self]

end

/-! ## Fields of a message -/

theorem foldBits_msg (message : Message) (start len : ℕ) :
    foldBits (msg message) start len = getBits message start len := rfl

theorem getBits_lt (message : Message) (start len : ℕ) : getBits message start len < 2 ^ len := by
  rw [← foldBits_msg, foldBits_eq (msg_lt message) (n := start % 8 + len) start (by omega)]
  exact Nat.mod_lt _ (Nat.two_pow_pos len)

theorem foldBits_me (message : Message) (start len : ℕ) :
    foldBits (me message) start len = getBits message (32 + start) len := by
  unfold foldBits getBits bitAt
  congr 1
  funext value i
  rw [me, msg, show (32 + start + i) / 8 = 4 + (start + i) / 8 by omega,
    show (32 + start + i) % 8 = (start + i) % 8 by omega]

/-- A field of the message proper, in both notations. -/
theorem getbits_me (message : Message) {firstbit lastbit : ℕ} (h₀ : 0 < firstbit)
    (h : firstbit ≤ lastbit) (hn : (lastbit - 1) / 8 - (firstbit - 1) / 8 < 5) :
    getbits (me message) firstbit lastbit =
      getBits message (32 + (firstbit - 1)) (lastbit - firstbit + 1) := by
  rw [getbits_eq (me_lt message) h₀ h hn, foldBits_me]

theorem getbits_msg (message : Message) {firstbit lastbit : ℕ} (h₀ : 0 < firstbit)
    (h : firstbit ≤ lastbit) (hn : (lastbit - 1) / 8 - (firstbit - 1) / 8 < 5) :
    getbits (msg message) firstbit lastbit =
      getBits message (firstbit - 1) (lastbit - firstbit + 1) := by
  rw [getbits_eq (msg_lt message) h₀ h hn, foldBits_msg]

end AdsbBridge.Readsb
