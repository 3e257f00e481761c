import Mathlib.Algebra.CharP.Two
import Mathlib.Algebra.Polynomial.RingDivision
import Mathlib.Algebra.Field.ZMod
import Mathlib.RingTheory.Coprime.Lemmas
import Mathlib.Tactic.LinearCombination
import AdsbBridge.Lib.Crc

/-! # Cyclic redundancy checks as division of polynomials

A register and a stream of bits are polynomials over the field of two elements.
A shift multiplies by `X` and takes the generator away where it fits, so the
register is the remainder of the stream. The generator has a constant term, so
it divides no burst of errors that is shorter than itself. -/
namespace AdsbBridge.Lib.Crc
open Polynomial

def coeffOf (bit : Bool) : ZMod 2 := if bit then 1 else 0

theorem coeffOf_xor (a b : Bool) : coeffOf (a ^^ b) = coeffOf a + coeffOf b := by
  cases a <;> cases b <;> rfl

theorem coeffOf_and (a b : Bool) : coeffOf (a && b) = coeffOf a * coeffOf b := by
  cases a <;> cases b <;> rfl

theorem coeffOf_eq_zero {bit : Bool} : coeffOf bit = 0 ↔ bit = false := by
  cases bit with
  | false => exact ⟨fun _ => rfl, fun _ => rfl⟩
  | true => exact ⟨fun h => absurd h one_ne_zero, fun h => (by cases h)⟩

/-- The low `width` bits of a number. -/
noncomputable def wordPoly (width n : ℕ) : (ZMod 2)[X] :=
  ∑ i ∈ Finset.range width, C (coeffOf (n.testBit i)) * X ^ i

/-- The first `n` bits of a stream, the first one in the highest place. -/
noncomputable def streamPoly (bit : ℕ → Bool) (n : ℕ) : (ZMod 2)[X] :=
  ∑ i ∈ Finset.range n, C (coeffOf (bit i)) * X ^ (n - 1 - i)

noncomputable def generator (width poly : ℕ) : (ZMod 2)[X] := X ^ width + wordPoly width poly

/-! ## Registers -/

theorem coeff_wordPoly (width n i : ℕ) :
    (wordPoly width n).coeff i = if i < width then coeffOf (n.testBit i) else 0 := by
  simp only [wordPoly, finsetSum_coeff, coeff_C_mul, coeff_X_pow, mul_ite, mul_one, mul_zero,
    Finset.sum_ite_eq, Finset.mem_range]

theorem wordPoly_xor (width a b : ℕ) :
    wordPoly width (a ^^^ b) = wordPoly width a + wordPoly width b := by
  ext i
  rw [coeff_add, coeff_wordPoly, coeff_wordPoly, coeff_wordPoly, Nat.testBit_xor, coeffOf_xor]
  split
  · rfl
  · rw [add_zero]

theorem degree_wordPoly_lt (width n : ℕ) : (wordPoly width n).degree < width := by
  rw [degree_lt_iff_coeff_zero]
  intro i hi
  rw [coeff_wordPoly, if_neg (Nat.not_lt.2 hi)]

theorem wordPoly_eq_zero {width n : ℕ} (h : n < 2 ^ width) : wordPoly width n = 0 ↔ n = 0 := by
  constructor
  · intro hzero
    refine Nat.eq_of_testBit_eq fun i => ?_
    rw [Nat.zero_testBit]
    by_cases hi : i < width
    · have hcoeff := congrArg (fun p => p.coeff i) hzero
      simp only [coeff_wordPoly, if_pos hi, coeff_zero] at hcoeff
      exact coeffOf_eq_zero.1 hcoeff
    · exact Nat.testBit_lt_two_pow
        (lt_of_lt_of_le h (Nat.pow_le_pow_right (by omega) (Nat.not_lt.1 hi)))
  · rintro rfl
    ext i
    rw [coeff_wordPoly, Nat.zero_testBit, coeff_zero]
    exact ite_self 0

theorem degree_generator {width : ℕ} (poly : ℕ) : (generator width poly).degree = width := by
  rw [generator, degree_add_eq_left_of_degree_lt, degree_X_pow]
  rw [degree_X_pow]
  exact degree_wordPoly_lt width poly

/-- The generator divides no register other than zero. -/
theorem generator_dvd_wordPoly {width n : ℕ} (poly : ℕ) (h : n < 2 ^ width) :
    generator width poly ∣ wordPoly width n ↔ n = 0 := by
  rw [← wordPoly_eq_zero h]
  refine ⟨fun hd => eq_zero_of_dvd_of_degree_lt hd ?_, fun hzero => hzero ▸ dvd_zero _⟩
  rw [degree_generator]
  exact degree_wordPoly_lt width n

theorem testBit_shift {width : ℕ} (poly rem i : ℕ) :
    (shift width poly rem).testBit i =
      (decide (i < width) && ((decide (1 ≤ i) && rem.testBit (i - 1)) ^^
        (rem.testBit (width - 1) && poly.testBit i))) := by
  rw [shift, Nat.testBit_mod_two_pow]
  cases rem.testBit (width - 1) with
  | false => rw [if_neg Bool.false_ne_true, Nat.testBit_shiftLeft, Bool.false_and, Bool.xor_false]
  | true => rw [if_pos rfl, Nat.testBit_xor, Nat.testBit_shiftLeft, Bool.true_and]

/-- **A shift multiplies by `X`** up to a generator. -/
theorem wordPoly_shift {width : ℕ} (hw : 0 < width) (poly rem : ℕ) :
    wordPoly width (shift width poly rem) =
      X * wordPoly width rem + C (coeffOf (rem.testBit (width - 1))) * generator width poly := by
  ext i
  have hcarry : (generator width poly).coeff i =
      (if i = width then 1 else 0) + if i < width then coeffOf (poly.testBit i) else 0 := by
    rw [generator, coeff_add, coeff_X_pow, coeff_wordPoly]
  have hmoved : (X * wordPoly width rem).coeff i =
      if 1 ≤ i ∧ i - 1 < width then coeffOf (rem.testBit (i - 1)) else 0 := by
    cases i with
    | zero => rw [coeff_X_mul_zero, if_neg (by omega)]
    | succ i =>
      rw [coeff_X_mul, coeff_wordPoly, Nat.add_sub_cancel]
      simp only [Nat.le_add_left, true_and]
  rw [coeff_add, coeff_C_mul, hcarry, hmoved, coeff_wordPoly, testBit_shift]
  rcases Nat.lt_trichotomy i width with hlt | rfl | hgt
  · have hup : coeffOf (decide (1 ≤ i) && rem.testBit (i - 1)) =
        if 1 ≤ i ∧ i - 1 < width then coeffOf (rem.testBit (i - 1)) else 0 := by
      by_cases hi : 1 ≤ i
      · rw [if_pos ⟨hi, by omega⟩, decide_eq_true hi, Bool.true_and]
      · rw [if_neg fun h => hi h.1, decide_eq_false hi, Bool.false_and]
        rfl
    rw [if_pos hlt, if_neg hlt.ne, if_pos hlt, decide_eq_true hlt, Bool.true_and, coeffOf_xor,
      zero_add, hup, coeffOf_and]
  · rw [if_neg (lt_irrefl _), if_pos ⟨hw, by omega⟩, if_pos rfl, if_neg (lt_irrefl _), add_zero,
      mul_one, CharTwo.add_self_eq_zero]
  · rw [if_neg (by omega), if_neg (by omega), if_neg (by omega), if_neg (by omega), add_zero,
      mul_zero, add_zero]

/-! ## Streams -/

theorem streamPoly_succ (bit : ℕ → Bool) (n : ℕ) :
    streamPoly bit (n + 1) = X * streamPoly bit n + C (coeffOf (bit n)) := by
  rw [streamPoly, Finset.sum_range_succ, streamPoly, Finset.mul_sum, Nat.add_sub_cancel,
    Nat.sub_self, pow_zero, mul_one]
  congr 1
  refine Finset.sum_congr rfl fun i hi => ?_
  have hi := Finset.mem_range.1 hi
  rw [show n - i = n - 1 - i + 1 by omega, pow_succ]
  ring

theorem streamPoly_add (bit : ℕ → Bool) (m n : ℕ) :
    streamPoly bit (m + n) = X ^ n * streamPoly bit m + streamPoly (fun i => bit (m + i)) n := by
  induction n with
  | zero => simp [streamPoly]
  | succ n ih =>
    rw [← Nat.add_assoc, streamPoly_succ, ih, streamPoly_succ]
    ring

theorem streamPoly_xor (a b : ℕ → Bool) (n : ℕ) :
    streamPoly (fun i => a i ^^ b i) n = streamPoly a n + streamPoly b n := by
  rw [streamPoly, streamPoly, streamPoly, ← Finset.sum_add_distrib]
  refine Finset.sum_congr rfl fun i _ => ?_
  rw [coeffOf_xor, C_add, add_mul]

theorem coeff_streamPoly (bit : ℕ → Bool) (n i : ℕ) :
    (streamPoly bit n).coeff i = if i < n then coeffOf (bit (n - 1 - i)) else 0 := by
  induction n generalizing i with
  | zero => simp [streamPoly]
  | succ n ih =>
    rw [streamPoly_succ, coeff_add, coeff_C]
    cases i with
    | zero =>
      rw [coeff_X_mul_zero, if_pos rfl, if_pos (Nat.succ_pos n), zero_add]
      rfl
    | succ i =>
      rw [coeff_X_mul, ih, if_neg (Nat.succ_ne_zero i), add_zero]
      simp only [Nat.add_lt_add_iff_right]
      rw [show n + 1 - 1 - (i + 1) = n - 1 - i by omega]

/-- A word is the stream of its bits, the highest one first. -/
theorem streamPoly_word {bit : ℕ → Bool} {width n : ℕ}
    (h : ∀ i < width, bit i = n.testBit (width - 1 - i)) :
    streamPoly bit width = wordPoly width n := by
  ext i
  rw [coeff_streamPoly, coeff_wordPoly]
  by_cases hi : i < width
  · rw [if_pos hi, if_pos hi, h _ (by omega), show width - 1 - (width - 1 - i) = i by omega]
  · rw [if_neg hi, if_neg hi]

theorem wordPoly_top {width : ℕ} (hw : 0 < width) (bit : Bool) :
    wordPoly width (top width bit) = C (coeffOf bit) * X ^ (width - 1) := by
  ext i
  rw [coeff_wordPoly, coeff_C_mul, coeff_X_pow]
  cases bit with
  | false => simp [top, coeffOf]
  | true =>
    rw [top, if_pos rfl, Nat.one_shiftLeft, Nat.testBit_two_pow]
    by_cases hi : i = width - 1
    · rw [if_pos (by omega), if_pos hi, decide_eq_true hi.symm, mul_one]
    · rw [if_neg hi, decide_eq_false (fun h => hi h.symm), mul_zero]
      exact ite_self 0

/-- **The register is the remainder** of the stream times `X ^ width`. -/
theorem generator_dvd_feed {width : ℕ} (hw : 0 < width) (poly : ℕ) (bit : ℕ → Bool) (n : ℕ) :
    generator width poly ∣
      X ^ width * streamPoly bit n - wordPoly width (feed width poly 0 bit n) := by
  induction n with
  | zero => simp [streamPoly, feed, (wordPoly_eq_zero (Nat.two_pow_pos width)).2]
  | succ n ih =>
    obtain ⟨q, hq⟩ := ih
    have hfeed : feed width poly 0 bit (n + 1) =
        shift width poly (feed width poly 0 bit n ^^^ top width (bit n)) := by
      rw [feed, List.range_succ, List.foldl_append]
      rfl
    have hpow : (X : (ZMod 2)[X]) * X ^ (width - 1) = X ^ width := by
      rw [← pow_succ', Nat.sub_add_cancel hw]
    rw [hfeed, wordPoly_shift hw, wordPoly_xor, wordPoly_top hw, streamPoly_succ]
    refine ⟨X * q - C (coeffOf
      ((feed width poly 0 bit n ^^^ top width (bit n)).testBit (width - 1))), ?_⟩
    linear_combination X * hq - C (coeffOf (bit n)) * hpow

/-- **The check word of a stream** is the one that makes the two together a
multiple of the generator. -/
theorem generator_dvd_codeword {width : ℕ} (hw : 0 < width) (poly : ℕ) (bit : ℕ → Bool) (n : ℕ)
    {check : ℕ} (hfeed : feed width poly 0 bit n < 2 ^ width) (hcheck : check < 2 ^ width) :
    generator width poly ∣ X ^ width * streamPoly bit n + wordPoly width check ↔
      feed width poly 0 bit n = check := by
  have hsplit : X ^ width * streamPoly bit n + wordPoly width check =
      X ^ width * streamPoly bit n - wordPoly width (feed width poly 0 bit n) +
        wordPoly width (feed width poly 0 bit n ^^^ check) := by
    rw [wordPoly_xor]
    ring
  rw [hsplit, dvd_add_right (generator_dvd_feed hw poly bit n),
    generator_dvd_wordPoly poly (Nat.xor_lt_two_pow hfeed hcheck), Nat.xor_eq_zero_iff]

/-! ## Bursts -/

/-- A stream that is silent up to the last `width` bits. -/
theorem degree_streamPoly_lt {bit : ℕ → Bool} {n width : ℕ}
    (h : ∀ i < n, bit i = true → n ≤ i + width) : (streamPoly bit n).degree < width := by
  rw [degree_lt_iff_coeff_zero]
  intro i hi
  rw [coeff_streamPoly]
  by_cases hin : i < n
  · rw [if_pos hin, coeffOf_eq_zero, ← Bool.not_eq_true]
    intro hbit
    have := h (n - 1 - i) (by omega) hbit
    omega
  · rw [if_neg hin]

theorem streamPoly_ne_zero {bit : ℕ → Bool} {n i : ℕ} (hi : i < n) (h : bit i = true) :
    streamPoly bit n ≠ 0 := by
  intro hzero
  have hcoeff := congrArg (fun p => p.coeff (n - 1 - i)) hzero
  simp only [coeff_streamPoly, coeff_zero] at hcoeff
  rw [if_pos (by omega), show n - 1 - (n - 1 - i) = i by omega, coeffOf_eq_zero, h] at hcoeff
  cases hcoeff

/-- A stream that is silent after its first `m` bits. -/
theorem streamPoly_of_silent {bit : ℕ → Bool} {m n : ℕ} (h : ∀ i < n, bit (m + i) = false) :
    streamPoly bit (m + n) = X ^ n * streamPoly bit m := by
  have hzero : streamPoly (fun i => bit (m + i)) n = 0 := by
    refine Finset.sum_eq_zero fun i hi => ?_
    simp only [h i (Finset.mem_range.1 hi), coeffOf_eq_zero.2, C_0, zero_mul]
  rw [streamPoly_add, hzero, add_zero]

/-- A generator with a constant term has no factor `X`. -/
theorem isCoprime_generator_X {width poly : ℕ} (hw : 0 < width) (hpoly : poly.testBit 0 = true) :
    IsCoprime (generator width poly) X := by
  have hconst : (generator width poly).coeff 0 = 1 := by
    rw [generator, coeff_add, coeff_X_pow, if_neg hw.ne, coeff_wordPoly, if_pos hw, hpoly]
    rfl
  refine ⟨1, -divX (generator width poly), ?_⟩
  have hdiv := divX_mul_X_add (generator width poly)
  rw [hconst, C_1] at hdiv
  linear_combination -hdiv

/-- **No burst is a multiple of the generator**: bits that all lie within
`width` places of each other, some of them set. -/
theorem not_generator_dvd_burst {width poly : ℕ} (hw : 0 < width) (hpoly : poly.testBit 0 = true)
    {bit : ℕ → Bool} {n start : ℕ} (hburst : ∀ i < n, bit i = true → start ≤ i ∧ i < start + width)
    {i : ℕ} (hi : i < n) (hbit : bit i = true) : ¬ generator width poly ∣ streamPoly bit n := by
  intro hd
  obtain ⟨m, hm, hdvd, hlast⟩ : ∃ m, i < m ∧ generator width poly ∣ streamPoly bit m ∧
      ∀ j < m, bit j = true → m ≤ j + width := by
    rcases Nat.le_total n (start + width) with hle | hle
    · refine ⟨n, hi, hd, fun j hj hset => ?_⟩
      have := (hburst j hj hset).1
      omega
    · obtain ⟨k, rfl⟩ := Nat.exists_eq_add_of_le hle
      refine ⟨start + width, (hburst i hi hbit).2, ?_, fun j hj hset => ?_⟩
      · rw [streamPoly_of_silent] at hd
        · exact ((isCoprime_generator_X hw hpoly).pow_right).dvd_of_dvd_mul_left hd
        · intro j hj
          rw [← Bool.not_eq_true]
          intro hset
          have := (hburst _ (by omega) hset).2
          omega
      · have := (hburst j (by omega) hset).1
        omega
  refine streamPoly_ne_zero hm hbit (eq_zero_of_dvd_of_degree_lt hdvd ?_)
  rw [degree_generator]
  exact degree_streamPoly_lt hlast

end AdsbBridge.Lib.Crc
