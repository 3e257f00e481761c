import Mathlib.Algebra.Order.Floor.Ring
import AdsbBridge.Lib.JavaNumber

/-! # Numbers with a fixed number of decimals, read back

`fixed` rounds a number to a grid and prints it; `parseDouble` of that text is the
`double` nearest to the grid point. For a rounding to the nearest integer number
and grid point are at most half a step of the grid apart. -/
namespace AdsbBridge.Lib.Text

/-- The grid point that `fixed` prints. -/
def roundedTo (round : ℚ → ℤ) (decimals : ℕ) (x : ℚ) : ℚ :=
  let scaled := (round (|x| * 10 ^ decimals)).natAbs
  (if x < 0 then -(scaled : ℚ) else scaled) / 10 ^ decimals

/-! ## The rounding error -/

theorem IsNearest.roundedTo_sub {round : ℚ → ℤ} (h : IsNearest round) (decimals : ℕ) (x : ℚ) :
    |roundedTo round decimals x - x| ≤ 1 / 2 / 10 ^ decimals := by
  have hpow : (0 : ℚ) < 10 ^ decimals := by positivity
  have hnonneg := h.nonneg (mul_nonneg (abs_nonneg x) hpow.le)
  have hnear := h (|x| * 10 ^ decimals)
  have hnat : (((round (|x| * 10 ^ decimals)).natAbs : ℕ) : ℚ) = round (|x| * 10 ^ decimals) := by
    rw [Nat.cast_natAbs, abs_of_nonneg hnonneg]
  rw [roundedTo, hnat, le_div_iff₀ hpow, ← abs_of_pos hpow, ← abs_mul, abs_of_pos hpow, sub_mul,
    div_mul_cancel₀ _ hpow.ne']
  rcases lt_or_ge x 0 with hx | hx
  · rw [abs_of_neg hx] at hnear ⊢
    rw [if_pos hx, ← abs_neg]
    refine le_of_eq_of_le (congrArg _ ?_) hnear
    ring
  · rw [abs_of_nonneg hx] at hnear ⊢
    rwa [if_neg (not_lt.2 hx)]

/-- Rounding does not carry a number over a whole one. -/
theorem IsNearest.abs_roundedTo_le {round : ℚ → ℤ} (h : IsNearest round) (decimals : ℕ) {x : ℚ}
    {n : ℕ} (hx : |x| ≤ n) : |roundedTo round decimals x| ≤ n := by
  have hpow : (0 : ℚ) < 10 ^ decimals := by positivity
  have hnonneg := h.nonneg (mul_nonneg (abs_nonneg x) hpow.le)
  have hscaled : |x| * 10 ^ decimals ≤ n * 10 ^ decimals := mul_le_mul_of_nonneg_right hx hpow.le
  have hround : round (|x| * 10 ^ decimals) ≤ ((n * 10 ^ decimals : ℕ) : ℤ) := by
    have hhigh := (abs_le.1 (h (|x| * 10 ^ decimals))).2
    have hlt : (round (|x| * 10 ^ decimals) : ℚ) < ((n * 10 ^ decimals : ℕ) : ℤ) + 1 := by
      push_cast
      linarith
    exact Int.lt_add_one_iff.1 (by exact_mod_cast hlt)
  have hnat : (round (|x| * 10 ^ decimals)).natAbs ≤ n * 10 ^ decimals := by omega
  have habs : |roundedTo round decimals x| = (round (|x| * 10 ^ decimals)).natAbs / 10 ^ decimals := by
    rw [roundedTo, abs_div, abs_of_pos hpow]
    split
    · rw [abs_neg, abs_of_nonneg (Nat.cast_nonneg _)]
    · rw [abs_of_nonneg (Nat.cast_nonneg _)]
  rw [habs, div_le_iff₀ hpow]
  exact_mod_cast hnat

/-! ## Reading a grid point -/

/-- The digits behind the point. -/
theorem length_padLeft {width : ℕ} {fill : Char} {t : Text} (h : t.length ≤ width) :
    (padLeft width fill t).length = width := by
  rw [padLeft, List.length_append, List.length_replicate]
  omega

theorem ofDigitChars_padLeft (width n acc : ℕ) (h : (ofNat n).length ≤ width) :
    Nat.ofDigitChars 10 (padLeft width '0' (ofNat n)) acc = 10 ^ width * acc + n := by
  rw [Nat.ofDigitChars_eq_ofDigitChars_zero, length_padLeft h, padLeft, Nat.ofDigitChars_append,
    Nat.ofDigitChars_replicate_zero, Nat.mul_zero, ofNat, Nat.ofDigitChars_ten_toDigits]

/-- A text with one point between digits. -/
theorem parseMagnitude_point {whole : ℕ} {fraction : Text} (h : ∀ c ∈ fraction, c.isDigit) :
    parseMagnitude (ofNat whole ++ '.' :: fraction) =
      some ((Nat.ofDigitChars 10 (ofNat whole ++ fraction) 0 : ℚ) /
        10 ^ fraction.length) := by
  have hwhole : ∀ c ∈ ofNat whole, c.isDigit := fun _ hc => ofNat_isDigit hc
  have hdecimal : parseMagnitude (ofNat whole ++ '.' :: fraction) =
      parseDecimal (ofNat whole ++ '.' :: fraction) := by
    have hx : ∀ c ∈ ofNat whole ++ '.' :: fraction, c ≠ 'x' ∧ c ≠ 'X' := by
      intro c hc
      rcases List.mem_append.1 hc with hc | hc
      · have hd := hwhole c hc
        constructor <;> rintro rfl <;> cases hd
      · rcases List.mem_cons.1 hc with rfl | hc
        · decide
        · have hd := h c hc
          constructor <;> rintro rfl <;> cases hd
    rw [parseMagnitude]
    · intro t ht
      rw [ht] at hx
      exact (hx 'x' (by simp)).1 rfl
    · intro t ht
      rw [ht] at hx
      exact (hx 'X' (by simp)).2 rfl
  have hdrop : (ofNat whole ++ '.' :: fraction).dropWhile Char.isDigit = '.' :: fraction := by
    rw [List.dropWhile_append_of_pos hwhole]
    rfl
  have htake : (ofNat whole ++ '.' :: fraction).takeWhile Char.isDigit = ofNat whole := by
    rw [List.takeWhile_append_of_pos hwhole]
    simp
  have hmantissa : readMantissa Char.isDigit (ofNat whole ++ '.' :: fraction) =
      (ofNat whole, fraction, []) := by
    rw [readMantissa, hdrop, htake]
    simp only [List.takeWhile_eq_self_iff.2 h, List.dropWhile_eq_nil_iff.2 h]
  rw [hdecimal, parseDecimal, hmantissa]
  simp only [isEmpty_ofNat, Bool.false_and, Bool.false_eq_true, if_false, endsNumber, if_true]
  rw [zero_sub, zpow_neg, zpow_natCast, div_eq_mul_inv]

theorem parseMagnitude_fixed {decimals : ℕ} (hd : 0 < decimals) (scaled : ℕ) :
    parseMagnitude (ofNat (scaled / 10 ^ decimals) ++
        '.' :: padLeft decimals '0' (ofNat (scaled % 10 ^ decimals))) =
      some ((scaled : ℚ) / 10 ^ decimals) := by
  have hshort : (ofNat (scaled % 10 ^ decimals)).length ≤ decimals :=
    (Nat.length_toDigits_le_iff (by decide) hd).2 (Nat.mod_lt _ (by positivity))
  have hdigits : ∀ c ∈ padLeft decimals '0' (ofNat (scaled % 10 ^ decimals)), c.isDigit := by
    intro c hc
    rcases List.mem_append.1 hc with hc | hc
    · rw [List.eq_of_mem_replicate hc]
      rfl
    · exact ofNat_isDigit hc
  have hvalue : Nat.ofDigitChars 10 (ofNat (scaled / 10 ^ decimals) ++
      padLeft decimals '0' (ofNat (scaled % 10 ^ decimals))) 0 = scaled := by
    rw [Nat.ofDigitChars_append, ofDigitChars_padLeft _ _ _ hshort, ofNat,
      Nat.ofDigitChars_ten_toDigits, Nat.div_add_mod]
  rw [parseMagnitude_point hdigits, length_padLeft hshort, hvalue]

/-- **What `fixed` prints is read as the `double` nearest to the grid point.** -/
theorem parseDouble_fixed (round : ℚ → ℤ) {decimals : ℕ} (hd : 0 < decimals) (x : ℚ)
    (h : |roundedTo round decimals x| < JavaDouble.overflow) :
    parseDouble (fixed round decimals x) =
      some (.finite (binary64.round (roundedTo round decimals x))) := by
  obtain ⟨scaled, hscaled⟩ : ∃ n, n = (round (|x| * 10 ^ decimals)).natAbs := ⟨_, rfl⟩
  obtain ⟨c, rest, hc, hdigit⟩ := ofNat_eq_cons (scaled / 10 ^ decimals)
  have hsign : takeSign (fixed round decimals x) = (decide (x < 0), ofNat (scaled / 10 ^ decimals) ++
      '.' :: padLeft decimals '0' (ofNat (scaled % 10 ^ decimals))) := by
    rw [fixed, ← hscaled]
    split
    · next hx => simp [takeSign, hx]
    · next hx =>
      rw [hc, List.cons_append, takeSign_of_isDigit hdigit]
      simp [hx]
  have hplain : ∀ name : Char, name.isDigit = false → ∀ t,
      ofNat (scaled / 10 ^ decimals) ++
        '.' :: padLeft decimals '0' (ofNat (scaled % 10 ^ decimals)) ≠ name :: t := by
    intro name hname t heq
    rw [hc, List.cons_append] at heq
    rw [← (List.cons.inj heq).1, hdigit] at hname
    cases hname
  have hvalue : (if x < 0 then -((scaled : ℚ) / 10 ^ decimals) else scaled / 10 ^ decimals) =
      roundedTo round decimals x := by
    rw [roundedTo, ← hscaled]
    split
    · rw [neg_div]
    · rfl
  have hnan := hplain 'N' rfl ['a', 'N']
  have hinf := hplain 'I' rfl ['n', 'f', 'i', 'n', 'i', 't', 'y']
  rw [parseDouble, hsign]
  simp only
  rw [if_neg (by exact hnan), if_neg (by exact hinf), parseMagnitude_fixed hd]
  simp only [Option.map_some, decide_eq_true_eq, hvalue, JavaDouble.nearest]
  rw [if_neg (not_le.2 h)]

end AdsbBridge.Lib.Text
