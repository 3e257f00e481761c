import Mathlib.Data.Int.Log
import Mathlib.Data.Rat.Floor
import Mathlib.Tactic.Linarith
import AdsbBridge.Lib.Text

/-! # Rounding to binary floating point

A format has a precision and a least exponent; its numbers are the integers of
that precision times a power of two. A number is rounded to a multiple of a unit
in its last place. The greatest exponent is left to those who use a format. -/
namespace AdsbBridge.Lib

/-! ## To the nearest integer -/

namespace Text

def IsNearest (round : ℚ → ℤ) : Prop := ∀ x, |(round x : ℚ) - x| ≤ 1 / 2

theorem isNearest_roundHalfEven : IsNearest roundHalfEven := by
  intro x
  have hlo := Int.floor_le x
  have hhi := Int.lt_floor_add_one x
  rw [abs_le]
  unfold roundHalfEven
  simp only
  split_ifs <;> push_cast <;> constructor <;> linarith

theorem isNearest_roundHalfAway : IsNearest roundHalfAway := by
  intro x
  have hlo := Int.floor_le (x + 1 / 2)
  have hhi := Int.lt_floor_add_one (x + 1 / 2)
  have hlo' := Int.floor_le (-x + 1 / 2)
  have hhi' := Int.lt_floor_add_one (-x + 1 / 2)
  rw [abs_le]
  unfold roundHalfAway
  split_ifs <;> push_cast <;> constructor <;> linarith

/-- What is not negative is not rounded below zero. -/
theorem IsNearest.nonneg {round : ℚ → ℤ} (h : IsNearest round) {x : ℚ} (hx : 0 ≤ x) :
    0 ≤ round x := by
  have hlow := (abs_le.1 (h x)).1
  have hgt : (-1 : ℚ) < round x := by linarith
  have : -1 < round x := by exact_mod_cast hgt
  omega

/-- A number that is not above an integer is not rounded above it. -/
theorem IsNearest.le_of_le {round : ℚ → ℤ} (h : IsNearest round) {x : ℚ} {n : ℤ} (hx : x ≤ n) :
    round x ≤ n := by
  have hhigh := (abs_le.1 (h x)).2
  have hlt : (round x : ℚ) < n + 1 := by linarith
  exact Int.lt_add_one_iff.1 (by exact_mod_cast hlt)

theorem IsNearest.ge_of_ge {round : ℚ → ℤ} (h : IsNearest round) {x : ℚ} {n : ℤ} (hx : n ≤ x) :
    n ≤ round x := by
  have hlow := (abs_le.1 (h x)).1
  have hlt : (n : ℚ) < round x + 1 := by linarith
  exact Int.lt_add_one_iff.1 (by exact_mod_cast hlt)

/-- An integer is its own nearest one. -/
theorem IsNearest.intCast {round : ℚ → ℤ} (h : IsNearest round) (n : ℤ) : round n = n :=
  le_antisymm (h.le_of_le le_rfl) (h.ge_of_ge le_rfl)

end Text

/-! ## Formats -/

structure BinaryFormat where
  precision : ℕ
  minExponent : ℤ

def binary64 : BinaryFormat := ⟨53, -1074⟩

namespace BinaryFormat

variable (f : BinaryFormat)

def exponent (x : ℚ) : ℤ := max (Int.log 2 |x| + 1 - f.precision) f.minExponent

def ulp (x : ℚ) : ℚ := 2 ^ f.exponent x

/-- Rounding to the nearest number of the format, a tie to the even one. -/
def round (x : ℚ) : ℚ := Text.roundHalfEven (x / f.ulp x) * f.ulp x

def Holds (x : ℚ) : Prop :=
  ∃ m e : ℤ, |m| < 2 ^ f.precision ∧ f.minExponent ≤ e ∧ x = m * 2 ^ e

variable {f} {x y : ℚ}

theorem ulp_pos (x : ℚ) : 0 < f.ulp x := zpow_pos (by norm_num) _

/-- **Rounding is off by half a unit at most.** -/
theorem abs_round_sub_le (x : ℚ) : |f.round x - x| ≤ f.ulp x / 2 := by
  have hpos : 0 < f.ulp x := ulp_pos x
  have hnear := Text.isNearest_roundHalfEven (x / f.ulp x)
  have hscaled : f.round x - x = (Text.roundHalfEven (x / f.ulp x) - x / f.ulp x) * f.ulp x := by
    rw [round, sub_mul, div_mul_cancel₀ x hpos.ne']
  rw [hscaled, abs_mul, abs_of_pos hpos]
  calc |(Text.roundHalfEven (x / f.ulp x) : ℚ) - x / f.ulp x| * f.ulp x
      ≤ 1 / 2 * f.ulp x := mul_le_mul_of_nonneg_right hnear hpos.le
    _ = f.ulp x / 2 := by ring

theorem log_lt {k : ℤ} (hk : 0 < k) (hx : |x| < 2 ^ k) : Int.log 2 |x| < k := by
  rcases eq_or_ne x 0 with rfl | hne
  · simpa using hk
  · exact (Int.lt_zpow_iff_log_lt Nat.one_lt_two (abs_pos.2 hne)).1 (by simpa using hx)

theorem ulp_le {k : ℤ} (hk : 0 < k) (hx : |x| < 2 ^ k) (hmin : f.minExponent ≤ k - f.precision) :
    f.ulp x ≤ 2 ^ (k - f.precision) := by
  have hlog := log_lt hk hx
  refine zpow_le_zpow_right₀ (by norm_num) (max_le ?_ hmin)
  omega

/-- A number of the format is on the grid of every smaller one. -/
theorem Holds.on_grid (hy : f.Holds y) (hx : x ≠ 0) (h : |x| ≤ |y|) : ∃ n : ℤ, y = n * f.ulp x := by
  obtain ⟨m, e, hm, he, rfl⟩ := hy
  have hbelow : |(m : ℚ) * 2 ^ e| < 2 ^ (f.precision + e) := by
    have hpow : (0 : ℚ) < 2 ^ e := zpow_pos (by norm_num) e
    have hcast : |(m : ℚ)| < 2 ^ f.precision := by exact_mod_cast hm
    rw [abs_mul, abs_of_pos hpow, zpow_add₀ (by norm_num), zpow_natCast]
    exact mul_lt_mul_of_pos_right hcast hpow
  have hlog : Int.log 2 |x| < f.precision + e :=
    (Int.lt_zpow_iff_log_lt Nat.one_lt_two (abs_pos.2 hx)).1 (by simpa using h.trans_lt hbelow)
  have hexponent : f.exponent x ≤ e := max_le (by omega) he
  refine ⟨m * 2 ^ (e - f.exponent x).toNat, ?_⟩
  have hsplit : (2 : ℚ) ^ e = 2 ^ (e - f.exponent x).toNat * 2 ^ f.exponent x := by
    rw [← zpow_natCast, Int.toNat_of_nonneg (by omega), ← zpow_add₀ (by norm_num), sub_add_cancel]
  rw [ulp, hsplit]
  push_cast
  ring

/-- **What a format holds it does not round.** -/
theorem round_of_holds (h : f.Holds x) : f.round x = x := by
  rcases eq_or_ne x 0 with rfl | hne
  · rw [round, zero_div, ← Int.cast_zero, Text.isNearest_roundHalfEven.intCast]
    simp
  · obtain ⟨n, hn⟩ := h.on_grid hne le_rfl
    have hscaled : x / f.ulp x = n := by
      rw [div_eq_iff (ulp_pos x).ne']
      exact hn
    rw [round, hscaled, Text.isNearest_roundHalfEven.intCast]
    exact hn.symm

/-- Rounding does not go beyond a number of the format. -/
theorem abs_round_le (hy : f.Holds y) (h : |x| ≤ y) : |f.round x| ≤ y := by
  have hpos : 0 < f.ulp x := ulp_pos x
  have hnonneg : 0 ≤ y := (abs_nonneg x).trans h
  rcases eq_or_ne x 0 with rfl | hne
  · rw [round, zero_div, ← Int.cast_zero, Text.isNearest_roundHalfEven.intCast]
    simpa using hnonneg
  · obtain ⟨n, hn⟩ := hy.on_grid hne (h.trans (le_abs_self y))
    obtain ⟨hlow, hhigh⟩ := abs_le.1 h
    have hle : Text.roundHalfEven (x / f.ulp x) ≤ n := by
      refine Text.isNearest_roundHalfEven.le_of_le ?_
      rw [div_le_iff₀ hpos, ← hn]
      exact hhigh
    have hge : -n ≤ Text.roundHalfEven (x / f.ulp x) := by
      refine Text.isNearest_roundHalfEven.ge_of_ge ?_
      rw [le_div_iff₀ hpos, Int.cast_neg, neg_mul, ← hn]
      exact hlow
    rw [round, abs_mul, abs_of_pos hpos, hn]
    refine mul_le_mul_of_nonneg_right ?_ hpos.le
    exact_mod_cast abs_le.2 ⟨hge, hle⟩

theorem holds_intCast {v : ℤ} (hv : |v| < 2 ^ f.precision) (hmin : f.minExponent ≤ 0) :
    f.Holds v :=
  ⟨v, 0, hv, hmin, by simp⟩

end BinaryFormat

/-- The error of a `double` below 512. -/
theorem binary64_round_sub_le {x : ℚ} (hx : |x| < 2 ^ 9) : |binary64.round x - x| ≤ 1 / 2 ^ 45 := by
  have hulp := @BinaryFormat.ulp_le binary64 x 9 (by decide) hx (by decide)
  calc |binary64.round x - x|
      ≤ binary64.ulp x / 2 := BinaryFormat.abs_round_sub_le x
    _ ≤ 2 ^ ((9 : ℤ) - binary64.precision) / 2 := by linarith
    _ = 1 / 2 ^ 45 := by norm_num [binary64]

end AdsbBridge.Lib
