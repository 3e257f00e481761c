import Mathlib.Data.Rat.Floor
import Mathlib.Algebra.Order.Archimedean.Real.Basic
import Mathlib.Tactic.Linarith
import Mathlib.Tactic.Ring
import Mathlib.Tactic.FieldSimp
import Mathlib.Tactic.Positivity
import Mathlib.Algebra.Order.Round

/-! # Positions on a circle kept as a zone and a rounded residue

A circle is cut into `n` equal zones. A position, in units of one zone, is
rounded to the grid of `N` steps a zone; only the step inside the zone (the
residue) is kept. Two such residues, for `n` and `n - 1` zones, determine the
zone again. Nothing here names an application. -/
namespace AdsbBridge.Lib.Zones

/-- The grid point nearest to position `p` (ties upwards), in steps. -/
noncomputable def gridPoint (N : ℕ) (p : ℝ) : ℤ := ⌊N * p + 1 / 2⌋

/-- The zone a grid point falls into, carry included. -/
def zoneOf (N : ℕ) (v : ℤ) : ℤ := v / N

/-- The residue of a grid point inside its zone, as a fraction of the zone. -/
def residueOf (N : ℕ) (v : ℤ) : ℚ := ((v % N : ℤ) : ℚ) / N

theorem zone_add_residue {N : ℕ} (hN : 0 < N) (v : ℤ) :
    (zoneOf N v : ℚ) + residueOf N v = v / N := by
  have hd : ((N * (v / N) + v % N : ℤ) : ℚ) = v := by rw [Int.mul_ediv_add_emod]
  have hn : (N : ℚ) ≠ 0 := by positivity
  simp only [zoneOf, residueOf]
  rw [eq_div_iff hn, add_mul, div_mul_cancel₀ _ hn]
  push_cast at hd
  linarith

/-- Rounding moves a position by at most half a step. -/
theorem gridPoint_error {N : ℕ} (hN : 0 < N) (p : ℝ) :
    |(gridPoint N p : ℝ) / N - p| ≤ 1 / (2 * N) := by
  have hn : (0 : ℝ) < N := by exact_mod_cast hN
  have hl := Int.floor_le ((N : ℝ) * p + 1 / 2)
  have hu := Int.lt_floor_add_one ((N : ℝ) * p + 1 / 2)
  have hv : |(gridPoint N p : ℝ) - N * p| ≤ 1 / 2 := by
    unfold gridPoint
    rw [abs_le]
    constructor <;> linarith
  have hs : (gridPoint N p : ℝ) / N - p = ((gridPoint N p : ℝ) - N * p) / N := by
    field_simp
  rw [hs, abs_div, abs_of_pos hn, div_le_div_iff₀ hn (by positivity)]
  nlinarith

/-- Grid points keep the order of the positions. -/
theorem gridPoint_mono (N : ℕ) {p q : ℝ} (h : p ≤ q) : gridPoint N p ≤ gridPoint N q := by
  unfold gridPoint
  apply Int.floor_le_floor
  have hn : (0 : ℝ) ≤ N := Nat.cast_nonneg N
  nlinarith

/-- A position on the grid is its own grid point. -/
theorem gridPoint_of_grid {N : ℕ} {p : ℝ} {v : ℤ} (h : (N : ℝ) * p = v) : gridPoint N p = v := by
  unfold gridPoint
  rw [h, Int.floor_eq_iff]
  constructor <;> linarith

/-- **The index between two zonings.** With `n` and `n - 1` zones of the same
circle and both positions rounded by at most `ε`, the two residues fix the
integer `n * z₁ - (n - 1) * z₀` of the two zones. -/
theorem zoneIndex_eq {n z₀ z₁ : ℤ} {f₀ f₁ : ℚ} {t ε : ℝ} (hn : 1 ≤ n)
    (h₀ : |((z₀ + f₀ : ℚ) : ℝ) - n * t| ≤ ε) (h₁ : |((z₁ + f₁ : ℚ) : ℝ) - (n - 1) * t| ≤ ε)
    (hε : (2 * n - 1) * ε < 1 / 2) :
    ⌊((n - 1) * f₀ - n * f₁ + 1 / 2 : ℚ)⌋ = n * z₁ - (n - 1) * z₀ := by
  have hn' : (1 : ℝ) ≤ n := by exact_mod_cast hn
  rw [← Rat.floor_cast (α := ℝ), Int.floor_eq_iff]
  push_cast at h₀ h₁ ⊢
  obtain ⟨l₀, u₀⟩ := abs_le.mp h₀
  obtain ⟨l₁, u₁⟩ := abs_le.mp h₁
  -- the two errors enter with weights `n - 1` and `n`
  have a₀ := mul_le_mul_of_nonneg_left l₀ (by linarith : (0 : ℝ) ≤ n - 1)
  have b₀ := mul_le_mul_of_nonneg_left u₀ (by linarith : (0 : ℝ) ≤ n - 1)
  have a₁ := mul_le_mul_of_nonneg_left l₁ (by linarith : (0 : ℝ) ≤ n)
  have b₁ := mul_le_mul_of_nonneg_left u₁ (by linarith : (0 : ℝ) ≤ n)
  constructor <;> nlinarith

theorem zoneIndex_emod (n z₀ z₁ : ℤ) : (n * z₁ - (n - 1) * z₀) % n = z₀ % n := by
  rw [show n * z₁ - (n - 1) * z₀ = z₀ + n * (z₁ - z₀) by ring, Int.add_mul_emod_self_left]

theorem zoneIndex_emod_pred (n z₀ z₁ : ℤ) :
    (n * z₁ - (n - 1) * z₀) % (n - 1) = z₁ % (n - 1) := by
  rw [show n * z₁ - (n - 1) * z₀ = z₁ + (n - 1) * (z₁ - z₀) by ring, Int.add_mul_emod_self_left]

end AdsbBridge.Lib.Zones
