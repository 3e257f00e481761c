import Mathlib.Algebra.BigOperators.Group.Finset.Basic

/-! # Times with gaps between them

A list of times each of which waits for the gap behind the one before. The gaps may
differ, and the first time has a bound of its own. -/
namespace AdsbBridge.Lib

variable {gap : ℕ → ℕ} {earliest : ℕ} {times : List ℕ}

/-- The first time is `earliest` or later, and each other one comes when the gap behind
its predecessor is over. -/
def Spaced (gap : ℕ → ℕ) (earliest : ℕ) : List ℕ → Prop
  | [] => True
  | time :: rest => earliest ≤ time ∧ Spaced (fun i => gap (i + 1)) (time + gap 0) rest

/-- **All gaps before a time are over.** -/
theorem Spaced.le_getElem (h : Spaced gap earliest times) {i time : ℕ}
    (htime : times[i]? = some time) : earliest + ∑ j ∈ Finset.range i, gap j ≤ time := by
  induction times generalizing gap earliest i with
  | nil => cases htime
  | cons first rest ih =>
    obtain ⟨hfirst, hrest⟩ := h
    cases i with
    | zero =>
      cases htime
      exact hfirst
    | succ i =>
      have hlater := ih hrest htime
      rw [Finset.sum_range_succ']
      calc earliest + (∑ j ∈ Finset.range i, gap (j + 1) + gap 0)
          ≤ first + (∑ j ∈ Finset.range i, gap (j + 1) + gap 0) := Nat.add_le_add_right hfirst _
        _ = first + gap 0 + ∑ j ∈ Finset.range i, gap (j + 1) := by
          rw [Nat.add_comm (∑ j ∈ _, _), Nat.add_assoc]
        _ ≤ time := hlater

end AdsbBridge.Lib
