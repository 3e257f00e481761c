import Mathlib.Data.Int.Order.Basic
import Mathlib.Data.List.Induction
import Mathlib.Data.List.Nodup

/-! # A best candidate, if there is just one

A search that goes through a list of candidates once, remembers the best score
so far and whether it was reached again, and that has a floor: a score that is
not above zero counts for nothing. -/
namespace AdsbBridge.Lib

/-- What a search remembers. -/
structure Choice (α : Type) where
  bestScore : ℤ := 0
  best : Option α := none
  ambiguous : Bool := false
  deriving DecidableEq, Repr

namespace Choice

variable {α : Type}

def consider (score : α → ℤ) (c : Choice α) (a : α) : Choice α :=
  if score a > c.bestScore then { bestScore := score a, best := some a, ambiguous := false }
  else if score a = c.bestScore then { c with ambiguous := true }
  else c

def search (score : α → ℤ) (candidates : List α) : Choice α :=
  candidates.foldl (consider score) {}

/-- The best one, if no other one is as good. -/
def chosen (c : Choice α) : Option α := if c.ambiguous then none else c.best

variable {score : α → ℤ} {candidates later : List α} {a b : α} {c : Choice α} {bound : ℤ}

theorem search_concat (candidates : List α) (a : α) :
    search score (candidates ++ [a]) = consider score (search score candidates) a := by
  rw [search, List.foldl_append]
  rfl

theorem bestScore_consider (c : Choice α) (a : α) :
    (consider score c a).bestScore = max c.bestScore (score a) := by
  unfold consider
  split
  · next hmore => exact (max_eq_right (le_of_lt hmore)).symm
  · next hless =>
    have hbest := (max_eq_left (not_lt.1 hless)).symm
    split
    · exact hbest
    · exact hbest

/-- No candidate has a score above the best. -/
theorem le_bestScore : 0 ≤ (search score candidates).bestScore ∧
    ∀ a ∈ candidates, score a ≤ (search score candidates).bestScore := by
  induction candidates using List.reverseRecOn with
  | nil => exact ⟨le_refl 0, fun a ha => absurd ha List.not_mem_nil⟩
  | append_singleton candidates a ih =>
    rw [search_concat, bestScore_consider]
    refine ⟨le_trans ih.1 (le_max_left _ _), fun b hb => ?_⟩
    rcases List.mem_append.1 hb with hb | hb
    · exact le_trans (ih.2 b hb) (le_max_left _ _)
    · rw [List.mem_singleton.1 hb]
      exact le_max_right _ _

theorem bestScore_lt (hfloor : 0 < bound) (h : ∀ a ∈ candidates, score a < bound) :
    (search score candidates).bestScore < bound := by
  induction candidates using List.reverseRecOn with
  | nil => exact hfloor
  | append_singleton candidates a ih =>
    rw [search_concat, bestScore_consider]
    exact max_lt (ih fun b hb => h b (List.mem_append_left _ hb)) (h a (List.mem_append_right _ (by simp)))

/-- Candidates below the best score change nothing. -/
theorem foldl_consider_of_lt (h : ∀ a ∈ later, score a < c.bestScore) :
    later.foldl (consider score) c = c := by
  induction later with
  | nil => rfl
  | cons a later ih =>
    have ha := h a List.mem_cons_self
    have hsame : consider score c a = c := by
      rw [consider, if_neg (by omega), if_neg (by omega)]
    rw [List.foldl_cons, hsame]
    exact ih fun b hb => h b (List.mem_cons_of_mem a hb)

/-- What was found has the best score, and unless it was reached again it is alone
with it. -/
theorem found (h : (search score candidates).best = some a) :
    a ∈ candidates ∧ 0 < score a ∧ score a = (search score candidates).bestScore ∧
      ((search score candidates).ambiguous = false →
        ∀ b ∈ candidates, b ≠ a → score b < score a) := by
  induction candidates using List.reverseRecOn with
  | nil => cases h
  | append_singleton candidates b ih =>
    have hbounds := @le_bestScore _ score candidates
    rw [search_concat] at h ⊢
    by_cases hmore : score b > (search score candidates).bestScore
    · rw [consider, if_pos hmore] at h ⊢
      obtain rfl : b = a := Option.some.inj h
      refine ⟨by simp, lt_of_le_of_lt hbounds.1 hmore, rfl, fun _ x hx hne => ?_⟩
      rcases List.mem_append.1 hx with hx | hx
      · exact lt_of_le_of_lt (hbounds.2 x hx) hmore
      · exact absurd (List.mem_singleton.1 hx) hne
    · rw [consider, if_neg hmore] at h ⊢
      by_cases hequal : score b = (search score candidates).bestScore
      · rw [if_pos hequal] at h ⊢
        obtain ⟨hmem, hpos, hbest, -⟩ := ih h
        exact ⟨List.mem_append_left _ hmem, hpos, hbest, fun hnot => nomatch hnot⟩
      · rw [if_neg hequal] at h ⊢
        obtain ⟨hmem, hpos, hbest, halone⟩ := ih h
        refine ⟨List.mem_append_left _ hmem, hpos, hbest, fun hnot x hx hne => ?_⟩
        rcases List.mem_append.1 hx with hx | hx
        · exact halone hnot x hx hne
        · rw [List.mem_singleton.1 hx]
          omega

/-- **What is chosen is the one candidate with the best score**, if that is above
zero. -/
theorem chosen_eq_some_iff (hnodup : candidates.Nodup) :
    (search score candidates).chosen = some a ↔
      a ∈ candidates ∧ 0 < score a ∧ ∀ b ∈ candidates, b ≠ a → score b < score a := by
  constructor
  · intro h
    rw [chosen] at h
    split at h
    · cases h
    · next hnot =>
      obtain ⟨hmem, hpos, -, halone⟩ := found h
      exact ⟨hmem, hpos, halone (Bool.eq_false_iff.2 hnot)⟩
  · rintro ⟨hmem, hpos, halone⟩
    obtain ⟨before, after, rfl⟩ := List.append_of_mem hmem
    obtain ⟨-, htail, hapart⟩ := List.nodup_append.1 hnodup
    have hbefore : (search score before).bestScore < score a := bestScore_lt hpos fun b hb =>
      halone b (List.mem_append_left _ hb) (hapart b hb a List.mem_cons_self)
    have hafter : ∀ b ∈ after, score b < score a := fun b hb =>
      halone b (List.mem_append_right _ (List.mem_cons_of_mem a hb)) fun heq =>
        (List.nodup_cons.1 htail).1 (heq ▸ hb)
    have hat : consider score (search score before) a =
        { bestScore := score a, best := some a, ambiguous := false } := if_pos hbefore
    have hsearch : search score (before ++ a :: after) =
        { bestScore := score a, best := some a, ambiguous := false } := by
      rw [search, List.foldl_append, List.foldl_cons]
      exact (congrArg (fun c => after.foldl (consider score) c) hat).trans
        (foldl_consider_of_lt hafter)
    rw [hsearch]
    rfl

end Choice

end AdsbBridge.Lib
