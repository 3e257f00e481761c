import Mathlib.Data.List.Basic
import Mathlib.Order.Lattice

/-! # Taking the smallest away

A search through a list that goes on with the smaller of two elements, and what
is left of a list when elements that were the smallest of it have gone. -/
namespace AdsbBridge.Lib.Smallest

variable {α β : Type} [LinearOrder β] {key : α → β}

/-! ## The search -/

section Search

variable {next : Option α → α → Option α}

/-- With a candidate at hand the search finds an element below all others. -/
theorem foldl_some (hnext : ∀ b a, next (some b) a = if key a < key b then some a else some b)
    (b : α) (l : List α) :
    ∃ e ∈ b :: l, l.foldl next (some b) = some e ∧ ∀ a ∈ b :: l, key e ≤ key a := by
  induction l generalizing b with
  | nil => exact ⟨b, List.mem_cons_self, rfl, fun a ha => by rw [List.mem_singleton.1 ha]⟩
  | cons c rest ih =>
    rw [List.foldl_cons, hnext]
    by_cases hlt : key c < key b
    · rw [if_pos hlt]
      obtain ⟨e, hmem, hfound, hle⟩ := ih c
      refine ⟨e, List.mem_cons_of_mem b hmem, hfound, fun a ha => ?_⟩
      rcases List.mem_cons.1 ha with rfl | ha
      · exact le_trans (hle c List.mem_cons_self) (le_of_lt hlt)
      · exact hle a ha
    · rw [if_neg hlt]
      obtain ⟨e, hmem, hfound, hle⟩ := ih b
      have hb := hle b List.mem_cons_self
      refine ⟨e, ?_, hfound, fun a ha => ?_⟩
      · rcases List.mem_cons.1 hmem with rfl | hmem
        · exact List.mem_cons_self
        · exact List.mem_cons_of_mem b (List.mem_cons_of_mem c hmem)
      · rcases List.mem_cons.1 ha with rfl | ha
        · exact hb
        rcases List.mem_cons.1 ha with rfl | ha
        · exact le_trans hb (not_lt.1 hlt)
        · exact hle a (List.mem_cons_of_mem b ha)

/-- **The search of a list that is not empty finds a smallest element.** -/
theorem foldl_none (hnext : ∀ b a, next (some b) a = if key a < key b then some a else some b)
    {l : List α} (hfirst : ∀ a ∈ l, next none a = some a) (hne : l ≠ []) :
    ∃ e ∈ l, l.foldl next none = some e ∧ ∀ a ∈ l, key e ≤ key a := by
  cases l with
  | nil => exact absurd rfl hne
  | cons b rest =>
    rw [List.foldl_cons, hfirst b List.mem_cons_self]
    exact foldl_some hnext b rest

end Search

/-! ## What is left -/

/-- `kept` is a part of `l`, and nothing that was left out is above it. -/
structure Upper (key : α → β) (l kept : List α) : Prop where
  sublist : kept.Sublist l
  above : ∀ a ∈ l, a ∉ kept → ∀ b ∈ kept, key a ≤ key b

theorem Upper.refl (l : List α) : Upper key l l :=
  ⟨List.Sublist.refl l, fun _ ha hnot => absurd ha hnot⟩

/-- The upper part of an upper part is one. -/
theorem Upper.trans {l kept kept' : List α} (h : Upper key l kept) (h' : Upper key kept kept') :
    Upper key l kept' := by
  refine ⟨h'.sublist.trans h.sublist, fun a ha hnot b hb => ?_⟩
  by_cases hkept : a ∈ kept
  · exact h'.above a hkept hnot b hb
  · exact h.above a ha hkept b (h'.sublist.subset hb)

/-- A part without one smallest element is an upper part. -/
theorem Upper.of_smallest {l kept : List α} {e : α} (hsub : kept.Sublist l)
    (hleast : ∀ a ∈ l, key e ≤ key a) (hgone : ∀ a ∈ l, a ∉ kept → a = e) : Upper key l kept := by
  refine ⟨hsub, fun a ha hnot b hb => ?_⟩
  rw [hgone a ha hnot]
  exact hleast b (hsub.subset hb)

end AdsbBridge.Lib.Smallest
