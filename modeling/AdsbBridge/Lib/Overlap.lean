import Mathlib.Data.List.Infix

/-! # Searching for a word one letter at a time

While a stream is read, how much of the front of a word its end shows is all
that a search for the word has to remember. -/
namespace AdsbBridge.Lib

variable {α : Type}

/-- The end of `read` shows the first `m` letters of `word` and no more. -/
structure Shows (word read : List α) (m : ℕ) : Prop where
  le : m ≤ word.length
  suffix : word.take m <:+ read
  most : ∀ k ≤ word.length, word.take k <:+ read → k ≤ m

instance [DecidableEq α] (word read : List α) (m : ℕ) : Decidable (Shows word read m) :=
  decidable_of_iff (m ≤ word.length ∧ word.take m <:+ read ∧
      ∀ k < word.length + 1, word.take k <:+ read → k ≤ m)
    ⟨fun h => ⟨h.1, h.2.1, fun k hk => h.2.2 k (Nat.lt_succ_of_le hk)⟩,
      fun h => ⟨h.le, h.suffix, fun k hk => h.most k (Nat.le_of_lt_succ hk)⟩⟩

namespace Shows

variable {word read : List α} {m m' : ℕ}

theorem nil (word : List α) : Shows word [] 0 := by
  refine ⟨Nat.zero_le _, List.suffix_rfl, fun k hk hs => ?_⟩
  have hlen := hs.length_le
  rw [List.length_take, List.length_nil] at hlen
  omega

/-- A front of the word at the end of a longer stretch is one letter longer
than a front at the end of the shorter. -/
theorem take_pred_suffix {k : ℕ} {b : α} (hk : k ≤ word.length) (h : word.take k <:+ read ++ [b]) :
    word.take (k - 1) <:+ read := by
  rcases List.suffix_concat_iff.1 h with hnil | ⟨t, ht, hread⟩
  · have hzero : k = 0 := by
      have := congrArg List.length hnil
      rw [List.length_take, List.length_nil] at this
      omega
    rw [hzero]
    exact List.nil_suffix
  · have hlen : t.length = k - 1 := by
      have := congrArg List.length ht
      rw [List.length_take, List.length_append, List.length_singleton] at this
      omega
    have htake : word.take (k - 1) = t := by
      have := congrArg (List.take (k - 1)) ht
      rwa [List.take_take, Nat.min_eq_left (by omega), ← hlen, List.take_left, hlen] at this
    rw [htake]
    exact hread

/-- **The next letter**: what the end shows then depends on what it shows now,
not on the rest of the stream. -/
theorem next (h : Shows word read m) {b : α} (h' : Shows word (word.take m ++ [b]) m') :
    Shows word (read ++ [b]) m' := by
  have hshort : word.take m ++ [b] <:+ read ++ [b] := by
    obtain ⟨front, hfront⟩ := h.suffix
    exact ⟨front, by rw [← List.append_assoc, hfront]⟩
  refine ⟨h'.le, h'.suffix.trans hshort, fun k hk hs => ?_⟩
  have hpred : k - 1 ≤ m := h.most (k - 1) (by omega) (take_pred_suffix hk hs)
  have hm := h.le
  refine h'.most k hk (List.suffix_of_suffix_length_le hs hshort ?_)
  rw [List.length_take, List.length_append, List.length_take, List.length_singleton]
  omega

/-- A letter that is not in the word ends every front of it. -/
theorem of_not_mem {b : α} (hb : b ∉ word) (read : List α) : Shows word (read ++ [b]) 0 := by
  refine ⟨Nat.zero_le _, List.nil_suffix, fun k hk hs => ?_⟩
  rcases List.suffix_concat_iff.1 hs with hnil | ⟨t, ht, -⟩
  · have := congrArg List.length hnil
    rw [List.length_take, List.length_nil] at this
    omega
  · have hmem : b ∈ word.take k := by
      rw [ht]
      exact List.mem_append_right t List.mem_cons_self
    exact absurd (List.mem_of_mem_take hmem) hb

/-- The whole word is shown when the stream ends with it. -/
theorem eq_length_iff (h : Shows word read m) : m = word.length ↔ word <:+ read := by
  refine ⟨fun he => ?_, fun hs => Nat.le_antisymm h.le (h.most _ (Nat.le_refl _) ?_)⟩
  · have := h.suffix
    rwa [he, List.take_length] at this
  · rwa [List.take_length]

end Shows

end AdsbBridge.Lib
