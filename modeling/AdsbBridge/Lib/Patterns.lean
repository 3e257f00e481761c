import Mathlib.Data.List.Nodup
import Mathlib.Data.List.Perm.Basic
import Mathlib.Data.Nat.Bitwise

/-! # Patterns of places

A pattern is a finite set of places, kept as an increasing list. A word for each
place gives a word for each pattern, the exclusive or of its own: the words of
two patterns add up to that of the places in just one of them. -/
namespace AdsbBridge.Lib

/-- Places in increasing order, from `lo` on and below `hi`. -/
structure IsPattern (lo hi : ℕ) (p : List ℕ) : Prop where
  increasing : p.Pairwise (· < ·)
  within : ∀ i ∈ p, lo ≤ i ∧ i < hi

namespace IsPattern

variable {lo hi i : ℕ} {p : List ℕ}

theorem nil : IsPattern lo hi [] := ⟨List.Pairwise.nil, by simp⟩

theorem cons_iff : IsPattern lo hi (i :: p) ↔ (lo ≤ i ∧ i < hi) ∧ IsPattern (i + 1) hi p := by
  constructor
  · rintro ⟨hinc, hwithin⟩
    obtain ⟨hfirst, hrest⟩ := List.pairwise_cons.1 hinc
    exact ⟨hwithin i List.mem_cons_self, hrest, fun j hj =>
      ⟨hfirst j hj, (hwithin j (List.mem_cons_of_mem i hj)).2⟩⟩
  · rintro ⟨hplace, hinc, hwithin⟩
    refine ⟨List.pairwise_cons.2 ⟨fun j hj => (hwithin j hj).1, hinc⟩, fun j hj => ?_⟩
    rcases List.mem_cons.1 hj with rfl | hj
    · exact hplace
    · have := hwithin j hj
      omega

theorem nodup (h : IsPattern lo hi p) : p.Nodup := h.increasing.imp fun hlt => hlt.ne

theorem mono {lo' hi' : ℕ} (h : IsPattern lo hi p) (hlo : lo' ≤ lo) (hhi : hi ≤ hi') :
    IsPattern lo' hi' p := by
  refine ⟨h.increasing, fun j hj => ?_⟩
  have := h.within j hj
  omega

/-- A pattern is the set of its places. -/
theorem eq_of_mem {q : List ℕ} (hp : IsPattern lo hi p) (hq : IsPattern lo hi q)
    (h : ∀ j, j ∈ p ↔ j ∈ q) : p = q :=
  ((List.perm_ext_iff_of_nodup hp.nodup hq.nodup).2 h).eq_of_pairwise
    (fun _ _ _ _ hlt hgt => absurd hlt (lt_asymm hgt)) hp.increasing hq.increasing

theorem filter_range (keep : ℕ → Bool) (n : ℕ) : IsPattern 0 n ((List.range n).filter keep) :=
  ⟨List.pairwise_lt_range.filter keep, fun j hj =>
    ⟨Nat.zero_le j, List.mem_range.1 (List.mem_filter.1 hj).1⟩⟩

end IsPattern

/-- A pattern of at most so many places has its first one, and the others above it. -/
theorem exists_isPattern_succ {lo hi n : ℕ} {holds : List ℕ → Prop} :
    (∃ p, IsPattern lo hi p ∧ p ≠ [] ∧ p.length ≤ n + 1 ∧ holds p) ↔
      ∃ i, (lo ≤ i ∧ i < hi) ∧ (holds [i] ∨
        ∃ p, IsPattern (i + 1) hi p ∧ p ≠ [] ∧ p.length ≤ n ∧ holds (i :: p)) := by
  constructor
  · rintro ⟨p, hp, hne, hlen, hholds⟩
    obtain ⟨i, p, rfl⟩ := List.exists_cons_of_ne_nil hne
    obtain ⟨hi, hp⟩ := IsPattern.cons_iff.1 hp
    refine ⟨i, hi, ?_⟩
    by_cases hnil : p = []
    · exact .inl (hnil ▸ hholds)
    · exact .inr ⟨p, hp, hnil, Nat.le_of_succ_le_succ hlen, hholds⟩
  · rintro ⟨i, hi, hholds | ⟨p, hp, -, hlen, hholds⟩⟩
    · exact ⟨[i], IsPattern.cons_iff.2 ⟨hi, IsPattern.nil⟩, List.cons_ne_nil _ _,
        Nat.succ_le_succ n.zero_le, hholds⟩
    · exact ⟨i :: p, IsPattern.cons_iff.2 ⟨hi, hp⟩, List.cons_ne_nil _ _,
        Nat.succ_le_succ hlen, hholds⟩

theorem not_exists_isPattern_zero {lo hi : ℕ} {holds : List ℕ → Prop} :
    ¬∃ p, IsPattern lo hi p ∧ p ≠ [] ∧ p.length ≤ 0 ∧ holds p := by
  rintro ⟨p, -, hne, hlen, -⟩
  exact hne (List.eq_nil_of_length_eq_zero (Nat.le_zero.1 hlen))

/-- Places in any order make a pattern. -/
theorem exists_isPattern_perm {p : List ℕ} (hnodup : p.Nodup) {n : ℕ} (hlt : ∀ i ∈ p, i < n) :
    ∃ q, IsPattern 0 n q ∧ q.Perm p := by
  have hperm := List.mergeSort_perm p fun a b => decide (a ≤ b)
  refine ⟨_, ⟨?_, fun i hi => ⟨Nat.zero_le i, hlt i (hperm.mem_iff.1 hi)⟩⟩, hperm⟩
  have hsorted : (p.mergeSort fun a b => decide (a ≤ b)).Pairwise fun a b => a ≤ b := by
    refine (List.pairwise_mergeSort ?_ ?_ p).imp fun hab => of_decide_eq_true hab
    · intro a b c hab hbc
      simp only [decide_eq_true_eq] at hab hbc ⊢
      omega
    · intro a b
      simp only [Bool.or_eq_true, decide_eq_true_eq]
      omega
  have hdistinct : (p.mergeSort fun a b => decide (a ≤ b)).Nodup := hperm.nodup_iff.2 hnodup
  exact (hsorted.and hdistinct).imp fun ⟨hle, hne⟩ => lt_of_le_of_ne hle hne

/-! ## The word of a pattern -/

section

variable (word : ℕ → ℕ)

def xorSum (p : List ℕ) : ℕ := p.foldr (fun i sum => word i ^^^ sum) 0

@[simp] theorem xorSum_nil : xorSum word [] = 0 := rfl

@[simp] theorem xorSum_cons (i : ℕ) (p : List ℕ) : xorSum word (i :: p) = word i ^^^ xorSum word p :=
  rfl

theorem xorSum_append (p q : List ℕ) : xorSum word (p ++ q) = xorSum word p ^^^ xorSum word q := by
  induction p with
  | nil => exact (Nat.zero_xor _).symm
  | cons i p ih => rw [List.cons_append, xorSum_cons, xorSum_cons, ih, Nat.xor_assoc]

theorem xorSum_perm {p q : List ℕ} (h : p.Perm q) : xorSum word p = xorSum word q := by
  induction h with
  | nil => rfl
  | cons i _ ih => rw [xorSum_cons, xorSum_cons, ih]
  | swap i j p =>
    simp only [xorSum_cons]
    rw [← Nat.xor_assoc, Nat.xor_comm (word j), Nat.xor_assoc]
  | trans _ _ ih₁ ih₂ => exact ih₁.trans ih₂

theorem xorSum_map (f : ℕ → ℕ) (p : List ℕ) : xorSum word (p.map f) = xorSum (fun i => word (f i)) p := by
  induction p with
  | nil => rfl
  | cons i p ih => rw [List.map_cons, xorSum_cons, xorSum_cons, ih]

theorem xorSum_congr {word' : ℕ → ℕ} {p : List ℕ} (h : ∀ i ∈ p, word i = word' i) :
    xorSum word p = xorSum word' p := by
  induction p with
  | nil => rfl
  | cons i p ih =>
    rw [xorSum_cons, xorSum_cons, h i List.mem_cons_self,
      ih fun j hj => h j (List.mem_cons_of_mem i hj)]

/-- The places in just one of two patterns. -/
def symmDiffPlaces (p q : List ℕ) : List ℕ := p.filter (· ∉ q) ++ q.filter (· ∉ p)

variable {p q : List ℕ}

theorem mem_symmDiffPlaces {i : ℕ} :
    i ∈ symmDiffPlaces p q ↔ (i ∈ p ∧ i ∉ q) ∨ (i ∈ q ∧ i ∉ p) := by
  simp [symmDiffPlaces]

theorem length_symmDiffPlaces_le : (symmDiffPlaces p q).length ≤ p.length + q.length := by
  rw [symmDiffPlaces, List.length_append]
  exact Nat.add_le_add (List.length_filter_le _ p) (List.length_filter_le _ q)

theorem nodup_symmDiffPlaces (hp : p.Nodup) (hq : q.Nodup) : (symmDiffPlaces p q).Nodup := by
  refine List.nodup_append'.2 ⟨hp.filter _, hq.filter _, fun i hi hi' => ?_⟩
  have hnot := (List.mem_filter.1 hi').2
  exact (of_decide_eq_true hnot) (List.mem_filter.1 hi).1

/-- **Two patterns add up** to what they do not share. -/
theorem xorSum_symmDiffPlaces (hp : p.Nodup) (hq : q.Nodup) :
    xorSum word (symmDiffPlaces p q) = xorSum word p ^^^ xorSum word q := by
  have hsplit : ∀ l k : List ℕ, xorSum word l =
      xorSum word (l.filter (· ∈ k)) ^^^ xorSum word (l.filter (· ∉ k)) := by
    intro l k
    rw [← xorSum_append]
    refine xorSum_perm word ?_
    simpa only [decide_not] using (List.filter_append_perm (fun i => decide (i ∈ k)) l).symm
  have hshared : xorSum word (p.filter (· ∈ q)) = xorSum word (q.filter (· ∈ p)) := by
    refine xorSum_perm word ((List.perm_ext_iff_of_nodup (hp.filter _) (hq.filter _)).2 fun i => ?_)
    simp only [List.mem_filter, decide_eq_true_eq]
    exact and_comm
  rw [hsplit p q, hsplit q p, hshared, symmDiffPlaces, xorSum_append]
  generalize xorSum word (q.filter (· ∈ p)) = shared
  generalize xorSum word (p.filter (· ∉ q)) = left
  generalize xorSum word (q.filter (· ∉ p)) = right
  rw [Nat.xor_comm shared left, Nat.xor_assoc left, Nat.xor_xor_cancel_left]

/-- Patterns with one word differ in places that add up to nothing. -/
theorem exists_xorSum_eq_zero {n : ℕ} (hp : IsPattern 0 n p) (hq : IsPattern 0 n q) (hne : p ≠ q)
    (h : xorSum word p = xorSum word q) :
    ∃ places : List ℕ, places.Nodup ∧ (∀ i ∈ places, i < n) ∧ places ≠ [] ∧
      places.length ≤ p.length + q.length ∧ xorSum word places = 0 := by
  refine ⟨symmDiffPlaces p q, nodup_symmDiffPlaces hp.nodup hq.nodup, fun i hi => ?_, ?_,
    length_symmDiffPlaces_le, ?_⟩
  · rcases mem_symmDiffPlaces.1 hi with ⟨hi, -⟩ | ⟨hi, -⟩
    · exact (hp.within i hi).2
    · exact (hq.within i hi).2
  · intro hnil
    refine hne (hp.eq_of_mem hq fun i => ?_)
    have hnone : i ∉ symmDiffPlaces p q := by
      rw [hnil]
      exact List.not_mem_nil
    rw [mem_symmDiffPlaces] at hnone
    tauto
  · rw [xorSum_symmDiffPlaces word hp.nodup hq.nodup, h, Nat.xor_self]

end

end AdsbBridge.Lib
