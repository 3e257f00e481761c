import Mathlib.Data.Int.Notation
import Mathlib.Data.List.Nodup
import Mathlib.Data.List.Perm.Subperm

/-! # Maps that keep the order of insertion

A finite map as the list of its entries with pairwise different keys. `put`
replaces a value in place or appends a new entry, so iteration sees the keys
in the order they were first inserted. -/
namespace AdsbBridge.Lib

structure LinkedMap (κ ν : Type) where
  entries : List (κ × ν)
  nodup : (entries.map Prod.fst).Nodup

namespace LinkedMap

variable {κ ν : Type} [DecidableEq κ]

def empty : LinkedMap κ ν := ⟨[], List.nodup_nil⟩

instance : EmptyCollection (LinkedMap κ ν) := ⟨empty⟩

def size (m : LinkedMap κ ν) : ℕ := m.entries.length

def get? (m : LinkedMap κ ν) (k : κ) : Option ν := m.entries.lookup k

def putEntry (k : κ) (v : ν) : List (κ × ν) → List (κ × ν)
  | [] => [(k, v)]
  | (k', v') :: rest => if k' = k then (k, v) :: rest else (k', v') :: putEntry k v rest

omit [DecidableEq κ] in
theorem keys_sublist_filter (p : κ × ν → Bool) (entries : List (κ × ν)) :
    ((entries.filter p).map Prod.fst).Sublist (entries.map Prod.fst) :=
  List.filter_sublist.map Prod.fst

theorem keys_putEntry (k : κ) (v : ν) (entries : List (κ × ν)) :
    (putEntry k v entries).map Prod.fst =
      if k ∈ entries.map Prod.fst then entries.map Prod.fst else entries.map Prod.fst ++ [k] := by
  induction entries with
  | nil => simp [putEntry]
  | cons e rest ih =>
    obtain ⟨k', v'⟩ := e
    by_cases hk : k' = k
    · simp [putEntry, hk]
    · simp only [putEntry, if_neg hk, List.map_cons, ih, List.mem_cons, Ne.symm hk, false_or]
      split <;> rfl

def put (m : LinkedMap κ ν) (k : κ) (v : ν) : LinkedMap κ ν where
  entries := putEntry k v m.entries
  nodup := by
    rw [keys_putEntry]
    split
    · exact m.nodup
    · next hk => exact List.nodup_append.mpr ⟨m.nodup, List.nodup_singleton k, by
        intro a ha b hb hab
        exact hk (by simpa [← List.mem_singleton.mp hb, ← hab] using ha)⟩

/-- Erase every entry that fails `p`. -/
def filter (p : κ → ν → Bool) (m : LinkedMap κ ν) : LinkedMap κ ν where
  entries := m.entries.filter fun e => p e.1 e.2
  nodup := m.nodup.sublist (keys_sublist_filter _ _)

def erase (m : LinkedMap κ ν) (k : κ) : LinkedMap κ ν := m.filter fun k' _ => k' ≠ k

/-! ## Lookups -/

@[simp] theorem get?_empty (k : κ) : (∅ : LinkedMap κ ν).get? k = none := rfl

omit [DecidableEq κ] in
@[simp] theorem entries_empty : (∅ : LinkedMap κ ν).entries = [] := rfl

theorem mem_entries_iff {m : LinkedMap κ ν} {k : κ} {v : ν} :
    (k, v) ∈ m.entries ↔ m.get? k = some v := by
  obtain ⟨entries, hn⟩ := m
  simp only [get?]
  induction entries with
  | nil => simp
  | cons e rest ih =>
    obtain ⟨k', v'⟩ := e
    obtain ⟨hk', hrest⟩ := List.nodup_cons.mp hn
    by_cases hk : k = k'
    · subst hk
      have : (k, v) ∉ rest := by
        intro hm
        have hkm : k ∈ rest.map Prod.fst := List.mem_map_of_mem (f := Prod.fst) hm
        exact hk' hkm
      simp [this, eq_comm]
    · rw [List.lookup_cons, beq_false_of_ne hk, List.mem_cons, ih hrest]
      simp [hk]

@[simp] theorem get?_put_self (m : LinkedMap κ ν) (k : κ) (v : ν) :
    (m.put k v).get? k = some v := by
  rw [← mem_entries_iff]
  show (k, v) ∈ putEntry k v m.entries
  induction m.entries with
  | nil => simp [putEntry]
  | cons e rest ih =>
    obtain ⟨k', v'⟩ := e
    by_cases hk : k' = k
    · simp [putEntry, hk]
    · simp [putEntry, hk, ih]

theorem get?_put_of_ne (m : LinkedMap κ ν) {k k' : κ} (h : k' ≠ k) (v : ν) :
    (m.put k v).get? k' = m.get? k' := by
  show (putEntry k v m.entries).lookup k' = m.entries.lookup k'
  induction m.entries with
  | nil => simp [putEntry, List.lookup_cons, beq_false_of_ne h]
  | cons e rest ih =>
    obtain ⟨k'', v''⟩ := e
    by_cases hk : k'' = k
    · subst hk
      simp [putEntry, List.lookup_cons, beq_false_of_ne h]
    · simp only [putEntry, if_neg hk, List.lookup_cons, ih]

theorem get?_put (m : LinkedMap κ ν) (k k' : κ) (v : ν) :
    (m.put k v).get? k' = if k' = k then some v else m.get? k' := by
  split
  · next h => rw [h, get?_put_self]
  · next h => exact get?_put_of_ne m h v

theorem get?_filter (m : LinkedMap κ ν) (p : κ → ν → Bool) (k : κ) :
    (m.filter p).get? k = (m.get? k).filter (p k) := by
  apply Option.ext
  intro v
  rw [Option.filter_eq_some_iff, ← mem_entries_iff, ← mem_entries_iff]
  simp [filter]

theorem get?_eq_none_iff {m : LinkedMap κ ν} {k : κ} :
    m.get? k = none ↔ k ∉ m.entries.map Prod.fst := by
  constructor
  · intro hn hk
    obtain ⟨⟨k', v⟩, hm, rfl⟩ := List.mem_map.mp hk
    rw [mem_entries_iff.mp hm] at hn
    cases hn
  · intro hk
    cases hg : m.get? k with
    | none => rfl
    | some v => exact absurd (List.mem_map_of_mem (f := Prod.fst) (mem_entries_iff.mpr hg)) hk

/-! ## Sizes -/

theorem size_put (m : LinkedMap κ ν) (k : κ) (v : ν) :
    (m.put k v).size = if (m.get? k).isSome then m.size else m.size + 1 := by
  have hkeys := congrArg List.length (keys_putEntry k v m.entries)
  rw [List.length_map] at hkeys
  show (putEntry k v m.entries).length = _
  by_cases hk : k ∈ m.entries.map Prod.fst
  · have : (m.get? k).isSome := by
      rw [Option.isSome_iff_ne_none]
      exact fun hn => get?_eq_none_iff.mp hn hk
    simpa [this, hk, size] using hkeys
  · have : m.get? k = none := get?_eq_none_iff.mpr hk
    rw [if_neg hk] at hkeys
    simpa [this, size] using hkeys

/-- A map whose keys all come from a list is not longer than the list. -/
theorem size_le_of_keys {m : LinkedMap κ ν} {keys : List κ}
    (h : ∀ k, m.get? k ≠ none → k ∈ keys) : m.size ≤ keys.length := by
  have hsub : m.entries.map Prod.fst ⊆ keys := by
    intro k hk
    exact h k fun hn => get?_eq_none_iff.mp hn hk
  have hlen := (m.nodup.subperm hsub).length_le
  rwa [List.length_map] at hlen

omit [DecidableEq κ] in
theorem size_filter_le (m : LinkedMap κ ν) (p : κ → ν → Bool) : (m.filter p).size ≤ m.size :=
  List.length_filter_le _ _

omit [DecidableEq κ] in
theorem filter_eq_self {m : LinkedMap κ ν} {p : κ → ν → Bool}
    (h : ∀ e ∈ m.entries, p e.1 e.2 = true) : m.filter p = m := by
  obtain ⟨entries, hn⟩ := m
  have hall : (entries.filter fun e => p e.1 e.2) = entries := List.filter_eq_self.2 h
  simp only [filter, hall]

theorem size_filter_lt {m : LinkedMap κ ν} {p : κ → ν → Bool} {k : κ} {v : ν}
    (hget : m.get? k = some v) (hp : p k v = false) : (m.filter p).size < m.size := by
  refine List.length_filter_lt_length_iff_exists.2 ⟨(k, v), mem_entries_iff.2 hget, ?_⟩
  rw [hp]
  exact Bool.false_ne_true

/-- Erasing a key that is there takes one entry away. -/
theorem size_erase {m : LinkedMap κ ν} {e : κ × ν} (h : e ∈ m.entries) :
    (m.erase e.1).size + 1 = m.size := by
  have hone : (m.entries.filter fun e' => !decide (e'.1 ≠ e.1)).length = 1 := by
    have hcount := List.count_eq_one_of_mem m.nodup (List.mem_map_of_mem (f := Prod.fst) h)
    rw [List.count, List.countP_map, List.countP_eq_length_filter] at hcount
    rw [← hcount]
    congr 1
    refine List.filter_congr fun e' _ => ?_
    simp [beq_eq_decide]
  have hsplit := List.length_eq_length_filter_add (l := m.entries) fun e' => decide (e'.1 ≠ e.1)
  rw [hone] at hsplit
  exact hsplit.symm

/-- An entry that is kept may as well be put after the others were erased. -/
theorem filter_put {p : κ → ν → Bool} {m : LinkedMap κ ν} {k : κ} {v : ν} (hv : p k v = true)
    (hold : ∀ v', m.get? k = some v' → p k v' = true) :
    (m.put k v).filter p = (m.filter p).put k v := by
  obtain ⟨entries, hnodup⟩ := m
  simp only [put, filter, mk.injEq]
  simp only [get?] at hold
  clear hnodup
  induction entries with
  | nil => simp [putEntry, hv]
  | cons e rest ih =>
    obtain ⟨k', v'⟩ := e
    by_cases hk : k' = k
    · subst hk
      have hkept : p k' v' = true := hold v' (by rw [List.lookup_cons_self])
      simp [putEntry, hv, hkept]
    · have hrest : ∀ v', List.lookup k rest = some v' → p k v' = true := by
        intro w hw
        exact hold w (by rw [List.lookup_cons, beq_false_of_ne (Ne.symm hk)]; exact hw)
      rw [putEntry, if_neg hk]
      by_cases hp : p k' v' = true
      · rw [List.filter_cons_of_pos (by exact hp), List.filter_cons_of_pos (by exact hp), putEntry,
          if_neg hk, ih hrest]
      · rw [List.filter_cons_of_neg (by exact hp), List.filter_cons_of_neg (by exact hp), ih hrest]

/-! ## Sums over the values -/

def sumEntries (f : ν → ℤ) : List (κ × ν) → ℤ
  | [] => 0
  | e :: rest => f e.2 + sumEntries f rest

/-- The sum of `f` over all values. -/
def total (f : ν → ℤ) (m : LinkedMap κ ν) : ℤ := sumEntries f m.entries

/-- A put adds the new value and takes away the one it replaces. -/
theorem total_put (f : ν → ℤ) (m : LinkedMap κ ν) (k : κ) (v : ν) :
    (m.put k v).total f + ((m.get? k).map f).getD 0 = m.total f + f v := by
  show sumEntries f (putEntry k v m.entries) + ((m.entries.lookup k).map f).getD 0 = _ + _
  rw [total]
  induction m.entries with
  | nil => simp [putEntry, sumEntries]
  | cons e rest ih =>
    obtain ⟨k', v'⟩ := e
    by_cases hk : k' = k
    · subst hk
      rw [putEntry, if_pos rfl, List.lookup_cons_self, sumEntries, sumEntries, Option.map_some,
        Option.getD_some]
      simp only
      omega
    · rw [putEntry, if_neg hk, List.lookup_cons, beq_false_of_ne (Ne.symm hk), sumEntries, sumEntries]
      simp only
      omega

omit [DecidableEq κ] in
theorem total_filter_le {f : ν → ℤ} {m : LinkedMap κ ν} (hf : ∀ e ∈ m.entries, 0 ≤ f e.2)
    (p : κ → ν → Bool) : (m.filter p).total f ≤ m.total f := by
  obtain ⟨entries, hnodup⟩ := m
  show sumEntries f (entries.filter fun e => p e.1 e.2) ≤ sumEntries f entries
  simp only at hf
  clear hnodup
  induction entries with
  | nil => exact Int.le_refl _
  | cons e rest ih =>
    have hrest := ih fun e' he' => hf e' (List.mem_cons_of_mem _ he')
    have hhead := hf e List.mem_cons_self
    by_cases hp : p e.1 e.2 = true
    · rw [List.filter_cons_of_pos (by exact hp), sumEntries, sumEntries]
      omega
    · rw [List.filter_cons_of_neg (by exact hp), sumEntries]
      omega

omit [DecidableEq κ] in
theorem sumEntries_nonneg {f : ν → ℤ} {entries : List (κ × ν)} (hf : ∀ e ∈ entries, 0 ≤ f e.2) :
    0 ≤ sumEntries f entries := by
  induction entries with
  | nil => exact Int.le_refl _
  | cons e rest ih =>
    have hrest := ih fun e' he' => hf e' (List.mem_cons_of_mem _ he')
    have hhead := hf e List.mem_cons_self
    rw [sumEntries]
    omega

/-- No value is above a sum of values that are not negative. -/
theorem le_total {f : ν → ℤ} {m : LinkedMap κ ν} (hf : ∀ e ∈ m.entries, 0 ≤ f e.2) {k : κ} {v : ν}
    (h : m.get? k = some v) : f v ≤ m.total f := by
  have hmem := mem_entries_iff.2 h
  rw [total]
  generalize m.entries = entries at hf hmem
  induction entries with
  | nil => cases hmem
  | cons e rest ih =>
    have htail : ∀ e' ∈ rest, 0 ≤ f e'.2 := fun e' he' => hf e' (List.mem_cons_of_mem _ he')
    have hhead := hf e List.mem_cons_self
    rw [sumEntries]
    rcases List.mem_cons.1 hmem with rfl | hmem
    · have hrest := sumEntries_nonneg htail
      simp only
      omega
    · have hrest := ih htail hmem
      omega

end LinkedMap

end AdsbBridge.Lib
