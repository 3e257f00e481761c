import Mathlib.Data.List.Nodup
import Mathlib.Data.List.TakeWhile
import Mathlib.Order.Lattice

/-! # Tables sorted by a key

What `qsort` and `bsearch` are used for: a table is put in the order of its
keys, the entries that share their key with another are thrown out, and what is
left is searched by halving. The entries that stay do not depend on the order
in which the table was filled, nor on how the sort treats equal keys. -/
namespace AdsbBridge.Lib.SortedTable

variable {α : Type} (key : α → ℕ)

/-- Keys increase: at most one entry for each key. -/
abbrev Ascending (table : List α) : Prop := table.Pairwise fun a b => key a < key b

/-! ## Searching -/

/-- `bsearch` in the places from `lo` on and below `hi`. -/
def searchFrom (table : List α) (k lo hi : ℕ) : Option ℕ :=
  if lo < hi then
    let mid := (lo + hi) / 2
    match table[mid]? with
    | none => none
    | some entry =>
      if k < key entry then searchFrom table k lo mid
      else if key entry < k then searchFrom table k (mid + 1) hi
      else some mid
  else none
termination_by hi - lo

def search (table : List α) (k : ℕ) : Option ℕ := searchFrom key table k 0 table.length

def lookup (table : List α) (k : ℕ) : Option α :=
  (search key table k).bind fun i => table[i]?

variable {key} {table : List α} {k i : ℕ} {entry : α}

theorem Ascending.key_lt (h : Ascending key table) {a b : α} {j : ℕ} (hi : table[i]? = some a)
    (hj : table[j]? = some b) (hij : i < j) : key a < key b := by
  obtain ⟨hi', rfl⟩ := List.getElem?_eq_some_iff.1 hi
  obtain ⟨hj', rfl⟩ := List.getElem?_eq_some_iff.1 hj
  exact List.pairwise_iff_getElem.1 h i j hi' hj' hij

theorem Ascending.place_unique (h : Ascending key table) {a b : α} {j : ℕ}
    (hi : table[i]? = some a) (hj : table[j]? = some b) (hkey : key a = key b) : i = j := by
  rcases lt_trichotomy i j with hlt | heq | hgt
  · exact absurd (h.key_lt hi hj hlt) (by omega)
  · exact heq
  · exact absurd (h.key_lt hj hi hgt) (by omega)

/-- Halving finds the place of a key that lies between its bounds. -/
theorem searchFrom_of_getElem? (h : Ascending key table) (hentry : table[i]? = some entry)
    {lo hi : ℕ} (hlo : lo ≤ i) (hhi : i < hi) (hlen : hi ≤ table.length) :
    searchFrom key table (key entry) lo hi = some i := by
  induction hn : hi - lo using Nat.strong_induction_on generalizing lo hi with
  | _ n ih =>
    obtain ⟨middle, hmiddle⟩ : ∃ middle, table[(lo + hi) / 2]? = some middle :=
      ⟨_, List.getElem?_eq_getElem (by omega)⟩
    rw [searchFrom, if_pos (by omega)]
    simp only [hmiddle]
    by_cases hbelow : key entry < key middle
    · have hplace : i < (lo + hi) / 2 := by
        by_contra hge
        rcases (not_lt.1 hge).lt_or_eq with hlt | heq
        · exact absurd (h.key_lt hmiddle hentry hlt) (by omega)
        · rw [heq, hentry] at hmiddle
          cases hmiddle
          exact lt_irrefl _ hbelow
      rw [if_pos hbelow]
      exact ih _ (by omega) hlo hplace (by omega) rfl
    · rw [if_neg hbelow]
      by_cases habove : key middle < key entry
      · have hplace : (lo + hi) / 2 < i := by
          by_contra hge
          rcases (not_lt.1 hge).lt_or_eq with hlt | heq
          · exact absurd (h.key_lt hentry hmiddle hlt) (by omega)
          · rw [← heq, hentry] at hmiddle
            cases hmiddle
            exact lt_irrefl _ habove
        rw [if_pos habove]
        exact ih _ (by omega) hplace hhi hlen rfl
      · rw [if_neg habove, h.place_unique hmiddle hentry (by omega)]

/-- What halving finds has the key. -/
theorem key_of_searchFrom {lo hi : ℕ} (h : searchFrom key table k lo hi = some i) :
    ∃ entry, table[i]? = some entry ∧ key entry = k := by
  fun_induction searchFrom key table k lo hi with
  | case1 => cases h
  | case2 lo hi hlt mid entry hmid hbelow ih => exact ih h
  | case3 lo hi hlt mid entry hmid hbelow habove ih => exact ih h
  | case4 lo hi hlt mid entry hmid hbelow habove =>
    obtain rfl := Option.some.inj h
    exact ⟨entry, hmid, by omega⟩
  | case5 => cases h

/-- **`bsearch` finds the entry with a key**, if there is one. -/
theorem search_eq_some_iff (h : Ascending key table) :
    search key table k = some i ↔ ∃ entry, table[i]? = some entry ∧ key entry = k := by
  refine ⟨key_of_searchFrom, ?_⟩
  rintro ⟨entry, hentry, rfl⟩
  have hlt := (List.getElem?_eq_some_iff.1 hentry).1
  exact searchFrom_of_getElem? h hentry (Nat.zero_le i) hlt (le_refl _)

theorem lookup_eq_some_iff (h : Ascending key table) :
    lookup key table k = some entry ↔ entry ∈ table ∧ key entry = k := by
  constructor
  · intro hlookup
    obtain ⟨i, hi, hentry⟩ := Option.bind_eq_some_iff.1 hlookup
    obtain ⟨found, hfound, hkey⟩ := key_of_searchFrom hi
    cases hentry.symm.trans hfound
    exact ⟨List.mem_of_getElem? hentry, hkey⟩
  · rintro ⟨hmem, hkey⟩
    obtain ⟨i, hi⟩ := List.mem_iff_getElem?.1 hmem
    rw [lookup, (search_eq_some_iff h).2 ⟨entry, hi, hkey⟩]
    exact hi

/-! ## Changing what was found -/

/-- Changes the entry with a key where it stands. -/
def modifyKey (key : α → ℕ) (table : List α) (k : ℕ) (f : α → α) : List α :=
  match search key table k with
  | some i => table.modify i f
  | none => table

theorem modifyKey_eq_map (h : Ascending key table) (f : α → α) :
    modifyKey key table k f = table.map fun entry => if key entry = k then f entry else entry := by
  refine List.ext_getElem? fun j => ?_
  rw [modifyKey, List.getElem?_map]
  cases hsearch : search key table k with
  | none =>
    show table[j]? = _
    cases hj : table[j]? with
    | none => rfl
    | some entry =>
      have hne : key entry ≠ k := fun hkey => by
        rw [(search_eq_some_iff h).2 ⟨entry, hj, hkey⟩] at hsearch
        cases hsearch
      rw [Option.map_some, if_neg hne]
  | some i =>
    obtain ⟨found, hfound, hkey⟩ := (search_eq_some_iff h).1 hsearch
    show (table.modify i f)[j]? = _
    rw [List.getElem?_modify]
    by_cases hij : i = j
    · subst hij
      simp [hfound, hkey]
    · cases hj : table[j]? with
      | none => simp [hij]
      | some entry =>
        have hne : key entry ≠ k := fun hk => hij (h.place_unique hfound hj (hkey.trans hk.symm))
        simp [hij, hne]

theorem Ascending.map {f : α → α} (h : Ascending key table) (hkey : ∀ entry, key (f entry) = key entry) :
    Ascending key (table.map f) := by
  refine List.pairwise_map.2 (h.imp fun {a b} hab => ?_)
  rwa [hkey, hkey]

/-! ## Throwing out shared keys -/

section

variable (key)

/-- The scan over a sorted table: a run of entries with one key goes as a whole. -/
def dropRuns : List α → List α
  | [] => []
  | entry :: rest =>
    if (rest.takeWhile fun e => key e == key entry) = [] then
      entry :: dropRuns (rest.dropWhile fun e => key e == key entry)
    else dropRuns (rest.dropWhile fun e => key e == key entry)
termination_by table => table.length
decreasing_by
  all_goals
    have := (List.dropWhile_suffix (l := rest) fun e => key e == key entry).length_le
    simp only [List.length_cons]
    omega

end

theorem dropRuns_sublist (table : List α) : (dropRuns key table).Sublist table := by
  fun_induction dropRuns key table with
  | case1 => exact List.Sublist.slnil
  | case2 entry rest hempty ih =>
    exact (ih.trans (List.dropWhile_suffix _).sublist).cons_cons entry
  | case3 entry rest hrun ih => exact (ih.trans (List.dropWhile_suffix _).sublist).cons entry

/-- In a sorted table the run of the first key is all there is of it. -/
theorem run_spec {rest : List α} (h : (entry :: rest).Pairwise fun a b => key a ≤ key b) :
    (∀ e ∈ rest.takeWhile fun e => key e == key entry, key e = key entry) ∧
      ∀ e ∈ rest.dropWhile fun e => key e == key entry, key entry < key e := by
  constructor
  · intro e he
    have htake := List.mem_takeWhile_imp (p := fun e => key e == key entry) he
    exact beq_iff_eq.1 htake
  · have hrest := (List.pairwise_cons.1 h).2
    have hle := (List.pairwise_cons.1 h).1
    cases hdrop : rest.dropWhile fun e => key e == key entry with
    | nil => intro e he; cases he
    | cons first later =>
      have hsub : (first :: later).Sublist rest := by
        rw [← hdrop]
        exact (List.dropWhile_suffix _).sublist
      have hfirst : key entry < key first := by
        have hstop := List.head_dropWhile_not (fun e => key e == key entry) (l := rest) (by
          rw [hdrop]
          exact List.cons_ne_nil _ _)
        simp only [hdrop, List.head_cons, beq_eq_false_iff_ne] at hstop
        exact lt_of_le_of_ne (hle first (hsub.subset List.mem_cons_self)) (Ne.symm hstop)
      intro e he
      rcases List.mem_cons.1 he with rfl | hlater
      · exact hfirst
      · exact lt_of_lt_of_le hfirst ((List.pairwise_cons.1 (hrest.sublist hsub)).1 e hlater)

/-- **What the scan keeps**: the entries that are alone with their key. -/
theorem mem_dropRuns (h : table.Pairwise fun a b => key a ≤ key b) :
    entry ∈ dropRuns key table ↔ table.filter (fun e => key e == key entry) = [entry] := by
  fun_induction dropRuns key table with
  | case1 => simp
  | case2 first rest hempty ih =>
    obtain ⟨-, hlater⟩ := run_spec h
    have hrest : rest.dropWhile (fun e => key e == key first) = rest := by
      have := List.takeWhile_append_dropWhile (p := fun e => key e == key first) (l := rest)
      rwa [hempty, List.nil_append] at this
    rw [hrest] at hlater ih ⊢
    rw [List.mem_cons, ih (List.pairwise_cons.1 h).2]
    by_cases hkey : key first = key entry
    · have hnone : rest.filter (fun e => key e == key entry) = [] := by
        refine List.filter_eq_nil_iff.2 fun e he => ?_
        have := hlater e he
        rw [beq_iff_eq]
        omega
      rw [List.filter_cons_of_pos (by rwa [beq_iff_eq]), hnone]
      simp [eq_comm]
    · rw [List.filter_cons_of_neg (by rwa [beq_iff_eq])]
      refine or_iff_right ?_
      rintro rfl
      exact hkey rfl
  | case3 first rest hrun ih =>
    obtain ⟨hsame, hlater⟩ := run_spec h
    have hrest := (List.pairwise_cons.1 h).2
    have hsplit := List.takeWhile_append_dropWhile (p := fun e => key e == key first) (l := rest)
    rw [ih (hrest.sublist (List.dropWhile_suffix _).sublist)]
    generalize rest.takeWhile (fun e => key e == key first) = same at *
    generalize rest.dropWhile (fun e => key e == key first) = later at *
    subst hsplit
    rw [List.filter_cons, List.filter_append]
    by_cases hkey : key first = key entry
    · have hnone : later.filter (fun e => key e == key entry) = [] := by
        refine List.filter_eq_nil_iff.2 fun e he => ?_
        have := hlater e he
        rw [beq_iff_eq]
        omega
      have hall : same.filter (fun e => key e == key entry) = same := by
        refine List.filter_eq_self.2 fun e he => ?_
        rw [beq_iff_eq, hsame e he, hkey]
      rw [hnone, hall, if_pos (by rwa [beq_iff_eq])]
      simp [hrun]
    · have hnone : same.filter (fun e => key e == key entry) = [] := by
        refine List.filter_eq_nil_iff.2 fun e he => ?_
        rw [beq_iff_eq, hsame e he]
        exact hkey
      rw [hnone, if_neg (by rwa [beq_iff_eq]), List.nil_append]

theorem ascending_dropRuns (h : table.Pairwise fun a b => key a ≤ key b) :
    Ascending key (dropRuns key table) := by
  fun_induction dropRuns key table with
  | case1 => exact List.Pairwise.nil
  | case2 first rest hempty ih =>
    obtain ⟨-, hlater⟩ := run_spec h
    have hrest := (List.pairwise_cons.1 h).2
    refine List.pairwise_cons.2 ⟨fun e he => ?_, ih (hrest.sublist (List.dropWhile_suffix _).sublist)⟩
    exact hlater e ((dropRuns_sublist _).subset he)
  | case3 first rest hrun ih =>
    exact ih ((List.pairwise_cons.1 h).2.sublist (List.dropWhile_suffix _).sublist)

/-! ## Sorting first -/

/-- The table in the order of its keys, without the keys that are shared. -/
def distinct (key : α → ℕ) (table : List α) : List α :=
  dropRuns key (table.mergeSort fun a b => key a ≤ key b)

theorem pairwise_mergeSort_key (table : List α) :
    (table.mergeSort fun a b => key a ≤ key b).Pairwise fun a b => key a ≤ key b := by
  refine (List.pairwise_mergeSort ?_ ?_ table).imp fun hab => of_decide_eq_true hab
  · intro a b c hab hbc
    simp only [decide_eq_true_eq] at hab hbc ⊢
    exact hab.trans hbc
  · intro a b
    simpa only [Bool.or_eq_true, decide_eq_true_eq] using le_total (key a) (key b)

theorem ascending_distinct (table : List α) : Ascending key (distinct key table) :=
  ascending_dropRuns (pairwise_mergeSort_key table)

/-- **The entries that stay** are those no other entry shares its key with. -/
theorem mem_distinct (hnodup : table.Nodup) :
    entry ∈ distinct key table ↔ entry ∈ table ∧ ∀ e ∈ table, key e = key entry → e = entry := by
  have hperm := List.mergeSort_perm table fun a b => decide (key a ≤ key b)
  rw [distinct, mem_dropRuns (pairwise_mergeSort_key table)]
  constructor
  · intro halone
    have hfilter : table.filter (fun e => key e == key entry) = [entry] :=
      List.perm_singleton.1 (halone ▸ (hperm.filter _).symm)
    have hmem : ∀ e, e ∈ table ∧ key e = key entry ↔ e = entry := by
      intro e
      have : e ∈ table.filter (fun e => key e == key entry) ↔ _ := List.mem_filter
      rwa [hfilter, List.mem_singleton, beq_iff_eq, iff_comm] at this
    exact ⟨((hmem entry).2 rfl).1, fun e he hkey => (hmem e).1 ⟨he, hkey⟩⟩
  · rintro ⟨hentry, halone⟩
    have hfilter : (table.filter fun e => key e == key entry).Perm [entry] := by
      refine (List.perm_ext_iff_of_nodup (hnodup.filter _) (List.nodup_singleton _)).2 fun e => ?_
      rw [List.mem_filter, beq_iff_eq, List.mem_singleton]
      constructor
      · rintro ⟨he, hkey⟩
        exact halone e he hkey
      · rintro rfl
        exact ⟨hentry, rfl⟩
    exact List.perm_singleton.1 ((hperm.filter _).trans hfilter)

end AdsbBridge.Lib.SortedTable
