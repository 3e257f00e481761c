import AdsbBridge.Lib.Ring
import AdsbBridge.Readsb.IcaoFilter

/-! # What the adapter remembers of its history

The filter is a set of bounded size in which the oldest insertion makes room
for the newest. -/
namespace AdsbBridge.Readsb.IcaoFilter
open AdsbBridge.Lib

/-- An insertion: an add of an address that may be remembered and is not. -/
def Inserts (filter : IcaoFilter) (addr : ℕ) : Prop := ¬ Ignored addr ∧ addr ∉ filter.seenIcao

instance (filter : IcaoFilter) (addr : ℕ) : Decidable (filter.Inserts addr) :=
  inferInstanceAs (Decidable (_ ∧ _))

def addAll (filter : IcaoFilter) (addrs : List ℕ) : IcaoFilter := addrs.foldl add filter

def insertions (filter : IcaoFilter) : List ℕ → List ℕ
  | [] => []
  | addr :: rest =>
    if filter.Inserts addr then addr :: insertions (filter.add addr) rest
    else insertions (filter.add addr) rest

theorem add_of_not_inserts {filter : IcaoFilter} {addr : ℕ} (h : ¬ filter.Inserts addr) :
    filter.add addr = filter := by
  unfold add
  by_cases hi : Ignored addr
  · rw [if_pos hi]
  · rw [if_neg hi, if_pos (not_not.1 fun hmem => h ⟨hi, hmem⟩)]

theorem add_of_inserts {filter : IcaoFilter} {addr : ℕ} (h : filter.Inserts addr) :
    (filter.add addr).seenIcao = filter.seenIcao.set filter.seenIcaoNext addr ∧
      (filter.add addr).seenIcaoNext = filter.seenIcaoNext + 1 := by
  unfold add
  rw [if_neg h.1, if_neg h.2]
  exact ⟨rfl, rfl⟩

/-- The cells, the next one to be written first. -/
def oldestFirst (filter : IcaoFilter) : List ℕ := filter.seenIcao.rotate filter.seenIcaoNext

theorem mem_oldestFirst {filter : IcaoFilter} {addr : ℕ} :
    addr ∈ filter.oldestFirst ↔ addr ∈ filter.seenIcao := List.mem_rotate

/-- The filter shows its history: `inserted` are the insertions so far. -/
structure Recalls (filter : IcaoFilter) (inserted : List ℕ) : Prop where
  content : filter.oldestFirst = Ring.shown 0 4095 inserted
  valid : ∀ addr ∈ inserted, ¬ Ignored addr
  distinct : (inserted.rtake 4096).Nodup

variable {filter : IcaoFilter} {inserted : List ℕ}

theorem recalls_icaoFilterInit : icaoFilterInit.Recalls [] := by
  refine ⟨?_, fun addr h => (by cases h), ?_⟩
  · rw [Ring.shown_nil, oldestFirst, icaoFilterInit, List.rotate_replicate]
  · rw [List.rtake_nil]
    exact List.nodup_nil

/-- The addresses in the cells, oldest first. -/
theorem Recalls.held (h : filter.Recalls inserted) :
    filter.oldestFirst.filter (fun addr => decide (addr ≠ 0)) = inserted.rtake 4096 := by
  have hwritten : ∀ addr ∈ inserted, decide (addr ≠ 0) = true := fun addr hmem =>
    decide_eq_true fun hzero => h.valid addr hmem (.inl hzero)
  rw [h.content]
  exact Ring.filter_shown (fun addr => decide (addr ≠ 0)) (decide_eq_false fun hne => hne rfl)
    hwritten 4095

theorem Recalls.mem_iff (h : filter.Recalls inserted) {addr : ℕ} :
    addr ∈ inserted.rtake 4096 ↔ addr ∈ filter.seenIcao ∧ addr ≠ 0 := by
  rw [← h.held, List.mem_filter, mem_oldestFirst, decide_eq_true_eq]

theorem rtake_concat_sublist (l : List ℕ) (addr : ℕ) :
    ((l ++ [addr]).rtake 4096).Sublist (l.rtake 4096 ++ [addr]) := by
  rw [List.rtake_concat_succ]
  refine List.Sublist.append_right ?_ [addr]
  rw [List.rtake, List.rtake]
  exact List.drop_sublist_drop_left l (by omega)

/-- An insertion appends to the history. -/
theorem Recalls.insert (h : filter.Recalls inserted) {addr : ℕ} (hnew : filter.Inserts addr) :
    (filter.add addr).Recalls (inserted ++ [addr]) := by
  obtain ⟨hseen, hnext⟩ := add_of_inserts hnew
  refine ⟨?_, ?_, ?_⟩
  · rw [oldestFirst, hseen]
    exact Ring.rotate_set filter.size filter.seenIcaoNext.isLt
      (by rw [hnext, Fin.val_add]; rfl) h.content addr
  · intro a hmem
    rcases List.mem_append.1 hmem with hold | hlast
    · exact h.valid a hold
    · rw [List.mem_singleton.1 hlast]
      exact hnew.1
  · refine (List.Nodup.sublist (rtake_concat_sublist inserted addr)) ?_
    refine List.Nodup.append h.distinct (List.nodup_singleton addr) ?_
    intro a hmem hlast
    rw [List.mem_singleton.1 hlast, h.mem_iff] at hmem
    exact hnew.2 hmem.1

/-- **A run of adds appends its insertions to the history.** -/
theorem Recalls.addAll (h : filter.Recalls inserted) (addrs : List ℕ) :
    (filter.addAll addrs).Recalls (inserted ++ filter.insertions addrs) := by
  induction addrs generalizing filter inserted with
  | nil =>
    rw [insertions, List.append_nil]
    exact h
  | cons addr rest ih =>
    rw [insertions]
    by_cases hnew : filter.Inserts addr
    · rw [if_pos hnew, List.append_cons]
      exact ih (h.insert hnew)
    · rw [if_neg hnew]
      refine ih ?_
      rw [add_of_not_inserts hnew]
      exact h

/-! ## What the tests answer -/

theorem Recalls.test_iff (h : filter.Recalls inserted) (addr : ℕ) :
    filter.test addr = true ↔ addr ∈ inserted.rtake 4096 := by
  unfold test
  by_cases hi : Ignored addr
  · rw [if_pos hi]
    refine ⟨fun hf => Bool.noConfusion hf, fun hmem => ?_⟩
    exact absurd hi (h.valid addr (List.mem_of_mem_drop hmem))
  · rw [if_neg hi, decide_eq_true_eq, h.mem_iff]
    exact ⟨fun hmem => ⟨hmem, fun hzero => hi (.inl hzero)⟩, fun hmem => hmem.1⟩

/-- Two addresses agree in their low sixteen bits. -/
def SameLow (addr partialAddr : ℕ) : Prop := addr &&& 0xffff = partialAddr &&& 0xffff

/-- The answer is a member with these low bits, or zero when there is none. -/
structure FuzzyAnswer (held : List ℕ) (partialAddr answer : ℕ) : Prop where
  found : (∃ addr ∈ held, SameLow addr partialAddr) → answer ∈ held ∧ SameLow answer partialAddr
  missed : (¬ ∃ addr ∈ held, SameLow addr partialAddr) → answer = 0

theorem Recalls.testFuzzy (h : filter.Recalls inserted) (partialAddr : ℕ) :
    FuzzyAnswer (inserted.rtake 4096) partialAddr (filter.testFuzzy partialAddr) := by
  unfold IcaoFilter.testFuzzy
  cases hfind : filter.seenIcao.find? fun addr =>
      decide (addr ≠ 0 ∧ addr &&& 0xffff = partialAddr &&& 0xffff) with
  | none =>
    refine ⟨?_, fun _ => rfl⟩
    intro hexists
    obtain ⟨addr, hmem, hlow⟩ := hexists
    obtain ⟨hseen, hne⟩ := h.mem_iff.1 hmem
    exact absurd (decide_eq_true ⟨hne, hlow⟩) (List.find?_eq_none.1 hfind addr hseen)
  | some addr =>
    have hp := List.find?_some hfind
    rw [decide_eq_true_eq] at hp
    have hmem := h.mem_iff.2 ⟨List.mem_of_find?_eq_some hfind, hp.1⟩
    exact ⟨fun _ => ⟨hmem, hp.2⟩, fun hno => absurd ⟨addr, hmem, hp.2⟩ hno⟩

/-- **The filter is a first-in first-out set.** After any adds the addresses in
its cells are pairwise distinct and those of the last 4096 insertions, and the
tests answer for exactly them. -/
theorem filter_fifo (addrs : List ℕ) :
    let filter := icaoFilterInit.addAll addrs
    let held := (icaoFilterInit.insertions addrs).rtake 4096
    held.length = min 4096 (icaoFilterInit.insertions addrs).length ∧
      (filter.seenIcao.filter fun addr => decide (addr ≠ 0)).Nodup ∧
      (filter.seenIcao.filter fun addr => decide (addr ≠ 0)).Perm held ∧
      (∀ addr, filter.test addr = true ↔ addr ∈ held) ∧
      ∀ partialAddr, FuzzyAnswer held partialAddr (filter.testFuzzy partialAddr) := by
  have h : (icaoFilterInit.addAll addrs).Recalls (icaoFilterInit.insertions addrs) := by
    have := recalls_icaoFilterInit.addAll addrs
    rwa [List.nil_append] at this
  have hperm : (((icaoFilterInit.addAll addrs).seenIcao.filter fun addr => decide (addr ≠ 0))).Perm
      ((icaoFilterInit.insertions addrs).rtake 4096) := by
    rw [← h.held]
    exact (List.rotate_perm _ _).symm.filter _
  refine ⟨?_, hperm.nodup_iff.2 h.distinct, hperm, h.test_iff, h.testFuzzy⟩
  rw [List.rtake, List.length_drop]
  omega

end AdsbBridge.Readsb.IcaoFilter
