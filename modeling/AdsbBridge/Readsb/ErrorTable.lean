import AdsbBridge.Lib.Patterns
import AdsbBridge.Lib.SortedTable
import AdsbBridge.Readsb.Crc
import Mathlib.Algebra.BigOperators.Group.Finset.Basic
import Mathlib.Data.Nat.Choose.Basic

/-! # The tables of correctable errors

What `modesChecksumInit` of `crc.c` prepares. A table lists the patterns of up
to `max_correct` wrong bits, in the order of their syndromes. Patterns that
share a syndrome are thrown out, and then those whose syndrome some pattern of
up to `max_detect` bits has too. So what is left to be looked up is the one
explanation of a syndrome, as long as no more than `max_detect` bits are wrong.
The last run of the scan reads one entry behind the end of the table: it only
decides how far the scan moves behind its end. -/
namespace AdsbBridge.Readsb
open AdsbBridge.Lib

/-! ## Preparing -/

def singleBitSyndrome (i : ℕ) : ℕ :=
  modesChecksum (fun j => if j = i / 8 then 1 <<< (7 - (i &&& 7)) else 0) 112

/-- `struct errorinfo`; `errors` is the number of its bits, and -1 once flagged. -/
structure ErrorEntry where
  syndrome : ℕ
  bit : ErrorInfo
  flagged : Bool := false
  deriving DecidableEq, Repr

section

variable (offset endbit : ℕ)

/-- `prepareSubtable`, with `left` more errors to set. -/
def prepareSubtable : ℕ → ℕ → ErrorEntry → List ErrorEntry
  | 0, _, _ => []
  | left + 1, startbit, base =>
    (List.range' startbit (endbit - startbit)).flatMap fun i =>
      let entry : ErrorEntry :=
        { syndrome := base.syndrome ^^^ singleBitSyndrome (i + offset), bit := base.bit ++ [i] }
      entry :: prepareSubtable left (i + 1) entry

/-- `collision->errors = -1` for what `bsearch` finds. -/
def flagCollision (table : List ErrorEntry) (syndrome : ℕ) : List ErrorEntry :=
  SortedTable.modifyKey ErrorEntry.syndrome table syndrome fun entry => { entry with flagged := true }

/-- `flagCollisions`, with `left` more errors to set. -/
def flagCollisions (firstError : ℕ) : ℕ → ℕ → ℕ → ℕ → List ErrorEntry → List ErrorEntry
  | 0, _, _, _, table => table
  | left + 1, errorBit, startbit, base, table =>
    (List.range' startbit (endbit - startbit)).foldl (fun table i =>
      let syndrome := base ^^^ singleBitSyndrome (i + offset)
      flagCollisions firstError left (errorBit + 1) (i + 1) syndrome
        (if errorBit ≥ firstError then flagCollision table syndrome else table)) table

end

/-- `prepareErrorTable`: the first five bits are left out. -/
def prepareErrorTable (bits maxCorrect maxDetect : ℕ) : List ErrorEntry :=
  if maxCorrect = 0 then []
  else
    let table := SortedTable.distinct ErrorEntry.syndrome
      (prepareSubtable (112 - bits) bits maxCorrect 5 { syndrome := 0, bit := [] })
    if maxDetect > maxCorrect then
      (flagCollisions (112 - bits) bits (maxCorrect + 1) maxDetect 1 5 0 table).filter (!·.flagged)
    else table

def diagnoseIn (table : List ErrorEntry) (syndrome : ℕ) : Option ErrorInfo :=
  (SortedTable.lookup ErrorEntry.syndrome table syndrome).map ErrorEntry.bit

/-! ## The patterns of a table -/

/-- The syndrome of a pattern of errors in a message of `bits` bits. -/
def errorSyndrome (bits : ℕ) (p : List ℕ) : ℕ :=
  xorSum (fun i => singleBitSyndrome (i + (112 - bits))) p

section

variable {offset endbit left startbit firstError errorBit base : ℕ} {entry e : ErrorEntry}

/-- **`prepareSubtable` goes through the patterns** that continue its template. -/
theorem mem_prepareSubtable :
    e ∈ prepareSubtable offset endbit left startbit entry ↔
      ∃ p, IsPattern startbit endbit p ∧ p ≠ [] ∧ p.length ≤ left ∧
        e = { syndrome := entry.syndrome ^^^ xorSum (fun i => singleBitSyndrome (i + offset)) p
              bit := entry.bit ++ p } := by
  induction left generalizing startbit entry with
  | zero => exact ⟨fun h => absurd h List.not_mem_nil, fun h => absurd h not_exists_isPattern_zero⟩
  | succ left ih =>
    simp only [prepareSubtable, List.mem_flatMap, List.mem_cons, ih, List.mem_range'_1,
      exists_isPattern_succ, xorSum_cons, xorSum_nil, Nat.xor_zero, Nat.xor_assoc,
      List.append_assoc, List.singleton_append]
    refine exists_congr fun i => and_congr_left fun _ => ?_
    omega

/-- An entry that continues a template has more bits than it. -/
theorem exists_bit_of_mem (h : e ∈ prepareSubtable offset endbit left startbit entry) :
    ∃ i later, e.bit = entry.bit ++ i :: later := by
  obtain ⟨p, -, hne, -, rfl⟩ := mem_prepareSubtable.1 h
  obtain ⟨i, later, rfl⟩ := List.exists_cons_of_ne_nil hne
  exact ⟨i, later, rfl⟩

theorem nodup_prepareSubtable : (prepareSubtable offset endbit left startbit entry).Nodup := by
  induction left generalizing startbit entry with
  | zero => exact List.nodup_nil
  | succ left ih =>
    refine List.nodup_flatMap.2 ⟨fun i _ => List.nodup_cons.2 ⟨fun hmem => ?_, ih⟩, ?_⟩
    · obtain ⟨j, later, hbit⟩ := exists_bit_of_mem hmem
      exact absurd (congrArg List.length hbit) (by simp)
    · have hpart : ∀ {i : ℕ} {e template : ErrorEntry}, template.bit = entry.bit ++ [i] →
          e ∈ template :: prepareSubtable offset endbit left (i + 1) template →
          ∃ later, e.bit = entry.bit ++ i :: later := by
        intro i e template htemplate he
        rcases List.mem_cons.1 he with rfl | he
        · exact ⟨[], htemplate⟩
        · obtain ⟨j, later, hbit⟩ := exists_bit_of_mem he
          refine ⟨j :: later, ?_⟩
          rw [hbit, htemplate, List.append_assoc]
          rfl
      refine (List.pairwise_lt_range' 1).imp fun {i j} hlt e hi hj => ?_
      obtain ⟨later, hbit⟩ := hpart rfl hi
      obtain ⟨later', hbit'⟩ := hpart rfl hj
      rw [hbit] at hbit'
      exact hlt.ne (List.cons.inj (List.append_cancel_left hbit')).1

/-! ## The room a table takes -/

def combinations (n k : ℕ) : ℕ :=
  if k = 0 ∨ k = n then 1
  else if k > n then 0
  else ((List.range' 1 k).foldl (fun (result, n) i => (result * n / i, n - 1)) (1, n)).1

/-- `maxsize` of `prepareErrorTable`: the entries there is room for. -/
def tableMaxsize (bits maxCorrect : ℕ) : ℕ :=
  (List.range' 1 maxCorrect).foldl (fun maxsize i => maxsize + combinations (bits - 5) i) 0

/-- The divisions of the loop leave nothing over. -/
theorem combinations_eq_choose (n k : ℕ) : combinations n k = n.choose k := by
  have hrounds : ∀ k, (List.range' 1 k).foldl
      (fun (result, n) i => (result * n / i, n - 1)) (1, n) = (n.choose k, n - k) := by
    intro k
    induction k with
    | zero => simp
    | succ k ih =>
      rw [List.range'_1_concat, List.foldl_append, ih]
      simp only [List.foldl_cons, List.foldl_nil, Prod.mk.injEq]
      refine ⟨?_, by omega⟩
      rw [← Nat.choose_succ_right_eq, Nat.add_comm 1 k]
      exact Nat.mul_div_cancel _ (Nat.succ_pos k)
  unfold combinations
  split
  · next h =>
    rcases h with rfl | rfl
    · exact (Nat.choose_zero_right n).symm
    · exact (Nat.choose_self k).symm
  · split
    · next h => exact (Nat.choose_eq_zero_of_lt h).symm
    · rw [hrounds]

theorem tableMaxsize_eq_sum (bits maxCorrect : ℕ) :
    tableMaxsize bits maxCorrect = ∑ i ∈ Finset.range maxCorrect, (bits - 5).choose (i + 1) := by
  induction maxCorrect with
  | zero => rfl
  | succ n ih =>
    rw [tableMaxsize] at ih ⊢
    rw [List.range'_1_concat, List.foldl_append, ih, Finset.sum_range_succ]
    simp only [List.foldl_cons, List.foldl_nil]
    rw [combinations_eq_choose, Nat.add_comm 1 n]

/-- The loop of `prepareSubtable`, one round at a time. -/
theorem prepareSubtable_step (offset left : ℕ) (entry : ErrorEntry) (h : startbit < endbit) :
    ∃ first, prepareSubtable offset endbit (left + 1) startbit entry =
      first :: (prepareSubtable offset endbit left (startbit + 1) first ++
        prepareSubtable offset endbit (left + 1) (startbit + 1) entry) := by
  have hcount : endbit - startbit = (endbit - (startbit + 1)) + 1 := by omega
  exact ⟨{ syndrome := entry.syndrome ^^^ singleBitSyndrome (startbit + offset)
           bit := entry.bit ++ [startbit] },
    by rw [prepareSubtable, hcount, List.range'_succ, List.flatMap_cons]; rfl⟩

theorem length_prepareSubtable {n : ℕ} (hn : startbit + n = endbit) :
    (prepareSubtable offset endbit left startbit entry).length =
      ∑ i ∈ Finset.range left, n.choose (i + 1) := by
  induction n generalizing left startbit entry with
  | zero =>
    cases left with
    | zero => rfl
    | succ left =>
      rw [prepareSubtable, show endbit - startbit = 0 by omega]
      simp
  | succ n ih =>
    cases left with
    | zero => rfl
    | succ left =>
      obtain ⟨first, hstep⟩ := prepareSubtable_step offset left entry
        (show startbit < endbit by omega)
      simp only [Nat.choose_succ_succ', Finset.sum_add_distrib]
      rw [hstep, List.length_cons, List.length_append, ih (by omega), ih (by omega),
        Finset.sum_range_succ' (fun i => n.choose i), Nat.choose_zero_right]
      omega

/-- **The patterns fill the room there is**, and no more: `assert(n < maxsize)`
holds at every entry. -/
theorem length_prepareSubtable_eq_tableMaxsize (bits maxCorrect : ℕ) (template : ErrorEntry) :
    (prepareSubtable (112 - bits) bits maxCorrect 5 template).length =
      tableMaxsize bits maxCorrect := by
  rw [tableMaxsize_eq_sum]
  by_cases hbits : 5 ≤ bits
  · exact length_prepareSubtable (by omega)
  · cases maxCorrect with
    | zero => rfl
    | succ n =>
      rw [prepareSubtable, show bits - 5 = 0 by omega]
      simp

/-! ## Flagging -/

/-- The syndromes `flagCollisions` looks up, one after the other. -/
def flaggedSyndromes (offset endbit firstError : ℕ) : ℕ → ℕ → ℕ → ℕ → List ℕ
  | 0, _, _, _ => []
  | left + 1, errorBit, startbit, base =>
    (List.range' startbit (endbit - startbit)).flatMap fun i =>
      (if errorBit ≥ firstError then [base ^^^ singleBitSyndrome (i + offset)] else []) ++
        flaggedSyndromes offset endbit firstError left (errorBit + 1) (i + 1)
          (base ^^^ singleBitSyndrome (i + offset))

theorem flagCollisions_eq_foldl (table : List ErrorEntry) :
    flagCollisions offset endbit firstError left errorBit startbit base table =
      (flaggedSyndromes offset endbit firstError left errorBit startbit base).foldl
        flagCollision table := by
  induction left generalizing errorBit startbit base table with
  | zero => rfl
  | succ left ih =>
    rw [flagCollisions, flaggedSyndromes, List.foldl_flatMap]
    refine List.foldl_ext _ _ _ fun table i _ => ?_
    simp only [ih, List.foldl_append]
    split <;> rfl

/-- They are those of the patterns with enough errors. -/
theorem mem_flaggedSyndromes {syndrome : ℕ} :
    syndrome ∈ flaggedSyndromes offset endbit firstError left errorBit startbit base ↔
      ∃ p, IsPattern startbit endbit p ∧ p ≠ [] ∧ p.length ≤ left ∧
        firstError < errorBit + p.length ∧
        base ^^^ xorSum (fun i => singleBitSyndrome (i + offset)) p = syndrome := by
  induction left generalizing errorBit startbit base with
  | zero => exact ⟨fun h => absurd h List.not_mem_nil, fun h => absurd h not_exists_isPattern_zero⟩
  | succ left ih =>
    simp only [flaggedSyndromes, List.mem_flatMap, List.mem_append, ih, List.mem_range'_1,
      exists_isPattern_succ, xorSum_cons, xorSum_nil, Nat.xor_zero, Nat.xor_assoc,
      List.length_cons, List.length_nil]
    refine exists_congr fun i => and_congr (by omega) (or_congr ?_ ?_)
    · split
      · next henough => simp only [List.mem_singleton, eq_comm (a := syndrome)]; omega
      · next hfew => simp only [List.not_mem_nil, false_iff]; omega
    · simp only [Nat.add_assoc, Nat.add_comm 1]

/-- Looking syndromes up one after the other flags the entries with one of them. -/
theorem foldl_flagCollision {table : List ErrorEntry} (syndromes : List ℕ)
    (h : SortedTable.Ascending ErrorEntry.syndrome table) :
    syndromes.foldl flagCollision table = table.map fun entry =>
      { entry with flagged := entry.flagged || decide (entry.syndrome ∈ syndromes) } := by
  induction syndromes generalizing table with
  | nil => simp
  | cons syndrome syndromes ih =>
    have hone : flagCollision table syndrome = table.map fun entry =>
        if entry.syndrome = syndrome then { entry with flagged := true } else entry :=
      SortedTable.modifyKey_eq_map h _
    rw [List.foldl_cons, hone, ih (h.map fun entry => by split <;> rfl), List.map_map]
    refine List.map_congr_left fun entry _ => ?_
    by_cases hkey : entry.syndrome = syndrome <;> simp [hkey]

end

/-! ## What a table explains -/

/-- `info` is the only explanation of a syndrome by up to `maxDetect` wrong bits,
and it takes no more than `maxCorrect`. -/
structure Correctable (bits maxCorrect maxDetect syndrome : ℕ) (info : ErrorInfo) : Prop where
  pattern : IsPattern 5 bits info
  ne_nil : info ≠ []
  length_le : info.length ≤ maxCorrect
  explains : errorSyndrome bits info = syndrome
  only : ∀ other, IsPattern 5 bits other → other ≠ [] → other.length ≤ maxDetect →
    errorSyndrome bits other = syndrome → other = info

section

variable {bits maxCorrect maxDetect syndrome : ℕ} {info : ErrorInfo}

/-- The table before collisions are flagged. -/
theorem mem_distinct_prepareSubtable {e : ErrorEntry} :
    e ∈ SortedTable.distinct ErrorEntry.syndrome
        (prepareSubtable (112 - bits) bits maxCorrect 5 { syndrome := 0, bit := [] }) ↔
      Correctable bits maxCorrect maxCorrect e.syndrome e.bit ∧ e.flagged = false := by
  have hmem : ∀ e : ErrorEntry,
      e ∈ prepareSubtable (112 - bits) bits maxCorrect 5 { syndrome := 0, bit := [] } ↔
        (IsPattern 5 bits e.bit ∧ e.bit ≠ [] ∧ e.bit.length ≤ maxCorrect) ∧
          errorSyndrome bits e.bit = e.syndrome ∧ e.flagged = false := by
    intro e
    rw [mem_prepareSubtable]
    constructor
    · rintro ⟨p, hp, hne, hlen, rfl⟩
      exact ⟨⟨hp, hne, hlen⟩, (Nat.zero_xor _).symm, rfl⟩
    · rintro ⟨⟨hp, hne, hlen⟩, hsyndrome, hflagged⟩
      refine ⟨e.bit, hp, hne, hlen, ?_⟩
      obtain ⟨syndrome, bit, flagged⟩ := e
      simp only at hsyndrome hflagged
      rw [hflagged, ← hsyndrome, Nat.zero_xor]
      rfl
  rw [SortedTable.mem_distinct nodup_prepareSubtable, hmem]
  constructor
  · rintro ⟨⟨⟨hp, hne, hlen⟩, hsyndrome, hflagged⟩, halone⟩
    refine ⟨⟨hp, hne, hlen, hsyndrome, fun other hother hne' hlen' hsame => ?_⟩, hflagged⟩
    exact congrArg ErrorEntry.bit
      (halone ⟨e.syndrome, other, false⟩ ((hmem _).2 ⟨⟨hother, hne', hlen'⟩, hsame, rfl⟩) rfl)
  · rintro ⟨⟨hp, hne, hlen, hsyndrome, honly⟩, hflagged⟩
    refine ⟨⟨⟨hp, hne, hlen⟩, hsyndrome, hflagged⟩, fun other hother hkey => ?_⟩
    obtain ⟨⟨hp', hne', hlen'⟩, hsyndrome', hflagged'⟩ := (hmem other).1 hother
    have hbit := honly other.bit hp' hne' hlen' (hsyndrome'.trans hkey)
    obtain ⟨syndrome, bit, flagged⟩ := e
    obtain ⟨syndrome', bit', flagged'⟩ := other
    simp only at hkey hbit hflagged hflagged'
    rw [hkey, hbit, hflagged, hflagged']

theorem ascending_prepareErrorTable (bits maxCorrect maxDetect : ℕ) :
    SortedTable.Ascending ErrorEntry.syndrome (prepareErrorTable bits maxCorrect maxDetect) := by
  have hdistinct : SortedTable.Ascending ErrorEntry.syndrome
      (SortedTable.distinct ErrorEntry.syndrome
        (prepareSubtable (112 - bits) bits maxCorrect 5 { syndrome := 0, bit := [] })) :=
    SortedTable.ascending_distinct _
  unfold prepareErrorTable
  split
  · exact List.Pairwise.nil
  · simp only
    split
    · rw [flagCollisions_eq_foldl, foldl_flagCollision _ hdistinct]
      refine List.Pairwise.filter _ (hdistinct.map fun entry => ?_)
      rfl
    · exact hdistinct

theorem mem_prepareErrorTable (hdetect : maxCorrect ≤ maxDetect) {e : ErrorEntry} :
    e ∈ prepareErrorTable bits maxCorrect maxDetect ↔
      Correctable bits maxCorrect maxDetect e.syndrome e.bit ∧ e.flagged = false := by
  unfold prepareErrorTable
  split
  · next hzero =>
    refine ⟨fun h => absurd h List.not_mem_nil, fun ⟨h, _⟩ => ?_⟩
    exact absurd (List.eq_nil_of_length_eq_zero (by have := h.length_le; omega)) h.ne_nil
  · simp only
    split
    · next hmore =>
      rw [flagCollisions_eq_foldl, foldl_flagCollision _ (SortedTable.ascending_distinct _),
        List.mem_filter, List.mem_map]
      constructor
      · rintro ⟨⟨entry, hentry, rfl⟩, hkept⟩
        obtain ⟨hcorrectable, hflagged⟩ := mem_distinct_prepareSubtable.1 hentry
        rw [hflagged, Bool.false_or, Bool.not_eq_true', decide_eq_false_iff_not] at hkept
        refine ⟨⟨hcorrectable.pattern, hcorrectable.ne_nil, hcorrectable.length_le,
          hcorrectable.explains, fun other hother hne hlen hsame => ?_⟩, ?_⟩
        · by_cases hfew : other.length ≤ maxCorrect
          · exact hcorrectable.only other hother hne hfew hsame
          · refine absurd (mem_flaggedSyndromes.2 ⟨other, hother, hne, hlen, by omega, ?_⟩) hkept
            rw [Nat.zero_xor]
            exact hsame
        · simp [hflagged, hkept]
      · rintro ⟨h, hflagged⟩
        have hnot : e.syndrome ∉
            flaggedSyndromes (112 - bits) bits (maxCorrect + 1) maxDetect 1 5 0 := by
          intro hmem
          obtain ⟨other, hother, hne, hlen, hmany, hsame⟩ := mem_flaggedSyndromes.1 hmem
          rw [Nat.zero_xor] at hsame
          have heq := h.only other hother hne hlen hsame
          have := h.length_le
          rw [heq] at hmany
          omega
        refine ⟨⟨e, mem_distinct_prepareSubtable.2 ⟨⟨h.pattern, h.ne_nil, h.length_le, h.explains,
          fun other hother hne hlen => h.only other hother hne (hlen.trans hdetect)⟩, hflagged⟩, ?_⟩, ?_⟩
        · simp [hnot]
        · simp [hflagged]
    · next hsame =>
      obtain rfl : maxCorrect = maxDetect := by omega
      exact mem_distinct_prepareSubtable

/-- **What a table says about a syndrome**: the pattern of errors that is the only
explanation by as many errors as are to be detected. -/
theorem diagnoseIn_prepareErrorTable (hdetect : maxCorrect ≤ maxDetect) :
    diagnoseIn (prepareErrorTable bits maxCorrect maxDetect) syndrome = some info ↔
      Correctable bits maxCorrect maxDetect syndrome info := by
  rw [diagnoseIn, Option.map_eq_some_iff]
  constructor
  · rintro ⟨e, hlookup, rfl⟩
    obtain ⟨hmem, rfl⟩ :=
      (SortedTable.lookup_eq_some_iff (ascending_prepareErrorTable _ _ _)).1 hlookup
    exact ((mem_prepareErrorTable hdetect).1 hmem).1
  · intro h
    refine ⟨⟨syndrome, info, false⟩, ?_, rfl⟩
    exact (SortedTable.lookup_eq_some_iff (ascending_prepareErrorTable _ _ _)).2
      ⟨(mem_prepareErrorTable hdetect).2 ⟨h, rfl⟩, rfl⟩

theorem diagnoseIn_ne_nil (hdetect : maxCorrect ≤ maxDetect) (syndrome : ℕ) :
    diagnoseIn (prepareErrorTable bits maxCorrect maxDetect) syndrome ≠ some [] :=
  fun h => ((diagnoseIn_prepareErrorTable hdetect).1 h).ne_nil rfl

end

/-- The two tables of one setting. -/
def preparedTables (maxCorrect maxDetect : ℕ) (hdetect : maxCorrect ≤ maxDetect) : ErrorTables where
  short := diagnoseIn (prepareErrorTable 56 maxCorrect maxDetect)
  long := diagnoseIn (prepareErrorTable 112 maxCorrect maxDetect)
  short_ne_nil := diagnoseIn_ne_nil hdetect
  long_ne_nil := diagnoseIn_ne_nil hdetect

def modesChecksumInit : ℕ → ErrorTables
  | 0 => noTables
  | 1 => preparedTables 1 1 (le_refl 1)
  | _ => preparedTables 2 4 (by decide)

end AdsbBridge.Readsb
