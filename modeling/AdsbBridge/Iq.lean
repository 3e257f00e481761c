import Mathlib.Data.Int.Notation
import AdsbBridge.Lib.Pairs

/-! # From bytes to magnitudes

The first half of `processIq`, `nativeProcessIq` and
`process_readsb_demodulator`: a byte left over from the previous call is
paired with the first byte of this one, every pair becomes a magnitude, and
the magnitudes are written behind the saved tail into a buffer that lives from
call to call. The three differ in the magnitude, in how the buffer grows and
in how much of it is saved. -/
namespace AdsbBridge.Iq
open AdsbBridge.Lib.Pairs

def power (i q : UInt8) : ℕ :=
  let iSample : ℤ := (i.toNat : ℤ) - 127
  let qSample : ℤ := (q.toNat : ℤ) - 127
  (iSample * iSample + qSample * qSample).toNat

/-- `(length + (has_pending_iq_byte ? 1 : 0)) / 2`. -/
def pairCount (pending : Option UInt8) (iq : List UInt8) : ℕ :=
  (iq.length + if pending.isSome then 1 else 0) / 2

/-- The loop `while (input_index + 1 < length)` and the byte it leaves over. -/
def writePairs (magnitude : UInt8 → UInt8 → ℕ) : List UInt8 → List ℕ × Option UInt8
  | i :: q :: rest =>
    let (mags, pending) := writePairs magnitude rest
    (magnitude i q :: mags, pending)
  | [last] => ([], some last)
  | [] => ([], none)

def writeMagnitudes (magnitude : UInt8 → UInt8 → ℕ) (pending : Option UInt8) (iq : List UInt8) :
    List ℕ × Option UInt8 :=
  match pending, iq with
  | some i, q :: rest =>
    let (mags, pending) := writePairs magnitude rest
    (magnitude i q :: mags, pending)
  | _, _ => writePairs magnitude iq

/-- The early branch `pairs <= 0`: a lone byte becomes the pending one. -/
def holdByte (pending : Option UInt8) (iq : List UInt8) : Option UInt8 :=
  match pending, iq with
  | none, [byte] => some byte
  | _, _ => pending

/-- Writing over the front of a buffer that is first grown where it is too short. -/
def overwrite (front buffer : List ℕ) : List ℕ := front ++ buffer.drop front.length

/-- The samples `std::copy` saves: the last `min(capacity, mag_length)` of the
first `mag_length`. -/
def saveTail (capacity : ℕ) (mag : List ℕ) (magLength : ℕ) : List ℕ :=
  let size := min capacity magLength
  (mag.drop (magLength - size)).take size

/-! ## Facts -/

def lastOf {α : Type} (capacity : ℕ) (l : List α) : List α := l.drop (l.length - capacity)

def magnitudes (magnitude : UInt8 → UInt8 → ℕ) (bytes : List UInt8) : List ℕ :=
  (pairUp bytes).map fun p => magnitude p.1 p.2

theorem writePairs_eq (magnitude : UInt8 → UInt8 → ℕ) (iq : List UInt8) :
    writePairs magnitude iq = (magnitudes magnitude iq, leftover iq) := by
  fun_induction writePairs magnitude iq with
  | case1 i q rest mags pending hrec ih =>
    rw [hrec] at ih
    cases ih
    rfl
  | case2 last => rfl
  | case3 => rfl

/-- **The carry joins the chunks**: a call pairs the pending byte and the chunk
as one stretch of bytes. -/
theorem writeMagnitudes_eq (magnitude : UInt8 → UInt8 → ℕ) {pending : Option UInt8}
    {iq : List UInt8} (h : 0 < pairCount pending iq) :
    writeMagnitudes magnitude pending iq =
      (magnitudes magnitude (pending.toList ++ iq), leftover (pending.toList ++ iq)) := by
  cases pending with
  | none => simp only [writeMagnitudes, writePairs_eq, Option.toList_none, List.nil_append]
  | some i =>
    cases iq with
    | nil => simp [pairCount] at h
    | cons q rest => simp only [writeMagnitudes, writePairs_eq]; rfl

theorem pairCount_eq (pending : Option UInt8) (iq : List UInt8) :
    pairCount pending iq = (pending.toList ++ iq).length / 2 := by
  cases pending with
  | none => simp [pairCount]
  | some b => simp [pairCount]

theorem length_magnitudes (magnitude : UInt8 → UInt8 → ℕ) (bytes : List UInt8) :
    (magnitudes magnitude bytes).length = bytes.length / 2 := by
  rw [magnitudes, List.length_map, length_pairUp]

/-- There are as many new samples as pairs in the pending byte and the chunk. -/
theorem length_magnitudes_pending (magnitude : UInt8 → UInt8 → ℕ) (pending : Option UInt8)
    (iq : List UInt8) :
    (magnitudes magnitude (pending.toList ++ iq)).length = pairCount pending iq := by
  rw [length_magnitudes, pairCount_eq]

/-- `mag_length` is the length of what is written to the front of the buffer. -/
theorem front_length (magnitude : UInt8 → UInt8 → ℕ) (tail : List ℕ) (pending : Option UInt8)
    (iq : List UInt8) :
    tail.length + pairCount pending iq =
      (tail ++ magnitudes magnitude (pending.toList ++ iq)).length := by
  rw [List.length_append, length_magnitudes_pending]

/-- The early branch does what the general one would do with no pair to write. -/
theorem holdByte_eq {pending : Option UInt8} {iq : List UInt8} (h : pairCount pending iq = 0) :
    holdByte pending iq = leftover (pending.toList ++ iq) ∧
      ∀ magnitude, magnitudes magnitude (pending.toList ++ iq) = [] := by
  rw [pairCount_eq] at h
  have hshort : (pending.toList ++ iq).length < 2 := by omega
  constructor
  · match pending, iq with
    | none, [] => rfl
    | none, [b] => rfl
    | none, a :: b :: rest => exact absurd hshort (Nat.not_lt.2 (Nat.le_add_left 2 rest.length))
    | some i, [] => rfl
    | some i, q :: rest => exact absurd hshort (Nat.not_lt.2 (Nat.le_add_left 2 rest.length))
  · intro magnitude
    exact List.eq_nil_of_length_eq_zero (by rw [length_magnitudes, h])

theorem magnitudes_append (magnitude : UInt8 → UInt8 → ℕ) (before iq : List UInt8) :
    magnitudes magnitude (before ++ iq) =
      magnitudes magnitude before ++ magnitudes magnitude ((leftover before).toList ++ iq) := by
  rw [magnitudes, pairUp_append, List.map_append]; rfl

/-- The samples the next bytes complete. -/
theorem pairCount_leftover (bytes iq : List UInt8) :
    bytes.length / 2 + pairCount (leftover bytes) iq = (bytes.length + iq.length) / 2 := by
  have hlen := congrArg List.length (magnitudes_append power bytes iq)
  rw [List.length_append, length_magnitudes, length_magnitudes, length_magnitudes,
    List.length_append] at hlen
  rw [pairCount_eq]
  omega

/-- Below its length the front is what the buffer shows. -/
theorem overwrite_getD {front buffer : List ℕ} {i : ℕ} (h : i < front.length) :
    (overwrite front buffer).getD i 0 = front.getD i 0 := by
  rw [overwrite, List.getD_eq_getElem?_getD, List.getD_eq_getElem?_getD,
    List.getElem?_append_left h]

/-- What is saved are the last samples written, whatever lies behind them. -/
theorem saveTail_append (capacity : ℕ) (front rest : List ℕ) :
    saveTail capacity (front ++ rest) front.length = lastOf capacity front := by
  have hsize : front.length - min capacity front.length = front.length - capacity := by omega
  simp only [saveTail, lastOf, hsize]
  rw [List.drop_append_of_le_length (by omega), List.take_append_of_le_length]
  · exact List.take_of_length_le (by simp; omega)
  · simp; omega

theorem lastOf_append_lastOf {α : Type} {capacity : ℕ} (l m : List α) :
    lastOf capacity (lastOf capacity l ++ m) = lastOf capacity (l ++ m) := by
  simp only [lastOf, List.length_append, List.length_drop]
  by_cases h : capacity ≤ l.length
  · by_cases hm : m.length ≤ capacity
    · rw [List.drop_append_of_le_length (by simp; omega), List.drop_drop,
        List.drop_append_of_le_length (by omega)]
      congr 2
      omega
    · rw [List.drop_append, List.drop_append, List.drop_drop]
      congr 1
      · rw [List.drop_of_length_le (by omega), List.drop_of_length_le (by omega)]
      · congr 1
        simp
        omega
  · have : l.length - capacity = 0 := by omega
    simp [this]

theorem length_lastOf {α : Type} (capacity : ℕ) (l : List α) :
    (lastOf capacity l).length = min capacity l.length := by
  simp [lastOf]; omega

/-- What a buffer of the last samples and new ones shows of the stream. -/
theorem lastOf_append_getD (capacity : ℕ) (l m rest : List ℕ) {i : ℕ}
    (h : i < (lastOf capacity l ++ m).length) :
    (lastOf capacity l ++ m).getD i 0 = (l ++ m ++ rest).getD (l.length - capacity + i) 0 := by
  have hdrop : lastOf capacity l ++ m = (l ++ m).drop (l.length - capacity) := by
    rw [lastOf, List.drop_append_of_le_length (by omega)]
  rw [hdrop] at h ⊢
  rw [List.length_drop] at h
  have hi : l.length - capacity + i < (l ++ m).length := by omega
  rw [List.getD_eq_getElem?_getD, List.getElem?_drop, List.getD_eq_getElem?_getD,
    List.getElem?_append_left hi]

end AdsbBridge.Iq
