import Mathlib.Data.Nat.Bitwise
import Mathlib.Logic.Function.Iterate

/-! # Cyclic redundancy checks

The remainder register of a generator `x ^ width + poly`, a bit at a time, most
significant bit first. One shift is linear in exclusive or. So feeding bits and
shifting afterwards can be read as a sum with one term for each bit that is
set, which is what the table-driven forms of the check compute. -/
namespace AdsbBridge.Lib.Crc

variable (width poly : ℕ)

def shift (rem : ℕ) : ℕ :=
  (if rem.testBit (width - 1) then (rem <<< 1) ^^^ poly else rem <<< 1) % 2 ^ width

def shifts (n rem : ℕ) : ℕ := (shift width poly)^[n] rem

/-- The register's top bit, if `bit` is set. -/
def top (bit : Bool) : ℕ := if bit then 1 <<< (width - 1) else 0

/-- Bits go in at the top, each followed by a shift. -/
def feed (rem : ℕ) (bit : ℕ → Bool) (n : ℕ) : ℕ :=
  (List.range n).foldl (fun rem i => shift width poly (rem ^^^ top width (bit i))) rem

/-! ## Linearity -/

theorem shift_xor (a b : ℕ) :
    shift width poly (a ^^^ b) = shift width poly a ^^^ shift width poly b := by
  have hcancel : a <<< 1 ^^^ poly ^^^ (b <<< 1 ^^^ poly) = a <<< 1 ^^^ b <<< 1 := by
    rw [Nat.xor_assoc, Nat.xor_comm poly, Nat.xor_assoc, Nat.xor_self, Nat.xor_zero]
  simp only [shift, ← Nat.xor_mod_two_pow, Nat.testBit_xor, Nat.shiftLeft_xor_distrib]
  congr 1
  cases a.testBit (width - 1) <;> cases b.testBit (width - 1)
  · rfl
  · exact Nat.xor_assoc _ _ _
  · show a <<< 1 ^^^ b <<< 1 ^^^ poly = a <<< 1 ^^^ poly ^^^ b <<< 1
    rw [Nat.xor_assoc, Nat.xor_comm (b <<< 1), ← Nat.xor_assoc]
  · exact hcancel.symm

theorem shifts_xor (n a b : ℕ) :
    shifts width poly n (a ^^^ b) = shifts width poly n a ^^^ shifts width poly n b := by
  induction n generalizing a b with
  | zero => rfl
  | succ n ih => simp only [shifts, Function.iterate_succ_apply, shift_xor] at ih ⊢; exact ih _ _

theorem shifts_succ (n rem : ℕ) :
    shifts width poly (n + 1) rem = shifts width poly n (shift width poly rem) :=
  Function.iterate_succ_apply _ _ _

theorem shifts_succ' (n rem : ℕ) :
    shifts width poly (n + 1) rem = shift width poly (shifts width poly n rem) :=
  Function.iterate_succ_apply' _ _ _

theorem shifts_add (m n rem : ℕ) :
    shifts width poly (m + n) rem = shifts width poly m (shifts width poly n rem) :=
  Function.iterate_add_apply _ m n rem

variable {width}

theorem shift_lt (rem : ℕ) : shift width poly rem < 2 ^ width := Nat.mod_lt _ (Nat.two_pow_pos width)

theorem shifts_lt {rem : ℕ} (h : rem < 2 ^ width) (n : ℕ) : shifts width poly n rem < 2 ^ width := by
  cases n with
  | zero => exact h
  | succ n => rw [shifts_succ']; exact shift_lt poly _

variable {poly} in
/-- A generator with a constant term loses nothing in a shift. -/
theorem eq_zero_of_shift (hwidth : 0 < width) (hpoly : poly.testBit 0 = true) {rem : ℕ}
    (hrem : rem < 2 ^ width) (h : shift width poly rem = 0) : rem = 0 := by
  obtain ⟨w, rfl⟩ := Nat.exists_eq_succ_of_ne_zero hwidth.ne'
  cases htop : rem.testBit w with
  | true =>
    have hbit : (shift (w + 1) poly rem).testBit 0 = true := by
      rw [shift, Nat.add_sub_cancel, htop, if_pos rfl, Nat.testBit_mod_two_pow, Nat.testBit_xor,
        hpoly, Nat.testBit_shiftLeft]
      simp
    rw [h, Nat.zero_testBit] at hbit
    cases hbit
  | false =>
    have hlow : rem < 2 ^ w := by
      refine Nat.lt_pow_two_of_testBit _ fun i hi => ?_
      rcases hi.lt_or_eq with hlt | rfl
      · exact Nat.testBit_lt_two_pow (lt_of_lt_of_le hrem (Nat.pow_le_pow_right (by omega) hlt))
      · exact htop
    have hmoved : rem <<< 1 < 2 ^ (w + 1) := by
      rw [Nat.shiftLeft_eq, pow_succ]
      omega
    rw [shift, Nat.succ_sub_one, htop, if_neg Bool.false_ne_true, Nat.mod_eq_of_lt hmoved,
      Nat.shiftLeft_eq] at h
    omega

variable {poly} in
theorem eq_zero_of_shifts (hwidth : 0 < width) (hpoly : poly.testBit 0 = true) {rem n : ℕ}
    (hrem : rem < 2 ^ width) (h : shifts width poly n rem = 0) : rem = 0 := by
  induction n with
  | zero => exact h
  | succ n ih =>
    rw [shifts_succ'] at h
    exact ih (eq_zero_of_shift hwidth hpoly (shifts_lt poly hrem n) h)

/-- A register whose top bits are clear only moves up. -/
theorem shifts_of_lt {n rem : ℕ} (h : rem <<< n < 2 ^ width) :
    shifts width poly n rem = rem <<< n := by
  induction n generalizing rem with
  | zero => rfl
  | succ n ih =>
    have hpow : 2 ^ n * (rem * 2) < 2 ^ width := by
      rwa [Nat.shiftLeft_eq, pow_succ, Nat.mul_left_comm] at h
    have hdouble : rem * 2 < 2 ^ width :=
      lt_of_le_of_lt (Nat.le_mul_of_pos_left _ (Nat.two_pow_pos n)) hpow
    have hclear : rem.testBit (width - 1) = false := by
      refine Nat.testBit_lt_two_pow ?_
      cases width with
      | zero => omega
      | succ w => rw [Nat.add_sub_cancel]; rw [pow_succ] at hdouble; omega
    have hone : shift width poly rem = rem <<< 1 := by
      rw [shift, hclear, if_neg Bool.false_ne_true, Nat.shiftLeft_eq, pow_one,
        Nat.mod_eq_of_lt hdouble]
    rw [shifts_succ, hone, ih, ← Nat.shiftLeft_add, Nat.add_comm]
    rwa [← Nat.shiftLeft_add, Nat.add_comm]

theorem shifts_zero (n : ℕ) : shifts width poly n 0 = 0 := by
  rw [shifts_of_lt] <;> rw [Nat.zero_shiftLeft]
  exact Nat.two_pow_pos width

/-! ## Feeding as a sum -/

/-- **Feeding `n` bits and shifting on** adds up one term for each bit set. -/
theorem shifts_feed (bit : ℕ → Bool) {n total : ℕ} (h : n ≤ total) :
    shifts width poly (total - n) (feed width poly 0 bit n) =
      (List.range n).foldl (fun sum i =>
        if bit i then sum ^^^ shifts width poly (total - i) (1 <<< (width - 1)) else sum) 0 := by
  induction n with
  | zero => exact shifts_zero poly total
  | succ n ih =>
    have ihn := ih (by omega)
    rw [feed, List.range_succ, List.foldl_append, List.foldl_append, ← ihn]
    simp only [List.foldl_cons, List.foldl_nil]
    rw [← shifts_succ, show total - (n + 1) + 1 = total - n by omega, shifts_xor]
    cases bit n with
    | false => simp [top, shifts_zero, feed]
    | true => rfl

/-- The first `k` bits, at the top of the register. -/
def atTop (width : ℕ) (bit : ℕ → Bool) (k : ℕ) : ℕ :=
  (List.range k).foldl (fun sum i => if bit i then sum ^^^ 1 <<< (width - 1 - i) else sum) 0

/-- Bits that go in one after the other may as well go in at once. -/
theorem feed_eq_shifts (rem : ℕ) (bit : ℕ → Bool) {k : ℕ} (h : k ≤ width) :
    feed width poly rem bit k = shifts width poly k (rem ^^^ atTop width bit k) := by
  induction k with
  | zero => exact (Nat.xor_zero rem).symm
  | succ k ih =>
    have ihk := ih (by omega)
    have hbit : top width (bit k) =
        shifts width poly k (if bit k then 1 <<< (width - 1 - k) else 0) := by
      cases bit k with
      | false => exact (shifts_zero poly k).symm
      | true =>
        have hone : (1 <<< (width - 1 - k)) <<< k = 1 <<< (width - 1) := by
          rw [← Nat.shiftLeft_add, Nat.sub_add_cancel (by omega)]
        rw [if_pos rfl, shifts_of_lt, hone]
        · rfl
        · rw [hone, Nat.shiftLeft_eq, Nat.one_mul]
          exact Nat.pow_lt_pow_right (by decide) (by omega)
    rw [feed, List.range_succ, List.foldl_append]
    simp only [List.foldl_cons, List.foldl_nil]
    have hfeed : (List.range k).foldl
        (fun rem i => shift width poly (rem ^^^ top width (bit i))) rem =
          feed width poly rem bit k := rfl
    rw [hfeed, ihk, hbit, ← shifts_xor, ← shifts_succ', Nat.xor_assoc]
    congr 2
    rw [atTop, atTop, List.range_succ, List.foldl_append]
    simp only [List.foldl_cons, List.foldl_nil]
    cases bit k with
    | false => exact Nat.xor_zero _
    | true => rfl

theorem feed_add (rem : ℕ) (bit : ℕ → Bool) (m n : ℕ) :
    feed width poly rem bit (m + n) =
      feed width poly (feed width poly rem bit m) (fun i => bit (m + i)) n := by
  rw [feed, List.range_add, List.foldl_append, List.foldl_map]
  rfl

end AdsbBridge.Lib.Crc
