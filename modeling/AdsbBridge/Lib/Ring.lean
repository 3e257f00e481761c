import Mathlib.Data.List.DropRight
import Mathlib.Data.List.Rotate

/-! # Arrays written round and round

A ring is an array and the position of the next write, which goes round at the
end. Read from that position on, it shows the last writes, the oldest first. -/
namespace AdsbBridge.Lib.Ring

variable {α : Type}

/-- A write and a step forward push out the oldest cell. -/
theorem rotate_set_succ {cells : List α} {next : ℕ} (h : next < cells.length) (a : α) :
    (cells.set next a).rotate (next + 1) = (cells.rotate next).tail ++ [a] := by
  have hdrop : cells.drop next = cells[next] :: cells.drop (next + 1) :=
    List.drop_eq_getElem_cons h
  rw [List.rotate_eq_drop_append_take (by rw [List.length_set]; omega),
    List.rotate_eq_drop_append_take (by omega), hdrop, List.cons_append, List.tail_cons,
    List.append_assoc, List.drop_set_of_lt (by omega), List.take_add_one, List.take_set_of_le (by omega),
    List.getElem?_set_self h]
  rfl

/-- The last of a list and one more. -/
theorem rtake_concat {l : List α} {n : ℕ} (h : n < l.length) (a : α) :
    (l ++ [a]).rtake (n + 1) = (l.rtake (n + 1)).tail ++ [a] := by
  have hlast : l.rtake (n + 1) = l[l.length - (n + 1)] :: l.rtake n := by
    rw [List.rtake, List.drop_eq_getElem_cons (by omega), List.rtake,
      show l.length - (n + 1) + 1 = l.length - n by omega]
  rw [List.rtake_concat_succ, hlast, List.tail_cons]

/-- What a ring of `n + 1` cells shows after `pushed`, all of them being `empty`
at first. -/
def shown (empty : α) (n : ℕ) (pushed : List α) : List α :=
  (List.replicate (n + 1) empty ++ pushed).rtake (n + 1)

theorem shown_nil (empty : α) (n : ℕ) : shown empty n [] = List.replicate (n + 1) empty := by
  rw [shown, List.append_nil, List.rtake, List.length_replicate, Nat.sub_self, List.drop_zero]

/-- **A write shows as one more push.** -/
theorem rotate_set {empty : α} {n next next' : ℕ} {cells pushed : List α}
    (hlen : cells.length = n + 1) (hnext : next < n + 1) (hround : next' = (next + 1) % (n + 1))
    (h : cells.rotate next = shown empty n pushed) (a : α) :
    (cells.set next a).rotate next' = shown empty n (pushed ++ [a]) := by
  have hmod : (cells.set next a).rotate next' = (cells.set next a).rotate (next + 1) := by
    have hset : (cells.set next a).length = n + 1 := by rw [List.length_set, hlen]
    rw [hround, ← hset, List.rotate_mod]
  rw [hmod, rotate_set_succ (by omega), h, shown, shown, ← List.append_assoc, rtake_concat]
  rw [List.length_append, List.length_replicate]
  omega

/-- The cells that were written since the start. -/
theorem filter_shown {empty : α} (p : α → Bool) (hempty : p empty = false) {pushed : List α}
    (h : ∀ a ∈ pushed, p a = true) (n : ℕ) :
    (shown empty n pushed).filter p = pushed.rtake (n + 1) := by
  have hall : (pushed.rtake (n + 1)).filter p = pushed.rtake (n + 1) :=
    List.filter_eq_self.2 fun a ha => h a (List.mem_of_mem_drop ha)
  rw [shown, List.rtake, List.length_append, List.length_replicate, Nat.add_sub_cancel_left,
    List.drop_append, List.length_replicate, List.filter_append, List.drop_replicate,
    List.filter_replicate_of_neg (by simp [hempty]), List.nil_append]
  exact hall

end AdsbBridge.Lib.Ring
