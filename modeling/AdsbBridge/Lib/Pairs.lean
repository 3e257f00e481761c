import Mathlib.Data.List.Basic

/-! # Pairing a stream that arrives in chunks

Consecutive elements are paired; a last element without a partner is carried
over and becomes the first element of the next chunk. -/
namespace AdsbBridge.Lib.Pairs

variable {α β : Type}

def pairUp : List α → List (α × α)
  | a :: b :: rest => (a, b) :: pairUp rest
  | _ => []

/-- The element `pairUp` leaves over. -/
def leftover : List α → Option α
  | _ :: _ :: rest => leftover rest
  | [a] => some a
  | [] => none

theorem length_pairUp (l : List α) : (pairUp l).length = l.length / 2 := by
  fun_induction pairUp l with
  | case1 a b rest ih => simp only [List.length_cons, ih]; omega
  | case2 l hl =>
    match l, hl with
    | [], _ => simp
    | [_], _ => simp
    | a :: b :: rest, hl => exact absurd rfl (hl a b rest)

/-- The pairs by their places in the list. -/
theorem pairUp_eq_range (d : α) (l : List α) :
    pairUp l = (List.range (l.length / 2)).map fun i => (l.getD (2 * i) d, l.getD (2 * i + 1) d) := by
  fun_induction pairUp l with
  | case1 a b rest ih =>
    have hlen : (a :: b :: rest).length / 2 = rest.length / 2 + 1 := by
      simp only [List.length_cons]
      omega
    rw [hlen, List.range_succ_eq_map, List.map_cons, List.map_map, ih]
    rfl
  | case2 l hl =>
    match l, hl with
    | [], _ => simp
    | [_], _ => simp
    | a :: b :: rest, hl => exact absurd rfl (hl a b rest)

/-- An element is carried exactly when there is an odd number of them. -/
theorem leftover_isSome (l : List α) : (leftover l).isSome = true ↔ l.length % 2 = 1 := by
  fun_induction leftover l with
  | case1 a b rest ih =>
    rw [ih]
    simp only [List.length_cons]
    omega
  | case2 a => simp
  | case3 => simp

/-- It is the last one. -/
theorem leftover_eq_getLast {l : List α} {a : α} (h : leftover l = some a) :
    l.getLast? = some a := by
  fun_induction leftover l with
  | case1 b c rest ih =>
    have hlast := ih h
    cases rest with
    | nil => cases hlast
    | cons d rest => rwa [List.getLast?_cons_cons, List.getLast?_cons_cons]
  | case2 b =>
    cases h
    rfl
  | case3 => cases h

/-- Pairing in two chunks, with the carry, is pairing the whole. -/
theorem pairUp_append (l m : List α) :
    pairUp (l ++ m) = pairUp l ++ pairUp ((leftover l).toList ++ m) := by
  fun_induction leftover l with
  | case1 a b rest ih => simp [pairUp, ih]
  | case2 a => simp [pairUp]
  | case3 => simp [pairUp]

theorem leftover_append (l m : List α) :
    leftover (l ++ m) = leftover ((leftover l).toList ++ m) := by
  fun_induction leftover l with
  | case1 a b rest ih => simpa [leftover] using ih
  | case2 a => rfl
  | case3 => rfl

end AdsbBridge.Lib.Pairs
