import Mathlib.Logic.Function.Basic

/-! # Systems that act on one entry at a time

The state has an entry under every key. An event reads and replaces the entry
under its own key and has an output. What the events of one key put out is a
run over that entry alone, so the events of other keys can be taken away
without a trace. -/
namespace AdsbBridge.Lib.Keyed

variable {κ ν ι ω : Type} (act : ι → ν → ν × ω)

/-- The outputs of a run on a single entry, each with its event. -/
def entryOutputs : ν → List ι → List (ι × ω)
  | _, [] => []
  | v, i :: is => (i, (act i v).2) :: entryOutputs (act i v).1 is

variable [DecidableEq κ] (key : ι → κ)

/-- The outputs of a run, each with its event. -/
def outputs : (κ → ν) → List ι → List (ι × ω)
  | _, [] => []
  | s, i :: is =>
    (i, (act i (s (key i))).2) :: outputs (Function.update s (key i) (act i (s (key i))).1) is

/-- The outputs for one key are a run over its entry. -/
theorem filter_outputs (s : κ → ν) (is : List ι) (k : κ) :
    (outputs act key s is).filter (fun o => key o.1 = k) =
      entryOutputs act (s k) (is.filter fun i => key i = k) := by
  induction is generalizing s with
  | nil => rfl
  | cons i is ih =>
    rw [outputs, List.filter_cons, List.filter_cons, ih]
    by_cases hk : key i = k
    · subst hk
      rw [if_pos (decide_eq_true rfl), if_pos (decide_eq_true rfl), entryOutputs,
        Function.update_self]
    · rw [if_neg (by simpa using hk), if_neg (by simpa using hk),
        Function.update_of_ne (Ne.symm hk)]

/-- **Taking away events of other keys changes no output of this one.** -/
theorem filter_outputs_of_removed (s : κ → ν) {p : ι → Bool} {k : κ}
    (hp : ∀ i, key i = k → p i = true) (is : List ι) :
    (outputs act key s (is.filter p)).filter (fun o => key o.1 = k) =
      (outputs act key s is).filter (fun o => key o.1 = k) := by
  rw [filter_outputs, filter_outputs, List.filter_filter]
  congr 1
  refine List.filter_congr fun i _ => ?_
  by_cases hk : key i = k
  · rw [hp i hk, Bool.and_true]
  · rw [decide_eq_false hk, Bool.false_and]

/-- What every event makes of an entry with `P` holds of all outputs. -/
theorem forall_outputs {P : ν → Prop} {Q : ι → ω → Prop}
    (hact : ∀ i v, P v → P (act i v).1 ∧ Q i (act i v).2) {s : κ → ν} (hs : ∀ k, P (s k))
    (is : List ι) : ∀ o ∈ outputs act key s is, Q o.1 o.2 := by
  induction is generalizing s with
  | nil => exact nofun
  | cons i is ih =>
    obtain ⟨hnext, hout⟩ := hact i (s (key i)) (hs (key i))
    refine List.forall_mem_cons.2 ⟨hout, ih fun k => ?_⟩
    by_cases hk : k = key i
    · rw [hk, Function.update_self]
      exact hnext
    · rw [Function.update_of_ne hk]
      exact hs k

end AdsbBridge.Lib.Keyed
