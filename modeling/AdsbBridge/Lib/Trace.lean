import Mathlib.Data.List.Basic

/-! # Runs of a system that takes one step after the other

A system is a partial function from a state and an event to the next state;
an event that is not enabled has no step. A run is a list of events. What the
threads of a program do in some interleaving is such a list. -/
namespace AdsbBridge.Lib.Trace

variable {σ ε : Type} (step : σ → ε → Option σ)

/-- The state a run leads to, if each of its events was enabled. -/
def exec (s : σ) : List ε → Option σ
  | [] => some s
  | e :: es =>
    match step s e with
    | none => none
    | some s' => exec s' es

/-- Every step of a run meets a condition on the state before it and the event. -/
def Along (P : σ → ε → Prop) (s : σ) : List ε → Prop
  | [] => True
  | e :: es => P s e ∧ ∀ s', step s e = some s' → Along P s' es

variable {step}

theorem exec_cons {s s'' : σ} {e : ε} {es : List ε} (h : exec step s (e :: es) = some s'') :
    ∃ s', step s e = some s' ∧ exec step s' es = some s'' := by
  rw [exec] at h
  split at h
  · cases h
  · next s' hs => exact ⟨s', hs, h⟩

theorem exec_of_step {s s' : σ} {e : ε} (h : step s e = some s') (es : List ε) :
    exec step s (e :: es) = exec step s' es := by
  rw [exec, h]

theorem exec_append (s : σ) (es es' : List ε) :
    exec step s (es ++ es') = (exec step s es).bind fun s' => exec step s' es' := by
  induction es generalizing s with
  | nil => rfl
  | cons e es ih =>
    rw [List.cons_append, exec, exec]
    cases step s e with
    | none => rfl
    | some s' => exact ih s'

theorem along_mono {P Q : σ → ε → Prop} (h : ∀ s e, P s e → Q s e) {s : σ} {es : List ε}
    (hp : Along step P s es) : Along step Q s es := by
  induction es generalizing s with
  | nil => trivial
  | cons e es ih => exact ⟨h s e hp.1, fun t ht => ih (hp.2 t ht)⟩

/-- A condition on the events alone. -/
theorem along_of_forall {P : ε → Prop} {s : σ} {es : List ε} (h : ∀ e ∈ es, P e) :
    Along step (fun _ e => P e) s es := by
  induction es generalizing s with
  | nil => trivial
  | cons e es ih =>
    exact ⟨h e List.mem_cons_self, fun t _ => ih fun e' he' => h e' (List.mem_cons_of_mem e he')⟩

theorem along_append {P : σ → ε → Prop} {s : σ} {es es' : List ε} :
    Along step P s (es ++ es') ↔
      Along step P s es ∧ ∀ s', exec step s es = some s' → Along step P s' es' := by
  induction es generalizing s with
  | nil => simp [Along, exec]
  | cons e es ih =>
    rw [List.cons_append, Along, Along, and_assoc]
    refine and_congr_right fun _ => ?_
    cases hs : step s e with
    | none => simp [exec, hs]
    | some t => simp [exec, hs, ih]

/-- `Along` for a condition that is computed. -/
def checkAlong (step : σ → ε → Option σ) (p : σ → ε → Bool) (s : σ) : List ε → Bool
  | [] => true
  | e :: es => p s e && (step s e).elim true fun s' => checkAlong step p s' es

theorem along_of_check {p : σ → ε → Bool} {s : σ} {es : List ε}
    (h : checkAlong step p s es = true) : Along step (fun s e => p s e = true) s es := by
  induction es generalizing s with
  | nil => trivial
  | cons e es ih =>
    obtain ⟨hp, hrest⟩ := Bool.and_eq_true_iff.1 h
    refine ⟨hp, fun t ht => ih ?_⟩
    rwa [ht] at hrest

/-- A run that does not meet the condition has a first event that does not. -/
theorem exists_of_not_along {P : σ → ε → Prop} {s : σ} {es : List ε} (h : ¬ Along step P s es) :
    ∃ pre e post s', es = pre ++ e :: post ∧ exec step s pre = some s' ∧ ¬ P s' e := by
  induction es generalizing s with
  | nil => exact absurd trivial h
  | cons e es ih =>
    by_cases hp : P s e
    · have hnext : ∃ t, step s e = some t ∧ ¬ Along step P t es := by
        by_contra hno
        exact h ⟨hp, fun t ht => by_contra fun ha => hno ⟨t, ht, ha⟩⟩
      obtain ⟨t, ht, ha⟩ := hnext
      obtain ⟨pre, e', post, s', rfl, hrun, hn⟩ := ih ha
      exact ⟨e :: pre, e', post, s', rfl, by rw [exec, ht]; exact hrun, hn⟩
    · exact ⟨[], e, es, s, rfl, rfl, hp⟩

/-- **An invariant that every admitted step keeps holds after the run.** -/
theorem exec_invariant {P : σ → ε → Prop} {Inv : σ → Prop}
    (hstep : ∀ s e s', Inv s → P s e → step s e = some s' → Inv s') {s s' : σ} {es : List ε}
    (hs : Inv s) (hp : Along step P s es) (h : exec step s es = some s') : Inv s' := by
  induction es generalizing s with
  | nil => cases h; exact hs
  | cons e es ih =>
    obtain ⟨t, ht, hrun⟩ := exec_cons h
    exact ih (hstep s e t hs hp.1 ht) (hp.2 t ht) hrun

/-- What every step keeps holds after the run. -/
theorem exec_keeps (Inv : σ → Prop) (hstep : ∀ s e s', Inv s → step s e = some s' → Inv s')
    {s s' : σ} {es : List ε} (hs : Inv s) (h : exec step s es = some s') : Inv s' :=
  exec_invariant (P := fun _ _ => True) (fun s e s' hs _ => hstep s e s' hs) hs
    (along_of_forall fun _ _ => trivial) h

/-- The condition that holds in every state with the invariant holds along a run. -/
theorem along_of_invariant {P Q : σ → ε → Prop} {Inv : σ → Prop}
    (hstep : ∀ s e s', Inv s → P s e → step s e = some s' → Inv s')
    (hq : ∀ s e, Inv s → P s e → Q s e) {s : σ} {es : List ε}
    (hs : Inv s) (hp : Along step P s es) : Along step Q s es := by
  induction es generalizing s with
  | nil => trivial
  | cons e es ih =>
    exact ⟨hq s e hs hp.1, fun t ht => ih (hstep s e t hs hp.1 ht) (hp.2 t ht)⟩

/-- Two conditions that agree in every state with the invariant hold along the
same runs, if they keep the invariant. -/
theorem along_iff {P Q : σ → ε → Prop} {Inv : σ → Prop} (hpq : ∀ s e, Inv s → (P s e ↔ Q s e))
    (hstep : ∀ s e s', Inv s → P s e → step s e = some s' → Inv s') {s : σ} {es : List ε}
    (hs : Inv s) : Along step P s es ↔ Along step Q s es := by
  constructor
  · exact along_of_invariant hstep (fun s e hi hp => (hpq s e hi).1 hp) hs
  · exact along_of_invariant (fun s e s' hi hq => hstep s e s' hi ((hpq s e hi).2 hq))
      (fun s e hi hq => (hpq s e hi).2 hq) hs

/-- A run that meets the condition keeps `Good`; the first step that does not
meet it leads to `Bad`, and the run stays there. -/
theorem exec_dichotomy {P : σ → ε → Prop} {Good Bad : σ → Prop}
    (hgood : ∀ s e s', Good s → P s e → step s e = some s' → Good s')
    (hfall : ∀ s e s', Good s → ¬ P s e → step s e = some s' → Bad s')
    (hbad : ∀ s e s', Bad s → step s e = some s' → Bad s') {s s' : σ} {es : List ε}
    (hs : Good s) (h : exec step s es = some s') :
    (Along step P s es ∧ Good s') ∨ (¬ Along step P s es ∧ Bad s') := by
  have hstay : ∀ {s s' : σ} {es : List ε}, Bad s → exec step s es = some s' → Bad s' := by
    intro s s' es hs h
    induction es generalizing s with
    | nil => cases h; exact hs
    | cons e es ih =>
      obtain ⟨t, ht, hrun⟩ := exec_cons h
      exact ih (hbad s e t hs ht) hrun
  induction es generalizing s with
  | nil => cases h; exact .inl ⟨trivial, hs⟩
  | cons e es ih =>
    obtain ⟨t, ht, hrun⟩ := exec_cons h
    by_cases hp : P s e
    · rcases ih (hgood s e t hs hp ht) hrun with ⟨ha, hg⟩ | ⟨hna, hb⟩
      · refine .inl ⟨⟨hp, ?_⟩, hg⟩
        intro t' ht'
        rw [ht] at ht'
        cases ht'
        exact ha
      · exact .inr ⟨fun ha => hna (ha.2 t ht), hb⟩
    · exact .inr ⟨fun ha => hp ha.1, hstay (hfall s e t hs hp ht) hrun⟩

/-! ## Runs with events added -/

section Outputs

variable {ω : Type} (act : σ → ε → σ × ω)

/-- What the events of a run put out. -/
def outputs : σ → List ε → List ω
  | _, [] => []
  | s, e :: es => (act s e).2 :: outputs (act s e).1 es

/-- What the events put out that are not marked as added. -/
def keptOutputs : σ → List (ε × Bool) → List ω
  | _, [] => []
  | s, (e, true) :: es => keptOutputs (act s e).1 es
  | s, (e, false) :: es => (act s e).2 :: keptOutputs (act s e).1 es

/-- The run without the added events. -/
def kept (es : List (ε × Bool)) : List ε := (es.filter fun e => !e.2).map Prod.fst

variable {act}

/-- **Added events do not show** if they stay within a relation between the run
without and the run with them, and the others go along on both sides. -/
theorem keptOutputs_eq {R : List (ε × Bool) → σ → σ → Prop}
    (hadded : ∀ e es s s', R ((e, true) :: es) s s' → R es s (act s' e).1)
    (hkept : ∀ e es s s', R ((e, false) :: es) s s' →
      (act s' e).2 = (act s e).2 ∧ R es (act s e).1 (act s' e).1)
    {es : List (ε × Bool)} {s s' : σ} (h : R es s s') :
    keptOutputs act s' es = outputs act s (kept es) := by
  induction es generalizing s s' with
  | nil => rfl
  | cons e es ih =>
    obtain ⟨e, added⟩ := e
    cases added with
    | true => exact ih (hadded e es s s' h)
    | false =>
      obtain ⟨hout, hnext⟩ := hkept e es s s' h
      have hrest := ih hnext
      show (act s' e).2 :: keptOutputs act (act s' e).1 es =
        (act s e).2 :: outputs act (act s e).1 (kept es)
      rw [hout, hrest]

end Outputs

end AdsbBridge.Lib.Trace
