import AdsbBridge.Readsb.Adapter

/-! # The 2.4 MHz demodulator

`demodulate2400` of `demod_2400.c` and `readsb_bridge_demodulate_2400`. How the
bits of a message are sliced out of the samples is `sliceAt`; the loop around
it, which scores the slices, decodes the best one and skips it, is stated for
any slicer. A buffer is read through a function; the source leaves what lies
behind a short message in the message buffer as it was, here it is zero. -/
namespace AdsbBridge.Readsb
open AdsbBridge.Frame

/-! ## Slicing -/

def slicePhase (m : ℕ → ℤ) (phase p : ℕ) : ℤ :=
  match phase with
  | 0 => 18 * m p - 15 * m (p + 1) - 3 * m (p + 2)
  | 1 => 14 * m p - 5 * m (p + 1) - 9 * m (p + 2)
  | 2 => 16 * m p + 5 * m (p + 1) - 20 * m (p + 2)
  | 3 => 7 * m p + 11 * m (p + 1) - 18 * m (p + 2)
  | _ => 4 * m p + 15 * m (p + 1) - 20 * m (p + 2) + 1 * m (p + 3)

/-- The phases and offsets of the eight bits of `slice_byte`, the next phase and
the step of the pointer. -/
def sliceSteps (phase : ℕ) : List (ℕ × ℕ) × ℕ × ℕ :=
  match phase with
  | 0 => ([(0, 0), (2, 2), (4, 4), (1, 7), (3, 9), (0, 12), (2, 14), (4, 16)], 1, 19)
  | 1 => ([(1, 0), (3, 2), (0, 5), (2, 7), (4, 9), (1, 12), (3, 14), (0, 17)], 2, 19)
  | 2 => ([(2, 0), (4, 2), (1, 5), (3, 7), (0, 10), (2, 12), (4, 14), (1, 17)], 3, 19)
  | 3 => ([(3, 0), (0, 3), (2, 5), (4, 7), (1, 10), (3, 12), (0, 15), (2, 17)], 4, 19)
  | _ => ([(4, 0), (1, 3), (3, 5), (0, 8), (2, 10), (4, 12), (1, 15), (3, 17)], 0, 20)

def sliceByte (m : ℕ → ℤ) (phase p : ℕ) : ℕ :=
  (sliceSteps phase).1.foldl (fun byte step =>
    2 * byte + if slicePhase m step.1 (p + step.2) > 0 then 1 else 0) 0

def sliceBytes (m : ℕ → ℤ) : ℕ → ℕ → ℕ → List ℕ
  | 0, _, _ => []
  | n + 1, phase, p =>
    let (_, next, step) := sliceSteps phase
    sliceByte m phase p :: sliceBytes m n next (p + step)

/-- `valid_df_long_bitset`, with the damaged forms of a DF17. -/
def isLongDF (df : ℕ) : Bool := df ∈ [16, 17, 18, 20, 21, 19, 25, 1]

def isShortDF (df : ℕ) : Bool := df ∈ [0, 4, 5, 11]

/-- The bytes `score_phase` slices; of a message with an unknown type only the
first one. -/
def slicedMessage (m : ℕ → ℤ) (pa tryPhase : ℕ) : Message :=
  let p := pa + 19 + tryPhase / 5
  let first := sliceByte m (tryPhase % 5) p
  let bytelen := if isLongDF (first >>> 3) then 14 else if isShortDF (first >>> 3) then 7 else 1
  let bytes := sliceBytes m bytelen (tryPhase % 5) p
  Vector.ofFn fun i => UInt8.ofNat (bytes.getD i 0)

def preambleThreshold : ℤ := 58

def triedPhases (m : ℕ → ℤ) (pa : ℕ) : List ℕ :=
  if m (pa + 1) > m (pa + 7) ∧ m (pa + 12) > m (pa + 14) ∧ m (pa + 12) > m (pa + 15) then
    let baseNoise := m (pa + 5) + m (pa + 8) + m (pa + 16) + m (pa + 17) + m (pa + 18)
    let refLevel := (baseNoise * preambleThreshold) / 32
    let diff23 := m (pa + 2) - m (pa + 3)
    let sum14 := m (pa + 1) + m (pa + 4)
    let diff1011 := m (pa + 10) - m (pa + 11)
    let common3456 := sum14 - diff23 + m (pa + 9) + m (pa + 12)
    (if common3456 - diff1011 ≥ refLevel then [4, 5] else []) ++
      (if common3456 + diff1011 ≥ refLevel then [6, 7] else []) ++
      (if sum14 + 2 * diff23 + diff1011 + m (pa + 12) ≥ refLevel then [8] else [])
  else []

/-- The messages sliced out of the samples from a position on, one for each
phase tried. -/
abbrev Slicer := (ℕ → ℕ) → ℕ → List Message

def sliceAt : Slicer := fun m pa =>
  (triedPhases (fun i => m i) pa).map (slicedMessage (fun i => m i) pa)

/-! ### What slicing reads -/

section Congr

variable {m m' : ℕ → ℤ}

theorem slicePhase_congr {p : ℕ} (phase : ℕ) (h : ∀ i < 4, m (p + i) = m' (p + i)) :
    slicePhase m phase p = slicePhase m' phase p := by
  have h₀ : m p = m' p := h 0 (by omega)
  have h₁ := h 1 (by omega)
  have h₂ := h 2 (by omega)
  have h₃ := h 3 (by omega)
  unfold slicePhase
  rw [h₀, h₁, h₂, h₃]

theorem sliceSteps_bound (phase : ℕ) :
    (∀ step ∈ (sliceSteps phase).1, step.2 ≤ 17) ∧ (sliceSteps phase).2.2 ≤ 20 := by
  unfold sliceSteps
  split <;> simp

theorem sliceByte_congr {p : ℕ} (phase : ℕ) (h : ∀ i < 21, m (p + i) = m' (p + i)) :
    sliceByte m phase p = sliceByte m' phase p := by
  refine List.foldl_ext _ _ _ fun byte step hstep => ?_
  have hbound := (sliceSteps_bound phase).1 step hstep
  rw [slicePhase_congr step.1 fun i hi => ?_]
  rw [Nat.add_assoc]
  exact h _ (by omega)

theorem sliceBytes_congr {n p : ℕ} (phase : ℕ) (h : ∀ i < 20 * n + 1, m (p + i) = m' (p + i)) :
    sliceBytes m n phase p = sliceBytes m' n phase p := by
  induction n generalizing phase p with
  | zero => rfl
  | succ n ih =>
    have hstep := (sliceSteps_bound phase).2
    have hrest : sliceBytes m n (sliceSteps phase).2.1 (p + (sliceSteps phase).2.2) =
        sliceBytes m' n (sliceSteps phase).2.1 (p + (sliceSteps phase).2.2) := by
      refine ih _ fun i hi => ?_
      rw [Nat.add_assoc]
      exact h _ (by omega)
    simp only [sliceBytes]
    rw [sliceByte_congr phase fun i hi => h i (by omega), hrest]

theorem slicedMessage_congr {pa tryPhase : ℕ} (hphase : tryPhase < 10)
    (h : ∀ i < 301, m (pa + i) = m' (pa + i)) :
    slicedMessage m pa tryPhase = slicedMessage m' pa tryPhase := by
  have hshift : ∀ i < 281, m (pa + 19 + tryPhase / 5 + i) = m' (pa + 19 + tryPhase / 5 + i) := by
    intro i hi
    rw [Nat.add_assoc, Nat.add_assoc]
    exact h _ (by omega)
  have hfirst := sliceByte_congr (tryPhase % 5) fun i hi => hshift i (by omega)
  simp only [slicedMessage, hfirst]
  rw [sliceBytes_congr (tryPhase % 5) fun i hi => hshift i ?_]
  split at hi
  · exact hi
  · split at hi <;> omega

theorem triedPhases_lt {pa tryPhase : ℕ} (h : tryPhase ∈ triedPhases m pa) : tryPhase < 10 := by
  simp only [triedPhases] at h
  split at h
  · simp only [List.mem_append, List.mem_ite_nil_right, List.mem_cons, List.not_mem_nil,
      or_false] at h
    omega
  · cases h

theorem triedPhases_congr {pa : ℕ} (h : ∀ i < 19, m (pa + i) = m' (pa + i)) :
    triedPhases m pa = triedPhases m' pa := by
  simp only [triedPhases, h 1 (by decide), h 2 (by decide), h 3 (by decide), h 4 (by decide),
    h 5 (by decide), h 7 (by decide), h 8 (by decide), h 9 (by decide), h 10 (by decide),
    h 11 (by decide), h 12 (by decide), h 14 (by decide), h 15 (by decide), h 16 (by decide),
    h 17 (by decide), h 18 (by decide)]

/-- Slicing at `pa` reads 301 samples at most. -/
theorem sliceAt_congr {m m' : ℕ → ℕ} {pa : ℕ} (h : ∀ i < 301, m (pa + i) = m' (pa + i)) :
    sliceAt m pa = sliceAt m' pa := by
  have hcast : ∀ i < 301, (m (pa + i) : ℤ) = m' (pa + i) := fun i hi => congrArg _ (h i hi)
  have hphases : triedPhases (fun i => m i) pa = triedPhases (fun i => m' i) pa :=
    triedPhases_congr fun i hi => hcast i (by omega)
  rw [sliceAt, sliceAt, hphases]
  exact List.map_congr_left fun phase hphase => slicedMessage_congr (triedPhases_lt hphase) hcast

end Congr

/-! ## Scoring and decoding -/

section

variable (env : Env) (slicer : Slicer)

/-- `score_phase`: the best score so far and its message. -/
def scorePhase (filter : IcaoFilter) (best : ℤ × Option Message) (message : Message) :
    ℤ × Option Message :=
  let df := (message.byte 0).toNat >>> 3
  if isLongDF df || isShortDF df then
    let score := scoreModesMessage env filter message (if isLongDF df then 112 else 56)
    if score > best.1 then (score, some message) else best
  else if -2 > best.1 then (-2, best.2)
  else best

/-- The candidate at `pa`, if its score is not negative. -/
def candidateAt (filter : IcaoFilter) (m : ℕ → ℕ) (pa : ℕ) : Option Message :=
  match (slicer m pa).foldl (scorePhase env filter) (-42, none) with
  | (score, message) => if score < 0 then none else message

/-- `pa += msglen * 8 / 4`, and the `pa++` of the loop. -/
def skipMessage (message : Message) : ℕ :=
  modesMessageLenByType (getbits (msg message) 1 5) * 8 / 4 + 1

/-- A message that `demodulate2400` hands to `decodeModesMessage`, where it
starts, and the result. -/
structure Candidate where
  pos : ℕ
  message : Message
  result : Except Rejection ModesMessage

/-- The loop of `demodulate2400`: the memory of addresses it leaves behind, and
the candidates it decodes. -/
def demodulate2400 (m : ℕ → ℕ) (stop : ℕ) :
    ℕ → ℕ → IcaoFilter → IcaoFilter × List Candidate
  | 0, _, filter => (filter, [])
  | fuel + 1, pa, filter =>
    if pa < stop then
      match candidateAt env slicer filter m pa with
      | none => demodulate2400 m stop fuel (pa + 1) filter
      | some message =>
        let (result, filter) := decodeModesMessage env filter message
        let next := match result with
          | .error _ => pa + 1
          | .ok _ => pa + skipMessage message
        let (filter, rest) := demodulate2400 m stop fuel next filter
        (filter, ⟨pa, message, result⟩ :: rest)
    else (filter, [])

/-- Where the loop goes on after a message was decoded. -/
def resumeAt (pa : ℕ) (message : Message) (result : Except Rejection ModesMessage) : ℕ :=
  match result with
  | .error _ => pa + 1
  | .ok _ => pa + skipMessage message

variable {env slicer} {m : ℕ → ℕ} {stop fuel pa : ℕ} {filter : IcaoFilter}

theorem demodulate2400_stop (h : ¬ pa < stop) :
    demodulate2400 env slicer m stop fuel pa filter = (filter, []) := by
  cases fuel with
  | zero => rfl
  | succ fuel => exact if_neg h

theorem demodulate2400_none (h : pa < stop) (hnone : candidateAt env slicer filter m pa = none) :
    demodulate2400 env slicer m stop (fuel + 1) pa filter =
      demodulate2400 env slicer m stop fuel (pa + 1) filter := by
  rw [demodulate2400, if_pos h, hnone]

theorem demodulate2400_some {message : Message} {result : Except Rejection ModesMessage}
    {filter' : IcaoFilter} (h : pa < stop)
    (hsome : candidateAt env slicer filter m pa = some message)
    (hdecode : decodeModesMessage env filter message = (result, filter')) :
    demodulate2400 env slicer m stop (fuel + 1) pa filter =
      ((demodulate2400 env slicer m stop fuel (resumeAt pa message result) filter').1,
        ⟨pa, message, result⟩ ::
          (demodulate2400 env slicer m stop fuel (resumeAt pa message result) filter').2) := by
  rw [demodulate2400, if_pos h, hsome]
  simp only [hdecode]
  rfl

theorem demodulate2400_skip {n : ℕ} (hn : pa + n ≤ stop)
    (h : ∀ i < n, candidateAt env slicer filter m (pa + i) = none) :
    demodulate2400 env slicer m stop (fuel + n) pa filter =
      demodulate2400 env slicer m stop fuel (pa + n) filter := by
  induction n generalizing pa with
  | zero => rfl
  | succ n ih =>
    have hrest : ∀ i < n, candidateAt env slicer filter m (pa + 1 + i) = none := by
      intro i hi
      rw [Nat.add_assoc, Nat.add_comm 1]
      exact h (i + 1) (Nat.succ_lt_succ hi)
    have hpa : pa < stop := by omega
    have hfirst : candidateAt env slicer filter m pa = none := h 0 (Nat.succ_pos n)
    rw [← Nat.add_assoc, demodulate2400_none hpa hfirst, ih (by omega) hrest,
      Nat.add_assoc, Nat.add_comm 1]

theorem candidateAt_nil (h : slicer m pa = []) : candidateAt env slicer filter m pa = none := by
  rw [candidateAt, h]
  rfl

/-- One slice with a known type is taken if its score is not negative. -/
theorem candidateAt_singleton {message : Message} (h : slicer m pa = [message])
    (hknown : isLongDF ((message.byte 0).toNat >>> 3) || isShortDF ((message.byte 0).toNat >>> 3)) :
    candidateAt env slicer filter m pa =
      if scoreModesMessage env filter message
          (if isLongDF ((message.byte 0).toNat >>> 3) then 112 else 56) < 0 then none
      else some message := by
  rw [candidateAt, h, List.foldl_cons, List.foldl_nil, scorePhase, if_pos hknown]
  generalize scoreModesMessage env filter message _ = score
  by_cases hbest : score > -42
  · simp [hbest]
  · have hneg : score < 0 := by omega
    simp [hbest, hneg]

theorem demodulate2400_congr {m' : ℕ → ℕ} (h : ∀ pa < stop, slicer m pa = slicer m' pa) :
    demodulate2400 env slicer m stop fuel pa filter =
      demodulate2400 env slicer m' stop fuel pa filter := by
  induction fuel generalizing pa filter with
  | zero => rfl
  | succ fuel ih =>
    by_cases hpa : pa < stop
    · have hcandidate : candidateAt env slicer filter m pa = candidateAt env slicer filter m' pa := by
        rw [candidateAt, candidateAt, h pa hpa]
      cases hc : candidateAt env slicer filter m pa with
      | none => rw [demodulate2400_none hpa hc, demodulate2400_none hpa (hcandidate ▸ hc), ih]
      | some message =>
        rw [demodulate2400_some hpa hc Prod.mk.eta.symm,
          demodulate2400_some hpa (hcandidate ▸ hc) Prod.mk.eta.symm, ih]
    · rw [demodulate2400_stop hpa, demodulate2400_stop hpa]

/-! ### The memory of addresses -/

/-- A scan without a message that registers leaves the memory as it was. -/
theorem demodulate2400_filter
    (h : ∀ c ∈ (demodulate2400 env slicer m stop fuel pa filter).2, ¬ Registers c.message) :
    (demodulate2400 env slicer m stop fuel pa filter).1 = filter := by
  induction fuel generalizing pa with
  | zero => rfl
  | succ fuel ih =>
    by_cases hpa : pa < stop
    · cases hc : candidateAt env slicer filter m pa with
      | none =>
        rw [demodulate2400_none hpa hc] at h ⊢
        exact ih h
      | some message =>
        rw [demodulate2400_some hpa hc Prod.mk.eta.symm] at h ⊢
        obtain ⟨hfirst, hrest⟩ := List.forall_mem_cons.1 h
        rw [decodeModesMessage_filter, if_neg hfirst] at hrest ⊢
        exact ih hrest
    · rw [demodulate2400_stop hpa]

/-- What is remembered is not forgotten by a scan. -/
theorem remembers_demodulate2400 (h : filter.Remembers) :
    (demodulate2400 env slicer m stop fuel pa filter).1.Remembers := by
  induction fuel generalizing pa filter with
  | zero => exact h
  | succ fuel ih =>
    by_cases hpa : pa < stop
    · cases hc : candidateAt env slicer filter m pa with
      | none =>
        rw [demodulate2400_none hpa hc]
        exact ih h
      | some message =>
        rw [demodulate2400_some hpa hc Prod.mk.eta.symm]
        exact ih (remembers_decodeModesMessage env message h)
    · rw [demodulate2400_stop hpa]
      exact h

theorem remembers_of_candidate
    (h : ∃ c ∈ (demodulate2400 env slicer m stop fuel pa filter).2, Registers c.message) :
    (demodulate2400 env slicer m stop fuel pa filter).1.Remembers := by
  induction fuel generalizing pa filter with
  | zero =>
    obtain ⟨c, hc, -⟩ := h
    cases hc
  | succ fuel ih =>
    by_cases hpa : pa < stop
    · cases hc : candidateAt env slicer filter m pa with
      | none =>
        rw [demodulate2400_none hpa hc] at h ⊢
        exact ih h
      | some message =>
        rw [demodulate2400_some hpa hc Prod.mk.eta.symm] at h ⊢
        rcases (List.exists_mem_cons_iff _ _ _).1 h with hfirst | hrest
        · exact remembers_demodulate2400 (remembers_of_registers env filter hfirst)
        · exact ih hrest
    · rw [demodulate2400_stop hpa] at h
      obtain ⟨c, hc, -⟩ := h
      cases hc

end

/-! ## The adapter's state -/

/-- The static variables of the adapter, zero when the library is loaded. -/
structure Adapter where
  initialized : Bool := false
  filter : IcaoFilter := icaoFilterInit

def Adapter.init (adapter : Adapter) : Adapter :=
  if adapter.initialized then adapter else { initialized := true, filter := icaoFilterInit }

def readsbMaxMessagesPerBlock : ℕ := 256

/-- What `netUseMessage` makes of a candidate. -/
def Candidate.delivered (candidate : Candidate) : Option (ℕ × ReadsbBridgeMessage) :=
  match candidate.result with
  | .error _ => none
  | .ok mm => (fillBridgeMessage mm).map fun out => (candidate.pos, out)

/-- `readsb_bridge_demodulate_2400`; `netUseMessage` drops what does not fit into
the block. -/
def readsbBridgeDemodulate2400 (env : Env) (slicer : Slicer) (adapter : Adapter)
    (magnitude : ℕ → ℕ) (length : ℕ) : Adapter × List (ℕ × ReadsbBridgeMessage) :=
  let adapter := adapter.init
  let (filter, candidates) := demodulate2400 env slicer magnitude length length 0 adapter.filter
  ({ adapter with filter },
    (candidates.filterMap Candidate.delivered).take readsbMaxMessagesPerBlock)

end AdsbBridge.Readsb
