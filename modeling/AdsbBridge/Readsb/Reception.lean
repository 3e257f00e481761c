import AdsbBridge.Readsb.Score
import AdsbBridge.Readsb.Signal

/-! # What the demodulator finds

The loop of `demodulate2400` around slicing, scoring and decoding. It passes
over a position only behind a message it has decoded, and where it stops it takes
the slice with the highest score. So a transmission in the samples is decoded
where it starts, or it starts within a message that was. -/
namespace AdsbBridge.Readsb
open AdsbBridge.Frame

/-! ## Choosing a slice -/

section

variable {env : Env} {slicer : Slicer} {m : ℕ → ℕ} {pa : ℕ} {filter : IcaoFilter}

/-- A message with one of the types `score_phase` goes on with. -/
def KnownType (message : Message) : Prop :=
  (isLongDF ((message.byte 0).toNat >>> 3) || isShortDF ((message.byte 0).toNat >>> 3)) = true

def phaseScore (env : Env) (filter : IcaoFilter) (message : Message) : ℤ :=
  scoreModesMessage env filter message
    (if isLongDF ((message.byte 0).toNat >>> 3) then 112 else 56)

/-- A score above that of an unknown type has a message. -/
def HasMessage (env : Env) (filter : IcaoFilter) (best : ℤ × Option Message) : Prop :=
  -2 < best.1 → ∃ message, best.2 = some message ∧ phaseScore env filter message = best.1

theorem scorePhase_known {best : ℤ × Option Message} {message : Message} (h : KnownType message) :
    scorePhase env filter best message =
      if phaseScore env filter message > best.1 then (phaseScore env filter message, some message)
      else best :=
  if_pos h

theorem scorePhase_unknown {best : ℤ × Option Message} {message : Message}
    (h : ¬ KnownType message) :
    scorePhase env filter best message = if -2 > best.1 then (-2, best.2) else best :=
  if_neg h

theorem scorePhase_spec {best : ℤ × Option Message} (h : HasMessage env filter best)
    (message : Message) :
    HasMessage env filter (scorePhase env filter best message) ∧
      best.1 ≤ (scorePhase env filter best message).1 ∧
      (KnownType message → phaseScore env filter message ≤ (scorePhase env filter best message).1) := by
  by_cases hknown : KnownType message
  · rw [scorePhase_known hknown]
    split
    · next hmore => exact ⟨fun _ => ⟨message, rfl, rfl⟩, le_of_lt hmore, fun _ => le_refl _⟩
    · next hless => exact ⟨h, le_refl _, fun _ => not_lt.1 hless⟩
  · rw [scorePhase_unknown hknown]
    split
    · next hlow => exact ⟨fun hlt => absurd hlt (lt_irrefl _), le_of_lt hlow, fun hk => absurd hk hknown⟩
    · exact ⟨h, le_refl _, fun hk => absurd hk hknown⟩

/-- **The best slice**: none that is scored has a higher score. -/
theorem scorePhase_foldl {best : ℤ × Option Message} (h : HasMessage env filter best)
    (messages : List Message) :
    HasMessage env filter (messages.foldl (scorePhase env filter) best) ∧
      best.1 ≤ (messages.foldl (scorePhase env filter) best).1 ∧
      ∀ message ∈ messages, KnownType message →
        phaseScore env filter message ≤ (messages.foldl (scorePhase env filter) best).1 := by
  induction messages generalizing best with
  | nil => exact ⟨h, le_refl _, by simp⟩
  | cons first rest ih =>
    obtain ⟨hfirst, hmore, hscored⟩ := scorePhase_spec h first
    obtain ⟨hlast, hle, hrest⟩ := ih hfirst
    refine ⟨hlast, hmore.trans hle, fun message hmem hknown => ?_⟩
    rcases List.mem_cons.1 hmem with rfl | hmem
    · exact (hscored hknown).trans hle
    · exact hrest message hmem hknown

theorem hasMessage_start (env : Env) (filter : IcaoFilter) : HasMessage env filter (-42, none) :=
  fun h => absurd h (by decide)

theorem candidateAt_of_mem {message : Message} (hmem : message ∈ slicer m pa)
    (hknown : KnownType message) (hscore : 0 ≤ phaseScore env filter message) :
    ∃ best, candidateAt env slicer filter m pa = some best ∧
      phaseScore env filter message ≤ phaseScore env filter best := by
  obtain ⟨hhas, -, hscored⟩ := scorePhase_foldl (hasMessage_start env filter)
    (slicer m pa)
  have hle := hscored message hmem hknown
  unfold candidateAt
  generalize (slicer m pa).foldl (scorePhase env filter) (-42, none) = result at hhas hle
  obtain ⟨score, found⟩ := result
  obtain ⟨best, rfl, hbest⟩ := hhas (by simp only at hle ⊢; omega)
  simp only at hle hbest
  exact ⟨best, if_neg (by omega), by rw [hbest]; exact hle⟩

theorem score_of_candidateAt {message : Message}
    (h : candidateAt env slicer filter m pa = some message) : 0 ≤ phaseScore env filter message := by
  obtain ⟨hhas, -, -⟩ := scorePhase_foldl (hasMessage_start env filter)
    (slicer m pa)
  unfold candidateAt at h
  generalize (slicer m pa).foldl (scorePhase env filter) (-42, none) = result at hhas h
  obtain ⟨score, found⟩ := result
  simp only at h
  split at h
  · cases h
  · next hpos =>
    subst h
    obtain ⟨best, hbest, heq⟩ := hhas (by simp only; omega)
    cases hbest
    simp only at heq
    omega

end

/-! ## The loop -/

section

variable {env : Env} {slicer : Slicer} {m : ℕ → ℕ} {stop fuel pa : ℕ} {filter : IcaoFilter}

def Candidate.Decoded (c : Candidate) : Prop := ∃ mm, c.result = .ok mm

/-- A candidate that the loop jumped behind, past a position. -/
def Candidate.Covers (c : Candidate) (x : ℕ) : Prop :=
  c.Decoded ∧ c.pos ≤ x ∧ x < c.pos + skipMessage c.message

theorem skipMessage_pos (message : Message) : 0 < skipMessage message := Nat.succ_pos _

theorem lt_resumeAt (pa : ℕ) (message : Message) (result : Except Rejection ModesMessage) :
    pa < resumeAt pa message result := by
  cases result with
  | error rejection => exact Nat.lt_succ_self pa
  | ok mm => exact Nat.lt_add_of_pos_right (skipMessage_pos message)

/-- The loop goes forward. -/
theorem le_pos_of_mem {c : Candidate}
    (hc : c ∈ (demodulate2400 env slicer m stop fuel pa filter).2) : pa ≤ c.pos := by
  induction fuel generalizing pa filter with
  | zero => exact absurd hc List.not_mem_nil
  | succ fuel ih =>
    by_cases hpa : pa < stop
    · cases hfound : candidateAt env slicer filter m pa with
      | none =>
        rw [demodulate2400_none hpa hfound] at hc
        exact (Nat.le_succ pa).trans (ih hc)
      | some message =>
        rw [demodulate2400_some hpa hfound Prod.mk.eta.symm] at hc
        rcases List.mem_cons.1 hc with rfl | hc
        · exact le_refl pa
        · exact le_of_lt ((lt_resumeAt pa message _).trans_le (ih hc))
    · rw [demodulate2400_stop hpa] at hc
      exact absurd hc List.not_mem_nil

/-- **Every candidate** was chosen and decoded with the addresses known when the
loop came to it: those that the loop leaves behind if it stops there. -/
theorem demodulate2400_candidates :
    ∀ c ∈ (demodulate2400 env slicer m stop fuel pa filter).2,
      candidateAt env slicer (demodulate2400 env slicer m c.pos fuel pa filter).1 m c.pos =
          some c.message ∧
        c.result = (decodeModesMessage env
          (demodulate2400 env slicer m c.pos fuel pa filter).1 c.message).1 := by
  induction fuel generalizing pa filter with
  | zero => exact fun c hc => absurd hc List.not_mem_nil
  | succ fuel ih =>
    by_cases hpa : pa < stop
    · cases hfound : candidateAt env slicer filter m pa with
      | none =>
        rw [demodulate2400_none hpa hfound]
        intro c hc
        have hlt : pa < c.pos := le_pos_of_mem hc
        rw [demodulate2400_none hlt hfound]
        exact ih c hc
      | some message =>
        rw [demodulate2400_some hpa hfound Prod.mk.eta.symm]
        intro c hc
        rcases List.mem_cons.1 hc with rfl | hc
        · rw [demodulate2400_stop (lt_irrefl pa)]
          exact ⟨hfound, rfl⟩
        · have hlt : pa < c.pos := (lt_resumeAt pa message _).trans_le (le_pos_of_mem hc)
          rw [demodulate2400_some hlt hfound Prod.mk.eta.symm]
          exact ih c hc
    · rw [demodulate2400_stop hpa]
      exact fun c hc => absurd hc List.not_mem_nil

/-- **No position is passed over**: the loop looks at it, or has jumped over it
behind a message it decoded. -/
theorem demodulate2400_reaches {x : ℕ} (hpa : pa ≤ x) (hx : x < stop) (hfuel : stop ≤ pa + fuel) :
    (∃ filter', ∀ message, candidateAt env slicer filter' m x = some message →
        ⟨x, message, (decodeModesMessage env filter' message).1⟩ ∈
          (demodulate2400 env slicer m stop fuel pa filter).2) ∨
      ∃ c ∈ (demodulate2400 env slicer m stop fuel pa filter).2, c.Covers x := by
  induction fuel generalizing pa filter with
  | zero => omega
  | succ fuel ih =>
    have hstop : pa < stop := by omega
    cases hfound : candidateAt env slicer filter m pa with
    | none =>
      rw [demodulate2400_none hstop hfound]
      rcases hpa.lt_or_eq with hlt | rfl
      · exact ih hlt (by omega)
      · refine .inl ⟨filter, fun message hmessage => ?_⟩
        rw [hfound] at hmessage
        cases hmessage
    | some message =>
      rw [demodulate2400_some hstop hfound Prod.mk.eta.symm]
      rcases hpa.lt_or_eq with hlt | rfl
      · cases hresult : (decodeModesMessage env filter message).1 with
        | error rejection =>
          rcases @ih (pa + 1) (decodeModesMessage env filter message).2 hlt (by omega) with
            ⟨filter', hlooked⟩ | ⟨c, hc, hcovers⟩
          · exact .inl ⟨filter', fun message' h => List.mem_cons_of_mem _ (hlooked message' h)⟩
          · exact .inr ⟨c, List.mem_cons_of_mem _ hc, hcovers⟩
        | ok mm =>
          by_cases hcovered : x < pa + skipMessage message
          · exact .inr ⟨_, List.mem_cons_self, ⟨mm, rfl⟩, hpa, hcovered⟩
          · have hpos := skipMessage_pos message
            rcases @ih (pa + skipMessage message) (decodeModesMessage env filter message).2
              (by omega) (by omega) with ⟨filter', hlooked⟩ | ⟨c, hc, hcovers⟩
            · exact .inl ⟨filter', fun message' h => List.mem_cons_of_mem _ (hlooked message' h)⟩
            · exact .inr ⟨c, List.mem_cons_of_mem _ hc, hcovers⟩
      · refine .inl ⟨filter, fun message' hmessage => ?_⟩
        rw [hfound] at hmessage
        cases hmessage
        exact List.mem_cons_self

/-- A squitter whose checksum fits, in the samples of a scan. -/
theorem demodulate2400_finds {fixBits : ℕ} (henv : env.tables = modesChecksumInit fixBits)
    {message : Message} (hsquitter : IntactSquitter message) {start amplitude noise : ℕ}
    (h : Carries m message 112 start amplitude noise) (hstart : 3 ≤ start)
    (hstop : (start - 3) / 5 < stop) (hfuel : stop ≤ fuel) :
    ∃ c ∈ (demodulate2400 env sliceAt m stop fuel 0 filter).2, c.Covers ((start - 3) / 5) := by
  have hlong : isLongDF ((message.byte 0).toNat >>> 3) = true := by
    rw [← getbits_type]
    rcases hsquitter.type with ht | ht <;> rw [ht] <;> rfl
  have hslice : message ∈ sliceAt m ((start - 3) / 5) :=
    mem_sliceAt ⟨(if_pos hlong).symm, fun i hi => byte_of_le message (by omega)⟩ h hstart
  rcases @demodulate2400_reaches env sliceAt m stop fuel 0 filter ((start - 3) / 5)
    (Nat.zero_le _) hstop (by omega) with ⟨filter', hlooked⟩ | hcovered
  · have hscore : 1400 ≤ phaseScore env filter' message := by
      rw [phaseScore, if_pos hlong]
      exact score_fitting rfl hsquitter.type ((modesChecksum_eq_zero_iff message).2 hsquitter.checksum)
    obtain ⟨best, hbest, hmore⟩ := candidateAt_of_mem hslice
      (show KnownType message by rw [KnownType, hlong, Bool.true_or])
      (show 0 ≤ phaseScore env filter' message by omega)
    obtain ⟨mm, hdecoded⟩ := decode_of_high_score henv
      (show 900 < phaseScore env filter' best by omega)
    have hpos : (start - 3) / 5 < (start - 3) / 5 + skipMessage best :=
      Nat.lt_add_of_pos_right (skipMessage_pos best)
    exact ⟨⟨_, best, _⟩, hlooked best hbest, ⟨mm, hdecoded⟩, le_refl _, hpos⟩
  · exact hcovered

/-- **What is chosen is decoded**, but for exactly the squitters whose repaired
address nobody has heard when the loop comes to them. -/
theorem demodulate2400_decodes {fixBits : ℕ} (henv : env.tables = modesChecksumInit fixBits)
    {c : Candidate} (hc : c ∈ (demodulate2400 env slicer m stop fuel pa filter).2) :
    (c.Decoded ↔ ¬ UnknownRepair env (demodulate2400 env slicer m c.pos fuel pa filter).1 c.message) ∧
      (¬ c.Decoded → c.result = .error .unknownIcao) := by
  obtain ⟨hchosen, hresult⟩ := demodulate2400_candidates c hc
  have hdecoded : c.Decoded ↔
      ¬ UnknownRepair env (demodulate2400 env slicer m c.pos fuel pa filter).1 c.message := by
    rw [Candidate.Decoded, hresult]
    exact decode_iff_of_score henv (score_of_candidateAt hchosen)
  refine ⟨hdecoded, fun hnot => ?_⟩
  rw [hdecoded, not_not] at hnot
  exact hresult.trans hnot.rejected

def slicerOf (message : Message) : Slicer := fun _ _ => [message]

/-- A wrong bit of an address that nobody has heard. -/
theorem demodulate2400_wrong_address :
    ∃ c ∈ (demodulate2400 repairingEnv (slicerOf (flipBit identification 20)) (fun _ => 0) 1 1 0
      icaoFilterInit).2,
      (c.Decoded ↔ ¬ UnknownRepair repairingEnv icaoFilterInit c.message) ∧
        c.result = .error .unknownIcao := by
  obtain ⟨hscore, hdecoded⟩ := @decode_one_wrong repairingEnv identification 2 20 (by decide) rfl
    (by decide) (by decide) (by decide) (by decide) icaoFilterInit
  have hchosen : candidateAt repairingEnv (slicerOf (flipBit identification 20)) icaoFilterInit
      (fun _ => 0) 0 = some (flipBit identification 20) := by
    rw [candidateAt_singleton rfl (by decide), if_neg]
    rw [if_pos (by decide)]
    omega
  have htables : repairingEnv.tables = modesChecksumInit 2 := rfl
  have hmem : ⟨0, flipBit identification 20,
      (decodeModesMessage repairingEnv icaoFilterInit (flipBit identification 20)).1⟩ ∈
      (demodulate2400 repairingEnv (slicerOf (flipBit identification 20)) (fun _ => 0) 1 1 0
        icaoFilterInit).2 := by
    rw [demodulate2400_some (by decide) hchosen Prod.mk.eta.symm]
    exact List.mem_cons_self
  obtain ⟨hiff, hrejected⟩ := demodulate2400_decodes htables hmem
  refine ⟨_, hmem, hiff, hrejected ?_⟩
  rintro ⟨mm, hok⟩
  rw [hdecoded, if_pos ⟨by decide, by decide, IcaoFilter.test_icaoFilterInit _⟩] at hok
  cases hok

/-! ## Room for the messages -/

theorem le_skipMessage (message : Message) : 113 ≤ skipMessage message := by
  rw [skipMessage, modesMessageLenByType]
  split <;> omega

/-- Messages are at least as long as the shortest one. -/
theorem length_delivered_le (hpa : pa < stop) :
    113 * ((demodulate2400 env slicer m stop fuel pa filter).2.filterMap Candidate.delivered).length +
      pa ≤ stop + 112 := by
  induction fuel generalizing pa filter with
  | zero =>
    rw [demodulate2400, List.filterMap_nil, List.length_nil]
    omega
  | succ fuel ih =>
    have hgoon : ∀ {next : ℕ} {filter : IcaoFilter}, pa < next →
        113 * ((demodulate2400 env slicer m stop fuel next filter).2.filterMap
          Candidate.delivered).length + min next stop ≤ stop + 112 := by
      intro next filter hnext
      by_cases hin : next < stop
      · have := @ih next filter hin
        omega
      · rw [demodulate2400_stop hin, List.filterMap_nil, List.length_nil]
        omega
    cases hfound : candidateAt env slicer filter m pa with
    | none =>
      rw [demodulate2400_none hpa hfound]
      have := @hgoon (pa + 1) filter (Nat.lt_succ_self pa)
      omega
    | some message =>
      rw [demodulate2400_some hpa hfound Prod.mk.eta.symm, List.filterMap_cons]
      have hskip := le_skipMessage message
      cases hresult : (decodeModesMessage env filter message).1 with
      | error rejection =>
        have := @hgoon (pa + 1) (decodeModesMessage env filter message).2 (Nat.lt_succ_self pa)
        simp only [Candidate.delivered, resumeAt]
        omega
      | ok mm =>
        have hrest := @hgoon (pa + skipMessage message) (decodeModesMessage env filter message).2
          (by omega)
        simp only [Candidate.delivered, resumeAt]
        split
        · omega
        · rw [List.length_cons]
          omega

end

end AdsbBridge.Readsb
