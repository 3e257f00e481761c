import AdsbBridge.ChunkIndependence
import AdsbBridge.FrontEnd.Handled
import AdsbBridge.Slicing

/-! # Frames without noise

A transmission that has energy where the format has it, and silence elsewhere,
is accepted where it begins. The preamble test passes one sample early as well;
what is sliced there is no extended squitter. -/
namespace AdsbBridge
open AdsbBridge.Lib AdsbBridge.Frame AdsbBridge.FrontEnd AdsbBridge.Fields

/-! ## A transmission -/

/-- The samples have energy where the pattern has it, and nowhere else. -/
def Renders (pattern : List Bool) (samples : List ℕ) : Prop :=
  samples.map (fun m => decide (m ≠ 0)) = pattern

theorem Renders.energy {pattern : List Bool} {samples : List ℕ} (h : Renders pattern samples)
    (i : ℕ) : samples.getD i 0 ≠ 0 ↔ pattern.getD i false = true := by
  rw [← h, show false = decide ((0 : ℕ) ≠ 0) from rfl, List.getD_map, decide_eq_true_eq]

section Pairs

variable {f : ℕ → List Bool} (hf : ∀ bit, (f bit).length = 2)
include hf

theorem length_flatMap_pair (n : ℕ) : ((List.range n).flatMap f).length = n * 2 := by
  rw [List.length_flatMap]
  simp [hf]

/-- The `bit`th of pairs one after the other. -/
theorem getD_flatMap_pair {n bit half : ℕ} (hbit : bit < n) (hhalf : half < 2) :
    ((List.range n).flatMap f).getD (bit * 2 + half) false = (f bit).getD half false := by
  have hlen := length_flatMap_pair hf
  induction n with
  | zero => omega
  | succ n ih =>
    rw [List.range_succ, List.flatMap_append, List.flatMap_singleton]
    by_cases hlast : bit = n
    · subst hlast
      rw [List.getD_append_right _ _ _ _ (by rw [hlen]; omega), hlen, Nat.add_sub_cancel_left]
    · rw [List.getD_append _ _ _ _ (by rw [hlen]; omega)]
      exact ih (by omega)

end Pairs

theorem length_halves (message : Message) (bit : ℕ) :
    (if Frame.bitAt message bit = 1 then [true, false] else [false, true]).length = 2 := by
  split
  · rfl
  · rfl

theorem length_onAir (message : Message) : (onAir message).length = frameSamples := by
  rw [onAir, List.length_append, length_flatMap_pair (length_halves message)]
  rfl

theorem bitAt_eq_one_iff (message : Message) (bit : ℕ) :
    Frame.bitAt message bit = 1 ↔ Readsb.isSet message bit = true := by
  rw [Readsb.isSet, decide_eq_true_eq, Frame.bitAt, Nat.and_one_is_mod]
  omega

theorem onAir_bit (message : Message) {bit : ℕ} (hbit : bit < messageBits) :
    (onAir message).getD (preambleSamples + bit * 2) false = Readsb.isSet message bit ∧
      (onAir message).getD (preambleSamples + bit * 2 + 1) false = !Readsb.isSet message bit := by
  have hpair : ∀ half < 2, (onAir message).getD (preambleSamples + bit * 2 + half) false =
      (if Frame.bitAt message bit = 1 then [true, false] else [false, true]).getD half false := by
    intro half hhalf
    have hpulses : ([true, false, true, false, false, false, false, true, false, true] ++
        List.replicate 6 false).length ≤ preambleSamples + bit * 2 + half :=
      Nat.le_add_right_of_le (Nat.le_add_right preambleSamples _)
    rw [onAir, List.getD_append_right _ _ _ _ hpulses, Nat.add_assoc]
    show List.getD _ (preambleSamples + (bit * 2 + half) - preambleSamples) false = _
    rw [Nat.add_sub_cancel_left]
    exact getD_flatMap_pair (length_halves message) hbit hhalf
  have hfirst := hpair 0 (by decide)
  have hsecond := hpair 1 (by decide)
  rw [Nat.add_zero] at hfirst
  rw [hfirst, hsecond]
  simp only [bitAt_eq_one_iff]
  cases Readsb.isSet message bit <;> exact ⟨rfl, rfl⟩

/-- The samples from `pos` on are a transmission of the message. -/
def Shows (mag : ℕ → ℕ) (pos : ℕ) (message : Message) : Prop :=
  ∀ i < frameSamples, mag (pos + i) ≠ 0 ↔ (onAir message).getD i false = true

/-- An extended squitter with a valid checksum. -/
structure IsSquitter (message : Message) : Prop where
  df : (message.byte 0).toNat >>> 3 = 17 ∨ (message.byte 0).toNat >>> 3 = 18
  checksum : validChecksum message = true

section Position

variable {mag : ℕ → ℕ} {pos len : ℕ} {message : Message}

theorem Shows.zero (h : Shows mag pos message) {i : ℕ} (hi : i < frameSamples)
    (hoff : (onAir message).getD i false = false) : mag (pos + i) = 0 := by
  by_contra hne
  rw [(h i hi).1 hne] at hoff
  cases hoff

/-- However strong the pulses are, there is nothing between them. -/
theorem Shows.looksLikePreamble (h : Shows mag pos message) : looksLikePreamble mag pos = true := by
  have hpulse : ∀ i < frameSamples, (onAir message).getD i false = true → 0 < mag (pos + i) :=
    fun i hi hon => Nat.pos_of_ne_zero ((h i hi).2 hon)
  have h0 : 0 < max (mag pos) (mag (pos + 1)) := lt_max_of_lt_left (hpulse 0 (by decide) rfl)
  have h2 : 0 < max (mag (pos + 2)) (mag (pos + 3)) :=
    lt_max_of_lt_left (hpulse 2 (by decide) rfl)
  have h7 : 0 < max (mag (pos + 7)) (mag (pos + 8)) :=
    lt_max_of_lt_left (hpulse 7 (by decide) rfl)
  have h9 : 0 < max (mag (pos + 9)) (mag (pos + 10)) :=
    lt_max_of_lt_left (hpulse 9 (by decide) rfl)
  have hpeak := lt_min (lt_min h0 h2) (lt_min h7 h9)
  simp only [Frame.looksLikePreamble, h.zero (i := 4) (by decide) rfl,
    h.zero (i := 5) (by decide) rfl, h.zero (i := 6) (by decide) rfl,
    h.zero (i := 11) (by decide) rfl, h.zero (i := 12) (by decide) rfl,
    h.zero (i := 13) (by decide) rfl, h.zero (i := 14) (by decide) rfl,
    h.zero (i := 15) (by decide) rfl, Nat.add_zero, Nat.zero_div, Nat.max_self, Nat.zero_mul,
    Bool.and_eq_true, decide_eq_true_eq]
  exact ⟨⟨Nat.mul_pos hpeak (by decide), Nat.mul_pos hpeak (by decide)⟩, by omega⟩

/-- Slicing a transmission gives the message back. -/
theorem Shows.sliced (h : Shows mag pos message) :
    (List.range messageBits).foldlM (sliceBit mag (pos + preambleSamples)) (Vector.replicate 14 0) =
      some message := by
  have hfirst : ∀ bit < messageBits, mag (pos + preambleSamples + bit * 2) ≠ 0 ↔
      Readsb.isSet message bit = true := by
    intro bit hbit
    rw [← (onAir_bit message hbit).1, Nat.add_assoc]
    exact h _ (by unfold frameSamples messageSamples; omega)
  have hsecond : ∀ bit < messageBits, mag (pos + preambleSamples + bit * 2 + 1) ≠ 0 ↔
      Readsb.isSet message bit = false := by
    intro bit hbit
    rw [← Bool.not_eq_true', ← (onAir_bit message hbit).2, Nat.add_assoc, Nat.add_assoc]
    exact h _ (by unfold frameSamples messageSamples; omega)
  have hsilent : ∀ bit < messageBits, mag (pos + preambleSamples + bit * 2) = 0 ∨
      mag (pos + preambleSamples + bit * 2 + 1) = 0 := by
    intro bit hbit
    by_contra hboth
    rw [not_or] at hboth
    have hset := (hfirst bit hbit).1 hboth.1
    rw [(hsecond bit hbit).1 hboth.2] at hset
    cases hset
  rw [slice_of_silent hsilent]
  refine congrArg some (ext_isSet fun bit hbit => ?_)
  rw [isSet_sliced _ _ (le_refl _), decide_eq_true hbit, Bool.true_and]
  cases hset : Readsb.isSet message bit with
  | true =>
    have hon := (hfirst bit hbit).2 hset
    rw [decide_eq_true_eq]
    have hoff := (hsilent bit hbit).resolve_left hon
    omega
  | false =>
    have hon := (hsecond bit hbit).2 hset
    rw [decide_eq_false_iff_not]
    have hoff := (hsilent bit hbit).resolve_right hon
    omega

/-- **A transmission is accepted where it begins**, as what it is. -/
theorem Shows.acceptAt (h : Shows mag pos message) (hlen : pos + frameSamples ≤ len)
    (hsquitter : IsSquitter message) : acceptAt mag len pos = some message := by
  have hend : ¬ pos + preambleSamples + messageSamples > len := by
    unfold frameSamples at hlen
    omega
  have hdf : ¬ ((message.byte 0).toNat >>> 3 ≠ 17 ∧ (message.byte 0).toNat >>> 3 ≠ 18) := by
    rcases hsquitter.df with hdf | hdf <;> simp [hdf]
  rw [Frame.acceptAt, if_pos h.looksLikePreamble, decodeMessage, if_neg hend, h.sliced]
  simp only
  rw [if_neg hdf, if_pos hsquitter.checksum]

theorem isSet_of_df (h : (message.byte 0).toNat >>> 3 = 17 ∨ (message.byte 0).toNat >>> 3 = 18) :
    Readsb.isSet message 0 = true := by
  have hbit : ((message.byte 0).toNat >>> 3).testBit 4 = true := by
    rcases h with h | h <;> rw [h] <;> rfl
  rw [Nat.testBit_shiftRight] at hbit
  rw [isSet_eq]
  exact hbit

/-- **One sample early nothing is accepted**, though the preamble test passes
there: the first bit comes out as zero, which no squitter has. -/
theorem Shows.acceptAt_early (h : Shows mag (pos + 1) message) (hsquitter : IsSquitter message) :
    Frame.acceptAt mag len pos = none := by
  have hfirst := onAir_bit message (show 0 < messageBits by decide)
  have hon : mag (pos + 1 + 16) ≠ 0 := (h 16 (by decide)).2
    (hfirst.1.trans (isSet_of_df hsquitter.df))
  have hoff : mag (pos + 1 + 15) = 0 := h.zero (by decide) rfl
  rw [Frame.acceptAt]
  split
  · rw [decodeMessage]
    split
    · rfl
    · split
      · rfl
      · next sliced hsliced =>
        have hset : Readsb.isSet sliced 0 = false := by
          rw [slice_eq_some hsliced, isSet_sliced _ _ (le_refl _)]
          have hge : ¬ mag (pos + preambleSamples + 0 * 2 + 1) <
              mag (pos + preambleSamples + 0 * 2) := by
            have hzero : mag (pos + preambleSamples + 0 * 2) = 0 := hoff
            omega
          rw [decide_eq_false hge, Bool.and_false]
        have hdf : (sliced.byte 0).toNat >>> 3 ≠ 17 ∧ (sliced.byte 0).toNat >>> 3 ≠ 18 := by
          rw [← not_or]
          intro hdf
          rw [isSet_of_df hdf] at hset
          cases hset
        simp only
        rw [if_pos hdf]
  · rfl

/-- Two silent samples begin no preamble. -/
theorem acceptAt_silent (h0 : mag pos = 0) (h1 : mag (pos + 1) = 0) :
    Frame.acceptAt mag len pos = none := by
  have hno : ¬ Frame.looksLikePreamble mag pos = true := by
    have hpeak : max (mag pos) (mag (pos + 1)) = 0 := by rw [h0, h1, Nat.max_self]
    intro hlooks
    simp only [Frame.looksLikePreamble, hpeak, Nat.zero_min, Nat.zero_mul, Bool.and_eq_true,
      decide_eq_true_eq] at hlooks
    exact Nat.not_lt_zero _ hlooks.1.1
  rw [Frame.acceptAt, if_neg hno]

end Position

/-! ## Transmissions one after the other -/

/-- Transmissions with silent samples in front of each of them, and `after`
silent samples behind the last. -/
def transmissions (after : ℕ) : List (ℕ × Message) → List Bool
  | [] => List.replicate after false
  | (gap, message) :: rest =>
    List.replicate gap false ++ (onAir message ++ transmissions after rest)

/-- Where they begin, when the first gap begins at `base`. -/
def startsFrom : ℕ → List (ℕ × Message) → List (ℕ × Message)
  | _, [] => []
  | base, (gap, message) :: rest =>
    (base + gap, message) :: startsFrom (base + gap + frameSamples) rest

theorem startsFrom_map_snd (base : ℕ) (frames : List (ℕ × Message)) :
    (startsFrom base frames).map Prod.snd = frames.map Prod.snd := by
  induction frames generalizing base with
  | nil => rfl
  | cons frame rest ih => rw [startsFrom, List.map_cons, List.map_cons, ih]

theorem le_length_transmissions (after : ℕ) (frames : List (ℕ × Message)) :
    after ≤ (transmissions after frames).length := by
  induction frames with
  | nil => rw [transmissions, List.length_replicate]
  | cons frame rest ih =>
    rw [transmissions, List.length_append, List.length_append]
    omega

section Scan

variable {samples : List ℕ} {before : List Bool} {gap after : ℕ} {message : Message}
  {rest : List Bool}

theorem Renders.length_eq {pattern : List Bool} (h : Renders pattern samples) :
    samples.length = pattern.length := by
  rw [← h, List.length_map]

/-- The samples of a gap are silent. -/
theorem Renders.silent_gap (h : Renders (before ++ (List.replicate gap false ++ rest)) samples)
    {pos : ℕ} (hle : before.length ≤ pos) (hlt : pos < before.length + gap) :
    samples.getD pos 0 = 0 := by
  by_contra hne
  have hon := (h.energy pos).1 hne
  rw [List.getD_append_right _ _ _ _ hle,
    List.getD_append _ _ _ _ (by rw [List.length_replicate]; omega),
    List.getD_replicate _ (by omega)] at hon
  cases hon

/-- The samples behind a gap are the transmission. -/
theorem Renders.shows
    (h : Renders (before ++ (List.replicate gap false ++ (onAir message ++ rest))) samples) :
    Shows (fun i => samples.getD i 0) (before.length + gap) message := by
  intro i hi
  have hgap : (List.replicate gap false).length ≤ gap + i := by
    rw [List.length_replicate]
    exact Nat.le_add_right _ _
  rw [h.energy, Nat.add_assoc, List.getD_append_right _ _ _ _ (Nat.le_add_right _ _),
    Nat.add_sub_cancel_left, List.getD_append_right _ _ _ _ hgap, List.length_replicate,
    Nat.add_sub_cancel_left, List.getD_append _ _ _ _ (by rw [length_onAir]; exact hi)]

theorem framesIn_eq_none {pos : ℕ}
    (h : Frame.acceptAt (fun i => samples.getD i 0) samples.length pos = none) :
    framesIn samples pos = none := by
  rw [framesIn, jumping, h]
  rfl

theorem framesIn_of_silent {pos : ℕ} (h0 : samples.getD pos 0 = 0)
    (h1 : samples.getD (pos + 1) 0 = 0) : framesIn samples pos = none :=
  framesIn_eq_none (acceptAt_silent h0 h1)

/-- In front of a squitter the scan accepts nothing. -/
theorem Renders.none_in_gap
    (h : Renders (before ++ (List.replicate gap false ++ (onAir message ++ rest))) samples)
    (hsquitter : IsSquitter message) {pos : ℕ} (hle : before.length ≤ pos)
    (hlt : pos < before.length + gap) : framesIn samples pos = none := by
  by_cases hlast : pos + 1 = before.length + gap
  · have hshows := h.shows
    rw [← hlast] at hshows
    exact framesIn_eq_none (hshows.acceptAt_early hsquitter)
  · exact framesIn_of_silent (h.silent_gap hle hlt) (h.silent_gap (by omega) (by omega))

/-- It accepts the squitter, and goes on at the first sample behind it. -/
theorem Renders.accepted
    (h : Renders (before ++ (List.replicate gap false ++ (onAir message ++ rest))) samples)
    (hsquitter : IsSquitter message) :
    framesIn samples (before.length + gap) = some (message, frameSamples - 1) := by
  have hlen := h.length_eq
  rw [List.length_append, List.length_append, List.length_append, List.length_replicate,
    length_onAir] at hlen
  rw [framesIn, jumping, h.shows.acceptAt (by omega) hsquitter]
  rfl

/-- Behind the last transmission it accepts nothing. -/
theorem Renders.none_behind (h : Renders (before ++ List.replicate after false) samples) {pos : ℕ}
    (hle : before.length ≤ pos) (hlt : pos + 1 < samples.length) : framesIn samples pos = none := by
  have hlen := h.length_eq
  rw [List.length_append, List.length_replicate] at hlen
  rw [← List.append_nil (List.replicate after false)] at h
  exact framesIn_of_silent (h.silent_gap hle (by omega)) (h.silent_gap (by omega) (by omega))

/-- **The scan accepts every transmission where it begins, and nothing else.** -/
theorem Renders.hits_eq {frames : List (ℕ × Message)}
    (h : Renders (before ++ transmissions after frames) samples)
    (hsquitter : ∀ frame ∈ frames, IsSquitter frame.2) (hafter : frames ≠ [] → 0 < after) :
    Scan.hits (framesIn samples) (samples.length - frameSamples) before.length =
      startsFrom before.length frames := by
  have hframe : 1 < frameSamples := by decide
  induction frames generalizing before with
  | nil =>
    have hnone : ∀ pos, before.length ≤ pos → pos < samples.length →
        pos < samples.length - frameSamples → framesIn samples pos = none :=
      fun pos hle _ hlimit => h.none_behind hle (by omega)
    have hlen := h.length_eq
    rw [List.length_append] at hlen
    rw [Scan.hits_of_none (by omega) hnone, Scan.hits_of_le (by omega)]
    rfl
  | cons frame rest ih =>
    obtain ⟨gap, message⟩ := frame
    have hfirst := hsquitter (gap, message) List.mem_cons_self
    have hbehind := le_length_transmissions after rest
    have hsome := hafter (List.cons_ne_nil _ _)
    have hlen := h.length_eq
    rw [transmissions] at h hlen
    rw [List.length_append, List.length_append, List.length_append, List.length_replicate,
      length_onAir] at hlen
    -- the next gap begins behind the transmission
    have hrest : Renders (before ++ List.replicate gap false ++ onAir message ++
        transmissions after rest) samples := by
      rwa [List.append_assoc, List.append_assoc]
    have hnext : (before ++ List.replicate gap false ++ onAir message).length =
        before.length + gap + frameSamples := by
      rw [List.length_append, List.length_append, List.length_replicate, length_onAir]
    have ihrest := ih hrest (fun frame hmem => hsquitter frame (List.mem_cons_of_mem _ hmem))
      fun _ => hsome
    rw [hnext] at ihrest
    rw [startsFrom, Scan.hits_of_none (Nat.le_add_right _ gap) fun pos hle hlt _ =>
      h.none_in_gap hfirst hle hlt, Scan.hits_some (by omega) (h.accepted hfirst), ← ihrest]
    rfl

end Scan

section FreshCall

variable {frames : List (ℕ × Message)} {after : ℕ} {call : Call}

theorem hits_of_renders (h : Renders (transmissions after frames) (Iq.magnitudes Iq.power call.iq))
    (hsquitter : ∀ frame ∈ frames, IsSquitter frame.2) (hafter : frames ≠ [] → 0 < after) :
    Scan.hits (framesIn (Iq.magnitudes Iq.power call.iq)) (call.iq.length / 2 - frameSamples) 0 =
      startsFrom 0 frames := by
  have hfront : Renders ([] ++ transmissions after frames) (Iq.magnitudes Iq.power call.iq) := h
  rw [← Iq.length_magnitudes Iq.power call.iq]
  exact hfront.hits_eq hsquitter hafter

/-- On a fresh front end one call accepts the transmissions where they begin. -/
theorem acceptedFrames_of_renders {σ τ ω : Type} {grow : ℕ → List ℕ → List ℕ}
    {handle : Clock → Message → τ → τ × ω} {process : σ → Call → σ × List (AcceptedFrame ω)}
    {held : σ → Samples} {table : σ → τ} (hfe : IsFrontEnd grow handle process held table) {s : σ}
    (hs : Holds (held s) [])
    (h : Renders (transmissions after frames) (Iq.magnitudes Iq.power call.iq))
    (hsquitter : ∀ frame ∈ frames, IsSquitter frame.2) (hafter : frames ≠ [] → 0 < after) :
    FrontEnd.acceptedFrames process held s 0 [call] = startsFrom 0 frames := by
  rw [acceptedFrames_single hfe hs, hits_of_renders h hsquitter hafter]

theorem messages_eq_acceptedFrames {σ ω : Type} (process : σ → Call → σ × List (AcceptedFrame ω))
    (held : σ → Samples) (s : σ) (call : Call) :
    (process s call).2.map AcceptedFrame.message =
      (FrontEnd.acceptedFrames process held s 0 [call]).map Prod.snd := by
  simp only [FrontEnd.acceptedFrames, List.append_nil, List.map_map]
  rfl

/-- **Frames without noise are decoded once and in order**, by both decoders:
one call on a fresh decoder accepts the frames that were transmitted. -/
theorem cleanFrames_decoded (trig : Trig)
    (h : Renders (transmissions after frames) (Iq.magnitudes Iq.power call.iq))
    (hsquitter : ∀ frame ∈ frames, IsSquitter frame.2) (hafter : frames ≠ [] → 0 < after) :
    (Legacy.processIq trig {} call).2.map AcceptedFrame.message = frames.map Prod.snd ∧
      (Native.processFast trig {} call).2.map AcceptedFrame.message = frames.map Prod.snd := by
  refine ⟨?_, ?_⟩
  · rw [messages_eq_acceptedFrames _ Legacy.ReaderState.samples, acceptedFrames_of_renders
      (Legacy.processIq_isFrontEnd trig) Legacy.holds_fresh h hsquitter hafter, startsFrom_map_snd]
  · rw [messages_eq_acceptedFrames _ Native.DecoderState.samples, acceptedFrames_of_renders
      (Native.processFast_isFrontEnd trig) Native.holds_fresh h hsquitter hafter, startsFrom_map_snd]

end FreshCall

theorem renders_iqBytes (pattern : List Bool) :
    Renders pattern (Iq.magnitudes Iq.power (iqBytes pattern)) := by
  induction pattern with
  | nil => rfl
  | cons energy rest ih =>
    cases energy with
    | true => exact congrArg (List.cons true) ih
    | false => exact congrArg (List.cons false) ih

/-- What a fresh decoder is handed when the bytes of some transmissions arrive. -/
theorem messagesOf_transmissions {after : ℕ} {frames : List (ℕ × Message)} {iq : List UInt8}
    (hiq : iq = iqBytes (transmissions after frames)) (now : ℕ → Clock)
    (hsquitter : ∀ frame ∈ frames, IsSquitter frame.2) (hafter : frames ≠ [] → 0 < after) :
    messagesOf [] [⟨iq, now⟩] = stampHits now (startsFrom 0 frames) := by
  have hrenders : Renders (transmissions after frames) (Iq.magnitudes Iq.power iq) := by
    rw [hiq]
    exact renders_iqBytes _
  rw [messagesOf, messagesOf, List.append_nil, newMessages_first]
  exact congrArg (stampHits now) (@hits_of_renders _ _ ⟨iq, now⟩ hrenders hsquitter hafter)

theorem klm1023_isSquitter : IsSquitter klm1023 := ⟨.inl rfl, by decide⟩

/-- A transmission behind three silent samples, and another one right behind it. -/
def twoTransmissions : List (ℕ × Message) := [(3, klm1023), (0, klm1023)]

theorem twoTransmissions_decoded :
    (Legacy.processIq noTrig {} ⟨iqBytes (transmissions 1 twoTransmissions), firstSecond⟩).2.map
        AcceptedFrame.message = [klm1023, klm1023] ∧
      (Native.processFast noTrig {} ⟨iqBytes (transmissions 1 twoTransmissions), firstSecond⟩).2.map
        AcceptedFrame.message = [klm1023, klm1023] := by
  have hsquitter : ∀ frame ∈ twoTransmissions, IsSquitter frame.2 := by
    intro frame hmem
    rcases List.mem_pair.1 hmem with rfl | rfl
    · exact klm1023_isSquitter
    · exact klm1023_isSquitter
  exact @cleanFrames_decoded twoTransmissions 1
    ⟨iqBytes (transmissions 1 twoTransmissions), firstSecond⟩ noTrig (renders_iqBytes _) hsquitter
    fun _ => Nat.one_pos

end AdsbBridge
