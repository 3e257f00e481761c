import AdsbBridge.ReadsbChunks
import AdsbBridge.Legacy.Decoder
import AdsbBridge.Native.Library

/-! # Every sample is looked at

The tail that is saved between two calls is longer than what one decision
needs, so every position of the stream is decided about in a buffer that shows
enough of the stream behind it, whatever the chunks. -/
namespace AdsbBridge
open AdsbBridge.Lib AdsbBridge.Iq AdsbBridge.Frame

/-- A piece of the stream: `length` samples from `offset` on, and nothing behind
them. -/
def pieceOf (stream : List ℕ) (offset length i : ℕ) : ℕ :=
  if i < length then stream.getD (offset + i) 0 else 0

namespace FrontEnd

/-- What a call scans: a buffer, the place of its first sample in the stream,
and the frames that were accepted in it. -/
structure Scanned where
  offset : ℕ
  mag : List ℕ
  magLength : ℕ
  frames : List (ℕ × Message)

/-- What the scan accepts when the buffer reads `mag`. -/
def Scanned.hitsOf (b : Scanned) (mag : ℕ → ℕ) : List (ℕ × Message) :=
  Scan.hits (jumping (acceptAt mag b.magLength)) (b.magLength - preambleSamples - messageSamples) 0

/-- The positions at which `looks_like_preamble` is evaluated. -/
def Scanned.looked (b : Scanned) : List ℕ :=
  Scan.looked (jumping (acceptAt (fun i => b.mag.getD i 0) b.magLength))
    (b.magLength - preambleSamples - messageSamples) 0

/-- The buffer shows the samples of a frame that starts at `p`, and the scan
evaluates `looks_like_preamble` there or passes over it with a frame that it
accepted. -/
structure Scanned.Covers (stream : List ℕ) (p : ℕ) (b : Scanned) : Prop where
  inside : b.offset ≤ p ∧ p + frameSamples ≤ b.offset + b.magLength
  shown : ∀ i < frameSamples, b.mag.getD (p - b.offset + i) 0 = stream.getD (p + i) 0
  decided : p - b.offset ∈ b.looked ∨
    ∃ f ∈ b.frames, b.offset + f.1 < p ∧ p < b.offset + f.1 + frameSamples

/-- What the scan reads is the stream's: it looks at received samples only, and
what it accepts is what the stream's own samples make it accept. -/
structure Scanned.Genuine (stream : List ℕ) (b : Scanned) : Prop where
  received : b.offset + b.magLength ≤ stream.length
  shown : ∀ i < b.magLength, b.mag.getD i 0 = stream.getD (b.offset + i) 0
  inside : ∀ pos ∈ b.looked, pos + frameSamples ≤ b.magLength
  read : b.frames = b.hitsOf (pieceOf stream b.offset b.magLength)

/-- No position of the stream is skipped and no stale sample is read. -/
structure NoneSkipped (stream : List ℕ) (scans : List Scanned) : Prop where
  covered : ∀ p, p + frameSamples < stream.length → ∃ b ∈ scans, b.Covers stream p
  genuine : ∀ b ∈ scans, b.Genuine stream

section Buffer

variable {b : Scanned} {stream : List ℕ}

theorem frameSamples_eq : frameSamples = preambleSamples + messageSamples := rfl

/-- A scan of a buffer that shows the stream is a scan of the stream. -/
theorem Scanned.genuine (hframes : b.frames = b.hitsOf fun i => b.mag.getD i 0)
    (hreceived : b.offset + b.magLength ≤ stream.length)
    (hshown : ∀ i < b.magLength, b.mag.getD i 0 = stream.getD (b.offset + i) 0) :
    b.Genuine stream := by
  have hsum := frameSamples_eq
  refine ⟨hreceived, hshown, ?_, ?_⟩
  · intro pos hpos
    have hlimit := (Scan.mem_looked hpos).2
    omega
  · rw [hframes]
    refine Scan.hits_congr fun pos _ hpos => ?_
    rw [jumping, jumping]
    refine congrArg _ (acceptAt_congr (by omega) (by omega) fun i hi => ?_)
    have hlt : pos + i < b.magLength := by omega
    rw [pieceOf, if_pos hlt]
    exact hshown _ hlt

/-- Every position whose frame ends before the buffer does is decided about. -/
theorem Scanned.Genuine.covers (hgenuine : b.Genuine stream)
    (hframes : b.frames = b.hitsOf fun i => b.mag.getD i 0) {p : ℕ} (hlow : b.offset ≤ p)
    (hend : p + frameSamples < b.offset + b.magLength) : b.Covers stream p := by
  have hsum := frameSamples_eq
  refine ⟨⟨hlow, Nat.le_of_lt hend⟩, ?_, ?_⟩
  · intro i hi
    rw [hgenuine.shown _ (by omega)]
    congr 1
    omega
  · have hlimit : p - b.offset < b.magLength - preambleSamples - messageSamples := by omega
    rcases Scan.looked_or_passed (Nat.zero_le _) hlimit with
      hlooked | ⟨p', message, skip, hmem, hd, hbefore, hbehind⟩
    · exact .inl hlooked
    · obtain ⟨-, hskip⟩ := jumping_eq_some hd
      refine .inr ⟨(p', message), hframes ▸ hmem, ?_⟩
      simp only
      omega

end Buffer

section Run

variable {σ τ ω : Type} (grow : ℕ → List ℕ → List ℕ) {handle : Clock → Message → τ → τ × ω}
  (process : σ → Call → σ × List (AcceptedFrame ω)) (samples : σ → Samples) {table : σ → τ}

def bufferOf (held : Samples) (call : Call) : List ℕ :=
  overwrite (held.tail ++ (writeMagnitudes power held.pending call.iq).1)
    (grow (held.tail.length + pairCount held.pending call.iq) held.mag)

/-- What a call scans, `received` samples of the stream having come before. -/
def scanOf (s : σ) (received : ℕ) (call : Call) : Scanned where
  offset := received - (samples s).tail.length
  mag := bufferOf grow (samples s) call
  magLength := (samples s).tail.length + pairCount (samples s).pending call.iq
  frames := (process s call).2.map fun f => (f.pos, f.message)

/-- What the calls of a run scan; a call that completes no sample scans nothing. -/
def scanned : σ → ℕ → List Call → List Scanned
  | _, _, [] => []
  | s, received, call :: rest =>
    let pairs := pairCount (samples s).pending call.iq
    (if pairs = 0 then [] else [scanOf grow process samples s received call]) ++
      scanned (process s call).1 (received + pairs) rest

variable {grow process samples}

/-- The scan runs the body of its loop at the positions it looks at. -/
theorem scanBuffer_eq_looked (now : ℕ → Clock) (b : Scanned) (t : τ) :
    scanBuffer handle now b.mag b.magLength t =
      b.looked.foldl (fun s p => (acceptAt (fun i => b.mag.getD i 0) b.magLength p).elim s
        (handleFrame handle now s p)) (t, []) := by
  rw [Scanned.looked, scanBuffer, scanLoop_eq_looked _ _ _ _ _ _ (by omega)]

theorem scanBuffer_hits (now : ℕ → Clock) (mag : List ℕ) (magLength : ℕ) (t : τ) :
    (scanBuffer handle now mag magLength t).2.map (fun f => (f.pos, f.message)) =
      Scan.hits (jumping (acceptAt (fun i => mag.getD i 0) magLength))
        (magLength - preambleSamples - messageSamples) 0 := by
  rw [scanBuffer, scanLoop_eq _ _ _ _ _ _ (by omega), handleFrame_foldl, List.map_nil,
    List.nil_append]

theorem receive_scan {held : Samples} {call : Call} (h : pairCount held.pending call.iq ≠ 0) (t : τ) :
    (receive grow handle held t call).2 =
      scanBuffer handle call.now (bufferOf grow held call)
        (held.tail.length + pairCount held.pending call.iq) t := by
  simp only [receive, if_neg h, bufferOf]

/-- The frames a call accepts are the hits of its scan. -/
theorem scanOf_frames (hfe : IsFrontEnd grow handle process samples table) {s : σ} {call : Call}
    (hnew : pairCount (samples s).pending call.iq ≠ 0) (received : ℕ) :
    (scanOf grow process samples s received call).frames =
      (scanOf grow process samples s received call).hitsOf
        fun i => (bufferOf grow (samples s) call).getD i 0 := by
  rw [scanOf, hfe.frames_process, receive_scan hnew, scanBuffer_hits]
  rfl

/-- The buffer shows the stream. -/
theorem bufferOf_getD {held : Samples} {before : List UInt8} (h : Holds held before) {call : Call}
    (hnew : pairCount held.pending call.iq ≠ 0) (after : List UInt8) {i : ℕ}
    (hi : i < held.tail.length + pairCount held.pending call.iq) :
    (bufferOf grow held call).getD i 0 =
      (magnitudes power (before ++ call.iq ++ after)).getD
        (before.length / 2 - held.tail.length + i) 0 := by
  have hbase : before.length / 2 - held.tail.length =
      (magnitudes power before).length - magTailSize := by
    rw [h.tail_length, length_magnitudes]
    omega
  have hstream := magnitudes_append power (before ++ call.iq) after
  rw [magnitudes_append power before call.iq, ← h.1] at hstream
  rw [front_length power] at hi
  rw [bufferOf, writeMagnitudes_eq power (Nat.pos_of_ne_zero hnew), overwrite_getD hi, hbase,
    hstream]
  rw [h.2] at hi ⊢
  exact lastOf_append_getD magTailSize _ _ _ hi

/-- **One call**: it scans received samples only, and decides about every
position whose frame it completes. -/
theorem scanOf_spec (hfe : IsFrontEnd grow handle process samples table) {s : σ}
    {before : List UInt8} (h : Holds (samples s) before) {call : Call}
    (hnew : pairCount (samples s).pending call.iq ≠ 0) (after : List UInt8) :
    (scanOf grow process samples s (before.length / 2) call).Genuine
        (magnitudes power (before ++ call.iq ++ after)) ∧
      ∀ p, before.length / 2 ≤ p + frameSamples →
        p + frameSamples < (before.length + call.iq.length) / 2 →
        (scanOf grow process samples s (before.length / 2) call).Covers
          (magnitudes power (before ++ call.iq ++ after)) p := by
  have hcount := pairCount_leftover before call.iq
  rw [← h.1] at hcount
  have htail := h.tail_length
  have hkeep : frameSamples ≤ magTailSize := by decide
  have hframes := scanOf_frames hfe hnew (before.length / 2)
  have hgenuine : (scanOf grow process samples s (before.length / 2) call).Genuine
      (magnitudes power (before ++ call.iq ++ after)) := by
    refine Scanned.genuine hframes ?_ fun i hi => bufferOf_getD h hnew after hi
    rw [length_magnitudes, List.length_append, List.length_append]
    simp only [scanOf]
    omega
  refine ⟨hgenuine, fun p hge hlt => hgenuine.covers hframes ?_ ?_⟩
  · simp only [scanOf]
    omega
  · simp only [scanOf]
    omega

/-- **A run**: what comes after `before` is decided about, from the positions on
whose frames were not complete. -/
theorem scanned_spec (hfe : IsFrontEnd grow handle process samples table) (calls : List Call)
    {s : σ} {before : List UInt8} (h : Holds (samples s) before) :
    (∀ b ∈ scanned grow process samples s (before.length / 2) calls,
        b.Genuine (magnitudes power (before ++ streamOf calls))) ∧
      ∀ p, before.length / 2 ≤ p + frameSamples →
        p + frameSamples < (before.length + (streamOf calls).length) / 2 →
        ∃ b ∈ scanned grow process samples s (before.length / 2) calls,
          b.Covers (magnitudes power (before ++ streamOf calls)) p := by
  induction calls generalizing s before with
  | nil =>
    refine ⟨fun b hb => absurd hb List.not_mem_nil, fun p hge hlt => ?_⟩
    rw [streamOf, List.flatMap_nil, List.length_nil] at hlt
    omega
  | cons call rest ih =>
    have h' : Holds (samples (process s call).1) (before ++ call.iq) := by
      rw [hfe.samples_process]
      exact h.receive (table s) call
    obtain ⟨hgenuine, hcovers⟩ := ih h'
    have hcount := pairCount_leftover before call.iq
    rw [← h.1] at hcount
    have hstream : before ++ streamOf (call :: rest) = before ++ call.iq ++ streamOf rest := by
      simp [streamOf]
    have hlength : before.length + (streamOf (call :: rest)).length =
        before.length + call.iq.length + (streamOf rest).length := by
      simp [streamOf, Nat.add_assoc]
    rw [List.length_append] at hgenuine hcovers
    rw [scanned, hstream, hlength, hcount]
    by_cases hnew : pairCount (samples s).pending call.iq = 0
    · rw [if_pos hnew, List.nil_append]
      exact ⟨hgenuine, fun p hge hlt => hcovers p (by omega) hlt⟩
    · obtain ⟨hfirst, hnow⟩ := scanOf_spec hfe h hnew (streamOf rest)
      rw [if_neg hnew, List.singleton_append]
      refine ⟨List.forall_mem_cons.2 ⟨hfirst, hgenuine⟩, fun p hge hlt => ?_⟩
      rcases Nat.lt_or_ge (p + frameSamples) ((before.length + call.iq.length) / 2) with hin | hout
      · exact ⟨_, List.mem_cons_self, hnow p hge hin⟩
      · obtain ⟨b, hb, hcover⟩ := hcovers p hout hlt
        exact ⟨b, List.mem_cons_of_mem _ hb, hcover⟩

theorem noneSkipped (hfe : IsFrontEnd grow handle process samples table) (calls : List Call)
    {s : σ} (h : Holds (samples s) []) :
    NoneSkipped (magnitudes power (streamOf calls)) (scanned grow process samples s 0 calls) := by
  obtain ⟨hgenuine, hcovers⟩ := scanned_spec hfe calls h
  refine ⟨fun p hp => hcovers p (Nat.zero_le _) ?_, hgenuine⟩
  rwa [length_magnitudes, ← Nat.zero_add (streamOf calls).length] at hp

end Run

end FrontEnd

namespace Native
open AdsbBridge.Readsb AdsbBridge.ReadsbChunks

/-- What a READSB_CORE call passes to the demodulator: a buffer, the place of
its first sample in the stream, and `length`. -/
structure Passed where
  offset : ℕ
  mag : List ℕ
  length : ℕ

/-- The 512 samples from `p` on lie within `length`. -/
structure Passed.Contains (stream : List ℕ) (p : ℕ) (b : Passed) : Prop where
  inside : b.offset ≤ p ∧ p + windowSize ≤ b.offset + b.length
  shown : ∀ i < windowSize, b.mag.getD (p - b.offset + i) 0 = stream.getD (p + i) 0

/-- The buffer holds received samples and the padding, and the demodulator
reads nothing else of it. -/
structure Passed.Genuine (stream : List ℕ) (b : Passed) : Prop where
  received : b.offset + b.length ≤ stream.length
  shown : ∀ i < b.length + readsbMagPadding,
    b.mag.getD i 0 = pieceOf stream b.offset b.length i
  read : ∀ env adapter,
    readsbBridgeDemodulate2400 env sliceAt adapter (fun i => b.mag.getD i 0) b.length =
      readsbBridgeDemodulate2400 env sliceAt adapter (pieceOf stream b.offset b.length) b.length

/-- No stretch of 512 samples is withheld and no stale sample is read. -/
structure NoneWithheld (stream : List ℕ) (passed : List Passed) : Prop where
  contained : ∀ p, p + windowSize ≤ stream.length → ∃ b ∈ passed, b.Contains stream p
  genuine : ∀ b ∈ passed, b.Genuine stream

/-- What a call passes, `received` samples of the stream having come before. -/
def passedOf (decoder : DecoderState) (received : ℕ) (call : Call) : Passed where
  offset := received - decoder.readsbTail.length
  mag := readsbBuffer decoder call
  length := decoder.readsbTail.length + pairCount decoder.pendingIqByte call.iq

/-- What the calls of a run pass, each with the clock reading it takes; a call
that completes no sample passes nothing. -/
def passed {ρ : Type} (demodulate : Demodulator ρ) :
    ρ → DecoderState → ℕ → List (Call × ℤ) → List Passed
  | _, _, _, [] => []
  | readsb, decoder, received, (call, sysTime) :: rest =>
    let pairs := pairCount decoder.pendingIqByte call.iq
    let (readsb, decoder', _) := processReadsbDemodulator demodulate sysTime readsb decoder call
    (if pairs = 0 then [] else [passedOf decoder received call]) ++
      passed demodulate readsb decoder' (received + pairs) rest

/-- The demodulator reads `length` samples and the padding. -/
theorem readsbBridgeDemodulate2400_congr {mag mag' : ℕ → ℕ} {length : ℕ}
    (h : ∀ i < length + readsbMagPadding, mag i = mag' i) (env : Env) (adapter : Adapter) :
    readsbBridgeDemodulate2400 env sliceAt adapter mag length =
      readsbBridgeDemodulate2400 env sliceAt adapter mag' length := by
  have hpad : readsbMagPadding = 512 := rfl
  simp only [readsbBridgeDemodulate2400]
  rw [demodulate2400_congr fun pa hpa => sliceAt_congr fun i hi => h _ (by omega)]

/-- The buffer shows the stream, and silence behind it. -/
theorem readsbBuffer_getD {decoder : DecoderState} {before : List UInt8}
    (h : ReadsbChunks.Holds decoder before) {call : Call}
    (hnew : pairCount decoder.pendingIqByte call.iq ≠ 0) (after : List UInt8) {i : ℕ}
    (hi : i < decoder.readsbTail.length + pairCount decoder.pendingIqByte call.iq +
      readsbMagPadding) :
    (readsbBuffer decoder call).getD i 0 =
      pieceOf (magnitudes readsbMagnitude (before ++ call.iq ++ after))
        (before.length / 2 - decoder.readsbTail.length)
        (decoder.readsbTail.length + pairCount decoder.pendingIqByte call.iq) i := by
  have hmags := magnitudes_append readsbMagnitude before call.iq
  have hstream := magnitudes_append readsbMagnitude (before ++ call.iq) after
  have hcount := pairCount_leftover before call.iq
  rw [← h.1] at hmags hcount
  have htail := h.tail_length
  rw [front_length readsbMagnitude, h.2] at hi
  have hpadded := padded_getD _ _ (magnitudes readsbMagnitude
    ((Pairs.leftover (before ++ call.iq)).toList ++ after)) decoder.readsbMag hi
  rw [← h.2, ← hmags, ← hstream, length_magnitudes, length_magnitudes, List.length_append] at hpadded
  rw [readsbBuffer, writeMagnitudes_eq readsbMagnitude (Nat.pos_of_ne_zero hnew), pieceOf]
  refine hpadded.trans ?_
  have hoffset : before.length / 2 - readsbMagTailSize =
      before.length / 2 - decoder.readsbTail.length := by omega
  rw [cutAt, hoffset]
  exact if_congr (by omega) rfl rfl

/-- **One call**: it passes received samples and the padding, and every stretch
of 512 samples that it completes. -/
theorem passedOf_spec {decoder : DecoderState} {before : List UInt8}
    (h : ReadsbChunks.Holds decoder before) {call : Call}
    (hnew : pairCount decoder.pendingIqByte call.iq ≠ 0) (after : List UInt8) :
    (passedOf decoder (before.length / 2) call).Genuine
        (magnitudes readsbMagnitude (before ++ call.iq ++ after)) ∧
      ∀ p, before.length / 2 < p + windowSize →
        p + windowSize ≤ (before.length + call.iq.length) / 2 →
        (passedOf decoder (before.length / 2) call).Contains
          (magnitudes readsbMagnitude (before ++ call.iq ++ after)) p := by
  have hcount := pairCount_leftover before call.iq
  rw [← h.1] at hcount
  have htail := h.tail_length
  have hkeep : readsbMagTailSize = windowSize := rfl
  have hgenuine : (passedOf decoder (before.length / 2) call).Genuine
      (magnitudes readsbMagnitude (before ++ call.iq ++ after)) := by
    have hshown := fun i hi => readsbBuffer_getD h hnew after (i := i) hi
    refine ⟨?_, hshown, readsbBridgeDemodulate2400_congr hshown⟩
    rw [length_magnitudes, List.length_append, List.length_append]
    simp only [passedOf]
    omega
  refine ⟨hgenuine, fun p hge hle => ⟨⟨?_, ?_⟩, fun i hi => ?_⟩⟩
  · simp only [passedOf]
    omega
  · simp only [passedOf]
    omega
  · have hlt : p - (before.length / 2 - decoder.readsbTail.length) + i <
        decoder.readsbTail.length + pairCount decoder.pendingIqByte call.iq := by omega
    refine (hgenuine.shown _ (Nat.lt_add_right _ hlt)).trans ((if_pos hlt).trans ?_)
    simp only [passedOf]
    congr 1
    omega

/-- **A run**: what comes after `before` is passed, from the stretches on that
were not complete. -/
theorem passed_spec {ρ : Type} (demodulate : Demodulator ρ) (calls : List (Call × ℤ)) {readsb : ρ}
    {decoder : DecoderState} {before : List UInt8} (h : ReadsbChunks.Holds decoder before) :
    (∀ b ∈ passed demodulate readsb decoder (before.length / 2) calls, b.Genuine
        (magnitudes readsbMagnitude (before ++ FrontEnd.streamOf (calls.map Prod.fst)))) ∧
      ∀ p, before.length / 2 < p + windowSize →
        p + windowSize ≤ (before.length + (FrontEnd.streamOf (calls.map Prod.fst)).length) / 2 →
        ∃ b ∈ passed demodulate readsb decoder (before.length / 2) calls, b.Contains
          (magnitudes readsbMagnitude (before ++ FrontEnd.streamOf (calls.map Prod.fst))) p := by
  induction calls generalizing readsb decoder before with
  | nil =>
    refine ⟨fun b hb => absurd hb List.not_mem_nil, fun p hge hle => ?_⟩
    rw [List.map_nil, FrontEnd.streamOf, List.flatMap_nil, List.length_nil] at hle
    omega
  | cons timed rest ih =>
    obtain ⟨call, sysTime⟩ := timed
    obtain ⟨hgenuine, hcontains⟩ := @ih
      (processReadsbDemodulator demodulate sysTime readsb decoder call).1 _ _
      (h.process demodulate sysTime readsb call)
    have hcount := pairCount_leftover before call.iq
    rw [← h.1] at hcount
    have hstream : before ++ FrontEnd.streamOf (((call, sysTime) :: rest).map Prod.fst) =
        before ++ call.iq ++ FrontEnd.streamOf (rest.map Prod.fst) := by
      simp [FrontEnd.streamOf]
    have hlength : before.length +
          (FrontEnd.streamOf (((call, sysTime) :: rest).map Prod.fst)).length =
        before.length + call.iq.length + (FrontEnd.streamOf (rest.map Prod.fst)).length := by
      simp [FrontEnd.streamOf, Nat.add_assoc]
    rw [List.length_append] at hgenuine hcontains
    rw [passed, hstream, hlength]
    simp only
    rw [hcount]
    by_cases hnew : pairCount decoder.pendingIqByte call.iq = 0
    · rw [if_pos hnew, List.nil_append]
      exact ⟨hgenuine, fun p hge hle => hcontains p (by omega) hle⟩
    · obtain ⟨hfirst, hnow⟩ := passedOf_spec h hnew (FrontEnd.streamOf (rest.map Prod.fst))
      rw [if_neg hnew, List.singleton_append]
      refine ⟨List.forall_mem_cons.2 ⟨hfirst, hgenuine⟩, fun p hge hle => ?_⟩
      rcases Nat.lt_or_ge ((before.length + call.iq.length) / 2) (p + windowSize) with hout | hin
      · obtain ⟨b, hb, hcontain⟩ := hcontains p hout hle
        exact ⟨b, List.mem_cons_of_mem _ hb, hcontain⟩
      · exact ⟨_, List.mem_cons_self, hnow p hge hin⟩

theorem noneWithheld {ρ : Type} (demodulate : Demodulator ρ) (readsb : ρ)
    (calls : List (Call × ℤ)) :
    NoneWithheld (samplesOf (calls.map Prod.fst)) (passed demodulate readsb {} 0 calls) := by
  have hfresh : ReadsbChunks.Holds {} [] := ⟨rfl, rfl⟩
  obtain ⟨hgenuine, hcontains⟩ := passed_spec demodulate calls hfresh
  have hpositive : 0 < windowSize := by decide
  refine ⟨fun p hp => hcontains p (by simp only [List.length_nil]; omega) ?_, hgenuine⟩
  rwa [samplesOf, length_magnitudes, ← Nat.zero_add (FrontEnd.streamOf _).length] at hp

end Native

def Legacy.scanned (trig : Fields.Trig) (calls : List Call) : List FrontEnd.Scanned :=
  FrontEnd.scanned ensureMagnitudeCapacity (processIq trig) ReaderState.samples {} 0 calls

def Native.scanned (trig : Fields.Trig) (calls : List Call) : List FrontEnd.Scanned :=
  FrontEnd.scanned resizeMag (processFast trig) DecoderState.samples {} 0 calls

/-- **No sample is skipped**, whatever the chunks: the two scans decide about
every position, and the demodulator gets every 512 samples in one buffer. -/
theorem no_sample_skipped (trig : Fields.Trig) (calls : List Call) {ρ : Type}
    (demodulate : Native.Demodulator ρ) (readsb : ρ) (timed : List (Call × ℤ)) :
    FrontEnd.NoneSkipped (magnitudes power (FrontEnd.streamOf calls)) (Legacy.scanned trig calls) ∧
      FrontEnd.NoneSkipped (magnitudes power (FrontEnd.streamOf calls))
        (Native.scanned trig calls) ∧
      Native.NoneWithheld (ReadsbChunks.samplesOf (timed.map Prod.fst))
        (Native.passed demodulate readsb {} 0 timed) :=
  ⟨FrontEnd.noneSkipped (Legacy.processIq_isFrontEnd trig) calls ⟨rfl, rfl⟩,
    FrontEnd.noneSkipped (Native.processFast_isFrontEnd trig) calls ⟨rfl, rfl⟩,
    Native.noneWithheld demodulate readsb timed⟩

end AdsbBridge
