import AdsbBridge.Frame
import AdsbBridge.Iq

/-! # Scanning a stream call by call

The legacy and the native-fast decoder run the same front end: each call
appends its magnitudes to the last 256 of the stream, scans that buffer for
frames and saves the last 256 again. `IsFrontEnd` says what one call does;
from it follows, for a whole run, which frames are accepted and where, and
exactly when cutting the stream differently would have changed them. -/
namespace AdsbBridge
open AdsbBridge.Lib AdsbBridge.Iq AdsbBridge.Frame

/-- The clock readings while one frame is handled: the one the handler takes,
and the one the line writer takes when that is not positive. -/
structure Clock where
  handled : ℤ
  printed : ℤ

/-- One call: the bytes, and the clock readings for the frames it accepts. -/
structure Call where
  iq : List UInt8
  now : ℕ → Clock

/-- A frame the scan accepted, where it starts in the buffer, and what handling
it produced. -/
structure AcceptedFrame (ω : Type) where
  pos : ℕ
  message : Message
  line : ω

/-- The samples saved between two calls: `MAG_TAIL_SIZE`. -/
def magTailSize : ℕ := 256

namespace FrontEnd

section Buffer

variable {τ ω : Type} (handle : Clock → Message → τ → τ × ω) (now : ℕ → Clock)

def handleFrame (s : τ × List (AcceptedFrame ω)) (pos : ℕ) (message : Message) :
    τ × List (AcceptedFrame ω) :=
  let (table, line) := handle (now s.2.length) message s.1
  (table, s.2 ++ [⟨pos, message, line⟩])

def scanBuffer (mag : List ℕ) (magLength : ℕ) (table : τ) : τ × List (AcceptedFrame ω) :=
  let scanLimit := magLength - preambleSamples - messageSamples
  scanLoop (acceptAt (fun i => mag.getD i 0) magLength) (handleFrame handle now) scanLimit
    scanLimit 0 (table, [])

theorem handleFrame_foldl (hits : List (ℕ × Message)) (s : τ × List (AcceptedFrame ω)) :
    (hits.foldl (fun s hit => handleFrame handle now s hit.1 hit.2) s).2.map
        (fun f => (f.pos, f.message)) =
      s.2.map (fun f => (f.pos, f.message)) ++ hits := by
  induction hits generalizing s with
  | nil => simp
  | cons hit rest ih =>
    rw [List.foldl_cons, ih]
    simp [handleFrame]

/-- The frames accepted in a list of samples, with their positions. -/
def framesIn (samples : List ℕ) (pos : ℕ) : Option (Message × ℕ) :=
  jumping (acceptAt (fun i => samples.getD i 0) samples.length) pos

theorem framesIn_congr {samples samples' : List ℕ} {base pos : ℕ}
    (hl : pos + frameSamples ≤ samples.length)
    (hl' : base + pos + frameSamples ≤ samples'.length)
    (h : ∀ i < frameSamples, samples.getD (pos + i) 0 = samples'.getD (base + pos + i) 0) :
    framesIn samples pos = framesIn samples' (base + pos) := by
  rw [framesIn, framesIn, jumping, jumping]
  exact congrArg _ (acceptAt_congr hl hl' h)

/-- What a scan accepts in a buffer depends on its front alone. -/
theorem scanBuffer_eq (front rest : List ℕ) (table : τ) :
    scanBuffer handle now (overwrite front rest) front.length table =
      (Scan.hits (framesIn front) (front.length - frameSamples) 0).foldl
        (fun s hit => handleFrame handle now s hit.1 hit.2) (table, []) := by
  have hf : frameSamples = preambleSamples + messageSamples := rfl
  rw [scanBuffer, scanLoop_eq _ _ _ _ _ _ (by omega), Nat.sub_sub, ← hf]
  refine congrArg (List.foldl _ _) (Scan.hits_congr fun p _ hp => ?_)
  rw [framesIn, jumping, jumping]
  refine congrArg _ (acceptAt_congr (by omega) (by omega) fun i hi => ?_)
  exact overwrite_getD (by omega)

theorem scanBuffer_frames (front rest : List ℕ) (table : τ) :
    (scanBuffer handle now (overwrite front rest) front.length table).2.map
        (fun f => (f.pos, f.message)) =
      Scan.hits (framesIn front) (front.length - frameSamples) 0 := by
  rw [scanBuffer_eq, handleFrame_foldl, List.map_nil, List.nil_append]

/-- The scan of a buffer, at the positions of the stream it is a piece of. -/
theorem hits_front (before new after : List ℕ) :
    (Scan.hits (framesIn (lastOf magTailSize before ++ new))
        ((lastOf magTailSize before ++ new).length - frameSamples) 0).map
        (fun h => (before.length - magTailSize + h.1, h.2)) =
      Scan.hits (framesIn (before ++ new ++ after)) ((before ++ new).length - frameSamples)
        (before.length - magTailSize) := by
  have htf : frameSamples ≤ magTailSize := by decide
  have hfront : (lastOf magTailSize before ++ new).length =
      min magTailSize before.length + new.length := by
    rw [List.length_append, length_lastOf]
  have hstream : (before ++ new ++ after).length = before.length + new.length + after.length := by
    simp only [List.length_append]
  have hcongr : Scan.hits (framesIn (lastOf magTailSize before ++ new))
        ((lastOf magTailSize before ++ new).length - frameSamples) 0 =
      Scan.hits (fun p => framesIn (before ++ new ++ after) (before.length - magTailSize + p))
        ((lastOf magTailSize before ++ new).length - frameSamples) 0 := by
    refine Scan.hits_congr fun p _ hp => framesIn_congr (by omega) (by omega) fun i hi => ?_
    rw [lastOf_append_getD magTailSize before new after (by omega), Nat.add_assoc]
  rw [hcongr, Scan.hits_shift, hfront, List.length_append,
    show before.length - magTailSize + (min magTailSize before.length + new.length - frameSamples) =
      before.length + new.length - frameSamples by omega, Nat.add_zero]

end Buffer

/-! ## One call -/

variable {σ τ ω : Type}

/-- What lives from call to call: the valid part of the tail, the magnitude
buffer and the byte without a partner. -/
structure Samples where
  tail : List ℕ := []
  mag : List ℕ := []
  pending : Option UInt8 := none

/-- The body of `processIq` and of the native-fast branch of `nativeProcessIq`;
`grow` is how the buffer is made long enough. -/
def receive (grow : ℕ → List ℕ → List ℕ) (handle : Clock → Message → τ → τ × ω)
    (samples : Samples) (table : τ) (call : Call) : Samples × τ × List (AcceptedFrame ω) :=
  let pairs := pairCount samples.pending call.iq
  if pairs = 0 then
    ({ samples with pending := holdByte samples.pending call.iq }, table, [])
  else
    let magLength := samples.tail.length + pairs
    let (mags, pending) := writeMagnitudes power samples.pending call.iq
    let mag := overwrite (samples.tail ++ mags) (grow magLength samples.mag)
    let (table, frames) := scanBuffer handle call.now mag magLength table
    (⟨saveTail magTailSize mag magLength, mag, pending⟩, table, frames)

section Receive

variable (grow : ℕ → List ℕ → List ℕ) (handle : Clock → Message → τ → τ × ω)

theorem receive_pending (samples : Samples) (table : τ) (call : Call) :
    (receive grow handle samples table call).1.pending =
      Lib.Pairs.leftover (samples.pending.toList ++ call.iq) := by
  unfold receive
  by_cases h : pairCount samples.pending call.iq = 0
  · rw [if_pos h]
    exact (holdByte_eq h).1
  · simp only [if_neg h, writeMagnitudes_eq power (Nat.pos_of_ne_zero h)]

theorem receive_tail {samples : Samples} (hlen : samples.tail.length ≤ magTailSize) (table : τ)
    (call : Call) :
    (receive grow handle samples table call).1.tail =
      lastOf magTailSize (samples.tail ++ magnitudes power (samples.pending.toList ++ call.iq)) := by
  unfold receive
  by_cases h : pairCount samples.pending call.iq = 0
  · rw [if_pos h, (holdByte_eq h).2, List.append_nil, lastOf, Nat.sub_eq_zero_of_le hlen,
      List.drop_zero]
  · simp only [if_neg h, writeMagnitudes_eq power (Nat.pos_of_ne_zero h)]
    rw [front_length, overwrite, saveTail_append]

theorem receive_none {samples : Samples} {call : Call} (h : pairCount samples.pending call.iq = 0)
    (table : τ) : (receive grow handle samples table call).2 = (table, []) := by
  rw [receive, if_pos h]

theorem receive_frames {samples : Samples} {call : Call}
    (h : 0 < pairCount samples.pending call.iq) (table : τ) :
    (receive grow handle samples table call).2.2.map (fun f => (f.pos, f.message)) =
      Scan.hits (framesIn (samples.tail ++ magnitudes power (samples.pending.toList ++ call.iq)))
        ((samples.tail ++ magnitudes power (samples.pending.toList ++ call.iq)).length -
          frameSamples) 0 := by
  simp only [receive, if_neg (Nat.pos_iff_ne_zero.mp h), writeMagnitudes_eq power h]
  rw [front_length, scanBuffer_frames]

end Receive

/-! ## Runs -/

/-- A decoder whose calls are `receive` on the samples and the table it holds. -/
structure IsFrontEnd (grow : ℕ → List ℕ → List ℕ) (handle : Clock → Message → τ → τ × ω)
    (process : σ → Call → σ × List (AcceptedFrame ω)) (samples : σ → Samples) (table : σ → τ) :
    Prop where
  samples_process : ∀ s call,
    samples (process s call).1 = (receive grow handle (samples s) (table s) call).1
  table_process : ∀ s call,
    table (process s call).1 = (receive grow handle (samples s) (table s) call).2.1
  frames_process : ∀ s call,
    (process s call).2 = (receive grow handle (samples s) (table s) call).2.2

section Run

variable {grow : ℕ → List ℕ → List ℕ} {handle : Clock → Message → τ → τ × ω}
  (process : σ → Call → σ × List (AcceptedFrame ω)) (samples : σ → Samples) {table : σ → τ}

/-- The accepted frames of a run with their positions in the stream; `received`
samples of the stream came before. -/
def acceptedFrames : σ → ℕ → List Call → List (ℕ × Message)
  | _, _, [] => []
  | s, received, call :: rest =>
    let (s', frames) := process s call
    frames.map (fun f => (received - (samples s).tail.length + f.pos, f.message)) ++
      acceptedFrames s' (received + pairCount (samples s).pending call.iq) rest

def streamOf (calls : List Call) : List UInt8 := calls.flatMap Call.iq

/-- The numbers of samples of the calls that complete any, `bytes` having been
received before. -/
def newSamples : ℕ → List Call → List ℕ
  | _, [] => []
  | bytes, call :: rest =>
    let new := (bytes + call.iq.length) / 2 - bytes / 2
    if new = 0 then newSamples (bytes + call.iq.length) rest
    else new :: newSamples (bytes + call.iq.length) rest

/-- The samples held are those the bytes received so far leave behind. -/
def Holds (held : Samples) (bytes : List UInt8) : Prop :=
  held.pending = Lib.Pairs.leftover bytes ∧
    held.tail = lastOf magTailSize (magnitudes power bytes)

theorem Holds.tail_length {held : Samples} {bytes : List UInt8} (h : Holds held bytes) :
    held.tail.length = min magTailSize (bytes.length / 2) := by
  rw [h.2, length_lastOf, length_magnitudes]

theorem Holds.receive {held : Samples} {bytes : List UInt8} (h : Holds held bytes) (t : τ)
    (call : Call) : Holds (receive grow handle held t call).1 (bytes ++ call.iq) := by
  constructor
  · rw [receive_pending, h.1, ← Lib.Pairs.leftover_append]
  · have hlen : held.tail.length ≤ magTailSize := by rw [h.tail_length]; omega
    rw [receive_tail grow handle hlen, h.2, lastOf_append_lastOf, h.1, ← magnitudes_append]

variable {process samples}

/-- The frames a call accepts, at their positions in the stream. -/
theorem frames_in_stream (hfe : IsFrontEnd grow handle process samples table) {s : σ}
    {before : List UInt8} (h : Holds (samples s) before) (call : Call) (after : List UInt8)
    (hnew : 0 < pairCount (samples s).pending call.iq) :
    (process s call).2.map
        (fun f => (before.length / 2 - (samples s).tail.length + f.pos, f.message)) =
      Scan.hits (framesIn (magnitudes power (before ++ call.iq ++ after)))
        ((before.length + call.iq.length) / 2 - frameSamples) (before.length / 2 - magTailSize) := by
  have hfront := hits_front (magnitudes power before)
    (magnitudes power ((samples s).pending.toList ++ call.iq))
    (magnitudes power ((Lib.Pairs.leftover (before ++ call.iq)).toList ++ after))
  rw [h.1, ← magnitudes_append, ← magnitudes_append, length_magnitudes, length_magnitudes,
    ← h.2, ← h.1] at hfront
  have hbase : before.length / 2 - (samples s).tail.length = before.length / 2 - magTailSize := by
    rw [h.tail_length]; omega
  rw [← List.length_append, ← hfront, ← receive_frames grow handle hnew (table s), ← hfe.frames_process, List.map_map,
    hbase]
  rfl

/-- **A run accepts what scanning the stream in pieces accepts.** -/
theorem acceptedFrames_eq_pieces (hfe : IsFrontEnd grow handle process samples table)
    (calls : List Call) {s : σ} {before : List UInt8} (h : Holds (samples s) before) :
    acceptedFrames process samples s (before.length / 2) calls =
      Scan.pieces (framesIn (magnitudes power (before ++ streamOf calls))) frameSamples
        magTailSize (before.length / 2) (newSamples before.length calls) := by
  induction calls generalizing s before with
  | nil => rfl
  | cons call rest ih =>
    have h' : Holds (samples (process s call).1) (before ++ call.iq) := by
      rw [hfe.samples_process]
      exact h.receive (table s) call
    have hrest := ih h'
    have hcount := pairCount_leftover before call.iq
    rw [← h.1] at hcount
    have hstream : before ++ streamOf (call :: rest) = before ++ call.iq ++ streamOf rest := by
      simp [streamOf]
    rw [List.length_append] at hrest
    rw [acceptedFrames, hstream, newSamples]
    simp only
    rw [hcount, hrest]
    by_cases hnew : pairCount (samples s).pending call.iq = 0
    · have hnone : (process s call).2 = [] := by
        rw [hfe.frames_process, receive_none grow handle hnew]
      rw [hnone, if_pos (by omega),
        show (before.length + call.iq.length) / 2 = before.length / 2 by omega]
      rfl
    · rw [if_neg (by omega), Scan.pieces, show before.length / 2 +
        ((before.length + call.iq.length) / 2 - before.length / 2) =
          (before.length + call.iq.length) / 2 by omega,
        frames_in_stream hfe h call (streamOf rest) (by omega)]

/-- No cut disturbs the scan: when `bytes` bytes have been received and a call
completes further samples, none of the positions that the call looks at again,
and that the uncut scan has passed already, is acceptable. -/
def Undisturbed (stream : List ℕ) : ℕ → List Call → Prop
  | _, [] => True
  | bytes, call :: rest =>
    (bytes / 2 < (bytes + call.iq.length) / 2 →
      ∀ q, bytes / 2 - magTailSize ≤ q →
        q < Scan.standing (framesIn stream) frameSamples (bytes / 2) →
        q + frameSamples < (bytes + call.iq.length) / 2 →
        acceptAt (fun i => stream.getD i 0) stream.length q = none) ∧
    Undisturbed stream (bytes + call.iq.length) rest

theorem undisturbed_iff_clean (stream : List ℕ) (bytes : ℕ) (calls : List Call) :
    Undisturbed stream bytes calls ↔
      Scan.Clean (framesIn stream) frameSamples magTailSize (bytes / 2) (newSamples bytes calls) := by
  induction calls generalizing bytes with
  | nil => exact Iff.rfl
  | cons call rest ih =>
    rw [Undisturbed, newSamples, ih]
    by_cases hnew : (bytes + call.iq.length) / 2 - bytes / 2 = 0
    · rw [if_pos hnew, show bytes / 2 = (bytes + call.iq.length) / 2 by omega]
      simp
    · rw [if_neg hnew, Scan.Clean, Scan.CleanPiece, show bytes / 2 +
        ((bytes + call.iq.length) / 2 - bytes / 2) = (bytes + call.iq.length) / 2 by omega]
      refine and_congr_left fun _ => ?_
      constructor
      · intro h q hq hs hl
        rw [framesIn, jumping, h (by omega) q hq hs (by omega)]
        rfl
      · intro h _ q hq hs hl
        have := h q hq hs (by omega)
        rwa [framesIn, jumping, Option.map_eq_none_iff] at this

/-- The samples of a run add up. -/
theorem sum_newSamples (bytes : ℕ) (calls : List Call) :
    bytes / 2 + (newSamples bytes calls).sum = (bytes + (streamOf calls).length) / 2 := by
  induction calls generalizing bytes with
  | nil => simp [newSamples, streamOf]
  | cons call rest ih =>
    have := ih (bytes + call.iq.length)
    simp only [newSamples, streamOf, List.flatMap_cons, List.length_append] at this ⊢
    split
    · omega
    · rw [List.sum_cons]; omega

/-- One call with the whole stream scans it once. -/
theorem acceptedFrames_single (hfe : IsFrontEnd grow handle process samples table) {s : σ}
    (h : Holds (samples s) []) (call : Call) :
    acceptedFrames process samples s 0 [call] =
      Scan.hits (framesIn (magnitudes power call.iq)) (call.iq.length / 2 - frameSamples) 0 := by
  have hrun := acceptedFrames_eq_pieces hfe [call] h
  have hstream : [] ++ streamOf [call] = call.iq := by simp [streamOf]
  rw [hstream] at hrun
  refine hrun.trans ?_
  simp only [newSamples, List.length_nil, Nat.zero_add, Nat.zero_div, Nat.sub_zero]
  split
  · rw [Scan.pieces, Scan.hits_of_le (by omega)]
  · simp only [Scan.pieces, List.append_nil, Nat.zero_add, Nat.zero_sub]

/-- **When cutting the stream makes no difference.** From a fresh decoder, a run
accepts the frames the whole stream gives in one call exactly when no cut
disturbs the scan. -/
theorem acceptedFrames_eq_iff (hfe : IsFrontEnd grow handle process samples table) {s : σ}
    (h : Holds (samples s) []) (calls : List Call) (now : ℕ → Clock) :
    acceptedFrames process samples s 0 calls =
        acceptedFrames process samples s 0 [⟨streamOf calls, now⟩] ↔
      Undisturbed (magnitudes power (streamOf calls)) 0 calls := by
  have hrun := acceptedFrames_eq_pieces hfe calls h
  have hone := acceptedFrames_single hfe h ⟨streamOf calls, now⟩
  have hsum := sum_newSamples 0 calls
  have hpieces := @Scan.pieces_eq_iff _ (framesIn (magnitudes power (streamOf calls))) frameSamples
    magTailSize (by decide) 0 (newSamples 0 calls)
  rw [show Scan.standing (framesIn (magnitudes power (streamOf calls))) frameSamples 0 = 0 from
    Scan.resume_of_le (by omega), show 0 + (newSamples 0 calls).sum = (streamOf calls).length / 2 by
      omega] at hpieces
  rw [undisturbed_iff_clean, hone, ← hpieces]
  exact ⟨fun he => (hrun.symm.trans he : _), fun he => (hrun.trans he : _)⟩

end Run

end FrontEnd

end AdsbBridge
