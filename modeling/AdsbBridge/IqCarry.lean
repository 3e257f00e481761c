import AdsbBridge.Legacy.Decoder
import AdsbBridge.Native.Library
import AdsbBridge.ReadsbChunks

/-! # What is carried from chunk to chunk

However a stream of bytes is cut, a decoder that stays in one mode writes the
magnitudes of its byte pairs one after the other, and holds the odd byte and
the last samples. -/
namespace AdsbBridge.IqCarry
open AdsbBridge.Lib AdsbBridge.Lib.Pairs AdsbBridge.Iq

/-! ## Chunks and runs -/

/-- What a call writes behind the tail: the buffer after it, from `tail_size` up
to `mag_length`. -/
def written (held held' : FrontEnd.Samples) (iq : List UInt8) : List ℕ :=
  (held'.mag.drop held.tail.length).take (pairCount held.pending iq)

section Run

variable {σ ε : Type} (process : σ → ε → σ) (held : σ → FrontEnd.Samples) (iq : ε → List UInt8)

/-- What the calls of a run write, one after the other. -/
def writtenBy : σ → List ε → List ℕ
  | _, [] => []
  | s, e :: es => written (held s) (held (process s e)) (iq e) ++ writtenBy (process s e) es

/-- The samples held are those that the bytes received so far leave behind. -/
structure Carried (magnitude : UInt8 → UInt8 → ℕ) (capacity : ℕ) (bytes : List UInt8)
    (held : FrontEnd.Samples) : Prop where
  pending : held.pending = leftover bytes
  tail : held.tail = lastOf capacity (magnitudes magnitude bytes)

/-- A call joins its bytes to those before. -/
structure Joins (magnitude : UInt8 → UInt8 → ℕ) (capacity : ℕ) (fits : ε → Prop) : Prop where
  carried : ∀ s e bytes, fits e → Carried magnitude capacity bytes (held s) →
    Carried magnitude capacity (bytes ++ iq e) (held (process s e))
  written : ∀ s e, fits e → written (held s) (held (process s e)) (iq e) =
    magnitudes magnitude ((held s).pending.toList ++ iq e)

variable {process held iq} {magnitude : UInt8 → UInt8 → ℕ} {capacity : ℕ} {fits : ε → Prop}

/-- **A run writes the magnitudes of its stream, and carries what it leaves over.** -/
theorem Joins.run (h : Joins process held iq magnitude capacity fits) (es : List ε) {s : σ}
    {bytes : List UInt8} (hes : ∀ e ∈ es, fits e) (hs : Carried magnitude capacity bytes (held s)) :
    Carried magnitude capacity (bytes ++ es.flatMap iq) (held (es.foldl process s)) ∧
      magnitudes magnitude (bytes ++ es.flatMap iq) =
        magnitudes magnitude bytes ++ writtenBy process held iq s es := by
  induction es generalizing s bytes with
  | nil =>
    rw [List.flatMap_nil, List.append_nil, writtenBy, List.append_nil]
    exact ⟨hs, rfl⟩
  | cons e rest ih =>
    have hfits := hes e List.mem_cons_self
    obtain ⟨hcarried, hmags⟩ := ih (fun e' he' => hes e' (List.mem_cons_of_mem e he'))
      (h.carried s e bytes hfits hs)
    rw [List.append_assoc, ← List.flatMap_cons] at hcarried hmags
    refine ⟨hcarried, ?_⟩
    rw [hmags, writtenBy, h.written s e hfits, hs.pending, magnitudes_append, List.append_assoc]

end Run

/-- The invariant of the carry: after the bytes `bytes`, what is held and what
has been written. -/
structure CarryHolds (magnitude : UInt8 → UInt8 → ℕ) (capacity : ℕ) (bytes : List UInt8)
    (held : FrontEnd.Samples) (new : List ℕ) : Prop where
  pending : held.pending.isSome = true ↔ bytes.length % 2 = 1
  last : ∀ byte, held.pending = some byte → bytes.getLast? = some byte
  inOrder : new = (List.range (bytes.length / 2)).map fun i =>
    magnitude (bytes.getD (2 * i) 0) (bytes.getD (2 * i + 1) 0)
  tail : held.tail = new.drop (new.length - capacity)
  tail_length : held.tail.length = min capacity (bytes.length / 2)

theorem magnitudes_eq_range (magnitude : UInt8 → UInt8 → ℕ) (bytes : List UInt8) :
    magnitudes magnitude bytes = (List.range (bytes.length / 2)).map fun i =>
      magnitude (bytes.getD (2 * i) 0) (bytes.getD (2 * i + 1) 0) := by
  rw [magnitudes, pairUp_eq_range 0, List.map_map]
  rfl

/-- From a fresh state the invariant holds after every run. -/
theorem Joins.carryHolds {σ ε : Type} {process : σ → ε → σ} {held : σ → FrontEnd.Samples}
    {iq : ε → List UInt8} {magnitude : UInt8 → UInt8 → ℕ} {capacity : ℕ} {fits : ε → Prop}
    (h : Joins process held iq magnitude capacity fits) {s : σ} (hpending : (held s).pending = none)
    (htail : (held s).tail = []) (es : List ε) (hes : ∀ e ∈ es, fits e) :
    CarryHolds magnitude capacity (es.flatMap iq) (held (es.foldl process s))
      (writtenBy process held iq s es) := by
  have hfresh : Carried magnitude capacity [] (held s) := by
    refine ⟨hpending, ?_⟩
    rw [htail]
    exact List.drop_nil.symm
  obtain ⟨hcarried, hmags⟩ := h.run es hes hfresh
  rw [List.nil_append] at hcarried hmags
  have hnew : magnitudes magnitude (es.flatMap iq) = writtenBy process held iq s es := hmags
  refine ⟨?_, fun byte hbyte => ?_, ?_, ?_, ?_⟩
  · rw [hcarried.pending, leftover_isSome]
  · rw [hcarried.pending] at hbyte
    exact leftover_eq_getLast hbyte
  · rw [← hnew, magnitudes_eq_range]
  · rw [hcarried.tail, hnew]
    rfl
  · rw [hcarried.tail, length_lastOf, length_magnitudes]

/-! ## The three decoders -/

/-- What is written over the front of a buffer behind a tail. -/
theorem take_drop_overwrite (tail mags rest buffer : List ℕ) :
    ((overwrite (tail ++ mags ++ rest) buffer).drop tail.length).take mags.length = mags := by
  rw [overwrite, List.append_assoc, List.append_assoc, List.drop_left, List.take_left]

/-- The front end writes the magnitudes of the pending byte and the chunk. -/
theorem written_receive {τ ω : Type} (grow : ℕ → List ℕ → List ℕ)
    (handle : Clock → Message → τ → τ × ω) (held : FrontEnd.Samples) (table : τ) (call : Call) :
    written held (FrontEnd.receive grow handle held table call).1 call.iq =
      magnitudes power (held.pending.toList ++ call.iq) := by
  unfold written FrontEnd.receive
  by_cases hnew : pairCount held.pending call.iq = 0
  · rw [hnew, List.take_zero, (holdByte_eq hnew).2]
  · simp only [if_neg hnew, writeMagnitudes_eq power (Nat.pos_of_ne_zero hnew)]
    have hlen := length_magnitudes_pending power held.pending call.iq
    have hread := take_drop_overwrite held.tail (magnitudes power (held.pending.toList ++ call.iq)) []
      (grow (held.tail.length + pairCount held.pending call.iq) held.mag)
    rwa [List.append_nil, hlen] at hread

def feedReader (trig : Fields.Trig) (reader : Legacy.ReaderState) (call : Call) :
    Legacy.ReaderState :=
  (Legacy.processIq trig reader call).1

def feedLibrary (env : Readsb.Env) (library : Native.Library) (call : Native.IqCall) :
    Native.Library :=
  (Native.nativeProcessIq env library call).1

/-- The part of the native decoder's state that READSB_CORE works on. -/
def readsbSamples (decoder : Native.DecoderState) : FrontEnd.Samples :=
  ⟨decoder.readsbTail, decoder.readsbMag, decoder.pendingIqByte⟩

/-- So does `process_readsb_demodulator`, with its own magnitude. -/
theorem written_readsb {ρ : Type} (demodulate : Native.Demodulator ρ) (sysTime : ℤ) (readsb : ρ)
    (decoder : Native.DecoderState) (call : Call) :
    written (readsbSamples decoder) (readsbSamples
        (Native.processReadsbDemodulator demodulate sysTime readsb decoder call).2.1) call.iq =
      magnitudes Native.readsbMagnitude (decoder.pendingIqByte.toList ++ call.iq) := by
  unfold written readsbSamples Native.processReadsbDemodulator
  by_cases hnew : pairCount decoder.pendingIqByte call.iq = 0
  · rw [hnew, List.take_zero, (holdByte_eq hnew).2]
  · simp only [if_neg hnew, writeMagnitudes_eq Native.readsbMagnitude (Nat.pos_of_ne_zero hnew)]
    rw [← length_magnitudes_pending Native.readsbMagnitude, take_drop_overwrite]

theorem joins_of_isFrontEnd {σ τ ω : Type} {grow : ℕ → List ℕ → List ℕ}
    {handle : Clock → Message → τ → τ × ω} {process : σ → Call → σ × List (AcceptedFrame ω)}
    {samples : σ → FrontEnd.Samples} {table : σ → τ}
    (hfe : FrontEnd.IsFrontEnd grow handle process samples table) :
    Joins (fun s call => (process s call).1) samples Call.iq power magTailSize fun _ => True := by
  refine ⟨fun s call bytes _ h => ?_, fun s call _ => ?_⟩
  · have hheld : FrontEnd.Holds (samples s) bytes := ⟨h.pending, h.tail⟩
    have hreceived : FrontEnd.Holds (FrontEnd.receive grow handle (samples s) (table s) call).1
        (bytes ++ call.iq) := hheld.receive (table s) call
    obtain ⟨hpending, htail⟩ := hreceived
    rw [hfe.samples_process]
    exact ⟨hpending, htail⟩
  · rw [hfe.samples_process]
    exact written_receive grow handle (samples s) (table s) call

section Native

variable (env : Readsb.Env) (library : Native.Library) {call : Native.IqCall}

theorem pairCount_nil (pending : Option UInt8) : pairCount pending [] = 0 := by
  cases pending with
  | none => simp [pairCount]
  | some byte => simp [pairCount]

theorem holdByte_nil (pending : Option UInt8) : holdByte pending [] = pending := by
  cases pending with
  | none => rfl
  | some byte => rfl

theorem samples_feedLibrary (hmode : call.mode ≠ Native.decoderModeReadsbCore) :
    (feedLibrary env library call).decoder.samples =
      (Native.processFast env.trig library.decoder call.toCall).1.samples := by
  unfold feedLibrary Native.nativeProcessIq
  by_cases hempty : call.iq.isEmpty = true
  · rw [if_pos hempty, Native.processFast, FrontEnd.receive, List.isEmpty_iff.1 hempty,
      if_pos (pairCount_nil _), holdByte_nil]
    rfl
  · rw [if_neg hempty, if_neg hmode]

theorem readsbSamples_nativeProcessIq (hmode : call.mode = Native.decoderModeReadsbCore) :
    readsbSamples (feedLibrary env library call).decoder =
      readsbSamples (Native.processReadsbDemodulator (Native.readsbDemodulator env) call.sysTime
        library.adapter library.decoder call.toCall).2.1 := by
  unfold feedLibrary Native.nativeProcessIq
  by_cases hempty : call.iq.isEmpty = true
  · rw [if_pos hempty, Native.processReadsbDemodulator, List.isEmpty_iff.1 hempty,
      if_pos (pairCount_nil _), holdByte_nil]
  · rw [if_neg hempty, if_pos hmode]

end Native

theorem joins_fast (env : Readsb.Env) :
    Joins (feedLibrary env) (fun library => library.decoder.samples) (fun call => call.iq) power
      magTailSize fun call => call.mode ≠ Native.decoderModeReadsbCore := by
  have hfast := joins_of_isFrontEnd (Native.processFast_isFrontEnd env.trig)
  refine ⟨fun library call bytes hmode h => ?_, fun library call hmode => ?_⟩
  · rw [samples_feedLibrary env library hmode]
    exact hfast.carried library.decoder call.toCall bytes trivial h
  · rw [samples_feedLibrary env library hmode]
    exact hfast.written library.decoder call.toCall trivial

theorem joins_core (env : Readsb.Env) :
    Joins (feedLibrary env) (fun library => readsbSamples library.decoder) (fun call => call.iq)
      Native.readsbMagnitude Native.readsbMagTailSize
      fun call => call.mode = Native.decoderModeReadsbCore := by
  refine ⟨fun library call bytes hmode h => ?_, fun library call hmode => ?_⟩
  · have hheld : ReadsbChunks.Holds library.decoder bytes := ⟨h.pending, h.tail⟩
    obtain ⟨hpending, htail⟩ := hheld.process (Native.readsbDemodulator env) call.sysTime
      library.adapter call.toCall
    rw [readsbSamples_nativeProcessIq env library hmode]
    exact ⟨hpending, htail⟩
  · rw [readsbSamples_nativeProcessIq env library hmode]
    exact written_readsb (Native.readsbDemodulator env) call.sysTime library.adapter library.decoder
      call.toCall

/-- **The carry, for all three decoders**: after any chunks in one mode, a fresh
decoder holds the odd byte and the last samples of the stream, and has written
the magnitudes of its byte pairs in order. -/
theorem carryHolds_afterChunks (trig : Fields.Trig) (env : Readsb.Env) (adapter : Readsb.Adapter) :
    (∀ calls : List Call,
      CarryHolds power magTailSize (calls.flatMap Call.iq)
        (calls.foldl (feedReader trig) {}).samples
        (writtenBy (feedReader trig) Legacy.ReaderState.samples Call.iq {} calls)) ∧
    (∀ calls : List Native.IqCall, (∀ call ∈ calls, call.mode ≠ Native.decoderModeReadsbCore) →
      CarryHolds power magTailSize (calls.flatMap fun call => call.iq)
        (calls.foldl (feedLibrary env) ⟨adapter, {}⟩).decoder.samples
        (writtenBy (feedLibrary env) (fun library => library.decoder.samples)
          (fun call => call.iq) ⟨adapter, {}⟩ calls)) ∧
    ∀ calls : List Native.IqCall, (∀ call ∈ calls, call.mode = Native.decoderModeReadsbCore) →
      CarryHolds Native.readsbMagnitude Native.readsbMagTailSize (calls.flatMap fun call => call.iq)
        (readsbSamples (calls.foldl (feedLibrary env) ⟨adapter, {}⟩).decoder)
        (writtenBy (feedLibrary env) (fun library => readsbSamples library.decoder)
          (fun call => call.iq) ⟨adapter, {}⟩ calls) := by
  refine ⟨fun calls => ?_, fun calls hmode => ?_, fun calls hmode => ?_⟩
  · have hjoins : Joins (feedReader trig) Legacy.ReaderState.samples Call.iq power magTailSize
        fun _ => True := joins_of_isFrontEnd (Legacy.processIq_isFrontEnd trig)
    exact hjoins.carryHolds rfl rfl calls fun _ _ => trivial
  · exact (joins_fast env).carryHolds rfl rfl calls hmode
  · exact (joins_core env).carryHolds rfl rfl calls hmode

/-- Five bytes in four chunks: one, three, none and one. -/
def fourChunks (mode : ℤ) : List Native.IqCall :=
  [[255], [127, 0, 5], [], [9]].map fun iq => ⟨⟨iq, fun _ => ⟨1000, 1000⟩⟩, mode, 1000⟩

/-- No syndrome can be corrected, and nothing is read from Comm-B replies. -/
def carryEnv : Readsb.Env := ⟨Readsb.noTables, fun _ mm => mm, noTrig⟩

theorem fourChunks_carryHolds :
    CarryHolds power magTailSize [255, 127, 0, 5, 9]
        ((fourChunks 1).foldl (feedLibrary carryEnv) ⟨{}, {}⟩).decoder.samples
        (writtenBy (feedLibrary carryEnv) (fun library => library.decoder.samples)
          (fun call => call.iq) ⟨{}, {}⟩ (fourChunks 1)) ∧
      CarryHolds Native.readsbMagnitude Native.readsbMagTailSize [255, 127, 0, 5, 9]
        (readsbSamples ((fourChunks 2).foldl (feedLibrary carryEnv) ⟨{}, {}⟩).decoder)
        (writtenBy (feedLibrary carryEnv) (fun library => readsbSamples library.decoder)
          (fun call => call.iq) ⟨{}, {}⟩ (fourChunks 2)) := by
  have hfast : ∀ call ∈ fourChunks 1, call.mode ≠ Native.decoderModeReadsbCore := by
    intro call hmem
    obtain ⟨iq, -, rfl⟩ := List.mem_map.1 hmem
    show (1 : ℤ) ≠ 2
    decide
  have hcore : ∀ call ∈ fourChunks 2, call.mode = Native.decoderModeReadsbCore := by
    intro call hmem
    obtain ⟨iq, -, rfl⟩ := List.mem_map.1 hmem
    rfl
  exact ⟨(carryHolds_afterChunks noTrig carryEnv {}).2.1 (fourChunks 1) hfast,
    (carryHolds_afterChunks noTrig carryEnv {}).2.2 (fourChunks 2) hcore⟩

end AdsbBridge.IqCarry
