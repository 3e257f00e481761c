import AdsbBridge.Legacy.Decoder
import AdsbBridge.Native.Decoder

/-! # Cutting the stream, at two samples a bit

The legacy and the native-fast decoder save 256 samples, but a scan leaves
only the last 240 undecided: sixteen positions are looked at twice, and more
when the earlier scan had jumped over them. -/
namespace AdsbBridge
open AdsbBridge.FrontEnd AdsbBridge.Fields

def Legacy.acceptedFrames (trig : Trig) (calls : List Call) : List (ℕ × Message) :=
  FrontEnd.acceptedFrames (Legacy.processIq trig) Legacy.ReaderState.samples {} 0 calls

def Native.acceptedFrames (trig : Trig) (calls : List Call) : List (ℕ × Message) :=
  FrontEnd.acceptedFrames (Native.processFast trig) Native.DecoderState.samples {} 0 calls

theorem Legacy.holds_fresh : Holds (Legacy.ReaderState.samples {}) [] := ⟨rfl, rfl⟩

theorem Native.holds_fresh : Holds (Native.DecoderState.samples {}) [] := ⟨rfl, rfl⟩

/-- **Exactly when cuts do not matter**, for both decoders: the run accepts the
frames, with their positions, that one call with the whole stream accepts. -/
theorem chunked_iff_undisturbed (trig : Trig) (calls : List Call) (now : ℕ → Clock) :
    (Legacy.acceptedFrames trig calls = Legacy.acceptedFrames trig [⟨streamOf calls, now⟩] ↔
      Undisturbed (Iq.magnitudes Iq.power (streamOf calls)) 0 calls) ∧
    (Native.acceptedFrames trig calls = Native.acceptedFrames trig [⟨streamOf calls, now⟩] ↔
      Undisturbed (Iq.magnitudes Iq.power (streamOf calls)) 0 calls) :=
  ⟨acceptedFrames_eq_iff (Legacy.processIq_isFrontEnd trig) Legacy.holds_fresh calls now,
    acceptedFrames_eq_iff (Native.processFast_isFrontEnd trig) Native.holds_fresh calls now⟩

/-! ## A frame that is decoded twice -/

/-- Where a transmission has energy, at two samples a bit. -/
def onAir (message : Message) : List Bool :=
  [true, false, true, false, false, false, false, true, false, true] ++ List.replicate 6 false ++
    (List.range 112).flatMap fun bit =>
      if Frame.bitAt message bit = 1 then [true, false] else [false, true]

def iqBytes (samples : List Bool) : List UInt8 :=
  samples.flatMap fun energy => if energy then [255, 127] else [127, 127]

def klm1023 : Message :=
  #v[0x8d, 0x48, 0x40, 0xd6, 0x20, 0x2c, 0xc3, 0x71, 0xc3, 0x2c, 0xe0, 0x57, 0x60, 0x98]

def firstSecond : ℕ → Clock := fun _ => ⟨1000, 1000⟩

/-- One transmission and a silent sample, then another silent sample. -/
def cutBehindFrame : List Call :=
  [⟨iqBytes (onAir klm1023 ++ [false]), firstSecond⟩, ⟨[127, 127], firstSecond⟩]

theorem klm1023_accepted :
    framesIn (Iq.magnitudes Iq.power (streamOf cutBehindFrame)) 0 = some (klm1023, 239) := by
  decide +kernel

theorem hits_klm1023 {limit : ℕ} (h₀ : 0 < limit) (h : limit ≤ 240) :
    Lib.Scan.hits (framesIn (Iq.magnitudes Iq.power (streamOf cutBehindFrame))) limit 0 =
      [(0, klm1023)] := by
  rw [Lib.Scan.hits_some h₀ klm1023_accepted, Lib.Scan.hits_of_le (by omega)]

theorem decodes_twice {σ τ ω : Type} {grow : ℕ → List ℕ → List ℕ}
    {handle : Clock → Message → τ → τ × ω} {process : σ → Call → σ × List (AcceptedFrame ω)}
    {samples : σ → Samples} {table : σ → τ}
    (hfe : IsFrontEnd grow handle process samples table) {s : σ} (h : Holds (samples s) []) :
    FrontEnd.acceptedFrames process samples s 0 cutBehindFrame =
        [(0, klm1023), (0, klm1023)] ∧
      FrontEnd.acceptedFrames process samples s 0 [⟨streamOf cutBehindFrame, firstSecond⟩] =
        [(0, klm1023)] := by
  constructor
  · have hnew : newSamples ([] : List UInt8).length cutBehindFrame = [241, 1] := by
      decide +kernel
    refine (acceptedFrames_eq_pieces hfe cutBehindFrame h).trans ?_
    rw [hnew]
    show Lib.Scan.hits _ 1 0 ++ (Lib.Scan.hits _ 2 0 ++ []) = _
    rw [List.nil_append, hits_klm1023 (by decide) (by decide),
      hits_klm1023 (by decide) (by decide)]
    rfl
  · have hlen : (streamOf cutBehindFrame).length = 484 := by decide +kernel
    rw [acceptedFrames_single hfe h]
    simp only
    rw [hlen]
    exact hits_klm1023 (by decide) (by decide)

/-- The frame that ends one sample before the cut is decoded by both calls. -/
theorem cutBehindFrame_decoded_twice :
    (Legacy.acceptedFrames noTrig cutBehindFrame = [(0, klm1023), (0, klm1023)] ∧
      Legacy.acceptedFrames noTrig [⟨streamOf cutBehindFrame, firstSecond⟩] = [(0, klm1023)]) ∧
    (Native.acceptedFrames noTrig cutBehindFrame = [(0, klm1023), (0, klm1023)] ∧
      Native.acceptedFrames noTrig [⟨streamOf cutBehindFrame, firstSecond⟩] = [(0, klm1023)]) :=
  ⟨decodes_twice (Legacy.processIq_isFrontEnd noTrig) Legacy.holds_fresh,
    decodes_twice (Native.processFast_isFrontEnd noTrig) Native.holds_fresh⟩

end AdsbBridge
