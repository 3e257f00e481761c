import AdsbBridge.Iq
import AdsbBridge.Native.Handle

/-! # The native decoder

`DecoderState`, `nativeReset` and `nativeProcessIq`. Mode 2 is READSB_CORE and
goes through `process_readsb_demodulator`; every other mode is the native-fast
loop. What readsb does with a buffer of magnitudes is a parameter here,
`Demodulator`: it keeps a state of its own and delivers messages with the
buffer position they start at. -/
namespace AdsbBridge.Native
open AdsbBridge.Lib AdsbBridge.Fields AdsbBridge.Readsb AdsbBridge.Iq

def readsbMagTailSize : ℕ := 512
def readsbMagPadding : ℕ := 512
def decoderModeReadsbCore : ℤ := 2

/-- `struct DecoderState`; of the two tails only the valid part is kept. -/
structure DecoderState where
  tail : List ℕ := []
  mag : List ℕ := []
  readsbTail : List ℕ := []
  readsbMag : List ℕ := []
  readsbSampleTimestamp : ℤ := 0
  table : Table := {}
  pendingIqByte : Option UInt8 := none

/-! ## Native-fast -/

/-- The part of the state the native-fast path scans. -/
def DecoderState.samples (decoder : DecoderState) : FrontEnd.Samples :=
  ⟨decoder.tail, decoder.mag, decoder.pendingIqByte⟩

/-- `mag.resize` in front of writing: `overwrite` grows the buffer by itself. -/
def resizeMag (_magLength : ℕ) (mag : List ℕ) : List ℕ := mag

/-- The `else` branch of `nativeProcessIq`. -/
def processFast (trig : Trig) (decoder : DecoderState) (call : Call) :
    DecoderState × List (AcceptedFrame Text) :=
  let (samples, table, frames) :=
    FrontEnd.receive resizeMag (handleMessage trig) decoder.samples decoder.table call
  ({ decoder with
      tail := samples.tail
      mag := samples.mag
      table := table
      pendingIqByte := samples.pending }, frames)

theorem processFast_isFrontEnd (trig : Trig) :
    FrontEnd.IsFrontEnd resizeMag (handleMessage trig) (processFast trig) DecoderState.samples
      DecoderState.table where
  samples_process _ _ := rfl
  table_process _ _ := rfl
  frames_process _ _ := rfl

/-! ## READSB_CORE -/

/-- `readsb_bridge_demodulate_2400` with the state behind it: magnitudes,
their number, the sample timestamp and the system time in, messages with
their start positions out. -/
abbrev Demodulator (ρ : Type) :=
  ρ → (ℕ → ℕ) → ℕ → ℤ → ℤ → ρ × List (ℕ × ReadsbBridgeMessage)

/-- `static_cast<int>(std::sqrt(power) * 364.0)`, clamped to 16 bits. -/
def readsbMagnitude (i q : UInt8) : ℕ := min 65535 (Nat.sqrt (power i q * 364 ^ 2))

/-- A message handed to `handle_readsb_decoded_message`, where it starts in the
buffer, and the line that came of it. -/
structure DeliveredMessage where
  pos : ℕ
  message : ReadsbBridgeMessage
  line : Text

/-- The loop over `decoded`. -/
def handleDecoded (now : ℕ → Clock) (s : Table × List DeliveredMessage)
    (decoded : ℕ × ReadsbBridgeMessage) : Table × List DeliveredMessage :=
  let (table, line) := handleReadsbDecodedMessage (now s.2.length) decoded.2 s.1
  (table, s.2 ++ [⟨decoded.1, decoded.2, line⟩])

/-- `readsb_mag` when the demodulator gets it. -/
def readsbBuffer (decoder : DecoderState) (call : Call) : List ℕ :=
  let mags := (writeMagnitudes readsbMagnitude decoder.pendingIqByte call.iq).1
  overwrite (decoder.readsbTail ++ mags ++ List.replicate readsbMagPadding 0) decoder.readsbMag

/-- `process_readsb_demodulator`; `sysTime` is the clock reading it passes on. -/
def processReadsbDemodulator {ρ : Type} (demodulate : Demodulator ρ) (sysTime : ℤ) (readsb : ρ)
    (decoder : DecoderState) (call : Call) : ρ × DecoderState × List DeliveredMessage :=
  let pairs := pairCount decoder.pendingIqByte call.iq
  if pairs = 0 then
    (readsb, { decoder with pendingIqByte := holdByte decoder.pendingIqByte call.iq }, [])
  else
    let magLength := decoder.readsbTail.length + pairs
    let (mags, pending) := writeMagnitudes readsbMagnitude decoder.pendingIqByte call.iq
    let mag := overwrite (decoder.readsbTail ++ mags ++ List.replicate readsbMagPadding 0)
      decoder.readsbMag
    let (readsb, decoded) := demodulate readsb (fun i => mag.getD i 0) magLength
      decoder.readsbSampleTimestamp sysTime
    let (table, delivered) := decoded.foldl (handleDecoded call.now) (decoder.table, [])
    (readsb,
      { decoder with
        readsbTail := saveTail readsbMagTailSize mag magLength
        readsbMag := mag
        readsbSampleTimestamp := decoder.readsbSampleTimestamp + pairs * 5
        table := table
        pendingIqByte := pending },
      delivered)

/-- A call hands some messages to the handler, one after the other, and changes
the table in no other way. -/
theorem processReadsbDemodulator_handles {ρ : Type} (demodulate : Demodulator ρ) (sysTime : ℤ)
    (readsb : ρ) (decoder : DecoderState) (call : Call) :
    ∃ decoded : List (ℕ × ReadsbBridgeMessage),
      (processReadsbDemodulator demodulate sysTime readsb decoder call).2.1.table =
          (decoded.foldl (handleDecoded call.now) (decoder.table, [])).1 ∧
        (processReadsbDemodulator demodulate sysTime readsb decoder call).2.2 =
          (decoded.foldl (handleDecoded call.now) (decoder.table, [])).2 := by
  unfold processReadsbDemodulator
  simp only
  split
  · exact ⟨[], rfl, rfl⟩
  · exact ⟨_, rfl, rfl⟩

end AdsbBridge.Native
