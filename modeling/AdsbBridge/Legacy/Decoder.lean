import AdsbBridge.Iq
import AdsbBridge.Legacy.Aircraft

/-! # The legacy Java decoder

`RtlTcpAdsbReader.processIq` with the fields it works on. -/
namespace AdsbBridge.Legacy
open AdsbBridge.Lib AdsbBridge.Fields AdsbBridge.Iq

def iqBufferSize : ℕ := 32 * 1024

/-- The decoding fields of a reader; of the tail only the valid part is kept. -/
structure ReaderState where
  tail : List ℕ := []
  magBuffer : List ℕ := List.replicate (magTailSize + iqBufferSize / 2) 0
  table : Table := {}
  pendingIqByte : Option UInt8 := none

/-- `while (newLength < requiredLength) newLength *= 2`. -/
def doubleUntil (requiredLength : ℕ) : ℕ → ℕ → ℕ
  | 0, newLength => newLength
  | fuel + 1, newLength =>
    if newLength < requiredLength then doubleUntil requiredLength fuel (newLength * 2)
    else newLength

/-- `ensureMagnitudeCapacity`: a buffer that is too short gives way to a new one. -/
def ensureMagnitudeCapacity (requiredLength : ℕ) (magBuffer : List ℕ) : List ℕ :=
  if magBuffer.length ≥ requiredLength then magBuffer
  else List.replicate (doubleUntil requiredLength requiredLength magBuffer.length) 0

/-- The part of the state that is scanned. -/
def ReaderState.samples (reader : ReaderState) : FrontEnd.Samples :=
  ⟨reader.tail, reader.magBuffer, reader.pendingIqByte⟩

def processIq (trig : Trig) (reader : ReaderState) (call : Call) :
    ReaderState × List (AcceptedFrame (Option Text)) :=
  let (samples, table, frames) :=
    FrontEnd.receive ensureMagnitudeCapacity (handleMessage trig) reader.samples reader.table call
  (⟨samples.tail, samples.mag, table, samples.pending⟩, frames)

theorem processIq_isFrontEnd (trig : Trig) :
    FrontEnd.IsFrontEnd ensureMagnitudeCapacity (handleMessage trig) (processIq trig)
      ReaderState.samples ReaderState.table where
  samples_process _ _ := rfl
  table_process _ _ := rfl
  frames_process _ _ := rfl

end AdsbBridge.Legacy
