import AdsbBridge.Lib.Trace
import AdsbBridge.Native.Decoder
import AdsbBridge.Readsb.Demod2400

/-! # The loaded library

`nativeReset` and `nativeProcessIq` with everything that lives as long as the
library: the decoder's state and the static variables of the adapter. A call
holds `decoder_mutex`, so calls come one after the other. -/
namespace AdsbBridge.Native
open AdsbBridge.Lib AdsbBridge.Readsb AdsbBridge.Iq

/-- The demodulator of `process_readsb_demodulator`; the timestamps it is given
reach no field that anything reads. -/
def readsbDemodulator (env : Env) : Demodulator Adapter :=
  fun adapter magnitude length _sampleTimestamp _systemTimestampMs =>
    readsbBridgeDemodulate2400 env sliceAt adapter magnitude length

/-- The static variables, as they are when the library is loaded. -/
structure Library where
  adapter : Adapter := {}
  decoder : DecoderState := {}

/-- A call of `nativeProcessIq` with the clock reading handed to the adapter. -/
structure IqCall extends Call where
  mode : ℤ
  sysTime : ℤ

/-- `if (!line.empty()) lines << line << '\n'`. -/
def emit (lines : List Text) : Text :=
  lines.flatMap fun line => if line.isEmpty then [] else line ++ ['\n']

section

variable (env : Env)

def nativeProcessIq (library : Library) (call : IqCall) : Library × Text :=
  if call.iq.isEmpty then (library, [])
  else if call.mode = decoderModeReadsbCore then
    let (adapter, decoder, delivered) := processReadsbDemodulator (readsbDemodulator env)
      call.sysTime library.adapter library.decoder call.toCall
    (⟨adapter, decoder⟩, emit (delivered.map fun d => d.line))
  else
    let (decoder, frames) := processFast env.trig library.decoder call.toCall
    ({ library with decoder }, emit (frames.map fun f => f.line))

def nativeReset (library : Library) : Library :=
  { adapter := library.adapter.init, decoder := {} }

inductive Event
  | reset
  | process (call : IqCall)

def Library.step (library : Library) : Event → Library
  | .reset => nativeReset library
  | .process call => (nativeProcessIq env library call).1

def after (library : Library) (history : List Event) : Library := history.foldl (Library.step env) library

/-- The texts a sequence of `nativeProcessIq` calls returns. -/
def linesOf (library : Library) : List IqCall → List Text
  | [] => []
  | call :: calls =>
    let (library, lines) := nativeProcessIq env library call
    lines :: linesOf library calls

/-- What a READSB_CORE call with at least one sample leaves in the adapter, and
the text it returns. -/
theorem nativeProcessIq_readsb {library : Library} {call : IqCall} {pairs : ℕ}
    (hempty : call.iq.isEmpty = false) (hmode : call.mode = decoderModeReadsbCore)
    (hcount : pairCount library.decoder.pendingIqByte call.iq = pairs) (hpairs : pairs ≠ 0) :
    let decoded := readsbBridgeDemodulate2400 env sliceAt library.adapter
      (fun i => (readsbBuffer library.decoder call.toCall).getD i 0)
      (library.decoder.readsbTail.length + pairs)
    let result := nativeProcessIq env library call
    result.1.adapter = decoded.1 ∧
      result.2 = emit ((decoded.2.foldl (handleDecoded call.now)
        (library.decoder.table, [])).2.map fun d => d.line) := by
  unfold nativeProcessIq processReadsbDemodulator
  simp only [hempty, Bool.false_eq_true, if_false, hmode, if_true, hcount, hpairs]
  exact ⟨rfl, rfl⟩

/-! ## The memory of addresses -/

/-- The candidates a call hands to `decodeModesMessage`. -/
def candidates (library : Library) (call : IqCall) : List Candidate :=
  let pairs := pairCount library.decoder.pendingIqByte call.iq
  if call.iq.isEmpty ∨ call.mode ≠ decoderModeReadsbCore ∨ pairs = 0 then []
  else
    let length := library.decoder.readsbTail.length + pairs
    let mag := readsbBuffer library.decoder call.toCall
    (demodulate2400 env sliceAt (fun i => mag.getD i 0) length length 0
      library.adapter.init.filter).2

end

end AdsbBridge.Native
