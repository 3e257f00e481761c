import AdsbBridge.Coverage
import AdsbBridge.Readsb.Reception

/-! # What is received

A transmission in the samples of a stream that comes in any chunks. The call
that brings in its last sample passes all of it to the demodulator, as the tail
of 512 samples is longer than a long message: there it is decoded, or it starts
within a message that is. -/
namespace AdsbBridge.Native
open AdsbBridge.Lib AdsbBridge.Iq AdsbBridge.Readsb

/-! ## A piece of a stream -/

section

variable {message : Message} {msgbits start amplitude noise : ℕ}

theorem highTicks_shift {offset : ℕ} (h : 5 * offset ≤ start) (i : ℕ) :
    highTicks message msgbits (start - 5 * offset) i =
      highTicks message msgbits start (offset + i) := by
  have htick : ∀ t, tickHigh message msgbits (start - 5 * offset) t =
      tickHigh message msgbits start (5 * offset + t) := by
    intro t
    have hsince : t - (start - 5 * offset) = 5 * offset + t - start := by omega
    rw [tickHigh, tickHigh, hsince]
    simp only [show start - 5 * offset ≤ t ↔ start ≤ 5 * offset + t by omega]
  rw [highTicks, highTicks, htick, htick, htick, htick, htick, Nat.mul_add]
  simp only [Nat.add_assoc]

/-- A piece that goes as far as the transmission shows it. -/
theorem Carries.piece {stream : List ℕ}
    (h : Carries (fun i => stream.getD i 0) message msgbits start amplitude noise) (offset length : ℕ)
    (hoffset : 5 * offset ≤ start) (hlength : transmissionEnd msgbits start ≤ 5 * (offset + length))
    {m : ℕ → ℕ} (hm : ∀ i < length, m i = pieceOf stream offset length i) :
    Carries m message msgbits (start - 5 * offset) amplitude noise := by
  have hshown : ∀ i, 5 * i < transmissionEnd msgbits (start - 5 * offset) →
      m i = stream.getD (offset + i) 0 ∧ 5 * (offset + i) < transmissionEnd msgbits start := by
    intro i hi
    have hend : 5 * (offset + i) < transmissionEnd msgbits start := by
      rw [transmissionEnd] at hi ⊢
      omega
    rw [hm i (by omega), pieceOf, if_pos (by omega)]
    exact ⟨rfl, hend⟩
  refine ⟨fun i hlo hhi => ?_, fun i hlo hhi => ?_, h.margin⟩
  · obtain ⟨hvalue, hend⟩ := hshown i hhi
    rw [hvalue, highTicks_shift hoffset]
    exact h.above _ (by omega) hend
  · obtain ⟨hvalue, hend⟩ := hshown i hhi
    rw [hvalue, highTicks_shift hoffset]
    exact h.below _ (by omega) hend

end

/-! ## Runs -/

def bytesOf (calls : List IqCall) : List UInt8 := calls.flatMap fun call => call.iq

def afterCalls (env : Env) (library : Library) (calls : List IqCall) : Library :=
  after env library (calls.map .process)

/-- A call, `received` bytes having come before, brings the last sample of a
transmission. -/
def Brings (start received : ℕ) (call : IqCall) : Prop :=
  5 * (received / 2) < transmissionEnd 112 start ∧
    transmissionEnd 112 start ≤ 5 * ((received + call.iq.length) / 2)

/-- A call, `received` bytes having come before, decodes a message that starts at
a place of the stream or covers it. -/
def Hears (env : Env) (library : Library) (received : ℕ) (call : IqCall) (place : ℕ) : Prop :=
  ∃ c ∈ candidates env library call, c.Decoded ∧
    received / 2 - library.decoder.readsbTail.length + c.pos ≤ place ∧
    place < received / 2 - library.decoder.readsbTail.length + c.pos + skipMessage c.message

section

variable {env : Env} {fixBits : ℕ} {library : Library} {message : Message}
  {start amplitude noise : ℕ}

theorem holds_nativeProcessIq {before : List UInt8} (h : ReadsbChunks.Holds library.decoder before)
    {call : IqCall} (hmode : call.mode = decoderModeReadsbCore) :
    ReadsbChunks.Holds (nativeProcessIq env library call).1.decoder (before ++ call.iq) := by
  unfold nativeProcessIq
  split
  · next hempty =>
    rw [List.isEmpty_iff.1 hempty, List.append_nil]
    exact h
  · exact h.process (readsbDemodulator env) call.sysTime library.adapter call.toCall

/-- The call that completes a transmission. -/
theorem hears_of_brings (henv : env.tables = modesChecksumInit fixBits)
    (hsquitter : IntactSquitter message) {before after : List UInt8}
    (h : ReadsbChunks.Holds library.decoder before) {call : IqCall}
    (hmode : call.mode = decoderModeReadsbCore) (hstart : 3 ≤ start)
    (hcarries : Carries (fun i => (magnitudes readsbMagnitude (before ++ call.iq ++ after)).getD i 0)
      message 112 start amplitude noise)
    (hbrings : Brings start before.length call) :
    Hears env library before.length call ((start - 3) / 5) := by
  obtain ⟨hopen, hdone⟩ := hbrings
  have hcount := pairCount_leftover before call.iq
  rw [← h.1] at hcount
  have htail := h.tail_length
  have hcapacity : readsbMagTailSize = 512 := rfl
  have hend : transmissionEnd 112 start = start + 1440 := rfl
  have hnew : pairCount library.decoder.pendingIqByte call.iq ≠ 0 := by omega
  have hsome : call.iq.isEmpty = false := by
    rw [← Bool.not_eq_true, List.isEmpty_iff]
    intro hnil
    rw [hnil, List.length_nil] at hdone
    omega
  have hbuffer : Carries (fun i => (readsbBuffer library.decoder call.toCall).getD i 0) message 112
      (start - 5 * (before.length / 2 - library.decoder.readsbTail.length)) amplitude noise :=
    Carries.piece hcarries _
      (library.decoder.readsbTail.length + pairCount library.decoder.pendingIqByte call.iq)
      (by omega) (by omega) fun i hi => readsbBuffer_getD h hnew after (Nat.lt_add_right _ hi)
  have hcandidates : candidates env library call = (demodulate2400 env sliceAt
      (fun i => (readsbBuffer library.decoder call.toCall).getD i 0)
      (library.decoder.readsbTail.length + pairCount library.decoder.pendingIqByte call.iq)
      (library.decoder.readsbTail.length + pairCount library.decoder.pendingIqByte call.iq) 0
      library.adapter.init.filter).2 := by
    rw [candidates, if_neg (by simp [hsome, hmode, hnew])]
  obtain ⟨c, hc, hdecoded, hlo, hhi⟩ :=
    hcandidates ▸ demodulate2400_finds henv hsquitter hbuffer (by omega) (by omega) (le_refl _)
  exact ⟨c, hc, hdecoded, by omega, by omega⟩

/-- The calls go on until the transmission is complete. -/
theorem exists_hears (henv : env.tables = modesChecksumInit fixBits) (hsquitter : IntactSquitter message)
    (hstart : 3 ≤ start) (calls : List IqCall)
    (hmode : ∀ call ∈ calls, call.mode = decoderModeReadsbCore) {before : List UInt8}
    (h : ReadsbChunks.Holds library.decoder before)
    (hcarries : Carries (fun i => (magnitudes readsbMagnitude (before ++ bytesOf calls)).getD i 0)
      message 112 start amplitude noise)
    (hopen : 5 * (before.length / 2) < transmissionEnd 112 start)
    (hdone : transmissionEnd 112 start ≤ 5 * ((before.length + (bytesOf calls).length) / 2)) :
    ∃ earlier call later, calls = earlier ++ call :: later ∧
      Brings start (before.length + (bytesOf earlier).length) call ∧
      Hears env (afterCalls env library earlier) (before.length + (bytesOf earlier).length) call
        ((start - 3) / 5) := by
  induction calls generalizing library before with
  | nil =>
    rw [bytesOf, List.flatMap_nil, List.length_nil] at hdone
    omega
  | cons call rest ih =>
    have hcall := hmode call List.mem_cons_self
    have hbytes : before ++ bytesOf (call :: rest) = before ++ call.iq ++ bytesOf rest := by
      rw [bytesOf, List.flatMap_cons, List.append_assoc]
      rfl
    have hlength : before.length + (bytesOf (call :: rest)).length =
        (before ++ call.iq).length + (bytesOf rest).length := by
      rw [← List.length_append, hbytes, List.length_append]
    rw [hbytes] at hcarries
    rw [hlength] at hdone
    by_cases hnow : transmissionEnd 112 start ≤ 5 * ((before.length + call.iq.length) / 2)
    · have hbrings : Brings start before.length call := ⟨hopen, hnow⟩
      exact ⟨[], call, rest, rfl, hbrings,
        hears_of_brings henv hsquitter h hcall hstart hcarries hbrings⟩
    · rw [← List.length_append] at hnow
      obtain ⟨earlier, later, after, rfl, hbrings, hhears⟩ :=
        ih (fun c hc => hmode c (List.mem_cons_of_mem _ hc)) (holds_nativeProcessIq h hcall) hcarries
          (by omega) hdone
      have hsame : before.length + (bytesOf (call :: earlier)).length =
          (before ++ call.iq).length + (bytesOf earlier).length := by
        rw [bytesOf, List.flatMap_cons, List.length_append, List.length_append, ← Nat.add_assoc]
        rfl
      refine ⟨call :: earlier, later, after, rfl, ?_⟩
      rw [hsame]
      exact ⟨hbrings, hhears⟩

/-- **A squitter in the stream is heard**, however the stream comes in: the call
that completes it decodes it, or a message that covers its start. -/
theorem squitter_heard (henv : env.tables = modesChecksumInit fixBits)
    (hsquitter : IntactSquitter message) (hstart : 3 ≤ start) (calls : List IqCall)
    (hmode : ∀ call ∈ calls, call.mode = decoderModeReadsbCore)
    (hcarries : Carries (fun i => (magnitudes readsbMagnitude (bytesOf calls)).getD i 0)
      message 112 start amplitude noise)
    (hdone : transmissionEnd 112 start ≤ 5 * ((bytesOf calls).length / 2)) :
    ∃ earlier call later, calls = earlier ++ call :: later ∧
      Brings start (bytesOf earlier).length call ∧
      Hears env (afterCalls env {} earlier) (bytesOf earlier).length call ((start - 3) / 5) := by
  have hholds : ReadsbChunks.Holds ({} : Library).decoder [] := ⟨rfl, rfl⟩
  have hend : transmissionEnd 112 start = start + 1440 := rfl
  have hheard := exists_hears henv hsquitter hstart calls hmode hholds
    (by rwa [List.nil_append]) (by rw [List.length_nil]; omega)
    (by rwa [List.length_nil, Nat.zero_add])
  simpa only [List.length_nil, Nat.zero_add] using hheard

end

/-! ## A transmission in two calls -/

theorem highTicks_le (message : Message) (msgbits start i : ℕ) :
    highTicks message msgbits start i ≤ 5 := by
  have htick : ∀ t, tickHigh message msgbits start t ≤ 1 := by
    intro t
    rw [tickHigh]
    split
    · exact le_refl 1
    · exact Nat.zero_le 1
  rw [highTicks]
  have h₀ := htick (5 * i)
  have h₁ := htick (5 * i + 1)
  have h₂ := htick (5 * i + 2)
  have h₃ := htick (5 * i + 3)
  have h₄ := htick (5 * i + 4)
  omega

/-- What an antenna with the phase of its carrier at zero receives. -/
def antenna (message : Message) (start n : ℕ) : List UInt8 :=
  (List.range n).flatMap fun i => [UInt8.ofNat (127 + 20 * highTicks message 112 start i), 127]

theorem magnitudes_pairs (magnitude : UInt8 → UInt8 → ℕ) (wave : ℕ → UInt8) (is : List ℕ) :
    magnitudes magnitude (is.flatMap fun i => [wave i, 127]) =
      is.map fun i => magnitude (wave i) 127 := by
  induction is with
  | nil => rfl
  | cons i is ih =>
    rw [List.flatMap_cons, List.map_cons, ← ih]
    rfl

theorem power_antenna : ∀ ticks ≤ 5, power (UInt8.ofNat (127 + 20 * ticks)) 127 * 364 ^ 2 =
    7280 * ticks * (7280 * ticks) := by
  decide

theorem readsbMagnitude_antenna {ticks : ℕ} (h : ticks ≤ 5) :
    readsbMagnitude (UInt8.ofNat (127 + 20 * ticks)) 127 = 7280 * ticks := by
  rw [readsbMagnitude, power_antenna ticks h, Nat.sqrt_eq]
  exact Nat.min_eq_right (by omega)

theorem length_antenna (message : Message) (start n : ℕ) :
    (antenna message start n).length = 2 * n := by
  have hlen : ∀ is : List ℕ, (is.flatMap fun i =>
      [UInt8.ofNat (127 + 20 * highTicks message 112 start i), 127]).length = 2 * is.length := by
    intro is
    induction is with
    | nil => rfl
    | cons i is ih =>
      rw [List.flatMap_cons, List.length_append, ih]
      simp only [List.length_cons, List.length_nil]
      omega
  rw [antenna, hlen, List.length_range]

theorem carries_antenna (message : Message) {start n : ℕ} (hn : transmissionEnd 112 start ≤ 5 * n) :
    Carries (fun i => (magnitudes readsbMagnitude (antenna message start n)).getD i 0) message 112
      start 7280 0 := by
  have hvalue : ∀ i < n, (magnitudes readsbMagnitude (antenna message start n)).getD i 0 =
      7280 * highTicks message 112 start i := by
    intro i hi
    have hget : (magnitudes readsbMagnitude (antenna message start n)).getD i 0 =
        readsbMagnitude (UInt8.ofNat (127 + 20 * highTicks message 112 start i)) 127 := by
      rw [antenna, magnitudes_pairs, List.getD_eq_getElem?_getD, List.getElem?_map,
        List.getElem?_range hi, Option.map_some, Option.getD_some]
    rw [hget, readsbMagnitude_antenna (highTicks_le _ _ _ _)]
  refine ⟨fun i _ hi => ?_, fun i _ hi => ?_, by decide⟩
  · exact (hvalue i (by omega)).le
  · exact (hvalue i (by omega)).ge

def antennaCall (iq : List UInt8) : IqCall where
  iq := iq
  now _ := ⟨1000, 1000⟩
  mode := decoderModeReadsbCore
  sysTime := 1000

/-- A stream in two calls. -/
def cutCalls (iq : List UInt8) (n : ℕ) : List IqCall :=
  [antennaCall (iq.take n), antennaCall (iq.drop n)]

theorem bytesOf_cutCalls (iq : List UInt8) (n : ℕ) : bytesOf (cutCalls iq n) = iq := by
  simp only [cutCalls, antennaCall, bytesOf, List.flatMap_cons, List.flatMap_nil, List.append_nil]
  exact List.take_append_drop n iq

theorem mode_of_mem_cutCalls {iq : List UInt8} {n : ℕ} {call : IqCall} (h : call ∈ cutCalls iq n) :
    call.mode = decoderModeReadsbCore := by
  simp only [cutCalls, List.mem_cons, List.not_mem_nil, or_false] at h
  rcases h with rfl | rfl <;> rfl

/-- The identification, cut within a sample. -/
theorem antenna_heard : ∃ earlier call later,
    cutCalls (antenna Frame.identification 8 290) 301 = earlier ++ call :: later ∧
      Brings 8 (bytesOf earlier).length call ∧
      Hears repairingEnv (afterCalls repairingEnv {} earlier) (bytesOf earlier).length call 1 := by
  have hsquitter : IntactSquitter Frame.identification := ⟨.inl (by decide), by decide⟩
  have hend : transmissionEnd 112 8 ≤ 5 * 290 := by decide
  refine @squitter_heard repairingEnv 2 Frame.identification 8 7280 0 rfl hsquitter (by omega) _
    (fun call hcall => mode_of_mem_cutCalls hcall) ?_ ?_
  · rw [bytesOf_cutCalls]
    exact carries_antenna _ hend
  · rw [bytesOf_cutCalls, length_antenna]
    exact hend

/-! ## Room for the messages -/

theorem length_saveTail_le (capacity : ℕ) (mag : List ℕ) (magLength : ℕ) :
    (saveTail capacity mag magLength).length ≤ capacity := by
  unfold saveTail
  exact (List.length_take_le _ _).trans (Nat.min_le_left _ _)

/-- No call leaves a longer tail than the buffer for it. -/
theorem length_readsbTail_step (env : Env) {library : Library}
    (h : library.decoder.readsbTail.length ≤ readsbMagTailSize) (e : Event) :
    (library.step env e).decoder.readsbTail.length ≤ readsbMagTailSize := by
  cases e with
  | reset => exact Nat.zero_le _
  | process call =>
    unfold Library.step nativeProcessIq
    simp only
    split
    · exact h
    split
    · unfold processReadsbDemodulator
      simp only
      split
      · exact h
      · exact length_saveTail_le _ _ _
    · exact h

theorem length_readsbTail_after (env : Env) {library : Library}
    (h : library.decoder.readsbTail.length ≤ readsbMagTailSize) (history : List Event) :
    (after env library history).decoder.readsbTail.length ≤ readsbMagTailSize := by
  induction history generalizing library with
  | nil => exact h
  | cons e history ih => exact ih (length_readsbTail_step env h e)

/-- **A call as long as the reader's buffer reports all it decodes**, whatever calls
and resets came before: the block has room for the messages of up to 28928 samples. -/
theorem nativeProcessIq_reports_all (env : Env) (history : List Event) {call : IqCall}
    (hmode : call.mode = decoderModeReadsbCore) (hsize : call.iq.length ≤ 32 * 1024) :
    (nativeProcessIq env (after env {} history) call).2 =
      emit ((((candidates env (after env {} history) call).filterMap Candidate.delivered).foldl
        (handleDecoded call.now) ((after env {} history).decoder.table, [])).2.map
          fun d => d.line) := by
  have htail := @length_readsbTail_after env {} (Nat.zero_le _) history
  generalize after env {} history = library at htail ⊢
  have hcapacity : readsbMagTailSize = 512 := rfl
  have hpairs : pairCount library.decoder.pendingIqByte call.iq ≤ (call.iq.length + 1) / 2 := by
    unfold pairCount
    split <;> omega
  by_cases hempty : call.iq.isEmpty
  · rw [nativeProcessIq, if_pos hempty, candidates, if_pos (.inl hempty)]
    rfl
  · by_cases hnew : pairCount library.decoder.pendingIqByte call.iq = 0
    · have hnone : candidates env library call = [] := by
        rw [candidates, if_pos (.inr (.inr hnew))]
      rw [hnone, nativeProcessIq, if_neg hempty, if_pos hmode, processReadsbDemodulator]
      simp only [if_pos hnew]
      rfl
    · obtain ⟨-, hlines⟩ := nativeProcessIq_readsb env (Bool.not_eq_true _ ▸ hempty) hmode rfl hnew
      have hroom := @length_delivered_le env sliceAt
        (fun i => (readsbBuffer library.decoder call.toCall).getD i 0)
        (library.decoder.readsbTail.length + pairCount library.decoder.pendingIqByte call.iq)
        (library.decoder.readsbTail.length + pairCount library.decoder.pendingIqByte call.iq) 0
        library.adapter.init.filter (by omega)
      rw [hlines, candidates, if_neg (by simp [hempty, hmode, hnew])]
      simp only [readsbBridgeDemodulate2400]
      rw [List.take_of_length_le (by rw [readsbMaxMessagesPerBlock]; omega)]

theorem antenna_reported :
    (nativeProcessIq repairingEnv {} (antennaCall (antenna Frame.identification 8 290))).2 =
      emit ((((candidates repairingEnv {} (antennaCall (antenna Frame.identification 8 290))).filterMap
        Candidate.delivered).foldl (handleDecoded fun _ => ⟨1000, 1000⟩) ({}, [])).2.map
          fun d => d.line) := by
  have hsize : (antenna Frame.identification 8 290).length ≤ 32 * 1024 := by
    rw [length_antenna]
    decide
  exact nativeProcessIq_reports_all repairingEnv [] rfl hsize

end AdsbBridge.Native
