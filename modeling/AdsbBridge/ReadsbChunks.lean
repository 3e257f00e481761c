import AdsbBridge.Native.Decoder

/-! # Cutting the stream, READSB_CORE

`process_readsb_demodulator` puts the last 512 samples of the previous buffer
in front of the new ones and hands all of it to the demodulator as one buffer,
so the demodulator may start messages in these 512 again. The demodulator is
any left-to-right scan that decides at a position from the 512 samples
beginning there. -/
namespace AdsbBridge.ReadsbChunks
open AdsbBridge.Lib AdsbBridge.Iq AdsbBridge.Native AdsbBridge.Readsb

/-- A decision about a window of samples: a message, and how many samples
after its start the scan skips. -/
abbrev Decision := List ℕ → Option (ReadsbBridgeMessage × ℕ)

def windowSize : ℕ := 512

def maxMessagesPerBlock : ℕ := 256

/-- The samples a decision at `pa` is made from. -/
def window (mag : ℕ → ℕ) (pa : ℕ) : List ℕ := (List.range windowSize).map fun i => mag (pa + i)

/-- The demodulator that scans a buffer with a decision; the adapter drops what
does not fit into a block. -/
def scanning (D : Decision) : Demodulator Unit :=
  fun _ mag length _ _ =>
    ((), (Scan.hits (fun pa => D (window mag pa)) length 0).take maxMessagesPerBlock)

variable (D : Decision)

/-- The start positions in the stream that the calls of a run deliver, call by
call; `received` samples of the stream came before. -/
def deliveredStarts : DecoderState → ℕ → List Call → List (List ℕ)
  | _, _, [] => []
  | decoder, received, call :: rest =>
    let (_, decoder', delivered) := processReadsbDemodulator (scanning D) 0 () decoder call
    delivered.map (fun d => received - decoder.readsbTail.length + d.pos) ::
      deliveredStarts decoder' (received + pairCount decoder.pendingIqByte call.iq) rest

/-- No start position is delivered by two different calls. -/
def DeliveredOnce (calls : List Call) : Prop :=
  (deliveredStarts D {} 0 calls).Pairwise List.Disjoint

/-! ## One call -/

/-- The stream as a block that ends at `stop` shows it: zero from there on. -/
def cutAt (stream : List ℕ) (stop : ℕ) (i : ℕ) : ℕ := if i < stop then stream.getD i 0 else 0

/-- The starts delivered for the block that brings the samples `start` to `stop`. -/
def blockStarts (stream : List ℕ) (start stop : ℕ) : List ℕ :=
  ((Scan.hits (fun pa => D (window (cutAt stream stop) pa)) stop
    (start - readsbMagTailSize)).take maxMessagesPerBlock).map Prod.fst

/-- The samples held are those the bytes received so far leave behind. -/
def Holds (decoder : DecoderState) (bytes : List UInt8) : Prop :=
  decoder.pendingIqByte = Pairs.leftover bytes ∧
    decoder.readsbTail = lastOf readsbMagTailSize (magnitudes readsbMagnitude bytes)

theorem Holds.tail_length {decoder : DecoderState} {bytes : List UInt8} (h : Holds decoder bytes) :
    decoder.readsbTail.length = min readsbMagTailSize (bytes.length / 2) := by
  rw [h.2, length_lastOf, length_magnitudes]

/-- The samples held depend on no demodulator. -/
theorem Holds.process {decoder : DecoderState} {before : List UInt8} (h : Holds decoder before)
    {ρ : Type} (demodulate : Demodulator ρ) (sysTime : ℤ) (readsb : ρ) (call : Call) :
    Holds (processReadsbDemodulator demodulate sysTime readsb decoder call).2.1
      (before ++ call.iq) := by
  have hmags := magnitudes_append readsbMagnitude before call.iq
  rw [← h.1] at hmags
  by_cases hnew : pairCount decoder.pendingIqByte call.iq = 0
  · obtain ⟨hheld, hnil⟩ := holdByte_eq hnew
    simp only [processReadsbDemodulator, if_pos hnew]
    refine ⟨?_, ?_⟩
    · rw [hheld, h.1, ← Pairs.leftover_append]
    · rw [hmags, hnil, List.append_nil]
      exact h.2
  · simp only [processReadsbDemodulator, if_neg hnew,
      writeMagnitudes_eq readsbMagnitude (Nat.pos_of_ne_zero hnew)]
    refine ⟨?_, ?_⟩
    · rw [h.1, ← Pairs.leftover_append]
    · rw [front_length readsbMagnitude, overwrite, List.append_assoc, saveTail_append, h.2,
        lastOf_append_lastOf, hmags]

theorem handleDecoded_foldl (now : ℕ → Clock) (decoded : List (ℕ × ReadsbBridgeMessage))
    (s : Table × List DeliveredMessage) :
    (decoded.foldl (handleDecoded now) s).2.map (fun d => d.pos) =
      s.2.map (fun d => d.pos) ++ decoded.map Prod.fst := by
  induction decoded generalizing s with
  | nil => simp
  | cons d rest ih =>
    rw [List.foldl_cons, ih]
    simp [handleDecoded]

theorem window_congr {mag mag' : ℕ → ℕ} {pa pa' : ℕ}
    (h : ∀ i < windowSize, mag (pa + i) = mag' (pa' + i)) : window mag pa = window mag' pa' :=
  List.map_congr_left fun i hi => h i (List.mem_range.mp hi)

/-- The padded buffer shows the stream up to the end of the block, and zeros
for a window's length behind it. -/
theorem padded_getD (before new after rest : List ℕ) {i : ℕ}
    (h : i < (lastOf readsbMagTailSize before ++ new).length + readsbMagPadding) :
    (overwrite (lastOf readsbMagTailSize before ++ new ++ List.replicate readsbMagPadding 0)
        rest).getD i 0 =
      cutAt (before ++ new ++ after) (before ++ new).length
        (before.length - readsbMagTailSize + i) := by
  have hlen : (lastOf readsbMagTailSize before ++ new).length =
      min readsbMagTailSize before.length + new.length := by
    rw [List.length_append, length_lastOf]
  have hlen' : (before ++ new).length = before.length + new.length := List.length_append
  rw [overwrite_getD (by rw [List.length_append, List.length_replicate]; exact h), cutAt]
  by_cases hi : i < (lastOf readsbMagTailSize before ++ new).length
  · rw [if_pos (by omega), ← lastOf_append_getD readsbMagTailSize before new after hi,
      List.getD_eq_getElem?_getD, List.getElem?_append_left hi, List.getD_eq_getElem?_getD]
  · rw [if_neg (by omega), List.getD_eq_getElem?_getD, List.getElem?_append_right (by omega),
      List.getElem?_replicate]
    split <;> rfl

/-- The scan of a padded buffer, at the positions of the stream it is a piece of. -/
theorem scan_padded (before new after rest : List ℕ) :
    ((Scan.hits (fun pa => D (window (fun i => (overwrite (lastOf readsbMagTailSize before ++ new ++
        List.replicate readsbMagPadding 0) rest).getD i 0) pa))
        (lastOf readsbMagTailSize before ++ new).length 0).take maxMessagesPerBlock).map
        (fun hit => before.length - readsbMagTailSize + hit.1) =
      blockStarts D (before ++ new ++ after) before.length (before ++ new).length := by
  have hlen : (lastOf readsbMagTailSize before ++ new).length =
      min readsbMagTailSize before.length + new.length := by
    rw [List.length_append, length_lastOf]
  have hpad : windowSize = readsbMagPadding := rfl
  have hcongr : Scan.hits (fun pa => D (window (fun i => (overwrite (lastOf readsbMagTailSize
        before ++ new ++ List.replicate readsbMagPadding 0) rest).getD i 0) pa))
        (lastOf readsbMagTailSize before ++ new).length 0 =
      Scan.hits (fun pa => D (window (cutAt (before ++ new ++ after) (before ++ new).length)
        (before.length - readsbMagTailSize + pa)))
        (lastOf readsbMagTailSize before ++ new).length 0 := by
    refine Scan.hits_congr fun pa _ hpa => congrArg D (window_congr fun i hi => ?_)
    rw [padded_getD before new after rest (by omega), Nat.add_assoc]
  have hshift := Scan.hits_shift
    (fun pa => D (window (cutAt (before ++ new ++ after) (before ++ new).length) pa))
    (before.length - readsbMagTailSize) (lastOf readsbMagTailSize before ++ new).length 0
  rw [show before.length - readsbMagTailSize + (lastOf readsbMagTailSize before ++ new).length =
    (before ++ new).length by rw [hlen, List.length_append]; omega, Nat.add_zero] at hshift
  rw [hcongr, blockStarts, ← hshift, ← List.map_take, List.map_map]
  rfl

/-- What one call does to the samples held, and which starts it delivers. -/
theorem process_spec {decoder : DecoderState} {before : List UInt8} (h : Holds decoder before)
    (call : Call) (after : List UInt8) :
    Holds (processReadsbDemodulator (scanning D) 0 () decoder call).2.1 (before ++ call.iq) ∧
      (processReadsbDemodulator (scanning D) 0 () decoder call).2.2.map
          (fun d => before.length / 2 - decoder.readsbTail.length + d.pos) =
        if before.length / 2 < (before.length + call.iq.length) / 2 then
          blockStarts D (magnitudes readsbMagnitude (before ++ call.iq ++ after))
            (before.length / 2) ((before.length + call.iq.length) / 2)
        else [] := by
  have hcount := pairCount_leftover before call.iq
  rw [← h.1] at hcount
  have hmags := magnitudes_append readsbMagnitude before call.iq
  rw [← h.1] at hmags
  refine ⟨h.process (scanning D) 0 () call, ?_⟩
  by_cases hnew : pairCount decoder.pendingIqByte call.iq = 0
  · rw [processReadsbDemodulator, if_neg (show ¬ before.length / 2 <
      (before.length + call.iq.length) / 2 by omega)]
    simp only [if_pos hnew]
    rfl
  · have hpos := Nat.pos_of_ne_zero hnew
    simp only [processReadsbDemodulator, if_neg hnew, writeMagnitudes_eq readsbMagnitude hpos,
      scanning]
    rw [front_length readsbMagnitude]
    have hscan := scan_padded D (magnitudes readsbMagnitude before)
      (magnitudes readsbMagnitude (decoder.pendingIqByte.toList ++ call.iq))
      (magnitudes readsbMagnitude ((Pairs.leftover (before ++ call.iq)).toList ++ after))
      decoder.readsbMag
    rw [← hmags, ← magnitudes_append, ← h.2, length_magnitudes, length_magnitudes] at hscan
    have hbase : before.length / 2 - decoder.readsbTail.length =
        before.length / 2 - readsbMagTailSize := by
      rw [h.tail_length]
      omega
    have hmap : ∀ l : List DeliveredMessage,
        l.map (fun d => before.length / 2 - decoder.readsbTail.length + d.pos) =
          (l.map fun d => d.pos).map (before.length / 2 - readsbMagTailSize + ·) := by
      intro l
      rw [hbase, List.map_map]
      rfl
    rw [if_pos (by omega), ← List.length_append, ← hscan, hmap, handleDecoded_foldl,
      List.map_nil, List.nil_append, List.map_map]
    rfl

/-! ## Runs -/

/-- The starts the calls of a run deliver, `bytes` having been received before. -/
def runStarts (stream : List ℕ) : ℕ → List Call → List (List ℕ)
  | _, [] => []
  | bytes, call :: rest =>
    (if bytes / 2 < (bytes + call.iq.length) / 2 then
      blockStarts D stream (bytes / 2) ((bytes + call.iq.length) / 2) else []) ::
      runStarts stream (bytes + call.iq.length) rest

/-- **A run delivers, call by call, what scanning its blocks delivers.** -/
theorem deliveredStarts_eq (calls : List Call) {decoder : DecoderState} {before : List UInt8}
    (h : Holds decoder before) :
    deliveredStarts D decoder (before.length / 2) calls =
      runStarts D (magnitudes readsbMagnitude (before ++ FrontEnd.streamOf calls)) before.length
        calls := by
  induction calls generalizing decoder before with
  | nil => rfl
  | cons call rest ih =>
    obtain ⟨hheld, hstarts⟩ := process_spec D h call (FrontEnd.streamOf rest)
    have hrest := ih hheld
    have hcount := pairCount_leftover before call.iq
    rw [← h.1] at hcount
    have hstream : before ++ FrontEnd.streamOf (call :: rest) =
        before ++ call.iq ++ FrontEnd.streamOf rest := by
      simp [FrontEnd.streamOf]
    rw [List.length_append] at hrest
    rw [deliveredStarts, runStarts, hstream]
    simp only
    rw [hcount, hrest, hstarts]

/-! ## Two blocks of one stream -/

/-- The blocks of a run: the samples each call adds, if any. -/
def blocks : ℕ → List Call → List (ℕ × ℕ)
  | _, [] => []
  | bytes, call :: rest =>
    if bytes / 2 < (bytes + call.iq.length) / 2 then
      (bytes / 2, (bytes + call.iq.length) / 2) :: blocks (bytes + call.iq.length) rest
    else blocks (bytes + call.iq.length) rest

theorem blocks_cons {bytes : ℕ} {calls : List Call} {b : ℕ × ℕ} {bs : List (ℕ × ℕ)}
    (h : blocks bytes calls = b :: bs) :
    b.1 = bytes / 2 ∧ b.1 < b.2 ∧ ∃ bytes' calls', b.2 = bytes' / 2 ∧ bs = blocks bytes' calls' := by
  induction calls generalizing bytes with
  | nil => cases h
  | cons call rest ih =>
    rw [blocks] at h
    split at h
    · next hnew =>
      obtain ⟨rfl, rfl⟩ := List.cons.inj h
      exact ⟨rfl, hnew, _, rest, rfl, rfl⟩
    · next hold =>
      obtain ⟨h₁, h₂, h₃⟩ := ih h
      exact ⟨by omega, h₂, h₃⟩

theorem pairwise_runStarts (stream : List ℕ) (bytes : ℕ) (calls : List Call) :
    (runStarts D stream bytes calls).Pairwise List.Disjoint ↔
      (blocks bytes calls).Pairwise fun b b' =>
        (blockStarts D stream b.1 b.2).Disjoint (blockStarts D stream b'.1 b'.2) := by
  -- a call that adds no sample delivers nothing, and nothing is disjoint from everything
  have hmem : ∀ (starts : List ℕ) (bytes : ℕ) (calls : List Call),
      (∀ x ∈ runStarts D stream bytes calls, starts.Disjoint x) ↔
        ∀ b ∈ blocks bytes calls, starts.Disjoint (blockStarts D stream b.1 b.2) := by
    intro starts bytes calls
    induction calls generalizing bytes with
    | nil => simp [runStarts, blocks]
    | cons call rest ih =>
      rw [runStarts, blocks]
      split
      · rw [List.forall_mem_cons, List.forall_mem_cons, ih]
      · rw [List.forall_mem_cons, ih]
        simp
  induction calls generalizing bytes with
  | nil => simp [runStarts, blocks]
  | cons call rest ih =>
    rw [runStarts, blocks]
    split
    · rw [List.pairwise_cons, List.pairwise_cons, hmem]
      exact and_congr_right fun _ => ih _
    · rw [List.pairwise_cons]
      exact (and_iff_right (by simp)).trans (ih _)

def samplesOf (calls : List Call) : List ℕ :=
  magnitudes readsbMagnitude (FrontEnd.streamOf calls)

theorem deliveredOnce_iff (calls : List Call) :
    DeliveredOnce D calls ↔
      (blocks 0 calls).Pairwise fun b b' =>
        (blockStarts D (samplesOf calls) b.1 b.2).Disjoint
          (blockStarts D (samplesOf calls) b'.1 b'.2) := by
  have hfresh : Holds {} [] := ⟨rfl, rfl⟩
  rw [DeliveredOnce, ← pairwise_runStarts]
  have := deliveredStarts_eq D calls hfresh
  rw [List.nil_append] at this
  exact Iff.of_eq (congrArg _ this)

theorem mem_blockStarts {stream : List ℕ} {start stop p : ℕ}
    (h : p ∈ blockStarts D stream start stop) :
    start - readsbMagTailSize ≤ p ∧ p < stop ∧ D (window (cutAt stream stop) p) ≠ none := by
  obtain ⟨⟨q, m⟩, hq, rfl⟩ := List.mem_map.mp h
  obtain ⟨h₁, h₂, skip, h₃⟩ := Scan.mem_hits (List.mem_of_mem_take hq)
  exact ⟨h₁, h₂, by simp [h₃]⟩

/-- Two blocks agree on the samples the later one sees again: none of them is
taken for a message start in both. -/
def Agree (stream : List ℕ) (b b' : ℕ × ℕ) : Prop :=
  ∀ p, b'.1 - readsbMagTailSize ≤ p → p < b.2 →
    D (window (cutAt stream b.2) p) = none ∨ D (window (cutAt stream b'.2) p) = none

/-- A decision that accepts everywhere and skips `skip` samples. -/
def everywhere (skip : ℕ) : Decision := fun _ => some ({ addr := 1 }, skip)

theorem hits_everywhere (stream : List ℕ) (skip : ℕ) {limit pos : ℕ} (h : pos < limit) :
    Scan.hits (fun pa => everywhere skip (window (cutAt stream limit) pa)) limit pos =
      (pos, { addr := 1 }) ::
        Scan.hits (fun pa => everywhere skip (window (cutAt stream limit) pa)) limit
          (pos + 1 + skip) := by
  rw [Scan.hits, if_pos h]
  rfl

theorem head_mem_everywhere (stream : List ℕ) {start stop : ℕ} (skip : ℕ)
    (h : start - readsbMagTailSize < stop) :
    start - readsbMagTailSize ∈ blockStarts (everywhere skip) stream start stop := by
  rw [blockStarts, hits_everywhere stream skip h, maxMessagesPerBlock]
  simp

theorem next_mem_everywhere (stream : List ℕ) {p stop : ℕ} (h : p < stop) :
    p ∈ blockStarts (everywhere (p - 1)) stream 0 stop := by
  by_cases hp : p = 0
  · subst hp
    exact head_mem_everywhere stream _ h
  · have hskip : 0 + 1 + (p - 1) = p := by omega
    rw [blockStarts, Nat.zero_sub, hits_everywhere stream _ (by omega), hskip,
      hits_everywhere stream _ h, maxMessagesPerBlock]
    simp

/-- **When a start is delivered once.** Every demodulator delivers each start of
a stream in one call only, exactly when no more than one call completes an IQ
pair; and a given one does so in every run in which no sample that comes back
is taken for a start both before and after. -/
theorem deliveredOnce_characterised (calls : List Call) :
    ((∀ D, DeliveredOnce D calls) ↔ (blocks 0 calls).length ≤ 1) ∧
      ∀ D, (blocks 0 calls).Pairwise (Agree D (samplesOf calls)) → DeliveredOnce D calls := by
  refine ⟨⟨?_, ?_⟩, ?_⟩
  · intro h
    match hb : blocks 0 calls with
    | [] => simp
    | [_] => simp
    | b :: b' :: bs =>
      -- both blocks hold the first sample that comes back
      obtain ⟨hstart, hlt, bytes', calls', hstop, hrest⟩ := blocks_cons hb
      obtain ⟨hstart', hlt', -⟩ := blocks_cons hrest.symm
      have hd := h (everywhere (b'.1 - readsbMagTailSize - 1))
      rw [deliveredOnce_iff, hb, List.pairwise_cons] at hd
      have hdisj := hd.1 b' (List.mem_cons_self ..)
      have hback : b'.1 - readsbMagTailSize < b.2 := by
        rw [hstart', ← hstop, readsbMagTailSize]
        omega
      have hmem := next_mem_everywhere (samplesOf calls) hback
      rw [show b.1 = 0 from hstart] at hdisj
      exact absurd (head_mem_everywhere (samplesOf calls) _ (by omega)) (hdisj hmem)
  · intro h D
    rw [deliveredOnce_iff]
    match hb : blocks 0 calls, h with
    | [], _ => exact List.Pairwise.nil
    | [b], _ => exact List.pairwise_singleton _ b
  · intro D h
    rw [deliveredOnce_iff]
    refine h.imp ?_
    intro b b' hagree p hp hp'
    obtain ⟨-, hlt, hne⟩ := mem_blockStarts D hp
    obtain ⟨hge, -, hne'⟩ := mem_blockStarts D hp'
    rcases hagree p hge hlt with hn | hn
    · exact hne hn
    · exact hne' hn

/-! ## A transmission that is delivered twice -/

/-- Accepts where a sample is loud, and skips a transmission's 299 other samples. -/
def loudStart : Decision := fun samples =>
  if samples.headD 0 > 1000 then some ({ addr := 0x4840d6 }, 299) else none

/-- One transmission of 300 samples in a call, and a silent sample in the next. -/
def cutBehindTransmission : List Call :=
  [⟨[255, 127] ++ (List.replicate 299 [127, 127]).flatten, fun _ => ⟨1000, 1000⟩⟩,
    ⟨[127, 127], fun _ => ⟨1000, 1000⟩⟩]

theorem cutBehindTransmission_blocks :
    blocks 0 cutBehindTransmission = [(0, 300), (300, 301)] := by
  decide +kernel

theorem loudStart_zero {stop : ℕ} (h : 0 < stop) :
    loudStart (window (cutAt (samplesOf cutBehindTransmission) stop) 0) =
      some ({ addr := 0x4840d6 }, 299) := by
  have hloud : (samplesOf cutBehindTransmission).getD 0 0 > 1000 := by decide +kernel
  have hhead : (window (cutAt (samplesOf cutBehindTransmission) stop) 0).headD 0 =
      (samplesOf cutBehindTransmission).getD 0 0 := by
    rw [window, windowSize, List.range_succ_eq_map, List.map_cons, List.headD_cons, cutAt, if_pos h]
  rw [loudStart, hhead, if_pos hloud]

theorem zero_mem_loudStart {start stop : ℕ} (hstart : start ≤ readsbMagTailSize) (h : 0 < stop) :
    0 ∈ blockStarts loudStart (samplesOf cutBehindTransmission) start stop := by
  rw [blockStarts, Nat.sub_eq_zero_of_le hstart, Scan.hits, if_pos h, loudStart_zero h,
    maxMessagesPerBlock]
  simp

/-- The transmission at the start of the stream is delivered by both calls. -/
theorem cutBehindTransmission_delivered_twice :
    ¬ DeliveredOnce loudStart cutBehindTransmission := by
  rw [deliveredOnce_iff, cutBehindTransmission_blocks, List.pairwise_cons]
  intro h
  have hdisjoint := h.1 (300, 301) (List.mem_cons_self ..)
  exact hdisjoint (zero_mem_loudStart (by decide) (by decide))
    (zero_mem_loudStart (by decide) (by decide))

end AdsbBridge.ReadsbChunks
