import AdsbBridge.Native.Library

/-! # What a reset forgets

`nativeReset` replaces the decoder's state by a new one. The addresses that the
adapter remembers survive: `readsb_bridge_init` does nothing from its second
call on, so `icaoFilterInit` runs once in the life of the library. A history
leaves a trace exactly if one of its READSB_CORE calls decodes an error-free
squitter or all-call reply with an address. -/
namespace AdsbBridge.Native
open AdsbBridge.Lib AdsbBridge.Readsb AdsbBridge.Iq

section

variable {env : Env}

/-- The next event brings no address into the memory. -/
def RegistersNone (env : Env) (library : Library) : Event → Prop
  | .reset => True
  | .process call => ∀ c ∈ candidates env library call, ¬ Registers c.message

/-- A call leaves the adapter alone, or it is a scan from the adapter's memory. -/
theorem nativeProcessIq_adapter (env : Env) (library : Library) (call : IqCall) :
    ((nativeProcessIq env library call).1.adapter = library.adapter ∧
        candidates env library call = []) ∨
      ∃ m length,
        (nativeProcessIq env library call).1.adapter =
          { library.adapter.init with
            filter := (demodulate2400 env sliceAt m length length 0
              library.adapter.init.filter).1 } ∧
        candidates env library call =
          (demodulate2400 env sliceAt m length length 0 library.adapter.init.filter).2 := by
  by_cases hempty : call.iq.isEmpty
  · exact .inl (by simp [nativeProcessIq, candidates, hempty])
  by_cases hmode : call.mode = decoderModeReadsbCore
  · by_cases hpairs : pairCount library.decoder.pendingIqByte call.iq = 0
    · exact .inl (by
        simp [nativeProcessIq, candidates, hempty, hmode, hpairs, processReadsbDemodulator])
    · have hscan := (nativeProcessIq_readsb env (Bool.eq_false_iff.2 hempty) hmode rfl hpairs).1
      exact .inr ⟨_, _, hscan, if_neg (by simp [hempty, hmode, hpairs])⟩
  · exact .inl (by simp [nativeProcessIq, candidates, hempty, hmode])

theorem init_of_initialized (filter : IcaoFilter) :
    (⟨true, filter⟩ : Adapter).init = ⟨true, filter⟩ := rfl

theorem initialized_init (adapter : Adapter) : adapter.init.initialized = true := by
  unfold Adapter.init
  split
  · assumption
  · rfl

/-- Before the first address is remembered. -/
def Blank (library : Library) : Prop := library.adapter.filter = icaoFilterInit

theorem Blank.init {library : Library} (h : Blank library) :
    library.adapter.init = { initialized := true } := by
  unfold Blank at h
  unfold Adapter.init
  split
  · next hinit =>
    obtain ⟨⟨initialized, filter⟩, decoder⟩ := library
    cases h
    cases hinit
    rfl
  · rfl

/-- Something is remembered, and no initialization will wipe it out. -/
def Marked (library : Library) : Prop :=
  library.adapter.initialized = true ∧ library.adapter.filter.Remembers

theorem Marked.init {library : Library} (h : Marked library) :
    library.adapter.init = library.adapter := if_pos h.1

theorem Blank.step {library : Library} {event : Event} (h : Blank library)
    (hnone : RegistersNone env library event) : Blank (Library.step env library event) := by
  cases event with
  | reset => exact congrArg Adapter.filter h.init
  | process call =>
    rcases nativeProcessIq_adapter env library call with ⟨hkeep, -⟩ | ⟨m, length, hscan, hc⟩
    · exact (congrArg Adapter.filter hkeep).trans h
    · refine (congrArg Adapter.filter hscan).trans ?_
      rw [RegistersNone, hc] at hnone
      rw [demodulate2400_filter hnone, h.init]

theorem Blank.fall {library : Library} {event : Event} (hsome : ¬ RegistersNone env library event) :
    Marked (Library.step env library event) := by
  cases event with
  | reset => exact absurd trivial hsome
  | process call =>
    have hreg : ∃ c ∈ candidates env library call, Registers c.message := by
      by_contra hno
      exact hsome fun c hc hr => hno ⟨c, hc, hr⟩
    rcases nativeProcessIq_adapter env library call with ⟨-, hc⟩ | ⟨m, length, hscan, hc⟩
    · rw [hc] at hreg
      obtain ⟨c, hmem, -⟩ := hreg
      cases hmem
    · rw [hc] at hreg
      refine ⟨(congrArg Adapter.initialized hscan).trans (initialized_init _), ?_⟩
      show (nativeProcessIq env library call).1.adapter.filter.Remembers
      rw [hscan]
      exact remembers_of_candidate hreg

theorem Marked.step {library : Library} {event : Event} (h : Marked library) :
    Marked (Library.step env library event) := by
  cases event with
  | reset =>
    show library.adapter.init.initialized = true ∧ library.adapter.init.filter.Remembers
    rw [h.init]
    exact h
  | process call =>
    rcases nativeProcessIq_adapter env library call with ⟨hkeep, -⟩ | ⟨m, length, hscan, -⟩
    · exact ⟨(congrArg Adapter.initialized hkeep).trans h.1, hkeep ▸ h.2⟩
    · refine ⟨(congrArg Adapter.initialized hscan).trans (initialized_init _), ?_⟩
      show (nativeProcessIq env library call).1.adapter.filter.Remembers
      rw [hscan, h.init]
      exact remembers_demodulate2400 h.2

/-! ## Histories -/

theorem exec_step (library : Library) (history : List Event) :
    Trace.exec (fun l e => some (Library.step env l e)) library history =
      some (after env library history) := by
  induction history generalizing library with
  | nil => rfl
  | cons event history ih => exact ih (Library.step env library event)

/-- No READSB_CORE call of the history brings an address into the memory. -/
def Unheard (env : Env) (history : List Event) : Prop :=
  Trace.Along (fun l e => some (Library.step env l e)) (RegistersNone env) {} history

theorem blank_or_marked (env : Env) (history : List Event) :
    (Unheard env history ∧ Blank (after env {} history)) ∨
      (¬ Unheard env history ∧ Marked (after env {} history)) := by
  refine Trace.exec_dichotomy ?_ ?_ ?_ rfl (exec_step {} history)
  · rintro s e s' hs hp ⟨⟩
    exact hs.step hp
  · rintro s e s' - hp ⟨⟩
    exact Blank.fall hp
  · rintro s e s' hs ⟨⟩
    exact hs.step

/-- **When a reset makes the library new.** -/
theorem nativeReset_eq_iff (history : List Event) :
    nativeReset (after env {} history) = nativeReset {} ↔ Unheard env history := by
  rcases blank_or_marked env history with ⟨hunheard, hblank⟩ | ⟨hheard, hmarked⟩
  · refine iff_of_true ?_ hunheard
    unfold nativeReset
    have hnew : ({} : Library).adapter.init = { initialized := true } := rfl
    rw [hblank.init, hnew]
  · refine iff_of_false (fun heq => ?_) hheard
    have hfilter : (after env {} history).adapter.filter = icaoFilterInit := by
      rw [← hmarked.init]
      exact congrArg (fun l : Library => l.adapter.filter) heq
    exact IcaoFilter.not_remembers_icaoFilterInit (hfilter ▸ hmarked.2)

/-- **After such a history and a reset every sequence of calls returns what it
returns in a new library.** -/
theorem linesOf_reset (env : Env) (history : List Event) (h : Unheard env history)
    (calls : List IqCall) :
    linesOf env (nativeReset (after env {} history)) calls = linesOf env (nativeReset {}) calls := by
  rw [(nativeReset_eq_iff history).2 h]

end

/-! ## One transmission, twice

An altitude reply of an aircraft and its identification. Before the reset the
reply is dropped, since nobody knows the address; after it the reply counts. -/

/-- The samples of a bit that its correlator reads as that bit, whatever follows:
128 is loud, the others are quiet. -/
def bitSamples (phase : ℕ) (bit : Bool) : List ℕ :=
  match phase with
  | 0 | 1 => if bit then [128, 90] else [90, 128]
  | 2 => if bit then [128, 128] else [90, 72]
  | _ => if bit then [128, 128, 90] else [90, 90, 128]

/-- The samples of the bytes of a message from a phase on. -/
def burst : ℕ → List UInt8 → List ℕ
  | _, [] => []
  | phase, byte :: bytes =>
    let (steps, next, _) := sliceSteps phase
    (List.range 8).flatMap (fun k =>
      bitSamples (steps.getD k (0, 0)).1 (byte.toNat.testBit (7 - k))) ++ burst next bytes

/-- A preamble after which only phase 8 is tried. -/
def preamble : List ℕ := [0, 128, 128, 0, 0, 0, 0, 0, 0, 0, 0, 0, 128, 0, 0, 0, 128, 0, 0, 90]

/-- DF4, 38000 ft; the parity is overlaid with the address 4840D6. -/
def altitudeReply : Message := #v[0x20, 0x00, 0x18, 0x38, 0x59, 0xc3, 0x8d, 0, 0, 0, 0, 0, 0, 0]

/-- DF17 of 4840D6. -/
def identification : Message :=
  #v[0x8d, 0x48, 0x40, 0xd6, 0x23, 0x2c, 0xc3, 0x71, 0xc3, 0x2c, 0xe0, 0xcc, 0x1b, 0x88]

def transmission : List ℕ :=
  preamble ++ burst 3 (altitudeReply.toList.take 7) ++ preamble ++ burst 3 identification.toList ++
    List.replicate 8 90

def transmissionCall : IqCall where
  iq := transmission.flatMap fun a => [UInt8.ofNat (127 + a), 127]
  now _ := ⟨1000, 1000⟩
  mode := decoderModeReadsbCore
  sysTime := 1000

def transmissionMag (i : ℕ) : ℕ := (readsbBuffer {} transmissionCall.toCall).getD i 0

theorem sliceAt_transmission : ∀ pa < 452, sliceAt transmissionMag pa =
    if pa = 0 then [altitudeReply] else if pa = 155 then [identification] else [] := by
  decide +kernel

section

variable {env : Env} {filter : IcaoFilter}

theorem score_altitudeReply (env : Env) (filter : IcaoFilter) :
    scoreModesMessage env filter altitudeReply 56 = if filter.test 0x4840d6 then 1000 else -1 := by
  have htype : getbits (msg altitudeReply) 1 5 = 4 := by decide
  have hcrc : modesChecksum (msg altitudeReply) 56 = 0x4840d6 := by decide
  have hzeros : allZeros altitudeReply = false := by decide
  simp [scoreModesMessage, htype, modesMessageLenByType, hzeros, hcrc, scoreByType]

def decodedReply : ModesMessage :=
  { msgtype := 4, addr := 0x4840d6, baroAlt := some (38000, .feet) }

theorem decode_altitudeReply (env : Env) (h : filter.test 0x4840d6 = true) :
    decodeModesMessage env filter altitudeReply = (.ok decodedReply, filter) := by
  have htype : getbits (msg altitudeReply) 1 5 = 4 := by decide
  have hcrc : modesChecksum (msg altitudeReply) 56 = 0x4840d6 := by decide
  have hzeros : allZeros altitudeReply = false := by decide
  have hac : validAltitude (decodeAC13Field (getbits (msg altitudeReply) 20 32)) =
      some (38000, .feet) := by decide
  have hne : getbits (msg altitudeReply) 20 32 ≠ 0 := by decide
  simp [decodeModesMessage, checkMessage, htype, fixDF17msgtype, modesMessageLenByType, hzeros, hcrc,
    checkCrc, h, Except.map, decodeBulk, hac, hne, adds, decodedReply]

def decodedIdentification : ModesMessage :=
  decodeESIdentAndCategory 4 (me identification) (squitterHeader identification)

theorem decode_identification (env : Env) (filter : IcaoFilter) :
    decodeModesMessage env filter identification =
      (.ok decodedIdentification, filter.add 0x4840d6) := by
  have hsum : Frame.validChecksum identification := by decide
  have hreg : Registers identification := by decide
  have haddr : getbits (msg identification) 9 32 = 0x4840d6 := by decide
  have hmetype : getbits (me identification) 1 5 = 4 := by decide
  refine Prod.ext ?_ ?_
  · rw [decodeModesMessage_squitter env filter (by decide) hsum]
    simp [decodeExtendedSquitter, controlField, squitterHeader, decodeMetype, hmetype,
      decodedIdentification]
  · rw [decodeModesMessage_filter, if_pos hreg, haddr]

theorem candidateAt_elsewhere {pa : ℕ} (hlt : pa < 452) (h0 : pa ≠ 0) (h155 : pa ≠ 155) :
    candidateAt env sliceAt filter transmissionMag pa = none := by
  refine candidateAt_nil ?_
  rw [sliceAt_transmission pa hlt, if_neg h0, if_neg h155]

theorem candidateAt_reply :
    candidateAt env sliceAt filter transmissionMag 0 =
      if filter.test 0x4840d6 then some altitudeReply else none := by
  rw [candidateAt_singleton (sliceAt_transmission 0 (by decide)) (by decide)]
  show (if scoreModesMessage env filter altitudeReply 56 < 0 then none else some altitudeReply) = _
  rw [score_altitudeReply]
  cases filter.test 0x4840d6 <;> rfl

theorem candidateAt_identification :
    candidateAt env sliceAt filter transmissionMag 155 = some identification := by
  have hsum : Frame.validChecksum identification := by decide
  rw [candidateAt_singleton (sliceAt_transmission 155 (by decide)) (by decide)]
  have hscore := @score_squitter identification env filter (by decide) hsum
  exact if_neg (by show ¬ scoreModesMessage env filter identification 112 < 0; omega)

/-- From the second message on. -/
theorem demodulate_identification (fuel : ℕ) :
    demodulate2400 env sliceAt transmissionMag 452 (fuel + 72 + 1) 155 filter =
      (filter.add 0x4840d6, [⟨155, identification, .ok decodedIdentification⟩]) := by
  have hskip : skipMessage identification = 225 := by decide
  rw [demodulate2400_some (by decide) candidateAt_identification
    (decode_identification env filter)]
  simp only [resumeAt, hskip, Nat.reduceAdd]
  rw [demodulate2400_skip (by decide) fun i hi =>
    candidateAt_elsewhere (by omega) (by omega) (by omega), demodulate2400_stop (by decide)]

theorem demodulate_unknown (h : filter.test 0x4840d6 = false) :
    demodulate2400 env sliceAt transmissionMag 452 452 0 filter =
      (filter.add 0x4840d6, [⟨155, identification, .ok decodedIdentification⟩]) := by
  have hreply : candidateAt env sliceAt filter transmissionMag 0 = none := by
    rw [candidateAt_reply, h]
    rfl
  have hnone : ∀ i < 155, candidateAt env sliceAt filter transmissionMag (0 + i) = none := by
    intro i hi
    rcases Nat.eq_zero_or_pos i with rfl | hpos
    · exact hreply
    · exact candidateAt_elsewhere (by omega) (by omega) (by omega)
  rw [show 452 = 297 + 155 from rfl, demodulate2400_skip (by decide) hnone]
  exact demodulate_identification 224

theorem demodulate_known (h : filter.test 0x4840d6 = true) :
    demodulate2400 env sliceAt transmissionMag 452 452 0 filter =
      (filter.add 0x4840d6,
        [⟨0, altitudeReply, .ok decodedReply⟩,
          ⟨155, identification, .ok decodedIdentification⟩]) := by
  have hskip : skipMessage altitudeReply = 113 := by decide
  have hreply : candidateAt env sliceAt filter transmissionMag 0 = some altitudeReply := by
    rw [candidateAt_reply, h]
    rfl
  have hrest : demodulate2400 env sliceAt transmissionMag 452 451 113 filter =
      (filter.add 0x4840d6, [⟨155, identification, .ok decodedIdentification⟩]) := by
    rw [show 451 = 409 + 42 from rfl, demodulate2400_skip (by decide) fun i hi =>
      candidateAt_elsewhere (by omega) (by omega) (by omega)]
    exact demodulate_identification 336
  rw [show 452 = 451 + 1 from rfl, demodulate2400_some (by decide) hreply
    (decode_altitudeReply env h)]
  simp only [resumeAt, hskip, Nat.zero_add]
  rw [hrest]

def textOf (candidates : List Candidate) : Text :=
  emit ((((candidates.filterMap Candidate.delivered).take readsbMaxMessagesPerBlock).foldl
    (handleDecoded transmissionCall.now) ({}, [])).2.map fun d => d.line)

/-- What the transmission leaves in the adapter, and its text in a new decoder. -/
theorem process_transmission {adapter : Adapter} {candidates : List Candidate}
    {filter' : IcaoFilter} (hinit : adapter.init = ⟨true, filter⟩)
    (h : demodulate2400 env sliceAt transmissionMag 452 452 0 filter = (filter', candidates)) :
    (nativeProcessIq env ⟨adapter, {}⟩ transmissionCall).1.adapter = ⟨true, filter'⟩ ∧
      (nativeProcessIq env ⟨adapter, {}⟩ transmissionCall).2 = textOf candidates := by
  have hpairs : pairCount none transmissionCall.iq = 452 := by decide +kernel
  have hempty : transmissionCall.iq.isEmpty = false := by decide
  have hmag : (fun i => (readsbBuffer {} transmissionCall.toCall).getD i 0) = transmissionMag := rfl
  have hlength : ({} : DecoderState).readsbTail.length + 452 = 452 := rfl
  have hprocess := @nativeProcessIq_readsb env ⟨adapter, {}⟩ transmissionCall 452 hempty rfl hpairs
    (by decide)
  simp only [hmag, hlength, readsbBridgeDemodulate2400, hinit, h] at hprocess
  exact hprocess

theorem reset_after_call (library : Library) (call : IqCall) :
    nativeReset (after env library [.process call]) =
      ⟨(nativeProcessIq env library call).1.adapter.init, {}⟩ := rfl

theorem linesOf_singleton (library : Library) (call : IqCall) :
    linesOf env library [call] = [(nativeProcessIq env library call).2] := rfl

theorem text_differs :
    textOf [⟨0, altitudeReply, .ok decodedReply⟩,
        ⟨155, identification, .ok decodedIdentification⟩] ≠
      textOf [⟨155, identification, .ok decodedIdentification⟩] := by
  decide

end

/-- **The same transmission in front of a reset and after it**: the second text
tells the altitude, the text of a new library does not, whatever the tables. -/
theorem transmission_after_reset :
    ¬ ∃ env : Env, linesOf env (nativeReset (after env {} [.process transmissionCall]))
        [transmissionCall] =
      linesOf env (nativeReset {}) [transmissionCall] := by
  intro h
  obtain ⟨env, heq⟩ := h
  have hadded : (icaoFilterInit.add 0x4840d6).test 0x4840d6 = true :=
    IcaoFilter.test_add_self icaoFilterInit (by decide)
  have hunknown := @demodulate_unknown env _ (IcaoFilter.test_icaoFilterInit 0x4840d6)
  have hnew : ({} : Adapter).init = ⟨true, icaoFilterInit⟩ := rfl
  have hbefore := (@process_transmission env _ _ _ _ hnew hunknown).1
  have hsecond := (@process_transmission env _ _ _ _ (init_of_initialized _)
    (demodulate_known hadded)).2
  have hfirst := (@process_transmission env _ _ _ _ (init_of_initialized _) hunknown).2
  have hreset : nativeReset {} = ⟨⟨true, icaoFilterInit⟩, {}⟩ := rfl
  rw [reset_after_call, hbefore, init_of_initialized, hreset, linesOf_singleton, linesOf_singleton,
    hsecond, hfirst, List.cons.injEq] at heq
  exact text_differs heq.1

/-! ## A history that leaves nothing behind -/

/-- No syndrome can be corrected, and no velocity is computed. -/
def bareEnv : Env where
  tables := noTables
  decodeCommB _ mm := mm
  trig := ⟨fun _ => 0, fun _ _ => 0⟩

def replyCall : IqCall where
  iq := (preamble ++ burst 3 (altitudeReply.toList.take 7)).flatMap fun a =>
    [UInt8.ofNat (127 + a), 127]
  now _ := ⟨500, 500⟩
  mode := decoderModeReadsbCore
  sysTime := 500

theorem candidates_replyCall : (candidates bareEnv {} replyCall).length = 0 := by decide +kernel

theorem transmission_after_reply :
    linesOf bareEnv (nativeReset (after bareEnv {} [.process replyCall])) [transmissionCall] =
      linesOf bareEnv (nativeReset {}) [transmissionCall] := by
  refine linesOf_reset bareEnv [.process replyCall] ⟨?_, fun _ _ => trivial⟩ [transmissionCall]
  show ∀ c ∈ candidates bareEnv {} replyCall, ¬ Registers c.message
  rw [List.eq_nil_of_length_eq_zero candidates_replyCall]
  exact List.forall_mem_nil _

end AdsbBridge.Native
