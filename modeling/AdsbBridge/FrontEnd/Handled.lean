import AdsbBridge.FrontEnd
import AdsbBridge.Lib.Trace

/-! # The messages a run hands to its handler

Which frames a run accepts, and the clock readings they are handled at, depend
on the stream and its cuts alone. What a front end makes of them is one fold of
its handler over these messages. -/
namespace AdsbBridge.FrontEnd
open AdsbBridge.Lib AdsbBridge.Iq AdsbBridge.Frame

/-- A frame of a run with the clock readings of its handler and its line. -/
structure HandledFrame (ω : Type) where
  clock : Clock
  message : Message
  line : ω

section Handled

variable {σ τ ω : Type} (handle : Clock → Message → τ → τ × ω)
  (process : σ → Call → σ × List (AcceptedFrame ω))

def stampFrames (now : ℕ → Clock) (frames : List (AcceptedFrame ω)) : List (HandledFrame ω) :=
  frames.mapIdx fun i f => ⟨now i, f.message, f.line⟩

/-- What a run hands to its handler, and the lines it gets back. -/
def handledFrames : σ → List Call → List (HandledFrame ω)
  | _, [] => []
  | s, call :: rest =>
    stampFrames call.now (process s call).2 ++ handledFrames (process s call).1 rest

def handleAll : τ → List (Clock × Message) → List (HandledFrame ω)
  | _, [] => []
  | table, (clock, message) :: rest =>
    ⟨clock, message, (handle clock message table).2⟩ :: handleAll (handle clock message table).1 rest

def tableAfter (table : τ) (messages : List (Clock × Message)) : τ :=
  messages.foldl (fun table m => (handle m.1 m.2 table).1) table

theorem handleAll_append (table : τ) (messages messages' : List (Clock × Message)) :
    handleAll handle table (messages ++ messages') =
      handleAll handle table messages ++ handleAll handle (tableAfter handle table messages) messages' := by
  induction messages generalizing table with
  | nil => rfl
  | cons m rest ih => rw [List.cons_append, handleAll, handleAll, ih]; rfl

def handleStep (table : τ) (m : Clock × Message) : Option τ := some (handle m.1 m.2 table).1

/-- **All lines of a run are good exactly if every message meets the condition**
that makes its own line good. -/
theorem handleAll_forall_iff {Inv : τ → Prop} {Good : ω → Prop} {P : τ → Clock × Message → Prop}
    (hline : ∀ table m, Inv table → (Good (handle m.1 m.2 table).2 ↔ P table m))
    (hinv : ∀ table (m : Clock × Message), Inv table → Inv (handle m.1 m.2 table).1) {table : τ}
    (h : Inv table) (messages : List (Clock × Message)) :
    (∀ f ∈ handleAll handle table messages, Good f.line) ↔
      Trace.Along (handleStep handle) P table messages := by
  induction messages generalizing table with
  | nil => exact ⟨fun _ => trivial, nofun⟩
  | cons m rest ih =>
    rw [handleAll, List.forall_mem_cons, hline table m h, ih (hinv table m h), Trace.Along]
    simp only [handleStep, Option.some.injEq, forall_eq']

/-- The messages of accepted frames with the readings of their call. -/
def stampHits (now : ℕ → Clock) (hits : List (ℕ × Message)) : List (Clock × Message) :=
  hits.mapIdx fun i hit => (now i, hit.2)

theorem stampFrames_concat (now : ℕ → Clock) (frames : List (AcceptedFrame ω))
    (f : AcceptedFrame ω) :
    stampFrames now (frames ++ [f]) =
      stampFrames now frames ++ [⟨now frames.length, f.message, f.line⟩] :=
  List.mapIdx_concat

theorem handleFrame_handleAll (now : ℕ → Clock) (hits : List (ℕ × Message)) (table : τ)
    (frames : List (AcceptedFrame ω)) :
    stampFrames now
        (hits.foldl (fun s hit => handleFrame handle now s hit.1 hit.2) (table, frames)).2 =
      stampFrames now frames ++
        handleAll handle table (stampHits (fun i => now (i + frames.length)) hits) ∧
    (hits.foldl (fun s hit => handleFrame handle now s hit.1 hit.2) (table, frames)).1 =
      tableAfter handle table (stampHits (fun i => now (i + frames.length)) hits) := by
  induction hits generalizing table frames with
  | nil => exact ⟨(List.append_nil _).symm, rfl⟩
  | cons hit rest ih =>
    obtain ⟨h₁, h₂⟩ := ih (handle (now frames.length) hit.2 table).1
      (frames ++ [⟨hit.1, hit.2, (handle (now frames.length) hit.2 table).2⟩])
    have hstamps : stampHits (fun i => now (i + frames.length)) (hit :: rest) =
        (now frames.length, hit.2) ::
          stampHits (fun i => now (i + (frames.length + 1))) rest := by
      simp [stampHits, List.mapIdx_cons, Nat.add_right_comm, Nat.add_assoc]
    rw [List.length_append, List.length_singleton] at h₁ h₂
    rw [stampFrames_concat, List.append_assoc] at h₁
    rw [hstamps]
    exact ⟨h₁, h₂⟩

variable (grow : ℕ → List ℕ → List ℕ)

/-- The messages that the bytes of a call make the scan accept. -/
def newMessages (before : List UInt8) (call : Call) : List (Clock × Message) :=
  let front := lastOf magTailSize (magnitudes power before) ++
    magnitudes power ((Lib.Pairs.leftover before).toList ++ call.iq)
  if pairCount (Lib.Pairs.leftover before) call.iq = 0 then []
  else stampHits call.now (Scan.hits (framesIn front) (front.length - frameSamples) 0)

def messagesOf : List UInt8 → List Call → List (Clock × Message)
  | _, [] => []
  | before, call :: rest => newMessages before call ++ messagesOf (before ++ call.iq) rest

/-- The first call is scanned from its first sample on. -/
theorem newMessages_first (call : Call) :
    newMessages [] call = stampHits call.now
      (Scan.hits (framesIn (magnitudes power call.iq)) (call.iq.length / 2 - frameSamples) 0) := by
  have hpairs := pairCount_leftover [] call.iq
  rw [List.length_nil, Nat.zero_add, Nat.zero_add] at hpairs
  unfold newMessages
  simp only
  by_cases hnone : pairCount (Lib.Pairs.leftover []) call.iq = 0
  · rw [if_pos hnone, Scan.hits_of_le (by omega)]
    rfl
  · rw [if_neg hnone]
    change stampHits call.now (Scan.hits (framesIn (magnitudes power call.iq))
      ((magnitudes power call.iq).length - frameSamples) 0) = _
    rw [length_magnitudes]

theorem receive_handled {samples : Samples} {before : List UInt8} (h : Holds samples before)
    (table : τ) (call : Call) :
    stampFrames call.now (receive grow handle samples table call).2.2 =
        handleAll handle table (newMessages before call) ∧
      (receive grow handle samples table call).2.1 =
        tableAfter handle table (newMessages before call) := by
  unfold newMessages
  rw [← h.1, ← h.2]
  by_cases hnew : pairCount samples.pending call.iq = 0
  · rw [receive_none grow handle hnew]
    simp only [if_pos hnew]
    exact ⟨rfl, rfl⟩
  · have hscan := handleFrame_handleAll handle call.now
      (Scan.hits (framesIn (samples.tail ++ magnitudes power (samples.pending.toList ++ call.iq)))
        ((samples.tail ++ magnitudes power (samples.pending.toList ++ call.iq)).length -
          frameSamples) 0) table []
    simp only [receive, if_neg hnew, writeMagnitudes_eq power (Nat.pos_of_ne_zero hnew)]
    rw [front_length power, scanBuffer_eq]
    exact hscan

variable {process} {samples : σ → Samples} {table : σ → τ} {grow handle}

/-- **A run of a front end handles the messages of its stream**, whatever else
the decoder keeps. -/
theorem handledFrames_eq (hfe : IsFrontEnd grow handle process samples table) (calls : List Call)
    {s : σ} {before : List UInt8} (h : Holds (samples s) before) :
    handledFrames process s calls = handleAll handle (table s) (messagesOf before calls) := by
  induction calls generalizing s before with
  | nil => rfl
  | cons call rest ih =>
    have h' : Holds (samples (process s call).1) (before ++ call.iq) := by
      rw [hfe.samples_process]
      exact h.receive (table s) call
    obtain ⟨hframes, htable⟩ := receive_handled handle grow h (table s) call
    rw [handledFrames, messagesOf, handleAll_append, ih h', hfe.table_process, hfe.frames_process,
      hframes, htable]

end Handled

end AdsbBridge.FrontEnd
