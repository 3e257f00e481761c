import Mathlib.Data.List.Infix
import Mathlib.Logic.Function.Basic
import AdsbBridge.Lib.Trace

/-! # One SBS client

`ClientConnection` of `BridgeService`: its `writeLoop` beside any number of
`enqueue` and `close` calls on other threads. One event is one access to shared
data, and which comes next is free. `enqueue` tests `open` before it offers its
line, so the offer may come after the `close()` that emptied the queue, while
the socket is still open. -/
namespace AdsbBridge.Service
open AdsbBridge.Lib

def maxPendingSbsLines : ℕ := 256

/-- What the `close()` that got past the compare-and-set does next; `idle` while
`open` is true. -/
inductive ClosePhase
  | idle
  | clear
  | closeSocket
  | done
  deriving DecidableEq, Repr

inductive WriterPhase (ℓ : Type)
  | readOpen
  | readEmpty
  | poll
  | write (line : ℓ)
  /-- it is in its `finally` block, or has returned -/
  | left
  deriving DecidableEq, Repr

/-- The line that is taken from the queue and not written yet. -/
def WriterPhase.inHand {ℓ : Type} : WriterPhase ℓ → List ℓ
  | .write line => [line]
  | _ => []

/-- `ClientConnection`, with what happened to its lines so far. -/
structure Client (ℓ : Type) where
  /-- `open` -/
  isOpen : Bool := true
  pendingLines : List ℓ := []
  socketOpen : Bool := true
  closing : ClosePhase := .idle
  /-- the calls of `enqueue` that found `open` true and have not offered yet -/
  callers : ℕ → Option ℓ := fun _ => none
  writer : WriterPhase ℓ := .readOpen
  /-- the lines for which `enqueue` returned true, in the order of the queue -/
  accepted : List ℓ := []
  /-- the lines that `close()` removed from the queue -/
  dropped : List ℓ := []
  /-- the lines that reached the socket -/
  written : List ℓ := []

/-- `ok` is false when the writer is interrupted in `poll`, or its write fails. -/
inductive ClientEvent (ℓ : Type)
  | enqueue (caller : ℕ) (line : ℓ)
  | offer (caller : ℕ)
  | close
  | closeStep
  | writer (ok : Bool)

namespace Client

variable {ℓ : Type}

def offer (c : Client ℓ) (line : ℓ) : Client ℓ :=
  if c.pendingLines.length < maxPendingSbsLines then
    { c with pendingLines := c.pendingLines ++ [line], accepted := c.accepted ++ [line] }
  else c

/-- What comes after the compare-and-set of `close`. -/
def closeStep (c : Client ℓ) : Option (Client ℓ) :=
  match c.closing with
  | .idle => none
  | .clear =>
    some { c with pendingLines := [], dropped := c.pendingLines, closing := .closeSocket }
  | .closeSocket => some { c with socketOpen := false, closing := .done }
  | .done => none

/-- One step of `writeLoop`; a line is written and flushed at once. -/
def writerStep (c : Client ℓ) (ok : Bool) : Option (Client ℓ) :=
  match c.writer with
  | .readOpen => some { c with writer := if c.isOpen then .poll else .readEmpty }
  | .readEmpty => some { c with writer := if c.pendingLines.isEmpty then .left else .poll }
  | .poll =>
    if !ok then some { c with writer := .left }
    else
      match c.pendingLines with
      | [] => some { c with writer := .readOpen }
      | line :: rest => some { c with pendingLines := rest, writer := .write line }
  | .write line =>
    if ok && c.socketOpen then some { c with written := c.written ++ [line], writer := .readOpen }
    else some { c with writer := .left }
  | .left => none

def step (c : Client ℓ) : ClientEvent ℓ → Option (Client ℓ)
  | .enqueue caller line =>
    if (c.callers caller).isSome then none
    else some (if c.isOpen then { c with callers := Function.update c.callers caller (some line) }
      else c)
  | .offer caller =>
    (c.callers caller).map fun line =>
      { c.offer line with callers := Function.update c.callers caller none }
  | .close => some (if c.isOpen then { c with isOpen := false, closing := .clear } else c)
  | .closeStep => c.closeStep
  | .writer ok => c.writerStep ok

/-- The lines on the socket are the first ones that were accepted. -/
def GapFree (c : Client ℓ) : Prop := c.written <+: c.accepted

/-- The offer comes after `close()` has dropped lines and before it closes the
socket, and the writer is still there to write. -/
def Late (c : Client ℓ) : ClientEvent ℓ → Prop
  | .offer _ => c.closing = .closeSocket ∧ c.dropped ≠ [] ∧ c.writer ≠ .left
  | _ => False

/-! ## Without a late offer -/

/-- As long as a line can still be written, every accepted one is on the socket,
in the writer's hand, in the queue or dropped, in this order, and the queue
that lost lines is empty. -/
structure InOrder (c : Client ℓ) : Prop where
  gapFree : c.GapFree
  live : c.writer ≠ .left → c.socketOpen = true →
    c.accepted = c.written ++ c.writer.inHand ++ c.pendingLines ++ c.dropped ∧
      (c.dropped = [] ∨ c.pendingLines = [])
  opened : c.isOpen = true → c.closing = .idle
  undropped : c.closing = .idle ∨ c.closing = .clear → c.dropped = []
  socket : c.socketOpen = true ↔ c.closing ≠ .done

variable {c c' : Client ℓ}

theorem inOrder_new : InOrder ({} : Client ℓ) :=
  ⟨List.prefix_refl [], fun _ _ => ⟨rfl, .inl rfl⟩, fun _ => rfl, fun _ => rfl,
    iff_of_true rfl (by simp)⟩

theorem InOrder.offer (h : c.InOrder) {line : ℓ}
    (htimely : ¬ (c.closing = .closeSocket ∧ c.dropped ≠ [] ∧ c.writer ≠ .left)) :
    (c.offer line).InOrder := by
  unfold Client.offer
  split
  · refine ⟨h.gapFree.trans (List.prefix_append _ _), fun hwriter hsocket => ?_, h.opened,
      h.undropped, h.socket⟩
    obtain ⟨haccepted, -⟩ := h.live hwriter hsocket
    have hdropped : c.dropped = [] := by
      by_contra hne
      have hphase : c.closing = .closeSocket := by
        have hopen := h.undropped
        have hdone := h.socket.1 hsocket
        cases hc : c.closing with
        | idle => exact absurd (hopen (.inl hc)) hne
        | clear => exact absurd (hopen (.inr hc)) hne
        | closeSocket => rfl
        | done => exact absurd hc hdone
      exact htimely ⟨hphase, hne, hwriter⟩
    refine ⟨?_, .inl hdropped⟩
    rw [haccepted, hdropped, List.append_nil, List.append_nil, List.append_assoc]
  · exact h

theorem InOrder.close (h : c.InOrder) (hopen : c.isOpen = true) :
    InOrder { c with isOpen := false, closing := .clear } := by
  have hidle := h.opened hopen
  refine ⟨h.gapFree, h.live, fun hfalse => Bool.noConfusion hfalse,
    fun _ => h.undropped (.inl hidle), iff_of_true ?_ (by simp)⟩
  exact h.socket.2 (by simp [hidle])

theorem InOrder.closeStep (h : c.InOrder) (hstep : c.closeStep = some c') : c'.InOrder := by
  unfold Client.closeStep at hstep
  cases hclosing : c.closing with
  | idle => rw [hclosing] at hstep; cases hstep
  | done => rw [hclosing] at hstep; cases hstep
  | clear =>
    rw [hclosing] at hstep
    cases hstep
    refine ⟨h.gapFree, fun hwriter hsocket => ⟨?_, .inr rfl⟩, fun hopen => ?_, ?_,
      iff_of_true (h.socket.2 (by simp [hclosing])) (by simp)⟩
    · obtain ⟨haccepted, -⟩ := h.live hwriter hsocket
      rw [h.undropped (.inr hclosing), List.append_nil] at haccepted
      rw [List.append_nil]
      exact haccepted
    · have hidle := h.opened hopen
      rw [hclosing] at hidle
      cases hidle
    · rintro (hidle | hclear) <;> contradiction
  | closeSocket =>
    rw [hclosing] at hstep
    cases hstep
    refine ⟨h.gapFree, fun _ hsocket => Bool.noConfusion hsocket, fun hopen => ?_, ?_,
      iff_of_false (by simp) (by simp)⟩
    · have hidle := h.opened hopen
      rw [hclosing] at hidle
      cases hidle
    · rintro (hidle | hclear) <;> contradiction

/-- A writer that leaves writes no more. -/
theorem InOrder.leave (h : c.InOrder) : InOrder { c with writer := .left } :=
  ⟨h.gapFree, fun hwriter => absurd rfl hwriter, h.opened, h.undropped, h.socket⟩

/-- Between two lines the writer has nothing in hand. -/
theorem InOrder.idle (h : c.InOrder) {phase phase' : WriterPhase ℓ} (hwriter : c.writer = phase)
    (hleft : phase ≠ .left) (hhand : phase.inHand = []) (hhand' : phase'.inHand = []) :
    InOrder { c with writer := phase' } := by
  refine ⟨h.gapFree, fun _ hsocket => ?_, h.opened, h.undropped, h.socket⟩
  have hlive := h.live (hwriter ▸ hleft) hsocket
  rw [hwriter, hhand] at hlive
  rw [hhand']
  exact hlive

theorem InOrder.writerStep (h : c.InOrder) {ok : Bool} (hstep : c.writerStep ok = some c') :
    c'.InOrder := by
  unfold Client.writerStep at hstep
  cases hwriter : c.writer with
  | readOpen =>
    rw [hwriter] at hstep
    cases hstep
    refine h.idle hwriter (by simp) rfl ?_
    split <;> rfl
  | readEmpty =>
    rw [hwriter] at hstep
    cases hstep
    refine h.idle hwriter (by simp) rfl ?_
    split <;> rfl
  | poll =>
    rw [hwriter] at hstep
    dsimp only at hstep
    split at hstep
    · cases hstep
      exact h.leave
    · split at hstep
      · cases hstep
        refine h.idle hwriter (by simp) rfl ?_
        rfl
      · next line rest hlines =>
        cases hstep
        refine ⟨h.gapFree, fun _ hsocket => ?_, h.opened, h.undropped, h.socket⟩
        obtain ⟨haccepted, hempty⟩ := h.live (by simp [hwriter]) hsocket
        rw [hlines] at hempty
        refine ⟨?_, .inl (hempty.resolve_right (by simp))⟩
        rw [haccepted, hwriter, hlines]
        simp [WriterPhase.inHand]
  | write line =>
    rw [hwriter] at hstep
    dsimp only at hstep
    split at hstep
    · next hok =>
      cases hstep
      obtain ⟨haccepted, hempty⟩ := h.live (by simp [hwriter]) (by simp at hok; exact hok.2)
      have hline : c.accepted = (c.written ++ [line]) ++ (c.pendingLines ++ c.dropped) := by
        rw [haccepted, hwriter, WriterPhase.inHand, List.append_assoc]
      refine ⟨⟨_, hline.symm⟩, fun _ _ => ⟨?_, hempty⟩, h.opened, h.undropped, h.socket⟩
      simpa [WriterPhase.inHand] using hline
    · cases hstep
      exact h.leave
  | left => rw [hwriter] at hstep; cases hstep

/-- **One step** that is not late keeps the lines in order. -/
theorem InOrder.step (h : c.InOrder) {e : ClientEvent ℓ} (htimely : ¬ c.Late e)
    (hstep : c.step e = some c') : c'.InOrder := by
  cases e with
  | enqueue caller line =>
    simp only [Client.step] at hstep
    split at hstep
    · cases hstep
    · cases hstep
      split
      · exact ⟨h.gapFree, h.live, h.opened, h.undropped, h.socket⟩
      · exact h
  | offer caller =>
    obtain ⟨line, -, rfl⟩ := Option.map_eq_some_iff.1 hstep
    have hoffer : (c.offer line).InOrder := h.offer htimely
    exact ⟨hoffer.gapFree, hoffer.live, hoffer.opened, hoffer.undropped, hoffer.socket⟩
  | close =>
    simp only [Client.step, Option.some.injEq] at hstep
    subst hstep
    split
    · next hopen => exact h.close hopen
    · exact h
  | closeStep => exact h.closeStep hstep
  | writer ok => exact h.writerStep hstep

/-! ## After a late offer -/

/-- From wherever the writer stands while the socket is open, it writes what it
has in hand and then the only line of the queue. -/
theorem exec_last {line : ℓ} (hwriter : c.writer ≠ .left) (hopen : c.isOpen = false)
    (hsocket : c.socketOpen = true) (hlines : c.pendingLines = [line]) :
    ∃ n, Trace.exec step c (List.replicate n (.writer true)) =
      some { c with
        pendingLines := []
        written := c.written ++ c.writer.inHand ++ [line]
        writer := .readOpen } := by
  cases hphase : c.writer with
  | readOpen =>
    exact ⟨4, by simp [List.replicate, Trace.exec, step, writerStep, WriterPhase.inHand, hphase,
      hopen, hsocket, hlines]⟩
  | readEmpty =>
    exact ⟨3, by simp [List.replicate, Trace.exec, step, writerStep, WriterPhase.inHand, hphase,
      hsocket, hlines]⟩
  | poll =>
    exact ⟨2, by simp [List.replicate, Trace.exec, step, writerStep, WriterPhase.inHand, hphase,
      hsocket, hlines]⟩
  | write first =>
    exact ⟨5, by simp [List.replicate, Trace.exec, step, writerStep, WriterPhase.inHand, hphase,
      hopen, hsocket, hlines]⟩
  | left => exact absurd hphase hwriter

/-- A late offer leads to a gap, unless its line is the first one dropped. -/
theorem gap_of_late (h : c.InOrder) {caller : ℕ} {line : ℓ} (hline : c.callers caller = some line)
    (hlate : c.Late (.offer caller)) (hother : c.dropped.head? ≠ some line) :
    ∃ n c', Trace.exec step c (.offer caller :: List.replicate n (.writer true)) = some c' ∧
      ¬ c'.GapFree := by
  obtain ⟨hclosing, hdropped, hwriter⟩ := hlate
  have hsocket : c.socketOpen = true := h.socket.2 (by simp [hclosing])
  have hopen : c.isOpen = false := by
    by_contra htrue
    have hidle := h.opened (by simpa using htrue)
    rw [hclosing] at hidle
    cases hidle
  obtain ⟨haccepted, hempty⟩ := h.live hwriter hsocket
  have hlines := hempty.resolve_left hdropped
  rw [hlines, List.append_nil] at haccepted
  have hoffer : step c (.offer caller) =
      some { c with
        pendingLines := [line]
        accepted := c.accepted ++ [line]
        callers := Function.update c.callers caller none } := by
    simp [step, hline, offer, hlines, maxPendingSbsLines]
  obtain ⟨n, hexec⟩ := exec_last (c := { c with
    pendingLines := [line]
    accepted := c.accepted ++ [line]
    callers := Function.update c.callers caller none }) hwriter hopen hsocket rfl
  refine ⟨n, _, (Trace.exec_of_step hoffer _).trans hexec, ?_⟩
  rw [GapFree, haccepted, List.append_assoc (c.written ++ c.writer.inHand),
    List.prefix_append_right_inj]
  cases hd : c.dropped with
  | nil => exact absurd hd hdropped
  | cons first rest =>
    rw [hd] at hother
    intro hprefix
    have hhead := (List.cons_prefix_cons.1 hprefix).1
    exact hother (by simp [hhead])

/-- **When the stream has no gap.** After a run without a late offer the lines
on the socket are the first ones accepted; and the writer can bring every line
that is then offered late behind the dropped ones. -/
theorem gapFree_of_timely {events : List (ClientEvent ℓ)}
    (ht : Trace.Along step (fun c e => ¬ Late c e) {} events)
    (h : Trace.exec step {} events = some c) :
    c.GapFree ∧ ∀ caller line, c.callers caller = some line → c.Late (.offer caller) →
      c.dropped.head? ≠ some line →
        ∃ n c', Trace.exec step c (.offer caller :: List.replicate n (.writer true)) = some c' ∧
          ¬ c'.GapFree := by
  have horder : c.InOrder :=
    Trace.exec_invariant (fun _ _ _ hi hp => hi.step hp) inOrder_new ht h
  exact ⟨horder.gapFree, fun _ _ => gap_of_late horder⟩

/-- Two broadcasts find the client open and one of them offers its line; then the
service stops and empties the queue. -/
def stoppedBetween : List (ClientEvent ℕ) :=
  [.enqueue 0 1, .enqueue 1 2, .offer 0, .close, .closeStep]

/-- The second line is still to be offered. -/
def stoppedBetweenEnd : Client ℕ :=
  { isOpen := false, closing := .closeSocket, accepted := [1], dropped := [1]
    callers := Function.update (Function.update (Function.update (fun _ => none) 0 (some 1))
      1 (some 2)) 0 none }

theorem stoppedBetween_timely :
    Trace.Along step (fun c e => ¬ Late c e) {} stoppedBetween ∧
      Trace.exec step {} stoppedBetween = some stoppedBetweenEnd ∧
      stoppedBetweenEnd.GapFree ∧
      ∃ n c', Trace.exec step stoppedBetweenEnd (.offer 1 :: List.replicate n (.writer true)) =
        some c' ∧ ¬ c'.GapFree := by
  have ht : Trace.Along step (fun c e => ¬ Late c e) {} stoppedBetween := by
    simp [stoppedBetween, Trace.Along, Late, step, offer]
  have h : Trace.exec step {} stoppedBetween = some stoppedBetweenEnd := rfl
  obtain ⟨hfree, hgap⟩ := gapFree_of_timely ht h
  exact ⟨ht, h, hfree, hgap 1 2 rfl ⟨rfl, by simp [stoppedBetweenEnd], by simp [stoppedBetweenEnd]⟩
    (by simp [stoppedBetweenEnd])⟩

/-- The late line reaches the socket, and the one accepted before it does not. -/
theorem stoppedBetween_gap :
    ∃ c, Trace.exec step {} (stoppedBetween ++ .offer 1 :: List.replicate 4 (.writer true)) =
        some c ∧ c.accepted = [1, 2] ∧ c.written = [2] ∧ ¬ c.GapFree :=
  ⟨_, rfl, rfl, rfl, by unfold GapFree; decide⟩

end Client

end AdsbBridge.Service
