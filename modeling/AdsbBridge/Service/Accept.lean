import Mathlib.Logic.Relation
import AdsbBridge.Service.Server

/-! # The accept loop with its clients

The body of the accept loop of `startServerIfNeeded` beside `stopBridge`, and
beside the other threads that close connections: each client's `writeLoop` and
`broadcastLine`. One event is one access to shared data. Without the clients
this is the loop of `Server`. -/
namespace AdsbBridge.Service
open AdsbBridge.Lib

def maxSbsClients : ℕ := 4

/-- What the accept loop does next; a client is named by the number of those
accepted before it. -/
inductive AcceptPhase
  | bind
  | assignSocket
  /-- `while (running)` -/
  | test
  | accept
  /-- `clients.size() >= MAX_SBS_CLIENTS` -/
  | checkLimit (i : ℕ)
  | setTcpNoDelay (i : ℕ)
  | newConnection (i : ℕ)
  /-- the limit is reached, or there is no connection for the socket -/
  | closeQuietly (i : ℕ)
  | add (i : ℕ)
  | start (i : ℕ)
  /-- the executor has refused: the compare-and-set of `close()` -/
  | refused (i : ℕ)
  | closeSocket (i : ℕ)
  /-- `onClosed` -/
  | remove (i : ℕ)
  /-- the end of the `try` closes the server's socket -/
  | closeServer
  | clearRunning
  | done
  deriving DecidableEq, Repr

inductive StopBridgePhase
  /-- not called yet, or about to clear the flag -/
  | clearRunning
  /-- the iterator over `clients` takes its snapshot -/
  | iterate
  /-- `client.close()` for the rest of the snapshot -/
  | close (rest : List ℕ)
  /-- the compare-and-set has succeeded -/
  | closeSocket (i : ℕ) (rest : List ℕ)
  | clear
  | closeServer
  | nullServer
  | done
  deriving DecidableEq, Repr

/-- The state that the threads share, and where they are. -/
structure Acceptor where
  running : Bool := true
  /-- the loop's `ServerSocket` is bound and not closed -/
  listening : Bool := false
  /-- `serverSocket != null` -/
  serverSocket : Bool := false
  accepted : ℕ := 0
  socketOpen : ℕ → Bool := fun _ => false
  /-- `open` of the client's connection -/
  isOpen : ℕ → Bool := fun _ => false
  clients : List ℕ := []
  loop : AcceptPhase := .bind
  stop : StopBridgePhase := .clearRunning
  /-- `broadcastLine` has removed the client and is about to close it -/
  dropped : ℕ → Bool := fun _ => false
  /-- another thread is between the compare-and-set and `socket.close()` -/
  closing : ℕ → Bool := fun _ => false

/-- `ok` is false when a call of the loop fails, or the executor refuses. -/
inductive AcceptEvent
  | loop (ok : Bool)
  | stopBridge
  /-- `clients.remove(client)` in `broadcastLine` -/
  | drop (i : ℕ)
  /-- the compare-and-set of `close()` on another thread -/
  | close (i : ℕ)
  | closeSocket (i : ℕ)
  /-- `onClosed` at the end of `writeLoop` -/
  | remove (i : ℕ)

namespace Acceptor

def setSocket (s : Acceptor) (i : ℕ) (b : Bool) : Acceptor :=
  { s with socketOpen := Function.update s.socketOpen i b }

def setOpen (s : Acceptor) (i : ℕ) (b : Bool) : Acceptor :=
  { s with isOpen := Function.update s.isOpen i b }

def loopStep (s : Acceptor) (ok : Bool) : Option Acceptor :=
  match s.loop with
  | .bind =>
    some (if ok then { s with listening := true, loop := .assignSocket }
      else { s with loop := .clearRunning })
  | .assignSocket => some { s with serverSocket := true, loop := .test }
  | .test => some { s with loop := if s.running then .accept else .closeServer }
  | .accept =>
    if !ok then some { s with loop := .test }
    else if s.listening then
      some { s.setSocket s.accepted true with
        accepted := s.accepted + 1, loop := .checkLimit s.accepted }
    else none
  | .checkLimit i =>
    some { s with
      loop := if s.clients.length ≥ maxSbsClients then .closeQuietly i else .setTcpNoDelay i }
  -- a failure goes to the `catch` of the loop with the socket as it is
  | .setTcpNoDelay i => some { s with loop := if ok then .newConnection i else .test }
  | .newConnection i =>
    some (if ok then { s.setOpen i true with loop := .add i }
      else { s with loop := .closeQuietly i })
  | .closeQuietly i => some { s.setSocket i false with loop := .test }
  | .add i => some { s with clients := s.clients ++ [i], loop := .start i }
  | .start i => some { s with loop := if ok then .test else .refused i }
  | .refused i =>
    some (if s.isOpen i then { s.setOpen i false with loop := .closeSocket i }
      else { s with loop := .remove i })
  | .closeSocket i => some { s.setSocket i false with loop := .remove i }
  | .remove i => some { s with clients := s.clients.erase i, loop := .test }
  | .closeServer => some { s with listening := false, loop := .clearRunning }
  | .clearRunning => some { s with running := false, loop := .done }
  | .done => none

def stopStep (s : Acceptor) : Option Acceptor :=
  match s.stop with
  | .clearRunning => some { s with running := false, stop := .iterate }
  | .iterate => some { s with stop := .close s.clients }
  | .close [] => some { s with stop := .clear }
  | .close (i :: rest) =>
    some (if s.isOpen i then { s.setOpen i false with stop := .closeSocket i rest }
      else { s with stop := .close rest })
  | .closeSocket i rest => some { s.setSocket i false with stop := .close rest }
  | .clear => some { s with clients := [], stop := .closeServer }
  | .closeServer =>
    some { s with listening := s.listening && !s.serverSocket, stop := .nullServer }
  | .nullServer => some { s with serverSocket := false, stop := .done }
  | .done => none

/-- A connection that other threads know of: it has been made and added. -/
def Known (s : Acceptor) (i : ℕ) : Prop := s.isOpen i = true ∧ s.loop ≠ .add i

instance (s : Acceptor) (i : ℕ) : Decidable (s.Known i) := inferInstanceAs (Decidable (_ ∧ _))

def step (s : Acceptor) : AcceptEvent → Option Acceptor
  | .loop ok => s.loopStep ok
  | .stopBridge => s.stopStep
  | .drop i =>
    if i ∈ s.clients then
      some { s with
        clients := s.clients.erase i, dropped := Function.update s.dropped i true }
    else none
  | .close i =>
    if s.Known i then
      some { s.setOpen i false with
        closing := Function.update s.closing i true
        dropped := Function.update s.dropped i false }
    else if s.dropped i then some { s with dropped := Function.update s.dropped i false }
    else none
  | .closeSocket i =>
    if s.closing i then
      some { s.setSocket i false with closing := Function.update s.closing i false }
    else none
  | .remove i => if s.isOpen i then none else some { s with clients := s.clients.erase i }

/-! ## The loop without its clients -/

end Acceptor

/-- The phase of the server's loop; everything after `accept()` is in its one
step that leads back to the test. -/
def AcceptPhase.toLoop : AcceptPhase → LoopPhase
  | .bind => .bind
  | .assignSocket => .assignSocket
  | .test => .test
  | .closeServer => .close
  | .clearRunning => .clearRunning
  | .done => .done
  | _ => .accept

namespace Acceptor

def toServer (s : Acceptor) : Server where
  running := s.running
  serverSocket := if s.serverSocket then some 0 else none
  listening := Function.update (fun _ => false) 0 s.listening
  loops := Function.update (fun _ => .absent) 0 s.loop.toLoop
  nextLoop := 1

/-- The server does nothing, or the loop takes a step, or the main thread does. -/
def Follows (server server' : Server) : Prop :=
  server' = server ∨ (∃ ok, server.loopStep 0 ok = some server') ∨ ∃ op, server' = server.apply op

variable {s s' : Acceptor}

theorem loops_toServer (s : Acceptor) : s.toServer.loops 0 = s.loop.toLoop := by
  simp only [toServer, Function.update_self]

/-- The phases with a client stay in the one step, or end it. -/
theorem follows_accept {ok : Bool} (hl : s.loop.toLoop = .accept)
    (h : s.loopStep ok = some s') : Follows s.toServer s'.toServer := by
  have hback : s.toServer.loopStep 0 false = some (s.toServer.setLoop 0 .test) := by
    simp only [Server.loopStep, loops_toServer, hl, Bool.false_and, Bool.false_eq_true, if_false]
  have hstay : ∀ {t : Acceptor}, t.running = s.running → t.serverSocket = s.serverSocket →
      t.listening = s.listening → t.loop.toLoop = .accept ∨ t.loop = .test →
      Follows s.toServer t.toServer := by
    intro t hrunning hsocket hlistening hphase
    rcases hphase with hphase | hphase
    · refine .inl ?_
      simp only [toServer, hrunning, hsocket, hlistening, hphase, hl]
    · refine .inr (.inl ⟨false, ?_⟩)
      rw [hback, Server.setLoop]
      simp only [toServer, hrunning, hsocket, hlistening, hphase, AcceptPhase.toLoop,
        Function.update_idem]
  unfold loopStep at h
  cases hp : s.loop with
  | accept =>
    rw [hp] at h
    dsimp only at h
    split at h
    · cases h
      exact hstay rfl rfl rfl (.inr rfl)
    split at h
    · cases h
      exact hstay rfl rfl rfl (.inl rfl)
    · cases h
  | checkLimit i =>
    rw [hp] at h
    cases h
    refine hstay rfl rfl rfl (.inl ?_)
    dsimp only
    split <;> rfl
  | setTcpNoDelay i =>
    rw [hp] at h
    cases h
    cases ok with
    | true => exact hstay rfl rfl rfl (.inl rfl)
    | false => exact hstay rfl rfl rfl (.inr rfl)
  | newConnection i =>
    rw [hp] at h
    cases h
    cases ok with
    | true => exact hstay rfl rfl rfl (.inl rfl)
    | false => exact hstay rfl rfl rfl (.inl rfl)
  | start i =>
    rw [hp] at h
    cases h
    cases ok with
    | true => exact hstay rfl rfl rfl (.inr rfl)
    | false => exact hstay rfl rfl rfl (.inl rfl)
  | refused i =>
    rw [hp] at h
    dsimp only at h
    split at h
    · cases h
      exact hstay rfl rfl rfl (.inl rfl)
    · cases h
      exact hstay rfl rfl rfl (.inl rfl)
  | add i | closeSocket i =>
    rw [hp] at h
    cases h
    exact hstay rfl rfl rfl (.inl rfl)
  | closeQuietly i | remove i =>
    rw [hp] at h
    cases h
    exact hstay rfl rfl rfl (.inr rfl)
  | bind | assignSocket | test | closeServer | clearRunning | done =>
    rw [hp] at hl
    cases hl

theorem follows_loopStep {ok : Bool} (h : s.loopStep ok = some s') :
    Follows s.toServer s'.toServer := by
  by_cases hl : s.loop.toLoop = .accept
  · exact follows_accept hl h
  have hloops := loops_toServer s
  refine .inr (.inl ⟨ok, ?_⟩)
  unfold loopStep at h
  cases hp : s.loop with
  | bind =>
    rw [hp] at h hloops
    cases h
    rw [Server.loopStep, hloops]
    cases ok <;> simp only [AcceptPhase.toLoop, Bool.false_eq_true, if_true, if_false, toServer,
      Server.setLoop, Function.update_idem]
  | test =>
    rw [hp] at h hloops
    cases h
    rw [Server.loopStep, hloops]
    cases hrun : s.running <;> simp only [AcceptPhase.toLoop, Bool.false_eq_true, if_true, if_false,
      toServer, Server.setLoop, Function.update_idem, hrun]
  | assignSocket | closeServer | clearRunning =>
    rw [hp] at h hloops
    cases h
    rw [Server.loopStep, hloops]
    simp only [AcceptPhase.toLoop, toServer, Server.setLoop, Function.update_idem, if_true]
  | done =>
    rw [hp] at h
    cases h
  | _ =>
    rw [hp] at hl
    exact absurd rfl hl

theorem follows_stopStep (h : s.stopStep = some s') : Follows s.toServer s'.toServer := by
  unfold stopStep at h
  cases hstop : s.stop with
  | clearRunning =>
    rw [hstop] at h
    cases h
    exact .inr (.inr ⟨.clearRunning, rfl⟩)
  | closeServer =>
    rw [hstop] at h
    cases h
    refine .inr (.inr ⟨.closeSocket, ?_⟩)
    cases hs : s.serverSocket <;> simp [toServer, Server.apply, hs]
  | nullServer =>
    rw [hstop] at h
    cases h
    exact .inr (.inr ⟨.nullSocket, rfl⟩)
  | close list =>
    rw [hstop] at h
    cases list with
    | nil =>
      cases h
      exact .inl rfl
    | cons i rest =>
      dsimp only at h
      split at h
      · cases h
        exact .inl rfl
      · cases h
        exact .inl rfl
  | iterate | closeSocket | clear =>
    rw [hstop] at h
    cases h
    exact .inl rfl
  | done =>
    rw [hstop] at h
    cases h

theorem follows_step {e : AcceptEvent} (h : s.step e = some s') :
    Follows s.toServer s'.toServer := by
  cases e with
  | loop ok => exact follows_loopStep h
  | stopBridge => exact follows_stopStep h
  | drop i | closeSocket i | remove i =>
    simp only [step] at h
    split at h <;> cases h
    exact .inl rfl
  | close i =>
    simp only [step] at h
    split at h
    · cases h
      exact .inl rfl
    split at h
    · cases h
      exact .inl rfl
    · cases h

/-- **Every run with clients is a run of the server.** -/
theorem follows_exec {es : List AcceptEvent} (h : Trace.exec step s es = some s') :
    Relation.ReflTransGen Follows s.toServer s'.toServer :=
  Trace.exec_keeps (fun t => Relation.ReflTransGen Follows s.toServer t.toServer)
    (fun _ _ _ hrun hstep => hrun.tail (follows_step hstep)) .refl h

end Acceptor

end AdsbBridge.Service
