import Mathlib.Logic.Function.Basic
import AdsbBridge.Lib.Trace

/-! # The two servers and their accept loops

`startServerIfNeeded`, `startAircraftJsonServerIfNeeded` and `stopBridge` on the
main thread beside the accept loops on the io pool. A server has one flag for
all the loops it ever had, and each of them clears it when it ends. -/
namespace AdsbBridge.Service
open AdsbBridge.Lib

/-- The SBS server with `running` and `serverSocket`, or the JSON server with
`aircraftJsonRunning` and `aircraftJsonSocket`. -/
inductive ServerName
  | sbs
  | aircraftJson
  deriving DecidableEq, Repr

inductive LoopPhase
  | absent
  /-- a new `ServerSocket` is bound -/
  | bind
  | assignSocket
  /-- `while (running)` -/
  | test
  | accept
  /-- the end of the `try` closes the socket -/
  | close
  /-- `running = false` in the `finally` block -/
  | clearRunning
  | done
  deriving DecidableEq, Repr

/-- A server; a loop is named by the number of those submitted before it. -/
structure Server where
  running : Bool := false
  serverSocket : Option ℕ := none
  /-- the loops whose socket is bound and not closed -/
  listening : ℕ → Bool := fun _ => false
  loops : ℕ → LoopPhase := fun _ => .absent
  nextLoop : ℕ := 0

inductive ServerOp
  /-- `if (running) return` -/
  | testRunning
  /-- `running = true` and `io.execute`; the loop takes its first step later -/
  | submit
  | clearRunning
  | closeSocket
  | nullSocket
  deriving DecidableEq, Repr

namespace Server

def setLoop (s : Server) (g : ℕ) (p : LoopPhase) : Server :=
  { s with loops := Function.update s.loops g p }

/-- One operation of the main thread but the test. -/
def apply (s : Server) : ServerOp → Server
  | .testRunning => s
  | .submit =>
    { s with
      running := true
      loops := Function.update s.loops s.nextLoop .bind
      nextLoop := s.nextLoop + 1 }
  | .clearRunning => { s with running := false }
  | .closeSocket =>
    match s.serverSocket with
    | some g => { s with listening := Function.update s.listening g false }
    | none => s
  | .nullSocket => { s with serverSocket := none }

/-- One step of the accept loop `g`. A client comes to an open socket only; a
failure in the body of the loop is reported, and the loop goes on. -/
def loopStep (s : Server) (g : ℕ) (ok : Bool) : Option Server :=
  match s.loops g with
  | .absent => none
  | .bind =>
    some (if ok then
      { s.setLoop g .assignSocket with listening := Function.update s.listening g true }
    else s.setLoop g .clearRunning)
  | .assignSocket => some { s.setLoop g .test with serverSocket := some g }
  | .test => some (s.setLoop g (if s.running then .accept else .close))
  | .accept => if ok && !s.listening g then none else some (s.setLoop g .test)
  | .close =>
    some { s.setLoop g .clearRunning with listening := Function.update s.listening g false }
  | .clearRunning => some { s.setLoop g .done with running := false }
  | .done => none

end Server

/-- The two servers, and what the main thread does next. -/
structure Bridge where
  servers : ServerName → Server := fun _ => {}
  main : List (ServerName × ServerOp) := []

/-- The main thread takes a call or goes on with it, or a loop goes on. -/
inductive BridgeEvent
  | startServer (w : ServerName)
  | stopBridge
  | main
  | loop (w : ServerName) (g : ℕ) (ok : Bool)

namespace Bridge

def setServer (b : Bridge) (w : ServerName) (s : Server) : Bridge :=
  { b with servers := Function.update b.servers w s }

@[simp] theorem setServer_self (b : Bridge) (w : ServerName) (s : Server) :
    (b.setServer w s).servers w = s := Function.update_self ..

def stopOperations : List (ServerName × ServerOp) :=
  [(.sbs, .clearRunning), (.aircraftJson, .clearRunning), (.sbs, .closeSocket),
    (.aircraftJson, .closeSocket), (.sbs, .nullSocket), (.aircraftJson, .nullSocket)]

def step (b : Bridge) : BridgeEvent → Option Bridge
  | .startServer w => if b.main = [] then some { b with main := [(w, .testRunning)] } else none
  | .stopBridge => if b.main = [] then some { b with main := stopOperations } else none
  | .main =>
    match b.main with
    | [] => none
    | (w, .testRunning) :: rest =>
      some { b with main := if (b.servers w).running then rest else (w, .submit) :: rest }
    | (w, op) :: rest => some { b.setServer w ((b.servers w).apply op) with main := rest }
  | .loop w g ok => ((b.servers w).loopStep g ok).map (b.setServer w)

/-- A flag that is cleared is cleared by `stopBridge`, or by the end of the loop
that the last start submitted. -/
def KeepsFlag (b : Bridge) (e : BridgeEvent) : Prop :=
  ∀ b' w, b.step e = some b' → (b.servers w).running = true → (b'.servers w).running = false →
    (e = .main ∧ b.main.head? = some (w, .clearRunning)) ∨
      ∃ g ok, e = .loop w g ok ∧ g + 1 = (b.servers w).nextLoop

end Bridge

/-- The loop does not end while the flag is set: it is past `bind`, and not on
its way out. -/
def LoopPhase.settled : LoopPhase → Bool
  | .assignSocket | .test | .accept | .done => true
  | _ => false

namespace Bridge

/-- A start that submits a loop finds the earlier loops of the server settled. -/
def Settled (b : Bridge) (e : BridgeEvent) : Prop :=
  ∀ w, e = .main → b.main.head? = some (w, .submit) →
    ∀ g < (b.servers w).nextLoop, ((b.servers w).loops g).settled = true

end Bridge

/-! ## One server -/

namespace Server

/-- The loops are the ones submitted so far. -/
def Numbered (s : Server) : Prop := ∀ g, s.loops g = .absent ↔ s.nextLoop ≤ g

/-- While the flag is set, only the last loop can end. -/
def Calm (s : Server) : Prop :=
  s.running = true → ∀ g, g + 1 < s.nextLoop → (s.loops g).settled = true

variable {s s' : Server} {g : ℕ} {ok : Bool}

/-- A loop goes to its next phase; it clears the flag with its last step only,
and a settled one stays so while the flag is set. -/
theorem loopStep_cases (h : s.loopStep g ok = some s') :
    s.loops g ≠ .absent ∧ s'.nextLoop = s.nextLoop ∧
      ((s.loops g = .clearRunning ∧ s'.running = false) ∨ s'.running = s.running) ∧
      ∃ p, s'.loops = Function.update s.loops g p ∧ p ≠ .absent ∧
        (s.running = true → (s.loops g).settled = true → p.settled = true) := by
  unfold loopStep at h
  cases hp : s.loops g with
  | absent => rw [hp] at h; cases h
  | done => rw [hp] at h; cases h
  | bind =>
    rw [hp] at h
    cases h
    cases ok with
    | true => exact ⟨by simp, rfl, .inr rfl, .assignSocket, rfl, by simp, fun _ hs => by cases hs⟩
    | false => exact ⟨by simp, rfl, .inr rfl, .clearRunning, rfl, by simp, fun _ hs => by cases hs⟩
  | assignSocket =>
    rw [hp] at h
    cases h
    exact ⟨by simp, rfl, .inr rfl, .test, rfl, by simp, fun _ _ => rfl⟩
  | test =>
    rw [hp] at h
    cases h
    refine ⟨by simp, rfl, .inr rfl, _, rfl, ?_, fun hrun _ => ?_⟩
    · split <;> simp
    · rw [if_pos hrun]
      rfl
  | accept =>
    rw [hp] at h
    dsimp only at h
    split at h
    · cases h
    · cases h
      exact ⟨by simp, rfl, .inr rfl, .test, rfl, by simp, fun _ _ => rfl⟩
  | close =>
    rw [hp] at h
    cases h
    exact ⟨by simp, rfl, .inr rfl, .clearRunning, rfl, by simp, fun _ hs => by cases hs⟩
  | clearRunning =>
    rw [hp] at h
    cases h
    exact ⟨by simp, rfl, .inl ⟨rfl, rfl⟩, .done, rfl, by simp, fun _ hs => by cases hs⟩

theorem Numbered.loopStep (hn : s.Numbered) (h : s.loopStep g ok = some s') : s'.Numbered := by
  obtain ⟨hpresent, hnext, -, p, hloops, hp, -⟩ := loopStep_cases h
  intro g'
  rw [hloops, hnext, Function.update_apply]
  split
  · next heq =>
    subst heq
    exact iff_of_false hp fun hle => hpresent ((hn g').2 hle)
  · exact hn g'

theorem Numbered.apply (hn : s.Numbered) (op : ServerOp) : (s.apply op).Numbered := by
  cases op with
  | submit =>
    intro g
    show Function.update s.loops s.nextLoop .bind g = .absent ↔ s.nextLoop + 1 ≤ g
    rw [Function.update_apply]
    split
    · next heq => exact iff_of_false (by simp) (by omega)
    · rw [hn g]
      omega
  | closeSocket =>
    simp only [Server.apply]
    split
    · exact hn
    · exact hn
  | testRunning => exact hn
  | clearRunning => exact hn
  | nullSocket => exact hn

theorem Calm.loopStep (hc : s.Calm) (h : s.loopStep g ok = some s') : s'.Calm := by
  obtain ⟨-, hnext, hflag, p, hloops, -, hp⟩ := loopStep_cases h
  intro hrun g' hlt
  rw [hnext] at hlt
  have hrun' : s.running = true := by
    rcases hflag with ⟨-, hfalse⟩ | hsame
    · rw [hfalse] at hrun
      cases hrun
    · exact hsame ▸ hrun
  have hg := hc hrun' g' hlt
  rw [hloops, Function.update_apply]
  split
  · next heq => exact hp hrun' (heq ▸ hg)
  · exact hg

theorem Calm.apply (hc : s.Calm) (op : ServerOp)
    (hsettled : op = .submit → ∀ g < s.nextLoop, (s.loops g).settled = true) :
    (s.apply op).Calm := by
  cases op with
  | submit =>
    intro _ g hlt
    change g + 1 < s.nextLoop + 1 at hlt
    show (Function.update s.loops s.nextLoop .bind g).settled = true
    rw [Function.update_of_ne (by omega)]
    exact hsettled rfl g (by omega)
  | clearRunning => exact fun hrun => Bool.noConfusion hrun
  | closeSocket =>
    simp only [Server.apply]
    split
    · exact hc
    · exact hc
  | testRunning => exact hc
  | nullSocket => exact hc

end Server

/-! ## A start among settled loops -/

namespace Bridge

variable {b b' : Bridge} {e : BridgeEvent}

/-- One event changes at most one server, by an operation or by a step of a loop. -/
theorem step_cases (h : b.step e = some b') :
    b'.servers = b.servers ∨
      (∃ w op, e = .main ∧ b.main.head? = some (w, op) ∧
        b'.servers = Function.update b.servers w ((b.servers w).apply op)) ∨
      ∃ w g ok s, e = .loop w g ok ∧ (b.servers w).loopStep g ok = some s ∧
        b'.servers = Function.update b.servers w s := by
  cases e with
  | startServer w =>
    simp only [step] at h
    split at h
    · cases h
      exact .inl rfl
    · cases h
  | stopBridge =>
    simp only [step] at h
    split at h
    · cases h
      exact .inl rfl
    · cases h
  | main =>
    cases hm : b.main with
    | nil => simp [step, hm] at h
    | cons first rest =>
      obtain ⟨w, op⟩ := first
      cases op <;> simp only [step, hm, Option.some.injEq] at h
      case testRunning =>
        subst h
        exact .inl rfl
      all_goals
        subst h
        exact .inr (.inl ⟨w, _, rfl, rfl, rfl⟩)
  | loop w g ok =>
    obtain ⟨s, hs, rfl⟩ := Option.map_eq_some_iff.1 h
    exact .inr (.inr ⟨w, g, ok, s, rfl, hs, rfl⟩)

/-- What every operation and every step of a loop keeps is kept. -/
theorem servers_of_step {P : Server → Prop} (hP : ∀ w, P (b.servers w))
    (hop : ∀ w op, e = .main → b.main.head? = some (w, op) → P ((b.servers w).apply op))
    (hloop : ∀ w g ok s, e = .loop w g ok → (b.servers w).loopStep g ok = some s → P s)
    (h : b.step e = some b') : ∀ w, P (b'.servers w) := by
  have hset : ∀ w s, P s → ∀ w', P (Function.update b.servers w s w') := by
    intro w s hs w'
    by_cases heq : w' = w
    · rw [heq, Function.update_self]
      exact hs
    · rw [Function.update_of_ne heq]
      exact hP w'
  rcases step_cases h with hsame | ⟨w, op, he, hm, hupdate⟩ | ⟨w, g, ok, s, he, hs, hupdate⟩
  · rw [hsame]
    exact hP
  · rw [hupdate]
    exact hset w _ (hop w op he hm)
  · rw [hupdate]
    exact hset w s (hloop w g ok s he hs)

/-- What holds in every run, and what holds while every start is settled. -/
structure Quiet (b : Bridge) : Prop where
  numbered : ∀ w, (b.servers w).Numbered
  calm : ∀ w, (b.servers w).Calm

theorem numbered_step (hn : ∀ w, (b.servers w).Numbered) (h : b.step e = some b') :
    ∀ w, (b'.servers w).Numbered :=
  servers_of_step hn (fun w op _ _ => (hn w).apply op) (fun w _ _ _ _ => (hn w).loopStep) h

theorem Quiet.step (hq : b.Quiet) (hs : b.Settled e) (h : b.step e = some b') : b'.Quiet := by
  refine ⟨numbered_step hq.numbered h, servers_of_step hq.calm ?_ ?_ h⟩
  · intro w op he hm
    exact (hq.calm w).apply op fun hop => hs w he (hop ▸ hm)
  · exact fun w _ _ _ _ => (hq.calm w).loopStep

/-- A flag is cleared by `stopBridge` or by a loop that ends. -/
theorem clears_of_step {w : ServerName} (h : b.step e = some b')
    (hrun : (b.servers w).running = true) (hrun' : (b'.servers w).running = false) :
    (e = .main ∧ b.main.head? = some (w, .clearRunning)) ∨
      ∃ g ok, e = .loop w g ok ∧ (b.servers w).loops g = .clearRunning := by
  have heq : ∀ {w' s}, b'.servers = Function.update b.servers w' s → w = w' := by
    intro w' s hupdate
    by_contra hne
    rw [hupdate, Function.update_of_ne hne, hrun] at hrun'
    cases hrun'
  rcases step_cases h with hsame | ⟨w', op, he, hm, hupdate⟩ | ⟨w', g, ok, s, he, hs, hupdate⟩
  · rw [hsame, hrun] at hrun'
    cases hrun'
  · obtain rfl := heq hupdate
    rw [hupdate, Function.update_self] at hrun'
    cases op with
    | clearRunning => exact .inl ⟨he, hm⟩
    | submit => cases hrun'
    | testRunning =>
      rw [Server.apply, hrun] at hrun'
      cases hrun'
    | nullSocket =>
      simp only [Server.apply, hrun] at hrun'
      cases hrun'
    | closeSocket =>
      simp only [Server.apply] at hrun'
      split at hrun' <;> (rw [hrun] at hrun'; cases hrun')
  · obtain rfl := heq hupdate
    rw [hupdate, Function.update_self] at hrun'
    obtain ⟨-, -, hflag, -⟩ := Server.loopStep_cases hs
    rcases hflag with ⟨hp, -⟩ | hkept
    · exact .inr ⟨g, ok, he, hp⟩
    · rw [hkept, hrun] at hrun'
      cases hrun'

/-- Only the last loop clears a flag. -/
theorem Quiet.keepsFlag (hq : b.Quiet) : b.KeepsFlag e := by
  intro b' w h hrun hrun'
  rcases clears_of_step h hrun hrun' with hstop | ⟨g, ok, he, hp⟩
  · exact .inl hstop
  · refine .inr ⟨g, ok, he, ?_⟩
    have hlt : g < (b.servers w).nextLoop := by
      by_contra hge
      have habsent := (hq.numbered w g).2 (Nat.le_of_not_lt hge)
      rw [hp] at habsent
      cases habsent
    by_contra hne
    have hsettled := hq.calm w hrun g (by omega)
    rw [hp] at hsettled
    cases hsettled

theorem quiet_new : Quiet {} :=
  ⟨fun _ _ => iff_of_true rfl (Nat.zero_le _), fun _ hrun => Bool.noConfusion hrun⟩

theorem keepsFlag_of_settled {events : List BridgeEvent}
    (hs : Trace.Along step Settled {} events) : Trace.Along step KeepsFlag {} events :=
  Trace.along_of_invariant (fun _ _ _ hq hs h => hq.step hs h) (fun _ _ hq _ => hq.keepsFlag)
    quiet_new hs

/-! ## A start that is not -/

/-- The flag is set for a later loop than `g`, which stands at `p`. -/
structure Overtaken (w : ServerName) (g : ℕ) (p : LoopPhase) (b : Bridge) : Prop where
  phase : (b.servers w).loops g = p
  running : (b.servers w).running = true
  later : g + 1 < (b.servers w).nextLoop

variable {w : ServerName} {g : ℕ}

theorem Overtaken.clears (ho : Overtaken w g .clearRunning b) :
    ¬ Trace.Along step KeepsFlag b (List.replicate 1 (.loop w g false)) := by
  intro halong
  obtain ⟨hkeeps, -⟩ := halong
  have h : b.step (.loop w g false) =
      some (b.setServer w { (b.servers w).setLoop g .done with running := false }) := by
    simp [step, Server.loopStep, ho.phase]
  rcases hkeeps _ w h ho.running (by rw [setServer_self]) with ⟨he, -⟩ | ⟨g', ok, he, hlast⟩
  · cases he
  · cases he
    exact absurd hlast (Nat.ne_of_lt ho.later)

/-- A loop on its way out comes to its `finally` block. -/
theorem Overtaken.leaves {p : LoopPhase} (ho : Overtaken w g p b) (hp : p = .bind ∨ p = .close) :
    ¬ Trace.Along step KeepsFlag b (List.replicate 2 (.loop w g false)) := by
  have hnext : ∃ b', b.step (.loop w g false) = some b' ∧ Overtaken w g .clearRunning b' := by
    rcases hp with rfl | rfl
    · refine ⟨b.setServer w ((b.servers w).setLoop g .clearRunning), ?_, ?_⟩
      · simp [step, Server.loopStep, ho.phase]
      · exact ⟨by simp [Server.setLoop], by simpa [Server.setLoop] using ho.running,
          by simpa [Server.setLoop] using ho.later⟩
    · refine ⟨b.setServer w { (b.servers w).setLoop g .clearRunning with
        listening := Function.update (b.servers w).listening g false }, ?_, ?_⟩
      · simp [step, Server.loopStep, ho.phase]
      · exact ⟨by simp [Server.setLoop], by simpa [Server.setLoop] using ho.running,
          by simpa [Server.setLoop] using ho.later⟩
  obtain ⟨b', h, ho'⟩ := hnext
  intro halong
  obtain ⟨-, hrest⟩ := halong
  exact ho'.clears (hrest b' h)

/-- A start that submits among loops that are not settled loses its flag to one
of them. -/
theorem not_keepsFlag_of_not_settled (hn : ∀ w, (b.servers w).Numbered) (hs : ¬ b.Settled e) :
    ∃ b', b.step e = some b' ∧
      ∃ w g n, ¬ Trace.Along step KeepsFlag b' (List.replicate n (.loop w g false)) := by
  unfold Settled at hs
  push Not at hs
  obtain ⟨w, rfl, hm, g, hlt, hg⟩ := hs
  obtain ⟨rest, hrest⟩ : ∃ rest, b.main = (w, .submit) :: rest := by
    cases hmain : b.main with
    | nil => rw [hmain] at hm; cases hm
    | cons first rest => rw [hmain] at hm; cases hm; exact ⟨rest, rfl⟩
  refine ⟨{ b.setServer w ((b.servers w).apply .submit) with main := rest },
    by simp [step, hrest], w, g, ?_⟩
  have hover : Overtaken w g ((b.servers w).loops g)
      { b.setServer w ((b.servers w).apply .submit) with main := rest } := by
    refine ⟨?_, ?_, ?_⟩
    · simp [setServer, Server.apply, Function.update_of_ne (Nat.ne_of_lt hlt)]
    · simp [setServer, Server.apply]
    · simpa [setServer, Server.apply] using hlt
  cases hp : (b.servers w).loops g with
  | absent =>
    have hge := (hn w g).1 hp
    omega
  | bind => exact ⟨2, (hp ▸ hover).leaves (.inl rfl)⟩
  | close => exact ⟨2, (hp ▸ hover).leaves (.inr rfl)⟩
  | clearRunning => exact ⟨1, (hp ▸ hover).clears⟩
  | _ =>
    rw [hp] at hg
    exact absurd rfl hg

/-- **When a restart is not undone.** Every start that submits a loop finds the
earlier loops of its server settled, if and only if no loop that goes on alone
from some point of the run clears a flag that was set for a later one. -/
theorem settled_iff_keepsFlag (events : List BridgeEvent) :
    Trace.Along step Settled {} events ↔
      ∀ es, es <+: events → ∀ w g n,
        Trace.Along step KeepsFlag {} (es ++ List.replicate n (.loop w g false)) := by
  constructor
  · rintro hs es ⟨post, rfl⟩ w g n
    refine keepsFlag_of_settled (Trace.along_append.2 ⟨(Trace.along_append.1 hs).1, fun b' _ => ?_⟩)
    refine Trace.along_mono (fun b e he => ?_) (Trace.along_of_forall (P := (· = .loop w g false)) ?_)
    · intro w' he'
      rw [he] at he'
      cases he'
    · exact fun e he => List.eq_of_mem_replicate he
  · intro hkeeps
    by_contra hno
    obtain ⟨pre, e, post, b, rfl, hrun, hs⟩ := Trace.exists_of_not_along hno
    have hn : ∀ w, (b.servers w).Numbered :=
      Trace.exec_keeps (fun b => ∀ w, (b.servers w).Numbered) (fun _ _ _ => numbered_step)
        quiet_new.numbered hrun
    obtain ⟨b', h, w, g, n, hlost⟩ := not_keepsFlag_of_not_settled hn hs
    have hpre : Trace.exec step {} (pre ++ [e]) = some b' := by
      rw [Trace.exec_append, hrun]
      simp [Trace.exec, h]
    exact hlost ((Trace.along_append.1 (hkeeps (pre ++ [e]) ⟨post, by simp⟩ w g n)).2 b' hpre)

/-- The SBS server accepts clients; `stopBridge` closes its socket, its loop finds
the flag cleared, and the next start submits another loop. -/
def restartedServer : List BridgeEvent :=
  [.startServer .sbs, .main, .main] ++ List.replicate 3 (.loop .sbs 0 true) ++
    .stopBridge :: List.replicate 6 .main ++ [.loop .sbs 0 false, .loop .sbs 0 true] ++
    [.startServer .sbs, .main, .main]

/-- The first loop clears the flag of the second, which then ends at its first
test. -/
theorem restartedServer_undone :
    ∃ b b₁ b₂, Trace.exec step {} restartedServer = some b ∧ (b.servers .sbs).running = true ∧
      (b.servers .sbs).loops 1 = .bind ∧
      Trace.exec step b [.loop .sbs 0 true, .loop .sbs 0 true] = some b₁ ∧
      (b₁.servers .sbs).running = false ∧
      Trace.exec step b₁ (List.replicate 5 (.loop .sbs 1 true)) = some b₂ ∧
      (b₂.servers .sbs).loops 1 = .done ∧
      ¬ Trace.Along step KeepsFlag b [.loop .sbs 0 true, .loop .sbs 0 true] := by
  refine ⟨_, _, _, rfl, rfl, rfl, rfl, rfl, rfl, rfl, fun h => ?_⟩
  rcases (h.2 _ rfl).1 _ .sbs rfl rfl rfl with ⟨hmain, -⟩ | ⟨g, ok, hloop, hlast⟩
  · cases hmain
  · cases hloop
    cases hlast

end Bridge

end AdsbBridge.Service
