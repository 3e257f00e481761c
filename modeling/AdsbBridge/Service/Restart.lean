import AdsbBridge.Service.System

/-! # A stop and the restart tasks

A restart task tests the requested mode, `sdrRunning`, `sdrStarting` and
`running` one after the other, outside `sdrLock`, and starts the reader later
under the lock without a second look. A stop that falls between the first of
these reads and the start is undone by it. -/
namespace AdsbBridge.Service
open AdsbBridge.Lib AdsbBridge.Service.System

/-- The task has read the requested mode, found it native, and is not done. -/
def RestartPhase.pastModeRead : RestartPhase → Bool
  | .readSdrRunning | .readSdrStarting | .readRunning | .startLock => true
  | _ => false

def Action.stops : Action → Bool
  | .stop | .stopSdr => true
  | _ => false

def Event.isStart : Event → Bool
  | .intent i => i.action = .startSdr || i.action = .startNativeSdr
  | _ => false

def Event.isIntent : Event → Bool
  | .intent _ => true
  | _ => false

theorem Event.isIntent_of_isStart {e : Event} (h : e.isStart = true) : e.isIntent = true := by
  cases e with
  | intent i => rfl
  | _ => cases h

/-- Some interleaving leads from the created service to this state. -/
def Reachable (s : System) : Prop :=
  ∃ native eco events, Trace.exec step (created native eco) events = some s

/-- From the end of the intent under way on, whatever happens but a start
intent, there is no current reader. -/
def StaysStopped (s : System) : Prop :=
  ∀ es₁ s₁ es₂ s₂, (∀ e ∈ es₁ ++ es₂, e.isStart = false) →
    Trace.exec step s es₁ = some s₁ → s₁.main = [] → Trace.exec step s₁ es₂ = some s₂ →
    s₂.nativeReader = none ∧ s₂.sdrRunning = false

/-! ## What the steps leave alone -/

theorem restartStep_frame {s s' : System} {t : ℕ} (h : s.restartStep t = some s') :
    s'.action = s.action ∧ s'.main = s.main ∧ s'.requestedNative = s.requestedNative := by
  unfold restartStep at h
  cases hp : s.restarts t <;> simp only [hp] at h
  all_goals grind [setRestart, startReader]

theorem taskStep_frame {s s' : System} {r : ReaderId} {o : Outcome}
    (h : s.taskStep r o = some s') :
    s'.action = s.action ∧ s'.main = s.main ∧ s'.requestedNative = s.requestedNative := by
  unfold taskStep at h
  cases hp : s.tasks r <;> simp only [hp] at h
  all_goals grind [setTask, setReader, System.stopLock, spawnRestart, Option.map_eq_some_iff]

theorem step_frame {s s' : System} {e : Event} (h : s.step e = some s')
    (hm : e ≠ .main) (hi : ∀ i, e ≠ .intent i) :
    s'.action = s.action ∧ s'.main = s.main ∧ s'.requestedNative = s.requestedNative := by
  cases e with
  | intent i => exact absurd rfl (hi i)
  | main => exact absurd rfl hm
  | restart t => exact restartStep_frame h
  | task r o => exact taskStep_frame h
  | interrupt t => grind [step, setRestart]
  | stop r => grind [step, setReader, Option.map_eq_some_iff]
  | acceptLoopEnds => grind [step]

/-! ## The operations of a stop intent -/

/-- A stop intent comes to its locked block with the mode already cleared, and
the block is its last operation but for the reader's `stop()`. -/
def StopShape (s : System) : Prop :=
  s.action.stops = true →
    s.main = [.startServer, .setMode false, .stopLock] ∨ s.main = [.setMode false, .stopLock] ∨
      s.main = [.setMode false, .clearRunning, .stopLock] ∨
      (s.requestedNative = false ∧
        (s.main = [.clearRunning, .stopLock] ∨ s.main = [.stopLock] ∨
          (∃ r, s.main = [.callStop r] ∨ s.main = [.awaitStop r]) ∨ s.main = []))

theorem stopShape_mainStep {s s' : System} {op : MainOp} {rest : List MainOp}
    (hs : StopShape s) (hm : s.main = op :: rest) (h : s.mainStep rest op = some s') :
    StopShape s' := by
  intro ha
  unfold StopShape at hs
  cases op <;> simp only [mainStep] at h
  all_goals grind [System.stopLock, startReader, setReader, spawnRestart]

theorem stopShape_step {s s' : System} {e : Event} (hs : StopShape s) (h : s.step e = some s') :
    StopShape s' := by
  cases e with
  | intent i =>
    simp only [step] at h
    split at h
    · cases h
      intro ha
      change i.action.stops = true at ha
      change operations _ _ i.action = _ ∨ operations _ _ i.action = _ ∨ operations _ _ i.action = _ ∨ _
      cases hact : i.action <;> simp_all [Action.stops, operations]
    · cases h
  | main =>
    simp only [step] at h
    split at h
    · cases h
    · next op rest hm => exact stopShape_mainStep hs hm h
  | _ =>
    obtain ⟨ha, hm, hn⟩ := step_frame h (by rintro ⟨⟩) (by rintro _ ⟨⟩)
    unfold StopShape
    rw [ha, hm, hn]
    exact hs

theorem stopShape_reachable {s : System} (h : Reachable s) : StopShape s := by
  obtain ⟨native, eco, events, h⟩ := h
  refine Trace.exec_keeps StopShape (fun _ _ _ => stopShape_step) ?_ h
  intro ha
  cases ha

/-! ## Nothing is past its mode read: the stop holds -/

/-- Operations of the main thread that lead to a start while the mode is clear. -/
def MainOp.starts : MainOp → Bool
  | .setMode native => native
  | .testSdrRunning _ | .testSdrStarting | .startLock => true
  | _ => false

def NonePast (restarts : ℕ → RestartPhase) : Prop := ∀ t, (restarts t).pastModeRead = false

theorem nonePast_update {restarts : ℕ → RestartPhase} {t : ℕ} {p : RestartPhase}
    (h : NonePast restarts) (hp : p.pastModeRead = false) :
    NonePast (Function.update restarts t p) := by
  intro t'
  by_cases ht : t' = t
  · rw [ht, Function.update_self]; exact hp
  · rw [Function.update_of_ne ht]; exact h t'

/-- No reader, and nobody on the way to one. -/
structure Halted (s : System) : Prop where
  mode : s.requestedNative = false
  reader : s.nativeReader = none
  stopped : s.sdrRunning = false
  restarts : NonePast s.restarts
  main : ∀ op ∈ s.main, op.starts = false

variable {s s' : System}

theorem halted_main {op : MainOp} {rest : List MainOp} (hs : Halted s) (hm : s.main = op :: rest)
    (h : s.mainStep rest op = some s') : Halted s' := by
  obtain ⟨hmode, hreader, hstopped, hrestarts, hmain⟩ := hs
  have hop : op.starts = false := hmain op (hm ▸ List.mem_cons_self)
  have hrest : ∀ op' ∈ rest, op'.starts = false := fun op' h' =>
    hmain op' (hm ▸ List.mem_cons_of_mem op h')
  cases op <;> simp only [mainStep] at h
  all_goals
    constructor <;> grind [MainOp.starts, System.stopLock, setReader, spawnRestart, nonePast_update,
      RestartPhase.pastModeRead]

theorem halted_restart {t : ℕ} (hs : Halted s) (h : s.restartStep t = some s') : Halted s' := by
  obtain ⟨hmode, hreader, hstopped, hrestarts, hmain⟩ := hs
  have ht := hrestarts t
  unfold restartStep at h
  cases hp : s.restarts t <;> simp only [hp] at h
  all_goals
    constructor <;> grind [setRestart, nonePast_update, RestartPhase.pastModeRead]

theorem halted_task {r : ReaderId} {o : Outcome} (hs : Halted s) (h : s.taskStep r o = some s') :
    Halted s' := by
  obtain ⟨hmode, hreader, hstopped, hrestarts, hmain⟩ := hs
  unfold taskStep at h
  cases hp : s.tasks r <;> simp only [hp] at h
  all_goals
    constructor <;> grind [setTask, setReader, System.stopLock, spawnRestart,
      nonePast_update, RestartPhase.pastModeRead, Option.map_eq_some_iff]

theorem halted_intent {i : Intent} (hs : Halted s) (hi : (Event.intent i).isStart = false)
    (h : s.step (.intent i) = some s') : Halted s' := by
  obtain ⟨hmode, hreader, hstopped, hrestarts, -⟩ := hs
  simp only [step] at h
  split at h
  · cases h
    refine ⟨hmode, hreader, hstopped, hrestarts, ?_⟩
    intro op hop
    change op ∈ operations _ _ i.action at hop
    cases hact : i.action <;> simp [hact, Event.isStart, operations] at hi hop
    all_goals grind [MainOp.starts]
  · cases h

theorem halted_step {e : Event} (hs : Halted s) (he : e.isStart = false) (h : s.step e = some s') :
    Halted s' := by
  cases e with
  | intent i => exact halted_intent hs he h
  | main =>
    simp only [step] at h
    split at h
    · cases h
    · next op rest hm => exact halted_main hs hm h
  | restart t => exact halted_restart hs h
  | task r o => exact halted_task hs h
  | interrupt t =>
    obtain ⟨hmode, hreader, hstopped, hrestarts, hmain⟩ := hs
    constructor <;> grind [step, setRestart, nonePast_update, RestartPhase.pastModeRead]
  | stop r =>
    obtain ⟨hmode, hreader, hstopped, hrestarts, hmain⟩ := hs
    constructor <;> grind [step, setReader, Option.map_eq_some_iff]
  | acceptLoopEnds =>
    obtain ⟨hmode, hreader, hstopped, hrestarts, hmain⟩ := hs
    constructor <;> grind [step]

theorem halted_exec {es : List Event} (hs : Halted s) (he : ∀ e ∈ es, e.isStart = false)
    (h : Trace.exec step s es = some s') : Halted s' :=
  Trace.exec_invariant (P := fun _ e => e.isStart = false) (fun _ _ _ => halted_step) hs
    (Trace.along_of_forall he) h

theorem staysStopped_of_halted (hs : Halted s) : StaysStopped s := by
  intro es₁ s₁ es₂ s₂ he h₁ _ h₂
  have hs₁ := halted_exec hs (fun e h => he e (List.mem_append_left _ h)) h₁
  have hs₂ := halted_exec hs₁ (fun e h => he e (List.mem_append_right _ h)) h₂
  exact ⟨hs₂.reader, hs₂.stopped⟩

/-! ## A task past its mode read undoes the stop -/

/-- What the main thread's way to the end of the intent leaves as it is. -/
structure SameRestarts (s s' : System) : Prop where
  restarts : s'.restarts = s.restarts
  sdrRunning : s'.sdrRunning = s.sdrRunning
  sdrStarting : s'.sdrStarting = s.sdrStarting

theorem SameRestarts.trans {s'' : System} (h : SameRestarts s s') (h' : SameRestarts s' s'') :
    SameRestarts s s'' :=
  ⟨h'.1.trans h.1, h'.2.trans h.2, h'.3.trans h.3⟩

/-- A run without events of some kind. -/
def Leads (excluded : Event → Bool) (s s' : System) : Prop :=
  ∃ es, (∀ e ∈ es, excluded e = false) ∧ Trace.exec step s es = some s'

section Leads

variable {excluded : Event → Bool} {s'' : System}

theorem Leads.refl (s : System) : Leads excluded s s := ⟨[], by simp, rfl⟩

theorem Leads.head {e : Event} (he : excluded e = false) (h : s.step e = some s')
    (h' : Leads excluded s' s'') : Leads excluded s s'' := by
  obtain ⟨es, hes, hrun⟩ := h'
  refine ⟨e :: es, ?_, ?_⟩
  · rintro e' (_ | ⟨_, h⟩)
    · exact he
    · exact hes e' h
  · rw [Trace.exec, h]; exact hrun

theorem Leads.trans (h : Leads excluded s s') (h' : Leads excluded s' s'') :
    Leads excluded s s'' := by
  obtain ⟨es, hes, hrun⟩ := h
  obtain ⟨es', hes', hrun'⟩ := h'
  refine ⟨es ++ es', ?_, ?_⟩
  · intro e he
    rcases List.mem_append.1 he with he | he
    · exact hes e he
    · exact hes' e he
  · rw [Trace.exec_append, hrun]; exact hrun'

/-- A run without an intent has no start intent. -/
theorem Leads.withoutStart (h : Leads Event.isIntent s s') : Leads Event.isStart s s' := by
  obtain ⟨es, hes, hrun⟩ := h
  refine ⟨es, fun e he => Bool.eq_false_iff.2 fun hstart => ?_, hrun⟩
  have hintent := hes e he
  rw [Event.isIntent_of_isStart hstart] at hintent
  cases hintent

end Leads

/-- How many steps an effective `stop()` has ahead of it at most. -/
def StopPhase.rank : StopPhase → ℕ
  | .idle => 7
  | .markStopped => 6
  | .clearRunning => 5
  | .closeNative => 4
  | .readConnection => 3
  | .closeConnection => 2
  | .nullConnection => 1
  | .done => 0

theorem stopStep_rank {r : Reader} (device : Option ReaderId) (hi : r.stop ≠ .idle)
    (hd : r.stop ≠ .done) :
    ∃ r' device', stopStep r device = some (r', device') ∧ r'.stop ≠ .idle ∧
      r'.stop.rank < r.stop.rank := by
  unfold stopStep
  cases hstop : r.stop <;> simp only [hstop] at hi hd ⊢
  all_goals first | contradiction | skip
  all_goals exact ⟨_, _, rfl, by grind, by grind [StopPhase.rank]⟩

/-- `stop()` comes to its end, and the main thread with it. -/
theorem leads_awaitStop {r : ReaderId} {n : ℕ} (hn : ((s.readers r).stop).rank = n)
    (hi : (s.readers r).stop ≠ .idle) (hm : s.main = [.awaitStop r]) :
    ∃ s', Leads Event.isIntent s s' ∧ s'.main = [] ∧ SameRestarts s s' := by
  induction n using Nat.strongRecOn generalizing s with
  | _ n ih =>
    by_cases hd : (s.readers r).stop = .done
    · refine ⟨{ s with main := [] }, .head (e := .main) rfl ?_ (.refl _), rfl, rfl, rfl, rfl⟩
      simp only [step, hm, mainStep, if_pos hd]
    · obtain ⟨reader, device, hstep, hi', hlt⟩ := stopStep_rank s.device hi hd
      have hself : (s.setReader r reader device).readers r = reader := Function.update_self ..
      have hsr : SameRestarts s (s.setReader r reader device) := ⟨rfl, rfl, rfl⟩
      obtain ⟨s', hl, hmain, hsame⟩ := ih _ (hn ▸ hlt)
        (s := s.setReader r reader device) (by rw [hself]) (by rwa [hself]) hm
      refine ⟨s', .head (e := .stop r) rfl ?_ hl, hmain, hsr.trans hsame⟩
      simp only [step, hstep, Option.map_some]

/-- After its locked block a stop intent can be handled to its end. -/
theorem leads_handled (hm : s.main = [] ∨ ∃ r, s.main = [.callStop r]) :
    ∃ s', Leads Event.isIntent s s' ∧ s'.main = [] ∧ SameRestarts s s' := by
  rcases hm with hm | ⟨r, hm⟩
  · exact ⟨s, .refl s, hm, rfl, rfl, rfl⟩
  · by_cases hstop : (s.readers r).stop = .idle
    · let t : System :=
        { s.setReader r (Service.stopCall false (s.readers r)) s.device with main := [.awaitStop r] }
      have ht : s.step .main = some t := by
        simp [step, hm, mainStep, Reader.stopStarted, hstop, t]
      have hr : (t.readers r).stop = .markStopped := by
        simp [t, setReader, Service.stopCall, hstop]
      obtain ⟨s', hl, hmain, hsame⟩ := leads_awaitStop (s := t) rfl (by rw [hr]; decide) rfl
      have hst : SameRestarts s t := ⟨rfl, rfl, rfl⟩
      exact ⟨s', .head rfl ht hl, hmain, hst.trans hsame⟩
    · refine ⟨{ s with main := [] }, .head (e := .main) rfl ?_ (.refl _), rfl, rfl, rfl, rfl⟩
      simp [step, hm, mainStep, Reader.stopStarted, hstop]

/-- Nothing that a restart task reads keeps it from starting a reader. -/
structure Unhindered (s : System) : Prop where
  running : s.running = true
  sdrRunning : s.sdrRunning = false
  sdrStarting : s.sdrStarting = false

/-- The threads can go on, without any intent, to a running reader. -/
def Arrives (s : System) : Prop := ∃ s', Leads Event.isIntent s s' ∧ s'.sdrRunning = true

theorem arrives_startLock {t : ℕ} (hu : Unhindered s) (hp : s.restarts t = .startLock) :
    Arrives s := by
  refine ⟨s.startReader.setRestart t .done, .head (e := .restart t) rfl ?_ (.refl _), ?_⟩
  · simp only [step, restartStep, hp]
  · simp [startReader, setRestart, hu.sdrRunning, hu.sdrStarting]

/-- A read that lets the task go on to the phase `p`. -/
theorem arrives_read {t : ℕ} {p : RestartPhase} (hu : Unhindered s)
    (hs : s.restartStep t = some (s.setRestart t p))
    (h : ∀ {u : System}, Unhindered u → u.restarts t = p → Arrives u) :
    Arrives s := by
  have hu' : Unhindered (s.setRestart t p) := ⟨hu.running, hu.sdrRunning, hu.sdrStarting⟩
  obtain ⟨s', hl, hstart⟩ := h hu' (Function.update_self ..)
  exact ⟨s', .head (e := .restart t) rfl hs hl, hstart⟩

theorem arrives_readRunning {t : ℕ} (hu : Unhindered s) (hp : s.restarts t = .readRunning) :
    Arrives s :=
  arrives_read (t := t) hu (by simp [restartStep, hp, hu.running]) arrives_startLock

theorem arrives_readSdrStarting {t : ℕ} (hu : Unhindered s) (hp : s.restarts t = .readSdrStarting) :
    Arrives s :=
  arrives_read (t := t) hu (by simp [restartStep, hp, hu.sdrStarting]) arrives_readRunning

theorem arrives_readSdrRunning {t : ℕ} (hu : Unhindered s) (hp : s.restarts t = .readSdrRunning) :
    Arrives s :=
  arrives_read (t := t) hu (by simp [restartStep, hp, hu.sdrRunning]) arrives_readSdrStarting

theorem arrives_pastModeRead {t : ℕ} (hu : Unhindered s)
    (hp : (s.restarts t).pastModeRead = true) : Arrives s := by
  cases h : s.restarts t
  case readSdrRunning => exact arrives_readSdrRunning hu h
  case readSdrStarting => exact arrives_readSdrStarting hu h
  case readRunning => exact arrives_readRunning hu h
  case startLock => exact arrives_startLock hu h
  all_goals rw [h] at hp; cases hp

/-- `USB_DETACHED` sets `running` before it comes to its own locked block. -/
theorem leads_unhindered (hm : s.main = []) (hr : s.sdrRunning = false)
    (hs : s.sdrStarting = false) :
    ∃ s', Leads Event.isStart s s' ∧ Unhindered s' ∧ s'.restarts = s.restarts := by
  let t : System := { s with
    ecoMode := s.ecoMode, action := .usbDetached, main := [.startServer, .stopLock] }
  have ht : s.step (.intent { action := .usbDetached }) = some t := by
    simp [step, hm, operations, t]
  refine ⟨if s.running then { t with main := [.stopLock] } else
    { t with running := true, acceptLoops := s.acceptLoops + 1, main := [.stopLock] },
    .head rfl ht (.head (e := .main) rfl rfl (.refl _)), ?_, ?_⟩
  · split <;> constructor <;> first | assumption | rfl
  · split <;> rfl

theorem not_staysStopped {t : ℕ} (hm : s.main = [] ∨ ∃ r, s.main = [.callStop r])
    (hr : s.sdrRunning = false) (hs : s.sdrStarting = false)
    (hp : (s.restarts t).pastModeRead = true) : ¬ StaysStopped s := by
  intro hstay
  obtain ⟨s₁, hl₁, hm₁, hsame⟩ := leads_handled hm
  obtain ⟨es₁, he₁, hrun₁⟩ := hl₁.withoutStart
  obtain ⟨s₂, hl₂, hu, hrestarts⟩ :=
    leads_unhindered hm₁ (hsame.sdrRunning.trans hr) (hsame.sdrStarting.trans hs)
  rw [← hsame.restarts, ← hrestarts] at hp
  obtain ⟨s₃, hl₃, hstart⟩ := arrives_pastModeRead hu hp
  obtain ⟨es₂, he₂, hrun₂⟩ := hl₂.trans hl₃.withoutStart
  have hnone := hstay es₁ s₁ es₂ s₃ (by grind) hrun₁ hm₁ hrun₂
  rw [hstart] at hnone
  cases hnone.2

/-! ## The stop holds exactly when no task is past its mode read -/

/-- **When a stop stays a stop.** At the locked block of a `STOP` or `STOP_SDR`
the reader stays away until the next start intent, whatever the interleaving, if
and only if no restart task has read the requested mode and is still to act. -/
theorem staysStopped_iff {s₀ s : System} {rest : List MainOp} (hreach : Reachable s₀)
    (ha : s₀.action.stops = true) (hm : s₀.main = .stopLock :: rest) (h : s₀.step .main = some s) :
    StaysStopped s ↔ NonePast s₀.restarts := by
  have hshape := stopShape_reachable hreach ha
  have hlast : rest = [] ∧ s₀.requestedNative = false := by grind
  obtain ⟨rfl, hmode⟩ := hlast
  obtain ⟨ops, hops, hs⟩ : ∃ ops, (ops = [] ∨ ∃ r, ops = [.callStop r]) ∧
      s = { s₀.stopLock with main := ops } := by
    simp only [step, hm, mainStep, Option.some.injEq] at h
    refine ⟨_, ?_, h.symm⟩
    cases s₀.nativeReader with
    | none => exact .inl rfl
    | some r => exact .inr ⟨r, rfl⟩
  have hmain : s.main = [] ∨ ∃ r, s.main = [.callStop r] := by
    rw [hs]
    exact hops
  constructor
  · intro hstay t
    by_contra hp
    rw [Bool.not_eq_false] at hp
    exact not_staysStopped hmain (by rw [hs]; rfl) (by rw [hs]; rfl) (by rw [hs]; exact hp) hstay
  · intro hpast
    refine staysStopped_of_halted ⟨?_, ?_, ?_, ?_, ?_⟩
    · rw [hs]; exact hmode
    · rw [hs]; rfl
    · rw [hs]; rfl
    · rw [hs]; exact hpast
    · rcases hmain with hmain | ⟨r, hmain⟩ <;> rw [hmain] <;> simp [MainOp.starts]

/-- A reader that cannot load its library returns, and its task schedules a
restart. -/
def failedStart : List Event :=
  .intent { action := .startNativeSdr } :: List.replicate 4 .main ++ List.replicate 2 (.task 0 {}) ++
    [.task 0 { ok := false }] ++ List.replicate 6 (.task 0 {})

def stopSdrUpToLock : List Event := [.intent { action := .stopSdr }, .main, .main]

/-- A restart task still asleep at the stop finds the mode cleared. -/
theorem sleepingRestart_staysStopped :
    ∃ s₀ s, Trace.exec step (created false false) (failedStart ++ stopSdrUpToLock) = some s₀ ∧
      s₀.restarts 0 = .sleeping ∧ s₀.step .main = some s ∧ StaysStopped s := by
  refine ⟨_, _, rfl, rfl, rfl, ?_⟩
  refine (staysStopped_iff ⟨false, false, failedStart ++ stopSdrUpToLock, rfl⟩
    rfl rfl rfl).2 ?_
  intro t
  cases t <;> rfl

/-- A restart task that has tested everything starts its reader behind a
`STOP_SDR` that is handled to its end. -/
theorem lateRestart_not_staysStopped :
    ∃ s₀ s, Trace.exec step (created false false)
        (failedStart ++ List.replicate 5 (.restart 0) ++ stopSdrUpToLock) = some s₀ ∧
      s₀.action = .stopSdr ∧ s₀.step .main = some s ∧ s.main = [] ∧
      (∃ s', s.step (.restart 0) = some s' ∧ s'.nativeReader = some 1 ∧ s'.sdrRunning = true) ∧
      ¬ StaysStopped s := by
  refine ⟨_, _, rfl, rfl, rfl, rfl, ⟨_, rfl, rfl, rfl⟩, ?_⟩
  intro hstay
  have h := hstay [] _ [.restart 0] _ (by decide) rfl rfl rfl
  cases h.2

end AdsbBridge.Service
