import AdsbBridge.Lib.Spacing
import AdsbBridge.Service.Retry
import AdsbBridge.Service.Settled

/-! # Restarts back off

The service with a clock, the failure count and the delays that come of it. As long
as no line comes and no intent, a reader that fails is started again later and later:
there is one chain of readers and restarts, and no second one gets in between. -/
namespace AdsbBridge.Service
open AdsbBridge.Lib AdsbBridge.Service.System

/-! ## Delays -/

def sdrRestartDelayMs : ℕ := 1000

def maxSdrRestartDelayMs : ℕ := 30000

def nativeRetryDelayMs (consecutiveFailures : Int32) : ℕ :=
  let shift := max 0 (min (consecutiveFailures - 1).toInt 5)
  min maxSdrRestartDelayMs (sdrRestartDelayMs <<< shift.toNat)

def isNativeFailure (exitCode : ℤ) : Bool := exitCode < 0 && retries exitCode

/-! ## The service with a clock -/

structure TimedSystem where
  system : System := {}
  nowMs : ℕ := 0
  consecutiveNativeFailures : Int32 := 0
  /-- the delay that the task of a reader has chosen -/
  retryDelayMs : ReaderId → ℕ := fun _ => 0
  /-- when the sleep of a restart task is over -/
  wakesAtMs : ℕ → ℕ := fun _ => 0

inductive TimedEvent
  | service (e : Event)
  /-- time goes by -/
  | tick (ms : ℕ)
  /-- `broadcastLine`, as far as it sets the failure count -/
  | broadcastLine

/-- Neither an intent nor a line. -/
def TimedEvent.quiet : TimedEvent → Bool
  | service (.intent _) | broadcastLine => false
  | _ => true

namespace TimedSystem

/-- What an event of the service does to count and delays. -/
def follow (s : TimedSystem) (system : System) : Event → TimedSystem
  | .main =>
    match s.system.main with
    -- without `coreLinked` nothing follows the change of mode, and the count stays
    | .setMode true :: _ :: _ | .stopLock :: _ =>
      { s with system := system, consecutiveNativeFailures := 0 }
    -- the profile switch
    | .scheduleRunning :: _ =>
      { s with
        system := system
        wakesAtMs := Function.update s.wakesAtMs s.system.nextRestart (s.nowMs + 500) }
    | _ => { s with system := system }
  | .task r _ =>
    match s.system.tasks r with
    | .finishedRunning =>
      if s.system.running && isNativeFailure (s.system.readers r).exitCode then
        let failures := s.consecutiveNativeFailures + 1
        { s with
          system := system
          consecutiveNativeFailures := failures
          retryDelayMs := Function.update s.retryDelayMs r (nativeRetryDelayMs failures) }
      else
        { s with
          system := system
          retryDelayMs := Function.update s.retryDelayMs r sdrRestartDelayMs }
    | .scheduleRunning =>
      { s with
        system := system
        wakesAtMs := Function.update s.wakesAtMs s.system.nextRestart
          (s.nowMs + s.retryDelayMs r) }
    | _ => { s with system := system }
  | _ => { s with system := system }

def asleep (s : TimedSystem) : Event → Bool
  | .restart n => s.system.restarts n = .sleeping && s.nowMs < s.wakesAtMs n
  | _ => false

def step (s : TimedSystem) : TimedEvent → Option TimedSystem
  | .service e =>
    if s.asleep e then none else (s.system.step e).map fun system => s.follow system e
  | .tick ms => some { s with nowMs := s.nowMs + ms }
  | .broadcastLine =>
    some (if s.system.requestedNative then { s with consecutiveNativeFailures := 0 } else s)

def startsAt (s : TimedSystem) : List TimedEvent → List ℕ
  | [] => []
  | e :: es =>
    match s.step e with
    | none => []
    | some s' =>
      (if s.system.nextReader < s'.system.nextReader then [s.nowMs] else []) ++ startsAt s' es

variable {s s' : TimedSystem}

@[simp] theorem follow_system (s : TimedSystem) (system : System) (e : Event) :
    (s.follow system e).system = system := by
  unfold follow
  split
  · split <;> rfl
  · split
    · split <;> rfl
    · rfl
    · rfl
  · rfl

/-- A step of the timed service is one of the service, or none at all. -/
theorem system_of_step {e : TimedEvent} (h : s.step e = some s') :
    s'.system = s.system ∨ ∃ e', e = .service e' ∧ s.system.step e' = some s'.system := by
  cases e with
  | service e' =>
    simp only [step] at h
    split at h
    · cases h
    · obtain ⟨system, hstep, rfl⟩ := Option.map_eq_some_iff.1 h
      rw [follow_system]
      exact .inr ⟨e', rfl, hstep⟩
  | tick ms =>
    cases h
    exact .inl rfl
  | broadcastLine =>
    cases h
    split
    · exact .inl rfl
    · exact .inl rfl

end TimedSystem

/-! ## The one chain -/

/-- What leads to the next start: the current reader, the task of one that has ended,
or a restart task. -/
inductive Token
  | reader
  | task (r : ReaderId)
  | restart (n : ℕ)

def Token.Held (s : System) : Token → Prop
  | reader => s.nativeReader ≠ none
  | task r => (s.tasks r).deciding = true
  | restart n => (s.restarts n).pending = true

/-- Nothing else leads to a start. -/
def Only (s : System) (x : Token) : Prop := ∀ y : Token, y.Held s → y = x

def TaskPhase.counting : TaskPhase → Bool
  | .finishedMode | .finishedRunning => true
  | _ => false

/-- What a token says of the next start: how many failures there are then, and when it
comes at the earliest. -/
def Allows (s : TimedSystem) (earliest : ℕ) (failures : Int32) : Token → Prop
  | .reader => failures = s.consecutiveNativeFailures + 1 ∧
      earliest ≤ s.nowMs + nativeRetryDelayMs failures
  | .task r =>
    if (s.system.tasks r).counting then
      (s.system.readers r).exitCode < 0 ∧ failures = s.consecutiveNativeFailures + 1 ∧
        earliest ≤ s.nowMs + nativeRetryDelayMs failures
    else failures = s.consecutiveNativeFailures ∧ earliest ≤ s.nowMs + s.retryDelayMs r
  | .restart n => failures = s.consecutiveNativeFailures ∧
      earliest ≤ if s.system.restarts n = .sleeping then s.wakesAtMs n else s.nowMs

/-- The next start does not come before `earliest`, and with this failure count. -/
def Due (s : TimedSystem) (earliest : ℕ) (failures : Int32) : Prop :=
  ∀ x : Token, x.Held s.system → Only s.system x ∧ Allows s earliest failures x

section Chain

variable {s s' : TimedSystem} {system : System} {earliest earliest' : ℕ}
  {failures failures' : Int32}

/-- One token goes, and `y` comes in its place or none at all. -/
theorem Due.move {x y : Token} (h : Due s earliest failures) (hx : x.Held s.system)
    (hheld : ∀ z : Token, z.Held s'.system → z = y ∨ z ≠ x ∧ z.Held s.system)
    (hallows : y.Held s'.system → Allows s earliest failures x →
      Allows s' earliest' failures' y) : Due s' earliest' failures' := by
  obtain ⟨honly, hold⟩ := h x hx
  have hall : ∀ z : Token, z.Held s'.system → z = y := fun z hz =>
    (hheld z hz).resolve_right fun ⟨hne, hz'⟩ => hne (honly z hz')
  intro z hz
  obtain rfl := hall z hz
  exact ⟨hall, hallows hz hold⟩

/-- A step that leads nothing nearer to a start. -/
theorem Due.frame (h : Due s earliest failures)
    (hreader : s'.system.nativeReader ≠ none → s.system.nativeReader ≠ none)
    (htasks : ∀ r, (s'.system.tasks r).deciding = true → s'.system.tasks r = s.system.tasks r)
    (hrestarts : ∀ n, (s'.system.restarts n).pending = true →
      s'.system.restarts n = s.system.restarts n)
    (hexit : ∀ r, (s.system.tasks r).deciding = true → (s.system.readers r).exitCode < 0 →
      (s'.system.readers r).exitCode < 0)
    (hnow : s.nowMs ≤ s'.nowMs)
    (hfailures : s'.consecutiveNativeFailures = s.consecutiveNativeFailures)
    (hdelays : ∀ r, (s.system.tasks r).deciding = true → s'.retryDelayMs r = s.retryDelayMs r)
    (hwakes : s'.wakesAtMs = s.wakesAtMs) : Due s' earliest failures := by
  have hheld : ∀ x : Token, x.Held s'.system → x.Held s.system := by
    intro x hx
    cases x with
    | reader => exact hreader hx
    | task r =>
      rw [Token.Held, htasks r hx] at hx
      exact hx
    | restart n =>
      rw [Token.Held, hrestarts n hx] at hx
      exact hx
  intro x hx
  obtain ⟨honly, hallows⟩ := h x (hheld x hx)
  refine ⟨fun y hy => honly y (hheld y hy), ?_⟩
  cases x with
  | reader =>
    refine ⟨?_, Nat.le_trans hallows.2 (Nat.add_le_add_right hnow _)⟩
    rw [hfailures]
    exact hallows.1
  | task r =>
    have hd := hheld _ hx
    simp only [Allows, htasks r hx, hfailures, hdelays r hd] at hallows ⊢
    split
    · next hcounting =>
      rw [if_pos hcounting] at hallows
      exact ⟨hexit r hd hallows.1, hallows.2.1,
        Nat.le_trans hallows.2.2 (Nat.add_le_add_right hnow _)⟩
    · next hcounting =>
      rw [if_neg hcounting] at hallows
      exact ⟨hallows.1, Nat.le_trans hallows.2 (Nat.add_le_add_right hnow _)⟩
  | restart n =>
    simp only [Allows, hrestarts n hx, hfailures, hwakes] at hallows ⊢
    refine ⟨hallows.1, Nat.le_trans hallows.2 ?_⟩
    split
    · exact Nat.le_refl _
    · exact hnow

theorem held_of_task {u v : System} {r : ReaderId} {p : TaskPhase} {y : Token}
    (hreader : v.nativeReader = u.nativeReader) (hrestarts : v.restarts = u.restarts)
    (htasks : v.tasks = Function.update u.tasks r p) (hy : y.Held v) :
    y = .task r ∨ y ≠ .task r ∧ y.Held u := by
  cases y with
  | reader =>
    rw [Token.Held, hreader] at hy
    exact .inr ⟨Token.noConfusion, hy⟩
  | restart n =>
    rw [Token.Held, hrestarts] at hy
    exact .inr ⟨Token.noConfusion, hy⟩
  | task r' =>
    rw [Token.Held, htasks] at hy
    by_cases hr : r' = r
    · exact .inl (by rw [hr])
    · rw [Function.update_of_ne hr] at hy
      exact .inr ⟨fun h => hr (Token.task.inj h), hy⟩

theorem held_of_restart {u v : System} {n : ℕ} {p : RestartPhase} {y : Token}
    (hreader : v.nativeReader = u.nativeReader) (htasks : v.tasks = u.tasks)
    (hrestarts : v.restarts = Function.update u.restarts n p) (hy : y.Held v) :
    y = .restart n ∨ y ≠ .restart n ∧ y.Held u := by
  cases y with
  | reader =>
    rw [Token.Held, hreader] at hy
    exact .inr ⟨Token.noConfusion, hy⟩
  | task r =>
    rw [Token.Held, htasks] at hy
    exact .inr ⟨Token.noConfusion, hy⟩
  | restart n' =>
    rw [Token.Held, hrestarts] at hy
    by_cases hn : n' = n
    · exact .inl (by rw [hn])
    · rw [Function.update_of_ne hn] at hy
      exact .inr ⟨fun h => hn (Token.restart.inj h), hy⟩

/-- A task that decides nothing, before the step and after it. -/
theorem Due.idleTask (h : Due s earliest failures) {r : ReaderId} {p : TaskPhase}
    (hp : p.deciding = false) (hreader : s'.system.nativeReader = s.system.nativeReader)
    (hrestarts : s'.system.restarts = s.system.restarts)
    (htasks : s'.system.tasks = Function.update s.system.tasks r p)
    (hexit : ∀ r', r' ≠ r → s'.system.readers r' = s.system.readers r')
    (hidle : (s.system.tasks r).deciding = false) (hnow : s'.nowMs = s.nowMs)
    (hfailures : s'.consecutiveNativeFailures = s.consecutiveNativeFailures)
    (hdelays : s'.retryDelayMs = s.retryDelayMs) (hwakes : s'.wakesAtMs = s.wakesAtMs) :
    Due s' earliest failures := by
  refine h.frame (fun hn => hreader ▸ hn) (fun r' hr' => ?_) (fun n _ => by rw [hrestarts])
    (fun r' hd he => ?_) (Nat.le_of_eq hnow.symm) hfailures (fun _ _ => by rw [hdelays]) hwakes
  · rw [htasks] at hr' ⊢
    by_cases hr : r' = r
    · rw [hr, Function.update_self, hp] at hr'
      cases hr'
    · rw [Function.update_of_ne hr]
  · have hr : r' ≠ r := by
      rintro rfl
      rw [hidle] at hd
      cases hd
    rw [hexit r' hr]
    exact he

/-- The task of a reader. -/
theorem Due.task {r : ReaderId} {o : Outcome} (hs : Settled s.system) (h : Due s earliest failures)
    (hstep : s.system.taskStep r o = some system) :
    Due (s.follow system (.task r o)) earliest failures := by
  unfold System.taskStep at hstep
  unfold TimedSystem.follow
  have hidle : ∀ p : TaskPhase, s.system.tasks r = p → p.deciding = false →
      (s.system.tasks r).deciding = false := fun p hp hd => hp ▸ hd
  have hheld : ∀ p : TaskPhase, s.system.tasks r = p → p.deciding = true →
      (Token.task r).Held s.system := fun p hp hd => by rw [Token.Held, hp]; exact hd
  cases hp : s.system.tasks r <;> simp only [hp] at hstep ⊢
  case absent => cases hstep
  case done => cases hstep
  case clearStarting =>
    cases hstep
    exact h.idleTask rfl rfl rfl rfl (fun _ _ => rfl) (hidle _ hp rfl) rfl rfl rfl rfl
  case running =>
    split at hstep
    · cases hstep
      exact h.idleTask rfl rfl rfl rfl (fun _ _ => rfl) (hidle _ hp rfl) rfl rfl rfl rfl
    · obtain ⟨⟨reader, device⟩, -, rfl⟩ := Option.map_eq_some_iff.1 hstep
      exact h.idleTask (p := s.system.tasks r) (by rw [hp]; rfl) rfl rfl
        (Function.update_eq_self r _).symm (fun r' hr => Function.update_of_ne hr _ _)
        (hidle _ hp rfl) rfl rfl rfl rfl
  case finishLock =>
    cases hstep
    split
    · next hcurrent =>
      -- the current reader becomes the task that counts its failure
      have hreader : Token.reader.Held s.system := by
        rw [Token.Held, hcurrent]
        exact Option.some_ne_none r
      refine h.move (y := .task r) hreader (fun y hy => ?_) fun _ hallows => ?_
      · cases y with
        | reader => exact absurd rfl hy
        | restart n => exact .inr ⟨Token.noConfusion, hy⟩
        | task r' =>
          rcases held_of_task (u := s.system.stopLock)
            (v := s.system.stopLock.setTask r .finishedMode) rfl rfl rfl hy with hr | ⟨-, hr⟩
          · exact .inl hr
          · exact .inr ⟨Token.noConfusion, hr⟩
      · have hexit : (s.system.readers r).exitCode < 0 :=
          (hs.healthy r hcurrent).exitCode (hs.returned r hp)
        simpa [Allows, System.setTask, System.stopLock, TaskPhase.counting] using ⟨hexit, hallows⟩
    · exact h.idleTask rfl rfl rfl rfl (fun _ _ => rfl) (hidle _ hp rfl) rfl rfl rfl rfl
  case finishedMode | scheduleMode =>
    cases hstep
    refine h.move (y := .task r) (hheld _ hp rfl) (fun y => held_of_task rfl rfl rfl)
      fun hafter hallows => ?_
    by_cases hmode : s.system.requestedNative = true
    · simpa [Allows, hp, hmode, System.setTask, TaskPhase.counting] using hallows
    · simp [Token.Held, hmode, System.setTask, TaskPhase.deciding] at hafter
  case finishedRunning =>
    cases hstep
    have hmove : ∀ (u : TimedSystem) (p : TaskPhase), u.system = s.system.setTask r p →
        ((Token.task r).Held u.system → Allows s earliest failures (.task r) →
          Allows u earliest failures (.task r)) → Due u earliest failures := by
      intro u p hu hallows
      exact h.move (hheld _ hp rfl) (fun y => held_of_task (by rw [hu]; rfl) (by rw [hu]; rfl)
        (by rw [hu]; rfl)) hallows
    split
    · next hfails =>
      refine hmove _ _ rfl fun hafter hallows => ?_
      simp only [isNativeFailure, Bool.and_eq_true, decide_eq_true_eq] at hfails
      simp only [Allows, hp, TaskPhase.counting] at hallows
      simp [Allows, hfails, System.setTask, TaskPhase.counting, ← hallows.2.1, hallows.2.2]
    · next hfails =>
      refine hmove _ _ rfl fun hafter hallows => ?_
      simp only [Allows, hp, TaskPhase.counting] at hallows
      simp only [isNativeFailure, hallows.1, decide_true, Bool.true_and, Bool.not_eq_true] at hfails
      simp [Token.Held, hfails, System.setTask, TaskPhase.deciding] at hafter
  case scheduleRunning =>
    cases hstep
    by_cases hrunning : s.system.running = true
    · -- the task hands over to the restart task
      refine h.move (y := .restart s.system.nextRestart) (hheld _ hp rfl) (fun y hy => ?_)
        fun _ hallows => ?_
      · simp only [if_pos hrunning] at hy
        rcases held_of_task (u := s.system.spawnRestart)
            (v := s.system.spawnRestart.setTask r .done) rfl rfl rfl hy with rfl | ⟨hne, hy⟩
        · simp [Token.Held, System.setTask, TaskPhase.deciding] at hy
        · rcases held_of_restart (u := s.system) (v := s.system.spawnRestart) rfl rfl rfl hy
            with hn | ⟨-, hy⟩
          · exact .inl hn
          · exact .inr ⟨hne, hy⟩
      · simpa [Allows, hp, hrunning, System.setTask, spawnRestart, TaskPhase.counting] using hallows
    · refine h.move (y := .task r) (hheld _ hp rfl) (fun y hy => ?_) fun hafter _ => ?_
      · simp only [if_neg hrunning] at hy
        exact held_of_task (v := s.system.setTask r .done) rfl rfl rfl hy
      · simp [Token.Held, hrunning, System.setTask, TaskPhase.deciding] at hafter

/-- A restart task comes nearer to its start, or starts the reader. -/
theorem Due.restart {n : ℕ} (h : Due s earliest failures) (hawake : s.asleep (.restart n) = false)
    (hstep : s.system.restartStep n = some system) :
    (system.nextReader = s.system.nextReader ∧ Due { s with system := system } earliest failures) ∨
      s.system.nextReader < system.nextReader ∧ earliest ≤ s.nowMs ∧
        Due { s with system := system } (s.nowMs + nativeRetryDelayMs (failures + 1))
          (failures + 1) := by
  have hheld : ∀ p : RestartPhase, s.system.restarts n = p → p.pending = true →
      (Token.restart n).Held s.system := fun p hp hd => by rw [Token.Held, hp]; exact hd
  -- a phase that is not the last one
  have hnext : ∀ p : RestartPhase, (Token.restart n).Held s.system → p ≠ .sleeping →
      (Allows s earliest failures (.restart n) →
        failures = s.consecutiveNativeFailures ∧ earliest ≤ s.nowMs) →
      Due { s with system := s.system.setRestart n p } earliest failures := by
    intro p hx hp hallows
    refine h.move (y := .restart n) hx (fun y => held_of_restart rfl rfl rfl) fun _ hold => ?_
    simpa [Allows, setRestart, hp] using hallows hold
  unfold System.restartStep at hstep
  cases hp : s.system.restarts n <;> simp only [hp] at hstep
  case absent => cases hstep
  case done => cases hstep
  case sleeping =>
    cases hstep
    refine .inl ⟨rfl, hnext _ (hheld _ hp rfl) (by simp) fun hold => ?_⟩
    simp only [Allows, hp, if_true] at hold
    simp only [TimedSystem.asleep, hp, decide_true, Bool.true_and, decide_eq_false_iff_not,
      Nat.not_lt] at hawake
    exact ⟨hold.1, Nat.le_trans hold.2 hawake⟩
  case startLock =>
    cases hstep
    have hx : (Token.restart n).Held s.system := hheld _ hp rfl
    have hallows : failures = s.consecutiveNativeFailures ∧ earliest ≤ s.nowMs := by
      simpa [Allows, hp] using (h _ hx).2
    by_cases hfree : (s.system.sdrRunning || s.system.sdrStarting) = true
    · rw [startReader, if_pos hfree]
      exact .inl ⟨rfl, hnext _ hx (by simp) fun _ => hallows⟩
    · refine .inr ⟨?_, hallows.2, ?_⟩
      · rw [startReader, if_neg hfree]
        exact Nat.lt_succ_self _
      · refine h.move (y := .reader) hx (fun y hy => ?_)
          fun _ _ => ⟨by rw [hallows.1], Nat.le_refl _⟩
        rw [startReader, if_neg hfree] at hy
        cases y with
        | reader => exact .inl rfl
        | restart n' =>
          by_cases hn : n' = n
          · simp [Token.Held, setRestart, hn, RestartPhase.pending] at hy
          · refine .inr ⟨fun h => hn (Token.restart.inj h), ?_⟩
            simpa [Token.Held, setRestart, Function.update_of_ne hn] using hy
        | task r =>
          refine .inr ⟨Token.noConfusion, ?_⟩
          by_cases hr : r = s.system.nextReader
          · simp [Token.Held, setRestart, hr, TaskPhase.deciding] at hy
          · simpa [Token.Held, setRestart, Function.update_of_ne hr] using hy
  all_goals
    cases hstep
    refine .inl ⟨rfl, hnext _ (hheld _ hp rfl) (by split <;> simp) fun hold => ?_⟩
    simpa [Allows, hp] using hold

theorem failed_stopStep {r r' : Reader} {device device' : Option ReaderId}
    (h : stopStep r device = some (r', device')) (hr : r.exitCode < 0) : r'.exitCode < 0 := by
  rcases exitCode_stopStep h with hsame | ⟨hok, -⟩
  · rw [hsame]
    exact hr
  · exact absurd hok (Int.ne_of_lt hr)

theorem nextReader_taskStep {u v : System} {r : ReaderId} {o : Outcome}
    (h : u.taskStep r o = some v) : v.nextReader = u.nextReader := by
  cases @currentStep_of_step u v (.service (.task r o)) h with
  | install he => exact absurd rfl (he r o)
  | clear he => exact absurd rfl (he r o)
  | finish _ _ _ _ hx => exact hx
  | keep _ _ _ _ hx => exact hx
  | same _ _ hx => exact hx

/-- What the chain is about: the main thread has nothing to do. -/
structure Calm (s : TimedSystem) : Prop where
  settled : Settled s.system
  idle : s.system.main = []

theorem Calm.step (hs : Calm s) {e : TimedEvent} (he : e.quiet = true) (h : s.step e = some s') :
    Calm s' := by
  rcases TimedSystem.system_of_step h with hsame | ⟨e', rfl, hstep⟩
  · exact ⟨hsame ▸ hs.settled, hsame ▸ hs.idle⟩
  · refine ⟨hs.settled.step hstep, ?_⟩
    have hmain : e' ≠ .main := by
      rintro rfl
      simp [System.step, hs.idle] at hstep
    rw [(step_frame hstep hmain fun i hi => by simp [hi, TimedEvent.quiet] at he).2.1]
    exact hs.idle

/-- **One step.** Either there is no start, and the next one is due as before, or there is
one that was due, and the one after it is due when the next delay is over. -/
theorem Due.step (hs : Calm s) (h : Due s earliest failures) {e : TimedEvent}
    (he : e.quiet = true) (hstep : s.step e = some s') :
    (s'.system.nextReader = s.system.nextReader ∧ Due s' earliest failures) ∨
      s.system.nextReader < s'.system.nextReader ∧ earliest ≤ s.nowMs ∧
        Due s' (s.nowMs + nativeRetryDelayMs (failures + 1)) (failures + 1) := by
  cases e with
  | broadcastLine => cases he
  | tick ms =>
    cases hstep
    exact .inl ⟨rfl, h.frame id (fun _ _ => rfl) (fun _ _ => rfl) (fun _ _ => id)
      (Nat.le_add_right _ _) rfl (fun _ _ => rfl) rfl⟩
  | service e =>
    simp only [TimedSystem.step] at hstep
    split at hstep
    · cases hstep
    next hawake =>
    obtain ⟨system, hsystem, rfl⟩ := Option.map_eq_some_iff.1 hstep
    rw [TimedSystem.follow_system]
    cases e with
    | intent i => cases he
    | main => simp [System.step, hs.idle] at hsystem
    | restart n => exact h.restart (by simpa using hawake) hsystem
    | task r o => exact .inl ⟨nextReader_taskStep hsystem, h.task hs.settled hsystem⟩
    | interrupt n =>
      simp only [System.step] at hsystem
      split at hsystem
      · cases hsystem
        refine .inl ⟨rfl, h.frame id (fun _ _ => rfl) (fun n' hn' => ?_) (fun _ _ => id)
          (Nat.le_refl _) rfl (fun _ _ => rfl) rfl⟩
        by_cases hn : n' = n
        · simp [TimedSystem.follow, setRestart, hn, RestartPhase.pending] at hn'
        · exact Function.update_of_ne hn _ _
      · cases hsystem
    | stop r =>
      obtain ⟨⟨reader, device⟩, hstop, rfl⟩ := Option.map_eq_some_iff.1 hsystem
      refine .inl ⟨rfl, h.frame id (fun _ _ => rfl) (fun _ _ => rfl) (fun r' _ hexit => ?_)
        (Nat.le_refl _) rfl (fun _ _ => rfl) rfl⟩
      by_cases hr : r' = r
      · subst hr
        simpa [TimedSystem.follow, setReader] using failed_stopStep hstop hexit
      · simpa [TimedSystem.follow, setReader, Function.update_of_ne hr] using hexit
    | acceptLoopEnds =>
      simp only [System.step] at hsystem
      split at hsystem
      · cases hsystem
      · cases hsystem
        exact .inl ⟨rfl, h.frame id (fun _ _ => rfl) (fun _ _ => rfl) (fun _ _ => id)
          (Nat.le_refl _) rfl (fun _ _ => rfl) rfl⟩

theorem failures_add (failures : Int32) (i : ℕ) :
    failures + 1 + Int32.ofNat (i + 1) = failures + Int32.ofNat (i + 1 + 1) := by
  rw [Int32.ofNat_add (i + 1) 1, Int32.add_assoc, Int32.add_comm 1]
  rfl

/-- **A run.** Each start waits for the delay behind the one before. -/
theorem Due.spaced (hs : Calm s) (h : Due s earliest failures) {es : List TimedEvent}
    (he : ∀ e ∈ es, e.quiet = true) :
    Spaced (fun i => nativeRetryDelayMs (failures + Int32.ofNat (i + 1))) earliest
      (s.startsAt es) := by
  induction es generalizing s earliest failures with
  | nil => trivial
  | cons e es ih =>
    have hquiet : e.quiet = true := he e List.mem_cons_self
    have hrest : ∀ e ∈ es, e.quiet = true := fun e h => he e (List.mem_cons_of_mem _ h)
    rw [TimedSystem.startsAt]
    split
    · trivial
    · next s' hstep =>
      have hs' : Calm s' := hs.step hquiet hstep
      rcases h.step hs hquiet hstep with ⟨hsame, hdue⟩ | ⟨hlt, hearliest, hdue⟩
      · rw [if_neg (by rw [hsame]; exact Nat.lt_irrefl _), List.nil_append]
        exact ih hs' hdue hrest
      · rw [if_pos hlt]
        refine ⟨hearliest, ?_⟩
        have hspaced := ih hs' hdue hrest
        simp only [failures_add] at hspaced
        exact hspaced

/-- **A failing reader backs off.** The current reader and those that follow it are on
their own: no line comes, no intent, and nothing else is on its way to a start. Then each
of them starts when the delays of all failures up to it are over. -/
theorem restarts_back_off {es : List TimedEvent} (hreach : Reachable s.system)
    (hidle : s.system.main = []) (hrestarts : ∀ n, (s.system.restarts n).pending = false)
    (htasks : ∀ r, (s.system.tasks r).deciding = false) (he : ∀ e ∈ es, e.quiet = true)
    {i time : ℕ} (htime : (s.startsAt es)[i]? = some time) :
    s.nowMs + ∑ j ∈ Finset.range (i + 1),
      nativeRetryDelayMs (s.consecutiveNativeFailures + Int32.ofNat (j + 1)) ≤ time := by
  have hcalm : Calm s := ⟨settled_reachable hreach, hidle⟩
  have hdue : Due s (s.nowMs + nativeRetryDelayMs (s.consecutiveNativeFailures + 1))
      (s.consecutiveNativeFailures + 1) := by
    have honly : Only s.system .reader := by
      intro y hy
      cases y with
      | reader => rfl
      | task r => exact absurd hy (by simp [Token.Held, htasks r])
      | restart n => exact absurd hy (by simp [Token.Held, hrestarts n])
    intro x hx
    obtain rfl := honly x hx
    exact ⟨honly, rfl, Nat.le_refl _⟩
  have hspaced := (hdue.spaced hcalm he).le_getElem htime
  simp only [failures_add] at hspaced
  rw [Finset.sum_range_succ', Nat.add_comm (∑ j ∈ _, _), ← Nat.add_assoc]
  exact hspaced

/-- The reader `r` cannot load the library, and when the delay is over its restart task
starts the next one. -/
def failedRound (r : ReaderId) (ms : ℕ) : List TimedEvent :=
  List.replicate 2 (.service (.task r {})) ++ [.service (.task r { ok := false })] ++
    List.replicate 6 (.service (.task r {})) ++ [.tick ms] ++
    List.replicate 6 (.service (.restart r))

theorem failedRound_backs_off :
    ∃ s es, TimedSystem.startsAt s es = [1000, 3000] ∧
      s.nowMs + ∑ j ∈ Finset.range 2,
        nativeRetryDelayMs (s.consecutiveNativeFailures + Int32.ofNat (j + 1)) ≤ 3000 := by
  have hrun : ∃ s, Trace.exec System.step (created false false) startedReader = some s ∧
      s.main = [] ∧ s.restarts = (fun _ => .absent) ∧
      s.tasks = Function.update (fun _ => .absent) 0 .clearStarting ∧
      TimedSystem.startsAt { system := s } (failedRound 0 1000 ++ failedRound 1 2000) =
        [1000, 3000] :=
    ⟨_, rfl, rfl, rfl, rfl, rfl⟩
  obtain ⟨s, h, hidle, hrestarts, htasks, hstarts⟩ := hrun
  refine ⟨{ system := s }, failedRound 0 1000 ++ failedRound 1 2000, hstarts, ?_⟩
  refine restarts_back_off ⟨false, false, startedReader, h⟩ hidle
    (fun n => by rw [hrestarts]; rfl) (fun r => ?_) (List.all_eq_true.1 rfl) (i := 1)
    (by rw [hstarts]; rfl)
  rw [htasks, Function.update_apply]
  split
  · rfl
  · rfl

end Chain

end AdsbBridge.Service
