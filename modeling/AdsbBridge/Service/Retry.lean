import AdsbBridge.Service.Current
import AdsbBridge.Service.Restart

/-! # No restart is lost

As long as the native reader is wanted and may come back, there is a reader, or
some thread is on its way to start one: the main thread, a restart task, or the
task of the reader that ended. A restart task gives up where it finds a reader or
a changed mode; each of them is a reason for somebody else to be on the way. -/
namespace AdsbBridge.Service
open AdsbBridge.Lib AdsbBridge.Service.System

/-! ## Who starts the next reader -/

def RestartPhase.pending : RestartPhase → Bool
  | .absent | .done => false
  | _ => true

/-- The task of a reader that ended has not decided about a restart. -/
def TaskPhase.deciding : TaskPhase → Bool
  | .finishedMode | .finishedRunning | .scheduleMode | .scheduleRunning => true
  | _ => false

/-- The operation starts a reader or schedules a restart, as long as one is wanted. -/
def MainOp.provides : MainOp → Bool
  | .testSdrRunning _ | .testSdrStarting | .resume | .startLock | .scheduleMode
  | .scheduleRunning => true
  | _ => false

/-- There is a reader, or a thread on its way to start one. -/
inductive Provided (s : System) : Prop
  | reader (h : s.nativeReader ≠ none)
  | restart (t : ℕ) (h : (s.restarts t).pending = true)
  | task (r : ReaderId) (h : (s.tasks r).deciding = true)
      (hretries : retries (s.readers r).exitCode = true)
  | main (op : MainOp) (h : op ∈ s.main) (hop : op.provides = true)

/-- A reader is stopped only in order to start the next one. -/
def Switches : List MainOp → Prop
  | [] => True
  | .stopLock :: rest => .scheduleMode ∈ rest ∧ Switches rest
  | _ :: rest => Switches rest

/-- The intents that leave the choice of a reader alone. -/
def Action.keepsReader : Action → Bool
  | .start | .startSdr | .startNativeSdr | .sendTest => true
  | .stop | .stopSdr | .usbDetached => false

/-- The event is no stop or detach intent, no interrupt, and not the end of a reader
that has no device or no permission. -/
def Spares (s : System) : Event → Prop
  | .intent i => i.action.keepsReader = true
  | .interrupt _ => False
  | .task r _ => s.tasks r = .finishLock → s.nativeReader = some r →
    retries (s.readers r).exitCode = true
  | _ => True

instance (s : System) : (e : Event) → Decidable (Spares s e)
  | .intent _ | .interrupt _ | .task _ _ | .main | .restart _ | .stop _ | .acceptLoopEnds => by
    unfold Spares
    infer_instance

/-- The reader is wanted, and the event takes nothing of that back. -/
def Wanted (s : System) (e : Event) : Prop :=
  s.requestedNative = true ∧ s.running = true ∧ Spares s e

instance (s : System) (e : Event) : Decidable (Wanted s e) := inferInstanceAs (Decidable (_ ∧ _))

/-- What is kept while the reader is wanted. -/
structure Retrying (s : System) : Prop where
  consistent : Consistent s
  starting : s.sdrStarting = true → s.sdrRunning = true
  switches : Switches s.main
  provided : Provided s

section

variable {s s' : System}

/-- The locked block of a start leaves a reader behind. -/
theorem reader_startReader (hs : Retrying s) : s.startReader.nativeReader ≠ none := by
  unfold startReader
  split
  · next hbusy =>
    refine hs.consistent.running_iff.1 ?_
    rcases Bool.or_eq_true_iff.1 hbusy with hrunning | hstarting
    · exact hrunning
    · exact hs.starting hstarting
  · exact Option.some_ne_none _

theorem starting_startReader (hs : s.sdrStarting = true → s.sdrRunning = true) :
    s.startReader.sdrStarting = true → s.startReader.sdrRunning = true := by
  unfold startReader
  split
  · exact hs
  · exact fun _ => rfl

theorem switches_operations {i : Intent} (hi : i.action.keepsReader = true) (changed : Bool) :
    Switches (operations changed i.coreLinked i.action) := by
  cases hact : i.action <;> rw [hact] at hi <;> try cases hi
  all_goals
    simp only [operations]
    try split
    all_goals simp [Switches]

theorem Switches.tail {op : MainOp} {rest : List MainOp} (h : Switches (op :: rest)) :
    Switches rest := by
  cases op with
  | stopLock => exact h.2
  | _ => exact h

/-- Whoever was on the way still is. -/
theorem Provided.frame (h : Provided s) (hreader : s'.nativeReader = s.nativeReader)
    (hrestarts : ∀ t, (s.restarts t).pending = true → (s'.restarts t).pending = true)
    (htasks : ∀ r, (s.tasks r).deciding = true → retries (s.readers r).exitCode = true →
      (s'.tasks r).deciding = true ∧ retries (s'.readers r).exitCode = true)
    (hmain : ∀ op ∈ s.main, op.provides = true → op ∈ s'.main) : Provided s' := by
  cases h with
  | reader h => exact .reader (hreader ▸ h)
  | restart t h => exact .restart t (hrestarts t h)
  | task r h hretries => exact .task r (htasks r h hretries).1 (htasks r h hretries).2
  | main op h hop => exact .main op (hmain op h hop) hop

theorem retries_setReader {r r' : ReaderId} {reader : Reader} (device : Option ReaderId)
    (h : retries (s.readers r).exitCode = true → retries reader.exitCode = true)
    (hr : retries (s.readers r').exitCode = true) :
    retries ((s.setReader r reader device).readers r').exitCode = true := by
  unfold setReader
  by_cases heq : r' = r
  · subst heq
    simpa using h hr
  · simpa [Function.update_of_ne heq] using hr

theorem exitCode_stopCall (byRun : Bool) (r : Reader) : (stopCall byRun r).exitCode = r.exitCode := by
  unfold stopCall
  split <;> rfl

/-- `stop()` sets the exit code of a reader that has none yet. -/
theorem exitCode_stopStep {r r' : Reader} {device device' : Option ReaderId}
    (h : stopStep r device = some (r', device')) :
    r'.exitCode = r.exitCode ∨ r.exitCode = exitOk ∧ r'.exitCode = exitStopped := by
  unfold stopStep at h
  cases hstop : r.stop <;> simp only [hstop] at h
  case markStopped =>
    cases h
    dsimp only
    split
    · next hok => exact .inr ⟨hok, rfl⟩
    · exact .inl rfl
  all_goals
    cases h
  all_goals exact .inl rfl

theorem retries_stopStep {r r' : Reader} {device device' : Option ReaderId}
    (h : stopStep r device = some (r', device')) (hr : retries r.exitCode = true) :
    retries r'.exitCode = true := by
  rcases exitCode_stopStep h with hsame | ⟨-, hstopped⟩
  · rw [hsame]
    exact hr
  · rw [hstopped]
    rfl

/-- The main thread. -/
theorem Retrying.mainStep (hs : Retrying s) (hmode : s.requestedNative = true)
    (hrunning : s.running = true) {op : MainOp} {rest : List MainOp} (hm : s.main = op :: rest)
    (h : s.mainStep rest op = some s') : Provided s' ∧ Switches s'.main := by
  have hswitches : Switches (op :: rest) := hm ▸ hs.switches
  have hrest := hswitches.tail
  have hkeeps : op.provides = false → ∀ o ∈ s.main, o.provides = true → o ∈ rest := by
    intro hop o ho hprovides
    rw [hm] at ho
    rcases List.mem_cons.1 ho with rfl | ho
    · rw [hop] at hprovides
      cases hprovides
    · exact ho
  cases op with
  | startServer =>
    simp only [System.mainStep, if_pos hrunning, Option.some.injEq] at h
    subst h
    exact ⟨hs.provided.frame rfl (fun _ => id) (fun _ hd hr => ⟨hd, hr⟩) (hkeeps rfl), hrest⟩
  | setMode native =>
    cases h
    exact ⟨hs.provided.frame rfl (fun _ => id) (fun _ hd hr => ⟨hd, hr⟩) (hkeeps rfl), hrest⟩
  | clearRunning =>
    cases h
    exact ⟨hs.provided.frame rfl (fun _ => id) (fun _ hd hr => ⟨hd, hr⟩) (hkeeps rfl), hrest⟩
  | testSdrRunning changed =>
    cases h
    dsimp only
    split
    · exact ⟨.main .startLock List.mem_cons_self rfl, hrest⟩
    · split
      · exact ⟨.main .scheduleMode (by simp) rfl, by simp, hrest⟩
      · exact ⟨.main .testSdrStarting List.mem_cons_self rfl, hrest⟩
  | testSdrStarting =>
    cases h
    dsimp only
    split
    · exact ⟨.main .scheduleMode (by simp) rfl, by simp, hrest⟩
    · exact ⟨.main .startLock List.mem_cons_self rfl, hrest⟩
  | resume =>
    simp only [System.mainStep, if_pos hmode, Option.some.injEq] at h
    subst h
    exact ⟨.main .startLock List.mem_cons_self rfl, hrest⟩
  | startLock =>
    cases h
    exact ⟨.reader (reader_startReader hs), hrest⟩
  | stopLock =>
    cases h
    dsimp only
    split
    · exact ⟨.main .scheduleMode (List.mem_cons_of_mem _ hswitches.1) rfl, hrest⟩
    · exact ⟨.main .scheduleMode hswitches.1 rfl, hrest⟩
  | callStop r =>
    cases h
    split
    · exact ⟨hs.provided.frame rfl (fun _ => id) (fun _ hd hr => ⟨hd, hr⟩) (hkeeps rfl), hrest⟩
    · refine ⟨hs.provided.frame rfl (fun _ => id) (fun r' hd hr => ⟨hd, ?_⟩)
        fun o ho hprovides => List.mem_cons_of_mem _ (hkeeps rfl o ho hprovides), hrest⟩
      exact retries_setReader s.device (fun h => by rwa [exitCode_stopCall]) hr
  | awaitStop r =>
    simp only [System.mainStep] at h
    split at h
    · cases h
      exact ⟨hs.provided.frame rfl (fun _ => id) (fun _ hd hr => ⟨hd, hr⟩) (hkeeps rfl), hrest⟩
    · cases h
  | scheduleMode =>
    simp only [System.mainStep, if_pos hmode, Option.some.injEq] at h
    subst h
    exact ⟨.main .scheduleRunning List.mem_cons_self rfl, hrest⟩
  | scheduleRunning =>
    simp only [System.mainStep, if_pos hrunning, Option.some.injEq] at h
    subst h
    exact ⟨.restart s.nextRestart (by simp [spawnRestart, RestartPhase.pending]), hrest⟩

/-- A restart task goes on, finds a reader, or starts one. -/
theorem Retrying.restartStep (hs : Retrying s) (hmode : s.requestedNative = true)
    (hrunning : s.running = true) {t : ℕ} (h : s.restartStep t = some s') : Provided s' := by
  -- where the task goes on it is itself on the way
  have hgoes : ∀ p : RestartPhase, p.pending = true → Provided (s.setRestart t p) := fun p hp =>
    .restart t (by simpa [setRestart] using hp)
  unfold System.restartStep at h
  cases hp : s.restarts t <;> simp only [hp] at h
  case absent => cases h
  case done => cases h
  case sleeping =>
    cases h
    exact hgoes _ rfl
  case readMode =>
    cases h
    rw [if_pos hmode]
    exact hgoes _ rfl
  case readSdrRunning =>
    cases h
    split
    · next hbusy => exact .reader (hs.consistent.running_iff.1 hbusy)
    · exact hgoes _ rfl
  case readSdrStarting =>
    cases h
    split
    · next hbusy => exact .reader (hs.consistent.running_iff.1 (hs.starting hbusy))
    · exact hgoes _ rfl
  case readRunning =>
    cases h
    rw [if_pos hrunning]
    exact hgoes _ rfl
  case startLock =>
    cases h
    exact .reader (reader_startReader hs)

/-- The task of a reader runs it, decides about a restart, and schedules it. -/
theorem Retrying.taskStep (hs : Retrying s) {r : ReaderId} {o : Outcome}
    (hwanted : Wanted s (.task r o)) (h : s.taskStep r o = some s') : Provided s' := by
  -- a task that was on the way stays there, and the others are as they were
  have hkeeps : ∀ {u : System} {p : TaskPhase},
      ((s.tasks r).deciding = true → retries (s.readers r).exitCode = true → p.deciding = true) →
      u.nativeReader = s.nativeReader → u.restarts = s.restarts → u.main = s.main →
      u.readers = s.readers → u.tasks = Function.update s.tasks r p → Provided u := by
    intro u p hp hn hr hm hreaders ht
    refine hs.provided.frame hn (fun t ht => hr ▸ ht) (fun r' hd hretries => ?_) fun op ho _ => hm ▸ ho
    rw [ht, hreaders]
    refine ⟨?_, hretries⟩
    by_cases heq : r' = r
    · subst heq
      rw [Function.update_self]
      exact hp hd hretries
    · rw [Function.update_of_ne heq]
      exact hd
  unfold System.taskStep at h
  cases hp : s.tasks r <;> simp only [hp] at h
  case absent => cases h
  case done => cases h
  case clearStarting =>
    cases h
    exact hkeeps (fun hd => by rw [hp] at hd; cases hd) rfl rfl rfl rfl rfl
  case running =>
    split at h
    · cases h
      exact hkeeps (fun hd => by rw [hp] at hd; cases hd) rfl rfl rfl rfl rfl
    · obtain ⟨⟨reader, device⟩, -, rfl⟩ := Option.map_eq_some_iff.1 h
      refine hs.provided.frame rfl (fun _ => id) (fun r' hd hretries => ⟨hd, ?_⟩) fun _ ho _ => ho
      have hne : r' ≠ r := by
        rintro rfl
        rw [hp] at hd
        cases hd
      simpa [setReader, Function.update_of_ne hne] using hretries
  case finishLock =>
    cases h
    split
    · next hcurrent =>
      exact .task r (by simp [System.setTask, TaskPhase.deciding])
        (hwanted.2.2 hp hcurrent)
    · exact hkeeps (fun hd => by rw [hp] at hd; cases hd) rfl rfl rfl rfl rfl
  case finishedMode =>
    cases h
    rw [if_pos hwanted.1]
    exact hkeeps (fun _ _ => rfl) rfl rfl rfl rfl rfl
  case finishedRunning =>
    cases h
    refine hkeeps (fun _ hretries => ?_) rfl rfl rfl rfl rfl
    rw [if_pos (by rw [hwanted.2.1, hretries]; rfl)]
    rfl
  case scheduleMode =>
    cases h
    rw [if_pos hwanted.1]
    exact hkeeps (fun _ _ => rfl) rfl rfl rfl rfl rfl
  case scheduleRunning =>
    cases h
    rw [if_pos hwanted.2.1]
    exact .restart s.nextRestart (by simp [spawnRestart, System.setTask, RestartPhase.pending])

/-- `sdrStarting` is not set without `sdrRunning`. -/
theorem starting_step {e : Event} (hs : s.sdrStarting = true → s.sdrRunning = true)
    (h : s.step e = some s') : s'.sdrStarting = true → s'.sdrRunning = true := by
  cases e with
  | intent i => grind [System.step]
  | interrupt t => grind [System.step, setRestart]
  | acceptLoopEnds => grind [System.step]
  | stop r => grind [System.step, setReader, Option.map_eq_some_iff]
  | main =>
    simp only [System.step] at h
    split at h
    · cases h
    · next op rest hm =>
      have hstart := starting_startReader hs
      cases op <;> simp only [System.mainStep] at h
      all_goals grind [System.stopLock, setReader, spawnRestart]
  | restart t =>
    have hstart := starting_startReader hs
    simp only [System.step, System.restartStep] at h
    cases hp : s.restarts t <;> simp only [hp] at h
    all_goals grind [setRestart]
  | task r o =>
    simp only [System.step, System.taskStep] at h
    cases hp : s.tasks r <;> simp only [hp] at h
    all_goals grind [System.setTask, setReader, System.stopLock, spawnRestart, Option.map_eq_some_iff]

/-- **One event** leaves somebody on the way. -/
theorem Retrying.step (hs : Retrying s) {e : Event} (hwanted : Wanted s e)
    (h : s.step e = some s') : Retrying s' := by
  have hconsistent : Consistent s' := hs.consistent.step (e := .service e) h
  have hstarting := starting_step hs.starting h
  suffices Provided s' ∧ Switches s'.main from ⟨hconsistent, hstarting, this.2, this.1⟩
  cases e with
  | intent i =>
    simp only [System.step] at h
    split at h
    · next hmain =>
      cases h
      refine ⟨hs.provided.frame rfl (fun _ => id) (fun _ hd hr => ⟨hd, hr⟩) fun op ho _ => ?_,
        switches_operations hwanted.2.2 _⟩
      rw [hmain] at ho
      cases ho
    · cases h
  | main =>
    simp only [System.step] at h
    split at h
    · cases h
    · next op rest hm => exact hs.mainStep hwanted.1 hwanted.2.1 hm h
  | restart t =>
    have hmain := (restartStep_frame h).2.1
    exact ⟨hs.restartStep hwanted.1 hwanted.2.1 h, hmain ▸ hs.switches⟩
  | interrupt t => exact hwanted.2.2.elim
  | task r o =>
    have hmain := (taskStep_frame h).2.1
    exact ⟨hs.taskStep hwanted h, hmain ▸ hs.switches⟩
  | stop r =>
    obtain ⟨⟨reader, device⟩, hstop, rfl⟩ := Option.map_eq_some_iff.1 h
    exact ⟨hs.provided.frame rfl (fun _ => id)
      (fun r' hd hr => ⟨hd, retries_setReader device (retries_stopStep hstop) hr⟩)
      fun _ ho _ => ho, hs.switches⟩
  | acceptLoopEnds =>
    simp only [System.step] at h
    split at h
    · cases h
    · cases h
      exact ⟨hs.provided.frame rfl (fun _ => id) (fun _ hd hr => ⟨hd, hr⟩) fun _ ho _ => ho, hs.switches⟩

/-! ## Whole runs -/

theorem Retrying.exec (hs : Retrying s) {es : List Event}
    (hwanted : Trace.Along System.step Wanted s es) (h : Trace.exec System.step s es = some s') :
    Retrying s' :=
  Trace.exec_invariant (fun _ _ _ hs hwanted => hs.step hwanted) hs hwanted h

end

/-! ## A reader that fails -/

def startedReader : List Event := .intent { action := .startNativeSdr } :: List.replicate 4 .main

end AdsbBridge.Service
