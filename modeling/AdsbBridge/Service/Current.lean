import AdsbBridge.Service.System

/-! # The current reader

`startNativeSdrReaderIfNeeded`, `stopSdrReader` and the end of a reader's task
decide under `sdrLock` which reader is the current one. Here any thread may
call the first two at any time, beside everything the service does by itself.
A task clears `sdrStarting` outside the lock, also when its reader is no longer
current; `sdrRunning` is set and cleared together with `nativeReader`. -/
namespace AdsbBridge.Service
open AdsbBridge.Lib AdsbBridge.Service.System

/-- A call from any thread, or an event of the service. -/
inductive SdrEvent
  | start
  /-- the locked block of `stopSdrReader` -/
  | stop
  /-- `nativeToStop.stop()` -/
  | callStop (r : ReaderId)
  /-- `reader.run()` ends with an exception -/
  | runThrows (r : ReaderId)
  | service (e : Event)

def sdrStep (s : System) : SdrEvent → Option System
  | .start => some s.startReader
  | .stop => some s.stopLock
  | .callStop r => some (s.setReader r (Service.stopCall false (s.readers r)) s.device)
  | .runThrows r => if s.tasks r = .running then some (s.setTask r .finishLock) else none
  | .service e => s.step e

/-- The task has not come to its call of `handleNativeReaderFinished`. -/
def TaskPhase.unfinished : TaskPhase → Bool
  | .absent | .clearStarting | .running | .finishLock => true
  | _ => false

def CallsFinished (s s' : System) (r : ReaderId) : Prop :=
  s.tasks r ≠ .finishedMode ∧ s'.tasks r = .finishedMode

instance (s s' : System) (r : ReaderId) : Decidable (CallsFinished s s' r) :=
  inferInstanceAs (Decidable (_ ∧ _))

/-- How often the task of `r` calls `handleNativeReaderFinished` in a run. -/
def finishedCalls (r : ReaderId) : System → List SdrEvent → ℕ
  | _, [] => 0
  | s, e :: es =>
    match sdrStep s e with
    | none => 0
    | some s' => (if CallsFinished s s' r then 1 else 0) + finishedCalls r s' es

/-! ## What one step does to the current reader -/

/-- The current reader and the tasks change in five ways only. -/
inductive CurrentStep (s s' : System) : SdrEvent → Prop
  | install {e : SdrEvent} : (∀ r o, e ≠ .service (.task r o)) → s.sdrRunning = false → s'.sdrRunning = true →
      s'.nativeReader = some s.nextReader → s'.nextReader = s.nextReader + 1 →
      s'.tasks = Function.update s.tasks s.nextReader .clearStarting → CurrentStep s s' e
  | clear {e : SdrEvent} : (∀ r o, e ≠ .service (.task r o)) → s'.sdrRunning = false → s'.nativeReader = none →
      s'.nextReader = s.nextReader → s'.tasks = s.tasks → CurrentStep s s' e
  | finish {r : ReaderId} {o : Outcome} : s.tasks r = .finishLock → s.nativeReader = some r →
      s'.sdrRunning = false → s'.nativeReader = none → s'.nextReader = s.nextReader →
      s'.tasks = Function.update s.tasks r .finishedMode → CurrentStep s s' (.service (.task r o))
  | keep {e : SdrEvent} (r : ReaderId) (p : TaskPhase) : s'.sdrRunning = s.sdrRunning →
      s'.nativeReader = s.nativeReader → s'.nextReader = s.nextReader →
      s'.tasks = Function.update s.tasks r p → s.tasks r ≠ .absent → p ≠ .finishedMode →
      (p.unfinished = true → (s.tasks r).unfinished = true) → CurrentStep s s' e
  | same {e : SdrEvent} : s'.sdrRunning = s.sdrRunning → s'.nativeReader = s.nativeReader →
      s'.nextReader = s.nextReader → s'.tasks = s.tasks → CurrentStep s s' e

variable {s s' : System} {e : SdrEvent} {r : ReaderId}

/-- The locked block of `startNativeSdrReaderIfNeeded`, with whatever else
happens in the same event. -/
theorem currentStep_startReader (he : ∀ r o, e ≠ .service (.task r o))
    (hr : s'.sdrRunning = s.startReader.sdrRunning)
    (hn : s'.nativeReader = s.startReader.nativeReader)
    (hx : s'.nextReader = s.startReader.nextReader) (ht : s'.tasks = s.startReader.tasks) :
    CurrentStep s s' e := by
  unfold startReader at hr hn hx ht
  by_cases h : (s.sdrRunning || s.sdrStarting) = true
  · rw [if_pos h] at hr hn hx ht
    exact .same hr hn hx ht
  · have hfree : s.sdrRunning = false := by
      simp only [Bool.or_eq_true, not_or, Bool.not_eq_true] at h
      exact h.1
    rw [if_neg h] at hr hn hx ht
    exact .install he hfree hr hn hx ht

theorem currentStep_main {t : System} (h : s.step .main = some t) :
    CurrentStep s t (.service .main) := by
  simp only [step] at h
  split at h
  · cases h
  · next op rest hm =>
    cases op <;> simp only [mainStep, Option.some.injEq] at h
    case startLock =>
      subst h
      exact currentStep_startReader (by simp) rfl rfl rfl rfl
    case stopLock =>
      subst h
      exact .clear (by simp) rfl rfl rfl rfl
    all_goals
      apply CurrentStep.same <;> grind [setReader, spawnRestart]

theorem currentStep_restart {t : ℕ} {u : System} (h : s.restartStep t = some u) :
    CurrentStep s u (.service (.restart t)) := by
  unfold restartStep at h
  cases hp : s.restarts t <;> rw [hp] at h
  case startLock =>
    cases h
    exact currentStep_startReader (by simp) rfl rfl rfl rfl
  case absent => cases h
  case done => cases h
  all_goals
    cases h
    exact .same rfl rfl rfl rfl

theorem currentStep_task {o : Outcome} {t : System} (h : s.taskStep r o = some t) :
    CurrentStep s t (.service (.task r o)) := by
  unfold taskStep at h
  cases hp : s.tasks r with
  | absent => rw [hp] at h; cases h
  | done => rw [hp] at h; cases h
  | clearStarting =>
    rw [hp] at h
    cases h
    exact .keep r .running rfl rfl rfl rfl (by simp [hp]) (by simp) fun _ => by rw [hp]; rfl
  | running =>
    rw [hp] at h
    dsimp only at h
    split at h
    · cases h
      exact .keep r .finishLock rfl rfl rfl rfl (by simp [hp]) (by simp) fun _ => by rw [hp]; rfl
    · obtain ⟨⟨reader, device⟩, -, rfl⟩ := Option.map_eq_some_iff.1 h
      exact .same rfl rfl rfl rfl
  | finishLock =>
    rw [hp] at h
    cases h
    split
    · next hcurrent => exact .finish hp hcurrent rfl rfl rfl rfl
    · exact .keep r .done rfl rfl rfl rfl (by simp [hp]) (by simp) fun hd => by cases hd
  | finishedMode =>
    rw [hp] at h
    cases h
    refine .keep r _ rfl rfl rfl rfl (by simp [hp]) ?_ ?_ <;> split <;> simp [TaskPhase.unfinished]
  | finishedRunning =>
    rw [hp] at h
    cases h
    refine .keep r _ rfl rfl rfl rfl (by simp [hp]) ?_ ?_ <;> split <;> simp [TaskPhase.unfinished]
  | scheduleMode =>
    rw [hp] at h
    cases h
    refine .keep r _ rfl rfl rfl rfl (by simp [hp]) ?_ ?_ <;> split <;> simp [TaskPhase.unfinished]
  | scheduleRunning =>
    rw [hp] at h
    cases h
    split
    · exact .keep r .done rfl rfl rfl rfl (by simp [hp]) (by simp) fun hd => by cases hd
    · exact .keep r .done rfl rfl rfl rfl (by simp [hp]) (by simp) fun hd => by cases hd

theorem currentStep_of_step (h : sdrStep s e = some s') : CurrentStep s s' e := by
  cases e with
  | start =>
    cases h
    exact currentStep_startReader (by simp) rfl rfl rfl rfl
  | stop =>
    cases h
    exact .clear (by simp) rfl rfl rfl rfl
  | callStop r =>
    cases h
    exact .same rfl rfl rfl rfl
  | runThrows r =>
    simp only [sdrStep] at h
    split at h
    · next hp =>
      cases h
      exact .keep r .finishLock rfl rfl rfl rfl (by simp [hp]) (by simp) fun _ => by rw [hp]; rfl
    · cases h
  | service e =>
    cases e with
    | main => exact currentStep_main h
    | restart t => exact currentStep_restart h
    | task r o => exact currentStep_task h
    | stop r =>
      obtain ⟨⟨reader, device⟩, -, rfl⟩ := Option.map_eq_some_iff.1 h
      exact .same rfl rfl rfl rfl
    | _ => apply CurrentStep.same <;> grind [sdrStep, step, setRestart]

/-! ## The invariant -/

/-- `sdrRunning` says whether there is a current reader, and readers that are not
created yet are neither current nor have a task. -/
structure Consistent (s : System) : Prop where
  running_iff : s.sdrRunning = true ↔ s.nativeReader ≠ none
  created : ∀ r, s.nativeReader = some r → r < s.nextReader
  fresh : ∀ r, s.tasks r ≠ .absent → r < s.nextReader

theorem consistent_created (native eco : Bool) : Consistent (created native eco) :=
  ⟨by simp [System.created], fun _ h => (by cases h), fun _ h => absurd rfl h⟩

theorem Consistent.step (hs : Consistent s) (h : sdrStep s e = some s') : Consistent s' := by
  obtain ⟨hrunning, hcreated, hfresh⟩ := hs
  cases currentStep_of_step h with
  | install _ hfree hr hn hx ht =>
    refine ⟨by simp [hr, hn], fun r hr' => ?_, fun r htask => ?_⟩
    · rw [hn] at hr'
      cases hr'
      rw [hx]
      exact Nat.lt_succ_self _
    · rw [ht, Function.update_apply] at htask
      rw [hx]
      split at htask
      · next heq => exact heq ▸ Nat.lt_succ_self _
      · exact Nat.lt_succ_of_lt (hfresh r htask)
  | clear _ hr hn hx ht =>
    refine ⟨by simp [hr, hn], fun r hr' => ?_, ?_⟩
    · rw [hn] at hr'
      cases hr'
    · rw [ht, hx]
      exact hfresh
  | finish hp hc hr hn hx ht =>
    refine ⟨by simp [hr, hn], fun r hr' => ?_, fun r htask => ?_⟩
    · rw [hn] at hr'
      cases hr'
    · rw [ht, Function.update_apply] at htask
      rw [hx]
      split at htask
      · next heq => exact heq ▸ hfresh _ (by simp [hp])
      · exact hfresh r htask
  | keep r p hr hn hx ht hpresent =>
    refine ⟨by rw [hr, hn]; exact hrunning, by rw [hn, hx]; exact hcreated, fun r' htask => ?_⟩
    rw [ht, Function.update_apply] at htask
    rw [hx]
    split at htask
    · next heq => exact heq ▸ hfresh _ hpresent
    · exact hfresh r' htask
  | same hr hn hx ht =>
    exact ⟨by rw [hr, hn]; exact hrunning, by rw [hn, hx]; exact hcreated,
      by rw [ht, hx]; exact hfresh⟩

/-- A new reader comes only where there is none. -/
theorem Consistent.installs (hs : Consistent s) (h : sdrStep s e = some s')
    (hr : s'.nativeReader = some r) : s.nativeReader = some r ∨ s.nativeReader = none := by
  cases currentStep_of_step h with
  | install _ hfree => exact .inr (by simpa [hfree] using hs.running_iff)
  | clear _ _ hn => rw [hn] at hr; cases hr
  | finish _ _ _ hn => rw [hn] at hr; cases hr
  | keep _ _ _ hn => exact .inl (hn ▸ hr)
  | same _ hn => exact .inl (hn ▸ hr)

theorem Consistent.exec (hs : Consistent s) {es : List SdrEvent}
    (h : Trace.exec sdrStep s es = some s') : Consistent s' :=
  Trace.exec_keeps Consistent (fun _ _ _ hs => hs.step) hs h

/-! ## A reader that is no longer current -/

/-- The reader was installed, and has been stopped, superseded or finished. -/
def Stale (s : System) (r : ReaderId) : Prop := r < s.nextReader ∧ s.nativeReader ≠ some r

theorem Stale.step (hr : Stale s r) (h : sdrStep s e = some s') : Stale s' r := by
  obtain ⟨hlt, hne⟩ := hr
  unfold Stale
  cases currentStep_of_step h with
  | install _ _ _ hn hx =>
    rw [hn, hx]
    refine ⟨Nat.lt_succ_of_lt hlt, fun heq => ?_⟩
    cases heq
    exact absurd hlt (Nat.lt_irrefl _)
  | clear _ _ hn hx => rw [hn, hx]; exact ⟨hlt, by simp⟩
  | finish _ _ _ hn hx => rw [hn, hx]; exact ⟨hlt, by simp⟩
  | keep _ _ _ hn hx => rw [hn, hx]; exact ⟨hlt, hne⟩
  | same _ hn hx => rw [hn, hx]; exact ⟨hlt, hne⟩

theorem Stale.exec (hr : Stale s r) {es : List SdrEvent} (h : Trace.exec sdrStep s es = some s') :
    Stale s' r :=
  Trace.exec_keeps (Stale · r) (fun _ _ _ hs => hs.step) hr h

/-- Nothing that its task does touches the current reader. -/
theorem Stale.task (hr : Stale s r) {o : Outcome} (h : sdrStep s (.service (.task r o)) = some s') :
    s'.nativeReader = s.nativeReader ∧ s'.sdrRunning = s.sdrRunning := by
  cases currentStep_of_step h with
  | install he => exact absurd rfl (he r o)
  | clear he => exact absurd rfl (he r o)
  | finish _ hc => exact absurd hc hr.2
  | keep _ _ hrun hn => exact ⟨hn, hrun⟩
  | same hrun hn => exact ⟨hn, hrun⟩

/-- Only the end of the current reader's task calls `handleNativeReaderFinished`. -/
theorem current_of_callsFinished (h : sdrStep s e = some s') (hc : CallsFinished s s' r) :
    s.nativeReader = some r ∧ s.tasks r = .finishLock := by
  obtain ⟨hbefore, hafter⟩ := hc
  cases currentStep_of_step h with
  | install _ _ _ _ _ ht =>
    rw [ht, Function.update_apply] at hafter
    split at hafter
    · cases hafter
    · exact absurd hafter hbefore
  | clear _ _ _ _ ht => exact absurd (ht ▸ hafter) hbefore
  | @finish r' o hp hc _ _ _ ht =>
    rw [ht, Function.update_apply] at hafter
    split at hafter
    · next heq => exact heq ▸ ⟨hc, hp⟩
    · exact absurd hafter hbefore
  | keep r' p _ _ _ ht _ hne =>
    rw [ht, Function.update_apply] at hafter
    split at hafter
    · exact absurd hafter hne
    · exact absurd hafter hbefore
  | same _ _ _ ht => exact absurd (ht ▸ hafter) hbefore

/-! ## At most one call -/

/-- A task does not come back behind its call. -/
theorem Consistent.finished (hs : Consistent s) (h : sdrStep s e = some s')
    (hr : (s.tasks r).unfinished = false) : (s'.tasks r).unfinished = false := by
  cases currentStep_of_step h with
  | install _ _ _ _ _ ht =>
    rw [ht, Function.update_apply]
    split
    · next heq =>
      have hpresent : s.tasks r ≠ .absent := by
        intro habsent
        rw [habsent] at hr
        cases hr
      exact absurd (hs.fresh r hpresent) (heq ▸ Nat.lt_irrefl _)
    · exact hr
  | clear _ _ _ _ ht => rw [ht]; exact hr
  | finish _ _ _ _ _ ht =>
    rw [ht, Function.update_apply]
    split
    · rfl
    · exact hr
  | keep r' p _ _ _ ht _ _ hp =>
    rw [ht, Function.update_apply]
    split
    · next heq =>
      cases hu : p.unfinished with
      | false => rfl
      | true =>
        have := hp hu
        rw [← heq, hr] at this
        cases this
    · exact hr
  | same _ _ _ ht => rw [ht]; exact hr

theorem finishedCalls_le (hs : Consistent s) (es : List SdrEvent) :
    finishedCalls r s es ≤ if (s.tasks r).unfinished then 1 else 0 := by
  induction es generalizing s with
  | nil => exact Nat.zero_le _
  | cons e es ih =>
    rw [finishedCalls]
    split
    · exact Nat.zero_le _
    · next s' h =>
      have hrest := ih (hs.step h)
      by_cases hc : CallsFinished s s' r
      · -- the call leads out of the phases before it
        have hp := (current_of_callsFinished h hc).2
        rw [if_pos hc, hp]
        rw [hc.2] at hrest
        exact Nat.add_le_add_left hrest 1
      · rw [if_neg hc, Nat.zero_add]
        cases hu : (s.tasks r).unfinished with
        | true => exact Nat.le_trans hrest (by split <;> simp)
        | false =>
          rw [hs.finished h hu] at hrest
          exact hrest

/-- **One current reader**, whatever any threads do: `sdrRunning` tells whether
there is one, a new one comes only where there is none, one that is stale does
not touch its successor, and each task calls `handleNativeReaderFinished` once
at most. -/
theorem one_current_reader (native eco : Bool) {events : List SdrEvent}
    (h : Trace.exec sdrStep (created native eco) events = some s) :
    (s.sdrRunning = true ↔ s.nativeReader ≠ none) ∧
      (∀ e s' r, sdrStep s e = some s' → s'.nativeReader = some r →
        s.nativeReader = some r ∨ s.nativeReader = none) ∧
      (∀ r, Stale s r → ∀ es s₁, Trace.exec sdrStep s es = some s₁ →
        (∀ o s₂, sdrStep s₁ (.service (.task r o)) = some s₂ →
          s₂.nativeReader = s₁.nativeReader ∧ s₂.sdrRunning = s₁.sdrRunning) ∧
        ∀ e s₂, sdrStep s₁ e = some s₂ → ¬ CallsFinished s₁ s₂ r) ∧
      ∀ r, finishedCalls r (created native eco) events ≤ 1 := by
  have hs := (consistent_created native eco).exec h
  refine ⟨hs.running_iff, fun e s' r => hs.installs, fun r hr es s₁ h₁ => ?_, fun r => ?_⟩
  · have hr₁ := hr.exec h₁
    exact ⟨fun o s₂ => hr₁.task, fun e s₂ h₂ hc => hr₁.2 (current_of_callsFinished h₂ hc).1⟩
  · exact finishedCalls_le (consistent_created native eco) events

/-- A reader is stopped and another one started before the first one's task
begins; that task clears `sdrStarting` and comes to its end. -/
def restarted : List SdrEvent :=
  [.start, .stop, .start, .service (.task 0 {}), .runThrows 0]

theorem restarted_one_current :
    ∃ s s', Trace.exec sdrStep (created true false) restarted = some s ∧ s.sdrStarting = false ∧
      Stale s 0 ∧ sdrStep s (.service (.task 0 {})) = some s' ∧
      (s.sdrRunning = true ↔ s.nativeReader ≠ none) ∧ s.nativeReader = some 1 ∧
      s'.nativeReader = s.nativeReader ∧ ¬ CallsFinished s s' 0 ∧
      finishedCalls 0 (created true false) restarted ≤ 1 := by
  have hrun : ∃ s, Trace.exec sdrStep (created true false) restarted = some s ∧
      s.sdrStarting = false ∧ s.nextReader = 2 ∧ s.nativeReader = some 1 ∧
      s.tasks 0 = .finishLock :=
    ⟨_, rfl, rfl, rfl, rfl, rfl⟩
  obtain ⟨s, h, hstarting, hnext, hcurrent, hphase⟩ := hrun
  have hstale : Stale s 0 := ⟨by simp [hnext], by simp [hcurrent]⟩
  obtain ⟨hrunning, -, hleft, hcalls⟩ := one_current_reader true false h
  obtain ⟨htask, hfinished⟩ := hleft 0 hstale [] s rfl
  have hend : sdrStep s (.service (.task 0 {})) = some (s.setTask 0 .done) := by
    simp [sdrStep, System.step, taskStep, hphase, hcurrent]
  exact ⟨s, _, h, hstarting, hstale, hend, hrunning, hcurrent, (htask _ _ hend).1,
    hfinished _ _ hend, hcalls 0⟩

end AdsbBridge.Service
