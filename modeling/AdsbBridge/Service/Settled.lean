import AdsbBridge.Service.Current
import AdsbBridge.Service.Handover
import AdsbBridge.Service.Restart

/-! # The current reader ends in an error

A reader that is current was never stopped from outside: a stop takes it out of
`nativeReader` first. So where its `run()` has returned it left an error behind. -/
namespace AdsbBridge.Service
open AdsbBridge.Lib AdsbBridge.Service.System

/-! ## One reader -/

/-- `run()` is behind the loop, or has returned early. -/
def RunPhase.ended : RunPhase → Bool
  | .finish | .callStop | .inStop | .returned => true
  | _ => false

/-- Nobody but `run()` itself has called `stop()`. -/
inductive Healthy (r : Reader) : Prop
  | unstopped (hstop : r.stop = .idle) (hrunning : r.running = true)
      (hconnection : r.run = .fileDescriptor → r.connection = true)
      (hended : r.run.ended = true → r.exitCode < 0)
  | stopped (hstop : r.stop ≠ .idle) (hended : r.run = .inStop ∨ r.run = .returned)
      (hexit : r.exitCode < 0)

section Healthy

variable {self : ReaderId} {o : Outcome} {r r' : Reader} {device device' : Option ReaderId}

theorem healthy_new : Healthy {} :=
  .unstopped rfl rfl (fun h => by cases h) fun h => by cases h

theorem Healthy.exitCode (h : Healthy r) (hr : r.run = .returned) : r.exitCode < 0 := by
  cases h with
  | unstopped _ _ _ hended => exact hended (by rw [hr]; rfl)
  | stopped _ _ hexit => exact hexit

theorem Healthy.stopStep (h : Healthy r) (hstep : stopStep r device = some (r', device')) :
    Healthy r' := by
  cases h with
  | unstopped hstop =>
    rw [Service.stopStep, hstop] at hstep
    cases hstep
  | stopped hstop hended hexit =>
    have hne : r.exitCode ≠ exitOk := Int.ne_of_lt hexit
    unfold Service.stopStep at hstep
    cases hphase : r.stop <;> simp only [hphase] at hstep
    case idle => cases hstep
    case done => cases hstep
    all_goals
      cases hstep
      exact .stopped (by grind) hended (by grind)

/-- A read leaves the loop only with an error. -/
theorem afterRead_spec {read : ℤ} (hrunning : r.running = true) :
    (afterRead r read).stop = r.stop ∧ (afterRead r read).running = true ∧
      (afterRead r read).run ≠ .fileDescriptor ∧
      ((afterRead r read).run.ended = true → (afterRead r read).exitCode < 0) := by
  unfold afterRead
  split
  · next htimeout =>
    have herror : read < 0 := by rw [htimeout]; decide
    dsimp only
    split
    · exact ⟨rfl, hrunning, by simp, by simp [RunPhase.ended]⟩
    · exact ⟨rfl, hrunning, by simp, fun _ => herror⟩
  · split
    · exact ⟨rfl, hrunning, by simp, by simp [RunPhase.ended]⟩
    · split
      · next hneg =>
        rw [if_neg (by simp [hrunning])]
        exact ⟨rfl, hrunning, by simp, fun _ => hneg⟩
      · exact ⟨rfl, hrunning, by simp, by simp [RunPhase.ended]⟩

theorem Healthy.runStep (h : Healthy r) (hstep : runStep self o r device = some (r', device')) :
    Healthy r' := by
  cases h with
  | stopped hstop hended hexit =>
    unfold Service.runStep at hstep
    rcases hended with hrun | hrun <;> rw [hrun] at hstep
    · dsimp only at hstep
      split at hstep
      · cases hstep
        exact .stopped hstop (.inr rfl) hexit
      · cases hstep
    · cases hstep
  | unstopped hstop hrunning hconnection hended =>
    unfold Service.runStep at hstep
    cases hrun : r.run <;> simp only [hrun] at hstep hconnection hended
    case read =>
      cases hstep
      obtain ⟨hsame, hstill, hnot, herror⟩ :=
        @afterRead_spec r (if device.isNone then -1 else o.read) hrunning
      exact .unstopped (hsame.trans hstop) hstill (fun h => absurd h hnot) herror
    case callStop =>
      simp only [Reader.stopStarted, hstop, ne_eq, not_true, decide_false, Bool.false_eq_true,
        if_false] at hstep
      cases hstep
      exact .stopped (by simp [stopCall, hstop]) (.inl rfl)
        (by simpa [stopCall, hstop] using hended rfl)
    case finish =>
      cases hstep
      refine .unstopped hstop hrunning (fun h => by cases h) fun _ => ?_
      rw [if_neg fun hc => by simp [hrunning] at hc]
      exact hended rfl
    case inStop =>
      rw [if_neg (by rw [hstop]; simp)] at hstep
      cases hstep
    case returned => cases hstep
    case openNative =>
      split at hstep
      · cases hstep
        exact .unstopped hstop hrunning (fun h => by cases h) fun h => by cases h
      · cases hstep
        exact .unstopped hstop hrunning (fun h => by cases h) fun _ =>
          (by decide : exitCoreOpenFailed < 0)
    all_goals
      cases hstep
      refine .unstopped ?_ ?_ ?_ ?_
      all_goals grind [RunPhase.ended, exitLibraryNotLoaded, exitOpenFailed, exitNoDevice,
        exitNoPermission, exitTuneFailed]

end Healthy

/-! ## The current reader -/

/-- What holds of the current reader and of those that are not created yet. -/
structure Settled (s : System) : Prop where
  consistent : Consistent s
  fresh : ∀ r, s.nextReader ≤ r → s.readers r = {}
  stopping : ∀ r, MainOp.callStop r ∈ s.main → Stale s r
  healthy : ∀ r, s.nativeReader = some r → Healthy (s.readers r)
  returned : ∀ r, s.tasks r = .finishLock → (s.readers r).run = .returned

section Settled

variable {s s' : System}

theorem settled_created (native eco : Bool) : Settled (created native eco) where
  consistent := consistent_created native eco
  fresh := fun _ _ => rfl
  stopping := fun _ h => absurd h List.not_mem_nil
  healthy := fun _ h => by cases h
  returned := fun _ h => by cases h

theorem run_stopStep {r r' : Reader} {device device' : Option ReaderId}
    (h : stopStep r device = some (r', device')) : r'.run = r.run := by
  unfold stopStep at h
  cases hphase : r.stop <;> simp only [hphase] at h
  all_goals grind

/-- A reader that has become current is a new one. -/
theorem current_of_step {e : Event} (h : s.step e = some s') {r : ReaderId}
    (hr : s'.nativeReader = some r) : s.nativeReader = some r ∨ s.nextReader ≤ r := by
  cases @currentStep_of_step s s' (.service e) h with
  | install _ _ _ hn =>
    rw [hn] at hr
    cases hr
    exact .inr (Nat.le_refl _)
  | clear _ _ hn => rw [hn] at hr; cases hr
  | finish _ _ _ hn => rw [hn] at hr; cases hr
  | keep _ _ _ hn => exact .inl (hn ▸ hr)
  | same _ hn => exact .inl (hn ▸ hr)

theorem nextReader_le_of_step {e : Event} (h : s.step e = some s') :
    s.nextReader ≤ s'.nextReader := by
  cases @currentStep_of_step s s' (.service e) h with
  | install _ _ _ _ hx => rw [hx]; exact Nat.le_succ _
  | clear _ _ _ hx => exact Nat.le_of_eq hx.symm
  | finish _ _ _ _ hx => exact Nat.le_of_eq hx.symm
  | keep _ _ _ _ hx => exact Nat.le_of_eq hx.symm
  | same _ _ hx => exact Nat.le_of_eq hx.symm

/-- What a step makes of a reader. -/
theorem Settled.readers (hs : Settled s) {e : Event} (h : s.step e = some s') (r : ReaderId) :
    s'.readers r = s.readers r ∨ r < s.nextReader ∧
      (s.nativeReader = some r → Healthy (s'.readers r)) ∧
      (s.tasks r = .finishLock → (s'.readers r).run = .returned) := by
  cases readersStep_of_step h with
  | same hr => exact .inl (by rw [hr])
  | @callStop a rest hmain hidle hr hdevice =>
    rw [hr]
    by_cases hra : r = a
    · subst hra
      obtain ⟨hlt, hstale⟩ := hs.stopping r (hmain ▸ List.mem_cons_self)
      rw [Function.update_self]
      refine .inr ⟨hlt, fun hn => absurd hn hstale, fun htask => ?_⟩
      rw [Service.stopCall, if_pos hidle]
      exact hs.returned r htask
    · exact .inl (Function.update_of_ne hra _ _)
  | @run a o reader htask hrun hr =>
    rw [hr]
    by_cases hra : r = a
    · subst hra
      rw [Function.update_self]
      refine .inr ⟨hs.consistent.fresh r (by simp [htask]),
        fun hn => (hs.healthy r hn).runStep hrun, fun hlock => ?_⟩
      rw [htask] at hlock
      cases hlock
    · exact .inl (Function.update_of_ne hra _ _)
  | @stop a reader hstop hr =>
    rw [hr]
    by_cases hra : r = a
    · subst hra
      rw [Function.update_self]
      have hlt : r < s.nextReader := by
        by_contra hge
        rw [hs.fresh r (Nat.le_of_not_lt hge)] at hstop
        cases hstop
      refine .inr ⟨hlt, fun hn => (hs.healthy r hn).stopStep hstop, fun htask => ?_⟩
      rw [run_stopStep hstop]
      exact hs.returned r htask
    · exact .inl (Function.update_of_ne hra _ _)

/-- The main thread is sent to stop a reader by the locked block that takes it out. -/
theorem callStop_of_step {e : Event} (h : s.step e = some s') {r : ReaderId}
    (hr : MainOp.callStop r ∈ s'.main) :
    MainOp.callStop r ∈ s.main ∨ s.nativeReader = some r ∧ s'.nativeReader = none ∧
      s'.nextReader = s.nextReader := by
  cases e with
  | intent i =>
    simp only [System.step] at h
    split at h
    · cases h
      exfalso
      revert hr
      generalize (s.ecoMode != i.ecoMode.getD s.ecoMode) = changed
      cases i.action <;> simp only [operations] <;> try split
      all_goals simp
    · cases h
  | main =>
    simp only [System.step] at h
    split at h
    · cases h
    · next op rest hmain =>
      rw [hmain]
      cases op <;> simp only [System.mainStep] at h
      all_goals grind [System.stopLock, startReader, setReader, spawnRestart]
  | restart t =>
    rw [(restartStep_frame h).2.1] at hr
    exact .inl hr
  | task r' o =>
    rw [(taskStep_frame h).2.1] at hr
    exact .inl hr
  | interrupt t => grind [System.step, setRestart]
  | stop r' =>
    obtain ⟨⟨reader, device⟩, -, rfl⟩ := Option.map_eq_some_iff.1 h
    exact .inl hr
  | acceptLoopEnds => grind [System.step]

/-- A start puts no task in front of its locked block. -/
theorem tasks_startReader {r : ReaderId} (hr : s.startReader.tasks r = .finishLock) :
    s.tasks r = .finishLock := by
  unfold startReader at hr
  split at hr
  · exact hr
  · dsimp only at hr
    rw [Function.update_apply] at hr
    split at hr
    · cases hr
    · exact hr

theorem finishLock_of_task {r r' : ReaderId} {o : Outcome} (h : s.taskStep r' o = some s')
    (hr : s'.tasks r = .finishLock) :
    s.tasks r = .finishLock ∨ (s.readers r).run = .returned ∧ s'.readers = s.readers := by
  have hother : ∀ p : TaskPhase, p ≠ .finishLock → s'.tasks = Function.update s.tasks r' p →
      s.tasks r = .finishLock := by
    intro p hp htasks
    rw [htasks, Function.update_apply] at hr
    split at hr
    · exact absurd hr hp
    · exact hr
  unfold System.taskStep at h
  cases hp : s.tasks r' <;> simp only [hp] at h
  case absent => cases h
  case done => cases h
  case clearStarting =>
    cases h
    exact .inl (hother .running (by simp) rfl)
  case running =>
    split at h
    · next hrun =>
      cases h
      by_cases hrr : r = r'
      · exact .inr ⟨hrr ▸ hrun, rfl⟩
      · exact .inl ((Function.update_of_ne hrr _ _).symm.trans hr)
    · obtain ⟨⟨reader, device⟩, -, rfl⟩ := Option.map_eq_some_iff.1 h
      exact .inl hr
  all_goals
    split at h
    · cases h
      exact .inl (hother _ (by simp) rfl)
    · cases h
      exact .inl (hother _ (by simp) rfl)

/-- A task comes to its locked block where `run()` has returned. -/
theorem finishLock_of_step {e : Event} (h : s.step e = some s') {r : ReaderId}
    (hr : s'.tasks r = .finishLock) :
    s.tasks r = .finishLock ∨ (s.readers r).run = .returned ∧ s'.readers = s.readers := by
  cases e with
  | task r' o => exact finishLock_of_task h hr
  | main =>
    simp only [System.step] at h
    split at h
    · cases h
    · next op rest hmain =>
      cases op <;> simp only [System.mainStep] at h
      case startLock =>
        cases h
        exact .inl (tasks_startReader hr)
      all_goals grind [System.stopLock, setReader, spawnRestart]
  | restart t =>
    simp only [System.step, System.restartStep] at h
    cases hp : s.restarts t <;> simp only [hp] at h
    case startLock =>
      cases h
      exact .inl (tasks_startReader hr)
    all_goals grind [setRestart]
  | stop r' =>
    obtain ⟨⟨reader, device⟩, -, rfl⟩ := Option.map_eq_some_iff.1 h
    exact .inl hr
  | _ => grind [System.step, setRestart]

theorem Settled.step (hs : Settled s) {e : Event} (h : s.step e = some s') : Settled s' where
  consistent := hs.consistent.step (e := .service e) h
  fresh := by
    intro r hr
    have hle : s.nextReader ≤ s'.nextReader := nextReader_le_of_step h
    rcases hs.readers h r with hsame | ⟨hlt, -⟩
    · rw [hsame]
      exact hs.fresh r (Nat.le_trans hle hr)
    · exact absurd (Nat.le_trans hle hr) (Nat.not_le.2 hlt)
  stopping := by
    intro r hr
    rcases callStop_of_step h hr with hold | ⟨hcurrent, hnone, hnext⟩
    · exact (hs.stopping r hold).step (e := .service e) h
    · exact ⟨by rw [hnext]; exact hs.consistent.created r hcurrent, by simp [hnone]⟩
  healthy := by
    intro r hr
    have hold : s.nativeReader = some r ∨ s.nextReader ≤ r := current_of_step h hr
    rcases hs.readers h r with hsame | ⟨hlt, hhealthy, -⟩
    · rw [hsame]
      rcases hold with hold | hold
      · exact hs.healthy r hold
      · rw [hs.fresh r hold]
        exact healthy_new
    · exact hhealthy (hold.resolve_right (Nat.not_le.2 hlt))
  returned := by
    intro r hr
    rcases finishLock_of_step h hr with hlock | ⟨hrun, hsame⟩
    · rcases hs.readers h r with hkept | ⟨-, -, hreturned⟩
      · rw [hkept]
        exact hs.returned r hlock
      · exact hreturned hlock
    · rw [hsame]
      exact hrun

theorem settled_reachable (h : Reachable s) : Settled s := by
  obtain ⟨native, eco, events, h⟩ := h
  exact Trace.exec_keeps Settled (fun _ _ _ hs hstep => hs.step hstep)
    (settled_created native eco) h

end Settled

end AdsbBridge.Service
