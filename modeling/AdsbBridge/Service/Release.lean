import AdsbBridge.Service.Reader

/-! # What a reader opened is closed again

One `run()` with any number of `stop()` calls from other threads. The
effective `stop()` closes what it finds: the native device when it comes to
`NativeRtlSdrDriver.close()`, the connection when it reads the field. Whatever
`run()` opens behind that point stays open, because the `stop()` at its end
comes too late. -/
namespace AdsbBridge.Service
open AdsbBridge.Lib

/-- A step of `run()`, a call of `stop()` from another thread, or a step of the
`stop()` under way. -/
inductive ReaderEvent
  | run (o : Outcome)
  | callStop
  | stop

/-- The reader and the native device. -/
abbrev ReaderState := Reader × Option ReaderId

def readerStep (s : ReaderState) : ReaderEvent → Option ReaderState
  | .run o => runStep 0 o s.1 s.2
  | .callStop => some (stopCall false s.1, s.2)
  | .stop => stopStep s.1 s.2

/-- `run()` has returned, and so has every `stop()`. -/
def Complete (s : ReaderState) : Prop :=
  s.1.run = .returned ∧ (s.1.stop = .idle ∨ s.1.stop = .done)

/-- The connection and the native device that `run()` opened are closed. -/
def Released (s : ReaderState) : Prop := s.1.usbOpen = false ∧ s.2 ≠ some 0

/-- The effective `stop()`, if any, has `NativeRtlSdrDriver.close()` ahead of it. -/
def StopPhase.closeAhead : StopPhase → Bool
  | .idle | .markStopped | .clearRunning | .closeNative => true
  | _ => false

/-- It has the test of the field `connection` ahead of it. -/
def StopPhase.checkAhead : StopPhase → Bool
  | .readConnection => true
  | p => p.closeAhead

/-- `run()` opens the connection ahead of the test, and the native device ahead
of the close. -/
def Timely (s : ReaderState) : ReaderEvent → Prop
  | .run o =>
    (s.1.run = .openDevice → o.ok = true → s.1.stop.checkAhead = true) ∧
    (s.1.run = .openNative → o.ok = true → s.1.stop.closeAhead = true)
  | _ => True

/-- What holds as long as every opening was timely. -/
structure Good (s : ReaderState) : Prop where
  usb_connection : s.1.usbOpen = true → s.1.connection = true
  early_connection : s.1.run.beforeUsb = true → s.1.connection = false
  early_device : s.1.run.beforeNative = true → s.2 ≠ some 0
  past_close : s.1.stop.closeAhead = false → s.2 ≠ some 0
  past_check : s.1.stop.checkAhead = false → s.1.stop ≠ .done → s.1.connection = true
  closed : s.1.stop = .nullConnection ∨ s.1.stop = .done → s.1.usbOpen = false
  unopened : s.1.run = .returned → s.1.stop = .idle → s.1.usbOpen = false ∧ s.2 ≠ some 0

/-- What holds from the first late opening on. -/
def Leaked (s : ReaderState) : Prop :=
  (s.1.usbOpen = true ∧ s.1.stop = .done ∧ s.1.run.beforeUsb = false) ∨
  (s.2 = some 0 ∧ s.1.stop.closeAhead = false ∧ s.1.run.beforeNative = false)

section Good

variable {s s' : ReaderState}

theorem good_fresh : Good ({}, none) := by
  constructor <;> simp [RunPhase.beforeUsb, StopPhase.closeAhead, StopPhase.checkAhead]

/-- Timely or not, only the two openings matter: every other step of `run()`
keeps what holds. -/
theorem good_run_keep {o : Outcome} (hg : Good s) (h : runStep 0 o s.1 s.2 = some s')
    (hod : s.1.run ≠ .openDevice) (hon : s.1.run ≠ .openNative) : Good s' := by
  obtain ⟨husb, hnative⟩ := runStep_ahead h
  have hstop := runStep_stop h
  have hret := runStep_returned h
  have hkeep := runStep_usb h hod
  have hdev := runStep_device h hon
  obtain ⟨hu, he, hd, hc, hk, hz, hr⟩ := hg
  constructor <;>
    grind [RunPhase.beforeNative, StopPhase.checkAhead, StopPhase.closeAhead]

theorem good_openDevice {o : Outcome} (hg : Good s) (h : runStep 0 o s.1 s.2 = some s')
    (hod : s.1.run = .openDevice) (ht : o.ok = true → s.1.stop.checkAhead = true) : Good s' := by
  obtain ⟨hr, hdev⟩ := runStep_openDevice h hod
  obtain ⟨hu, he, hd, hc, hk, hz, hn⟩ := hg
  constructor <;>
    grind [RunPhase.beforeUsb, RunPhase.beforeNative, StopPhase.checkAhead, StopPhase.closeAhead]

theorem good_openNative {o : Outcome} (hg : Good s) (h : runStep 0 o s.1 s.2 = some s')
    (hon : s.1.run = .openNative) (ht : o.ok = true → s.1.stop.closeAhead = true) : Good s' := by
  have hopen := runStep_openNative h hon
  obtain ⟨hu, he, hd, hc, hk, hz, hn⟩ := hg
  constructor <;>
    grind [RunPhase.beforeUsb, RunPhase.beforeNative, StopPhase.checkAhead, StopPhase.closeAhead]

theorem good_stop (hg : Good s) (h : stopStep s.1 s.2 = some s') : Good s' := by
  obtain ⟨r, device⟩ := s
  obtain ⟨hu, he, hd, hc, hk, hz, hn⟩ := hg
  dsimp only at hu he hd hc hk hz hn h
  unfold stopStep at h
  cases hstop : r.stop with
  | idle => rw [hstop] at h; cases h
  | done => rw [hstop] at h; cases h
  | markStopped =>
    rw [hstop] at h
    cases h
    exact ⟨hu, he, hd, nofun, nofun, nofun, nofun⟩
  | clearRunning =>
    rw [hstop] at h
    cases h
    exact ⟨hu, he, hd, nofun, nofun, nofun, nofun⟩
  | closeNative =>
    rw [hstop] at h
    cases h
    exact ⟨hu, he, fun _ => nofun, fun _ => nofun, nofun, nofun, nofun⟩
  | readConnection =>
    have hclosed : device ≠ some 0 := hc (by rw [hstop]; rfl)
    rw [hstop] at h
    dsimp only at h
    split at h
    · next hconn =>
      cases h
      exact ⟨fun _ => hconn, he, hd, fun _ => hclosed, fun _ _ => hconn, nofun, nofun⟩
    · next hconn =>
      have husb : r.usbOpen = false := Bool.eq_false_iff.2 fun hopen => hconn (hu hopen)
      cases h
      exact ⟨hu, he, hd, fun _ => hclosed, fun _ hne => absurd rfl hne, fun _ => husb, nofun⟩
  | closeConnection =>
    have hclosed : device ≠ some 0 := hc (by rw [hstop]; rfl)
    have hconn : r.connection = true := hk (by rw [hstop]; rfl) (by rw [hstop]; nofun)
    rw [hstop] at h
    cases h
    exact ⟨nofun, he, hd, fun _ => hclosed, fun _ _ => hconn, fun _ => rfl, nofun⟩
  | nullConnection =>
    have hclosed : device ≠ some 0 := hc (by rw [hstop]; rfl)
    have husb : r.usbOpen = false := hz (.inl hstop)
    rw [hstop] at h
    cases h
    refine ⟨fun hopen => ?_, fun _ => rfl, hd, fun _ => hclosed, fun _ hne => absurd rfl hne,
      fun _ => husb, nofun⟩
    rw [show r.usbOpen = true from hopen] at husb
    cases husb

theorem good_callStop (hg : Good s) : Good (stopCall false s.1, s.2) := by
  obtain ⟨hu, he, hd, hc, hk, hz, hn⟩ := hg
  unfold stopCall
  constructor <;> grind [StopPhase.checkAhead, StopPhase.closeAhead]

/-- One step that opens nothing late keeps what holds. -/
theorem good_step {e : ReaderEvent} (hg : Good s) (ht : Timely s e) (h : readerStep s e = some s') :
    Good s' := by
  cases e with
  | run o =>
    by_cases hod : s.1.run = .openDevice
    · exact good_openDevice hg h hod (ht.1 hod)
    · by_cases hon : s.1.run = .openNative
      · exact good_openNative hg h hon (ht.2 hon)
      · exact good_run_keep hg h hod hon
  | callStop =>
    cases h
    exact good_callStop hg
  | stop => exact good_stop hg h

/-- A late opening leaks. -/
theorem leaked_of_late {e : ReaderEvent} (hg : Good s) (ht : ¬ Timely s e)
    (h : readerStep s e = some s') : Leaked s' := by
  obtain ⟨hu, he, hd, hc, hk, hz, hn⟩ := hg
  cases e with
  | run o =>
    by_cases hod : s.1.run = .openDevice
    · obtain ⟨hr, hdev⟩ := runStep_openDevice h hod
      have hlate : o.ok = true ∧ s.1.stop.checkAhead = false := by
        simp only [Timely, hod] at ht
        grind
      have hdone : s.1.stop = .done := by
        by_contra hne
        have := hk hlate.2 hne
        have := he (by rw [hod]; rfl)
        simp_all
      refine .inl ⟨?_, ?_, ?_⟩
      · rw [hr]; exact hlate.1
      · rw [hr]; exact hdone
      · rw [hr]; rfl
    · have hon : s.1.run = .openNative := by
        by_contra hon
        exact ht ⟨fun hr => absurd hr hod, fun hr => absurd hr hon⟩
      have hlate : o.ok = true ∧ s.1.stop.closeAhead = false := by
        simp only [Timely, hon] at ht
        grind
      have hopen := runStep_openNative h hon
      refine .inr ?_
      grind [RunPhase.beforeNative, RunPhase.beforeUsb]
  | callStop => exact absurd trivial ht
  | stop => exact absurd trivial ht

/-- Nothing closes what was opened late. -/
theorem leaked_step {e : ReaderEvent} (hl : Leaked s) (h : readerStep s e = some s') :
    Leaked s' := by
  cases e with
  | run o =>
    obtain ⟨husb, hnative⟩ := runStep_ahead h
    have hstop := runStep_stop h
    have hkeep := fun hod => runStep_usb h hod
    have hdev := fun hon => runStep_device h hon
    unfold Leaked at hl ⊢
    grind [RunPhase.beforeUsb, RunPhase.beforeNative, StopPhase.closeAhead]
  | callStop =>
    cases h
    unfold Leaked stopCall at *
    grind [StopPhase.closeAhead]
  | stop =>
    have hcases := stopStep_cases h
    have hclose : s.1.stop.closeAhead = false → s'.1.stop.closeAhead = false := by
      unfold readerStep stopStep at h
      grind [StopPhase.closeAhead]
    unfold Leaked at hl ⊢
    grind [StopPhase.closeAhead]

end Good

theorem released_of_good {s : ReaderState} (hg : Good s) (hc : Complete s) : Released s := by
  obtain ⟨hrun, hidle | hdone⟩ := hc
  · exact hg.unopened hrun hidle
  · refine ⟨hg.closed (.inr hdone), hg.past_close ?_⟩
    rw [hdone]; rfl

theorem not_released_of_leaked {s : ReaderState} (hl : Leaked s) : ¬ Released s := by
  intro hreleased
  obtain ⟨husb, hdev⟩ := hreleased
  rcases hl with ⟨h, -, -⟩ | ⟨h, -, -⟩
  · rw [husb] at h; cases h
  · exact hdev h

/-- **Exactly when a reader releases what it opened.** At the end of a run of
`run()` and of every `stop()`, both handles are closed if and only if every
successful `openDevice` came before the effective `stop()` tested the
connection, and every successful native open before it closed the device. -/
theorem released_iff_timely {events : List ReaderEvent} {s : ReaderState}
    (h : Trace.exec readerStep ({}, none) events = some s) (hc : Complete s) :
    Released s ↔ Trace.Along readerStep Timely ({}, none) events := by
  rcases Trace.exec_dichotomy (fun _ _ _ => good_step) (fun _ _ _ => leaked_of_late)
    (fun _ _ _ => leaked_step) good_fresh h with ⟨ha, hg⟩ | ⟨hna, hl⟩
  · exact ⟨fun _ => ha, fun _ => released_of_good hg hc⟩
  · exact ⟨fun hr => absurd hr (not_released_of_leaked hl), fun ha => absurd ha hna⟩

/-- A step of `run()` that the platform answers with success. -/
def runOk : ReaderEvent := .run {}

/-- Nothing stops the reader; a failed read ends it, and it closes everything. -/
def failedRead : List ReaderEvent :=
  List.replicate 11 runOk ++ [.run { read := -1 }] ++ List.replicate 2 runOk ++
    List.replicate 6 .stop ++ [runOk]

def failedReadEnd : ReaderState :=
  ({ stop := .done, stopByRun := true, running := false, exitCode := -1, run := .returned }, none)

theorem failedRead_released :
    Trace.exec readerStep ({}, none) failedRead = some failedReadEnd ∧ Complete failedReadEnd ∧
      (Released failedReadEnd ↔ Trace.Along readerStep Timely ({}, none) failedRead) ∧
      Released failedReadEnd :=
  ⟨rfl, ⟨rfl, .inr rfl⟩, released_iff_timely rfl ⟨rfl, .inr rfl⟩, rfl, by decide⟩

/-- `stop()` is called and returns before `run()` begins. -/
def stoppedBeforeRun : List ReaderEvent :=
  .callStop :: List.replicate 4 .stop ++ List.replicate 13 runOk

def stoppedBeforeRunEnd : ReaderState :=
  ({ stop := .done, running := false, exitCode := exitStopped, connection := true,
     usbOpen := true, run := .returned }, some 0)

/-- A reader that was stopped before it ran opens the connection and the device
and leaves both open. -/
theorem stoppedBeforeRun_not_released :
    Trace.exec readerStep ({}, none) stoppedBeforeRun = some stoppedBeforeRunEnd ∧
      Complete stoppedBeforeRunEnd ∧ ¬ Released stoppedBeforeRunEnd ∧
      stoppedBeforeRunEnd.1.usbOpen = true ∧ stoppedBeforeRunEnd.2 = some 0 :=
  ⟨rfl, ⟨rfl, .inr rfl⟩, fun h => Bool.noConfusion h.1, rfl, rfl⟩

end AdsbBridge.Service
