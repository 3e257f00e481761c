import Mathlib.Data.Int.Notation
import AdsbBridge.Lib.Trace

/-! # One native reader

`NativeAdsbReader`: its `run()` and the `stop()` that got past the
compare-and-set, each as a program counter that names the next access to
shared data. The native device is one per process; what is open is named by
the reader whose `run()` opened it. Memory is sequentially consistent. -/
namespace AdsbBridge.Service

abbrev ReaderId := ℕ

def exitOk : ℤ := 0
def exitStopped : ℤ := 1
def exitLibraryNotLoaded : ℤ := -1000
def exitNoDevice : ℤ := -1001
def exitNoPermission : ℤ := -1002
def exitOpenFailed : ℤ := -1003
def exitCoreOpenFailed : ℤ := -1004
def exitTuneFailed : ℤ := -1005
def libusbTimeout : ℤ := -7
def maxConsecutiveReadTimeouts : ℕ := 5

/-- What the one effective `stop()` does next; `idle` while `stopStarted` is
false. -/
inductive StopPhase
  | idle
  | markStopped
  | clearRunning
  | closeNative
  | readConnection
  | closeConnection
  | nullConnection
  | done
  deriving DecidableEq, Repr

inductive RunPhase
  | begin
  | library
  | usbManager
  | findDevice
  | permission
  | openDevice
  | checkConnection
  | fileDescriptor
  | openNative
  | tune
  | loop
  | read
  | finish
  | callStop
  | inStop
  | returned
  deriving DecidableEq, Repr

structure Reader where
  stop : StopPhase := .idle
  /-- the effective `stop()` was called by this reader's own `run()` -/
  stopByRun : Bool := false
  running : Bool := true
  exitCode : ℤ := exitOk
  /-- the field `connection` is not null -/
  connection : Bool := false
  /-- the `UsbDeviceConnection` that `run()` opened is open -/
  usbOpen : Bool := false
  run : RunPhase := .begin
  consecutiveReadTimeouts : ℕ := 0
  deriving DecidableEq, Repr

def Reader.stopStarted (r : Reader) : Bool := r.stop ≠ .idle

/-- What the platform answers to one step of `run()`. -/
structure Outcome where
  ok : Bool := true
  read : ℤ := 0
  deriving DecidableEq, Repr

/-- The compare-and-set of `stop()`; a caller that comes too late does nothing. -/
def stopCall (byRun : Bool) (r : Reader) : Reader :=
  if r.stop = .idle then { r with stop := .markStopped, stopByRun := byRun } else r

/-- One step of the `stop()` that got past the compare-and-set. -/
def stopStep (r : Reader) (device : Option ReaderId) : Option (Reader × Option ReaderId) :=
  match r.stop with
  | .idle => none
  | .markStopped =>
    some ({ r with
      exitCode := if r.exitCode = exitOk then exitStopped else r.exitCode
      stop := .clearRunning }, device)
  | .clearRunning => some ({ r with running := false, stop := .closeNative }, device)
  | .closeNative => some ({ r with stop := .readConnection }, none)
  | .readConnection =>
    some ({ r with stop := if r.connection then .closeConnection else .done }, device)
  | .closeConnection => some ({ r with usbOpen := false, stop := .nullConnection }, device)
  | .nullConnection => some ({ r with connection := false, stop := .done }, device)
  | .done => none

def afterRead (r : Reader) (read : ℤ) : Reader :=
  if read = libusbTimeout then
    let timeouts := r.consecutiveReadTimeouts + 1
    if timeouts < maxConsecutiveReadTimeouts then
      { r with consecutiveReadTimeouts := timeouts, run := .loop }
    else { r with consecutiveReadTimeouts := timeouts, exitCode := read, run := .finish }
  else if read = 0 then { r with run := .loop }
  else if read < 0 then
    if !r.running then { r with run := .finish } else { r with exitCode := read, run := .finish }
  else { r with consecutiveReadTimeouts := 0, run := .loop }

def runStep (self : ReaderId) (o : Outcome) (r : Reader) (device : Option ReaderId) :
    Option (Reader × Option ReaderId) :=
  match r.run with
  | .begin => some ({ r with exitCode := exitOk, run := .library }, device)
  | .library =>
    some (if o.ok then { r with run := .usbManager }
      else { r with exitCode := exitLibraryNotLoaded, run := .returned }, device)
  | .usbManager =>
    some (if o.ok then { r with run := .findDevice }
      else { r with exitCode := exitOpenFailed, run := .returned }, device)
  | .findDevice =>
    some (if o.ok then { r with run := .permission }
      else { r with exitCode := exitNoDevice, run := .returned }, device)
  | .permission =>
    some (if o.ok then { r with run := .openDevice }
      else { r with exitCode := exitNoPermission, run := .returned }, device)
  | .openDevice =>
    some ({ r with connection := o.ok, usbOpen := o.ok, run := .checkConnection }, device)
  | .checkConnection =>
    some (if r.connection then { r with run := .fileDescriptor }
      else { r with exitCode := exitOpenFailed, run := .returned }, device)
  -- a connection nulled by `stop()` in between ends `run()` with an exception
  | .fileDescriptor =>
    some ({ r with run := if r.connection then .openNative else .returned }, device)
  | .openNative =>
    if o.ok then some ({ r with run := .tune }, some self)
    else some ({ r with exitCode := exitCoreOpenFailed, run := .callStop }, none)
  | .tune =>
    some (if o.ok && device.isSome then { r with run := .loop }
      else { r with exitCode := exitTuneFailed, run := .callStop }, device)
  | .loop => some ({ r with run := if r.running then .read else .finish }, device)
  | .read => some (afterRead r (if device.isNone then -1 else o.read), device)
  | .finish =>
    some ({ r with
      exitCode := if r.exitCode = exitOk ∧ r.running = false then exitStopped else r.exitCode
      run := .callStop }, device)
  | .callStop =>
    some (if r.stopStarted then { r with run := .returned }
      else { stopCall true r with run := .inStop }, device)
  | .inStop => if r.stop = .done then some ({ r with run := .returned }, device) else none
  | .returned => none

/-! ## What one step can do -/

def RunPhase.beforeUsb : RunPhase → Bool
  | .begin | .library | .usbManager | .findDevice | .permission | .openDevice => true
  | _ => false

def RunPhase.beforeNative : RunPhase → Bool
  | .checkConnection | .fileDescriptor | .openNative => true
  | p => p.beforeUsb

@[grind →]
theorem RunPhase.beforeNative_of_beforeUsb {p : RunPhase} (h : p.beforeUsb = true) :
    p.beforeNative = true := by
  cases p <;> first | rfl | cases h

section Steps

variable {self : ReaderId} {o : Outcome} {r r' : Reader} {device device' : Option ReaderId}

theorem runStep_usb (h : runStep self o r device = some (r', device'))
    (hr : r.run ≠ .openDevice) : r'.connection = r.connection ∧ r'.usbOpen = r.usbOpen := by
  unfold runStep at h
  cases hrun : r.run <;> simp only [hrun] at h
  all_goals grind [afterRead, stopCall]

theorem runStep_device (h : runStep self o r device = some (r', device'))
    (hr : r.run ≠ .openNative) : device' = device := by
  unfold runStep at h
  cases hrun : r.run <;> simp only [hrun] at h
  all_goals grind

theorem runStep_stop (h : runStep self o r device = some (r', device')) :
    r'.stop = r.stop ∨ (r.run = .callStop ∧ r.stop = .idle ∧ r'.stop = .markStopped) := by
  unfold runStep at h
  cases hrun : r.run <;> simp only [hrun] at h
  all_goals grind [afterRead, stopCall, Reader.stopStarted]

/-- `run()` goes forward: what is still ahead of it was ahead of it before. -/
theorem runStep_ahead (h : runStep self o r device = some (r', device')) :
    (r'.run.beforeUsb = true → r.run.beforeUsb = true ∧ r.run ≠ .openDevice) ∧
      (r'.run.beforeNative = true → r.run.beforeNative = true ∧ r.run ≠ .openNative) := by
  unfold runStep at h
  cases hrun : r.run <;> simp only [hrun] at h
  all_goals grind [afterRead, RunPhase.beforeUsb, RunPhase.beforeNative]

/-- `run()` returns with nothing opened, without a connection, or with its
`stop()` called. -/
theorem runStep_returned (h : runStep self o r device = some (r', device'))
    (hr : r'.run = .returned) :
    (r.run.beforeUsb = true ∧ r.run ≠ .openDevice) ∨
      ((r.run = .checkConnection ∨ r.run = .fileDescriptor) ∧ r.connection = false) ∨
      r.stop ≠ .idle := by
  unfold runStep at h
  cases hrun : r.run <;> simp only [hrun] at h
  all_goals grind [afterRead, RunPhase.beforeUsb, Reader.stopStarted]

theorem runStep_openDevice (h : runStep self o r device = some (r', device'))
    (hr : r.run = .openDevice) :
    r' = { r with connection := o.ok, usbOpen := o.ok, run := .checkConnection } ∧
      device' = device := by
  simp only [runStep, hr, Option.some.injEq, Prod.mk.injEq] at h
  exact ⟨h.1.symm, h.2.symm⟩

theorem runStep_openNative (h : runStep self o r device = some (r', device'))
    (hr : r.run = .openNative) :
    (o.ok = true ∧ r' = { r with run := .tune } ∧ device' = some self) ∨
      (o.ok = false ∧ r' = { r with exitCode := exitCoreOpenFailed, run := .callStop } ∧
        device' = none) := by
  simp only [runStep, hr] at h
  cases ho : o.ok <;> simp only [ho] at h
  all_goals grind

/-- A step of `stop()` goes to the next phase and touches nothing that is not
that phase's. -/
theorem stopStep_cases (h : stopStep r device = some (r', device')) :
    r'.run = r.run ∧ r'.stop ≠ .idle ∧ r.stop ≠ .idle ∧ r.stop ≠ .done ∧
      (r.stop ≠ .closeConnection → r'.usbOpen = r.usbOpen) ∧
      (r.stop ≠ .nullConnection → r'.connection = r.connection) ∧
      (r.stop ≠ .closeNative → device' = device) ∧
      (r.stop = .closeNative → device' = none ∧ r'.stop = .readConnection) := by
  unfold stopStep at h
  cases hstop : r.stop <;> simp only [hstop] at h
  all_goals grind

end Steps

end AdsbBridge.Service
