import Mathlib.Logic.Function.Basic
import AdsbBridge.Service.Reader

/-! # The service and its readers

`BridgeService` as far as it starts and stops readers: the main thread, which
handles one intent after the other, the restart tasks and reader tasks on the
io pool, the readers themselves and the native device. One event is one access
to shared data; a block under `sdrLock` is one event. Which event comes next is
free, so a list of events is an interleaving. Delays, the pool's size and the
failure count only decide which of these interleavings are likely. -/
namespace AdsbBridge.Service
open AdsbBridge.Lib

inductive Action
  | start
  | startSdr
  | startNativeSdr
  | stopSdr
  | usbDetached
  | sendTest
  | stop
  deriving DecidableEq, Repr

/-- An intent; without the extra `EXTRA_ECO_MODE` the mode stays. -/
structure Intent where
  action : Action
  ecoMode : Option Bool := none
  /-- what `NativeRtlSdrDriver.isCoreLinked()` answers to a `startSdr` -/
  coreLinked : Bool := true
  deriving DecidableEq, Repr

inductive MainOp
  /-- `startServerIfNeeded` -/
  | startServer
  /-- `setRequestedSdrMode` -/
  | setMode (native : Bool)
  /-- `running = false` in `stopBridge` -/
  | clearRunning
  /-- `readsbProfileChanged && (sdrRunning` -/
  | testSdrRunning (profileChanged : Bool)
  /-- `|| sdrStarting)` -/
  | testSdrStarting
  /-- the test of `resumeRequestedSdrModeIfNeeded` -/
  | resume
  /-- the locked block of `startNativeSdrReaderIfNeeded` -/
  | startLock
  /-- the locked block of `stopSdrReader` -/
  | stopLock
  /-- `nativeToStop.stop()` -/
  | callStop (r : ReaderId)
  | awaitStop (r : ReaderId)
  /-- the two tests of `scheduleSdrRestartIfRequested` -/
  | scheduleMode
  | scheduleRunning
  deriving DecidableEq, Repr

inductive RestartPhase
  | absent
  | sleeping
  | readMode
  | readSdrRunning
  | readSdrStarting
  | readRunning
  | startLock
  | done
  deriving DecidableEq, Repr

inductive TaskPhase
  | absent
  | clearStarting
  | running
  | finishLock
  | finishedMode
  | finishedRunning
  | scheduleMode
  | scheduleRunning
  | done
  deriving DecidableEq, Repr

structure System where
  running : Bool := false
  acceptLoops : ℕ := 0
  sdrRunning : Bool := false
  sdrStarting : Bool := false
  /-- `requestedSdrMode == SDR_MODE_NATIVE` -/
  requestedNative : Bool := false
  ecoMode : Bool := false
  nativeReader : Option ReaderId := none
  device : Option ReaderId := none
  /-- from `nextReader` on, the readers that are not created yet -/
  readers : ReaderId → Reader := fun _ => {}
  tasks : ReaderId → TaskPhase := fun _ => .absent
  nextReader : ReaderId := 0
  restarts : ℕ → RestartPhase := fun _ => .absent
  nextRestart : ℕ := 0
  /-- the action of the intent handled last -/
  action : Action := .start
  main : List MainOp := []

/-- One event: the main thread takes an intent or goes on with it, a restart
task goes on or is interrupted, a reader's task goes on, an effective `stop()`
goes on, or an accept loop ends. -/
inductive Event
  | intent (i : Intent)
  | main
  | restart (t : ℕ)
  | interrupt (t : ℕ)
  | task (r : ReaderId) (o : Outcome)
  | stop (r : ReaderId)
  | acceptLoopEnds

namespace System

/-- The service after `onCreate`, with the two stored preferences. -/
def created (requestedNative ecoMode : Bool) : System :=
  { requestedNative := requestedNative, ecoMode := ecoMode }

def operations (profileChanged coreLinked : Bool) : Action → List MainOp
  | .stop => [.setMode false, .clearRunning, .stopLock]
  | .sendTest => [.startServer]
  | .startSdr =>
    if coreLinked then [.startServer, .setMode true, .startLock] else [.startServer, .setMode true]
  | .stopSdr => [.startServer, .setMode false, .stopLock]
  | .usbDetached => [.startServer, .stopLock]
  | .startNativeSdr => [.startServer, .setMode true, .testSdrRunning profileChanged]
  | .start => [.startServer, .resume]

/-- `synchronized (sdrLock)` in `startNativeSdrReaderIfNeeded`, and the
`io.execute` behind it. -/
def startReader (s : System) : System :=
  if s.sdrRunning || s.sdrStarting then s
  else
    { s with
      sdrStarting := true
      sdrRunning := true
      nativeReader := some s.nextReader
      tasks := Function.update s.tasks s.nextReader .clearStarting
      nextReader := s.nextReader + 1 }

/-- The `io.execute` of `scheduleSdrRestartIfRequested`. -/
def spawnRestart (s : System) : System :=
  { s with
    restarts := Function.update s.restarts s.nextRestart .sleeping
    nextRestart := s.nextRestart + 1 }

/-- `synchronized (sdrLock)` in `stopSdrReader`. -/
def stopLock (s : System) : System :=
  { s with sdrRunning := false, sdrStarting := false, nativeReader := none }

def setReader (s : System) (r : ReaderId) (reader : Reader) (device : Option ReaderId) : System :=
  { s with readers := Function.update s.readers r reader, device := device }

/-- One operation of the main thread, `rest` being what follows it. -/
def mainStep (s : System) (rest : List MainOp) : MainOp → Option System
  | .startServer =>
    some (if s.running then { s with main := rest }
      else { s with running := true, acceptLoops := s.acceptLoops + 1, main := rest })
  | .setMode native => some { s with requestedNative := native, main := rest }
  | .clearRunning => some { s with running := false, main := rest }
  | .testSdrRunning profileChanged =>
    some { s with main :=
      if !profileChanged then .startLock :: rest
      else if s.sdrRunning then .stopLock :: .scheduleMode :: rest
      else .testSdrStarting :: rest }
  | .testSdrStarting =>
    some { s with main :=
      if s.sdrStarting then .stopLock :: .scheduleMode :: rest else .startLock :: rest }
  | .resume => some { s with main := if s.requestedNative then .startLock :: rest else rest }
  | .startLock => some { s.startReader with main := rest }
  | .stopLock =>
    some { s.stopLock with main :=
      match s.nativeReader with
      | some r => .callStop r :: rest
      | none => rest }
  | .callStop r =>
    some (if (s.readers r).stopStarted then { s with main := rest }
      else { s.setReader r (Service.stopCall false (s.readers r)) s.device with
        main := .awaitStop r :: rest })
  | .awaitStop r => if (s.readers r).stop = .done then some { s with main := rest } else none
  | .scheduleMode => some { s with main := if s.requestedNative then .scheduleRunning :: rest else rest }
  | .scheduleRunning =>
    some (if s.running then { s.spawnRestart with main := rest } else { s with main := rest })

def setRestart (s : System) (t : ℕ) (p : RestartPhase) : System :=
  { s with restarts := Function.update s.restarts t p }

def restartStep (s : System) (t : ℕ) : Option System :=
  match s.restarts t with
  | .absent => none
  | .sleeping => some (s.setRestart t .readMode)
  | .readMode => some (s.setRestart t (if s.requestedNative then .readSdrRunning else .done))
  | .readSdrRunning => some (s.setRestart t (if s.sdrRunning then .done else .readSdrStarting))
  | .readSdrStarting => some (s.setRestart t (if s.sdrStarting then .done else .readRunning))
  | .readRunning => some (s.setRestart t (if s.running then .startLock else .done))
  | .startLock => some (s.startReader.setRestart t .done)
  | .done => none

def setTask (s : System) (r : ReaderId) (p : TaskPhase) : System :=
  { s with tasks := Function.update s.tasks r p }

/-- `handleNativeReaderFinished` goes on to schedule a restart. -/
def retries (exitCode : ℤ) : Bool := exitCode ≠ exitNoDevice && exitCode ≠ exitNoPermission

def taskStep (s : System) (r : ReaderId) (o : Outcome) : Option System :=
  match s.tasks r with
  | .absent => none
  | .clearStarting => some { s.setTask r .running with sdrStarting := false }
  | .running =>
    if (s.readers r).run = .returned then some (s.setTask r .finishLock)
    else (runStep r o (s.readers r) s.device).map fun (reader, device) => s.setReader r reader device
  | .finishLock =>
    some (if s.nativeReader = some r then s.stopLock.setTask r .finishedMode
      else s.setTask r .done)
  | .finishedMode => some (s.setTask r (if s.requestedNative then .finishedRunning else .done))
  | .finishedRunning =>
    some (s.setTask r
      (if s.running && retries (s.readers r).exitCode then .scheduleMode else .done))
  | .scheduleMode => some (s.setTask r (if s.requestedNative then .scheduleRunning else .done))
  | .scheduleRunning =>
    some (if s.running then s.spawnRestart.setTask r .done else s.setTask r .done)
  | .done => none

def step (s : System) : Event → Option System
  | .intent i =>
    if s.main = [] then
      let ecoMode := i.ecoMode.getD s.ecoMode
      some { s with
        ecoMode := ecoMode
        action := i.action
        main := operations (s.ecoMode != ecoMode) i.coreLinked i.action }
    else none
  | .main =>
    match s.main with
    | [] => none
    | op :: rest => s.mainStep rest op
  | .restart t => s.restartStep t
  | .interrupt t => if s.restarts t = .sleeping then some (s.setRestart t .done) else none
  | .task r o => s.taskStep r o
  | .stop r =>
    (stopStep (s.readers r) s.device).map fun (reader, device) => s.setReader r reader device
  | .acceptLoopEnds =>
    if s.acceptLoops = 0 then none
    else some { s with running := false, acceptLoops := s.acceptLoops - 1 }

end System

end AdsbBridge.Service
