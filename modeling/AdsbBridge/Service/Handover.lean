import AdsbBridge.Service.System

/-! # One device, several readers

`NativeRtlSdrDriver.close()` closes whatever device is open, and `stop()` calls
it after `sdrLock` is released. A reader that was put in its place meanwhile may
have opened the device by then. -/
namespace AdsbBridge.Service
open AdsbBridge.Lib AdsbBridge.Service.System

/-- The effective `stop()` is under way and has not closed the device yet. -/
def StopPhase.beforeClose : StopPhase → Bool
  | .markStopped | .clearRunning | .closeNative => true
  | _ => false

/-- The event is the `NativeRtlSdrDriver.close()` of a reader, and closes the
device that another reader opened which is not stopped. -/
def ClosesOther (s : System) : Event → Prop
  | .stop a => (s.readers a).stop = .closeNative ∧
      ∃ b, b ≠ a ∧ s.device = some b ∧ (s.readers b).stop = .idle
  | _ => False

/-- In the event the `stop()` of `a` gets past its compare-and-set. -/
def BeginsStop (s : System) (a : ReaderId) : Event → Prop
  | .main => (∃ rest, s.main = .callStop a :: rest) ∧ (s.readers a).stop = .idle
  | .task r _ =>
    r = a ∧ s.tasks a = .running ∧ (s.readers a).run = .callStop ∧ (s.readers a).stop = .idle
  | _ => False

/-- In the event `run()` of `b`, which is not stopped, opens the native device. -/
def OpensNative (s : System) (b : ReaderId) : Event → Prop
  | .task r o => r = b ∧ o.ok = true ∧ s.tasks b = .running ∧ (s.readers b).run = .openNative ∧
      (s.readers b).stop = .idle
  | _ => False

/-- The device changes hands in order: nobody opens it while the `stop()` of
another has the close ahead, and no `stop()` begins while another holds it. -/
structure Orderly (s : System) (e : Event) : Prop where
  opens : ∀ b, OpensNative s b e → ∀ a, a ≠ b → (s.readers a).stop.beforeClose = false
  stops : ∀ a, BeginsStop s a e → ∀ b, b ≠ a → s.device = some b → (s.readers b).stop ≠ .idle

/-- The `stop()` of one reader is on its way to close the device of another. -/
def Threatened (s : System) : Prop :=
  ∃ a b, b ≠ a ∧ (s.readers a).stop.beforeClose = true ∧ s.device = some b ∧
    (s.readers b).stop = .idle

/-! ## What one step does to the readers and the device -/

variable {s s' : System} {e : Event}

/-- The readers and the device change in three ways only. -/
inductive ReadersStep (s s' : System) : Event → Prop
  | same {e : Event} : s'.readers = s.readers → s'.device = s.device → ReadersStep s s' e
  | callStop {a : ReaderId} {rest : List MainOp} : s.main = .callStop a :: rest → (s.readers a).stop = .idle →
      s'.readers = Function.update s.readers a (Service.stopCall false (s.readers a)) →
      s'.device = s.device → ReadersStep s s' .main
  | run {r : ReaderId} {o : Outcome} {reader : Reader} : s.tasks r = .running →
      runStep r o (s.readers r) s.device = some (reader, s'.device) →
      s'.readers = Function.update s.readers r reader → ReadersStep s s' (.task r o)
  | stop {r : ReaderId} {reader : Reader} : stopStep (s.readers r) s.device = some (reader, s'.device) →
      s'.readers = Function.update s.readers r reader → ReadersStep s s' (.stop r)

theorem readersStep_main (h : s.step .main = some s') : ReadersStep s s' .main := by
  simp only [step] at h
  split at h
  · cases h
  · next op rest hm =>
    cases op <;> simp only [mainStep] at h
    case callStop a =>
      by_cases ha : (s.readers a).stop = .idle
      · simp only [Reader.stopStarted, ha, ne_eq, not_true_eq_false, decide_false,
          Bool.false_eq_true, if_false, Option.some.injEq] at h
        cases h
        exact .callStop hm ha rfl rfl
      · simp only [Reader.stopStarted, ha, ne_eq, not_false_eq_true, decide_true, if_true,
          Option.some.injEq] at h
        cases h
        exact .same rfl rfl
    all_goals
      apply ReadersStep.same <;> grind [System.stopLock, startReader, spawnRestart]

theorem readersStep_task {r : ReaderId} {o : Outcome} (h : s.step (.task r o) = some s') :
    ReadersStep s s' (.task r o) := by
  simp only [step, taskStep] at h
  cases hp : s.tasks r <;> simp only [hp] at h
  case running =>
    split at h
    · cases h
      exact .same rfl rfl
    · obtain ⟨⟨reader, device⟩, hrun, rfl⟩ := Option.map_eq_some_iff.1 h
      exact .run hp hrun rfl
  all_goals
    apply ReadersStep.same <;> grind [setTask, System.stopLock, spawnRestart]

theorem readersStep_of_step (h : s.step e = some s') : ReadersStep s s' e := by
  cases e with
  | main => exact readersStep_main h
  | task r o => exact readersStep_task h
  | stop r =>
    obtain ⟨⟨reader, device⟩, hstop, rfl⟩ := Option.map_eq_some_iff.1 h
    exact .stop hstop rfl
  | restart t =>
    simp only [step, restartStep] at h
    apply ReadersStep.same <;> grind [setRestart, startReader]
  | _ => apply ReadersStep.same <;> grind [step, setRestart]

/-! ## Orderly steps threaten nobody -/

theorem threatened_of_orderly (ho : Orderly s e) (h : s.step e = some s') (ht : Threatened s') :
    Threatened s := by
  obtain ⟨a, b, hab, ha, hd, hb⟩ := ht
  cases readersStep_of_step h with
  | same hr hdev =>
    rw [hr] at ha hb
    exact ⟨a, b, hab, ha, hdev ▸ hd, hb⟩
  | @callStop c rest hm hc hr hdev =>
    rw [hr, Function.update_apply] at ha hb
    have hstops := ho.stops c ⟨⟨rest, hm⟩, hc⟩ b
    unfold Threatened
    grind [Service.stopCall]
  | @run c o reader hc hrun hr =>
    rw [hr, Function.update_apply] at ha hb
    have hstop := runStep_stop hrun
    by_cases hon : (s.readers c).run = .openNative
    · rcases runStep_openNative hrun hon with ⟨hok, hreader, hdev⟩ | ⟨-, -, hdev⟩
      · have hopens := fun hidle => ho.opens c ⟨rfl, hok, hc, hon, hidle⟩ a
        grind
      · rw [hdev] at hd; cases hd
    · have hdev := runStep_device hrun hon
      have hstops := fun hcall hidle => ho.stops c ⟨rfl, hc, hcall, hidle⟩ b
      unfold Threatened
      grind
  | @stop c reader hstop hr =>
    rw [hr, Function.update_apply] at ha hb
    obtain ⟨-, hne, -, -, -, -, hdev, hclose⟩ := stopStep_cases hstop
    have hbefore : reader.stop.beforeClose = true → (s.readers c).stop.beforeClose = true := by
      unfold stopStep at hstop
      grind [StopPhase.beforeClose]
    unfold Threatened
    grind

/-! ## A disorderly step threatens a reader -/

theorem BeginsStop.step {a : ReaderId} (ha : BeginsStop s a e) :
    ∃ s', s.step e = some s' ∧ s'.device = s.device ∧
      ∃ reader : Reader, reader.stop = .markStopped ∧
        s'.readers = Function.update s.readers a reader := by
  cases e with
  | main =>
    obtain ⟨⟨rest, hm⟩, hi⟩ := ha
    refine ⟨{ s.setReader a (Service.stopCall false (s.readers a)) s.device with
      main := .awaitStop a :: rest }, ?_, rfl, _, ?_, rfl⟩
    · simp [System.step, hm, mainStep, Reader.stopStarted, hi]
    · simp [Service.stopCall, hi]
  | task r o =>
    obtain ⟨rfl, hc, hcall, hi⟩ := ha
    refine ⟨s.setReader r { Service.stopCall true (s.readers r) with run := .inStop } s.device,
      ?_, rfl, _, ?_, rfl⟩
    · simp [System.step, taskStep, hc, hcall, runStep, Reader.stopStarted, hi]
    · simp [Service.stopCall, hi]
  | _ => cases ha

theorem OpensNative.step {b : ReaderId} (hb : OpensNative s b e) :
    (s.readers b).stop = .idle ∧ ∃ s', s.step e = some s' ∧ s'.device = some b ∧
      s'.readers = Function.update s.readers b { s.readers b with run := .tune } := by
  cases e with
  | task r o =>
    obtain ⟨rfl, hok, hc, hon, hi⟩ := hb
    refine ⟨hi, s.setReader r { s.readers r with run := .tune } (some r), ?_, rfl, rfl⟩
    simp [System.step, taskStep, hc, hon, runStep, hok]
  | _ => cases hb

theorem threatened_of_not_orderly (ho : ¬ Orderly s e) :
    ∃ s', s.step e = some s' ∧ Threatened s' := by
  by_cases hopens : ∀ b, OpensNative s b e → ∀ a, a ≠ b → (s.readers a).stop.beforeClose = false
  · have hstops : ∃ a b, BeginsStop s a e ∧ b ≠ a ∧ s.device = some b ∧ (s.readers b).stop = .idle := by
      by_contra hno
      exact ho ⟨hopens, fun a ha b hb hd hi => hno ⟨a, b, ha, hb, hd, hi⟩⟩
    obtain ⟨a, b, ha, hb, hd, hi⟩ := hstops
    obtain ⟨s', h, hdev, reader, hmark, hr⟩ := ha.step
    refine ⟨s', h, a, b, hb, ?_, hdev.trans hd, ?_⟩
    · rw [hr, Function.update_self, hmark]; rfl
    · rw [hr, Function.update_of_ne hb]; exact hi
  · push Not at hopens
    obtain ⟨b, hb, a, hab, ha⟩ := hopens
    obtain ⟨hi, s', h, hdev, hr⟩ := hb.step
    refine ⟨s', h, a, b, Ne.symm hab, ?_, hdev, ?_⟩
    · rw [hr, Function.update_of_ne hab]; simpa using ha
    · rw [hr, Function.update_self]; exact hi

/-! ## A threatened reader loses its device -/

/-- In this run every close meets the reader's own device, or that of a stopped
reader. -/
abbrev ClosesOwn : System → List Event → Prop :=
  Trace.Along System.step fun s e => ¬ ClosesOther s e

/-- What a threat consists of, with the phase of the `stop()`. -/
structure Threat (a b : ReaderId) (p : StopPhase) (s : System) : Prop where
  ne : b ≠ a
  phase : (s.readers a).stop = p
  device : s.device = some b
  idle : (s.readers b).stop = .idle

variable {a b : ReaderId}

theorem Threat.clearRunning (ht : Threat a b .markStopped s) :
    ∃ s', s.step (.stop a) = some s' ∧ Threat a b .clearRunning s' := by
  refine ⟨s.setReader a { s.readers a with
    exitCode := if (s.readers a).exitCode = exitOk then exitStopped else (s.readers a).exitCode
    stop := .clearRunning } s.device, by simp [System.step, stopStep, ht.phase], ht.ne, ?_, ht.device, ?_⟩
  · simp [setReader]
  · simp [setReader, Function.update_of_ne ht.ne, ht.idle]

theorem Threat.closeNative (ht : Threat a b .clearRunning s) :
    ∃ s', s.step (.stop a) = some s' ∧ Threat a b .closeNative s' := by
  refine ⟨s.setReader a { s.readers a with running := false, stop := .closeNative } s.device,
    by simp [System.step, stopStep, ht.phase], ht.ne, ?_, ht.device, ?_⟩
  · simp [setReader]
  · simp [setReader, Function.update_of_ne ht.ne, ht.idle]

/-- The `stop()` under way needs no more than its own steps to do the damage. -/
theorem not_closesOwn_of_threatened (ht : Threatened s) :
    ∃ a n, ¬ ClosesOwn s (List.replicate n (.stop a)) := by
  obtain ⟨a, b, hab, ha, hd, hi⟩ := ht
  have hclose : ∀ {s : System}, Threat a b .closeNative s → ¬ ClosesOwn s (List.replicate 1 (.stop a)) :=
    fun ht hown => hown.1 ⟨ht.phase, b, ht.ne, ht.device, ht.idle⟩
  have hclear : ∀ {s : System}, Threat a b .clearRunning s →
      ¬ ClosesOwn s (List.replicate 2 (.stop a)) := by
    intro s ht hown
    obtain ⟨s', h, ht'⟩ := ht.closeNative
    exact hclose ht' (hown.2 s' h)
  cases hp : (s.readers a).stop <;> rw [hp] at ha
  case closeNative => exact ⟨a, 1, hclose ⟨hab, hp, hd, hi⟩⟩
  case clearRunning => exact ⟨a, 2, hclear ⟨hab, hp, hd, hi⟩⟩
  case markStopped =>
    refine ⟨a, 3, fun hown => ?_⟩
    obtain ⟨s', h, ht'⟩ := Threat.clearRunning ⟨hab, hp, hd, hi⟩
    exact hclear ht' (hown.2 s' h)
  all_goals cases ha

theorem not_threatened_created (native eco : Bool) : ¬ Threatened (created native eco) := by
  intro h
  obtain ⟨a, b, -, ha, -⟩ := h
  cases ha

theorem not_closesOther_of_not_threatened (ht : ¬ Threatened s) : ¬ ClosesOther s e := by
  intro hc
  cases e with
  | stop a =>
    obtain ⟨ha, b, hb, hd, hi⟩ := hc
    exact ht ⟨a, b, hb, by rw [ha]; rfl, hd, hi⟩
  | _ => cases hc

theorem orderly_stop (s : System) (a : ReaderId) : Orderly s (.stop a) :=
  ⟨fun _ h => h.elim, fun _ h => h.elim⟩

theorem closesOwn_of_orderly {native eco : Bool} {events : List Event}
    (ho : Trace.Along System.step Orderly (created native eco) events) :
    ClosesOwn (created native eco) events := by
  have hkeep : ∀ s e s', ¬ Threatened s → Orderly s e → s.step e = some s' → ¬ Threatened s' :=
    fun _ _ _ hs ho h ht => hs (threatened_of_orderly ho h ht)
  exact Trace.along_of_invariant hkeep (fun _ _ hs _ => not_closesOther_of_not_threatened hs)
    (not_threatened_created native eco) ho

/-- **When a reader closes only its own device.** A run is orderly if and only
if no `stop()` that goes on alone from some point of it closes the device of
another reader that is not stopped. -/
theorem orderly_iff_closesOwn (native eco : Bool) (events : List Event) :
    Trace.Along System.step Orderly (created native eco) events ↔
      ∀ es, es <+: events → ∀ a n,
        ClosesOwn (created native eco) (es ++ List.replicate n (.stop a)) := by
  constructor
  · rintro ho es ⟨post, rfl⟩ a n
    apply closesOwn_of_orderly
    refine Trace.along_append.2 ⟨(Trace.along_append.1 ho).1, fun s' _ => ?_⟩
    refine Trace.along_mono (fun s e he => ?_) (Trace.along_of_forall (P := (· = .stop a)) ?_)
    · rw [he]; exact orderly_stop s a
    · exact fun e he => List.eq_of_mem_replicate he
  · intro hown
    by_contra hno
    obtain ⟨pre, e, post, s, rfl, hrun, hn⟩ := Trace.exists_of_not_along hno
    obtain ⟨s', h, ht⟩ := threatened_of_not_orderly hn
    obtain ⟨a, n, hlost⟩ := not_closesOwn_of_threatened ht
    have hpre : Trace.exec System.step (created native eco) (pre ++ [e]) = some s' := by
      rw [Trace.exec_append, hrun]
      simp [Trace.exec, h]
    exact hlost ((Trace.along_append.1 (hown (pre ++ [e]) ⟨post, by simp⟩ a n)).2 s' hpre)

/-- The steps of `run()` up to an open native device. -/
def opened (r : ReaderId) : List Event := List.replicate 10 (.task r {})

/-- Reader 0 cannot open the device and leaves a restart task behind, which has tested
everything when `START_NATIVE_SDR` starts reader 1; `USB_DETACHED` takes reader 1 out and
has not called its `stop()` yet when the task puts reader 2 in its place, which
opens the device. -/
def replacedReader : List Event :=
  .intent { action := .startNativeSdr } :: List.replicate 4 .main ++ List.replicate 6 (.task 0 {}) ++
    [.task 0 { ok := false }] ++ List.replicate 7 (.task 0 {}) ++ List.replicate 5 (.restart 0) ++
    .intent { action := .startNativeSdr } :: List.replicate 4 .main ++ opened 1 ++
    [.intent { action := .usbDetached }, .main, .main, .restart 0] ++ opened 2 ++
    [.main, .stop 1, .stop 1]

/-- The `stop()` of reader 1 closes the device of reader 2, which runs. -/
theorem replacedReader_closesOther :
    ∃ s s', Trace.exec System.step (created false false) replacedReader = some s ∧
      ClosesOther s (.stop 1) ∧ s.nativeReader = some 2 ∧
      s.step (.stop 1) = some s' ∧ s'.device = none :=
  ⟨_, _, rfl, ⟨rfl, 2, by decide, rfl, rfl⟩, rfl, rfl, rfl⟩

end AdsbBridge.Service
