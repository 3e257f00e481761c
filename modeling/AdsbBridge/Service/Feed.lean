import AdsbBridge.CleanFrames
import AdsbBridge.Lib.Trace
import AdsbBridge.Native.Emitted
import AdsbBridge.Readsb.Repair
import AdsbBridge.Store.Listed

/-! # From the samples to the feed

Reader threads hand the samples they read to the library and merge the lines that
come back one by one; servers, status lines and test targets use the store in
between. One event is one call under the mutex of the library or the lock of the
store. Whatever their order, the feed lists the aircraft of the lines made and merged
in the last minute. -/
namespace AdsbBridge.Service
open AdsbBridge.Lib AdsbBridge.FrontEnd AdsbBridge.Native AdsbBridge.Store

/-- Library, store, and what the threads have yet to merge. -/
structure Feed where
  library : Library := {}
  /-- the lines of `emitNativeDecoderLines` that a reader has not passed on -/
  pending : ℕ → List Text := fun _ => []
  store : BridgeAircraftStore := {}

inductive FeedEvent
  /-- `processIq` of a reader on what it has read -/
  | read (reader : ℕ) (call : IqCall)
  /-- `mergeSbsLine` with the next line of a reader -/
  | merge (reader : ℕ) (nowMs : ℤ)
  /-- `NativeModeSDecoder.reset` -/
  | reset
  /-- any other call of the store -/
  | store (c : Store.Call)

def FeedEvent.timeMs : FeedEvent → Option ℤ
  | merge _ nowMs => some nowMs
  | store c => c.timeMs
  | _ => none

namespace Feed

/-- An aircraft and the time of a line of it. -/
abbrev Heard := Text × ℤ

/-- What the decoders heard: the addresses of the lines that are still to be merged,
and the aircraft of the merged ones since the last `clear`. -/
structure Hearing where
  library : Library := {}
  waiting : ℕ → List ℕ := fun _ => []
  heard : List Heard := []

section Run

variable (env : Readsb.Env) (geo : Geo)

def step [UpperCase] (s : Feed) : FeedEvent → Option Feed
  | .read reader call =>
    if (s.pending reader).isEmpty then
      let (library, lines) := nativeProcessIq env s.library call
      some { s with
        library := library
        pending := Function.update s.pending reader (emitNativeDecoderLines lines) }
    else none
  | .merge reader nowMs =>
    match s.pending reader with
    | [] => none
    | line :: rest =>
      some { s with
        pending := Function.update s.pending reader rest
        store := (s.store.call geo (.mergeSbsLine line nowMs)).1 }
  | .reset => some { s with library := nativeReset s.library }
  | .store c => some { s with store := (s.store.call geo c).1 }

def Hearing.step [UpperCase] (h : Hearing) : FeedEvent → Hearing
  | .read reader call =>
    { h with
      library := (nativeProcessIq env h.library call).1
      waiting := Function.update h.waiting reader ((linesOut env h.library call).map Prod.fst) }
  | .merge reader nowMs =>
    match h.waiting reader with
    | [] => h
    | addr :: rest =>
      { h with
        waiting := Function.update h.waiting reader rest
        heard := h.heard ++ [(Text.hexOf 6 addr, nowMs)] }
  | .reset => { h with library := nativeReset h.library }
  | .store .clear => { h with heard := [] }
  | .store (.mergeSbsLine line nowMs) =>
    { h with
      heard := h.heard ++
        ((SbsUpdate.parse line).map fun update => (update.hex, nowMs)).toList }
  | .store _ => h

/-- The aircraft heard in the last minute, each once. -/
def heardLately [UpperCase] (events : List FeedEvent) (nowMs : ℤ) : List Text :=
  (((events.foldl (Hearing.step env) {}).heard.filter
    fun heard => nowMs - heard.2 ≤ aircraftTtlMs).map Prod.fst).dedup

end Run

/-! ## The calls of the store -/

/-- The aircraft and the time of an accepted line. -/
def heardIn [UpperCase] : Store.Call → Option Heard
  | .mergeSbsLine line ms => (SbsUpdate.parse line).map fun update => (update.hex, ms)
  | _ => none

/-- The store reads a line as one of this address. -/
def IsOf [UpperCase] (line : Text) (addr : ℕ) : Prop :=
  ∃ update, SbsUpdate.parse line = some update ∧ update.hex = Text.hexOf 6 addr

/-- What is heard beside the program, and the calls that the store has seen. -/
structure Follows [UpperCase] (geo : Geo) (s : Feed) (h : Hearing) (calls : List Store.Call) :
    Prop where
  library : h.library = s.library
  plain : s.library.Plain
  waiting : ∀ reader, List.Forall₂ IsOf (s.pending reader) (h.waiting reader)
  store : s.store = BridgeAircraftStore.after geo {} calls
  heard : h.heard = (sinceClear calls).filterMap heardIn

section

variable {env : Readsb.Env} {geo : Geo} {s s' : Feed} {h : Hearing} {calls : List Store.Call}

theorem follows_new [UpperCase] : Follows geo {} {} [] where
  library := rfl
  plain := AircraftTable.all_fresh
  waiting := fun _ => .nil
  store := rfl
  heard := rfl

/-- The lines of a reader change. -/
theorem waiting_update [UpperCase]
    (hs : ∀ reader, List.Forall₂ IsOf (s.pending reader) (h.waiting reader))
    (reader : ℕ) {lines : List Text} {addrs : List ℕ} (hlines : List.Forall₂ IsOf lines addrs) :
    ∀ r, List.Forall₂ IsOf (Function.update s.pending reader lines r)
      (Function.update h.waiting reader addrs r) := by
  intro r
  by_cases hr : r = reader
  · subst hr
    rwa [Function.update_self, Function.update_self]
  · rw [Function.update_of_ne hr, Function.update_of_ne hr]
    exact hs r

/-- A line that is merged, or a look at the store. -/
theorem heardIn_concat [UpperCase] {c : Store.Call} (hc : c ≠ .clear) :
    (sinceClear (calls ++ [c])).filterMap heardIn =
      (sinceClear calls).filterMap heardIn ++ (heardIn c).toList := by
  rw [sinceClear_concat, if_neg hc, List.filterMap_append, List.filterMap_cons, List.filterMap_nil]
  cases heardIn c <;> rfl

theorem Follows.read [UpperCase] (hf : Follows geo s h calls) {reader : ℕ} {call : IqCall}
    (hstep : s.step env geo (.read reader call) = some s') :
    Follows geo s' (h.step env (.read reader call)) calls := by
  simp only [Feed.step] at hstep
  split at hstep
  · cases hstep
    have hmade := @linesMade_made env _ hf.plain call
    refine ⟨by rw [Hearing.step, hf.library], hmade.1, waiting_update hf.waiting reader ?_,
      hf.store, hf.heard⟩
    rw [emitNativeDecoderLines_nativeProcessIq hf.plain, hf.library, List.forall₂_map_left_iff,
      List.forall₂_map_right_iff, List.forall₂_same]
    intro made hout
    obtain ⟨hin, hline⟩ := List.mem_filter.1 hout
    exact (hmade.2 made hin).parse (by simpa using hline)
  · cases hstep

theorem Follows.merge [UpperCase] (hf : Follows geo s h calls) {reader : ℕ} {nowMs : ℤ}
    (hstep : s.step env geo (.merge reader nowMs) = some s') :
    ∃ line, Follows geo s' (h.step env (.merge reader nowMs))
      (calls ++ [.mergeSbsLine line nowMs]) := by
  have hwaiting := hf.waiting reader
  simp only [Feed.step] at hstep
  split at hstep
  · cases hstep
  · next line rest hpending =>
    cases hstep
    rw [hpending] at hwaiting
    cases hnext : h.waiting reader with
    | nil =>
      rw [hnext] at hwaiting
      cases hwaiting
    | cons addr addrs =>
      rw [hnext] at hwaiting
      obtain ⟨⟨update, hparse, hhex⟩, hrest⟩ := List.forall₂_cons.1 hwaiting
      refine ⟨line, ?_⟩
      rw [Hearing.step, hnext]
      refine ⟨hf.library, hf.plain, waiting_update hf.waiting reader hrest, ?_, ?_⟩
      · rw [BridgeAircraftStore.after_concat, ← hf.store]
      · rw [heardIn_concat (by simp), ← hf.heard, heardIn, hparse, Option.map_some, hhex]
        rfl

theorem Follows.call [UpperCase] (hf : Follows geo s h calls) {c : Store.Call}
    (hstep : s.step env geo (.store c) = some s') :
    Follows geo s' (h.step env (.store c)) (calls ++ [c]) := by
  cases hstep
  have hstore : (s.store.call geo c).1 = BridgeAircraftStore.after geo {} (calls ++ [c]) := by
    rw [BridgeAircraftStore.after_concat, ← hf.store]
  cases c with
  | clear =>
    refine ⟨hf.library, hf.plain, hf.waiting, hstore, ?_⟩
    rw [sinceClear_concat, if_pos rfl]
    rfl
  | mergeSbsLine line nowMs =>
    refine ⟨hf.library, hf.plain, hf.waiting, hstore, ?_⟩
    rw [heardIn_concat (by simp), ← hf.heard]
    rfl
  | recentAircraftCount nowMs =>
    refine ⟨hf.library, hf.plain, hf.waiting, hstore, ?_⟩
    rw [heardIn_concat (by simp), ← hf.heard]
    exact (List.append_nil _).symm
  | toAircraftJson nowMs =>
    refine ⟨hf.library, hf.plain, hf.waiting, hstore, ?_⟩
    rw [heardIn_concat (by simp), ← hf.heard]
    exact (List.append_nil _).symm

/-- **One event**, on the side of the program and on that of what is heard. -/
theorem Follows.step [UpperCase] (hf : Follows geo s h calls) {e : FeedEvent}
    (hstep : s.step env geo e = some s') :
    ∃ more, Follows geo s' (h.step env e) (calls ++ more) ∧
      more.filterMap Call.timeMs = e.timeMs.toList := by
  cases e with
  | read reader call => exact ⟨[], by rw [List.append_nil]; exact hf.read hstep, rfl⟩
  | merge reader nowMs =>
    obtain ⟨line, hf⟩ := hf.merge hstep
    exact ⟨[_], hf, rfl⟩
  | reset =>
    cases hstep
    refine ⟨[], ?_, rfl⟩
    rw [List.append_nil]
    exact ⟨congrArg nativeReset hf.library, AircraftTable.all_fresh, hf.waiting, hf.store, hf.heard⟩
  | store c =>
    refine ⟨[c], hf.call hstep, ?_⟩
    rw [List.filterMap_cons, List.filterMap_nil, FeedEvent.timeMs]
    cases c.timeMs <;> rfl

theorem follows_exec [UpperCase] {events : List FeedEvent} (hf : Follows geo s h calls)
    (hexec : Trace.exec (Feed.step env geo) s events = some s') :
    ∃ more, Follows geo s' (events.foldl (Hearing.step env) h) (calls ++ more) ∧
      more.filterMap Call.timeMs = events.filterMap FeedEvent.timeMs := by
  induction events generalizing s h calls with
  | nil =>
    cases hexec
    exact ⟨[], by rw [List.append_nil]; exact hf, rfl⟩
  | cons e rest ih =>
    obtain ⟨s₁, hstep, hrest⟩ := Trace.exec_cons hexec
    obtain ⟨more, hf₁, htime⟩ := hf.step hstep
    obtain ⟨last, hf', htimes⟩ := ih hf₁ hrest
    refine ⟨more ++ last, by rwa [← List.append_assoc], ?_⟩
    rw [List.filterMap_append, htime, htimes, List.filterMap_cons]
    cases e.timeMs <;> rfl

/-! ## The feed -/

theorem recentHex_eq [UpperCase] (nowMs : ℤ) : Call.recentHex nowMs = fun c =>
    ((heardIn c).filter fun heard => decide (nowMs - heard.2 ≤ aircraftTtlMs)).map Prod.fst := by
  funext c
  cases c with
  | mergeSbsLine line ms =>
    rw [Call.recentHex, heardIn]
    cases SbsUpdate.parse line with
    | none => simp
    | some update =>
      simp only [Option.map_some, Option.filter_some]
      by_cases hms : nowMs - ms ≤ aircraftTtlMs
      · rw [if_pos hms, if_pos (decide_eq_true hms)]
        rfl
      · rw [if_neg hms, if_neg (by simpa using hms)]
        rfl
  | clear => rfl
  | recentAircraftCount ms => rfl
  | toAircraftJson ms => rfl

/-- **The feed lists whom the decoders heard in the last minute**, each aircraft once and
nobody else, whatever readers, library and store went through before. -/
theorem feed_lists_heard [UpperCase] {events : List FeedEvent} {s : Feed}
    (hexec : Trace.exec (Feed.step env geo) {} events = some s) (nowMs : ℤ)
    (horder : (events.filterMap FeedEvent.timeMs ++ [nowMs]).Pairwise (· ≤ ·)) :
    ∃ root, (s.store.toAircraftJson nowMs).2 = .feed root ∧
      root.total = (heardLately env events nowMs).length ∧
      (s.store.recentAircraftCount nowMs).2 = (heardLately env events nowMs).length ∧
      ∀ hex, (root.aircraft.countP fun item => item.lookup "hex" = some (.text hex)) =
        if hex ∈ heardLately env events nowMs then 1 else 0 := by
  obtain ⟨calls, hf, htimes⟩ := follows_exec (@follows_new geo _) hexec
  rw [List.nil_append] at hf
  have hlately : heardLately env events nowMs = heardRecently calls nowMs := by
    rw [heardLately, heardRecently, recentHex_eq, ← List.map_filterMap, ← List.filter_filterMap,
      ← hf.heard]
  rw [hlately, hf.store]
  refine toAircraftJson_lists geo calls nowMs ?_
  rw [Call.InOrder, List.filterMap_append, htimes]
  exact horder

/-- The identification of an aircraft, received without noise. -/
def identificationCall : IqCall where
  iq := iqBytes (transmissions 1 [(0, AdsbBridge.klm1023)])
  now := firstSecond
  mode := 0
  sysTime := 1000

def identificationLine : Text :=
  "MSG,1,1,1,4840D6,1,1970/01/01,00:00:01.000,1970/01/01,00:00:01.000,KLM1023,,,,,,,0,0,0,0,0,,".toList

theorem linesOut_identification :
    linesOut Readsb.repairingEnv {} identificationCall = [(0x4840d6, identificationLine)] := by
  have hsquitter : ∀ frame ∈ [(0, AdsbBridge.klm1023)], IsSquitter frame.2 := by
    intro frame hmem
    rw [List.mem_singleton.1 hmem]
    exact klm1023_isSquitter
  have hmessages : messagesOf [] [identificationCall.toCall] =
      [(⟨1000, 1000⟩, AdsbBridge.klm1023)] :=
    messagesOf_transmissions rfl firstSecond hsquitter fun _ => Nat.one_pos
  have hline : (Native.handleMessage Readsb.repairingEnv.trig ⟨1000, 1000⟩ AdsbBridge.klm1023 {}).2 =
      identificationLine := by
    decide
  have hframes := handledFrames_eq (Native.processFast_isFrontEnd Readsb.repairingEnv.trig)
    [identificationCall.toCall] Native.holds_fresh
  rw [hmessages, handleAll, handleAll, hline, handledFrames, handledFrames, List.append_nil] at hframes
  obtain ⟨frame, hone, hframe⟩ := List.mapIdx_eq_singleton_iff.1 hframes
  obtain ⟨-, hmessage, hlast⟩ := HandledFrame.mk.inj hframe
  have hmade : linesMade Readsb.repairingEnv {} identificationCall =
      [(Fields.icaoAddress frame.message, frame.line)] := by
    have hempty : identificationCall.iq.isEmpty = false := rfl
    rw [linesMade, hempty, if_neg Bool.false_ne_true, if_neg (by decide), hone]
    rfl
  rw [linesOut, hmade, hmessage, hlast]
  decide

/-- A reader hears an aircraft and merges its line; a poll and a test target come after. -/
def heardAndTested : List FeedEvent :=
  [.read 0 identificationCall, .merge 0 1200, .store (.recentAircraftCount 1500),
    .store (.mergeSbsLine
      "MSG,3,1,1,484F01,1,,,,,TEST01,12000,220,90,52.09,5.12,0,0,0,0,0,0".toList 2000)]

theorem read_new [UpperCase] (reader : ℕ) (call : IqCall) :
    Feed.step env geo {} (.read reader call) = some
      { library := (nativeProcessIq env {} call).1
        pending := Function.update (fun _ => []) reader ((linesOut env {} call).map Prod.snd)
        store := {} } := by
  have hlines := @emitNativeDecoderLines_nativeProcessIq env {} AircraftTable.all_fresh call
  have hnew : (({} : Feed).pending reader).isEmpty = true := rfl
  rw [Feed.step, if_pos hnew, ← hlines]

theorem feed_lists_heardAndTested :
    ∃ s root, Trace.exec (Feed.step Readsb.repairingEnv noGeo) {} heardAndTested = some s ∧
      (s.store.toAircraftJson 3000).2 = .feed root ∧ root.total = 2 ∧
      (root.aircraft.countP fun item => item.lookup "hex" = some (.text "4840D6".toList)) = 1 := by
  have hread := @read_new Readsb.repairingEnv noGeo _ 0 identificationCall
  rw [linesOut_identification] at hread
  have hexec : Trace.exec (Feed.step Readsb.repairingEnv noGeo) {} heardAndTested = some _ :=
    (Trace.exec_of_step hread _).trans rfl
  have hlately : heardLately Readsb.repairingEnv heardAndTested 3000 =
      ["4840D6".toList, "484F01".toList] := by
    rw [heardLately, heardAndTested, List.foldl_cons, Hearing.step, linesOut_identification]
    rfl
  obtain ⟨root, hroot, htotal, -, hcount⟩ := feed_lists_heard hexec 3000 (by decide)
  rw [hlately] at htotal hcount
  exact ⟨_, root, hexec, hroot, htotal, (hcount _).trans (if_pos List.mem_cons_self)⟩

end

end Feed

end AdsbBridge.Service
