import AdsbBridge.Lib.Trace
import AdsbBridge.Store.Calls

/-! # What a poll of the store changes

A query prunes before it looks, a merge after it has touched the aircraft of
its line. As long as no line reaches an aircraft that a pruning would have
taken away, nobody can tell whether the store was asked in between. -/
namespace AdsbBridge.Store
open AdsbBridge.Lib

/-- The calls of a run, some of them marked as added queries, in time order. -/
structure Polled (run : List (Call × Bool)) : Prop where
  queries : ∀ c ∈ run, c.2 = true → c.1.isQuery = true
  inOrder : Call.InOrder (run.map Prod.fst)

/-- No queries added to these calls change what the calls return. -/
def Unobserved [UpperCase] (geo : Geo) (calls : List Call) : Prop :=
  ∀ run, Polled run → Trace.kept run = calls →
    Trace.keptOutputs (BridgeAircraftStore.call geo) {} run =
      Trace.outputs (BridgeAircraftStore.call geo) {} calls

/-- The call merges a line into an aircraft that has been silent for longer
than `AIRCRAFT_TTL_MS`. -/
def Revives [UpperCase] (store : BridgeAircraftStore) (c : Call) : Prop :=
  ∃ line nowMs update aircraft, c = .mergeSbsLine line nowMs ∧
    SbsUpdate.parse line = some update ∧ store.aircraftByHex.get? update.hex = some aircraft ∧
    nowMs - aircraft.lastMessageTimeMs > aircraftTtlMs

def callStep [UpperCase] (geo : Geo) (store : BridgeAircraftStore) (c : Call) :
    Option BridgeAircraftStore :=
  some (store.call geo c).1

/-! ## Pruning twice -/

theorem Aircraft.isRecent_mono {aircraft : Aircraft} {t t' : ℤ} (h : aircraft.isRecent t' = true)
    (hle : t ≤ t') : aircraft.isRecent t = true := by
  rw [Aircraft.isRecent, decide_eq_true_iff, minus_exactSub] at h ⊢
  omega

namespace BridgeAircraftStore

variable {geo : Geo} {store store' : BridgeAircraftStore} {update : SbsUpdate} {t t' : ℤ}

/-- An earlier pruning takes nothing away that a later one would keep. -/
theorem prune_prune (hle : t ≤ t') : (store.prune t).prune t' = store.prune t' := by
  have hmap : (store.prune t).aircraftByHex.filter (fun _ a => a.isRecent t') =
      store.aircraftByHex.filter (fun _ a => a.isRecent t') := by
    simp only [prune, LinkedMap.filter, LinkedMap.mk.injEq, List.filter_filter]
    refine List.filter_congr fun e _ => ?_
    cases hrecent : e.2.isRecent t' with
    | false => rfl
    | true => rw [Aircraft.isRecent_mono hrecent hle, Bool.and_self]
  rw [prune, hmap]
  rfl

/-- A line for an aircraft that is not silent for too long may as well be merged
after the pruning. -/
theorem mergeUpdate_eq_of_recent
    (hrecent : ∀ aircraft, store.aircraftByHex.get? update.hex = some aircraft →
      aircraft.isRecent t = true) :
    store.mergeUpdate geo update t =
      { (store.prune t).count t (positionVerdict geo update t
          ((store.known update.hex).mergeFields update t)) with
        aircraftByHex := (store.prune t).aircraftByHex.put update.hex (store.merged geo update t) } := by
  have hmerged : (store.merged geo update t).isRecent t = true := by
    rw [Aircraft.isRecent, (merged_spec geo store update t).2.1, LongSub.minus_self]
    exact decide_eq_true (by decide)
  have hput := LinkedMap.filter_put (p := fun _ (a : Aircraft) => a.isRecent t) hmerged hrecent
  show ({ store.count t (positionVerdict geo update t
      ((store.known update.hex).mergeFields update t)) with
    aircraftByHex := (store.aircraftByHex.put update.hex (store.merged geo update t)).filter
      fun _ aircraft => aircraft.isRecent t } : BridgeAircraftStore) = _
  rw [hput]
  cases positionVerdict geo update t ((store.known update.hex).mergeFields update t) <;> rfl

end BridgeAircraftStore

/-! ## A run beside the same run with more queries -/

section Follows

open BridgeAircraftStore

variable {geo : Geo} {store store' : BridgeAircraftStore} {update : SbsUpdate} {t : ℤ}
  {times : List ℤ}

/-- At each of these times a pruning makes the two stores the same, and the
second holds nothing that the first does not. -/
structure Follows (times : List ℤ) (store store' : BridgeAircraftStore) : Prop where
  alike : ∀ t ∈ times, store.prune t = store'.prune t
  sub : ∀ hex aircraft, store'.aircraftByHex.get? hex = some aircraft →
    store.aircraftByHex.get? hex = some aircraft

theorem follows_refl (times : List ℤ) (store : BridgeAircraftStore) : Follows times store store :=
  ⟨fun _ _ => rfl, fun _ _ h => h⟩

theorem Follows.later {times' : List ℤ} (h : Follows times store store')
    (hsub : times' ⊆ times) : Follows times' store store' :=
  ⟨fun t ht => h.alike t (hsub ht), h.sub⟩

/-- One query more on the second side. -/
theorem Follows.poll [UpperCase] (h : Follows times store store')
    (hle : ∀ t' ∈ times, t ≤ t') : Follows times store (store'.prune t) where
  alike := by
    intro t' ht'
    rw [h.alike t' ht', prune_prune (hle t' ht')]
  sub := by
    intro hex aircraft hget
    rw [get?_prune] at hget
    exact h.sub hex aircraft (Option.filter_eq_some_iff.1 hget).1

/-- A line that revives nothing leaves the same store behind on both sides. -/
theorem Follows.mergeUpdate [UpperCase] (h : Follows (t :: times) store store')
    (hrecent : ∀ aircraft, store.aircraftByHex.get? update.hex = some aircraft →
      aircraft.isRecent t = true) :
    store'.mergeUpdate geo update t = store.mergeUpdate geo update t := by
  have hprune := h.alike t List.mem_cons_self
  have hfound : store'.aircraftByHex.get? update.hex = store.aircraftByHex.get? update.hex := by
    cases hget : store.aircraftByHex.get? update.hex with
    | none =>
      cases hget' : store'.aircraftByHex.get? update.hex with
      | none => rfl
      | some aircraft =>
        have hsub := h.sub update.hex aircraft hget'
        rw [hget] at hsub
        cases hsub
    | some aircraft =>
      have hkept : (store'.prune t).aircraftByHex.get? update.hex = some aircraft := by
        rw [← hprune, get?_prune, hget, Option.filter_some, hrecent aircraft hget, if_pos rfl]
      rw [get?_prune] at hkept
      exact (Option.filter_eq_some_iff.1 hkept).1
  have hknown : store'.known update.hex = store.known update.hex := by
    rw [known, known, hfound]
  have hmerged : store'.merged geo update t = store.merged geo update t := by
    rw [merged, merged, hknown]
  rw [mergeUpdate_eq_of_recent hrecent, mergeUpdate_eq_of_recent (hfound ▸ hrecent), hprune, hknown,
    hmerged]

end Follows

/-! ## Runs -/

section Runs

open BridgeAircraftStore

variable {geo : Geo} {run : List (Call × Bool)} {store store' : BridgeAircraftStore}

/-- What holds between the run without and the run with the added queries,
`run` being the calls that are left. -/
structure Beside [UpperCase] (geo : Geo) (run : List (Call × Bool))
    (store store' : BridgeAircraftStore) : Prop where
  polled : Polled run
  quiet : Trace.Along (callStep geo) (fun s c => ¬ Revives s c) store (Trace.kept run)
  follows : Follows ((run.map Prod.fst).filterMap Call.timeMs) store store'

theorem Polled.tail {c : Call × Bool} (h : Polled (c :: run)) : Polled run := by
  refine ⟨fun c' hc' => h.queries c' (List.mem_cons_of_mem _ hc'), ?_⟩
  have horder := h.inOrder
  rw [Call.InOrder, List.map_cons, ← List.singleton_append, List.filterMap_append] at horder
  exact (List.pairwise_append.1 horder).2.1

/-- No call that is left is earlier than the next one. -/
theorem Polled.head_le {c : Call} {added : Bool} {t : ℤ} (h : Polled ((c, added) :: run))
    (ht : c.timeMs = some t) : ∀ t' ∈ (run.map Prod.fst).filterMap Call.timeMs, t ≤ t' := by
  have horder := h.inOrder
  rw [Call.InOrder, List.map_cons, List.filterMap_cons_some ht] at horder
  exact fun t' ht' => (List.pairwise_cons.1 horder).1 t' ht'

theorem Beside.added [UpperCase] {c : Call} (h : Beside geo ((c, true) :: run) store store') :
    Beside geo run store (store'.call geo c).1 := by
  have hquery := h.polled.queries (c, true) List.mem_cons_self rfl
  have hquiet : Trace.Along (callStep geo) (fun s c => ¬ Revives s c) store (Trace.kept run) :=
    h.quiet
  have hfollows : ∀ t, c.timeMs = some t →
      Follows ((run.map Prod.fst).filterMap Call.timeMs) store (store'.prune t) := by
    intro t ht
    refine (h.follows.later ?_).poll (h.polled.head_le ht)
    rw [List.map_cons, List.filterMap_cons_some ht]
    exact List.subset_cons_self _ _
  refine ⟨h.polled.tail, hquiet, ?_⟩
  cases c with
  | clear => cases hquery
  | mergeSbsLine line nowMs => cases hquery
  | recentAircraftCount nowMs => exact hfollows nowMs rfl
  | toAircraftJson nowMs =>
    have hstore : (store'.call geo (.toAircraftJson nowMs)).1 = store'.prune nowMs :=
      BridgeAircraftStore.toAircraftJson_store store' nowMs
    rw [hstore]
    exact hfollows nowMs rfl

/-- A call that returns the same and leaves the same store behind. -/
theorem Beside.same [UpperCase] {c : Call} (h : Beside geo ((c, false) :: run) store store')
    (hsame : store'.call geo c = store.call geo c) :
    (store'.call geo c).2 = (store.call geo c).2 ∧
      Beside geo run (store.call geo c).1 (store'.call geo c).1 := by
  rw [hsame]
  exact ⟨rfl, h.polled.tail, h.quiet.2 _ rfl, follows_refl _ _⟩

theorem Beside.kept [UpperCase] {c : Call} (h : Beside geo ((c, false) :: run) store store') :
    (store'.call geo c).2 = (store.call geo c).2 ∧
      Beside geo run (store.call geo c).1 (store'.call geo c).1 := by
  have hprune : ∀ t, c.timeMs = some t → store'.prune t = store.prune t := by
    intro t ht
    refine (h.follows.alike t ?_).symm
    rw [List.map_cons, List.filterMap_cons_some ht]
    exact List.mem_cons_self
  cases c with
  | clear => exact h.same rfl
  | recentAircraftCount nowMs =>
    refine h.same ?_
    simp only [call, recentAircraftCount, hprune nowMs rfl]
  | toAircraftJson nowMs =>
    refine h.same ?_
    simp only [call, toAircraftJson, hprune nowMs rfl]
  | mergeSbsLine line nowMs =>
    cases hparse : SbsUpdate.parse line with
    | none =>
      have hunread : ∀ s : BridgeAircraftStore, s.call geo (.mergeSbsLine line nowMs) = (s, .nothing) := by
        intro s
        rw [call, mergeSbsLine, hparse]
      have hquiet := h.quiet.2 _ rfl
      rw [hunread] at hquiet
      rw [hunread, hunread]
      exact ⟨rfl, h.polled.tail, hquiet, h.follows.later (List.subset_cons_self _ _)⟩
    | some update =>
      have hrecent : ∀ aircraft, store.aircraftByHex.get? update.hex = some aircraft →
          aircraft.isRecent nowMs = true := by
        intro aircraft hget
        rw [Aircraft.isRecent, decide_eq_true_iff, minus_exactSub]
        by_contra hsilent
        exact h.quiet.1 ⟨line, nowMs, update, aircraft, rfl, hparse, hget, by omega⟩
      have hmerge : store'.mergeUpdate geo update nowMs = store.mergeUpdate geo update nowMs :=
        h.follows.mergeUpdate hrecent
      refine h.same ?_
      rw [call, call, mergeSbsLine, mergeSbsLine, hparse]
      simp only [hmerge]

end Runs

/-- **Queries are unobserved as long as no line revives an aircraft.** -/
theorem unobserved_of_never_revives [UpperCase] (geo : Geo) {calls : List Call}
    (hquiet : Trace.Along (callStep geo) (fun store c => ¬ Revives store c) {} calls) :
    Unobserved geo calls := by
  intro run hpolled hkept
  have hbeside : Beside geo run {} {} := ⟨hpolled, hkept ▸ hquiet, follows_refl _ _⟩
  have hadded : ∀ c rest s s', Beside geo ((c, true) :: rest) s s' →
      Beside geo rest s (s'.call geo c).1 := fun c rest s s' h => h.added
  have hother : ∀ c rest s s', Beside geo ((c, false) :: rest) s s' →
      (s'.call geo c).2 = (s.call geo c).2 ∧ Beside geo rest (s.call geo c).1 (s'.call geo c).1 :=
    fun c rest s s' h => h.kept
  rw [Trace.keptOutputs_eq hadded hother hbeside, hkept]

/-! ## A minute of silence -/

def named : Text := "MSG,1,1,1,4840D6,1,,,,,KLM1023,,,,,,,0,0,0,0,0".toList

/-- Two lines of an aircraft, this many milliseconds apart, and a look at the
feed right after the second. -/
def linesApart (ms : ℤ) : List Call :=
  [.mergeSbsLine named 1000, .mergeSbsLine named (1000 + ms), .toAircraftJson (1000 + ms)]

/-- All that the first line leaves behind was heard of with it. -/
theorem lastMessageTimeMs_of_first [UpperCase] {geo : Geo} {line hex : Text} {t : ℤ}
    {aircraft : Aircraft}
    (h : (({} : BridgeAircraftStore).mergeSbsLine geo line t).aircraftByHex.get? hex = some aircraft) :
    aircraft.lastMessageTimeMs = t := by
  rw [BridgeAircraftStore.mergeSbsLine] at h
  cases hparse : SbsUpdate.parse line with
  | none =>
    rw [hparse] at h
    cases h
  | some update =>
    rw [hparse] at h
    rcases BridgeAircraftStore.get?_mergeUpdate_cases h with ⟨-, rfl⟩ | h
    · exact (BridgeAircraftStore.merged_spec geo {} update t).2.1
    · cases h

theorem unobserved_minute : Unobserved noGeo (linesApart 60000) := by
  refine unobserved_of_never_revives noGeo ⟨?_, ?_⟩
  · intro h
    obtain ⟨line, nowMs, update, aircraft, -, -, hget, -⟩ := h
    cases hget
  · intro store hstore
    cases hstore
    refine ⟨?_, fun store _ => ⟨?_, fun _ _ => trivial⟩⟩
    · intro h
      obtain ⟨line, nowMs, update, aircraft, hcall, hparse, hget, hsilent⟩ := h
      cases hcall
      have hheard := lastMessageTimeMs_of_first hget
      rw [hheard, aircraftTtlMs] at hsilent
      omega
    · intro h
      obtain ⟨line, nowMs, update, aircraft, hcall, -⟩ := h
      cases hcall

def shownMessages : Answer → List (Option JsonValue)
  | .json json => json.items.map fun item => item.lookup "messages"
  | _ => []

/-- With a poll in the silence, the aircraft has one message afterwards;
without, two. -/
theorem observed_silence : ¬ Unobserved noGeo (linesApart 61000) := by
  intro h
  have hrun := h [(.mergeSbsLine named 1000, false), (.recentAircraftCount 61500, true),
    (.mergeSbsLine named 62000, false), (.toAircraftJson 62000, false)] ?_ rfl
  · have hshown := congrArg (List.map shownMessages) hrun
    revert hshown
    decide
  · constructor
    · decide
    · show List.Pairwise (· ≤ ·) [1000, 61500, 62000, 62000]
      decide

end AdsbBridge.Store
