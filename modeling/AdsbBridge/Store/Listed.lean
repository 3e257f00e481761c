import Mathlib.Data.List.Dedup
import AdsbBridge.Store.Ledger

/-! # Whom the feed lists

The feed as a function of the lines alone. Whatever was asked in between, it
lists the aircraft of the lines of the last minute, and what it says of one of
them was said by the lines of its current stay in the store. -/
namespace AdsbBridge.Store
open AdsbBridge.Lib

/-! ## Lines of one aircraft -/

/-- An accepted line and its time. -/
structure Report where
  update : SbsUpdate
  ms : ℤ

def Call.report [UpperCase] (hex : Text) : Call → Option Report
  | mergeSbsLine line nowMs =>
    ((SbsUpdate.parse line).filter fun update => update.hex = hex).map fun update => ⟨update, nowMs⟩
  | _ => none

/-- The reports of an aircraft since the last `clear`. -/
def reports [UpperCase] (calls : List Call) (hex : Text) : List Report :=
  (sinceClear calls).filterMap (Call.report hex)

/-- The aircraft of a line that is at most a minute old. -/
def Call.recentHex [UpperCase] (nowMs : ℤ) : Call → Option Text
  | mergeSbsLine line ms =>
    if nowMs - ms ≤ aircraftTtlMs then (SbsUpdate.parse line).map SbsUpdate.hex else none
  | _ => none

/-- The aircraft of the lines of the last minute, each once. -/
def heardRecently [UpperCase] (calls : List Call) (nowMs : ℤ) : List Text :=
  ((sinceClear calls).filterMap (Call.recentHex nowMs)).dedup

section

variable [UpperCase] {calls : List Call} {c : Call} {hex : Text} {nowMs : ℤ} {update : SbsUpdate}
  {line : Text}

theorem mem_heardRecently :
    hex ∈ heardRecently calls nowMs ↔ ∃ r ∈ reports calls hex, nowMs - r.ms ≤ aircraftTtlMs := by
  rw [heardRecently, List.mem_dedup, List.mem_filterMap]
  constructor
  · rintro ⟨c, hc, hrecent⟩
    cases c with
    | mergeSbsLine line ms =>
      rw [Call.recentHex] at hrecent
      split at hrecent
      · next hms =>
        obtain ⟨update, hparse, rfl⟩ := Option.map_eq_some_iff.1 hrecent
        refine ⟨⟨update, ms⟩, List.mem_filterMap.2 ⟨_, hc, ?_⟩, hms⟩
        rw [Call.report, hparse, Option.filter_some, if_pos (decide_eq_true rfl), Option.map_some]
      · cases hrecent
    | clear => cases hrecent
    | recentAircraftCount ms => cases hrecent
    | toAircraftJson ms => cases hrecent
  · rintro ⟨r, hr, hms⟩
    obtain ⟨c, hc, hreport⟩ := List.mem_filterMap.1 hr
    refine ⟨c, hc, ?_⟩
    cases c with
    | mergeSbsLine line ms =>
      obtain ⟨update, hupdate, rfl⟩ := Option.map_eq_some_iff.1 hreport
      obtain ⟨hparse, hhex⟩ := Option.filter_eq_some_iff.1 hupdate
      rw [Call.recentHex, if_pos hms, hparse, Option.map_some, of_decide_eq_true hhex]
    | clear => cases hreport
    | recentAircraftCount ms => cases hreport
    | toAircraftJson ms => cases hreport

theorem reports_clear : reports (calls ++ [.clear]) hex = [] := by
  rw [reports, sinceClear_concat, if_pos rfl, List.filterMap_nil]

theorem reports_concat (hc : c ≠ .clear) :
    reports (calls ++ [c]) hex = reports calls hex ++ (c.report hex).toList := by
  rw [reports, sinceClear_concat, if_neg hc, List.filterMap_append, ← reports, List.filterMap_cons,
    List.filterMap_nil]
  cases c.report hex <;> rfl

theorem reports_silent (hc : c ≠ .clear) (hsilent : c.report hex = none) :
    reports (calls ++ [c]) hex = reports calls hex := by
  rw [reports_concat hc, hsilent, Option.toList_none, List.append_nil]

theorem report_merge (hparse : SbsUpdate.parse line = some update) :
    Call.report update.hex (.mergeSbsLine line nowMs) = some ⟨update, nowMs⟩ := by
  rw [Call.report, hparse, Option.filter_some, if_pos (decide_eq_true rfl), Option.map_some]

theorem report_other (hparse : SbsUpdate.parse line = some update) (hne : hex ≠ update.hex) :
    Call.report hex (.mergeSbsLine line nowMs) = none := by
  rw [Call.report, hparse, Option.filter_some, if_neg (by simpa using hne.symm), Option.map_none]

theorem report_rejected (hparse : SbsUpdate.parse line = none) :
    Call.report hex (.mergeSbsLine line nowMs) = none := by
  rw [Call.report, hparse, Option.filter_none, Option.map_none]

end

/-! ## Stays -/

/-- What a look at the store at some time leaves of a stay. -/
def expire (nowMs : ℤ) (stay : List Report) : List Report :=
  if stay.getLast?.any fun r => aircraftTtlMs < nowMs - r.ms then [] else stay

/-- What a call makes of an aircraft's stay in the store. -/
def stayStep [UpperCase] (hex : Text) (stay : List Report) : Call → List Report
  | .clear => []
  | .mergeSbsLine line nowMs =>
    match SbsUpdate.parse line with
    | none => stay
    | some update =>
      if hex = update.hex then stay ++ [⟨update, nowMs⟩] else expire nowMs stay
  | .recentAircraftCount nowMs | .toAircraftJson nowMs => expire nowMs stay

/-- The reports of an aircraft in its current stay: nobody looked at the store
while it was silent for more than a minute. -/
def stayOf [UpperCase] (hex : Text) (calls : List Call) : List Report :=
  calls.foldl (stayStep hex) []

/-- The last value that a report of the stay gave. -/
def newest {α : Type} (field : SbsUpdate → Option α) (stay : List Report) : Option α :=
  stay.reverse.findSome? fun r => field r.update

structure Says (hex : Text) (stay : List Report) (aircraft : Aircraft) : Prop where
  hex : aircraft.hex = hex
  messageCount : aircraft.messageCount = Int32.ofNat stay.length
  flight : aircraft.flight = newest SbsUpdate.flight stay
  category : aircraft.category = newest SbsUpdate.category stay
  altitudeFt : aircraft.altitudeFt = newest SbsUpdate.altitudeFt stay
  groundSpeedKt : aircraft.groundSpeedKt = newest SbsUpdate.groundSpeedKt stay
  trackDeg : aircraft.trackDeg = newest SbsUpdate.trackDeg stay
  verticalRateFpm : aircraft.verticalRateFpm = newest SbsUpdate.verticalRateFpm stay
  verticalRate : ∀ r ∈ stay.reverse.find? fun r => r.update.verticalRateFpm.isSome,
    aircraft.verticalRateReference = r.update.verticalRateReference ∧
      aircraft.lastVerticalRateTimeMs = r.ms
  position : ∀ lat lon, aircraft.lat = some lat → aircraft.lon = some lon →
    ∃ r ∈ stay, r.update.lat = some lat ∧ r.update.lon = some lon ∧
      r.ms = aircraft.lastPositionTimeMs

/-- The entry of an aircraft beside its stay. -/
def Mirrors (hex : Text) (stay : List Report) : Option Aircraft → Prop
  | none => stay = []
  | some aircraft =>
    Says hex stay aircraft ∧ stay.getLast?.map Report.ms = some aircraft.lastMessageTimeMs

section Stay

variable {geo : Geo} {hex : Text} {stay : List Report} {nowMs : ℤ} {update : SbsUpdate}
  {o : Option Aircraft} {store : BridgeAircraftStore}

theorem newest_concat {α : Type} (field : SbsUpdate → Option α) (stay : List Report) (r : Report) :
    newest field (stay ++ [r]) = (field r.update).or (newest field stay) := by
  rw [newest, List.reverse_concat, List.findSome?_cons]
  cases field r.update <;> rfl

theorem says_new (hex : Text) : Says hex [] { hex := hex } where
  hex := rfl
  messageCount := rfl
  flight := rfl
  category := rfl
  altitudeFt := rfl
  groundSpeedKt := rfl
  trackDeg := rfl
  verticalRateFpm := rfl
  verticalRate := by
    intro r hr
    cases hr
  position := by
    intro lat lon hlat
    cases hlat

theorem Mirrors.getD (h : Mirrors hex stay o) : Says hex stay (o.getD { hex := hex }) := by
  cases o with
  | none =>
    cases (h : stay = [])
    exact says_new hex
  | some aircraft => exact h.1

theorem Mirrors.isSome_iff (h : Mirrors hex stay o) : o.isSome = true ↔ stay ≠ [] := by
  cases o with
  | none => exact iff_of_false Bool.false_ne_true (not_not.2 h)
  | some aircraft =>
    refine iff_of_true rfl ?_
    rintro rfl
    cases h.2

/-- A look at the store ends the stay of an aircraft exactly if it drops its entry. -/
theorem Mirrors.prune (h : Mirrors hex stay o) (nowMs : ℤ) :
    Mirrors hex (expire nowMs stay) (o.filter (Aircraft.isRecent nowMs)) := by
  cases o with
  | none =>
    cases (h : stay = [])
    exact rfl
  | some aircraft =>
    obtain ⟨r, hlast, hms⟩ := Option.map_eq_some_iff.1 h.2
    have hrecent : aircraft.isRecent nowMs = !decide (aircraftTtlMs < nowMs - r.ms) := by
      rw [Aircraft.isRecent, minus_exactSub, hms, ← decide_not]
      exact decide_eq_decide.2 not_lt.symm
    rw [expire, hlast, Option.any_some, Option.filter_some, hrecent]
    by_cases hlong : aircraftTtlMs < nowMs - r.ms
    · rw [if_pos (decide_eq_true hlong), decide_eq_true hlong]
      exact rfl
    · rw [if_neg (by simpa using hlong), decide_eq_false hlong]
      exact h

theorem says_mergeFields {aircraft : Aircraft} (h : Says hex stay aircraft) (nowMs : ℤ) :
    Says hex (stay ++ [⟨update, nowMs⟩]) (aircraft.mergeFields update nowMs) := by
  have hcount : aircraft.messageCount + 1 =
      Int32.ofNat (stay ++ [Report.mk update nowMs]).length := by
    rw [h.messageCount, List.length_append, List.length_singleton, Int32.ofNat_add]
    rfl
  have hposition : ∀ lat lon, aircraft.lat = some lat → aircraft.lon = some lon →
      ∃ r ∈ stay ++ [Report.mk update nowMs], r.update.lat = some lat ∧ r.update.lon = some lon ∧
        r.ms = aircraft.lastPositionTimeMs := by
    intro lat lon hlat hlon
    obtain ⟨r, hr, hread⟩ := h.position lat lon hlat hlon
    exact ⟨r, List.mem_append_left _ hr, hread⟩
  have hnewest : ∀ {α : Type} {field : SbsUpdate → Option α} {value : Option α},
      value = newest field stay →
        (field update).or value = newest field (stay ++ [Report.mk update nowMs]) := by
    intro α field value hvalue
    rw [newest_concat, hvalue]
  have hrates := hnewest h.verticalRateFpm
  unfold Aircraft.mergeFields
  cases hrate : update.verticalRateFpm with
  | none =>
    refine ⟨h.hex, hcount, hnewest h.flight, hnewest h.category, hnewest h.altitudeFt,
      hnewest h.groundSpeedKt, hnewest h.trackDeg, ?_, ?_, hposition⟩
    · rw [hrate] at hrates
      exact hrates
    · intro r hr
      rw [List.reverse_concat, List.find?_cons_of_neg (by simp [hrate])] at hr
      exact h.verticalRate r hr
  | some rate =>
    refine ⟨h.hex, hcount, hnewest h.flight, hnewest h.category, hnewest h.altitudeFt,
      hnewest h.groundSpeedKt, hnewest h.trackDeg, ?_, ?_, hposition⟩
    · rw [hrate] at hrates
      exact hrates
    · intro r hr
      rw [List.reverse_concat, List.find?_cons_of_pos (by simp [hrate])] at hr
      cases hr
      exact ⟨rfl, rfl⟩

/-- What is accepted is the position of the line. -/
theorem eq_of_accepted {aircraft : Aircraft} {lat lon : JavaDouble}
    (h : positionVerdict geo update nowMs aircraft = .accepted lat lon) :
    update.lat = some lat ∧ update.lon = some lon := by
  unfold positionVerdict at h
  split at h
  · next lat' lon' hlat hlon =>
    split at h
    · split at h
      · cases h
        exact ⟨hlat, hlon⟩
      · cases h
    · cases h
  · cases h

/-- **A merge adds its report** to the stay of its aircraft. -/
theorem says_merged (h : Says update.hex stay (store.known update.hex)) :
    Says update.hex (stay ++ [⟨update, nowMs⟩]) (store.merged geo update nowMs) := by
  have hfields : Says update.hex (stay ++ [⟨update, nowMs⟩])
      ((store.known update.hex).mergeFields update nowMs) := says_mergeFields h nowMs
  simp only [BridgeAircraftStore.merged]
  generalize hverdict : positionVerdict geo update nowMs
    ((store.known update.hex).mergeFields update nowMs) = verdict
  cases verdict with
  | absent => exact hfields
  | rejected => exact hfields
  | accepted lat lon =>
    obtain ⟨hlat, hlon⟩ := eq_of_accepted hverdict
    refine { hfields with position := fun lat' lon' hlat' hlon' => ?_ }
    cases hlat'
    cases hlon'
    exact ⟨⟨update, nowMs⟩, List.mem_append_right _ (List.mem_singleton_self _), hlat, hlon, rfl⟩

/-- **Every call keeps an entry beside its stay.** -/
theorem Mirrors.call [UpperCase] (h : Mirrors hex stay (store.aircraftByHex.get? hex)) (c : Call) :
    Mirrors hex (stayStep hex stay c) ((store.call geo c).1.aircraftByHex.get? hex) := by
  cases c with
  | clear => exact rfl
  | recentAircraftCount nowMs =>
    have hpruned := h.prune nowMs
    rwa [← BridgeAircraftStore.get?_prune] at hpruned
  | toAircraftJson nowMs =>
    have hpruned := h.prune nowMs
    have hstore : (store.call geo (.toAircraftJson nowMs)).1 = store.prune nowMs :=
      BridgeAircraftStore.toAircraftJson_store store nowMs
    rwa [hstore, BridgeAircraftStore.get?_prune]
  | mergeSbsLine line nowMs =>
    show Mirrors hex (stayStep hex stay (.mergeSbsLine line nowMs))
      ((store.mergeSbsLine geo line nowMs).aircraftByHex.get? hex)
    rw [BridgeAircraftStore.mergeSbsLine, stayStep]
    cases hparse : SbsUpdate.parse line with
    | none => exact h
    | some update =>
      simp only
      rw [BridgeAircraftStore.get?_mergeUpdate]
      by_cases hhex : hex = update.hex
      · subst hhex
        rw [if_pos rfl, if_pos rfl]
        refine ⟨says_merged h.getD, ?_⟩
        rw [List.getLast?_concat, (BridgeAircraftStore.merged_spec geo store update nowMs).2.1]
        rfl
      · rw [if_neg hhex, if_neg hhex]
        exact h.prune nowMs

theorem mirrors_after [UpperCase] (geo : Geo) (calls : List Call) (hex : Text) :
    Mirrors hex (stayOf hex calls)
      ((BridgeAircraftStore.after geo {} calls).aircraftByHex.get? hex) := by
  induction calls using List.reverseRecOn with
  | nil => exact rfl
  | append_singleton calls c ih =>
    rw [BridgeAircraftStore.after_concat, stayOf, List.foldl_append]
    exact ih.call c

end Stay

/-! ## How long a stay lasts -/

/-- The stay of an aircraft among all its reports. -/
structure Spans [UpperCase] (hex : Text) (calls : List Call) : Prop where
  suffix : stayOf hex calls <:+ reports calls hex
  gone : stayOf hex calls = [] → ∀ r ∈ reports calls hex,
    ∃ t ∈ calls.filterMap Call.timeMs, aircraftTtlMs < t - r.ms

section Spans

variable [UpperCase] {hex : Text} {calls : List Call} {c : Call} {nowMs : ℤ}

theorem timeMs_of_report {r : Report} (h : c.report hex = some r) : c.timeMs = some r.ms := by
  cases c with
  | mergeSbsLine line ms =>
    obtain ⟨update, -, rfl⟩ := Option.map_eq_some_iff.1 h
    rfl
  | clear => cases h
  | recentAircraftCount ms => cases h
  | toAircraftJson ms => cases h

/-- Reports come in the order of time. -/
theorem reports_inOrder (h : Call.InOrder calls) (hex : Text) :
    (reports calls hex).Pairwise fun r r' => r.ms ≤ r'.ms := by
  have hsub : (sinceClear calls).Sublist calls := by
    have := (List.takeWhile_sublist (p := fun c : Call => decide (c ≠ .clear))
      (l := calls.reverse)).reverse
    rwa [List.reverse_reverse] at this
  refine List.pairwise_filterMap.2 ((List.pairwise_filterMap.1 h).sublist hsub |>.imp ?_)
  intro c c' hle r hr r' hr'
  exact hle r.ms (timeMs_of_report hr) r'.ms (timeMs_of_report hr')

theorem le_last {stay : List Report} {last : Report}
    (horder : (reports calls hex).Pairwise fun r r' => r.ms ≤ r'.ms)
    (hsuffix : stay <:+ reports calls hex) (hlast : stay.getLast? = some last) :
    ∀ r ∈ reports calls hex, r.ms ≤ last.ms := by
  obtain ⟨before, hreports⟩ := hsuffix
  obtain ⟨init, rfl⟩ := List.getLast?_eq_some_iff.1 hlast
  rw [← hreports, ← List.append_assoc, List.pairwise_append] at horder
  intro r hr
  rw [← hreports, ← List.append_assoc] at hr
  rcases List.mem_append.1 hr with hr | hr
  · exact horder.2.2 r hr last (List.mem_singleton_self _)
  · rw [List.mem_singleton.1 hr]

/-- A call that reports nothing of the aircraft, and may look at the store. -/
theorem Spans.look (h : Spans hex calls) (hc : c ≠ .clear) (hsilent : c.report hex = none)
    (horder : Call.InOrder calls) (ht : c.timeMs = some nowMs)
    (hstep : stayStep hex (stayOf hex calls) c = expire nowMs (stayOf hex calls)) :
    Spans hex (calls ++ [c]) := by
  have hstay : stayOf hex (calls ++ [c]) = expire nowMs (stayOf hex calls) := by
    rw [stayOf, List.foldl_append]
    exact hstep
  have htimes : (calls ++ [c]).filterMap Call.timeMs = calls.filterMap Call.timeMs ++ [nowMs] := by
    rw [List.filterMap_append, List.filterMap_cons_some ht, List.filterMap_nil]
  have hreports : reports (calls ++ [c]) hex = reports calls hex := reports_silent hc hsilent
  constructor
  · rw [hstay, hreports, expire]
    split
    · exact List.nil_suffix
    · exact h.suffix
  · rw [hstay, hreports, htimes, expire]
    intro hempty r hr
    split at hempty
    · next hlong =>
      obtain ⟨last, hlast, hlong⟩ := (Option.any_eq_true _ _).1 hlong
      have hle := le_last (reports_inOrder horder hex) h.suffix hlast r hr
      have hlong := of_decide_eq_true hlong
      exact ⟨nowMs, List.mem_append_right _ (List.mem_singleton_self _), by omega⟩
    · obtain ⟨t, ht, hlong⟩ := h.gone hempty r hr
      exact ⟨t, List.mem_append_left _ ht, hlong⟩

theorem Spans.keep (h : Spans hex calls) (hreports : reports (calls ++ [c]) hex = reports calls hex)
    (hstep : stayStep hex (stayOf hex calls) c = stayOf hex calls) : Spans hex (calls ++ [c]) := by
  have hstay : stayOf hex (calls ++ [c]) = stayOf hex calls := by
    rw [stayOf, List.foldl_append]
    exact hstep
  constructor
  · rw [hstay, hreports]
    exact h.suffix
  · rw [hstay, hreports]
    intro hempty r hr
    obtain ⟨t, ht, hlong⟩ := h.gone hempty r hr
    rw [List.filterMap_append]
    exact ⟨t, List.mem_append_left _ ht, hlong⟩

theorem Spans.merge {line : Text} {update : SbsUpdate} (h : Spans update.hex calls)
    (hparse : SbsUpdate.parse line = some update) :
    Spans update.hex (calls ++ [.mergeSbsLine line nowMs]) := by
  have hstay : stayOf update.hex (calls ++ [.mergeSbsLine line nowMs]) =
      stayOf update.hex calls ++ [⟨update, nowMs⟩] := by
    rw [stayOf, List.foldl_append, List.foldl_cons, List.foldl_nil, stayStep, hparse]
    exact if_pos rfl
  have hreports : reports (calls ++ [.mergeSbsLine line nowMs]) update.hex =
      reports calls update.hex ++ [⟨update, nowMs⟩] := by
    rw [reports_concat (by simp), report_merge hparse]
    rfl
  constructor
  · rw [hstay, hreports]
    obtain ⟨before, hbefore⟩ := h.suffix
    exact ⟨before, by rw [← List.append_assoc, hbefore]⟩
  · rw [hstay]
    intro hempty
    exact absurd hempty (by simp)

theorem spans_of_inOrder (calls : List Call) (h : Call.InOrder calls) (hex : Text) :
    Spans hex calls := by
  induction calls using List.reverseRecOn with
  | nil => exact ⟨List.nil_suffix, fun _ r hr => absurd hr List.not_mem_nil⟩
  | append_singleton calls c ih =>
    have horder := (Call.inOrder_concat h).1
    have hspans := ih horder
    cases c with
    | clear =>
      have hstay : stayOf hex (calls ++ [.clear]) = [] := by
        rw [stayOf, List.foldl_append]
        rfl
      constructor
      · rw [hstay]
        exact List.nil_suffix
      · rw [reports_clear]
        exact fun _ r hr => absurd hr List.not_mem_nil
    | recentAircraftCount nowMs => exact hspans.look (by simp) rfl horder rfl rfl
    | toAircraftJson nowMs => exact hspans.look (by simp) rfl horder rfl rfl
    | mergeSbsLine line nowMs =>
      cases hparse : SbsUpdate.parse line with
      | none =>
        refine hspans.keep (reports_silent (by simp) (report_rejected hparse)) ?_
        rw [stayStep, hparse]
      | some update =>
        by_cases hhex : hex = update.hex
        · subst hhex
          exact hspans.merge hparse
        · refine hspans.look (by simp) (report_other hparse hhex) horder rfl ?_
          rw [stayStep, hparse]
          exact if_neg hhex

/-- At a look at the store an aircraft has a stay exactly if it reported something
in the last minute. -/
theorem expire_ne_nil_iff (h : Call.InOrder calls)
    (hnow : ∀ t ∈ calls.filterMap Call.timeMs, t ≤ nowMs) :
    expire nowMs (stayOf hex calls) ≠ [] ↔ hex ∈ heardRecently calls nowMs := by
  have hspans := spans_of_inOrder calls h hex
  rw [mem_heardRecently, expire]
  constructor
  · intro hne
    split at hne
    · exact absurd rfl hne
    · next hrecent =>
      have hlast := List.getLast?_eq_some_getLast hne
      rw [hlast, Option.any_some, decide_eq_true_iff] at hrecent
      exact ⟨_, hspans.suffix.subset (List.getLast_mem hne), not_lt.1 hrecent⟩
  · rintro ⟨r, hr, hms⟩
    have hne : stayOf hex calls ≠ [] := by
      intro hempty
      obtain ⟨t, ht, hlong⟩ := hspans.gone hempty r hr
      have := hnow t ht
      omega
    have hlast := List.getLast?_eq_some_getLast hne
    have hle := le_last (reports_inOrder h hex) hspans.suffix hlast r hr
    rw [hlast, Option.any_some, if_neg]
    · exact hne
    · rw [decide_eq_true_iff]
      omega

end Spans

/-! ## The feed -/

section Feed

variable {geo : Geo} {calls : List Call} {nowMs : ℤ}

/-- **What the feed says of an aircraft** is what the lines of its stay said last:
each field is the newest one that any of them gave. -/
theorem toAircraftJson_says [UpperCase] (geo : Geo) (calls : List Call) (nowMs : ℤ) :
    ∃ root, ((BridgeAircraftStore.after geo {} calls).toAircraftJson nowMs).2 = .feed root ∧
      ∀ item ∈ root.aircraft, ∃ hex aircraft, item = itemPuts nowMs aircraft ∧
        Says hex (stayOf hex (calls ++ [.toAircraftJson nowMs])) aircraft ∧
        (stayOf hex (calls ++ [.toAircraftJson nowMs])).getLast?.map Report.ms =
          some aircraft.lastMessageTimeMs := by
  have hs : (BridgeAircraftStore.after geo {} calls).Sound :=
    BridgeAircraftStore.sound_default.after calls
  have hjson := hs.toAircraftJson nowMs
  refine ⟨_, congrArg Prod.snd hjson, fun item hitem => ?_⟩
  obtain ⟨aircraft, haircraft, rfl⟩ := List.mem_map.1 hitem
  obtain ⟨⟨hex, aircraft⟩, hentry, rfl⟩ := List.mem_map.1 haircraft
  have hmirror := mirrors_after geo (calls ++ [.toAircraftJson nowMs]) hex
  have hstore : ((BridgeAircraftStore.after geo {} calls).call geo (.toAircraftJson nowMs)).1 =
      (BridgeAircraftStore.after geo {} calls).prune nowMs :=
    BridgeAircraftStore.toAircraftJson_store _ nowMs
  rw [BridgeAircraftStore.after_concat, hstore, LinkedMap.mem_entries_iff.1 hentry] at hmirror
  exact ⟨hex, aircraft, rfl, hmirror⟩

/-- **The feed lists whoever reported something in the last minute**, each once, and
nobody else, whatever was asked of the store in between. -/
theorem toAircraftJson_lists [UpperCase] (geo : Geo) (calls : List Call) (nowMs : ℤ)
    (h : Call.InOrder (calls ++ [.toAircraftJson nowMs])) :
    ∃ root, ((BridgeAircraftStore.after geo {} calls).toAircraftJson nowMs).2 = .feed root ∧
      root.total = (heardRecently calls nowMs).length ∧
      ((BridgeAircraftStore.after geo {} calls).recentAircraftCount nowMs).2 =
        (heardRecently calls nowMs).length ∧
      ∀ hex, (root.aircraft.countP fun item => item.lookup "hex" = some (.text hex)) =
        if hex ∈ heardRecently calls nowMs then 1 else 0 := by
  obtain ⟨horder, hnow⟩ := Call.inOrder_concat h
  have hs : (BridgeAircraftStore.after geo {} calls).Sound :=
    BridgeAircraftStore.sound_default.after calls
  have hheld : ∀ hex, (((BridgeAircraftStore.after geo {} calls).prune nowMs).aircraftByHex.get? hex).isSome =
      true ↔ hex ∈ heardRecently calls nowMs := by
    intro hex
    have hmirror := (mirrors_after geo calls hex).prune nowMs
    rw [← BridgeAircraftStore.get?_prune] at hmirror
    rw [← expire_ne_nil_iff horder (hnow nowMs rfl)]
    exact hmirror.isSome_iff
  obtain ⟨root, hroot, htotal, hcount⟩ := hs.listsEachOnce nowMs
  have hsize : (((BridgeAircraftStore.after geo {} calls).recentAircraftCount nowMs).2) =
      (heardRecently calls nowMs).length := by
    show ((BridgeAircraftStore.after geo {} calls).prune nowMs).aircraftByHex.entries.length = _
    rw [← List.length_map Prod.fst]
    refine ((List.perm_ext_iff_of_nodup (LinkedMap.nodup _) (List.nodup_dedup _)).2 fun hex => ?_).length_eq
    have hlisted := hheld hex
    rw [Option.isSome_iff_ne_none, ne_eq, LinkedMap.get?_eq_none_iff, not_not] at hlisted
    exact hlisted
  refine ⟨root, hroot, htotal.trans hsize, hsize, fun hex => ?_⟩
  rw [hcount hex, BridgeAircraftStore.toAircraftJson_store]
  exact if_congr (hheld hex) rfl rfl

/-- One aircraft that falls silent, and one that does not. -/
def oneSilent : List Call :=
  [.mergeSbsLine "MSG,1,1,1,4840D6,1,,,,,KLM1023,,,,,,,0,0,0,0,0".toList 1000,
    .mergeSbsLine "MSG,1,1,1,3C6444,1,,,,,DLH4MK,,,,,,,0,0,0,0,0".toList 2000,
    .recentAircraftCount 2500,
    .mergeSbsLine "MSG,1,1,1,3C6444,1,,,,,DLH4MK,,,,,,,0,0,0,0,0".toList 50000]

example :
    ∃ root, ((BridgeAircraftStore.after noGeo {} oneSilent).toAircraftJson 62000).2 = .feed root ∧
      root.total = 1 ∧
      (root.aircraft.countP fun item => item.lookup "hex" = some (.text "3C6444".toList)) = 1 := by
  have hrecent : heardRecently oneSilent 62000 = ["3C6444".toList] := by decide
  have htimes : (oneSilent ++ [Call.toAircraftJson 62000]).filterMap Call.timeMs =
      [1000, 2000, 2500, 50000, 62000] := rfl
  obtain ⟨root, hroot, htotal, -, hcount⟩ :=
    toAircraftJson_lists noGeo oneSilent 62000 (by rw [Call.InOrder, htimes]; decide)
  refine ⟨root, hroot, ?_, ?_⟩
  · rw [htotal, hrecent]
    rfl
  · rw [hcount, hrecent]
    exact if_pos (List.mem_singleton_self _)

end Feed

end AdsbBridge.Store
