import AdsbBridge.Lib.Lines
import AdsbBridge.Native.Emitted
import AdsbBridge.Service.Client
import AdsbBridge.Service.Http

/-! # Broadcasting to all clients

`broadcastLine` of `BridgeService` on any number of threads, beside the accept
loop that adds clients, the threads that remove and close them, and the writer of
each client. One event is one access to shared data. Whatever their order, a client
gets an unbroken part of what each thread broadcasts. -/
namespace AdsbBridge.Service
open AdsbBridge.Lib

/-! ## Lines on a socket -/

/-- `OutputStreamWriter` with `US_ASCII`: what is not in it becomes a question mark. -/
def encodeAscii (t : Text) : List UInt8 :=
  t.map fun c => if c.toNat < 128 then UInt8.ofNat c.toNat else 63

/-- `line + "\n"`. -/
def payload (line : Text) : Text := line ++ ['\n']

/-- The bytes that lines become on the socket of a client. -/
def sentBytes (lines : List Text) : List UInt8 := lines.flatMap fun line => encodeAscii (payload line)

theorem sentBytes_eq (lines : List Text) :
    sentBytes lines = Lines.framed Http.lf (lines.map encodeAscii) := by
  rw [sentBytes, Lines.framed, List.flatMap_map]
  refine List.flatMap_congr fun line _ => ?_
  rw [payload, encodeAscii, List.map_append]
  rfl

/-- A line of the library comes out of its bytes as it went in, in one piece. -/
theorem usAscii_encodeAscii {t : Text} (h : Text.Over Native.isPrintable t) :
    Http.usAscii (encodeAscii t) = t ∧ Http.lf ∉ encodeAscii t := by
  have hbyte : ∀ c ∈ t, (if c.toNat < 128 then UInt8.ofNat c.toNat else 63).toNat = c.toNat ∧
      32 ≤ c.toNat ∧ c.toNat ≤ 126 := by
    intro c hc
    have hprintable := h c hc
    simp only [Native.isPrintable, Bool.and_eq_true, decide_eq_true_iff] at hprintable
    rw [if_pos (by omega), UInt8.toNat_ofNat']
    exact ⟨Nat.mod_eq_of_lt (by omega), hprintable⟩
  constructor
  · rw [Http.usAscii, encodeAscii, List.map_map]
    refine (List.map_congr_left fun c hc => ?_).trans (List.map_id t)
    obtain ⟨hc, -, hhigh⟩ := hbyte c hc
    have hlt : (if c.toNat < 128 then UInt8.ofNat c.toNat else 63) < (128 : UInt8) :=
      UInt8.lt_iff_toNat_lt.2 (by rw [hc]; exact Nat.lt_of_le_of_lt hhigh (by decide))
    simp only [Function.comp_apply, if_pos hlt, hc, Char.ofNat_toNat]
    rfl
  · intro hlf
    obtain ⟨c, hc, hbad⟩ := List.mem_map.1 hlf
    obtain ⟨hsame, hlow, -⟩ := hbyte c hc
    rw [hbad] at hsame
    have hten : Http.lf.toNat = 10 := rfl
    omega

/-! ## Threads and clients -/

/-- Where `broadcastLine` is on a thread; `rest` is what is left of the iterator's
snapshot. -/
inductive BroadcastPhase (ℓ : Type)
  | idle
  | next (line : ℓ) (rest : List ℕ)
  /-- `open` was true -/
  | offer (line : ℓ) (i : ℕ) (rest : List ℕ)
  /-- `enqueue` has returned false -/
  | remove (line : ℓ) (i : ℕ) (rest : List ℕ)
  | close (line : ℓ) (i : ℕ) (rest : List ℕ)

/-- The clients of the service and the threads that broadcast. A client is named by
the number of those added before it; each queued line bears the thread it is from. -/
structure Broadcast (ℓ : Type) where
  clients : List ℕ := []
  connections : ℕ → Client (ℕ × ℓ) := fun _ => {}
  nextClient : ℕ := 0
  threads : ℕ → BroadcastPhase ℓ := fun _ => .idle
  /-- the lines that each thread has begun to broadcast -/
  begun : ℕ → List ℓ := fun _ => []
  /-- how many of them each thread had begun when a client was added -/
  addedAt : ℕ → ℕ → ℕ := fun _ _ => 0

inductive BroadcastEvent (ℓ : Type)
  /-- `clients.add(connection)` in the accept loop -/
  | add
  /-- `onClosed` at the end of a `writeLoop` -/
  | drop (i : ℕ)
  /-- `clients.clear()` in `stopBridge` -/
  | clear
  | close (i : ℕ)
  | closeStep (i : ℕ)
  | writer (i : ℕ) (ok : Bool)
  /-- `broadcastLine` up to the snapshot of its iterator -/
  | begin (b : ℕ) (line : ℓ)
  | thread (b : ℕ)

namespace Broadcast

variable {ℓ : Type}

/-- A step of one connection. -/
def act (s : Broadcast ℓ) (i : ℕ) (e : ClientEvent (ℕ × ℓ)) : Option (Broadcast ℓ) :=
  ((s.connections i).step e).map fun c =>
    { s with connections := Function.update s.connections i c }

def setThread (s : Broadcast ℓ) (b : ℕ) (phase : BroadcastPhase ℓ) : Broadcast ℓ :=
  { s with threads := Function.update s.threads b phase }

def threadStep (s : Broadcast ℓ) (b : ℕ) : Option (Broadcast ℓ) :=
  match s.threads b with
  | .idle => none
  | .next _ [] => some (s.setThread b .idle)
  | .next line (i :: rest) =>
    (s.act i (.enqueue b (b, line))).map fun s' =>
      s'.setThread b (if (s.connections i).isOpen then .offer line i rest else .remove line i rest)
  | .offer line i rest =>
    (s.act i (.offer b)).map fun s' =>
      s'.setThread b (if (s.connections i).pendingLines.length < maxPendingSbsLines
        then .next line rest else .remove line i rest)
  | .remove line i rest =>
    some ({ s with clients := s.clients.erase i }.setThread b (.close line i rest))
  | .close line i rest => (s.act i .close).map fun s' => s'.setThread b (.next line rest)

def step (s : Broadcast ℓ) : BroadcastEvent ℓ → Option (Broadcast ℓ)
  | .add =>
    some { s with
      clients := s.clients ++ [s.nextClient]
      nextClient := s.nextClient + 1
      addedAt := Function.update s.addedAt s.nextClient fun b => (s.begun b).length }
  | .drop i => some { s with clients := s.clients.erase i }
  | .clear => some { s with clients := [] }
  | .close i => if i < s.nextClient then s.act i .close else none
  | .closeStep i => if i < s.nextClient then s.act i .closeStep else none
  | .writer i ok => if i < s.nextClient then s.act i (.writer ok) else none
  | .begin b line =>
    match s.threads b with
    | .idle =>
      some ({ s with begun := Function.update s.begun b (s.begun b ++ [line]) }.setThread b
        (.next line s.clients))
    | _ => none
  | .thread b => s.threadStep b

/-- The lines of a thread that a client's queue has accepted. -/
def acceptedFrom (s : Broadcast ℓ) (i b : ℕ) : List ℓ :=
  ((s.connections i).accepted.filter fun p => p.1 = b).map Prod.snd

/-- What a thread has begun to broadcast since a client was added. -/
def due (s : Broadcast ℓ) (i b : ℕ) : List ℓ := (s.begun b).drop (s.addedAt i b)

end Broadcast

/-! ## What a thread still does -/

namespace BroadcastPhase

variable {ℓ : Type}

/-- The line that is still to be offered to a client. -/
def awaited (i : ℕ) : BroadcastPhase ℓ → List ℓ
  | idle => []
  | next line rest | remove line _ rest | close line _ rest => if i ∈ rest then [line] else []
  | offer line j rest => if i = j ∨ i ∈ rest then [line] else []

/-- The line of the client's `enqueue` that has found `open` true. -/
def calling (i : ℕ) : BroadcastPhase ℓ → Option ℓ
  | offer line j _ => if i = j then some line else none
  | _ => none

/-- The thread is about to remove the client. -/
def removes (i : ℕ) : BroadcastPhase ℓ → Prop
  | remove _ j _ => i = j
  | _ => False

/-- The clients it still deals with. -/
def snapshot : BroadcastPhase ℓ → List ℕ
  | idle => []
  | next _ rest => rest
  | offer _ i rest | remove _ i rest | close _ i rest => i :: rest

end BroadcastPhase

namespace Broadcast

variable {ℓ : Type} {s s' : Broadcast ℓ} {i b : ℕ}

/-! ## What holds between steps -/

/-- The clients, those of the snapshots among them, are different ones, and what is
not added yet is new. -/
structure Wellformed (s : Broadcast ℓ) : Prop where
  nodup : s.clients.Nodup
  known : ∀ i ∈ s.clients, i < s.nextClient
  snapshots : ∀ b, (s.threads b).snapshot.Nodup ∧ ∀ i ∈ (s.threads b).snapshot, i < s.nextClient
  new : ∀ i, s.nextClient ≤ i → s.connections i = {}

/-- A client beside a thread: it has been offered all of the thread's lines since it was
added, or the thread will not offer it any more. -/
structure Served (s : Broadcast ℓ) (i b : ℕ) : Prop where
  added : s.addedAt i b ≤ (s.begun b).length
  caller : (s.connections i).callers b = ((s.threads b).calling i).map fun line => (b, line)
  served : s.acceptedFrom i b ++ (s.threads b).awaited i = s.due i b ∨
    s.acceptedFrom i b <+: s.due i b ∧ (s.threads b).awaited i = [] ∧
      (i ∉ s.clients ∨ (s.threads b).removes i)

/-- A step that changes nothing between the two. -/
theorem Served.frame (h : s.Served i b) (hadded : s'.addedAt i b = s.addedAt i b)
    (hbegun : s'.begun b = s.begun b)
    (haccepted : s'.acceptedFrom i b = s.acceptedFrom i b)
    (hcaller : (s'.connections i).callers b = (s.connections i).callers b)
    (hcalling : (s'.threads b).calling i = (s.threads b).calling i)
    (hawaited : (s'.threads b).awaited i = (s.threads b).awaited i)
    (hleft : i ∉ s.clients ∨ (s.threads b).removes i → i ∉ s'.clients ∨ (s'.threads b).removes i) :
    s'.Served i b := by
  refine ⟨by rw [hadded, hbegun]; exact h.added, by rw [hcaller, hcalling]; exact h.caller, ?_⟩
  rw [haccepted, hawaited, due, hadded, hbegun]
  rcases h.served with hall | ⟨hpart, hnone, hout⟩
  · exact .inl hall
  · exact .inr ⟨hpart, hnone, hleft hout⟩

/-- What the steps of a connection have in common that are not those of a caller. -/
theorem quiet_step {c c' : Client (ℕ × ℓ)} {e : ClientEvent (ℕ × ℓ)}
    (he : e = .close ∨ e = .closeStep ∨ ∃ ok, e = .writer ok) (h : c.step e = some c') :
    c'.accepted = c.accepted ∧ c'.callers = c.callers := by
  rcases he with rfl | rfl | ⟨ok, rfl⟩
  · simp only [Client.step, Option.some.injEq] at h
    subst h
    split <;> exact ⟨rfl, rfl⟩
  · simp only [Client.step, Client.closeStep] at h
    split at h <;> cases h <;> exact ⟨rfl, rfl⟩
  · simp only [Client.step, Client.writerStep] at h
    split at h
    · cases h; exact ⟨rfl, rfl⟩
    · cases h; exact ⟨rfl, rfl⟩
    · split at h
      · cases h; exact ⟨rfl, rfl⟩
      · split at h <;> cases h <;> exact ⟨rfl, rfl⟩
    · split at h <;> cases h <;> exact ⟨rfl, rfl⟩
    · cases h

/-- The invariant of all clients and threads. -/
structure Fair (s : Broadcast ℓ) : Prop extends Wellformed s where
  pairs : ∀ i b, i < s.nextClient → s.Served i b

theorem fair_new : Fair ({} : Broadcast ℓ) where
  nodup := List.nodup_nil
  known := by
    intro i hi
    cases hi
  snapshots := by
    intro b
    exact ⟨List.nodup_nil, by intro i hi; cases hi⟩
  new := fun _ _ => rfl
  pairs := by
    intro i b hi
    cases hi

/-- A connection closes or writes. -/
theorem Fair.quiet (h : s.Fair) {e : ClientEvent (ℕ × ℓ)} (hi : i < s.nextClient)
    (he : e = .close ∨ e = .closeStep ∨ ∃ ok, e = .writer ok) (hstep : s.act i e = some s') :
    s'.Fair := by
  obtain ⟨c, hc, rfl⟩ := Option.map_eq_some_iff.1 hstep
  obtain ⟨haccepted, hcallers⟩ := quiet_step he hc
  refine ⟨⟨h.nodup, h.known, h.snapshots, fun j hj => ?_⟩, fun j b hj => ?_⟩
  · have hne : j ≠ i := by
      rintro rfl
      exact absurd hi (not_lt.2 hj)
    exact (Function.update_of_ne hne _ _).trans (h.new j hj)
  · by_cases hji : j = i
    · subst hji
      refine (h.pairs j b hj).frame rfl rfl ?_ ?_ rfl rfl id
      · simp only [acceptedFrom, Function.update_self, haccepted]
      · simp only [Function.update_self, hcallers]
    · refine (h.pairs j b hj).frame rfl rfl ?_ ?_ rfl rfl id
      · simp only [acceptedFrom, Function.update_of_ne hji]
      · simp only [Function.update_of_ne hji]

/-- Some clients leave the list. -/
theorem Fair.shrink (h : s.Fair) {clients : List ℕ} (hsub : clients.Sublist s.clients) :
    Fair { s with clients := clients } where
  nodup := h.nodup.sublist hsub
  known := fun i hi => h.known i (hsub.subset hi)
  snapshots := h.snapshots
  new := h.new
  pairs := fun i b hi => (h.pairs i b hi).frame rfl rfl rfl rfl rfl rfl fun hout =>
    hout.imp (mt fun hi => hsub.subset hi) id

theorem awaited_eq_nil {phase : BroadcastPhase ℓ} (h : i ∉ phase.snapshot) :
    phase.awaited i = [] ∧ phase.calling i = none := by
  cases phase with
  | idle => exact ⟨rfl, rfl⟩
  | next line rest => exact ⟨if_neg h, rfl⟩
  | offer line j rest =>
    have hnot := mt List.mem_cons.2 h
    exact ⟨if_neg hnot, if_neg (not_or.1 hnot).1⟩
  | remove line j rest => exact ⟨if_neg (mt (List.mem_cons_of_mem j) h), rfl⟩
  | close line j rest => exact ⟨if_neg (mt (List.mem_cons_of_mem j) h), rfl⟩

/-- The accept loop adds a client. -/
theorem Fair.add (h : s.Fair) (hstep : s.step .add = some s') : s'.Fair := by
  cases hstep
  have hfresh : s.nextClient ∉ s.clients := fun hi => absurd (h.known _ hi) (lt_irrefl _)
  refine ⟨⟨?_, ?_, ?_, ?_⟩, ?_⟩
  · exact List.nodup_append.2 ⟨h.nodup, List.nodup_singleton _, by
      intro a ha b hb hab
      exact hfresh (by rw [← List.mem_singleton.1 hb, ← hab]; exact ha)⟩
  · intro i hi
    rcases List.mem_append.1 hi with hi | hi
    · exact Nat.lt_succ_of_lt (h.known i hi)
    · rw [List.mem_singleton.1 hi]
      exact Nat.lt_succ_self _
  · intro b
    exact ⟨(h.snapshots b).1, fun i hi => Nat.lt_succ_of_lt ((h.snapshots b).2 i hi)⟩
  · intro i hi
    exact h.new i (Nat.le_of_succ_le hi)
  · intro i b hi
    rcases Nat.lt_succ_iff_lt_or_eq.1 hi with hi | rfl
    · have hne : i ≠ s.nextClient := ne_of_lt hi
      refine (h.pairs i b hi).frame ?_ rfl rfl rfl rfl rfl ?_
      · exact congrFun (Function.update_of_ne hne _ _) b
      · refine Or.imp_left (mt fun hmem => ?_)
        rcases List.mem_append.1 hmem with hmem | hmem
        · exact hmem
        · exact absurd (List.mem_singleton.1 hmem) hne
    · have hsnapshot : s.nextClient ∉ (s.threads b).snapshot :=
        fun hmem => absurd ((h.snapshots b).2 _ hmem) (lt_irrefl _)
      obtain ⟨hawaited, hcalling⟩ := awaited_eq_nil hsnapshot
      have hnew := h.new s.nextClient (le_refl _)
      refine ⟨?_, ?_, .inl ?_⟩
      · simp
      · simp only [hnew, hcalling]
        rfl
      · simp [acceptedFrom, hnew, hawaited, due]

/-- A thread begins to broadcast a line. -/
theorem Fair.begin (h : s.Fair) {line : ℓ} (hstep : s.step (.begin b line) = some s') :
    s'.Fair := by
  simp only [Broadcast.step] at hstep
  split at hstep
  · next hidle =>
    cases hstep
    refine ⟨⟨h.nodup, h.known, ?_, h.new⟩, ?_⟩
    · intro b'
      by_cases hb : b' = b
      · subst hb
        simp only [setThread, Function.update_self]
        exact ⟨h.nodup, h.known⟩
      · simp only [setThread, Function.update_of_ne hb]
        exact h.snapshots b'
    · intro i b' hi
      have hold := h.pairs i b' hi
      by_cases hb : b' = b
      · subst hb
        have hserved := hold.served
        rw [hidle] at hserved
        have hdue : (s.begun b' ++ [line]).drop (s.addedAt i b') = s.due i b' ++ [line] := by
          rw [List.drop_append_of_le_length hold.added, due]
        have hcaller := hold.caller
        rw [hidle] at hcaller
        refine ⟨?_, ?_, ?_⟩
        · simp only [setThread, Function.update_self, List.length_append]
          exact Nat.le_add_right_of_le hold.added
        · simp only [setThread, Function.update_self]
          exact hcaller
        · have hnext : s.acceptedFrom i b' ++ (if i ∈ s.clients then [line] else []) =
                s.due i b' ++ [line] ∨
              s.acceptedFrom i b' <+: s.due i b' ++ [line] ∧
                (if i ∈ s.clients then [line] else []) = [] ∧ (i ∉ s.clients ∨ False) := by
            rcases hserved with hall | ⟨hpart, -, hout⟩
            · rw [BroadcastPhase.awaited, List.append_nil] at hall
              rw [hall]
              by_cases hmem : i ∈ s.clients
              · exact .inl (by rw [if_pos hmem])
              · exact .inr ⟨List.prefix_append _ _, if_neg hmem, .inl hmem⟩
            · have hmem := hout.resolve_right id
              exact .inr ⟨hpart.trans (List.prefix_append _ _), if_neg hmem, .inl hmem⟩
          rw [← hdue] at hnext
          simp only [setThread, due, Function.update_self]
          exact hnext
      · exact hold.frame rfl (Function.update_of_ne hb _ _) rfl rfl
          (by simp only [setThread, Function.update_of_ne hb])
          (by simp only [setThread, Function.update_of_ne hb])
          (by simp only [setThread, Function.update_of_ne hb]; exact id)
  · cases hstep

/-- What a step of a thread with one client leaves behind. -/
def advance (s : Broadcast ℓ) (b : ℕ) (phase : BroadcastPhase ℓ) (clients : List ℕ) (j : ℕ)
    (c : Client (ℕ × ℓ)) : Broadcast ℓ :=
  { s with
    clients := clients
    connections := Function.update s.connections j c
    threads := Function.update s.threads b phase }

/-- Such a step is between the thread and the client alone. -/
theorem Fair.advance (h : s.Fair) {phase : BroadcastPhase ℓ} {clients : List ℕ} {j : ℕ}
    {c : Client (ℕ × ℓ)} (hj : j < s.nextClient) (hclients : clients.Sublist s.clients)
    (hsnapshot : phase.snapshot.Sublist (s.threads b).snapshot)
    (hthreads : ∀ b', b' ≠ b → c.callers b' = (s.connections j).callers b' ∧
      c.accepted.filter (fun p => p.1 = b') = (s.connections j).accepted.filter fun p => p.1 = b')
    (hclient : ∀ i, i ≠ j → phase.awaited i = (s.threads b).awaited i ∧
      phase.calling i = (s.threads b).calling i ∧ ¬ (s.threads b).removes i)
    (hown : (s.advance b phase clients j c).Served j b) :
    (s.advance b phase clients j c).Fair := by
  refine ⟨⟨h.nodup.sublist hclients, fun i hi => h.known i (hclients.subset hi), ?_, ?_⟩, ?_⟩
  · intro b'
    by_cases hb : b' = b
    · subst hb
      simp only [Broadcast.advance, Function.update_self]
      exact ⟨(h.snapshots b').1.sublist hsnapshot, fun i hi =>
        (h.snapshots b').2 i (hsnapshot.subset hi)⟩
    · simp only [Broadcast.advance, Function.update_of_ne hb]
      exact h.snapshots b'
  · intro i hi
    have hne : i ≠ j := by
      rintro rfl
      exact absurd hj (not_lt.2 hi)
    exact (Function.update_of_ne hne _ _).trans (h.new i hi)
  · intro i b' hi
    have hout : i ∉ s.clients → i ∉ clients := mt fun hmem => hclients.subset hmem
    by_cases hb : b' = b
    · subst hb
      by_cases hij : i = j
      · subst hij
        exact hown
      · obtain ⟨hawaited, hcalling, hremoves⟩ := hclient i hij
        refine (h.pairs i b' hi).frame rfl rfl ?_ ?_ ?_ ?_ ?_
        · simp only [acceptedFrom, Broadcast.advance, Function.update_of_ne hij]
        · simp only [Broadcast.advance, Function.update_of_ne hij]
        · simp only [Broadcast.advance, Function.update_self, hcalling]
        · simp only [Broadcast.advance, Function.update_self, hawaited]
        · exact fun hleft => .inl (hout (hleft.resolve_right hremoves))
    · refine (h.pairs i b' hi).frame rfl rfl ?_ ?_ ?_ ?_ ?_
      · by_cases hij : i = j
        · subst hij
          simp only [acceptedFrom, Broadcast.advance, Function.update_self, (hthreads b' hb).2]
        · simp only [acceptedFrom, Broadcast.advance, Function.update_of_ne hij]
      · by_cases hij : i = j
        · subst hij
          simp only [Broadcast.advance, Function.update_self, (hthreads b' hb).1]
        · simp only [Broadcast.advance, Function.update_of_ne hij]
      · simp only [Broadcast.advance, Function.update_of_ne hb]
      · simp only [Broadcast.advance, Function.update_of_ne hb]
      · simp only [Broadcast.advance, Function.update_of_ne hb]
        exact Or.imp_left hout

/-- The client that a thread deals with and that thread. -/
theorem served_advance {phase : BroadcastPhase ℓ} {clients : List ℕ} {j : ℕ} {c : Client (ℕ × ℓ)}
    (h : s.Served j b) (hcaller : c.callers b = (phase.calling j).map fun line => (b, line))
    (hserved : (c.accepted.filter fun p => p.1 = b).map Prod.snd ++ phase.awaited j = s.due j b ∨
      (c.accepted.filter fun p => p.1 = b).map Prod.snd <+: s.due j b ∧ phase.awaited j = [] ∧
        (j ∉ clients ∨ phase.removes j)) : (s.advance b phase clients j c).Served j b := by
  refine ⟨h.added, ?_, ?_⟩
  · simp only [advance, Function.update_self]
    exact hcaller
  · simp only [acceptedFrom, advance, Function.update_self]
    exact hserved

/-- The end of the iteration. -/
theorem Fair.finish (h : s.Fair) {line : ℓ} (hphase : s.threads b = .next line []) :
    (s.setThread b .idle).Fair := by
  have hphases : ∀ b', ((s.setThread b .idle).threads b').snapshot = (s.threads b').snapshot ∧
      ∀ i, ((s.setThread b .idle).threads b').calling i = (s.threads b').calling i ∧
        ((s.setThread b .idle).threads b').awaited i = (s.threads b').awaited i ∧
        ((s.threads b').removes i → ((s.setThread b .idle).threads b').removes i) := by
    intro b'
    by_cases hb : b' = b
    · subst hb
      rw [setThread, hphase]
      simp only [Function.update_self]
      exact ⟨rfl, fun i => ⟨rfl, rfl, id⟩⟩
    · rw [setThread]
      simp only [Function.update_of_ne hb]
      exact ⟨True.intro, fun i => ⟨True.intro, True.intro, id⟩⟩
  refine ⟨⟨h.nodup, h.known, fun b' => ?_, h.new⟩, fun i b' hi => ?_⟩
  · rw [(hphases b').1]
    exact h.snapshots b'
  · obtain ⟨hcalling, hawaited, hremoves⟩ := (hphases b').2 i
    exact (h.pairs i b' hi).frame rfl rfl rfl rfl hcalling hawaited (Or.imp_right hremoves)

/-- What the snapshot says of the client at its front. -/
theorem Fair.front (h : s.Fair) {j : ℕ} {rest : List ℕ} (hphase : (s.threads b).snapshot = j :: rest) :
    j < s.nextClient ∧ j ∉ rest ∧ s.Served j b := by
  obtain ⟨hnodup, hknown⟩ := h.snapshots b
  rw [hphase] at hnodup hknown
  have hj := hknown j List.mem_cons_self
  exact ⟨hj, (List.nodup_cons.1 hnodup).1, h.pairs j b hj⟩

/-- The test of `open` in `enqueue`. -/
theorem Fair.enqueue (h : s.Fair) {line : ℓ} {j : ℕ} {rest : List ℕ}
    (hphase : s.threads b = .next line (j :: rest)) (hstep : s.threadStep b = some s') :
    s'.Fair := by
  obtain ⟨hj, hrest, hserved⟩ := h.front (congrArg BroadcastPhase.snapshot hphase)
  have hcaller : (s.connections j).callers b = none := by
    rw [hserved.caller, hphase]
    rfl
  have hall : s.acceptedFrom j b ++ [line] = s.due j b := by
    have hawaited : (s.threads b).awaited j = [line] := by
      rw [hphase]
      exact if_pos List.mem_cons_self
    rcases hserved.served with hall | ⟨-, hnone, -⟩
    · rwa [hawaited] at hall
    · rw [hawaited] at hnone
      cases hnone
  have hawaited : ∀ i, i ≠ j → (if i ∈ rest then [line] else []) = (s.threads b).awaited i := by
    intro i hi
    rw [hphase, BroadcastPhase.awaited]
    exact if_congr (by rw [List.mem_cons, or_iff_right hi]) rfl rfl
  simp only [threadStep, hphase, act, Client.step, hcaller, Option.isSome_none, Bool.false_eq_true,
    if_false, Option.map_some, Option.some.injEq] at hstep
  subst hstep
  by_cases hopen : (s.connections j).isOpen = true
  · rw [if_pos hopen, if_pos hopen]
    refine Fair.advance h hj (List.Sublist.refl _) ?_ ?_ ?_ (served_advance hserved ?_ ?_)
    · rw [hphase]
      exact List.Sublist.refl _
    · exact fun b' hb => ⟨Function.update_of_ne hb _ _, rfl⟩
    · intro i hi
      refine ⟨?_, ?_, ?_⟩
      · rw [← hawaited i hi]
        exact if_congr (or_iff_right hi) rfl rfl
      · rw [hphase]
        exact if_neg hi
      · rw [hphase]
        exact id
    · rw [BroadcastPhase.calling, if_pos rfl]
      exact Function.update_self _ _ _
    · rw [BroadcastPhase.awaited, if_pos (.inl rfl)]
      exact .inl hall
  · rw [if_neg hopen, if_neg hopen]
    refine Fair.advance h hj (List.Sublist.refl _) ?_ ?_ ?_ (served_advance hserved ?_ ?_)
    · rw [hphase]
      exact List.Sublist.refl _
    · exact fun b' hb => ⟨rfl, rfl⟩
    · intro i hi
      refine ⟨hawaited i hi, ?_, ?_⟩
      · rw [hphase]
        rfl
      · rw [hphase]
        exact id
    · exact hcaller
    · rw [← hall]
      exact .inr ⟨List.prefix_append _ _, if_neg hrest, .inr rfl⟩

/-- The offer in `enqueue`. -/
theorem Fair.offer (h : s.Fair) {line : ℓ} {j : ℕ} {rest : List ℕ}
    (hphase : s.threads b = .offer line j rest) (hstep : s.threadStep b = some s') : s'.Fair := by
  obtain ⟨hj, hrest, hserved⟩ := h.front (congrArg BroadcastPhase.snapshot hphase)
  have hcaller : (s.connections j).callers b = some (b, line) := by
    rw [hserved.caller, hphase, BroadcastPhase.calling, if_pos rfl]
    rfl
  have hall : s.acceptedFrom j b ++ [line] = s.due j b := by
    have hawaited : (s.threads b).awaited j = [line] := by
      rw [hphase]
      exact if_pos (.inl rfl)
    rcases hserved.served with hall | ⟨-, hnone, -⟩
    · rwa [hawaited] at hall
    · rw [hawaited] at hnone
      cases hnone
  have hclient : ∀ i, i ≠ j → (if i ∈ rest then [line] else []) = (s.threads b).awaited i ∧
      none = (s.threads b).calling i ∧ ¬ (s.threads b).removes i := by
    intro i hi
    rw [hphase]
    exact ⟨(if_congr (or_iff_right hi) rfl rfl).symm, (if_neg hi).symm, id⟩
  have hshorter : ∀ line' : ℓ, (BroadcastPhase.next line' rest).snapshot.Sublist
      (s.threads b).snapshot := by
    intro line'
    rw [hphase]
    exact List.sublist_cons_self j rest
  simp only [threadStep, hphase, act, Client.step, hcaller, Option.map_some,
    Option.some.injEq] at hstep
  subst hstep
  unfold Client.offer
  by_cases hroom : (s.connections j).pendingLines.length < maxPendingSbsLines
  · rw [if_pos hroom, if_pos hroom]
    refine Fair.advance h hj (List.Sublist.refl _) (hshorter line) ?_ hclient
      (served_advance hserved ?_ ?_)
    · intro b' hb
      refine ⟨Function.update_of_ne hb _ _, ?_⟩
      rw [List.filter_append]
      simp [Ne.symm hb]
    · exact Function.update_self _ _ _
    · refine .inl ?_
      rw [BroadcastPhase.awaited, if_neg hrest, List.append_nil, ← hall]
      simp [acceptedFrom]
  · rw [if_neg hroom, if_neg hroom]
    refine Fair.advance h hj (List.Sublist.refl _) ?_ ?_ hclient (served_advance hserved ?_ ?_)
    · rw [hphase]
      exact List.Sublist.refl _
    · exact fun b' hb => ⟨Function.update_of_ne hb _ _, rfl⟩
    · exact Function.update_self _ _ _
    · rw [← hall]
      exact .inr ⟨List.prefix_append _ _, if_neg hrest, .inr rfl⟩

/-- `clients.remove(client)`. -/
theorem Fair.remove (h : s.Fair) {line : ℓ} {j : ℕ} {rest : List ℕ}
    (hphase : s.threads b = .remove line j rest) (hstep : s.threadStep b = some s') : s'.Fair := by
  obtain ⟨hj, hrest, hserved⟩ := h.front (congrArg BroadcastPhase.snapshot hphase)
  rw [threadStep, hphase] at hstep
  cases hstep
  have hsame : { s with clients := s.clients.erase j }.setThread b (.close line j rest) =
      s.advance b (.close line j rest) (s.clients.erase j) j (s.connections j) := by
    rw [Broadcast.advance, Function.update_eq_self]
    rfl
  rw [hsame]
  refine Fair.advance h hj List.erase_sublist ?_ (fun b' hb => ⟨rfl, rfl⟩) ?_
    (served_advance hserved ?_ ?_)
  · rw [hphase]
    exact List.Sublist.refl _
  · intro i hi
    rw [hphase]
    exact ⟨rfl, rfl, hi⟩
  · rw [hserved.caller, hphase]
    rfl
  · rcases hserved.served with hall | ⟨hpart, hnone, -⟩
    · rw [hphase] at hall
      exact .inl hall
    · rw [hphase] at hnone
      exact .inr ⟨hpart, hnone, .inl (h.nodup.not_mem_erase)⟩

/-- `client.close()`; what it does behind its compare-and-set comes at any time. -/
theorem Fair.closeClient (h : s.Fair) {line : ℓ} {j : ℕ} {rest : List ℕ}
    (hphase : s.threads b = .close line j rest) (hstep : s.threadStep b = some s') : s'.Fair := by
  obtain ⟨hj, hrest, hserved⟩ := h.front (congrArg BroadcastPhase.snapshot hphase)
  simp only [threadStep, hphase, act, Option.map_map] at hstep
  obtain ⟨c, hc, rfl⟩ := Option.map_eq_some_iff.1 hstep
  obtain ⟨haccepted, hcallers⟩ := quiet_step (.inl rfl) hc
  refine Fair.advance h hj (List.Sublist.refl _) ?_ (fun b' hb => ⟨congrFun hcallers b', ?_⟩) ?_
    (served_advance hserved ?_ ?_)
  · rw [hphase]
    exact List.sublist_cons_self j rest
  · rw [haccepted]
  · intro i hi
    rw [hphase]
    exact ⟨rfl, rfl, id⟩
  · rw [hcallers, hserved.caller, hphase]
    rfl
  · have hold := hserved.served
    rw [hphase] at hold
    rw [haccepted]
    exact hold

/-- **A step of `broadcastLine`.** -/
theorem Fair.thread (h : s.Fair) (hstep : s.threadStep b = some s') : s'.Fair := by
  cases hphase : s.threads b with
  | idle =>
    rw [threadStep, hphase] at hstep
    cases hstep
  | next line rest =>
    cases rest with
    | nil =>
      rw [threadStep, hphase] at hstep
      cases hstep
      exact h.finish hphase
    | cons j rest => exact h.enqueue hphase hstep
  | offer line j rest => exact h.offer hphase hstep
  | remove line j rest => exact h.remove hphase hstep
  | close line j rest => exact h.closeClient hphase hstep

theorem Fair.step (h : s.Fair) {e : BroadcastEvent ℓ} (hstep : s.step e = some s') : s'.Fair := by
  cases e with
  | add => exact h.add hstep
  | drop i =>
    cases hstep
    exact h.shrink List.erase_sublist
  | clear =>
    cases hstep
    exact h.shrink (List.nil_sublist _)
  | close i =>
    simp only [Broadcast.step] at hstep
    split at hstep
    · next hi => exact h.quiet hi (.inl rfl) hstep
    · cases hstep
  | closeStep i =>
    simp only [Broadcast.step] at hstep
    split at hstep
    · next hi => exact h.quiet hi (.inr (.inl rfl)) hstep
    · cases hstep
  | writer i ok =>
    simp only [Broadcast.step] at hstep
    split at hstep
    · next hi => exact h.quiet hi (.inr (.inr ⟨ok, rfl⟩)) hstep
    · cases hstep
  | begin b line => exact h.begin hstep
  | thread b => exact h.thread hstep

theorem fair_exec {es : List (BroadcastEvent ℓ)} (h : Trace.exec Broadcast.step {} es = some s) :
    s.Fair :=
  Trace.exec_keeps Fair (fun _ _ _ hs hstep => hs.step hstep) fair_new h

theorem Fair.accepted (h : s.Fair) (i b : ℕ) : s.acceptedFrom i b <+: s.due i b := by
  by_cases hi : i < s.nextClient
  · rcases (h.pairs i b hi).served with hall | ⟨hpart, -, -⟩
    · exact ⟨_, hall⟩
    · exact hpart
  · rw [acceptedFrom, h.new i (not_lt.1 hi)]
    exact List.nil_prefix

/-- **Every client gets an unbroken part of what each thread broadcasts**, from the first
line begun after it was added on; and as long as it is on the list, all of it. -/
theorem accepted_unbroken {es : List (BroadcastEvent ℓ)} (h : Trace.exec Broadcast.step {} es = some s)
    (i b : ℕ) :
    s.acceptedFrom i b <+: s.due i b ∧
      (i ∈ s.clients → s.threads b = .idle → s.acceptedFrom i b = s.due i b) := by
  refine ⟨(fair_exec h).accepted i b, fun hmem hidle => ?_⟩
  rcases ((fair_exec h).pairs i b ((fair_exec h).known i hmem)).served with hall | ⟨-, -, hout⟩
  · rw [hidle] at hall
    rwa [BroadcastPhase.awaited, List.append_nil] at hall
  · rw [hidle] at hout
    exact absurd hmem (hout.resolve_right id)

/-- A line that both clients get, and one that is begun while the second one is added;
the first client leaves in between. -/
def twoThreads : List (BroadcastEvent ℕ) :=
  [.add, .begin 0 10, .add, .begin 1 20, .thread 0, .thread 1, .thread 1, .thread 0, .thread 1,
    .drop 0, .thread 0, .begin 0 11, .thread 1, .thread 0, .thread 0, .thread 0]

theorem twoThreads_accepted :
    ∃ s, Trace.exec Broadcast.step {} twoThreads = some s ∧ s.begun 0 = [10, 11] ∧
      s.acceptedFrom 0 0 <+: [10, 11] ∧ s.acceptedFrom 1 0 = [11] := by
  refine ⟨_, rfl, rfl, ?_, ?_⟩
  · exact (@accepted_unbroken ℕ _ twoThreads rfl 0 0).1
  · exact (@accepted_unbroken ℕ _ twoThreads rfl 1 0).2 (List.mem_singleton_self _) rfl

/-! ## What a client reads -/

/-- A thread offers a line behind a `close()` that has dropped others. -/
def Late (s : Broadcast ℓ) : BroadcastEvent ℓ → Prop
  | .thread b => ∃ line j rest, s.threads b = .offer line j rest ∧
      (s.connections j).Late (.offer b)
  | _ => False

/-- A step of the service is one of at most one connection. -/
theorem connections_of_step {e : BroadcastEvent ℓ} (h : s.step e = some s') :
    s'.connections = s.connections ∨
      ∃ j e' c, (s.connections j).step e' = some c ∧
        s'.connections = Function.update s.connections j c ∧
        ((s.connections j).Late e' → s.Late e) := by
  have hact : ∀ {s'' : Broadcast ℓ} {j : ℕ} {e' : ClientEvent (ℕ × ℓ)},
      s.act j e' = some s'' → ∃ c, (s.connections j).step e' = some c ∧
        s''.connections = Function.update s.connections j c := by
    intro s'' j e' hstep
    obtain ⟨c, hc, rfl⟩ := Option.map_eq_some_iff.1 hstep
    exact ⟨c, hc, rfl⟩
  have hquiet : ∀ {j : ℕ} {e' : ClientEvent (ℕ × ℓ)}, (∀ c : Client (ℕ × ℓ), ¬ c.Late e') →
      (if j < s.nextClient then s.act j e' else none) = some s' →
      ∃ j e' c, (s.connections j).step e' = some c ∧
        s'.connections = Function.update s.connections j c ∧
        ((s.connections j).Late e' → s.Late e) := by
    intro j e' hlate hstep
    split at hstep
    · obtain ⟨c, hc, hconnections⟩ := hact hstep
      exact ⟨j, e', c, hc, hconnections, fun hl => absurd hl (hlate _)⟩
    · cases hstep
  cases e with
  | add => cases h; exact .inl rfl
  | drop i => cases h; exact .inl rfl
  | clear => cases h; exact .inl rfl
  | close i => exact .inr (hquiet (fun _ => id) h)
  | closeStep i => exact .inr (hquiet (fun _ => id) h)
  | writer i ok => exact .inr (hquiet (fun _ => id) h)
  | begin b line =>
    simp only [Broadcast.step] at h
    split at h
    · cases h; exact .inl rfl
    · cases h
  | thread b =>
    simp only [Broadcast.step, threadStep] at h
    split at h
    · cases h
    · cases h; exact .inl rfl
    · obtain ⟨s'', hstep, rfl⟩ := Option.map_eq_some_iff.1 h
      obtain ⟨c, hc, hconnections⟩ := hact hstep
      exact .inr ⟨_, _, c, hc, hconnections, fun hl => absurd hl id⟩
    · next line j rest hphase =>
      obtain ⟨s'', hstep, rfl⟩ := Option.map_eq_some_iff.1 h
      obtain ⟨c, hc, hconnections⟩ := hact hstep
      exact .inr ⟨_, _, c, hc, hconnections, fun hl => ⟨line, j, rest, hphase, hl⟩⟩
    · cases h; exact .inl rfl
    · obtain ⟨s'', hstep, rfl⟩ := Option.map_eq_some_iff.1 h
      obtain ⟨c, hc, hconnections⟩ := hact hstep
      exact .inr ⟨_, _, c, hc, hconnections, fun hl => absurd hl id⟩

/-- Without late offers every connection keeps its lines in order. -/
theorem inOrder_exec {es : List (BroadcastEvent ℓ)}
    (htimely : Trace.Along Broadcast.step (fun s e => ¬ Late s e) {} es)
    (h : Trace.exec Broadcast.step {} es = some s) (i : ℕ) : (s.connections i).InOrder := by
  have hkeeps : ∀ (s : Broadcast ℓ) (e : BroadcastEvent ℓ) (s' : Broadcast ℓ),
      (∀ i, (s.connections i).InOrder) → ¬ Late s e → s.step e = some s' →
        ∀ i, (s'.connections i).InOrder := by
    intro s e s' hs htimely hstep i
    rcases connections_of_step hstep with hsame | ⟨j, e', c, hc, hconnections, hlate⟩
    · rw [hsame]
      exact hs i
    · rw [hconnections]
      by_cases hi : i = j
      · subst hi
        rw [Function.update_self]
        exact (hs i).step (mt hlate htimely) hc
      · rw [Function.update_of_ne hi]
        exact hs i
  exact Trace.exec_invariant hkeeps (fun _ => Client.inOrder_new) htimely h i

/-- What is written is part of what was accepted, thread by thread. -/
theorem written_unbroken {es : List (BroadcastEvent ℓ)}
    (htimely : Trace.Along Broadcast.step (fun s e => ¬ Late s e) {} es)
    (h : Trace.exec Broadcast.step {} es = some s) (i b : ℕ) :
    ((s.connections i).written.filter fun p => p.1 = b).map Prod.snd <+: s.due i b := by
  have hwritten := ((inOrder_exec htimely h i).gapFree.filter fun p => decide (p.1 = b)).map Prod.snd
  exact hwritten.trans ((fair_exec h).accepted i b)

end Broadcast

/-- **What a client reads.** If one thread broadcasts, lines as the library makes them, then
the whole lines in what a client has read are the first ones that were broadcast since it
was added, wherever the stream of bytes stops. -/
theorem client_reads {s : Broadcast Text} {es : List (BroadcastEvent Text)}
    (htimely : Trace.Along Broadcast.step (fun s e => ¬ Broadcast.Late s e) {} es)
    (h : Trace.exec Broadcast.step {} es = some s) {b : ℕ}
    (hone : ∀ b', b' ≠ b → s.begun b' = [])
    (hlines : ∀ line ∈ s.begun b, Text.Over Native.isPrintable line) {i : ℕ} {bytes : List UInt8}
    (hbytes : bytes <+: sentBytes ((s.connections i).written.map Prod.snd)) :
    (Lines.cut Http.lf [] bytes).1.map Http.usAscii <+: s.due i b := by
  have hmine : ∀ p ∈ (s.connections i).written, p.1 = b := by
    intro p hp
    by_contra hne
    have hother := Broadcast.written_unbroken htimely h i p.1
    rw [Broadcast.due, hone p.1 hne, List.drop_nil, List.prefix_nil, List.map_eq_nil_iff] at hother
    have hmem : p ∈ (s.connections i).written.filter fun q => decide (q.1 = p.1) :=
      List.mem_filter.2 ⟨hp, decide_eq_true rfl⟩
    rw [hother] at hmem
    cases hmem
  have hwritten := Broadcast.written_unbroken htimely h i b
  rw [List.filter_eq_self.2 fun p hp => decide_eq_true (hmine p hp)] at hwritten
  have hover : ∀ line ∈ (s.connections i).written.map Prod.snd, Text.Over Native.isPrintable line :=
    fun line hline => hlines line ((List.drop_subset _ _) (hwritten.subset hline))
  rw [sentBytes_eq] at hbytes
  have hwhole := Lines.cut_of_part ?_ hbytes
  · have hsame : ((s.connections i).written.map Prod.snd).map (Http.usAscii ∘ encodeAscii) =
        (s.connections i).written.map Prod.snd :=
      (List.map_congr_left fun line hline => (usAscii_encodeAscii (hover line hline)).1).trans
        (List.map_id _)
    have hread := hwhole.map Http.usAscii
    rw [List.map_map, hsame] at hread
    exact hread.trans hwritten
  · intro record hrecord
    obtain ⟨line, hline, rfl⟩ := List.mem_map.1 hrecord
    exact (usAscii_encodeAscii (hover line hline)).2

/-- No thread is about to offer a line to a connection whose `close()` is at its socket. -/
def Broadcast.offersEarly (s : Broadcast Text) : BroadcastEvent Text → Bool
  | .thread b =>
    match s.threads b with
    | .offer _ j _ => (s.connections j).closing ≠ .closeSocket
    | _ => true
  | _ => true

theorem Broadcast.not_late_of_offersEarly {s : Broadcast Text} {e : BroadcastEvent Text}
    (h : s.offersEarly e = true) : ¬ s.Late e := by
  cases e with
  | thread b =>
    intro hlate
    obtain ⟨line, j, rest, hphase, hclosing, -⟩ := hlate
    rw [offersEarly, hphase] at h
    exact of_decide_eq_true h hclosing
  | _ => exact id

def twoLines : List (BroadcastEvent Text) :=
  [.add, .begin 0 "MSG,8".toList, .thread 0, .thread 0, .thread 0, .begin 0 "MSG,7".toList,
    .thread 0, .thread 0] ++
    List.replicate 6 (.writer 0 true)

/-- The bytes that were read stop inside the second line. -/
theorem client_reads_twoLines :
    ∃ s, Trace.exec Broadcast.step {} twoLines = some s ∧
      (Lines.cut Http.lf [] (encodeAscii "MSG,8\nMS".toList)).1.map Http.usAscii = ["MSG,8".toList] ∧
      (Lines.cut Http.lf [] (encodeAscii "MSG,8\nMS".toList)).1.map Http.usAscii <+: s.due 0 0 := by
  have htimely : Trace.Along Broadcast.step (fun s e => ¬ Broadcast.Late s e) {} twoLines :=
    Trace.along_mono (fun _ _ => Broadcast.not_late_of_offersEarly) (Trace.along_of_check rfl)
  have hone : ∀ b' : ℕ, b' ≠ 0 →
      Function.update (Function.update (fun _ => []) 0 ["MSG,8".toList]) 0
        ["MSG,8".toList, "MSG,7".toList] b' = ([] : List Text) := by
    intro b' hb
    rw [Function.update_of_ne hb, Function.update_of_ne hb]
  have hlines : ∀ line ∈ ["MSG,8".toList, "MSG,7".toList], Text.Over Native.isPrintable line := by
    intro line hline
    rcases List.mem_pair.1 hline with rfl | rfl
    · exact fun c hc => List.all_eq_true.1 (rfl : "MSG,8".toList.all Native.isPrintable = true) c hc
    · exact fun c hc => List.all_eq_true.1 (rfl : "MSG,7".toList.all Native.isPrintable = true) c hc
  have hbytes : encodeAscii "MSG,8\nMS".toList <+: sentBytes ["MSG,8".toList, "MSG,7".toList] :=
    ⟨encodeAscii "G,7\n".toList, rfl⟩
  have hexec : Trace.exec Broadcast.step {} twoLines = some _ := rfl
  exact ⟨_, hexec, rfl, @client_reads _ twoLines htimely hexec 0 hone hlines 0 _ hbytes⟩

end AdsbBridge.Service
