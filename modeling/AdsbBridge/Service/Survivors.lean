import AdsbBridge.Service.Accept

/-! # The clients of the SBS server when it is stopped

`stopBridge` closes the connections that it finds in the list, and empties it.
As long as every connection is in the list by then, each open socket is in the
hands of a thread that is going to close it. -/
namespace AdsbBridge.Service
open AdsbBridge.Lib

/-! ## Who still closes a socket -/

/-- The client that the loop is at work on, before its connection is in the list
and when the executor has refused it. -/
def AcceptPhase.atHand : AcceptPhase → Option ℕ
  | .checkLimit i | .setTcpNoDelay i | .newConnection i | .closeQuietly i | .add i | .closeSocket i =>
    some i
  | _ => none

/-- The client whose connection the loop closes, past the compare-and-set. -/
def AcceptPhase.refusing : AcceptPhase → Option ℕ
  | .closeSocket i | .remove i => some i
  | _ => none

/-- The snapshot of `stopBridge` is still to be taken. -/
def StopBridgePhase.early : StopBridgePhase → Bool
  | .clearRunning | .iterate => true
  | _ => false

theorem StopBridgePhase.eq_of_early {p : StopBridgePhase} (h : p.early = true) :
    p = .clearRunning ∨ p = .iterate := by
  cases p with
  | clearRunning => exact .inl rfl
  | iterate => exact .inr rfl
  | close | closeSocket | clear | closeServer | nullServer | done => cases h

/-- `clients.clear()` has been called. -/
def StopBridgePhase.cleared : StopBridgePhase → Bool
  | .closeServer | .nullServer | .done => true
  | _ => false

namespace Acceptor

/-- The clients whose connections `stopBridge` is still going to close. -/
def toClose (s : Acceptor) : List ℕ :=
  match s.stop with
  | .clearRunning | .iterate => s.clients
  | .close rest | .closeSocket _ rest => rest
  | _ => []

/-- Some thread is still going to close the socket. -/
inductive Held (s : Acceptor) (i : ℕ) : Prop
  /-- the loop, with no connection that another thread could have closed -/
  | atHand (h : s.loop.atHand = some i) (hadd : s.loop = .add i → s.isOpen i = true)
  /-- `stopBridge`, which has the connection before it -/
  | listed (hopen : s.isOpen i = true) (h : i ∈ s.toClose)
  | dropped (hopen : s.isOpen i = true) (h : s.dropped i = true)
  /-- a thread inside `close()` -/
  | closing (h : s.closing i = true)
  | stopping (rest : List ℕ) (h : s.stop = .closeSocket i rest)

/-- What holds as long as no client slips past `stopBridge`. -/
structure Kept (s : Acceptor) : Prop where
  held : ∀ i, s.socketOpen i = true → s.Held i
  refused : ∀ i, s.loop.refusing = some i → s.isOpen i = false
  cleared : s.stop.cleared = true → s.clients = []

/-- `setTcpNoDelay` does not fail, and a connection is added before `stopBridge`
goes through the list. -/
def tidy (s : Acceptor) (e : AcceptEvent) : Bool :=
  match s.loop, e with
  | .setTcpNoDelay _, .loop ok => ok
  | .add _, .loop _ => s.stop.early
  | _, _ => true

/-- A step of the loop or of `stopBridge`, not of the other threads. -/
def ofLoopOrStop : AcceptEvent → Bool
  | .loop _ | .stopBridge => true
  | .drop _ | .close _ | .closeSocket _ | .remove _ => false

/-- No client survives: none is listed, and a socket is open only while another
thread is on its way to close it. -/
structure NoneSurvives (s : Acceptor) : Prop where
  clients : s.clients = []
  closed : ∀ i, s.socketOpen i = true → s.dropped i = true ∨ s.closing i = true

section Kept

variable {s s' : Acceptor} {i : ℕ} {ok : Bool}

/-- Who holds a client goes on doing so through a step about others. -/
theorem Held.frame (h : s.Held i) (hloop : s'.loop = s.loop ∨ s.loop.atHand ≠ some i)
    (hstop : s'.stop = s.stop ∨ ∀ rest, s.stop ≠ .closeSocket i rest)
    (hopen : s'.isOpen i = s.isOpen i) (hdropped : s'.dropped i = s.dropped i)
    (hclosing : s'.closing i = s.closing i)
    (hlist : s.isOpen i = true → i ∈ s.toClose → i ∈ s'.toClose) : s'.Held i := by
  cases h with
  | atHand h hadd =>
    rcases hloop with hsame | hother
    · exact .atHand (by rwa [hsame]) (by rwa [hsame, hopen])
    · exact absurd h hother
  | listed ho h => exact .listed (hopen.trans ho) (hlist ho h)
  | dropped ho h => exact .dropped (hopen.trans ho) (hdropped.trans h)
  | closing h => exact .closing (hclosing.trans h)
  | stopping rest h =>
    rcases hstop with hsame | hother
    · exact .stopping rest (hsame.trans h)
    · exact absurd h (hother rest)

theorem toClose_mono (hstop : s'.stop = s.stop) (h : i ∈ s.clients → i ∈ s'.clients) :
    i ∈ s.toClose → i ∈ s'.toClose := by
  unfold toClose
  rw [hstop]
  split
  · exact h
  · exact h
  · exact id
  · exact id
  · exact id

theorem toClose_of_nil (h : s.toClose = []) :
    ∀ j, s.isOpen j = true → j ∈ s.toClose → j ∈ s'.toClose := by
  intro j _ hmem
  rw [h] at hmem
  cases hmem

/-- A step of the loop about the client `i` keeps what holds if it does for `i`. -/
theorem Kept.around (hk : s.Kept) (hhand : ∀ j, s.loop.atHand = some j → j = i)
    (hothers : ∀ j, j ≠ i → s'.socketOpen j = s.socketOpen j ∧ s'.isOpen j = s.isOpen j ∧
      (j ∈ s.clients → j ∈ s'.clients))
    (hstop : s'.stop = s.stop) (hdropped : s'.dropped = s.dropped)
    (hclosing : s'.closing = s.closing) (hi : s'.socketOpen i = true → s'.Held i)
    (hnext : ∀ j, s'.loop.refusing = some j → s'.isOpen j = false)
    (hcleared : s.stop.cleared = true → s.clients = [] → s'.clients = []) : s'.Kept := by
  refine ⟨fun j hj => ?_, hnext, fun hc => ?_⟩
  · by_cases hji : j = i
    · rw [hji] at hj ⊢
      exact hi hj
    · obtain ⟨hsocket, hopen, hlist⟩ := hothers j hji
      refine (hk.held j (hsocket ▸ hj)).frame (.inr fun h => hji (hhand j h)) (.inl hstop) hopen
        (by rw [hdropped]) (by rw [hclosing]) fun _ => toClose_mono hstop hlist
  · rw [hstop] at hc
    exact hcleared hc (hk.cleared hc)

/-- So does a step of the loop that is about no client. -/
theorem Kept.aside (hk : s.Kept) (hhand : s.loop.atHand = none)
    (hsocket : s'.socketOpen = s.socketOpen) (hopen : s'.isOpen = s.isOpen)
    (hclients : s'.clients = s.clients) (hstop : s'.stop = s.stop)
    (hdropped : s'.dropped = s.dropped) (hclosing : s'.closing = s.closing)
    (hnext : ∀ j, s'.loop.refusing = some j → s.isOpen j = false) :
    s'.Kept := by
  refine ⟨fun j hj => ?_, fun j hj => ?_, fun hc => ?_⟩
  · rw [hsocket] at hj
    refine (hk.held j hj).frame (.inr ?_) (.inl hstop) (by rw [hopen]) (by rw [hdropped])
      (by rw [hclosing]) fun _ => toClose_mono hstop fun h => by rwa [hclients]
    rw [hhand]
    intro h
    cases h
  · rw [hopen]
    exact hnext j hj
  · rw [hstop] at hc
    rw [hclients]
    exact hk.cleared hc

theorem eq_of_atHand {p : AcceptPhase} (hl : s.loop = p) (hp : p.atHand = some i) :
    ∀ j, s.loop.atHand = some j → j = i := by
  intro j hj
  rw [hl, hp] at hj
  exact (Option.some.inj hj).symm

/-- The phases of the loop without a client. -/
theorem Kept.loop_clientless (hk : s.Kept) (h : s.loopStep ok = some s')
    (hl : s.loop ∈ [.bind, .assignSocket, .test, .closeServer, .clearRunning]) : s'.Kept := by
  unfold Acceptor.loopStep at h
  simp only [List.mem_cons, List.not_mem_nil, or_false] at hl
  rcases hl with hl | hl | hl | hl | hl
  all_goals
    rw [hl] at h
    cases h
  · cases ok with
    | true => exact hk.aside (by rw [hl]; rfl) rfl rfl rfl rfl rfl rfl fun j hj => by cases hj
    | false => exact hk.aside (by rw [hl]; rfl) rfl rfl rfl rfl rfl rfl fun j hj => by cases hj
  · exact hk.aside (by rw [hl]; rfl) rfl rfl rfl rfl rfl rfl fun j hj => by cases hj
  · refine hk.aside (by rw [hl]; rfl) rfl rfl rfl rfl rfl rfl fun j hj => ?_
    dsimp only at hj
    split at hj <;> cases hj
  · exact hk.aside (by rw [hl]; rfl) rfl rfl rfl rfl rfl rfl fun j hj => by cases hj
  · exact hk.aside (by rw [hl]; rfl) rfl rfl rfl rfl rfl rfl fun j hj => by cases hj

theorem Kept.accept (hk : s.Kept) (h : s.loopStep ok = some s') (hl : s.loop = .accept) :
    s'.Kept := by
  unfold Acceptor.loopStep at h
  rw [hl] at h
  dsimp only at h
  have hhand : s.loop.atHand = none := by rw [hl]; rfl
  split at h
  · cases h
    exact hk.aside hhand rfl rfl rfl rfl rfl rfl fun j hj => by cases hj
  split at h
  · cases h
    refine hk.around (i := s.accepted) (fun j hj => ?_) (fun j hj => ⟨?_, rfl, id⟩) rfl rfl rfl
      (fun _ => .atHand rfl ?_) (fun j hj => by cases hj) fun _ h => h
    · rw [hhand] at hj
      cases hj
    · exact Function.update_of_ne hj _ _
    · intro hadd
      cases hadd
  · cases h

theorem Kept.checkLimit (hk : s.Kept) (h : s.loopStep ok = some s')
    (hl : s.loop = .checkLimit i) : s'.Kept := by
  unfold Acceptor.loopStep at h
  rw [hl] at h
  cases h
  refine hk.around (eq_of_atHand hl rfl) (fun j _ => ⟨rfl, rfl, id⟩) rfl rfl rfl
    (fun _ => .atHand ?_ ?_) (fun j hj => ?_) fun _ h => h
  · dsimp only
    split <;> rfl
  · dsimp only
    intro hadd
    split at hadd <;> cases hadd
  · dsimp only at hj
    split at hj <;> cases hj

theorem Kept.setTcpNoDelay (hk : s.Kept) (h : s.loopStep true = some s')
    (hl : s.loop = .setTcpNoDelay i) : s'.Kept := by
  unfold Acceptor.loopStep at h
  rw [hl] at h
  cases h
  refine hk.around (eq_of_atHand hl rfl) (fun j _ => ⟨rfl, rfl, id⟩) rfl rfl rfl
    (fun _ => .atHand rfl ?_) (fun j hj => by cases hj) fun _ h => h
  intro hadd
  cases hadd

theorem Kept.newConnection (hk : s.Kept) (h : s.loopStep ok = some s')
    (hl : s.loop = .newConnection i) : s'.Kept := by
  unfold Acceptor.loopStep at h
  rw [hl] at h
  cases h
  cases ok with
  | true =>
    exact hk.around (eq_of_atHand hl rfl) (fun j hj => ⟨rfl, Function.update_of_ne hj _ _, id⟩)
      rfl rfl rfl (fun _ => .atHand rfl fun _ => Function.update_self _ _ _)
      (fun j hj => by cases hj) fun _ h => h
  | false =>
    refine hk.around (eq_of_atHand hl rfl) (fun j _ => ⟨rfl, rfl, id⟩) rfl rfl rfl
      (fun _ => .atHand rfl ?_) (fun j hj => by cases hj) fun _ h => h
    intro hadd
    cases hadd

/-- Closing the socket of the client at hand. -/
theorem Kept.closeSocket (hk : s.Kept) (h : s.loopStep ok = some s')
    (hl : s.loop = .closeQuietly i ∨ s.loop = .closeSocket i) : s'.Kept := by
  have hclosed : (Function.update s.socketOpen i false) i ≠ true := by
    rw [Function.update_self]
    exact Bool.false_ne_true
  unfold Acceptor.loopStep at h
  rcases hl with hl | hl
  · rw [hl] at h
    cases h
    exact hk.around (eq_of_atHand hl rfl) (fun j hj => ⟨Function.update_of_ne hj _ _, rfl, id⟩)
      rfl rfl rfl (fun hopen => absurd hopen hclosed) (fun j hj => by cases hj) fun _ h => h
  · have hrefused := hk.refused i (by rw [hl]; rfl)
    rw [hl] at h
    cases h
    refine hk.around (eq_of_atHand hl rfl) (fun j hj => ⟨Function.update_of_ne hj _ _, rfl, id⟩)
      rfl rfl rfl (fun hopen => absurd hopen hclosed) (fun j hj => ?_) fun _ h => h
    cases hj
    exact hrefused

/-- A connection that is added early is one that `stopBridge` will come upon. -/
theorem Kept.add (hk : s.Kept) (h : s.loopStep ok = some s') (hl : s.loop = .add i)
    (hearly : s.stop.early = true) : s'.Kept := by
  unfold Acceptor.loopStep at h
  rw [hl] at h
  cases h
  have hlist : ∀ j, (j ∈ s.clients ∨ j = i) → j ∈ toClose { s with
      clients := s.clients ++ [i], loop := .start i } := by
    intro j hj
    have hmem : j ∈ s.clients ++ [i] := List.mem_append.2 (hj.imp_right List.mem_singleton.2)
    unfold toClose
    rcases StopBridgePhase.eq_of_early hearly with hstop | hstop <;> rw [hstop]
    · exact hmem
    · exact hmem
  refine hk.around (eq_of_atHand hl rfl)
    (fun j hj => ⟨rfl, rfl, List.mem_append_left _⟩) rfl rfl rfl (fun hopen => ?_)
    (fun j hj => by cases hj) fun hc => ?_
  · cases hk.held i hopen with
    | atHand h hadd => exact .listed (hadd hl) (hlist i (.inr rfl))
    | listed ho _ => exact .listed ho (hlist i (.inr rfl))
    | dropped ho h => exact .dropped ho h
    | closing h => exact .closing h
    | stopping rest h => exact .stopping rest h
  · rcases StopBridgePhase.eq_of_early hearly with hstop | hstop <;> rw [hstop] at hc <;> cases hc

theorem Kept.refuse (hk : s.Kept) (h : s.loopStep ok = some s') (hl : s.loop = .refused i) :
    s'.Kept := by
  unfold Acceptor.loopStep at h
  rw [hl] at h
  dsimp only at h
  have hhand : s.loop.atHand = none := by rw [hl]; rfl
  split at h
  · cases h
    refine hk.around (i := i) (fun j hj => ?_)
      (fun j hj => ⟨rfl, Function.update_of_ne hj _ _, id⟩) rfl rfl rfl
      (fun _ => .atHand rfl ?_) (fun j hj => ?_) fun _ h => h
    · rw [hhand] at hj
      cases hj
    · intro hadd
      cases hadd
    · cases hj
      exact Function.update_self _ _ _
  · next hclosed =>
    cases h
    refine hk.aside hhand rfl rfl rfl rfl rfl rfl fun j hj => ?_
    cases hj
    exact Bool.eq_false_iff.2 hclosed

theorem Kept.remove (hk : s.Kept) (h : s.loopStep ok = some s') (hl : s.loop = .remove i) :
    s'.Kept := by
  have hrefused := hk.refused i (by rw [hl]; rfl)
  unfold Acceptor.loopStep at h
  rw [hl] at h
  cases h
  refine hk.around (i := i) (fun j hj => ?_)
    (fun j hj => ⟨rfl, rfl, (List.mem_erase_of_ne hj).2⟩) rfl rfl rfl (fun hopen => ?_)
    (fun j hj => by cases hj) fun _ hnil => ?_
  · rw [hl] at hj
    cases hj
  · refine (hk.held i hopen).frame (.inr ?_) (.inl rfl) rfl rfl rfl fun ho => ?_
    · rw [hl]
      intro h
      cases h
    · rw [hrefused] at ho
      cases ho
  · show s.clients.erase i = []
    rw [hnil]
    rfl

/-- **A tidy step of the accept loop keeps every socket in somebody's hands.** -/
theorem Kept.loopStep (hk : s.Kept) (ht : s.tidy (.loop ok) = true) (h : s.loopStep ok = some s') :
    s'.Kept := by
  cases hl : s.loop with
  | bind => exact hk.loop_clientless h (by simp [hl])
  | assignSocket => exact hk.loop_clientless h (by simp [hl])
  | test => exact hk.loop_clientless h (by simp [hl])
  | accept => exact hk.accept h hl
  | checkLimit i => exact hk.checkLimit h hl
  | setTcpNoDelay i =>
    simp only [tidy, hl] at ht
    rw [ht] at h
    exact hk.setTcpNoDelay h hl
  | newConnection i => exact hk.newConnection h hl
  | closeQuietly i => exact hk.closeSocket h (.inl hl)
  | add i =>
    simp only [tidy, hl] at ht
    exact hk.add h hl ht
  | start i =>
    unfold Acceptor.loopStep at h
    rw [hl] at h
    cases h
    refine hk.aside (by rw [hl]; rfl) rfl rfl rfl rfl rfl rfl fun j hj => ?_
    dsimp only at hj
    split at hj <;> cases hj
  | refused i => exact hk.refuse h hl
  | closeSocket i => exact hk.closeSocket h (.inr hl)
  | remove i => exact hk.remove h hl
  | closeServer => exact hk.loop_clientless h (by simp [hl])
  | clearRunning => exact hk.loop_clientless h (by simp [hl])
  | done =>
    unfold Acceptor.loopStep at h
    rw [hl] at h
    cases h

/-- A step of `stopBridge` about no socket. -/
theorem Kept.stop_aside (hk : s.Kept) (hloop : s'.loop = s.loop)
    (hsocket : s'.socketOpen = s.socketOpen) (hopen : s'.isOpen = s.isOpen)
    (hdropped : s'.dropped = s.dropped) (hclosing : s'.closing = s.closing)
    (hstop : ∀ i rest, s.stop ≠ .closeSocket i rest)
    (hlist : ∀ i, s.isOpen i = true → i ∈ s.toClose → i ∈ s'.toClose)
    (hcleared : s'.stop.cleared = true → s'.clients = []) : s'.Kept := by
  refine ⟨fun i hi => ?_, fun i hi => ?_, hcleared⟩
  · rw [hsocket] at hi
    exact (hk.held i hi).frame (.inl hloop) (.inr (hstop i)) (by rw [hopen]) (by rw [hdropped])
      (by rw [hclosing]) (hlist i)
  · rw [hloop] at hi
    rw [hopen]
    exact hk.refused i hi

/-- `client.close()` on the next client of the snapshot. -/
theorem Kept.stop_close {rest : List ℕ} (hk : s.Kept) (h : s.stopStep = some s')
    (hstop : s.stop = .close (i :: rest)) : s'.Kept := by
  have hlist : s.toClose = i :: rest := by rw [toClose, hstop]
  have hnot : ∀ j rest', s.stop ≠ .closeSocket j rest' := by
    intro j rest' he
    rw [hstop] at he
    cases he
  unfold Acceptor.stopStep at h
  rw [hstop] at h
  dsimp only at h
  split at h
  · cases h
    refine ⟨fun j hj => ?_, fun j hj => ?_, fun hc => by cases hc⟩
    · by_cases hji : j = i
      · rw [hji]
        exact .stopping rest rfl
      · refine (hk.held j hj).frame (.inl rfl) (.inr (hnot j)) (Function.update_of_ne hji _ _) rfl
          rfl fun _ hmem => ?_
        rw [hlist] at hmem
        exact (List.mem_cons.1 hmem).resolve_left hji
    · show Function.update s.isOpen i false j = false
      rw [Function.update_apply, hk.refused j hj, ite_self]
  · next hclosed =>
    cases h
    refine hk.stop_aside rfl rfl rfl rfl rfl hnot (fun j hj hmem => ?_) fun hc => by cases hc
    rw [hlist] at hmem
    refine (List.mem_cons.1 hmem).resolve_left ?_
    rintro rfl
    exact hclosed hj

theorem Kept.stop_closeSocket {rest : List ℕ} (hk : s.Kept) (h : s.stopStep = some s')
    (hstop : s.stop = .closeSocket i rest) : s'.Kept := by
  have hlist : s.toClose = rest := by rw [toClose, hstop]
  unfold Acceptor.stopStep at h
  rw [hstop] at h
  cases h
  refine ⟨fun j hj => ?_, hk.refused, fun hc => by cases hc⟩
  have hj : Function.update s.socketOpen i false j = true := hj
  have hji : j ≠ i := by
    rintro rfl
    rw [Function.update_self] at hj
    cases hj
  rw [Function.update_of_ne hji] at hj
  refine (hk.held j hj).frame (.inl rfl) (.inr fun rest' he => ?_) rfl rfl rfl fun _ hmem => ?_
  · rw [hstop] at he
    cases he
    exact hji rfl
  · rwa [hlist] at hmem

/-- **`stopBridge` lets go of a client only when its socket is closed.** -/
theorem Kept.stopStep (hk : s.Kept) (h : s.stopStep = some s') : s'.Kept := by
  have hnot : ∀ {p}, s.stop = p → (∀ i rest, p ≠ .closeSocket i rest) →
      ∀ i rest, s.stop ≠ .closeSocket i rest := by
    intro p hp hne i rest
    rw [hp]
    exact hne i rest
  cases hstop : s.stop with
  | closeSocket i rest => exact hk.stop_closeSocket h hstop
  | close list =>
    cases list with
    | cons i rest => exact hk.stop_close h hstop
    | nil =>
      have hlist : s.toClose = [] := by rw [toClose, hstop]
      unfold Acceptor.stopStep at h
      rw [hstop] at h
      cases h
      exact hk.stop_aside rfl rfl rfl rfl rfl (hnot hstop (by simp)) (toClose_of_nil hlist)
        fun hc => by cases hc
  | clearRunning =>
    have hlist : s.toClose = s.clients := by rw [toClose, hstop]
    unfold Acceptor.stopStep at h
    rw [hstop] at h
    cases h
    exact hk.stop_aside rfl rfl rfl rfl rfl (hnot hstop (by simp)) (fun j _ hmem => hlist ▸ hmem)
      fun hc => by cases hc
  | iterate =>
    have hlist : s.toClose = s.clients := by rw [toClose, hstop]
    unfold Acceptor.stopStep at h
    rw [hstop] at h
    cases h
    exact hk.stop_aside rfl rfl rfl rfl rfl (hnot hstop (by simp)) (fun j _ hmem => hlist ▸ hmem)
      fun hc => by cases hc
  | clear =>
    have hlist : s.toClose = [] := by rw [toClose, hstop]
    unfold Acceptor.stopStep at h
    rw [hstop] at h
    cases h
    exact hk.stop_aside rfl rfl rfl rfl rfl (hnot hstop (by simp)) (toClose_of_nil hlist)
      fun _ => rfl
  | closeServer =>
    have hlist : s.toClose = [] := by rw [toClose, hstop]
    have hnil := hk.cleared (by rw [hstop]; rfl)
    unfold Acceptor.stopStep at h
    rw [hstop] at h
    cases h
    exact hk.stop_aside rfl rfl rfl rfl rfl (hnot hstop (by simp)) (toClose_of_nil hlist)
      fun _ => hnil
  | nullServer =>
    have hlist : s.toClose = [] := by rw [toClose, hstop]
    have hnil := hk.cleared (by rw [hstop]; rfl)
    unfold Acceptor.stopStep at h
    rw [hstop] at h
    cases h
    exact hk.stop_aside rfl rfl rfl rfl rfl (hnot hstop (by simp)) (toClose_of_nil hlist)
      fun _ => hnil
  | done =>
    unfold Acceptor.stopStep at h
    rw [hstop] at h
    cases h

/-- A step of another thread about the client `i`. -/
theorem Kept.other (hk : s.Kept) (hloop : s'.loop = s.loop) (hstop : s'.stop = s.stop)
    (hothers : ∀ j, j ≠ i → s'.socketOpen j = s.socketOpen j ∧ s'.isOpen j = s.isOpen j ∧
      s'.dropped j = s.dropped j ∧ s'.closing j = s.closing j)
    (hclosed : s'.isOpen i = true → s.isOpen i = true)
    (hlist : ∀ j, j ≠ i → j ∈ s.clients → j ∈ s'.clients)
    (hi : s'.socketOpen i = true → s'.Held i) (hnil : s.clients = [] → s'.clients = []) :
    s'.Kept := by
  refine ⟨fun j hj => ?_, fun j hj => ?_, fun hc => ?_⟩
  · by_cases hji : j = i
    · rw [hji] at hj ⊢
      exact hi hj
    · obtain ⟨hsocket, hopen, hdropped, hclosing⟩ := hothers j hji
      exact (hk.held j (hsocket ▸ hj)).frame (.inl hloop) (.inl hstop) hopen hdropped hclosing
        fun _ => toClose_mono hstop (hlist j hji)
  · rw [hloop] at hj
    have hrefused := hk.refused j hj
    by_cases hji : j = i
    · rw [hji] at hrefused ⊢
      refine Bool.eq_false_iff.2 fun ho => ?_
      rw [hclosed ho] at hrefused
      cases hrefused
    · rw [(hothers j hji).2.1, hrefused]
  · rw [hstop] at hc
    exact hnil (hk.cleared hc)

/-- `broadcastLine` has the clients that it drops to close. -/
theorem Kept.drop (hk : s.Kept) (h : s.step (.drop i) = some s') : s'.Kept := by
  simp only [Acceptor.step] at h
  split at h
  · cases h
    refine hk.other (i := i) rfl rfl (fun j hj => ⟨rfl, rfl, Function.update_of_ne hj _ _, rfl⟩)
      id (fun j hj => (List.mem_erase_of_ne hj).2) (fun hopen => ?_) fun hnil => ?_
    · cases hk.held i hopen with
      | atHand h hadd => exact .atHand h hadd
      | listed ho _ => exact .dropped ho (Function.update_self _ _ _)
      | dropped ho _ => exact .dropped ho (Function.update_self _ _ _)
      | closing h => exact .closing h
      | stopping rest h => exact .stopping rest h
    · show s.clients.erase i = []
      rw [hnil]
      rfl
  · cases h

theorem Kept.close (hk : s.Kept) (h : s.step (.close i) = some s') : s'.Kept := by
  simp only [Acceptor.step] at h
  split at h
  · cases h
    refine hk.other (i := i) rfl rfl (fun j hj => ⟨rfl, Function.update_of_ne hj _ _,
      Function.update_of_ne hj _ _, Function.update_of_ne hj _ _⟩) (fun ho => ?_)
      (fun _ _ => id) (fun _ => .closing (Function.update_self _ _ _)) id
    have ho : Function.update s.isOpen i false i = true := ho
    rw [Function.update_self] at ho
    cases ho
  · next hunknown =>
    split at h
    · cases h
      refine hk.other (i := i) rfl rfl (fun j hj => ⟨rfl, rfl, Function.update_of_ne hj _ _, rfl⟩)
        id (fun _ _ => id) (fun hopen => ?_) id
      -- the compare-and-set has failed, so another thread is at it
      cases hk.held i hopen with
      | atHand h hadd => exact .atHand h hadd
      | listed ho h => exact .listed ho h
      | closing h => exact .closing h
      | stopping rest h => exact .stopping rest h
      | dropped ho _ =>
        have hadd : s.loop = .add i := by
          by_contra hne
          exact hunknown ⟨ho, hne⟩
        exact .atHand (by show s.loop.atHand = _; rw [hadd]; rfl) fun _ => ho
    · cases h

theorem Kept.otherThread (hk : s.Kept) {e : AcceptEvent}
    (he : e = .drop i ∨ e = .close i ∨ e = .closeSocket i ∨ e = .remove i)
    (h : s.step e = some s') : s'.Kept := by
  rcases he with rfl | rfl | rfl | rfl
  · exact hk.drop h
  · exact hk.close h
  · simp only [Acceptor.step] at h
    split at h
    · cases h
      refine hk.other (i := i) rfl rfl (fun j hj => ⟨Function.update_of_ne hj _ _, rfl, rfl,
        Function.update_of_ne hj _ _⟩) id (fun _ _ => id) (fun hopen => ?_) id
      have hopen : Function.update s.socketOpen i false i = true := hopen
      rw [Function.update_self] at hopen
      cases hopen
    · cases h
  · simp only [Acceptor.step] at h
    split at h
    · cases h
    · next hclosed =>
      cases h
      refine hk.other (i := i) rfl rfl (fun j _ => ⟨rfl, rfl, rfl, rfl⟩) id
        (fun j hj => (List.mem_erase_of_ne hj).2) (fun hopen => ?_) fun hnil => ?_
      · exact (hk.held i hopen).frame (.inl rfl) (.inl rfl) rfl rfl rfl
          fun ho => absurd ho hclosed
      · show s.clients.erase i = []
        rw [hnil]
        rfl

/-- Every tidy step keeps every open socket in somebody's hands. -/
theorem Kept.step (hk : s.Kept) {e : AcceptEvent} (ht : s.tidy e = true) (h : s.step e = some s') :
    s'.Kept := by
  cases e with
  | loop ok => exact hk.loopStep ht h
  | stopBridge => exact hk.stopStep h
  | drop i => exact hk.otherThread (.inl rfl) h
  | close i => exact hk.otherThread (.inr (.inl rfl)) h
  | closeSocket i => exact hk.otherThread (.inr (.inr (.inl rfl))) h
  | remove i => exact hk.otherThread (.inr (.inr (.inr rfl))) h

theorem kept_fresh : Kept {} :=
  ⟨fun i hi => Bool.noConfusion hi, fun i hi => (by cases hi), fun hc => (by cases hc)⟩

theorem loopStep_others (h : s.loopStep ok = some s') :
    s'.dropped = s.dropped ∧ s'.closing = s.closing := by
  unfold Acceptor.loopStep at h
  cases hl : s.loop with
  | done =>
    rw [hl] at h
    cases h
  | accept =>
    rw [hl] at h
    dsimp only at h
    split at h
    · cases h
      exact ⟨rfl, rfl⟩
    split at h
    · cases h
      exact ⟨rfl, rfl⟩
    · cases h
  | bind | newConnection i | refused i =>
    rw [hl] at h
    obtain rfl := Option.some.inj h
    split
    · exact ⟨rfl, rfl⟩
    · exact ⟨rfl, rfl⟩
  | assignSocket | test | checkLimit i | setTcpNoDelay i | closeQuietly i | add i | start i
  | closeSocket i | remove i | closeServer | clearRunning =>
    rw [hl] at h
    cases h
    exact ⟨rfl, rfl⟩

theorem stopStep_others (h : s.stopStep = some s') :
    s'.dropped = s.dropped ∧ s'.closing = s.closing := by
  unfold Acceptor.stopStep at h
  split at h
  · cases h
    exact ⟨rfl, rfl⟩
  · cases h
    exact ⟨rfl, rfl⟩
  · cases h
    exact ⟨rfl, rfl⟩
  · obtain rfl := Option.some.inj h
    split
    · exact ⟨rfl, rfl⟩
    · exact ⟨rfl, rfl⟩
  · cases h
    exact ⟨rfl, rfl⟩
  · cases h
    exact ⟨rfl, rfl⟩
  · cases h
    exact ⟨rfl, rfl⟩
  · cases h
    exact ⟨rfl, rfl⟩
  · cases h

/-- No other thread is at a connection. -/
structure Alone (s : Acceptor) : Prop where
  dropped : ∀ i, s.dropped i = false
  closing : ∀ i, s.closing i = false

theorem Alone.step (ha : s.Alone) {e : AcceptEvent} (he : ofLoopOrStop e = true)
    (h : s.step e = some s') : s'.Alone := by
  have hsame : s'.dropped = s.dropped ∧ s'.closing = s.closing := by
    cases e with
    | loop ok => exact loopStep_others h
    | stopBridge => exact stopStep_others h
    | drop i | close i | closeSocket i | remove i => cases he
  exact ⟨fun i => by rw [hsame.1, ha.dropped], fun i => by rw [hsame.2, ha.closing]⟩

/-- **No client survives a stop** in a run in which every connection is added
before `stopBridge` goes through the list, and no `setTcpNoDelay` fails: once the
loop and `stopBridge` have finished, the list is empty and the sockets are closed,
those apart that another thread is closing. -/
theorem noneSurvives_of_tidy {es : List AcceptEvent} (h : Trace.exec step {} es = some s)
    (ht : Trace.Along step (fun s e => s.tidy e = true) {} es) (hloop : s.loop = .done)
    (hstop : s.stop = .done) :
    s.NoneSurvives ∧ ((∀ e ∈ es, ofLoopOrStop e = true) → ∀ i, s.socketOpen i = false) := by
  have hk : s.Kept := Trace.exec_invariant (fun _ _ _ hk ht h => hk.step ht h) kept_fresh ht h
  have hnone : s.NoneSurvives := by
    refine ⟨hk.cleared (by rw [hstop]; rfl), fun i hi => ?_⟩
    cases hk.held i hi with
    | atHand h _ =>
      rw [hloop] at h
      cases h
    | listed _ h =>
      rw [toClose, hstop] at h
      cases h
    | dropped _ h => exact .inl h
    | closing h => exact .inr h
    | stopping rest h =>
      rw [hstop] at h
      cases h
  refine ⟨hnone, fun halone i => Bool.eq_false_iff.2 fun hi => ?_⟩
  have ha : s.Alone := Trace.exec_invariant (fun _ _ _ ha he h => ha.step he h)
    ⟨fun _ => rfl, fun _ => rfl⟩ (Trace.along_of_forall halone) h
  rcases hnone.closed i hi with hdropped | hclosing
  · rw [ha.dropped] at hdropped
    cases hdropped
  · rw [ha.closing] at hclosing
    cases hclosing

end Kept

/-! ## A client that is added in time, and one that is not -/

/-- The accept loop from its start to the connection of its first client. -/
def firstClient : List AcceptEvent := List.replicate 7 (.loop true)

/-- The client is added and started; `stopBridge` runs, and the loop ends. -/
def addedInTime : List AcceptEvent :=
  firstClient ++ List.replicate 2 (.loop true) ++ List.replicate 8 .stopBridge ++
    List.replicate 3 (.loop true)

/-- `stopBridge` runs before the client is added. -/
def addedTooLate : List AcceptEvent :=
  firstClient ++ List.replicate 6 .stopBridge ++ List.replicate 5 (.loop true)

theorem addedInTime_noneSurvives :
    ∃ s, Trace.exec step {} addedInTime = some s ∧ s.NoneSurvives ∧ ∀ i, s.socketOpen i = false := by
  have hall : ∀ e ∈ addedInTime, ofLoopOrStop e = true := List.all_eq_true.1 rfl
  have hnone := @noneSurvives_of_tidy _ addedInTime rfl (Trace.along_of_check (by decide)) rfl rfl
  exact ⟨_, rfl, hnone.1, hnone.2 hall⟩

/-- The client's socket is open and the client in the list after both have
finished. -/
theorem addedTooLate_survives :
    ∃ s, Trace.exec step {} addedTooLate = some s ∧ s.loop = .done ∧ s.stop = .done ∧
      ¬ s.NoneSurvives := by
  refine ⟨_, rfl, rfl, rfl, fun h => ?_⟩
  rcases h.closed 0 rfl with hdropped | hclosing
  · cases hdropped
  · cases hclosing

end Acceptor

end AdsbBridge.Service
