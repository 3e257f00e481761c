import Mathlib.Data.List.GetD
import Mathlib.Order.Bounds.Basic
import AdsbBridge.Lib.Overlap
import AdsbBridge.Lib.Text

/-! # Reading a request

`readHttpRequestLine`. A stream is the bytes a client sends until it closes its
side; a read past them is `-1`. -/
namespace AdsbBridge.Service.Http
open AdsbBridge.Lib

def maxHttpRequestBytes : ℕ := 8192

def cr : UInt8 := 13

def lf : UInt8 := 10

/-- What one byte makes of `headerEndMatch`. -/
def headerEndNext (headerEndMatch : ℕ) (value : UInt8) : ℕ :=
  if (headerEndMatch = 0 ∨ headerEndMatch = 2) ∧ value = cr then headerEndMatch + 1
  else if (headerEndMatch = 1 ∨ headerEndMatch = 3) ∧ value = lf then headerEndMatch + 1
  else if value = cr then 1 else 0

/-- The `count` bytes in `request`, the matcher and the bytes not read yet. -/
structure Received where
  request : List UInt8
  headerEndMatch : ℕ
  unread : List UInt8

/-- The loop `while (count < request.length)`; `room` is what is left of the
buffer. -/
def receive : ℕ → Received → Received
  | 0, r => r
  | room + 1, r =>
    match r.unread with
    | [] => r
    | value :: rest =>
      let r : Received := ⟨r.request ++ [value], headerEndNext r.headerEndMatch value, rest⟩
      if r.headerEndMatch = 4 then r else receive room r

/-- The search for the first line end; `none` is `-1`. -/
def lineEnd (request : List UInt8) : Option ℕ :=
  (List.range (request.length - 1)).find? fun i =>
    request.getD i 0 == cr && request.getD (i + 1) 0 == lf

/-- `new String(bytes, StandardCharsets.US_ASCII)`. -/
def usAscii (bytes : List UInt8) : Text :=
  bytes.map fun b => if b < 128 then Char.ofNat b.toNat else '\uFFFD'

def Received.line (received : Received) : Option Text :=
  if received.request.length = maxHttpRequestBytes ∧ received.headerEndMatch ≠ 4 then none
  else
    match lineEnd received.request with
    | none => none
    | some lineEnd => if lineEnd = 0 then none else some (usAscii (received.request.take lineEnd))

/-- `readHttpRequestLine`, with what it leaves of the stream. -/
def readHttpRequestLine (input : List UInt8) : Option Text × List UInt8 :=
  let received := receive maxHttpRequestBytes ⟨[], 0, input⟩
  (received.line, received.unread)

/-! ## The words of a request -/

def crlf : List UInt8 := [cr, lf]

def headerEnd : List UInt8 := crlf ++ crlf

/-- Where reading may stop: after a header end, with a full buffer, or at the
end of the stream. -/
def Stops (stream : List UInt8) (n : ℕ) : Prop :=
  headerEnd <:+ stream.take n ∨ n = maxHttpRequestBytes ∨ n = stream.length

structure FirstLine (bytes line : List UInt8) : Prop where
  ends : line ++ crlf <+: bytes
  first : ∀ earlier, earlier ++ crlf <+: bytes → line.length ≤ earlier.length

/-! ## The matcher -/

/-- The four states of the matcher and the two letters. -/
theorem headerEndNext_letters : ∀ m < 4,
    Shows headerEnd (headerEnd.take m ++ [cr]) (headerEndNext m cr) ∧
      Shows headerEnd (headerEnd.take m ++ [lf]) (headerEndNext m lf) := by
  decide

/-- **One round keeps the matcher at the longest front of the header end.** -/
theorem shows_headerEndNext {read : List UInt8} {m : ℕ} (h : Shows headerEnd read m) (hm : m ≠ 4)
    (value : UInt8) : Shows headerEnd (read ++ [value]) (headerEndNext m value) := by
  have hlt : m < 4 := Nat.lt_of_le_of_ne h.le hm
  by_cases hcr : value = cr
  · rw [hcr]
    exact h.next (headerEndNext_letters m hlt).1
  · by_cases hlf : value = lf
    · rw [hlf]
      exact h.next (headerEndNext_letters m hlt).2
    · have hnext : headerEndNext m value = 0 := by
        rw [headerEndNext, if_neg fun hc => hcr hc.2, if_neg fun hc => hlf hc.2, if_neg hcr]
      rw [hnext]
      refine Shows.of_not_mem (fun hmem => ?_) read
      simp only [headerEnd, crlf, List.cons_append, List.nil_append, List.mem_cons,
        List.not_mem_nil, or_false] at hmem
      rcases hmem with h | h | h | h
      · exact hcr h
      · exact hlf h
      · exact hcr h
      · exact hlf h

/-! ## The loop -/

/-- In the middle of a stream: what was read, and that nothing stopped the
loop before. -/
structure Reads (stream : List UInt8) (r : Received) : Prop where
  content : r.request ++ r.unread = stream
  shows : Shows headerEnd r.request r.headerEndMatch
  open_ : ∀ n < r.request.length, ¬ Stops stream n

variable {stream : List UInt8} {r : Received}

theorem Reads.take (h : Reads stream r) : stream.take r.request.length = r.request := by
  rw [← h.content, List.take_left]

theorem Reads.drop (h : Reads stream r) : stream.drop r.request.length = r.unread := by
  rw [← h.content, List.drop_left]

theorem Reads.length (h : Reads stream r) :
    stream.length = r.request.length + r.unread.length := by
  rw [← h.content, List.length_append]

/-- Where the matcher is complete the header ends. -/
theorem Reads.ended_iff (h : Reads stream r) :
    r.headerEndMatch = 4 ↔ headerEnd <:+ stream.take r.request.length := by
  rw [h.take]
  exact h.shows.eq_length_iff

/-- **One round reads one byte**, if there is one and nothing stops the loop. -/
theorem Reads.next (h : Reads stream r) {value : UInt8} {rest : List UInt8}
    (hunread : r.unread = value :: rest) (hm : r.headerEndMatch ≠ 4)
    (hroom : r.request.length < maxHttpRequestBytes) :
    Reads stream ⟨r.request ++ [value], headerEndNext r.headerEndMatch value, rest⟩ := by
  refine ⟨?_, shows_headerEndNext h.shows hm value, ?_⟩
  · rw [← h.content, hunread, List.append_assoc, List.singleton_append]
  · intro n hn
    rw [List.length_append, List.length_singleton] at hn
    rcases Nat.lt_succ_iff_lt_or_eq.1 hn with hlt | heq
    · exact h.open_ n hlt
    · have hlen := h.length
      rw [hunread, List.length_cons] at hlen
      rw [heq]
      intro hended
      obtain hend | hfull | heof := hended
      · exact hm (h.ended_iff.2 hend)
      · omega
      · omega

/-- **The loop stops at the first place where it may.** -/
theorem Reads.receive (h : Reads stream r) (hm : r.headerEndMatch ≠ 4) {room : ℕ}
    (hroom : room + r.request.length = maxHttpRequestBytes) :
    Reads stream (receive room r) ∧ Stops stream (receive room r).request.length := by
  induction room generalizing r with
  | zero =>
    rw [Nat.zero_add] at hroom
    exact ⟨h, .inr (.inl hroom)⟩
  | succ room ih =>
    rw [Http.receive]
    cases hunread : r.unread with
    | nil =>
      have hlen := h.length
      rw [hunread, List.length_nil, Nat.add_zero] at hlen
      exact ⟨h, .inr (.inr hlen.symm)⟩
    | cons value rest =>
      have hnext := h.next hunread hm (by omega)
      simp only
      by_cases hend : headerEndNext r.headerEndMatch value = 4
      · rw [if_pos hend]
        exact ⟨hnext, .inl (hnext.ended_iff.1 hend)⟩
      · rw [if_neg hend]
        exact ih hnext hend (by rw [List.length_append, List.length_singleton]; omega)

theorem reads_start (stream : List UInt8) : Reads stream ⟨[], 0, stream⟩ :=
  ⟨rfl, Shows.nil headerEnd, fun n hn => absurd hn (Nat.not_lt_zero n)⟩

/-! ## The line -/

theorem crlf_at_iff {request : List UInt8} {i : ℕ} (hi : i < request.length - 1) :
    (request.getD i 0 == cr && request.getD (i + 1) 0 == lf) = true ↔
      request.take i ++ crlf <+: request := by
  have hsplit : request = request.take i ++ request.getD i 0 :: request.getD (i + 1) 0 ::
      request.drop (i + 2) := by
    conv_lhs => rw [← List.take_append_drop i request,
      List.drop_eq_getElem_cons (show i < request.length by omega),
      List.drop_eq_getElem_cons (show i + 1 < request.length by omega)]
    rw [List.getD_eq_getElem _ _ (show i < request.length by omega),
      List.getD_eq_getElem _ _ (show i + 1 < request.length by omega)]
  rw [Bool.and_eq_true, beq_iff_eq, beq_iff_eq]
  constructor
  · intro h
    obtain ⟨hcr, hlf⟩ := h
    refine ⟨request.drop (i + 2), ?_⟩
    conv_rhs => rw [hsplit, hcr, hlf]
    rw [crlf, List.append_assoc]
    rfl
  · intro h
    obtain ⟨rest, hrest⟩ := h
    rw [List.append_assoc] at hrest
    have htail := List.append_cancel_left (hrest.trans hsplit)
    rw [crlf] at htail
    injection htail with hcr htail
    injection htail with hlf
    exact ⟨hcr.symm, hlf.symm⟩

/-- A stretch that ends in front of a line end. -/
theorem eq_take_of_crlf {request earlier : List UInt8} (h : earlier ++ crlf <+: request) :
    earlier.length < request.length - 1 ∧ request.take earlier.length = earlier := by
  have hlen := h.length_le
  rw [List.length_append, show crlf.length = 2 from rfl] at hlen
  obtain ⟨rest, rfl⟩ := h
  refine ⟨by omega, ?_⟩
  rw [List.append_assoc, List.take_left]

theorem lineEnd_eq_none {request : List UInt8} (h : lineEnd request = none) :
    ¬ crlf <:+: request := by
  intro hinfix
  obtain ⟨earlier, rest, hin⟩ := hinfix
  have hpre : earlier ++ crlf <+: request := ⟨rest, hin⟩
  obtain ⟨hi, htake⟩ := eq_take_of_crlf hpre
  rw [lineEnd, List.find?_range_eq_none] at h
  have hno := h earlier.length hi
  rw [← htake] at hpre
  rw [(crlf_at_iff hi).2 hpre] at hno
  cases hno

/-- **The search finds the first line.** -/
theorem lineEnd_eq_some {request : List UInt8} {i : ℕ} (h : lineEnd request = some i) :
    FirstLine request (request.take i) ∧ (request.take i).length = i := by
  rw [lineEnd, List.find?_range_eq_some] at h
  obtain ⟨hat, hi, hfirst⟩ := h
  rw [List.mem_range] at hi
  have hlen : (request.take i).length = i := by rw [List.length_take]; omega
  refine ⟨⟨(crlf_at_iff hi).1 hat, fun earlier hpre => ?_⟩, hlen⟩
  rw [hlen]
  by_contra hlt
  obtain ⟨hj, htake⟩ := eq_take_of_crlf hpre
  have hno := hfirst earlier.length (Nat.lt_of_not_le hlt)
  rw [← htake] at hpre
  rw [(crlf_at_iff hj).2 hpre] at hno
  cases hno

/-- What no answer means for the bytes read. -/
def NoLine (consumed : List UInt8) : Prop :=
  (consumed.length = maxHttpRequestBytes ∧ ¬ headerEnd <:+ consumed) ∨
    ¬ crlf <:+: consumed ∨ crlf <+: consumed

theorem lineEnd_eq_some_zero {request : List UInt8} :
    lineEnd request = some 0 ↔ crlf <+: request := by
  constructor
  · intro h
    exact (lineEnd_eq_some h).1.ends
  · intro h
    cases hline : lineEnd request with
    | none => exact absurd h.isInfix (lineEnd_eq_none hline)
    | some i =>
      obtain ⟨hfirst, hlen⟩ := lineEnd_eq_some hline
      have hle := hfirst.first [] h
      rw [hlen, List.length_nil] at hle
      rw [Nat.le_zero.1 hle]

theorem line_eq_none_iff (h : r.headerEndMatch = 4 ↔ headerEnd <:+ r.request) :
    r.line = none ↔ NoLine r.request := by
  rw [Received.line, NoLine, ← h]
  by_cases hfull : r.request.length = maxHttpRequestBytes ∧ r.headerEndMatch ≠ 4
  · rw [if_pos hfull]
    exact ⟨fun _ => .inl hfull, fun _ => rfl⟩
  · rw [if_neg hfull, or_iff_right hfull, ← lineEnd_eq_some_zero]
    cases hline : lineEnd r.request with
    | none => exact ⟨fun _ => .inl (lineEnd_eq_none hline), fun _ => rfl⟩
    | some i =>
      have hin : crlf <:+: r.request := by
        obtain ⟨rest, hrest⟩ := (lineEnd_eq_some hline).1.ends
        exact ⟨_, rest, hrest⟩
      simp only
      by_cases hzero : i = 0
      · rw [if_pos hzero, hzero]
        exact ⟨fun _ => .inr rfl, fun _ => rfl⟩
      · rw [if_neg hzero]
        refine ⟨fun hnone => (by cases hnone), ?_⟩
        intro hcases
        obtain hno | hsome := hcases
        · exact absurd hin hno
        · exact absurd (Option.some.inj hsome) hzero

theorem line_eq_some {answer : Text} (h : r.line = some answer) :
    ∃ line, FirstLine r.request line ∧ answer = usAscii line := by
  rw [Received.line] at h
  split at h
  · cases h
  · split at h
    · cases h
    · next i hline =>
      split at h
      · cases h
      · cases h
        exact ⟨_, (lineEnd_eq_some hline).1, rfl⟩

/-- **Request reading is exact.** It consumes the stream up to the first place
where it may stop, has no answer for a full buffer without a header end, for
bytes without a line end and for an empty first line, and answers the first
line otherwise. -/
theorem readHttpRequestLine_exact (stream : List UInt8) :
    ∃ n, IsLeast {n | Stops stream n} n ∧ (readHttpRequestLine stream).2 = stream.drop n ∧
      ((readHttpRequestLine stream).1 = none ↔ NoLine (stream.take n)) ∧
      ∀ answer, (readHttpRequestLine stream).1 = some answer →
        ∃ line, FirstLine (stream.take n) line ∧ answer = usAscii line := by
  have hroom : maxHttpRequestBytes + (⟨[], 0, stream⟩ : Received).request.length =
      maxHttpRequestBytes := rfl
  obtain ⟨hreads, hstops⟩ := (reads_start stream).receive (fun h => (by cases h)) hroom
  refine ⟨_, ⟨hstops, fun k hk => Nat.le_of_not_lt fun hlt => hreads.open_ k hlt hk⟩,
    hreads.drop.symm, ?_, fun answer hanswer => ?_⟩
  · have hended := hreads.ended_iff
    rw [hreads.take] at hended ⊢
    exact line_eq_none_iff hended
  · rw [hreads.take]
    exact line_eq_some hanswer

end AdsbBridge.Service.Http
