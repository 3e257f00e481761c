import AdsbBridge.Lib.HttpMessage
import AdsbBridge.Service.Broadcast
import AdsbBridge.Store.Calls

/-! # Answers of the feed server

`handleAircraftJsonClient`: what is read of a request, what of it the answer depends
on, and that a client reads the answer as it was meant. A read that times out and a
write that fails end the exchange without an answer and are left out. -/
namespace AdsbBridge.Service.Http
open AdsbBridge.Lib AdsbBridge.Store

/-! ## The server -/

/-- `getBytes(StandardCharsets.UTF_8)`. -/
def utf8 (t : Text) : List UInt8 := t.flatMap String.utf8EncodeChar

/-- `ok` of `handleAircraftJsonClient`. -/
def asksForFeed : Option Text → Bool
  | none => false
  | some requestLine =>
    "GET /aircraft.json ".toList.isPrefixOf requestLine ||
      "GET /aircraft.json?".toList.isPrefixOf requestLine

def notFound : Text := "\x7b\"error\":\"not found\"\x7d".toList

def responseHead (ok : Bool) (bodyLength : ℕ) : Text :=
  (if ok then "HTTP/1.1 200 OK\r\n".toList else "HTTP/1.1 404 Not Found\r\n".toList) ++
    "Content-Type: application/json; charset=utf-8\r\n".toList ++
    "Cache-Control: no-store\r\n".toList ++
    "Connection: close\r\n".toList ++
    "Content-Length: ".toList ++ Text.ofNat bodyLength ++ "\r\n\r\n".toList

/-- `handleAircraftJsonClient` on what a client sends; `writeJson` is `root.toString()`. -/
def handleAircraftJsonClient (writeJson : AircraftJson → Text) (store : BridgeAircraftStore)
    (nowMs : ℤ) (stream : List UInt8) : BridgeAircraftStore × List UInt8 :=
  let ok := asksForFeed (readHttpRequestLine stream).1
  let (store, body) :=
    if ok then
      let (store, json) := store.toAircraftJson nowMs
      (store, writeJson json)
    else (store, notFound)
  let bodyBytes := utf8 body
  (store, encodeAscii (responseHead ok bodyBytes.length) ++ bodyBytes)

/-! ## The answer as a message -/

def response (ok : Bool) (body : List UInt8) : HttpMessage.Message where
  start := encodeAscii (if ok then "HTTP/1.1 200 OK".toList else "HTTP/1.1 404 Not Found".toList)
  headers :=
    [(encodeAscii "Content-Type".toList, encodeAscii "application/json; charset=utf-8".toList),
      (encodeAscii "Cache-Control".toList, encodeAscii "no-store".toList),
      (encodeAscii "Connection".toList, encodeAscii "close".toList),
      (HttpMessage.contentLength, HttpMessage.writeNat body.length)]
  body := body

theorem encodeAscii_append (t u : Text) : encodeAscii (t ++ u) = encodeAscii t ++ encodeAscii u :=
  List.map_append

theorem encodeAscii_ofNat (n : ℕ) : encodeAscii (Text.ofNat n) = HttpMessage.writeNat n := by
  refine List.map_congr_left fun c hc => if_pos ?_
  have hdigit := Text.ofNat_isDigit hc
  simp only [Char.isDigit, Bool.and_eq_true, decide_eq_true_iff] at hdigit
  have hhigh : c.toNat ≤ 57 := UInt32.le_iff_toNat_le.1 hdigit.2
  exact Nat.lt_of_le_of_lt hhigh (by decide)

/-- What the server writes is this message. -/
theorem write_response (ok : Bool) (body : List UInt8) :
    encodeAscii (responseHead ok body.length) ++ body = HttpMessage.write (response ok body) := by
  have hstart : encodeAscii (if ok then "HTTP/1.1 200 OK\r\n".toList
      else "HTTP/1.1 404 Not Found\r\n".toList) =
      HttpMessage.endLine (response ok body).start := by
    cases ok <;> rfl
  simp only [responseHead, encodeAscii_append, encodeAscii_ofNat, hstart]
  simp only [HttpMessage.write, response, List.map_cons, List.map_nil, List.flatMap_cons,
    List.flatMap_nil, List.append_assoc, HttpMessage.headerLine, HttpMessage.endLine]
  rfl

theorem not_mem_writeNat {b : UInt8} (hb : b < 48) (n : ℕ) : b ∉ HttpMessage.writeNat n := by
  intro hmem
  rw [← encodeAscii_ofNat] at hmem
  obtain ⟨c, hc, rfl⟩ := List.mem_map.1 hmem
  have hdigit := Text.ofNat_isDigit hc
  simp only [Char.isDigit, Bool.and_eq_true, decide_eq_true_iff] at hdigit
  have hlow : 48 ≤ c.toNat := UInt32.le_iff_toNat_le.1 hdigit.1
  have hhigh : c.toNat ≤ 57 := UInt32.le_iff_toNat_le.1 hdigit.2
  rw [if_pos (by omega), UInt8.lt_iff_toNat_lt, UInt8.toNat_ofNat'] at hb
  have : (48 : UInt8).toNat = 48 := rfl
  omega

theorem sound_response (ok : Bool) (body : List UInt8) : (response ok body).Sound where
  start := by cases ok <;> exact ⟨by simp [response, encodeAscii], by simp [response, encodeAscii]⟩
  headers := by
    simp only [response, List.forall_mem_cons]
    refine ⟨by decide, by decide, by decide, ⟨by decide, ?_⟩, fun _ h => absurd h List.not_mem_nil⟩
    have hname : 13 ∉ HttpMessage.contentLength ++ [58, 32] := by decide
    rw [HttpMessage.headerLine, List.mem_append, not_or]
    exact ⟨hname, not_mem_writeNat (by decide) _⟩
  length := rfl

/-! ## The request -/

/-- A round of the loop that does not complete the header end. -/
theorem receive_cons {request rest : List UInt8} {m room : ℕ} {value : UInt8}
    (h : headerEndNext m value ≠ 4) :
    receive (room + 1) ⟨request, m, value :: rest⟩ =
      receive room ⟨request ++ [value], headerEndNext m value, rest⟩ := by
  rw [receive]
  exact if_neg h

/-- A byte within a line, other than a carriage return. -/
theorem headerEndNext_of_even {m : ℕ} (hm : m = 0 ∨ m = 2) {value : UInt8} (hvalue : value ≠ cr) :
    headerEndNext m value = 0 := by
  rw [headerEndNext, if_neg fun h => hvalue h.2, if_neg, if_neg hvalue]
  rintro ⟨hodd, -⟩
  omega

/-- Reading a line, up to its end. -/
theorem receive_line {line : List UInt8} (hne : line ≠ []) (hline : cr ∉ line)
    (request rest : List UInt8) {m : ℕ} (hm : m = 0 ∨ m = 2) (room : ℕ) :
    receive (room + line.length) ⟨request, m, line ++ rest⟩ = receive room ⟨request ++ line, 0, rest⟩ := by
  induction line generalizing request m with
  | nil => exact absurd rfl hne
  | cons value line ih =>
    obtain ⟨hvalue, hline⟩ := not_or.1 (mt List.mem_cons.2 hline)
    have hzero := headerEndNext_of_even hm (Ne.symm hvalue)
    rw [List.cons_append, List.length_cons, ← Nat.add_assoc, receive_cons (by rw [hzero]; decide), hzero]
    cases line with
    | nil => rfl
    | cons value' line =>
      rw [ih (by simp) hline _ (.inl rfl), List.append_assoc, List.singleton_append]

/-- Reading lines that are not empty, and the empty one behind them. -/
theorem receive_lines {lines : List (List UInt8)} (h : ∀ line ∈ lines, line ≠ [] ∧ cr ∉ line)
    (request rest : List UInt8) {m : ℕ} (hm : m = 2 ∨ m = 0 ∧ lines ≠ []) {room : ℕ}
    (hroom : (lines.flatMap HttpMessage.endLine ++ crlf).length ≤ room) :
    receive room ⟨request, m, lines.flatMap HttpMessage.endLine ++ crlf ++ rest⟩ =
      ⟨request ++ (lines.flatMap HttpMessage.endLine ++ crlf), 4, rest⟩ := by
  induction lines generalizing request m room with
  | nil =>
    obtain rfl : m = 2 := hm.resolve_right fun hm => hm.2 rfl
    obtain ⟨room, rfl⟩ := Nat.exists_eq_add_of_le' hroom
    show (⟨request ++ [cr] ++ [lf], 4, rest⟩ : Received) = _
    rw [List.append_assoc]
    rfl
  | cons line lines ih =>
    obtain ⟨⟨hne, hline⟩, hlines⟩ := List.forall_mem_cons.1 h
    have hstream : (line :: lines).flatMap HttpMessage.endLine ++ crlf =
        line ++ (cr :: lf :: (lines.flatMap HttpMessage.endLine ++ crlf)) := by
      simp [HttpMessage.endLine, cr, lf]
    rw [hstream] at hroom ⊢
    rw [List.length_append, List.length_cons, List.length_cons] at hroom
    obtain ⟨room, rfl⟩ := Nat.exists_eq_add_of_le' hroom
    have heven : m = 0 ∨ m = 2 := hm.symm.imp_left And.left
    rw [List.append_assoc, Nat.add_comm line.length, ← Nat.add_assoc,
      receive_line hne hline _ _ heven, ← Nat.add_assoc, ← Nat.add_assoc, List.cons_append,
      List.cons_append, receive_cons (by decide), receive_cons (by decide)]
    refine (ih hlines _ (.inl rfl) (Nat.le_add_left _ _)).trans ?_
    simp [List.append_assoc]

theorem lineEnd_append {line : List UInt8} (hline : cr ∉ line) (rest : List UInt8) :
    lineEnd (line ++ cr :: lf :: rest) = some line.length := by
  rw [lineEnd, List.find?_range_eq_some]
  refine ⟨?_, ?_, fun i hi => ?_⟩
  · simp
  · simp
  · have hbyte : (line ++ cr :: lf :: rest).getD i 0 ≠ cr := by
      rw [List.getD_append _ _ _ _ hi, List.getD_eq_getElem _ _ hi]
      exact fun heq => hline (heq ▸ List.getElem_mem hi)
    rw [beq_false_of_ne hbyte]
    rfl

def requestHead (line : List UInt8) (lines : List (List UInt8)) : List UInt8 :=
  (line :: lines).flatMap HttpMessage.endLine ++ crlf

/-- **The server hears what a request asks for**, and reads nothing behind its head. -/
theorem readHttpRequestLine_head {line : List UInt8} {lines : List (List UInt8)}
    (h : ∀ l ∈ line :: lines, l ≠ [] ∧ cr ∉ l)
    (hlen : (requestHead line lines).length ≤ maxHttpRequestBytes) (rest : List UInt8) :
    readHttpRequestLine (requestHead line lines ++ rest) = (some (usAscii line), rest) := by
  have hreceive := receive_lines h [] rest (.inr ⟨rfl, by simp⟩) hlen
  have hhead : requestHead line lines =
      line ++ cr :: lf :: (lines.flatMap HttpMessage.endLine ++ crlf) := by
    simp [requestHead, HttpMessage.endLine, cr, lf]
  obtain ⟨hne, hline⟩ := h line List.mem_cons_self
  rw [readHttpRequestLine, requestHead, hreceive, List.nil_append, ← requestHead, Received.line,
    if_neg fun hfull => hfull.2 rfl, hhead, lineEnd_append hline]
  dsimp only
  rw [if_neg (by simpa using hne), List.take_left]

def AsksForFeed (line : List UInt8) : Prop :=
  encodeAscii "GET /aircraft.json ".toList <+: line ∨ encodeAscii "GET /aircraft.json?".toList <+: line

theorem toNat_ofNat_ascii : ∀ n < 128, (Char.ofNat n).toNat = n := by decide

/-- The letters of a word in front of a line are those of its bytes. -/
theorem isPrefixOf_usAscii {word : Text} (h : (word.all fun c => c.toNat < 128) = true)
    (line : List UInt8) :
    word.isPrefixOf (usAscii line) = true ↔ encodeAscii word <+: line := by
  induction word generalizing line with
  | nil => exact iff_of_true rfl List.nil_prefix
  | cons c word ih =>
    obtain ⟨hc, hword⟩ := Bool.and_eq_true_iff.1 h
    have hc : c.toNat < 128 := of_decide_eq_true hc
    cases line with
    | nil => simp [usAscii, encodeAscii]
    | cons b line =>
      have hbyte : (UInt8.ofNat c.toNat).toNat = c.toNat := by
        rw [UInt8.toNat_ofNat']
        exact Nat.mod_eq_of_lt (Nat.lt_of_lt_of_le hc (by decide))
      have hletter : c = (if b < 128 then Char.ofNat b.toNat else '\uFFFD') ↔
          (if c.toNat < 128 then UInt8.ofNat c.toNat else 63) = b := by
        rw [if_pos hc]
        constructor
        · intro heq
          split at heq
          · next hb =>
            rw [heq, toNat_ofNat_ascii _ (UInt8.lt_iff_toNat_lt.1 hb), UInt8.ofNat_toNat]
          · rw [heq] at hc
            exact absurd hc (by decide)
        · intro heq
          rw [← heq, if_pos (UInt8.lt_iff_toNat_lt.2 (by rw [hbyte]; exact hc)), hbyte, Char.ofNat_toNat]
      have hrest := ih hword line
      rw [usAscii, encodeAscii] at hrest ⊢
      rw [List.map_cons, List.map_cons, List.isPrefixOf_cons_cons, Bool.and_eq_true, beq_iff_eq,
        List.cons_prefix_cons, hrest, hletter]

/-- **What a client reads of the feed server.** Whatever it sends, the answer is one whole
message, of which no beginning passes for one: the feed if it is asked for, and a refusal
that leaves the store alone otherwise. A request with a head of at most 8192 bytes asks for
the feed exactly if its first line says so. -/
theorem client_reads_answer (writeJson : AircraftJson → Text) (store : BridgeAircraftStore)
    (nowMs : ℤ) (stream : List UInt8) :
    let ok := asksForFeed (readHttpRequestLine stream).1
    let answer := handleAircraftJsonClient writeJson store nowMs stream
    (∃ m, HttpMessage.read answer.2 = some (m, []) ∧
      m.start = encodeAscii
        (if ok then "HTTP/1.1 200 OK".toList else "HTTP/1.1 404 Not Found".toList) ∧
      (answer.1, m.body) = if ok then
          ((store.toAircraftJson nowMs).1, utf8 (writeJson (store.toAircraftJson nowMs).2))
        else (store, utf8 notFound)) ∧
      (∀ part, part <+: answer.2 → part ≠ answer.2 → HttpMessage.read part = none) ∧
      ∀ line lines rest, (∀ l ∈ line :: lines, l ≠ [] ∧ cr ∉ l) →
        (requestHead line lines).length ≤ maxHttpRequestBytes →
        stream = requestHead line lines ++ rest → (ok = true ↔ AsksForFeed line) := by
  intro ok answer
  let body := if ok then utf8 (writeJson (store.toAircraftJson nowMs).2) else utf8 notFound
  have hanswer : answer.2 = HttpMessage.write (response ok body) := by
    rw [← write_response]
    simp only [answer, handleAircraftJsonClient, ok, body]
    split <;> rfl
  have hsound := sound_response ok body
  refine ⟨⟨response ok body, ?_, rfl, ?_⟩, ?_, ?_⟩
  · have hread := HttpMessage.read_write hsound []
    rwa [List.append_nil, ← hanswer] at hread
  · simp only [answer, handleAircraftJsonClient, ok, response, body]
    split <;> rfl
  · intro part hpart hproper
    rw [hanswer] at hpart hproper
    exact HttpMessage.read_beginning hsound hpart hproper
  · rintro line lines rest h hlen rfl
    simp only [ok, readHttpRequestLine_head h hlen, asksForFeed, Bool.or_eq_true, AsksForFeed]
    exact or_congr (isPrefixOf_usAscii rfl line) (isPrefixOf_usAscii rfl line)

end AdsbBridge.Service.Http
