import Mathlib.Data.List.Basic
import AdsbBridge.Lib.Text

/-! # HTTP messages

A message is a first line, header lines and a body whose length a header tells. What
was written is read back, whatever follows it; and a reader that has only the beginning
of a message notices that something is missing. -/
namespace AdsbBridge.Lib.HttpMessage

/-! ## Words before a pair of letters -/

section Pair

variable {α : Type} [DecidableEq α] {a b : α} {word rest stream : List α}

/-- What stands before the first `a` with a `b` behind it, and what follows them. -/
def splitAtPair (a b : α) : List α → Option (List α × List α)
  | x :: y :: rest =>
    if x = a ∧ y = b then some ([], rest)
    else (splitAtPair a b (y :: rest)).map fun found => (x :: found.1, found.2)
  | _ => none

/-- The word comes back if it does not hold `a`. -/
theorem splitAtPair_append (h : a ∉ word) (rest : List α) :
    splitAtPair a b (word ++ a :: b :: rest) = some (word, rest) := by
  induction word with
  | nil => exact if_pos ⟨rfl, rfl⟩
  | cons x word ih =>
    obtain ⟨hx, hword⟩ := not_or.1 (mt List.mem_cons.2 h)
    have ih := ih hword
    cases hnext : word ++ a :: b :: rest with
    | nil => simp at hnext
    | cons y tail =>
      rw [hnext] at ih
      rw [List.cons_append, hnext, splitAtPair, if_neg fun heq => hx heq.1.symm, ih]
      rfl

/-- More behind the stream changes nothing before. -/
theorem splitAtPair_extend (h : splitAtPair a b stream = some (word, rest)) (more : List α) :
    splitAtPair a b (stream ++ more) = some (word, rest ++ more) := by
  induction stream generalizing word with
  | nil => cases h
  | cons x stream ih =>
    cases stream with
    | nil => cases h
    | cons y stream =>
      rw [splitAtPair] at h
      rw [List.cons_append, List.cons_append, splitAtPair]
      split at h
      · next hpair =>
        cases h
        rw [if_pos hpair]
      · next hpair =>
        obtain ⟨⟨word', rest'⟩, hfound, hsame⟩ := Option.map_eq_some_iff.1 h
        cases hsame
        rw [if_neg hpair]
        exact congrArg (Option.map _) (ih hfound)

end Pair

/-! ## Messages -/

structure Message where
  start : List UInt8
  headers : List (List UInt8 × List UInt8)
  body : List UInt8

def endLine (line : List UInt8) : List UInt8 := line ++ [13, 10]

/-- `name: value`. -/
def headerLine (header : List UInt8 × List UInt8) : List UInt8 := header.1 ++ [58, 32] ++ header.2

def write (m : Message) : List UInt8 :=
  (m.start :: m.headers.map headerLine).flatMap endLine ++ endLine [] ++ m.body

def writeNat (n : ℕ) : List UInt8 := (Text.ofNat n).map fun c => UInt8.ofNat c.toNat

def readNat (digits : List UInt8) : Option ℕ :=
  if digits ≠ [] ∧ digits.all (fun b => 48 ≤ b && b ≤ 57) then
    some (Nat.ofDigitChars 10 (digits.map fun b => Char.ofNat b.toNat) 0)
  else none

/-- `Content-Length`. -/
def contentLength : List UInt8 :=
  [67, 111, 110, 116, 101, 110, 116, 45, 76, 101, 110, 103, 116, 104]

/-- The lines up to an empty one; `fuel` bounds their number. -/
def readLines : ℕ → List UInt8 → Option (List (List UInt8) × List UInt8)
  | 0, _ => none
  | fuel + 1, stream =>
    (splitAtPair 13 10 stream).bind fun (line, rest) =>
      if line.isEmpty then some ([], rest)
      else (readLines fuel rest).map fun (lines, rest) => (line :: lines, rest)

/-- The message at the front of a stream, and what follows it. -/
def read (stream : List UInt8) : Option (Message × List UInt8) :=
  (readLines stream.length stream).bind fun (lines, rest) =>
    lines.head?.bind fun start =>
      (lines.tail.mapM (splitAtPair 58 32)).bind fun headers =>
        ((headers.lookup contentLength).bind readNat).bind fun length =>
          if length ≤ rest.length then some (⟨start, headers, rest.take length⟩, rest.drop length)
          else none

/-- No line is empty or holds a carriage return, no name a colon, and the length of the
body is among the headers. -/
structure Message.Sound (m : Message) : Prop where
  start : m.start ≠ [] ∧ 13 ∉ m.start
  headers : ∀ header ∈ m.headers, 58 ∉ header.1 ∧ 13 ∉ headerLine header
  length : m.headers.lookup contentLength = some (writeNat m.body.length)

section

variable {m : Message} {lines : List (List UInt8)} {rest stream : List UInt8}

theorem readNat_writeNat (n : ℕ) : readNat (writeNat n) = some n := by
  have hdigit : ∀ c ∈ Text.ofNat n, 48 ≤ c.toNat ∧ c.toNat ≤ 57 := by
    intro c hc
    have h := Text.ofNat_isDigit hc
    simp only [Char.isDigit, Bool.and_eq_true, decide_eq_true_iff] at h
    exact ⟨UInt32.le_iff_toNat_le.1 h.1, UInt32.le_iff_toNat_le.1 h.2⟩
  have hbyte : ∀ c ∈ Text.ofNat n, (UInt8.ofNat c.toNat).toNat = c.toNat := by
    intro c hc
    rw [UInt8.toNat_ofNat']
    exact Nat.mod_eq_of_lt (Nat.lt_of_le_of_lt (hdigit c hc).2 (by decide))
  have hall : (writeNat n).all (fun b => 48 ≤ b && b ≤ 57) = true := by
    refine List.all_eq_true.2 fun b hb => ?_
    obtain ⟨c, hc, rfl⟩ := List.mem_map.1 hb
    rw [Bool.and_eq_true, decide_eq_true_iff, decide_eq_true_iff, UInt8.le_iff_toNat_le,
      UInt8.le_iff_toNat_le, hbyte c hc]
    exact hdigit c hc
  have hchars : (writeNat n).map (fun b => Char.ofNat b.toNat) = Text.ofNat n := by
    rw [writeNat, List.map_map]
    refine (List.map_congr_left fun c hc => ?_).trans (List.map_id _)
    rw [Function.comp_apply, hbyte c hc, Char.ofNat_toNat]
    rfl
  rw [readNat, if_pos ⟨fun hnil => Text.ofNat_ne_nil n (List.map_eq_nil_iff.1 hnil), hall⟩, hchars,
    Text.ofNat, Nat.ofDigitChars_ten_toDigits]

/-- The lines come back, and what follows the empty line. -/
theorem readLines_append {fuel : ℕ} (h : ∀ line ∈ lines, line ≠ [] ∧ 13 ∉ line)
    (hfuel : lines.length < fuel) (rest : List UInt8) :
    readLines fuel (lines.flatMap endLine ++ endLine [] ++ rest) = some (lines, rest) := by
  induction lines generalizing fuel with
  | nil =>
    obtain ⟨fuel, rfl⟩ := Nat.exists_eq_add_one.2 hfuel
    rfl
  | cons line lines ih =>
    obtain ⟨fuel, rfl⟩ := Nat.exists_eq_add_one.2 (Nat.zero_lt_of_lt hfuel)
    obtain ⟨⟨hne, hline⟩, hlines⟩ := List.forall_mem_cons.1 h
    have hstream : (line :: lines).flatMap endLine ++ endLine [] ++ rest =
        line ++ 13 :: 10 :: (lines.flatMap endLine ++ endLine [] ++ rest) := by
      simp [endLine]
    rw [readLines, hstream, splitAtPair_append hline, Option.bind_some]
    dsimp only
    rw [if_neg (by simpa using hne), ih hlines (Nat.lt_of_succ_lt_succ hfuel)]
    rfl

theorem readLines_extend {fuel fuel' : ℕ} (h : readLines fuel stream = some (lines, rest))
    (hfuel : fuel ≤ fuel') (more : List UInt8) :
    readLines fuel' (stream ++ more) = some (lines, rest ++ more) := by
  induction fuel generalizing fuel' stream lines with
  | zero => cases h
  | succ fuel ih =>
    obtain ⟨fuel', rfl⟩ := Nat.exists_eq_add_one.2 (Nat.lt_of_lt_of_le (Nat.succ_pos fuel) hfuel)
    obtain ⟨⟨line, after⟩, hline, h⟩ := Option.bind_eq_some_iff.1 h
    rw [readLines, splitAtPair_extend hline, Option.bind_some]
    dsimp only at h ⊢
    split at h
    · next hempty =>
      cases h
      rw [if_pos hempty]
    · next hempty =>
      obtain ⟨⟨lines', rest'⟩, hrest, hsame⟩ := Option.map_eq_some_iff.1 h
      cases hsame
      rw [if_neg hempty, ih hrest (Nat.le_of_succ_le_succ hfuel)]
      rfl

theorem readHeaders_write (h : ∀ header ∈ m.headers, 58 ∉ header.1 ∧ 13 ∉ headerLine header) :
    (m.headers.map headerLine).mapM (splitAtPair 58 32) = some m.headers := by
  generalize m.headers = headers at h
  induction headers with
  | nil => rfl
  | cons header headers ih =>
    obtain ⟨hheader, hheaders⟩ := List.forall_mem_cons.1 h
    have hline : headerLine header = header.1 ++ 58 :: 32 :: header.2 := by simp [headerLine]
    rw [List.map_cons, List.mapM_cons, hline, splitAtPair_append hheader.1, ih hheaders]
    rfl

/-- **What was written is read**, whatever follows it. -/
theorem read_write (h : m.Sound) (rest : List UInt8) : read (write m ++ rest) = some (m, rest) := by
  have hlines : ∀ line ∈ m.start :: m.headers.map headerLine, line ≠ [] ∧ 13 ∉ line := by
    refine List.forall_mem_cons.2 ⟨h.start, fun line hline => ?_⟩
    obtain ⟨header, hheader, rfl⟩ := List.mem_map.1 hline
    exact ⟨by simp [headerLine], (h.headers header hheader).2⟩
  have hfuel : (m.start :: m.headers.map headerLine).length < (write m ++ rest).length := by
    have hends : ∀ lines : List (List UInt8), lines.length ≤ (lines.flatMap endLine).length := by
      intro lines
      induction lines with
      | nil => exact Nat.le_refl _
      | cons line lines ih =>
        rw [List.flatMap_cons, List.length_append, List.length_cons, endLine, List.length_append,
          List.length_cons]
        omega
    have hlong := hends (m.start :: m.headers.map headerLine)
    simp only [write, List.length_append, endLine, List.length_cons] at hlong ⊢
    omega
  rw [read, write, List.append_assoc _ m.body, readLines_append hlines]
  · simp only [Option.bind_some, List.head?_cons, List.tail_cons, readHeaders_write h.headers,
      h.length, readNat_writeNat, List.length_append, Nat.le_add_right, if_true, List.take_left,
      List.drop_left]
  · rwa [write, List.append_assoc _ m.body] at hfuel

/-- A message that was read stays the first one of a longer stream. -/
theorem read_extend (h : read stream = some (m, rest)) (more : List UInt8) :
    read (stream ++ more) = some (m, rest ++ more) := by
  obtain ⟨⟨lines, after⟩, hlines, h⟩ := Option.bind_eq_some_iff.1 h
  obtain ⟨start, hstart, h⟩ := Option.bind_eq_some_iff.1 h
  obtain ⟨headers, hheaders, h⟩ := Option.bind_eq_some_iff.1 h
  obtain ⟨length, hlength, h⟩ := Option.bind_eq_some_iff.1 h
  have hmore : stream.length ≤ (stream ++ more).length := by
    rw [List.length_append]
    exact Nat.le_add_right _ _
  rw [read, readLines_extend hlines hmore]
  simp only [Option.bind_some, hstart, hheaders, hlength]
  split at h
  · next hle =>
    cases h
    rw [if_pos (by rw [List.length_append]; exact Nat.le_add_right_of_le hle),
      List.take_append_of_le_length hle, List.drop_append_of_le_length hle]
  · cases h

/-- **The beginning of a message is not taken for a message.** -/
theorem read_beginning (h : m.Sound) {beginning : List UInt8} (hpart : beginning <+: write m)
    (hproper : beginning ≠ write m) : read beginning = none := by
  obtain ⟨missing, hmissing⟩ := hpart
  cases hread : read beginning with
  | none => rfl
  | some found =>
    obtain ⟨m', rest⟩ := found
    have hall := read_extend hread missing
    have hwhole := read_write h []
    rw [List.append_nil] at hwhole
    rw [hmissing, hwhole] at hall
    cases missing with
    | nil => exact absurd (by rwa [List.append_nil] at hmissing) hproper
    | cons b missing => simp at hall

end

end AdsbBridge.Lib.HttpMessage
