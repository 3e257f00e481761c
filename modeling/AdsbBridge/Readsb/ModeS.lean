import AdsbBridge.Readsb.Crc
import AdsbBridge.Readsb.IcaoFilter

/-! # Mode S messages

`scoreModesMessage` and `decodeModesMessage` of `mode_s.c`, as
`readsb_bridge_init` configures them: two bit errors are corrected, damaged
type fields repaired, and what cannot be checked is dropped. The memory of
addresses decides about messages whose checksum is overlaid with the address,
and `decodeModesMessage` is the one place that adds to it. -/
namespace AdsbBridge.Readsb
open AdsbBridge.Frame AdsbBridge.Fields

/-- What does not change after `readsb_bridge_init`, and the decoder of Comm-B
registers. -/
structure Env where
  tables : ErrorTables
  decodeCommB : Message → ModesMessage → ModesMessage
  trig : Trig

def modesMessageLenByType (type : ℕ) : ℕ := if type &&& 0x10 ≠ 0 then 112 else 56

/-- `!memcmp(all_zeros, msg, MODES_SHORT_MSG_BYTES)`. -/
def allZeros (message : Message) : Bool := (List.range 7).all fun i => msg message i = 0

/-- `fixDF17msgtype`: the message with the type field of a DF17, if that is one
bit away and the checksum then fits. -/
def fixDF17msgtype (message : Message) (msgtype : ℕ) : Option Message :=
  if msgtype ∈ [1, 25, 21, 19, 16] then
    let fixed := message.setByte 0 ((message.byte 0 &&& (7 : UInt8)) ||| ((17 : UInt8) <<< (3 : UInt8)))
    if modesChecksum (msg fixed) 112 = 0 then some fixed else none
  else none

section

variable (env : Env) (filter : IcaoFilter)

def scoreByType (message : Message) (msgtype msgbits crc : ℕ) : ℤ :=
  if msgtype ∈ [0, 4, 5, 16, 20, 21] then (if filter.test crc then 1000 else -1)
  else if msgtype = 11 then
    let addr := getbits (msg message) 9 32
    if crc &&& 0xffff80 ≠ 0 then
      match modesChecksumDiagnose env.tables crc msgbits with
      | none => -2
      | some ei =>
        if ei.length > 1 then -2
        else if filter.test (correctAaField addr ei) then 800 else -1
    else if crc &&& 0x7f = 0 then (if filter.test addr then 1600 else 750)
    else if filter.test addr then 1000 else -1
  else if msgtype = 17 ∨ msgtype = 18 then
    match modesChecksumDiagnose env.tables crc msgbits with
    | none => -2
    | some ei =>
      let addr := correctAaField (getbits (msg message) 9 32) ei
      (if filter.test addr then 1800 else 1400) / ((ei.length : ℤ) + 1)
  else -2

def scoreModesMessage (message : Message) (validbits : ℕ) : ℤ :=
  if validbits < 56 then -2
  else
    let msgtype := getbits (msg message) 1 5
    match if validbits ≥ 112 then fixDF17msgtype message msgtype else none with
    | some _ => if filter.test (getbits (msg message) 9 32) then 1800 / 2 else 1400 / 2
    | none =>
      let msgbits := modesMessageLenByType msgtype
      if validbits < msgbits then -2
      else if allZeros message then -2
      else scoreByType env filter message msgtype msgbits (modesChecksum (msg message) msgbits)

/-- Why a message is dropped: `-1` and `-2`. -/
inductive Rejection
  | unknownIcao
  | bad
  deriving DecidableEq, Repr

/-- What the checksum work of `decodeModesMessage` settles: the message, perhaps
corrected, `mm->addr` and the fields that say whether errors were seen. -/
structure Checked where
  message : Message
  addr : ℕ := hexUnknown
  correctedbits : ℕ
  iid : ℕ := 0

/-- The `switch` of `decodeModesMessage` on the checksum. -/
def checkCrc (message : Message) (msgtype msgbits crc correctedbits : ℕ) :
    Except Rejection Checked :=
  if msgtype ∈ [0, 4, 5, 16, 24, 25, 26, 27, 28, 29, 30, 31, 20, 21] then
    if filter.test crc then .ok { message, addr := crc, correctedbits } else .error .unknownIcao
  else if msgtype = 11 then
    if crc &&& 0xffff80 ≠ 0 then
      match modesChecksumDiagnose env.tables crc msgbits with
      | none => .error .bad
      | some ei =>
        if ei.length > 1 then .error .bad
        else
          let fixed := modesChecksumFix message ei
          if filter.test (getbits (msg fixed) 9 32) then
            .ok { message := fixed, correctedbits := ei.length }
          else .error .unknownIcao
    else .ok { message, correctedbits, iid := crc &&& 0x7f }
  else if msgtype = 17 ∨ msgtype = 18 then
    if crc ≠ 0 then
      match modesChecksumDiagnose env.tables crc msgbits with
      | none => .error .bad
      | some ei =>
        let fixed := modesChecksumFix message ei
        let addr1 := getbits (msg message) 9 32
        let addr2 := getbits (msg fixed) 9 32
        if addr1 ≠ addr2 ∧ filter.test addr2 = false then .error .unknownIcao
        else .ok { message := fixed, correctedbits := ei.length }
    else .ok { message, correctedbits }
  else .error .bad

/-- "Decode the bulk of the message". -/
def decodeBulk (msgtype : ℕ) (checked : Checked) : ModesMessage :=
  let message := checked.message
  let mm : ModesMessage := { msgtype, addr := checked.addr }
  let mm := if msgtype = 11 ∨ msgtype = 17 ∨ msgtype = 18 then
      { mm with aa := getbits (msg message) 9 32, addr := getbits (msg message) 9 32 }
    else mm
  let mm := if msgtype = 0 ∨ msgtype = 4 ∨ msgtype = 16 ∨ msgtype = 20 then
      let ac := getbits (msg message) 20 32
      if ac ≠ 0 then { mm with baroAlt := validAltitude (decodeAC13Field ac) } else mm
    else mm
  let mm := if (msgtype = 11 ∨ msgtype = 17) ∧ getbits (msg message) 6 8 = 4 then
      { mm with airground := .ground }
    else mm
  let mm := if msgtype = 18 then { mm with cf := getbits (msg message) 6 8 } else mm
  if msgtype = 20 ∨ msgtype = 21 then env.decodeCommB message mm
  else if msgtype = 17 ∨ msgtype = 18 then decodeExtendedSquitter env.trig (me message) mm
  else mm

/-- "NB this is the only place that adds addresses!" -/
def adds (msgtype : ℕ) (checked : Checked) : Bool :=
  checked.correctedbits == 0 && (msgtype == 17 || (msgtype == 11 && checked.iid == 0))

/-- `decodeModesMessage` up to its checksum work: the message type, repaired if
need be, and what was settled. -/
def checkMessage (message : Message) : Except Rejection (ℕ × Checked) :=
  if allZeros message then .error .bad
  else
    let msgtype := getbits (msg message) 1 5
    let (message, msgtype, correctedbits) :=
      match fixDF17msgtype message msgtype with
      | some fixed => (fixed, 17, 1)
      | none => (message, msgtype, 0)
    let msgbits := modesMessageLenByType msgtype
    let crc := modesChecksum (msg message) msgbits
    (checkCrc env filter message msgtype msgbits crc correctedbits).map fun checked =>
      (msgtype, checked)

/-- `decodeModesMessage`, with the memory of addresses it leaves behind. -/
def decodeModesMessage (message : Message) : Except Rejection ModesMessage × IcaoFilter :=
  match checkMessage env filter message with
  | .error rejection => (.error rejection, filter)
  | .ok (msgtype, checked) =>
    let mm := decodeBulk env msgtype checked
    (.ok mm, if adds msgtype checked then filter.add mm.addr else filter)

end

/-! ## The messages that are remembered -/

/-- An error-free DF17, or an error-free DF11 to interrogator 0. -/
def ErrorFree (message : Message) : Prop :=
  (getbits (msg message) 1 5 = 17 ∧ modesChecksum (msg message) 112 = 0) ∨
    (getbits (msg message) 1 5 = 11 ∧ modesChecksum (msg message) 56 = 0)

def Registers (message : Message) : Prop :=
  ErrorFree message ∧ getbits (msg message) 9 32 ≠ 0

instance (message : Message) : Decidable (ErrorFree message) :=
  inferInstanceAs (Decidable (_ ∨ _))

instance (message : Message) : Decidable (Registers message) :=
  inferInstanceAs (Decidable (_ ∧ _))

section

variable {env : Env} {filter : IcaoFilter} {message : Message} {checked : Checked}
  {msgtype msgbits crc correctedbits : ℕ}

/-- The low seven bits of the checksum of a DF11 name the interrogator. -/
theorem crc_eq_zero (hlt : crc < 2 ^ 24) (hhigh : crc &&& 0xffff80 = 0)
    (hlow : crc &&& 0x7f = 0) : crc = 0 := by
  have hall : crc &&& (0xffff80 ||| 0x7f) = 0 := by
    rw [Nat.and_or_distrib_left, hhigh, hlow]
    rfl
  have hself : crc &&& (2 ^ 24 - 1) = crc := by
    rw [Nat.and_two_pow_sub_one_eq_mod, Nat.mod_eq_of_lt hlt]
  rw [← hself]
  exact hall

/-- Only a checksum that fits at once is counted as free of errors. -/
theorem adds_checkCrc (hlt : crc < 2 ^ 24)
    (h : checkCrc env filter message msgtype msgbits crc correctedbits = .ok checked)
    (hadds : adds msgtype checked) :
    crc = 0 ∧ correctedbits = 0 ∧ (msgtype = 17 ∨ msgtype = 11) := by
  obtain ⟨hzero, htype⟩ : checked.correctedbits = 0 ∧
      (msgtype = 17 ∨ msgtype = 11 ∧ checked.iid = 0) := by
    simpa [adds] using hadds
  rcases htype with rfl | ⟨rfl, hiid⟩
  · by_cases hcrc : crc = 0
    · subst hcrc
      simp only [checkCrc] at h
      cases h
      exact ⟨rfl, hzero, .inl rfl⟩
    · simp [checkCrc, hcrc] at h
      split at h
      · cases h
      · next info hinfo =>
        split at h
        · cases h
        · cases h
          exact absurd (List.eq_nil_of_length_eq_zero hzero)
            (ne_nil_of_modesChecksumDiagnose hcrc hinfo)
  · by_cases hhigh : crc &&& 0xffff80 = 0
    · simp [checkCrc, hhigh] at h
      cases h
      exact ⟨crc_eq_zero hlt hhigh hiid, hzero, .inr rfl⟩
    · have hcrc : crc ≠ 0 := by
        rintro rfl
        exact hhigh (Nat.zero_and _)
      simp [checkCrc, hhigh] at h
      split at h
      · cases h
      · next info hinfo =>
        split at h
        · cases h
        · split at h
          · cases h
            exact absurd (List.eq_nil_of_length_eq_zero hzero)
              (ne_nil_of_modesChecksumDiagnose hcrc hinfo)
          · cases h

theorem checkCrc_of_fits (htype : msgtype = 17 ∨ msgtype = 11) :
    checkCrc env filter message msgtype msgbits 0 correctedbits =
      .ok { message, correctedbits } := by
  rcases htype with rfl | rfl <;> simp [checkCrc]

/-- The types of a DF17 and a DF11 are not repaired. -/
theorem fixDF17msgtype_eq_none (htype : msgtype = 17 ∨ msgtype = 11) :
    fixDF17msgtype message msgtype = none := by
  rcases htype with rfl | rfl <;> rfl

/-- A message that starts with a zero has type zero. -/
theorem allZeros_eq_false (htype : getbits (msg message) 1 5 ≠ 0) : allZeros message = false := by
  refine Bool.eq_false_iff.2 fun hzeros => htype ?_
  have hfirst : msg message 0 = 0 := by
    simpa using List.all_eq_true.1 hzeros 0 (by decide)
  show (msg message 0 &&& 0xff) >>> 3 = 0
  rw [hfirst]
  rfl

theorem checkMessage_of_errorFree (h : ErrorFree message) :
    checkMessage env filter message =
      .ok (getbits (msg message) 1 5, { message, correctedbits := 0 }) := by
  have htype : getbits (msg message) 1 5 = 17 ∨ getbits (msg message) 1 5 = 11 :=
    h.imp And.left And.left
  have hcrc : modesChecksum (msg message)
      (modesMessageLenByType (getbits (msg message) 1 5)) = 0 := by
    rcases h with ⟨ht, hsum⟩ | ⟨ht, hsum⟩ <;> rw [ht] <;> exact hsum
  unfold checkMessage
  rw [if_neg (by rw [allZeros_eq_false (by omega)]; exact Bool.false_ne_true)]
  simp only [fixDF17msgtype_eq_none htype, hcrc, checkCrc_of_fits htype]
  rfl

/-- What is added came without errors, and its type was not repaired. -/
theorem errorFree_of_adds (h : checkMessage env filter message = .ok (msgtype, checked))
    (hadds : adds msgtype checked) : ErrorFree message := by
  unfold checkMessage at h
  split at h
  · cases h
  · simp only at h
    split at h
    · next fixed _ =>
      cases hcheck : checkCrc env filter fixed 17 (modesMessageLenByType 17)
          (modesChecksum (msg fixed) (modesMessageLenByType 17)) 1 with
      | error rejection => rw [hcheck] at h; cases h
      | ok checked' =>
        rw [hcheck] at h
        cases h
        have := (adds_checkCrc (modesChecksum_lt (msg_lt fixed) _) hcheck hadds).2.1
        cases this
    · generalize htype : getbits (msg message) 1 5 = type at h
      cases hcheck : checkCrc env filter message type (modesMessageLenByType type)
          (modesChecksum (msg message) (modesMessageLenByType type)) 0 with
      | error rejection => rw [hcheck] at h; cases h
      | ok checked' =>
        rw [hcheck] at h
        cases h
        obtain ⟨hcrc, -, ht⟩ := adds_checkCrc (modesChecksum_lt (msg_lt message) _) hcheck hadds
        rcases ht with rfl | rfl
        · exact .inl ⟨htype, hcrc⟩
        · exact .inr ⟨htype, hcrc⟩

/-- The address of a message that is added is the one it announces. -/
theorem decodeBulk_addr (env : Env) (hadds : adds msgtype checked) :
    (decodeBulk env msgtype checked).addr = getbits (msg checked.message) 9 32 := by
  obtain ⟨-, htype⟩ : checked.correctedbits = 0 ∧
      (msgtype = 17 ∨ msgtype = 11 ∧ checked.iid = 0) := by
    simpa [adds] using hadds
  rcases htype with rfl | ⟨rfl, -⟩
  · simp [decodeBulk]
    rw [decodeExtendedSquitter_addr] <;> split <;> simp
  · simp [decodeBulk]
    split <;> rfl

/-- **What `decodeModesMessage` does to the memory of addresses.** -/
theorem decodeModesMessage_filter (env : Env) (filter : IcaoFilter) (message : Message) :
    (decodeModesMessage env filter message).2 =
      if Registers message then filter.add (getbits (msg message) 9 32) else filter := by
  by_cases hfree : ErrorFree message
  · have hadds : adds (getbits (msg message) 1 5) { message, correctedbits := 0 } := by
      rcases hfree with ⟨ht, -⟩ | ⟨ht, -⟩ <;> rw [ht] <;> rfl
    simp only [decodeModesMessage, checkMessage_of_errorFree hfree, decodeBulk_addr env hadds,
      if_pos hadds]
    by_cases haddr : getbits (msg message) 9 32 = 0
    · rw [if_neg (fun h => h.2 haddr), haddr]
      exact IcaoFilter.add_of_ignored (.inl rfl) filter
    · exact (if_pos ⟨hfree, haddr⟩).symm
  · rw [if_neg (fun h => hfree h.1), decodeModesMessage]
    cases h : checkMessage env filter message with
    | error rejection => rfl
    | ok result =>
      obtain ⟨msgtype, checked⟩ := result
      exact if_neg fun hadds => hfree (errorFree_of_adds h hadds)

/-- An announced address has 24 bits. -/
theorem announced_ne_hexUnknown (message : Message) :
    getbits (msg message) 9 32 ≠ hexUnknown := by
  have hlt := getBits_lt message 8 24
  rw [getbits_msg message (by decide) (by decide) (by decide)]
  exact fun h => absurd (h ▸ hlt) (by decide)

theorem remembers_of_registers (env : Env) (filter : IcaoFilter) (h : Registers message) :
    (decodeModesMessage env filter message).2.Remembers := by
  rw [decodeModesMessage_filter, if_pos h]
  refine filter.remembers_add ?_
  intro hinvalid
  obtain hzero | hunknown := hinvalid
  · exact h.2 hzero
  · exact announced_ne_hexUnknown message hunknown

theorem remembers_decodeModesMessage (env : Env) (message : Message) (h : filter.Remembers) :
    (decodeModesMessage env filter message).2.Remembers := by
  rw [decodeModesMessage_filter]
  split
  · exact h.add _
  · exact h

end

end AdsbBridge.Readsb
