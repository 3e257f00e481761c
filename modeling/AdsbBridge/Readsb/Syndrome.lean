import AdsbBridge.Readsb.ErrorTable
import AdsbBridge.Slicing

/-! # The distance of the code

The checksum is linear: wrong bits add their syndromes to it. The syndromes of
up to five places of a long message never add up to zero. Odd numbers of them
have odd parity, as the generator is a multiple of `x + 1`. For four, the last
place may be taken to be the last of the message, and then the sums of two
syndromes are kept apart from those of the other two by a hash. -/
namespace AdsbBridge.Readsb
open AdsbBridge.Lib AdsbBridge.Frame

/-! ## Linearity -/

section

variable {rem rem' byte byte' : ℕ}

theorem crcByte_xor (hrem : rem < 2 ^ 24) (hrem' : rem' < 2 ^ 24) (hbyte : byte < 256)
    (hbyte' : byte' < 256) :
    crcByte (rem ^^^ rem') (byte ^^^ byte') = crcByte rem byte ^^^ crcByte rem' byte' := by
  rw [crcByte_eq (Nat.xor_lt_two_pow hrem hrem') (Nat.xor_lt_two_pow (n := 8) hbyte hbyte'),
    crcByte_eq hrem hbyte, crcByte_eq hrem' hbyte', crcShifts, ← Crc.shifts_xor,
    Nat.shiftLeft_xor_distrib]
  congr 1
  rw [Nat.xor_assoc, Nat.xor_assoc, ← Nat.xor_assoc rem', Nat.xor_comm rem', Nat.xor_assoc]

theorem crcByte_lt (rem byte : ℕ) : crcByte rem byte < 2 ^ 24 := by
  rw [crcByte, mask_eq]
  exact Nat.mod_lt _ (Nat.two_pow_pos 24)

theorem foldl_crcByte_lt (data : ℕ → ℕ) (n : ℕ) :
    (List.range n).foldl (fun rem i => crcByte rem (data i)) 0 < 2 ^ 24 := by
  cases n with
  | zero => exact Nat.two_pow_pos 24
  | succ n =>
    rw [List.range_succ, List.foldl_append]
    exact crcByte_lt _ _

/-- **The checksum of a sum of messages** is the sum of their checksums. -/
theorem modesChecksum_xor {data data' : ℕ → ℕ} (h : ∀ i, data i < 256) (h' : ∀ i, data' i < 256)
    (bits : ℕ) :
    modesChecksum (fun i => data i ^^^ data' i) bits =
      modesChecksum data bits ^^^ modesChecksum data' bits := by
  have hrem : ∀ n, (List.range n).foldl (fun rem i => crcByte rem (data i ^^^ data' i)) 0 =
      (List.range n).foldl (fun rem i => crcByte rem (data i)) 0 ^^^
        (List.range n).foldl (fun rem i => crcByte rem (data' i)) 0 := by
    intro n
    induction n with
    | zero => exact (Nat.xor_self 0).symm
    | succ n ih =>
      have hlt := foldl_crcByte_lt data n
      have hlt' := foldl_crcByte_lt data' n
      simp only [List.range_succ, List.foldl_append, List.foldl_cons, List.foldl_nil, ih]
      exact crcByte_xor hlt hlt' (h n) (h' n)
  have hswap : ∀ a b c d : ℕ, a ^^^ b ^^^ (c ^^^ d) = a ^^^ c ^^^ (b ^^^ d) := by
    intro a b c d
    rw [Nat.xor_assoc, Nat.xor_assoc, ← Nat.xor_assoc b, Nat.xor_comm b, Nat.xor_assoc]
  have hfour : ∀ r r' a a' b b' c c' : ℕ, r ^^^ r' ^^^ (a ^^^ a') ^^^ (b ^^^ b') ^^^ (c ^^^ c') =
      r ^^^ a ^^^ b ^^^ c ^^^ (r' ^^^ a' ^^^ b' ^^^ c') := by
    intro r r' a a' b b' c c'
    rw [hswap r r' a a', hswap (r ^^^ a), hswap (r ^^^ a ^^^ b)]
  simp only [modesChecksum, hrem, Nat.shiftLeft_xor_distrib]
  exact hfour _ _ _ _ _ _ _ _

end

/-! ## Wrong bits -/

section

variable {message : Message} {bit : ℕ}

theorem and_seven (bit : ℕ) : bit &&& 7 = bit % 8 := Nat.and_two_pow_sub_one_eq_mod bit 3

theorem shiftRight_three (bit : ℕ) : bit >>> 3 = bit / 8 := Nat.shiftRight_eq_div_pow bit 3

theorem singleBit_lt (bit i : ℕ) : (if i = bit / 8 then 1 <<< (7 - (bit &&& 7)) else 0) < 256 := by
  split
  · rw [Nat.shiftLeft_eq, Nat.one_mul]
    exact lt_of_le_of_lt (Nat.pow_le_pow_right (by omega) (Nat.sub_le 7 _)) (by decide)
  · exact Nat.succ_pos _

theorem toNat_xor_one_shiftLeft (value : UInt8) {k : ℕ} (hk : k < 8) :
    (value ^^^ (1 <<< UInt8.ofNat k)).toNat = value.toNat ^^^ 1 <<< k := by
  rw [UInt8.toNat_xor, toNat_one_shiftLeft k hk, Nat.shiftLeft_eq, Nat.one_mul]

theorem msg_flipBit (hbit : bit < 112) (i : ℕ) :
    msg (flipBit message bit) i =
      msg message i ^^^ (if i = bit / 8 then 1 <<< (7 - (bit &&& 7)) else 0) := by
  rw [msg, flipBit, shiftRight_three, byte_setByte message (by omega)]
  by_cases hi : bit / 8 = i
  · rw [if_pos hi, if_pos hi.symm, toNat_xor_one_shiftLeft _ (by omega), hi]
    rfl
  · rw [if_neg hi, if_neg (Ne.symm hi), Nat.xor_zero]
    rfl

theorem isSet_flipBit (hbit : bit < 112) (i : ℕ) :
    isSet (flipBit message bit) i = (isSet message i ^^ decide (i = bit)) := by
  rw [isSet_eq, isSet_eq]
  show (msg (flipBit message bit) (i / 8)).testBit (7 - i % 8) = _
  rw [msg_flipBit hbit, Nat.testBit_xor]
  congr 1
  split
  · next hbyte =>
    rw [and_seven, Nat.one_shiftLeft, Nat.testBit_two_pow, decide_eq_decide]
    omega
  · next hbyte =>
    rw [Nat.zero_testBit, eq_comm, decide_eq_false_iff_not]
    rintro rfl
    exact hbyte rfl

/-- Short messages are the end of long ones. -/
theorem modesChecksum_singleBit : ∀ bits ∈ [56, 112], ∀ bit < bits,
    modesChecksum (fun j => if j = bit / 8 then 1 <<< (7 - (bit &&& 7)) else 0) bits =
      singleBitSyndrome (bit + (112 - bits)) := by
  decide +kernel

variable {bits : ℕ}

/-- A wrong bit adds its syndrome. -/
theorem modesChecksum_flipBit (hbits : bits = 56 ∨ bits = 112) (hbit : bit < bits) :
    modesChecksum (msg (flipBit message bit)) bits =
      modesChecksum (msg message) bits ^^^ singleBitSyndrome (bit + (112 - bits)) := by
  rw [← modesChecksum_singleBit bits (by simpa using hbits) bit hbit,
    ← modesChecksum_xor (msg_lt message) (singleBit_lt bit)]
  congr 1
  funext i
  exact msg_flipBit (by omega) i

/-- **Wrong bits add the syndrome of their pattern.** -/
theorem modesChecksum_modesChecksumFix (hbits : bits = 56 ∨ bits = 112) (message : Message)
    {info : ErrorInfo} (hinfo : ∀ i ∈ info, i < bits) :
    modesChecksum (msg (modesChecksumFix message info)) bits =
      modesChecksum (msg message) bits ^^^ errorSyndrome bits info := by
  induction info generalizing message with
  | nil => exact (Nat.xor_zero _).symm
  | cons bit info ih =>
    rw [modesChecksumFix, List.foldl_cons, ← modesChecksumFix,
      ih _ fun i hi => hinfo i (List.mem_cons_of_mem bit hi),
      modesChecksum_flipBit hbits (hinfo bit List.mem_cons_self), errorSyndrome, errorSyndrome,
      xorSum_cons, Nat.xor_assoc]

theorem errorSyndrome_long (p : List ℕ) : errorSyndrome 112 p = xorSum singleBitSyndrome p :=
  xorSum_congr _ fun i _ => by rw [Nat.sub_self, Nat.add_zero]

theorem isSet_modesChecksumFix {info : ErrorInfo} (hnodup : info.Nodup)
    (hinfo : ∀ i ∈ info, i < 112) (i : ℕ) :
    isSet (modesChecksumFix message info) i = (isSet message i ^^ decide (i ∈ info)) := by
  induction info generalizing message with
  | nil => simp [modesChecksumFix]
  | cons bit info ih =>
    obtain ⟨hnotin, hnodup⟩ := List.nodup_cons.1 hnodup
    rw [modesChecksumFix, List.foldl_cons, ← modesChecksumFix,
      ih hnodup fun j hj => hinfo j (List.mem_cons_of_mem bit hj),
      isSet_flipBit (hinfo bit List.mem_cons_self), Bool.xor_assoc]
    congr 1
    by_cases hi : i = bit
    · subst hi
      simp [hnotin]
    · simp [hi]

def differences (sent received : Message) : List ℕ :=
  (List.range messageBits).filter fun i => isSet sent i != isSet received i

theorem isPattern_differences (sent received : Message) :
    IsPattern 0 112 (differences sent received) :=
  IsPattern.filter_range _ messageBits

theorem mem_differences {sent received : Message} {i : ℕ} :
    i ∈ differences sent received ↔ i < 112 ∧ isSet sent i ≠ isSet received i := by
  simp [differences, messageBits]

/-- What was received is what was sent with the bits turned over in which they differ. -/
theorem modesChecksumFix_differences (sent received : Message) :
    modesChecksumFix sent (differences sent received) = received := by
  refine ext_isSet fun i hi => ?_
  have hpattern := isPattern_differences sent received
  rw [isSet_modesChecksumFix hpattern.nodup fun j hj => (hpattern.within j hj).2]
  by_cases hdiffer : isSet sent i = isSet received i
  · rw [decide_eq_false fun hmem => (mem_differences.1 hmem).2 hdiffer, Bool.xor_false, hdiffer]
  · rw [decide_eq_true (mem_differences.2 ⟨hi, hdiffer⟩), Bool.xor_true]
    cases hsent : isSet sent i <;> cases hreceived : isSet received i <;> simp_all

/-- Turning bits over twice leaves them as they were. -/
theorem modesChecksumFix_modesChecksumFix (message : Message) {info : ErrorInfo} (hnodup : info.Nodup)
    (hinfo : ∀ i ∈ info, i < 112) :
    modesChecksumFix (modesChecksumFix message info) info = message := by
  refine ext_isSet fun i _ => ?_
  rw [isSet_modesChecksumFix hnodup hinfo, isSet_modesChecksumFix hnodup hinfo, Bool.xor_assoc,
    Bool.xor_self, Bool.xor_false]

theorem modesChecksumFix_received (sent received : Message) :
    modesChecksumFix received (differences sent received) = sent := by
  have hpattern := isPattern_differences sent received
  have hback := modesChecksumFix_modesChecksumFix sent hpattern.nodup
    fun i hi => (hpattern.within i hi).2
  rwa [modesChecksumFix_differences] at hback

end

/-! ## The syndromes of single bits -/

/-- `single_bit_syndrome`, computed once: the table of the other decoders, and the
places of the parity. -/
def syndromes : List ℕ := modesChecksumTable ++ (List.range 24).map fun i => 1 <<< (23 - i)

theorem singleBitSyndrome_eq_getD : ∀ i < 112, singleBitSyndrome i = syndromes.getD i 0 := by
  decide +kernel

theorem singleBitSyndrome_eq_crcShifts :
    ∀ i < 112, singleBitSyndrome i = crcShifts (111 - i) 1 := by
  decide +kernel

theorem singleBitSyndrome_lt : ∀ i < 112, singleBitSyndrome i < 2 ^ 24 := by
  decide +kernel

/-- Whether a register holds an odd number of ones. -/
def oddWeight (word : ℕ) : Bool := (List.range 24).foldl (fun odd i => odd ^^ word.testBit i) false

theorem oddWeight_xor (a b : ℕ) : oddWeight (a ^^^ b) = (oddWeight a ^^ oddWeight b) := by
  have hswap : ∀ x y z w : Bool, ((x ^^ y) ^^ (z ^^ w)) = ((x ^^ z) ^^ (y ^^ w)) := by decide
  have hrounds : ∀ n, (List.range n).foldl (fun odd i => odd ^^ (a ^^^ b).testBit i) false =
      ((List.range n).foldl (fun odd i => odd ^^ a.testBit i) false ^^
        (List.range n).foldl (fun odd i => odd ^^ b.testBit i) false) := by
    intro n
    induction n with
    | zero => rfl
    | succ n ih =>
      simp only [List.range_succ, List.foldl_append, List.foldl_cons, List.foldl_nil]
      rw [ih, Nat.testBit_xor]
      exact hswap _ _ _ _
  exact hrounds 24

theorem oddWeight_singleBitSyndrome : ∀ i < 112, oddWeight (singleBitSyndrome i) = true := by
  decide +kernel

/-- The parity of a syndrome tells the parity of the number of errors. -/
theorem oddWeight_xorSum {p : List ℕ} (h : ∀ i ∈ p, i < 112) :
    oddWeight (xorSum singleBitSyndrome p) = decide (p.length % 2 = 1) := by
  induction p with
  | nil => rfl
  | cons i p ih =>
    rw [xorSum_cons, oddWeight_xor, oddWeight_singleBitSyndrome i (h i List.mem_cons_self),
      ih fun j hj => h j (List.mem_cons_of_mem i hj), List.length_cons]
    rcases Nat.mod_two_eq_zero_or_one p.length with hp | hp
    · rw [hp, Nat.succ_mod_two_eq_one_iff.2 hp]
      rfl
    · rw [hp, Nat.succ_mod_two_eq_zero_iff.2 hp]
      rfl

/-! ## Four wrong bits -/

/-- A hash that keeps the sums of two syndromes apart from those with the last one. -/
def hash (word : ℕ) : ℕ := word % 68240

/-- The hashes of the sums of the last syndrome, 1, with another one. -/
def lastSums : ℕ := (syndromes.take 111).foldl (fun mask word => mask ||| 1 <<< hash (1 ^^^ word)) 0

/-- No two words of a list have a sum with one of these hashes. -/
def pairsMiss (mask : ℕ) : List ℕ → Bool
  | [] => true
  | word :: rest => (rest.all fun other => !mask.testBit (hash (word ^^^ other))) && pairsMiss mask rest

theorem pairsMiss_syndromes : pairsMiss lastSums (syndromes.take 111) = true := by decide +kernel

theorem testBit_of_pairsMiss {mask : ℕ} {words : List ℕ} (h : pairsMiss mask words = true) {i j : ℕ}
    (hij : i < j) (hj : j < words.length) :
    mask.testBit (hash (words.getD i 0 ^^^ words.getD j 0)) = false := by
  induction words generalizing i j with
  | nil => cases hj
  | cons word words ih =>
    obtain ⟨hfirst, hrest⟩ := Bool.and_eq_true_iff.1 h
    obtain ⟨j, rfl⟩ := Nat.exists_eq_succ_of_ne_zero (show j ≠ 0 by omega)
    have hj' : j < words.length := Nat.lt_of_succ_lt_succ hj
    cases i with
    | zero =>
      have hmem : words.getD j 0 ∈ words := by
        rw [List.getD_eq_getElem _ _ hj']
        exact List.getElem_mem hj'
      have hmiss := List.all_eq_true.1 hfirst _ hmem
      rwa [Bool.not_eq_true'] at hmiss
    | succ i => exact ih hrest (Nat.lt_of_succ_lt_succ hij) hj'

theorem testBit_foldl_or {f : ℕ → ℕ} {words : List ℕ} {word mask : ℕ} (h : word ∈ words) :
    (words.foldl (fun mask w => mask ||| 1 <<< f w) mask).testBit (f word) = true := by
  have hkeep : ∀ (words : List ℕ) (mask k : ℕ), mask.testBit k = true →
      (words.foldl (fun mask w => mask ||| 1 <<< f w) mask).testBit k = true := by
    intro words
    induction words with
    | nil => exact fun mask k hk => hk
    | cons w words ih =>
      intro mask k hk
      refine ih _ k ?_
      rw [Nat.testBit_or, hk, Bool.true_or]
  induction words generalizing mask with
  | nil => cases h
  | cons w words ih =>
    rcases List.mem_cons.1 h with rfl | hmem
    · refine hkeep words _ _ ?_
      rw [Nat.testBit_or, Nat.one_shiftLeft, Nat.testBit_two_pow_self, Bool.or_true]
    · exact ih hmem

/-- Four wrong bits, the last bit among them. -/
theorem xor_ne_xor_last {a b c : ℕ} (hab : a < b) (hb : b < 111) (hc : c < 111) :
    singleBitSyndrome a ^^^ singleBitSyndrome b ≠ 1 ^^^ singleBitSyndrome c := by
  have hlen : (syndromes.take 111).length = 111 := by decide
  have hget : ∀ i < 111, singleBitSyndrome i = (syndromes.take 111).getD i 0 := by
    intro i hi
    rw [singleBitSyndrome_eq_getD i (by omega), List.getD_eq_getElem?_getD,
      List.getD_eq_getElem?_getD, List.getElem?_take_of_lt hi]
  have hmem : singleBitSyndrome c ∈ syndromes.take 111 := by
    rw [hget c hc, List.getD_eq_getElem _ _ (by omega)]
    exact List.getElem_mem _
  intro heq
  have hmiss := testBit_of_pairsMiss pairsMiss_syndromes hab (by omega)
  rw [← hget a (by omega), ← hget b hb, heq, lastSums,
    testBit_foldl_or (f := fun word => hash (1 ^^^ word)) hmem] at hmiss
  cases hmiss

theorem singleBitSyndrome_ne_one : ∀ i < 111, singleBitSyndrome i ≠ 1 := by decide +kernel

/-! ## Up to five wrong bits -/

/-- The last wrong bit may be taken to be the last of the message. -/
theorem xorSum_eq_crcShifts {p : List ℕ} {last : ℕ} (hlast : last < 112) (hp : ∀ i ∈ p, i ≤ last) :
    xorSum singleBitSyndrome p =
      crcShifts (111 - last) (xorSum (fun i => singleBitSyndrome (i + (111 - last))) p) := by
  induction p with
  | nil => exact (Crc.shifts_zero _ _).symm
  | cons i p ih =>
    have hi := hp i List.mem_cons_self
    have hfirst : singleBitSyndrome i =
        crcShifts (111 - last) (singleBitSyndrome (i + (111 - last))) := by
      rw [singleBitSyndrome_eq_crcShifts i (by omega),
        singleBitSyndrome_eq_crcShifts _ (by omega), crcShifts, ← Crc.shifts_add]
      congr 1
      omega
    rw [xorSum_cons, xorSum_cons, ih fun j hj => hp j (List.mem_cons_of_mem i hj), crcShifts,
      Crc.shifts_xor, ← crcShifts, ← hfirst]

theorem xorSum_lt {p : List ℕ} (h : ∀ i ∈ p, i < 112) : xorSum singleBitSyndrome p < 2 ^ 24 := by
  induction p with
  | nil => exact Nat.two_pow_pos 24
  | cons i p ih =>
    rw [xorSum_cons]
    exact Nat.xor_lt_two_pow (singleBitSyndrome_lt i (h i List.mem_cons_self))
      (ih fun j hj => h j (List.mem_cons_of_mem i hj))

/-- An even number of errors, moved to the end of the message. -/
theorem xorSum_moved_eq_zero {p : List ℕ} {last : ℕ} (hlast : last < 112) (hp : ∀ i ∈ p, i ≤ last)
    (h : xorSum singleBitSyndrome p = 0) :
    xorSum singleBitSyndrome (p.map (· + (111 - last))) = 0 := by
  have hlt : xorSum singleBitSyndrome (p.map (· + (111 - last))) < 2 ^ 24 := by
    refine xorSum_lt fun j hj => ?_
    obtain ⟨i, hi, rfl⟩ := List.mem_map.1 hj
    have := hp i hi
    omega
  rw [xorSum_eq_crcShifts hlast hp, ← xorSum_map] at h
  exact Crc.eq_zero_of_shifts (by decide) (by decide) hlt h

theorem oddWeight_zero : oddWeight 0 = false := by decide

theorem even_of_xorSum_eq_zero {p : List ℕ} (h : ∀ i ∈ p, i < 112)
    (hzero : xorSum singleBitSyndrome p = 0) : p.length % 2 = 0 := by
  have hparity := oddWeight_xorSum h
  rw [hzero, oddWeight_zero, eq_comm, decide_eq_false_iff_not] at hparity
  omega

theorem xorSum_pattern_ne_zero {p : List ℕ} (hp : IsPattern 0 112 p) (hne : p ≠ [])
    (hlen : p.length ≤ 5) : xorSum singleBitSyndrome p ≠ 0 := by
  intro hzero
  have hlt : ∀ i ∈ p, i < 112 := fun i hi => (hp.within i hi).2
  have heven := even_of_xorSum_eq_zero hlt hzero
  rcases p with _ | ⟨a, _ | ⟨b, _ | ⟨c, _ | ⟨d, _ | ⟨e, p⟩⟩⟩⟩⟩
  · exact hne rfl
  · simp at heven
  · have hb : b < 112 := hlt b (by simp)
    have hab : a < b := (List.pairwise_cons.1 hp.increasing).1 b (by simp)
    have hmoved := xorSum_moved_eq_zero hb (by simp; omega) hzero
    simp only [List.map_cons, List.map_nil, xorSum_cons, xorSum_nil, Nat.xor_zero] at hmoved
    rw [show b + (111 - b) = 111 by omega, show singleBitSyndrome 111 = 1 by decide,
      xor_eq_zero_iff] at hmoved
    exact singleBitSyndrome_ne_one _ (by omega) hmoved
  · simp at heven
  · have hd : d < 112 := hlt d (by simp)
    obtain ⟨hafter, hinc⟩ := List.pairwise_cons.1 hp.increasing
    obtain ⟨hbfter, hinc⟩ := List.pairwise_cons.1 hinc
    have hab : a < b := hafter b (by simp)
    have hbc : b < c := hbfter c (by simp)
    have hcd : c < d := (List.pairwise_cons.1 hinc).1 d (by simp)
    have hmoved := xorSum_moved_eq_zero hd (by simp; omega) hzero
    simp only [List.map_cons, List.map_nil, xorSum_cons, xorSum_nil, Nat.xor_zero] at hmoved
    rw [show d + (111 - d) = 111 by omega, show singleBitSyndrome 111 = 1 by decide,
      ← Nat.xor_assoc, xor_eq_zero_iff, Nat.xor_comm _ 1] at hmoved
    exact xor_ne_xor_last (by omega) (by omega) (by omega) hmoved
  · simp only [List.length_cons] at hlen heven
    omega

/-- **The code has distance six**: up to five wrong bits change the checksum. -/
theorem xorSum_singleBitSyndrome_ne_zero {p : List ℕ} (hnodup : p.Nodup) (hlt : ∀ i ∈ p, i < 112)
    (hne : p ≠ []) (hlen : p.length ≤ 5) : xorSum singleBitSyndrome p ≠ 0 := by
  obtain ⟨q, hq, hperm⟩ := exists_isPattern_perm hnodup hlt
  rw [← xorSum_perm singleBitSyndrome hperm]
  refine xorSum_pattern_ne_zero hq ?_ (hperm.length_eq.trans_le hlen)
  rintro rfl
  exact hne (List.nil_perm.1 hperm)

/-- Different patterns of errors, five at most between them, have different syndromes. -/
theorem eq_of_xorSum_eq {p q : List ℕ} (hp : IsPattern 0 112 p) (hq : IsPattern 0 112 q)
    (hlen : p.length + q.length ≤ 5)
    (h : xorSum singleBitSyndrome p = xorSum singleBitSyndrome q) : p = q := by
  by_contra hne
  obtain ⟨places, hnodup, hlt, hnil, hfew, hzero⟩ :=
    exists_xorSum_eq_zero singleBitSyndrome hp hq hne h
  exact xorSum_singleBitSyndrome_ne_zero hnodup hlt hnil (hfew.trans hlen) hzero

end AdsbBridge.Readsb
