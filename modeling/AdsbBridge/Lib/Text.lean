import Mathlib.Data.Rat.Floor
import Mathlib.Tactic.NormNum

/-! # Numbers as text

A text is a list of characters. The writers below are what `std::ostream` and
`String.format` print for an integer, a padded integer, a hexadecimal number
of fixed width and a number with a fixed number of decimals. Records are
fields joined by commas, and splitting takes such a record apart again as long
as no field holds a comma. -/
namespace AdsbBridge.Lib

abbrev Text := List Char

namespace Text

/-! ## Writers -/

def ofNat (n : ℕ) : Text := Nat.toDigits 10 n

def ofInt (v : ℤ) : Text := if v < 0 then '-' :: ofNat v.natAbs else ofNat v.natAbs

/-- `setw(width) << setfill(fill)`: fill in front up to a width. -/
def padLeft (width : ℕ) (fill : Char) (t : Text) : Text :=
  List.replicate (width - t.length) fill ++ t

def hexDigits : Vector Char 16 :=
  #v['0', '1', '2', '3', '4', '5', '6', '7', '8', '9', 'A', 'B', 'C', 'D', 'E', 'F']

/-- The low `width` hexadecimal digits of a number, in upper case. -/
def hexOf : ℕ → ℕ → Text
  | 0, _ => []
  | width + 1, n => hexOf width (n / 16) ++ [hexDigits[n % 16]]

/-- Rounding to the nearest integer, a tie to the even one. -/
def roundHalfEven (x : ℚ) : ℤ :=
  let lo := ⌊x⌋
  if x - lo < 1 / 2 then lo
  else if 1 / 2 < x - lo then lo + 1
  else if lo % 2 = 0 then lo else lo + 1

/-- Rounding to the nearest integer, a tie away from zero. -/
def roundHalfAway (x : ℚ) : ℤ := if x < 0 then -⌊-x + 1 / 2⌋ else ⌊x + 1 / 2⌋

/-- A number with `decimals` digits after the point, under the given rounding.
The sign is that of the number, also when it rounds to zero. -/
def fixed (round : ℚ → ℤ) (decimals : ℕ) (x : ℚ) : Text :=
  let scaled := (round (|x| * 10 ^ decimals)).natAbs
  let digits := ofNat (scaled / 10 ^ decimals) ++
    '.' :: padLeft decimals '0' (ofNat (scaled % 10 ^ decimals))
  if x < 0 then '-' :: digits else digits

/-- The text of an optional value, nothing when it is absent. -/
def orBlank {α : Type} (write : α → Text) : Option α → Text
  | some a => write a
  | none => []

/-- `String.trim()`: blanks and control characters at both ends go. -/
def trim (t : Text) : Text :=
  ((t.dropWhile (· ≤ ' ')).reverse.dropWhile (· ≤ ' ')).reverse

/-! ## Fields -/

def joinFields (fields : List Text) : Text := [','].intercalate fields

/-- `split(",")`, keeping empty fields. -/
def splitFields : Text → List Text
  | [] => [[]]
  | c :: rest =>
    if c = ',' then [] :: splitFields rest
    else match splitFields rest with
      | field :: fields => (c :: field) :: fields
      | [] => [[c]]

theorem splitFields_eq_splitOn (t : Text) : splitFields t = t.splitOn ',' := by
  induction t with
  | nil => simp [splitFields]
  | cons c rest ih =>
    rw [splitFields, ih, List.splitOn_cons_eq_if_modifyHead]
    by_cases hc : c = ','
    · simp [hc]
    · obtain ⟨field, fields, hf⟩ := List.exists_cons_of_ne_nil (List.splitOn_ne_nil ',' rest)
      simp [hc, hf]

/-- **Splitting undoes joining** for fields without a comma. -/
theorem splitFields_joinFields {fields : List Text} (h : ∀ f ∈ fields, ',' ∉ f)
    (hne : fields ≠ []) : splitFields (joinFields fields) = fields := by
  rw [splitFields_eq_splitOn, joinFields, List.splitOn_intercalate ',' h hne]

/-! ## What the writers print -/

theorem ofNat_isDigit {n : ℕ} {c : Char} (h : c ∈ ofNat n) : c.isDigit :=
  Nat.isDigit_of_mem_toDigits (by decide) (by decide) h

theorem ofNat_ne_nil (n : ℕ) : ofNat n ≠ [] := by
  have := Nat.length_toDigits_pos (b := 10) (n := n)
  intro h
  rw [ofNat] at h
  simp [h] at this

theorem ofInt_ne_nil (v : ℤ) : ofInt v ≠ [] := by
  unfold ofInt
  split
  · simp
  · exact ofNat_ne_nil _

theorem length_hexOf (width n : ℕ) : (hexOf width n).length = width := by
  induction width generalizing n with
  | zero => rfl
  | succ width ih => simp [hexOf, ih]

theorem hexDigits_injective : ∀ a b : Fin 16, hexDigits[a] = hexDigits[b] → a = b := by decide

theorem hexOf_inj {width a b : ℕ} (ha : a < 16 ^ width) (hb : b < 16 ^ width)
    (h : hexOf width a = hexOf width b) : a = b := by
  induction width generalizing a b with
  | zero => simp at ha hb; omega
  | succ width ih =>
    rw [hexOf, hexOf] at h
    obtain ⟨h₁, h₂⟩ := List.append_inj h (by simp [length_hexOf])
    have hlow := hexDigits_injective ⟨a % 16, by omega⟩ ⟨b % 16, by omega⟩ (by simpa using h₂)
    have hhigh := ih (by rw [Nat.pow_succ] at ha; omega) (by rw [Nat.pow_succ] at hb; omega) h₁
    have := Fin.mk.inj hlow
    omega

/-- Only the digits that are written count. -/
theorem hexOf_mod (width n : ℕ) : hexOf width (n % 16 ^ width) = hexOf width n := by
  induction width generalizing n with
  | zero => rfl
  | succ width ih =>
    have hlow : n % 16 ^ (width + 1) % 16 = n % 16 :=
      Nat.mod_mod_of_dvd n (Dvd.intro_left _ (pow_succ 16 width).symm)
    have hhigh : n % 16 ^ (width + 1) / 16 = n / 16 % 16 ^ width := by
      rw [pow_succ', Nat.mod_mul_right_div_self]
    simp only [hexOf, hlow, hhigh, ih]

theorem hexOf_add (width width' n : ℕ) :
    hexOf (width + width') n = hexOf width (n / 16 ^ width') ++ hexOf width' n := by
  induction width' generalizing n with
  | zero => simp [hexOf]
  | succ width' ih =>
    rw [← Nat.add_assoc, hexOf, hexOf, ih, List.append_assoc, Nat.div_div_eq_div_mul, pow_succ']

/-- A text of characters that all satisfy `p`. -/
def Over (p : Char → Bool) (t : Text) : Prop := ∀ c ∈ t, p c

def isNumeric (c : Char) : Bool :=
  c.isDigit || c == '-' || c == '.'

theorem Over.append {p : Char → Bool} {t u : Text} (ht : Over p t) (hu : Over p u) :
    Over p (t ++ u) := by
  intro c hc
  rcases List.mem_append.mp hc with h | h
  · exact ht c h
  · exact hu c h

theorem Over.cons {p : Char → Bool} {a : Char} {t : Text} (ha : p a) (ht : Over p t) :
    Over p (a :: t) := by
  intro c hc
  rcases List.mem_cons.mp hc with rfl | h
  · exact ha
  · exact ht c h

theorem Over.mono {p q : Char → Bool} {t : Text} (hpq : ∀ c, p c → q c) (ht : Over p t) :
    Over q t := fun c hc => hpq c (ht c hc)

theorem over_ofNat (n : ℕ) : Over isNumeric (ofNat n) := by
  intro c hc
  simp [isNumeric, ofNat_isDigit hc]

theorem over_ofInt (v : ℤ) : Over isNumeric (ofInt v) := by
  unfold ofInt
  split
  · exact Over.cons (by decide) (over_ofNat _)
  · exact over_ofNat _

theorem over_padLeft {p : Char → Bool} {t : Text} {fill : Char} (hf : p fill) (ht : Over p t)
    (width : ℕ) : Over p (padLeft width fill t) :=
  Over.append (fun _ hc => (List.eq_of_mem_replicate hc) ▸ hf) ht

theorem over_fixed (round : ℚ → ℤ) (decimals : ℕ) (x : ℚ) :
    Over isNumeric (fixed round decimals x) := by
  have hd : Over isNumeric (ofNat ((round (|x| * 10 ^ decimals)).natAbs / 10 ^ decimals) ++
      '.' :: padLeft decimals '0'
        (ofNat ((round (|x| * 10 ^ decimals)).natAbs % 10 ^ decimals))) :=
    (over_ofNat _).append (Over.cons (by decide) (over_padLeft (by decide) (over_ofNat _) _))
  unfold fixed
  simp only
  split
  · exact Over.cons (by decide) hd
  · exact hd

/-- The characters of a hexadecimal number. -/
def isHex (c : Char) : Bool := c ∈ hexDigits.toList

theorem over_hexOf (width n : ℕ) : Over isHex (hexOf width n) := by
  induction width generalizing n with
  | zero => intro c hc; simp [hexOf] at hc
  | succ width ih =>
    refine (ih _).append (Over.cons ?_ (by intro c hc; simp at hc))
    simp [isHex]

theorem over_orBlank {α : Type} {p : Char → Bool} {write : α → Text} (o : Option α)
    (h : ∀ a, Over p (write a)) : Over p (orBlank write o) := by
  cases o with
  | none => intro c hc; simp [orBlank] at hc
  | some a => exact h a

/-- The characters that `trim` keeps. -/
def isVisible (c : Char) : Bool := !(c ≤ ' ')

theorem isVisible_of_isNumeric {c : Char} (h : isNumeric c) : isVisible c := by
  simp only [isNumeric, Bool.or_eq_true, beq_iff_eq, Char.isDigit, Bool.and_eq_true,
    decide_eq_true_eq] at h
  simp only [isVisible, Bool.not_eq_true', decide_eq_false_iff_not]
  rintro (hle : c.val ≤ 32)
  rcases h with (⟨hd, -⟩ | rfl) | rfl
  · exact absurd (UInt32.le_trans hd hle) (by decide)
  · exact absurd hle (by decide)
  · exact absurd hle (by decide)

theorem isVisible_of_isHex {c : Char} (h : isHex c) : isVisible c := by
  have hall : hexDigits.toList.all isVisible = true := by decide
  exact List.all_eq_true.1 hall c (by simpa [isHex] using h)

theorem dropWhile_of_visible {t : Text} (h : Over isVisible t) :
    t.dropWhile (fun c => decide (c ≤ ' ')) = t := by
  cases t with
  | nil => rfl
  | cons c rest =>
    have hc := h c List.mem_cons_self
    rw [isVisible, Bool.not_eq_true'] at hc
    rw [List.dropWhile_cons_of_neg (by rw [hc]; decide)]

theorem trim_of_visible {t : Text} (h : Over isVisible t) : trim t = t := by
  have hr : Over isVisible t.reverse := fun c hc => h c (List.mem_reverse.1 hc)
  rw [trim, dropWhile_of_visible h, dropWhile_of_visible hr, List.reverse_reverse]

theorem over_trim {p : Char → Bool} {t : Text} (h : Over p t) : Over p (trim t) := by
  intro c hc
  rw [trim, List.mem_reverse] at hc
  have hmid := List.mem_reverse.1 ((List.dropWhile_sublist _).subset hc)
  exact h c ((List.dropWhile_sublist _).subset hmid)

/-- A text over an alphabet without the comma is a field. -/
theorem Over.no_comma {p : Char → Bool} {t : Text} (ht : Over p t) (hp : p ',' = false) :
    ',' ∉ t := fun hc => absurd (ht ',' hc) (by simp [hp])

end Text

end AdsbBridge.Lib
