import Mathlib.Data.Rat.Defs
import Mathlib.Tactic
import Turret.Library.CodeUnits

/-! Decimal numbers as text, printed and read back. -/

namespace Turret.DecimalText

open CodeUnits

def zero : UInt16 := 48
def point : UInt16 := 46

/-- The decimal digits of a number. -/
def digits (n : ℕ) : Text := (Nat.toDigits 10 n).map fun c => UInt16.ofNat c.toNat

/-- `value.toString()` of a `bigint`. -/
def toText (value : ℤ) : Text :=
  if value < 0 then ascii "-" ++ digits value.natAbs else digits value.natAbs

/-- `text.padStart(width, "0")`. -/
def padStart (width : ℕ) (text : Text) : Text := List.replicate (width - text.length) zero ++ text

def isDigit (c : UInt16) : Bool := decide (zero ≤ c ∧ c ≤ 57)

def digitsValue (text : Text) : ℕ := text.foldl (fun n c => 10 * n + (c.toNat - 48)) 0

/-- The number that a decimal text tells: digits, and where there is a point, digits after it. -/
def readDecimal (text : Text) : Option ℚ :=
  let whole := text.takeWhile isDigit
  match text.dropWhile isDigit with
  | [] => if whole = [] then none else some (digitsValue whole)
  | c :: fraction =>
    if whole ≠ [] ∧ c = point ∧ fraction ≠ [] ∧ fraction.all isDigit = true then
      some (digitsValue whole + digitsValue fraction / 10 ^ fraction.length)
    else none

section Digits

variable {n k : ℕ} {text whole fraction : Text}

theorem digit_of_char {c : Char} (h : c.isDigit) :
    isDigit (UInt16.ofNat c.toNat) = true ∧ (UInt16.ofNat c.toNat).toNat = c.toNat := by
  have bounds : 48 ≤ c.toNat ∧ c.toNat ≤ 57 := Char.isDigit_iff_toNat.mp h
  have size : (UInt16.ofNat c.toNat).toNat = c.toNat := by
    rw [UInt16.toNat_ofNat']
    omega
  refine ⟨?_, size⟩
  simp only [isDigit, zero, UInt16.le_iff_toNat_le, size, decide_eq_true_eq]
  exact bounds

theorem digits_isDigit (n : ℕ) : ∀ c ∈ digits n, isDigit c = true := by
  intro c mem
  obtain ⟨d, at_d, rfl⟩ := List.mem_map.mp mem
  exact (digit_of_char (Nat.isDigit_of_mem_toDigits (by decide) (by decide) at_d)).1

theorem foldl_digits (chars : List Char) (h : ∀ c ∈ chars, c.isDigit) (init : ℕ) :
    (chars.map fun c => UInt16.ofNat c.toNat).foldl (fun n c => 10 * n + (c.toNat - 48)) init =
      Nat.ofDigitChars 10 chars init := by
  induction chars generalizing init with
  | nil => rfl
  | cons c chars ih =>
    obtain ⟨first, others⟩ := List.forall_mem_cons.mp h
    rw [List.map_cons, List.foldl_cons, ih others, Nat.ofDigitChars_cons, (digit_of_char first).2]
    rfl

theorem digitsValue_digits (n : ℕ) : digitsValue (digits n) = n := by
  have chars : ∀ c ∈ Nat.toDigits 10 n, c.isDigit := fun c mem =>
    Nat.isDigit_of_mem_toDigits (by decide) (by decide) mem
  rw [digitsValue, digits, foldl_digits _ chars, Nat.ofDigitChars_ten_toDigits]

theorem foldl_value (text : Text) (init : ℕ) :
    text.foldl (fun n c => 10 * n + (c.toNat - 48)) init =
      init * 10 ^ text.length + digitsValue text := by
  induction text generalizing init with
  | nil => simp [digitsValue]
  | cons c text ih =>
    simp only [digitsValue, List.foldl_cons, List.length_cons]
    rw [ih, ih (10 * 0 + (c.toNat - 48))]
    ring

theorem digitsValue_append (text more : Text) :
    digitsValue (text ++ more) = digitsValue text * 10 ^ more.length + digitsValue more := by
  rw [digitsValue, List.foldl_append, foldl_value]
  rfl

theorem digitsValue_zeros (h : ∀ c ∈ text, c = zero) : digitsValue text = 0 := by
  induction text with
  | nil => rfl
  | cons c text ih =>
    obtain ⟨rfl, others⟩ := List.forall_mem_cons.mp h
    rw [← List.singleton_append, digitsValue_append, ih others]
    simp [digitsValue, zero]

theorem digitsValue_padStart (width : ℕ) (text : Text) :
    digitsValue (padStart width text) = digitsValue text := by
  rw [padStart, digitsValue_append, digitsValue_zeros fun c mem => List.eq_of_mem_replicate mem]
  omega

theorem padStart_isDigit (width : ℕ) (h : ∀ c ∈ text, isDigit c = true) :
    ∀ c ∈ padStart width text, isDigit c = true := by
  intro c mem
  rcases List.mem_append.mp mem with mem | mem
  · rw [List.eq_of_mem_replicate mem]
    decide
  · exact h c mem

theorem le_length_padStart (width : ℕ) (text : Text) : width ≤ (padStart width text).length := by
  rw [padStart, List.length_append, List.length_replicate]
  omega

theorem readDecimal_whole (some_digit : whole ≠ []) (h : ∀ c ∈ whole, isDigit c = true) :
    readDecimal whole = some (digitsValue whole : ℚ) := by
  have taken : whole.takeWhile isDigit = whole := List.takeWhile_eq_self_iff.mpr h
  have dropped : whole.dropWhile isDigit = [] := List.dropWhile_eq_nil_iff.mpr h
  simp [readDecimal, taken, dropped, some_digit]

theorem readDecimal_point (some_digit : whole ≠ []) (h : ∀ c ∈ whole, isDigit c = true)
    (some_fraction : fraction ≠ []) (h' : ∀ c ∈ fraction, isDigit c = true) :
    readDecimal (whole ++ point :: fraction) =
      some (digitsValue whole + digitsValue fraction / 10 ^ fraction.length : ℚ) := by
  have stop : isDigit point = false := by decide
  have taken : (whole ++ point :: fraction).takeWhile isDigit = whole := by
    rw [List.takeWhile_append_of_pos h]
    simp [stop]
  have dropped : (whole ++ point :: fraction).dropWhile isDigit = point :: fraction := by
    rw [List.dropWhile_append_of_pos h]
    simp [stop]
  have all : fraction.all isDigit = true := List.all_eq_true.mpr h'
  simp [readDecimal, taken, dropped, some_digit, some_fraction, all]

end Digits

end Turret.DecimalText

/-! Text that stands for bytes: `0x` and hexadecimal digits, in lower case. -/

namespace Turret.HexText

def isHexDigit (c : Char) : Bool := c.isDigit || decide ('a' ≤ c ∧ c ≤ 'f')

def isHex (digits : ℕ) (value : String) : Bool :=
  match value.toList with
  | '0' :: 'x' :: rest => rest.length == digits && rest.all isHexDigit
  | _ => false

def isHash (value : String) : Bool := isHex 64 value

def zeroAddress : String := "0x0000000000000000000000000000000000000000"

def isAccount (value : String) : Bool := isHex 40 value && value != zeroAddress

/-- Some bytes, of whatever number. -/
def isBytes (value : String) : Bool :=
  match value.toList with
  | '0' :: 'x' :: rest => !rest.isEmpty && rest.all isHexDigit
  | _ => false

/-- Groups of 8, 4, 4, 4 and 12 digits, of which the third tells the version and the fourth the
variant. -/
def isUuid (value : String) : Bool :=
  match value.toList.splitOn '-' with
  | [a, b, '4' :: c, d :: e, f] =>
    decide (a.length = 8 ∧ b.length = 4 ∧ c.length = 3 ∧ e.length = 3 ∧ f.length = 12) &&
    (a ++ b ++ c ++ e ++ f).all isHexDigit && ['8', '9', 'a', 'b'].contains d
  | _ => false

end Turret.HexText
