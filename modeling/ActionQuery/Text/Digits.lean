import ActionQuery.Text.Basic

namespace ActionQuery.Text

def ofNat (n : Nat) : Text := Nat.toDigits 10 n

def ofInt : Int → Text
  | .ofNat n => ofNat n
  | .negSucc n => '-' :: ofNat (n + 1)

def digitsValue (digits : Text) : Nat := Nat.ofDigitChars 10 digits 0

theorem digit_lt {c : Char} (h : c.isDigit = true) : c.toNat - '0'.toNat < 10 := by
  simp only [Char.isDigit, Bool.and_eq_true, decide_eq_true_eq, ge_iff_le, UInt32.le_iff_toNat_le]
    at h
  have : '0'.toNat = 48 := rfl
  have : '9'.val.toNat = 57 := rfl
  have : c.val.toNat = c.toNat := rfl
  omega

/-- The number that a one with `n` zeros behind it denotes. -/
def tenTo (n : Nat) : Nat := Nat.pow 10 n

theorem tenTo_pos (n : Nat) : 0 < tenTo n := Nat.pow_pos (by decide)

theorem tenTo_succ (n : Nat) : tenTo (n + 1) = tenTo n * 10 := rfl

theorem tenTo_add (m n : Nat) : tenTo (m + n) = tenTo m * tenTo n := Nat.pow_add 10 m n

theorem ofDigitChars_lt (digits : Text) (n : Nat) (h : digits.all Char.isDigit = true) :
    Nat.ofDigitChars 10 digits n < tenTo digits.length * (n + 1) := by
  induction digits generalizing n with
  | nil => simp [tenTo]
  | cons c rest ih =>
      rw [List.all_cons, Bool.and_eq_true] at h
      have hdigit := digit_lt h.1
      rw [Nat.ofDigitChars_cons, List.length_cons, tenTo_succ, Nat.mul_assoc]
      exact Nat.lt_of_lt_of_le (ih _ h.2) (Nat.mul_le_mul_left _ (by omega))

/-- A run of digits denotes a number with no more digits. -/
theorem digitsValue_lt {digits : Text} (h : digits.all Char.isDigit = true) :
    digitsValue digits < tenTo digits.length := by
  simpa [digitsValue] using ofDigitChars_lt digits 0 h

/-- Reads exactly `count` ASCII digits: their value and what follows them. -/
def readDigits (count : Nat) (t : Text) : Option (Nat × Text) :=
  let digits := t.take count
  if digits.length = count && digits.all Char.isDigit then
    some (digitsValue digits, t.drop count)
  else
    none

def readSign : Text → Bool × Text
  | '-' :: rest => (true, rest)
  | '+' :: rest => (false, rest)
  | t => (false, t)

/-- What stands behind a plus sign, the whole text when it starts with none. -/
def dropPlus : Text → Text
  | '+' :: rest => rest
  | t => t

/-- Reads a text that is a run of digits behind a sign or none. -/
def readSigned? (t : Text) : Option Int :=
  let (negative, digits) := readSign t
  if digits = [] ∨ digits.all Char.isDigit = false then none
  else if negative then some (-digitsValue digits)
  else some (digitsValue digits)

/-- Decimal digits of `n`, filled up with zeros on the left to at least `width`. -/
def padded (width n : Nat) : Text :=
  let digits := ofNat n
  List.replicate (width - digits.length) '0' ++ digits

/-- Digits beyond this number are not read as a number. -/
def maxNumeralDigits : Nat := 4300

structure TooManyDigits where
  count : Nat
  deriving DecidableEq, Repr

/-- The value of a run of digits, leading zeros counted towards the limit. -/
def readNumeral (digits : Text) : Except TooManyDigits Nat :=
  if digits.length ≤ maxNumeralDigits then .ok (digitsValue digits) else .error ⟨digits.length⟩

def TooManyDigits.message (e : TooManyDigits) : Text :=
  "Exceeds the limit (4300 digits) for integer string conversion: value has " ++ ofNat e.count ++
    " digits; use sys.set_int_max_str_digits() to increase the limit"

end ActionQuery.Text
