/-!
# Numbers as digits

Positional writing of numbers in any base and the three spellings that the program uses:
signed decimal, signed hexadecimal in either case, and hexadecimal of a least width.
-/
namespace StepSequencer.Text

/-- The digits of a number, most significant first. Zero has one digit. -/
def digits (base n : Nat) : List Nat :=
  if _large : 2 ≤ base ∧ base ≤ n then digits base (n / base) ++ [n % base] else [n]
termination_by n
decreasing_by exact Nat.div_lt_self (by omega) _large.1

/-- The number that a list of digits writes, most significant first. -/
def ofDigits (base : Nat) (ds : List Nat) : Nat := ds.foldl (fun n d => n * base + d) 0

/-- A digit behind others shifts them by one place, and is added. -/
theorem ofDigits_append_single (base : Nat) (ds : List Nat) (d : Nat) :
    ofDigits base (ds ++ [d]) = ofDigits base ds * base + d := by
  simp [ofDigits, List.foldl_append]

/-- Reading the digits of a number gives the number. -/
theorem ofDigits_digits (base n : Nat) : ofDigits base (digits base n) = n := by
  fun_induction digits base n with
  | case1 n _ ih => rw [ofDigits_append_single, ih, Nat.div_add_mod']
  | case2 => simp [ofDigits]

/-- The character of a digit below sixteen, with letters in lower case. -/
def lowerDigit (d : Nat) : Char :=
  if d < 10 then Char.ofNat (0x30 + d) else Char.ofNat (0x61 + (d - 10))

/-- The character of a digit below sixteen, with letters in upper case. -/
def upperDigit (d : Nat) : Char :=
  if d < 10 then Char.ofNat (0x30 + d) else Char.ofNat (0x41 + (d - 10))

/-- The value of a decimal digit. -/
def decimalValue? (c : Char) : Option Nat :=
  if '0' ≤ c ∧ c ≤ '9' then some (c.toNat - 0x30) else none

/-- The value of a hexadecimal digit of either case. -/
def hexValue? (c : Char) : Option Nat :=
  if '0' ≤ c ∧ c ≤ '9' then some (c.toNat - 0x30)
  else if 'a' ≤ c ∧ c ≤ 'f' then some (c.toNat - 0x61 + 10)
  else if 'A' ≤ c ∧ c ≤ 'F' then some (c.toNat - 0x41 + 10)
  else none

/-- Whether a character is one of the ten decimal digits. -/
def isDecimal (c : Char) : Bool := (decimalValue? c).isSome

/-- Whether a character is a hexadecimal digit of either case. -/
def isHex (c : Char) : Bool := (hexValue? c).isSome

/-- The number written by a run of decimal digits; the empty run writes zero. -/
def ofDecimal (text : List Char) : Nat := ofDigits 10 (text.filterMap decimalValue?)

/-- The number written by a run of hexadecimal digits; the empty run writes zero. -/
def ofHex (text : List Char) : Nat := ofDigits 16 (text.filterMap hexValue?)

/-- A minus sign before the digits of a negative number. -/
def signOf (n : Int) : List Char := if n < 0 then ['-'] else []

/-- Signed decimal. -/
def decimalChars (n : Int) : List Char := signOf n ++ (digits 10 n.natAbs).map lowerDigit

/-- Signed decimal. -/
def decimal (n : Int) : String := String.ofList (decimalChars n)

/-- Signed hexadecimal in lower case. -/
def hexLower (n : Int) : String :=
  String.ofList (signOf n ++ (digits 16 n.natAbs).map lowerDigit)

/-- Signed hexadecimal in upper case, filled with zeros behind the sign up to `width` characters. -/
def hexUpperChars (width : Nat) (n : Int) : List Char :=
  let sign := signOf n
  let body := (digits 16 n.natAbs).map upperDigit
  sign ++ List.replicate (width - sign.length - body.length) '0' ++ body

/-- Signed hexadecimal in upper case, filled with zeros behind the sign up to `width` characters. -/
def hexUpper (width : Nat) (n : Int) : String := String.ofList (hexUpperChars width n)

end StepSequencer.Text
