import StepSequencer.Text.Digits

/-!
# Reading digits back

Every spelling of a number that the program writes can be read again: the characters of the digits
give the digits, and the digits give the number. Fixed-width hexadecimal is taken apart digit by
digit, which is how the bytes of a record are read.
-/
namespace StepSequencer.Text

/-- The digits of a number are below the base. -/
theorem digits_lt (base n : Nat) (large : 2 ≤ base) : ∀ d ∈ digits base n, d < base := by
  fun_induction digits base n with
  | case1 n _ ih =>
    intro d member
    rcases List.mem_append.mp member with high | low
    · exact ih d high
    · rw [List.mem_singleton.mp low]
      exact Nat.mod_lt n (by omega)
  | case2 n small =>
    intro d member
    rw [List.mem_singleton.mp member]
    omega

/-- A number has at least one digit. -/
theorem digits_ne_nil (base n : Nat) : digits base n ≠ [] := by
  fun_cases digits base n <;> simp

/-- A number that is not negative has no sign. -/
theorem signOf_natCast (n : Nat) : signOf (n : Int) = [] := by
  rw [signOf, if_neg (by omega)]

/-- The upper case character of a digit has the value of the digit. -/
theorem hexValue?_upperDigit {d : Nat} (small : d < 16) : hexValue? (upperDigit d) = some d := by
  have each : ∀ d < 16, hexValue? (upperDigit d) = some d := by decide
  exact each d small

/-- The lower case character of a digit has the value of the digit. -/
theorem hexValue?_lowerDigit {d : Nat} (small : d < 16) : hexValue? (lowerDigit d) = some d := by
  have each : ∀ d < 16, hexValue? (lowerDigit d) = some d := by decide
  exact each d small

/-- The character of a decimal digit has the value of the digit. -/
theorem decimalValue?_lowerDigit {d : Nat} (small : d < 10) :
    decimalValue? (lowerDigit d) = some d := by
  have each : ∀ d < 10, decimalValue? (lowerDigit d) = some d := by decide
  exact each d small

/-- Characters with the values of digits are read as these digits. -/
theorem filterMap_digitChars {write : Nat → Char} {value? : Char → Option Nat} {base : Nat}
    (exact : ∀ {d : Nat}, d < base → value? (write d) = some d) {ds : List Nat}
    (bounded : ∀ d ∈ ds, d < base) : (ds.map write).filterMap value? = ds := by
  induction ds with
  | nil => rfl
  | cons d ds ih =>
    have rest := ih fun other member => bounded other (List.mem_cons_of_mem d member)
    rw [List.map_cons, List.filterMap_cons_some (exact (bounded d List.mem_cons_self)), rest]

/-- The characters of digits below sixteen are hexadecimal digits, and no other mark. -/
theorem isHex_lowerDigit {d : Nat} (small : d < 16) : isHex (lowerDigit d) = true := by
  rw [isHex, hexValue?_lowerDigit small, Option.isSome_some]

/-- A digit in upper case is a hexadecimal one. -/
theorem isHex_upperDigit {d : Nat} (small : d < 16) : isHex (upperDigit d) = true := by
  rw [isHex, hexValue?_upperDigit small, Option.isSome_some]

/-- The characters of digits below ten are decimal digits. -/
theorem isDecimal_lowerDigit {d : Nat} (small : d < 10) : isDecimal (lowerDigit d) = true := by
  rw [isDecimal, decimalValue?_lowerDigit small, Option.isSome_some]

/-- Digits and signs are no line feeds. -/
theorem newline_not_mem_signed {write : Nat → Char} {base : Nat} (large : 2 ≤ base)
    (digit : ∀ {d : Nat}, d < base → isHex (write d) = true) (n : Int) :
    '\n' ∉ signOf n ++ (digits base n.natAbs).map write := by
  intro member
  rcases List.mem_append.mp member with sign | body
  · rw [signOf] at sign
    split at sign
    · exact absurd (List.mem_singleton.mp sign) (by decide)
    · exact absurd sign List.not_mem_nil
  · obtain ⟨d, known, same⟩ := List.mem_map.mp body
    have hex := digit (digits_lt base _ large d known)
    rw [same] at hex
    exact absurd hex (by decide)

/-- A decimal number is a single line. -/
theorem newline_not_mem_decimal (n : Int) : '\n' ∉ (decimal n).toList := by
  rw [decimal, String.toList_ofList]
  exact newline_not_mem_signed (by decide)
    (fun small => isHex_lowerDigit (Nat.lt_trans small (by decide))) n

/-- A hexadecimal number in lower case is a single line. -/
theorem newline_not_mem_hexLower (n : Int) : '\n' ∉ (hexLower n).toList := by
  rw [hexLower, String.toList_ofList]
  exact newline_not_mem_signed (by decide) isHex_lowerDigit n

/-- A hexadecimal number in upper case is a single line. -/
theorem newline_not_mem_hexUpper (n : Int) : '\n' ∉ (hexUpper 0 n).toList := by
  have plain : (hexUpper 0 n).toList =
      signOf n ++ (digits 16 n.natAbs).map upperDigit := by
    simp [hexUpper, hexUpperChars]
  rw [plain]
  exact newline_not_mem_signed (by decide) isHex_upperDigit n

/-- Zeros in front do not change a number. -/
theorem ofDigits_zeros (base count : Nat) (ds : List Nat) :
    ofDigits base (List.replicate count 0 ++ ds) = ofDigits base ds := by
  induction count with
  | zero => rfl
  | succ count ih =>
    rw [List.replicate_succ, List.cons_append, ofDigits, List.foldl_cons]
    simpa [ofDigits] using ih

/-- Upper case hexadecimal of a least width is read as the number. -/
theorem ofHex_hexUpperChars (width n : Nat) : ofHex (hexUpperChars width n) = n := by
  have zeros (count : Nat) : (List.replicate count '0').filterMap hexValue? =
      List.replicate count 0 := by
    rw [List.filterMap_replicate_of_some (show hexValue? '0' = some 0 by decide)]
  rw [ofHex, hexUpperChars, signOf_natCast, List.nil_append, List.filterMap_append, zeros,
    filterMap_digitChars hexValue?_upperDigit (digits_lt 16 _ (by decide)), ofDigits_zeros,
    ofDigits_digits, Int.natAbs_natCast]

/-- Upper case hexadecimal digits are read as the number. -/
theorem ofHex_upperDigits (n : Nat) : ofHex ((digits 16 n).map upperDigit) = n := by
  rw [ofHex, filterMap_digitChars hexValue?_upperDigit (digits_lt 16 n (by decide)),
    ofDigits_digits]

/-- Lower case hexadecimal digits are read as the number. -/
theorem ofHex_lowerDigits (n : Nat) : ofHex ((digits 16 n).map lowerDigit) = n := by
  rw [ofHex, filterMap_digitChars hexValue?_lowerDigit (digits_lt 16 n (by decide)),
    ofDigits_digits]

/-- Decimal digits are read as the number. -/
theorem ofDecimal_lowerDigits (n : Nat) : ofDecimal ((digits 10 n).map lowerDigit) = n := by
  rw [ofDecimal, filterMap_digitChars decimalValue?_lowerDigit (digits_lt 10 n (by decide)),
    ofDigits_digits]

/-- Upper case hexadecimal of a least width is as long as the number needs, and no shorter than the
width. -/
theorem length_hexUpperChars (width n : Nat) :
    (hexUpperChars width n).length = max width (digits 16 n).length := by
  simp only [hexUpperChars, signOf_natCast, List.nil_append, List.length_nil, Nat.sub_zero,
    List.length_append, List.length_replicate, List.length_map, Int.natAbs_natCast]
  omega

/-- Upper case hexadecimal of a number that is not negative has no other characters than digits. -/
theorem isHex_hexUpperChars (width n : Nat) :
    ∀ c ∈ hexUpperChars width n, isHex c = true := by
  intro c member
  rw [hexUpperChars, signOf_natCast, List.nil_append, List.mem_append] at member
  rcases member with zero | digit
  · rw [List.eq_of_mem_replicate zero]
    decide
  · obtain ⟨d, known, rfl⟩ := List.mem_map.mp digit
    exact isHex_upperDigit (digits_lt 16 _ (by decide) d known)

/-- Hexadecimal of one more digit of width splits off its last digit. -/
theorem hexUpperChars_succ (width n : Nat) :
    hexUpperChars (width + 2) n =
      hexUpperChars (width + 1) ((n / 16 : Nat) : Int) ++ [upperDigit (n % 16)] := by
  simp only [hexUpperChars, signOf_natCast, List.nil_append, List.length_nil, Nat.sub_zero,
    Int.natAbs_natCast, List.length_map]
  by_cases large : 16 ≤ n
  · have split : digits 16 n = digits 16 (n / 16) ++ [n % 16] := by
      rw [digits, dif_pos ⟨by decide, large⟩]
    have room (length : Nat) : width + 2 - (length + 1) = width + 1 - length := by omega
    rw [split, List.length_append, List.length_singleton, room, List.map_append, List.map_singleton,
      List.append_assoc]
  · have single : digits 16 n = [n] := by
      rw [digits, dif_neg (by omega)]
    have front : digits 16 (n / 16) = [0] := by
      rw [Nat.div_eq_of_lt (by omega), digits, dif_neg (by omega)]
    rw [single, front, Nat.mod_eq_of_lt (by omega)]
    simp [List.replicate_succ', upperDigit]

/-- Two hexadecimal digits of a byte. -/
theorem hexUpperChars_byte {n : Nat} (small : n < 256) :
    hexUpperChars 2 n = [upperDigit (n / 16), upperDigit (n % 16)] := by
  have single : digits 16 (n / 16) = [n / 16] := by
    rw [digits, dif_neg (by omega)]
  rw [hexUpperChars_succ 0 n]
  simp only [hexUpperChars, signOf_natCast, Int.natAbs_natCast, single]
  rfl

/-- Four hexadecimal digits are those of a high and of a low byte. -/
theorem hexUpperChars_word (n : Nat) :
    hexUpperChars 4 n =
      hexUpperChars 2 ((n / 256 : Nat) : Int) ++ hexUpperChars 2 ((n % 256 : Nat) : Int) := by
  have high : n / 16 / 16 = n / 256 := Nat.div_div_eq_div_mul n 16 16
  have middle : n % 256 / 16 = n / 16 % 16 := by omega
  have low : n % 256 % 16 = n % 16 := by omega
  rw [hexUpperChars_succ 2 n, hexUpperChars_succ 1 (n / 16), high,
    hexUpperChars_byte (Nat.mod_lt n (by decide)), middle, low, List.append_assoc]
  rfl

end StepSequencer.Text
