import StepSequencer.Proofs.IntelHex.Damage

/-!
# Records of any length

The writer gives the number of data bytes as many digits as it takes, while a reader takes the first
two digits for it. Up to 255 bytes two digits do, and a record is read back. Beyond that a record is
never read as a shorter one: behind its colon stand digits only, so either one of them is left
without a partner, or they are more bytes than any first byte can announce.
-/
namespace StepSequencer.IntelHex

/-- A hexadecimal digit is neither a blank nor the end of a line. -/
theorem solid_of_isHex {c : Char} (hex : Text.isHex c = true) :
    Text.isBlank c = false ∧ Text.isLineBreak c = false ∧ isSpace c = false := by
  obtain ⟨value, digit⟩ := Option.isSome_iff_exists.mp hex
  exact hexDigit_solid digit

/-- Digits without spaces are read in pairs, and a last digit must not be left over. -/
theorem length_readBytes {text : List Char} (digits : ∀ c ∈ text, Text.isHex c = true) :
    (readBytes text).map List.length =
      if text.length % 2 = 0 then some (text.length / 2) else none := by
  fun_induction readBytes text with
  | case1 => rfl
  | case2 c blank =>
    have solid := (solid_of_isHex (digits c List.mem_cons_self)).2.2
    rw [blank] at solid
    contradiction
  | case3 => rfl
  | case4 c d rest blank ih =>
    have solid := (solid_of_isHex (digits c List.mem_cons_self)).2.2
    rw [blank] at solid
    contradiction
  | case5 c d rest solid ih =>
    obtain ⟨first, others⟩ := List.forall_mem_cons.mp digits
    obtain ⟨second, behind⟩ := List.forall_mem_cons.mp others
    obtain ⟨high, tens⟩ := Option.isSome_iff_exists.mp first
    obtain ⟨low, units⟩ := Option.isSome_iff_exists.mp second
    have later := ih behind
    have parity : (c :: d :: rest).length % 2 = rest.length % 2 := by
      simp only [List.length_cons]
      omega
    have half : (c :: d :: rest).length / 2 = rest.length / 2 + 1 := by
      simp only [List.length_cons]
      omega
    have onward (byte : UInt8) :
        ((readBytes rest).bind fun bytes => some (byte :: bytes)).map List.length =
          ((readBytes rest).map List.length).map (· + 1) := by
      cases readBytes rest <;> rfl
    rw [tens, units, parity, half]
    refine (onward _).trans ?_
    rw [later]
    split <;> rfl

/-- Behind the colon of a data record there are digits only: those of the number of its data bytes,
and two for each of its other bytes. -/
theorem dataRecord_digits (address : Int) (data : List UInt8) :
    ∃ digits, dataRecord address data = ':' :: digits ∧ (∀ c ∈ digits, Text.isHex c = true) ∧
      digits.length = max 2 (Text.digits 16 data.length).length + 2 * (data.length + 4) := by
  refine ⟨_, dataRecord_eq address data, ?_, ?_⟩
  · intro c member
    rcases List.mem_append.mp member with count | field
    · exact Text.isHex_hexUpperChars 2 data.length c count
    · obtain ⟨byte, _, digit⟩ := List.mem_flatMap.mp field
      exact Text.isHex_hexUpperChars 2 byte.toNat c digit
  · have fields : (payload address data).tail.length = data.length + 4 := by simp [payload]
    rw [List.length_append, Text.length_hexUpperChars, length_byteChars, fields]

/-- A number that takes more than a byte takes more than one digit. -/
theorem two_le_length_digits {n : Nat} (large : 256 ≤ n) : 2 ≤ (Text.digits 16 n).length := by
  have front := List.length_pos_iff.mpr (Text.digits_ne_nil 16 (n / 16))
  rw [Text.digits, dif_pos ⟨by decide, by omega⟩, List.length_append, List.length_singleton]
  omega

/-- A record of more than 255 data bytes is refused: its digits cannot be paired, or its number of
bytes is beyond what one byte can say. -/
theorem readLine_overlong (address : Int) {data : List UInt8} (overlong : 256 ≤ data.length) :
    readLine (dataRecord address data) =
      .error (if (Text.digits 16 data.length).length % 2 = 0 then .length else .digits) := by
  obtain ⟨digits, text, hex, count⟩ := dataRecord_digits address data
  have solid : ∀ c ∈ ':' :: digits, Text.isBlank c = false :=
    List.forall_mem_cons.mpr ⟨by decide, fun c member => (solid_of_isHex (hex c member)).1⟩
  have width := two_le_length_digits overlong
  have pairs := length_readBytes hex
  rw [text, readLine, Text.trim_of_solid solid]
  by_cases even : (Text.digits 16 data.length).length % 2 = 0
  · rw [if_pos (show digits.length % 2 = 0 by omega)] at pairs
    obtain ⟨bytes, read, half⟩ := Option.map_eq_some_iff.mp pairs
    have announced : (bytes.headD 0).toNat < 256 := UInt8.toNat_lt _
    have miscounted : bytes.length ≠ (bytes.headD 0).toNat + 5 := by omega
    simp only [read, if_pos even]
    exact readPayload_of_miscounted miscounted
  · rw [if_neg (show ¬digits.length % 2 = 0 by omega)] at pairs
    simp only [Option.map_eq_none_iff.mp pairs, if_neg even]

/-- A data record by itself, at any address and of any length, is read as its address modulo 65536
and its data if there are at most 255 bytes of them, and is refused if there are more. -/
theorem read_dataRecord (address : Int) (data : List UInt8) :
    read (dataRecord address data) =
      if data.length ≤ 255 then .ok [⟨(address % 65536).toNat, data⟩]
      else .error
        ⟨1, if (Text.digits 16 data.length).length % 2 = 0 then .length else .digits⟩ := by
  obtain ⟨digits, text, hex, _⟩ := dataRecord_digits address data
  have unbroken : ∀ c ∈ ':' :: digits, Text.isLineBreak c = false :=
    List.forall_mem_cons.mpr ⟨by decide, fun c member => (solid_of_isHex (hex c member)).2.1⟩
  have line : Text.splitLines (dataRecord address data) = [dataRecord address data] := by
    rw [text, Text.splitLines_single unbroken]
  rw [read, line, readLines]
  by_cases short : data.length ≤ 255
  · rw [if_pos short, readLine_dataRecord address (by omega)]
    rfl
  · rw [if_neg short, readLine_overlong address (by omega)]

end StepSequencer.IntelHex
