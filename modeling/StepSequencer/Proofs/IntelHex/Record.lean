import StepSequencer.IntelHex.Reader
import StepSequencer.Proofs.Text.Digits
import StepSequencer.Proofs.Text.Lines

/-!
# Records that are read back

The writer of a data record computes text field by field and leaves the type out of the checksum;
the reader sees one row of bytes and computes the checksum of all but the last. That is the last one
just if all bytes sum to zero (`hasChecksum_iff`). `dataRecord_payload` puts the text into the
reader's terms, and `readLine_dataRecord` is the round trip of a single record.
-/
namespace StepSequencer.IntelHex

/-- A character of a record is no blank, and so neither a break nor a space between bytes. -/
theorem upperDigit_solid {d : Nat} (small : d < 16) :
    Text.isBlank (Text.upperDigit d) = false ∧ Text.isLineBreak (Text.upperDigit d) = false ∧
      isSpace (Text.upperDigit d) = false := by
  have each : ∀ d < 16, Text.isBlank (Text.upperDigit d) = false ∧
      Text.isLineBreak (Text.upperDigit d) = false ∧ isSpace (Text.upperDigit d) = false := by
    decide
  exact each d small

/-- The digits of a first byte stand before those of the others. -/
theorem byteChars_cons (b : UInt8) (bytes : List UInt8) :
    byteChars (b :: bytes) =
      Text.upperDigit (b.toNat / 16) :: Text.upperDigit (b.toNat % 16) :: byteChars bytes := by
  rw [byteChars, List.flatMap_cons, Text.hexUpperChars_byte b.toNat_lt]
  rfl

/-- Bytes are written one by one. -/
theorem byteChars_append (first second : List UInt8) :
    byteChars (first ++ second) = byteChars first ++ byteChars second :=
  List.flatMap_append

/-- The two digits of a number below 256 are those of its byte. -/
theorem hexUpperChars_eq_byteChars {n : Nat} (small : n < 256) :
    Text.hexUpperChars 2 n = byteChars [UInt8.ofNat n] := by
  have exact : (UInt8.ofNat n).toNat = n := UInt8.toNat_ofNat_of_lt' small
  rw [byteChars_cons, exact, Text.hexUpperChars_byte small]
  rfl

/-- The digits of bytes are read as the bytes. -/
theorem readBytes_byteChars (bytes : List UInt8) : readBytes (byteChars bytes) = some bytes := by
  induction bytes with
  | nil => rfl
  | cons b bytes ih =>
    have bound : b.toNat < 256 := b.toNat_lt
    have high : b.toNat / 16 < 16 := by omega
    have low : b.toNat % 16 < 16 := Nat.mod_lt _ (by decide)
    have whole : b.toNat / 16 * 16 + b.toNat % 16 = b.toNat := Nat.div_add_mod' ..
    rw [byteChars_cons, readBytes, if_neg (by simp [(upperDigit_solid high).2.2]),
      Text.hexValue?_upperDigit high, Text.hexValue?_upperDigit low, ih]
    simp only [Option.bind_eq_bind, Option.bind_some, whole, UInt8.ofNat_toNat]
    rfl

/-- The digits of bytes hold no blank and no break. -/
theorem byteChars_solid (bytes : List UInt8) :
    ∀ c ∈ byteChars bytes, Text.isBlank c = false ∧ Text.isLineBreak c = false := by
  induction bytes with
  | nil => exact fun c member => absurd member List.not_mem_nil
  | cons b bytes ih =>
    intro c member
    have bound : b.toNat < 256 := b.toNat_lt
    rw [byteChars_cons, List.mem_cons, List.mem_cons] at member
    rcases member with rfl | rfl | later
    · have solid := upperDigit_solid (show b.toNat / 16 < 16 by omega)
      exact ⟨solid.1, solid.2.1⟩
    · have solid := upperDigit_solid (show b.toNat % 16 < 16 by omega)
      exact ⟨solid.1, solid.2.1⟩
    · exact ih c later

/-- The fields of a record that its checksum is made from. -/
def summed (address : Int) (data : List UInt8) : List Int :=
  data.length :: address / 256 % 256 :: address % 256 :: data.map fun b => (b.toNat : Int)

/-- The bytes of a data record. -/
def payload (address : Int) (data : List UInt8) : List UInt8 :=
  UInt8.ofNat data.length :: byteOf (address / 256) :: byteOf address :: dataType ::
    (data ++ [byteOf (checksum (summed address data))])

/-- The byte of an integer, as an integer. -/
theorem toNat_byteOf (value : Int) : ((byteOf value).toNat : Int) = value % 256 := by
  have low := Int.emod_nonneg value (by decide : (256 : Int) ≠ 0)
  have high := Int.emod_lt_of_pos value (by decide : (0 : Int) < 256)
  rw [byteOf, UInt8.toNat_ofNat_of_lt' (show (value % 256).toNat < 256 by omega)]
  omega

/-- The two digits of a number between 0 and 255 are those of its byte. -/
theorem hexUpperChars_eq_byteOf {n value : Int} (same : n = value % 256) :
    Text.hexUpperChars 2 n = byteChars [byteOf value] := by
  have low := Int.emod_nonneg value (by decide : (256 : Int) ≠ 0)
  have high := Int.emod_lt_of_pos value (by decide : (0 : Int) < 256)
  have natural : n = ((value % 256).toNat : Int) := by omega
  rw [natural, hexUpperChars_eq_byteChars (by omega), byteOf]

/-- The four digits of an address are those of its high and of its low byte. -/
theorem hexUpperChars_address (address : Int) :
    Text.hexUpperChars 4 (address % 65536) =
      byteChars [byteOf (address / 256), byteOf address] := by
  obtain ⟨n, natural⟩ := Int.eq_ofNat_of_zero_le
    (Int.emod_nonneg address (by decide : (65536 : Int) ≠ 0))
  have high : ((n / 256 : Nat) : Int) = address / 256 % 256 := by omega
  have low : ((n % 256 : Nat) : Int) = address % 256 := by omega
  rw [natural, Text.hexUpperChars_word, hexUpperChars_eq_byteOf high, hexUpperChars_eq_byteOf low,
    ← byteChars_append]
  rfl

/-- The text of a data record is a colon, the number of its data bytes in as many digits as that
takes, and the digits of its other bytes. -/
theorem dataRecord_eq (address : Int) (data : List UInt8) :
    dataRecord address data =
      ':' :: (Text.hexUpperChars 2 data.length ++ byteChars (payload address data).tail) := by
  have type : Text.hexUpperChars 2 dataType.toNat = byteChars [dataType] :=
    hexUpperChars_eq_byteChars (by decide)
  have reduced : checksum (summed address data) = checksum (summed address data) % 256 := by
    rw [checksum, Int.emod_emod]
  simp only [dataRecord]
  rw [hexUpperChars_address, type, ← summed, hexUpperChars_eq_byteOf reduced]
  simp [← byteChars_append, payload]

/-- The text of a data record is a colon and the digits of its bytes. -/
theorem dataRecord_payload (address : Int) {data : List UInt8} (short : data.length < 256) :
    dataRecord address data = ':' :: byteChars (payload address data) := by
  rw [dataRecord_eq, hexUpperChars_eq_byteChars short, ← byteChars_append]
  rfl

/-- The sum of bytes modulo 256. -/
def byteSum (bytes : List UInt8) : UInt8 := bytes.foldr (fun b sum => b + sum) 0

/-- The sum of the numbers of bytes. -/
def total (bytes : List UInt8) : Int :=
  (bytes.map fun b => (b.toNat : Int)).foldr (fun field sum => field + sum) 0

/-- The sum of bytes is the sum of their numbers modulo 256. -/
theorem toNat_byteSum (bytes : List UInt8) :
    ((byteSum bytes).toNat : Int) = total bytes % 256 := by
  induction bytes with
  | nil => rfl
  | cons b bytes ih =>
    have step : ((byteSum (b :: bytes)).toNat : Int) =
        ((b.toNat : Int) + ((byteSum bytes).toNat : Int)) % 256 := by
      rw [byteSum, List.foldr_cons, UInt8.toNat_add]
      rfl
    have sum : total (b :: bytes) = b.toNat + total bytes := rfl
    rw [step, ih, sum, Int.add_emod_emod]

/-- The sum of bytes is zero just if that of their numbers is a multiple of 256. -/
theorem byteSum_eq_zero_iff (bytes : List UInt8) : byteSum bytes = 0 ↔ total bytes % 256 = 0 := by
  rw [← toNat_byteSum, ← UInt8.toNat_inj, UInt8.toNat_zero]
  omega

/-- Bytes sum to zero exactly when the last of them is the checksum of the others. -/
theorem total_eq_zero_iff_checksum (front : List UInt8) (last : UInt8) :
    total (front ++ [last]) % 256 = 0 ↔
      checksum (front.map fun b => (b.toNat : Int)) = last.toNat := by
  have bound : last.toNat < 256 := last.toNat_lt
  have split : total (front ++ [last]) = total front + last.toNat := by
    induction front with
    | nil => simp [total]
    | cons b front ih =>
      have step (others : List UInt8) : total (b :: others) = b.toNat + total others := rfl
      rw [List.cons_append, step, step, ih, Int.add_assoc]
  have sum : checksum (front.map fun b => (b.toNat : Int)) = -total front % 256 := rfl
  rw [split, sum]
  omega

/-- The last byte is the checksum of the others just if all bytes sum to zero. -/
theorem hasChecksum_iff {bytes : List UInt8} (some : bytes ≠ []) :
    hasChecksum bytes = true ↔ byteSum bytes = 0 := by
  obtain ⟨front, last, rfl⟩ : ∃ front last, bytes = front ++ [last] :=
    ⟨_, _, (List.dropLast_concat_getLast some).symm⟩
  rw [byteSum_eq_zero_iff, total_eq_zero_iff_checksum, hasChecksum, List.dropLast_concat,
    List.getLastD_concat, beq_iff_eq]

/-- The bytes of a data record sum to zero. -/
theorem byteSum_payload (address : Int) {data : List UInt8} (short : data.length < 256) :
    byteSum (payload address data) = 0 := by
  have last (items : List Int) (value : Int) :
      (items ++ [value]).foldr (fun field sum => field + sum) 0 =
        items.foldr (fun field sum => field + sum) 0 + value := by
    induction items with
    | nil => simp
    | cons item items ih => simp [ih, Int.add_assoc]
  have count : ((UInt8.ofNat data.length).toNat : Int) = data.length := by
    rw [UInt8.toNat_ofNat_of_lt' short]
  have type : (dataType.toNat : Int) = 0 := by decide
  have sum := toNat_byteSum (payload address data)
  simp only [total, payload, List.map_cons, List.map_append, List.map_nil, List.foldr_cons, last,
    toNat_byteOf, count, type, checksum, summed] at sum
  apply UInt8.toNat_inj.mp
  simp only [payload, checksum, summed, List.foldr_cons]
  simp only [UInt8.toNat_zero]
  omega

/-- The reader of payloads takes the bytes of a data record for its address and data. -/
theorem readPayload_payload (address : Int) {data : List UInt8} (short : data.length < 256) :
    readPayload (payload address data) = .ok (.data ⟨(address % 65536).toNat, data⟩) := by
  have count : (UInt8.ofNat data.length).toNat = data.length := UInt8.toNat_ofNat_of_lt' short
  have closed : hasChecksum (payload address data) = true :=
    (hasChecksum_iff (List.cons_ne_nil _ _)).mpr (byteSum_payload address short)
  have high := toNat_byteOf (address / 256)
  have low := toNat_byteOf address
  have whole : (byteOf (address / 256)).toNat * 256 + (byteOf address).toNat =
      (address % 65536).toNat := by omega
  rw [payload] at closed
  rw [payload, readPayload, count, closed, whole, if_neg (by simp), if_neg (by simp),
    if_neg (by decide), if_neg (by decide), List.take_left]

/-- A data record is read as its address, modulo 65536, and its data. -/
theorem readLine_dataRecord (address : Int) {data : List UInt8} (short : data.length < 256) :
    readLine (dataRecord address data) = .ok (.data ⟨(address % 65536).toNat, data⟩) := by
  have solid : ∀ c ∈ ':' :: byteChars (payload address data), Text.isBlank c = false := by
    intro c member
    rcases List.mem_cons.mp member with rfl | digit
    · decide
    · exact (byteChars_solid _ c digit).1
  rw [dataRecord_payload address short, readLine, Text.trim_of_solid solid]
  simp only [readBytes_byteChars, readPayload_payload address short]

/-- A record is one line. -/
theorem record_unbroken (bytes : List UInt8) :
    ∀ c ∈ ':' :: byteChars bytes, Text.isLineBreak c = false := by
  intro c member
  rcases List.mem_cons.mp member with rfl | digit
  · decide
  · exact (byteChars_solid bytes c digit).2

/-- A data record is one line. -/
theorem dataRecord_unbroken (address : Int) {data : List UInt8} (short : data.length < 256) :
    ∀ c ∈ dataRecord address data, Text.isLineBreak c = false := by
  rw [dataRecord_payload address short]
  exact record_unbroken _

/-- The end record stops the reading. -/
theorem readLine_endRecord : readLine endRecord = .ok .stop := rfl

end StepSequencer.IntelHex
