import StepSequencer.Proofs.IntelHex.Record

/-!
# Damaged files

The bytes of a record are bound by two checks: the first byte says how many there are, and all of
them sum to zero. Another value in one field breaks one of the two. In the first field it breaks the
number, and a reader that trusted it would look for the checksum at another place; in any other
field it breaks the sum, also where it would turn a data record into an end record. The lines before
a damaged one are data records that are read without a fault, so the damage is found wherever it is.
-/
namespace StepSequencer.IntelHex

/-- The number that two hexadecimal digits of either case write. -/
def pairValue? (high low : Char) : Option Nat := do
  let upper ← Text.hexValue? high
  let lower ← Text.hexValue? low
  return upper * 16 + lower

/-- The number that a field of a record writes. The fields are the pairs of digits behind the
colon, counted from zero. -/
def fieldValue? (record : List Char) (field : Nat) : Option Nat := do
  let high ← record[2 * field + 1]?
  let low ← record[2 * field + 2]?
  pairValue? high low

/-- A record with other digits in a field. -/
def replaceField (record : List Char) (field : Nat) (high low : Char) : List Char :=
  (record.set (2 * field + 1) high).set (2 * field + 2) low

/-- The file of an image with other digits in a field of a line, lines counted from zero. -/
def damagedFile (image : List UInt8) (base : Int) (line field : Nat) (high low : Char) : String :=
  String.ofList (((imageRecords image base).modify line fun record =>
    replaceField record field high low).flatMap fun record => record ++ ['\n'])

/-- Bytes that a record may consist of: their number is right, and they sum to zero. -/
structure Sealed (bytes : List UInt8) : Prop where
  counted : bytes.length = (bytes.headD 0).toNat + 5
  balanced : byteSum bytes = 0

/-! ### Digits -/

/-- A hexadecimal digit is the character of its value in one of the two cases. -/
theorem eq_digit_of_hexValue? {c : Char} {value : Nat} (digit : Text.hexValue? c = some value) :
    value < 16 ∧ (c = Text.upperDigit value ∨ c = Text.lowerDigit value) := by
  have whole : Char.ofNat c.toNat = c := Char.ofNat_toNat c
  unfold Text.hexValue? at digit
  split at digit
  · next decimal =>
    have bounds : 48 ≤ c.toNat ∧ c.toNat ≤ 57 := decimal
    have same := Option.some.inj digit
    have code : 0x30 + value = c.toNat := by omega
    have small : value < 10 := by omega
    refine ⟨by omega, .inl ?_⟩
    rw [Text.upperDigit, if_pos small, code, whole]
  · split at digit
    · next lower =>
      have bounds : 97 ≤ c.toNat ∧ c.toNat ≤ 102 := lower
      have same := Option.some.inj digit
      have code : 0x61 + (value - 10) = c.toNat := by omega
      have large : ¬value < 10 := by omega
      refine ⟨by omega, .inr ?_⟩
      rw [Text.lowerDigit, if_neg large, code, whole]
    · split at digit
      · next upper =>
        have bounds : 65 ≤ c.toNat ∧ c.toNat ≤ 70 := upper
        have same := Option.some.inj digit
        have code : 0x41 + (value - 10) = c.toNat := by omega
        have large : ¬value < 10 := by omega
        refine ⟨by omega, .inl ?_⟩
        rw [Text.upperDigit, if_neg large, code, whole]
      · contradiction

/-- A hexadecimal digit is no blank, and so neither a break nor a space between bytes. -/
theorem hexDigit_solid {c : Char} {value : Nat} (digit : Text.hexValue? c = some value) :
    Text.isBlank c = false ∧ Text.isLineBreak c = false ∧ isSpace c = false := by
  have lower : ∀ d < 16, Text.isBlank (Text.lowerDigit d) = false ∧
      Text.isLineBreak (Text.lowerDigit d) = false ∧ isSpace (Text.lowerDigit d) = false := by
    decide
  rcases eq_digit_of_hexValue? digit with ⟨small, rfl | rfl⟩
  · exact upperDigit_solid small
  · exact lower value small

/-- Two characters are a byte just if both are hexadecimal digits of it. -/
theorem pairValue?_eq_some_iff {high low : Char} {byte : Nat} :
    pairValue? high low = some byte ↔
      ∃ upper lower, Text.hexValue? high = some upper ∧ Text.hexValue? low = some lower ∧
        upper * 16 + lower = byte := by
  simp [pairValue?, Option.bind_eq_some_iff]

/-- The digits of a byte write its number. -/
theorem pairValue?_byte (byte : UInt8) :
    pairValue? (Text.upperDigit (byte.toNat / 16)) (Text.upperDigit (byte.toNat % 16)) =
      some byte.toNat := by
  have bound : byte.toNat < 256 := byte.toNat_lt
  rw [pairValue?_eq_some_iff]
  refine ⟨byte.toNat / 16, byte.toNat % 16, ?_, ?_, Nat.div_add_mod' ..⟩
  · exact Text.hexValue?_upperDigit (by omega)
  · exact Text.hexValue?_upperDigit (by omega)

/-! ### One record -/

/-- A byte has two digits. -/
theorem length_byteChars (bytes : List UInt8) : (byteChars bytes).length = 2 * bytes.length := by
  induction bytes with
  | nil => rfl
  | cons byte bytes ih =>
    rw [byteChars_cons, List.length_cons, List.length_cons, List.length_cons, ih]
    omega

/-- The fields of a record of bytes are the bytes. -/
theorem fieldValue?_record (bytes : List UInt8) (field : Nat) :
    fieldValue? (':' :: byteChars bytes) field = bytes[field]?.map UInt8.toNat := by
  induction bytes generalizing field with
  | nil => simp [fieldValue?, byteChars]
  | cons byte bytes ih =>
    rw [byteChars_cons]
    cases field with
    | zero => exact pairValue?_byte byte
    | succ field => exact ih field

/-- Other digits in a field of a record are read as another byte at its place. -/
theorem readBytes_replaced (bytes : List UInt8) {field : Nat} (within : field < bytes.length)
    {high low : Char} {byte : Nat} (written : pairValue? high low = some byte) :
    readBytes (((byteChars bytes).set (2 * field) high).set (2 * field + 1) low) =
      some (bytes.set field (UInt8.ofNat byte)) := by
  obtain ⟨upper, lower, first, second, rfl⟩ := pairValue?_eq_some_iff.mp written
  induction bytes generalizing field with
  | nil => exact absurd within (Nat.not_lt_zero field)
  | cons old bytes ih =>
    rw [byteChars_cons]
    cases field with
    | zero =>
      have solid : ¬isSpace high = true := by simp [(hexDigit_solid first).2.2]
      show readBytes (high :: low :: byteChars bytes) = _
      rw [readBytes, if_neg solid, first, second, readBytes_byteChars]
      rfl
    | succ field =>
      have later := ih (Nat.lt_of_succ_lt_succ within)
      have bound : old.toNat < 256 := old.toNat_lt
      have tens : old.toNat / 16 < 16 := by omega
      have units : old.toNat % 16 < 16 := by omega
      have solid : ¬isSpace (Text.upperDigit (old.toNat / 16)) = true := by
        simp [(upperDigit_solid tens).2.2]
      have whole : old.toNat / 16 * 16 + old.toNat % 16 = old.toNat := Nat.div_add_mod' ..
      show readBytes (Text.upperDigit (old.toNat / 16) :: Text.upperDigit (old.toNat % 16) ::
        ((byteChars bytes).set (2 * field) high).set (2 * field + 1) low) = _
      rw [readBytes, if_neg solid, Text.hexValue?_upperDigit tens, Text.hexValue?_upperDigit units,
        later]
      simp only [Option.bind_eq_bind, Option.bind_some, whole, UInt8.ofNat_toNat]
      rfl

/-- The characters of a record with other digits in a field are still those of one word. -/
theorem replaceField_solid (bytes : List UInt8) (field : Nat) {high low : Char} {byte : Nat}
    (written : pairValue? high low = some byte) :
    ∀ c ∈ replaceField (':' :: byteChars bytes) field high low,
      Text.isBlank c = false ∧ Text.isLineBreak c = false := by
  obtain ⟨upper, lower, first, second, _⟩ := pairValue?_eq_some_iff.mp written
  intro c member
  rcases List.mem_or_eq_of_mem_set member with outer | rfl
  · rcases List.mem_or_eq_of_mem_set outer with kept | rfl
    · rcases List.mem_cons.mp kept with rfl | digit
      · decide
      · exact byteChars_solid bytes c digit
    · have solid := hexDigit_solid first
      exact ⟨solid.1, solid.2.1⟩
  · have solid := hexDigit_solid second
    exact ⟨solid.1, solid.2.1⟩

/-- Another byte changes the sum by the difference. -/
theorem byteSum_set (bytes : List UInt8) {place : Nat} (within : place < bytes.length)
    (byte : UInt8) : byteSum (bytes.set place byte) + bytes[place] = byteSum bytes + byte := by
  induction bytes generalizing place with
  | nil => exact absurd within (Nat.not_lt_zero place)
  | cons first bytes ih =>
    have step (b : UInt8) (others : List UInt8) : byteSum (b :: others) = b + byteSum others := rfl
    cases place with
    | zero =>
      show byteSum (byte :: bytes) + first = byteSum (first :: bytes) + byte
      rw [step, step, UInt8.add_comm byte, UInt8.add_comm first, UInt8.add_assoc, UInt8.add_assoc,
        UInt8.add_comm byte]
    | succ place =>
      have inside : place < bytes.length := Nat.lt_of_succ_lt_succ within
      have later := ih inside
      show byteSum (first :: bytes.set place byte) + bytes[place] = byteSum (first :: bytes) + byte
      rw [step, step, UInt8.add_assoc, later, UInt8.add_assoc]

/-- Bytes whose number is not what the first says are refused for it. -/
theorem readPayload_of_miscounted {bytes : List UInt8}
    (miscounted : bytes.length ≠ (bytes.headD 0).toNat + 5) :
    readPayload bytes = .error .length := by
  unfold readPayload
  split
  · next count high low type data =>
    have wrong : data.length ≠ count.toNat + 1 := by
      intro right
      apply miscounted
      show data.length + 4 = count.toNat + 5
      omega
    rw [if_pos wrong]
  · rfl

/-- Bytes in the right number have all fields; four are too few for any number in the first. -/
theorem fields_of_counted {bytes : List UInt8}
    (counted : bytes.length = (bytes.headD 0).toNat + 5) :
    ∃ count high low type data, bytes = count :: high :: low :: type :: data ∧
      data.length = count.toNat + 1 := by
  rcases bytes with _ | ⟨count, _ | ⟨high, _ | ⟨low, _ | ⟨type, data⟩⟩⟩⟩
  case cons.cons.cons.cons =>
    have total : data.length + 4 = count.toNat + 5 := counted
    exact ⟨count, high, low, type, data, rfl, by omega⟩
  all_goals exact absurd counted (by simp)

/-- Bytes in the right number that do not sum to zero are refused for their checksum. -/
theorem readPayload_of_unbalanced {bytes : List UInt8}
    (counted : bytes.length = (bytes.headD 0).toNat + 5) (unbalanced : byteSum bytes ≠ 0) :
    readPayload bytes = .error .checksum := by
  obtain ⟨count, high, low, type, data, rfl, right⟩ := fields_of_counted counted
  have mismatched := mt (hasChecksum_iff (List.cons_ne_nil _ _)).mp unbalanced
  rw [readPayload, if_neg (not_not_intro right), Bool.eq_false_iff.mpr mismatched]
  rfl

/-- Another byte anywhere in sealed bytes is noticed: the first byte by the number of the others,
any other by the sum. -/
theorem readPayload_set {bytes : List UInt8} (intact : Sealed bytes) {field : Nat}
    (within : field < bytes.length) {byte : UInt8} (differs : bytes[field] ≠ byte) :
    readPayload (bytes.set field byte) =
      .error (if field = 0 then .length else .checksum) := by
  have counted := intact.counted
  by_cases first : field = 0
  · subst first
    rw [if_pos rfl]
    apply readPayload_of_miscounted
    cases bytes with
    | nil => exact absurd within (Nat.not_lt_zero 0)
    | cons count bytes =>
      intro right
      have old : bytes.length + 1 = count.toNat + 5 := counted
      have new : bytes.length + 1 = byte.toNat + 5 := right
      exact differs (UInt8.toNat_inj.mp (show count.toNat = byte.toNat by omega))
  · rw [if_neg first]
    have head : (bytes.set field byte).headD 0 = bytes.headD 0 := by
      cases bytes with
      | nil => rfl
      | cons count bytes =>
        cases field with
        | zero => exact absurd rfl first
        | succ field => rfl
    apply readPayload_of_unbalanced
    · rw [List.length_set, head, counted]
    · intro zero
      have shift := byteSum_set bytes within byte
      rw [zero, intact.balanced, UInt8.zero_add, UInt8.zero_add] at shift
      exact differs shift

/-- A sealed record with another number in a field is refused. -/
theorem readLine_replaceField {bytes : List UInt8} (intact : Sealed bytes) {field : Nat}
    (within : field < bytes.length) {high low : Char} {byte : Nat}
    (written : pairValue? high low = some byte)
    (differs : fieldValue? (':' :: byteChars bytes) field ≠ some byte) :
    readLine (replaceField (':' :: byteChars bytes) field high low) =
      .error (if field = 0 then .length else .checksum) := by
  have small : byte < 256 := by
    obtain ⟨upper, lower, first, second, rfl⟩ := pairValue?_eq_some_iff.mp written
    have tens := (eq_digit_of_hexValue? first).1
    have units := (eq_digit_of_hexValue? second).1
    omega
  have other : bytes[field] ≠ UInt8.ofNat byte := by
    intro same
    apply differs
    rw [fieldValue?_record, List.getElem?_eq_getElem within, same, Option.map_some,
      UInt8.toNat_ofNat_of_lt' small]
  have solid := replaceField_solid bytes field written
  have form : replaceField (':' :: byteChars bytes) field high low =
      ':' :: ((byteChars bytes).set (2 * field) high).set (2 * field + 1) low := rfl
  rw [readLine, Text.trim_of_solid fun c member => (solid c member).1, form]
  simp only [readBytes_replaced bytes within written, readPayload_set intact within other]

/-! ### A whole file -/

/-- The bytes of a data record are sealed. -/
theorem sealed_payload (address : Int) {data : List UInt8} (short : data.length < 256) :
    Sealed (payload address data) where
  counted := by
    show (data ++ [_]).length + 4 = (UInt8.ofNat data.length).toNat + 5
    rw [List.length_append, List.length_singleton, UInt8.toNat_ofNat_of_lt' short]
  balanced := byteSum_payload address short

/-- No block is longer than sixteen bytes. -/
theorem length_of_mem_blocks {image block : List UInt8} (member : block ∈ blocks image) :
    block.length ≤ blockSize := by
  fun_induction blocks image with
  | case1 => exact absurd member List.not_mem_nil
  | case2 image more ih =>
    rcases List.mem_cons.mp member with rfl | later
    · exact List.length_take_le blockSize image
    · exact ih later

/-- The records of an image are data records, at any base, with the end record behind them. -/
theorem imageRecords_split (image : List UInt8) (base : Int) :
    ∃ front, imageRecords image base = front ++ [endRecord] ∧
      ∀ record ∈ front, ∃ address data, data.length < 256 ∧ record = dataRecord address data := by
  refine ⟨_, rfl, ?_⟩
  intro record member
  obtain ⟨⟨block, place⟩, indexed, made⟩ := List.mem_filterMap.mp member
  have short : block.length ≤ blockSize :=
    length_of_mem_blocks (List.fst_mem_of_mem_zipIdx indexed)
  have size : blockSize = 16 := rfl
  dsimp only at made
  split at made
  · exact ⟨base + blockSize * place, block, by omega, (Option.some.inj made).symm⟩
  · contradiction

/-- Every record of an image is one of sealed bytes. -/
theorem sealed_of_mem_imageRecords {image : List UInt8} {base : Int} {record : List Char}
    (member : record ∈ imageRecords image base) :
    ∃ bytes, Sealed bytes ∧ record = ':' :: byteChars bytes := by
  obtain ⟨front, split, data⟩ := imageRecords_split image base
  rw [split, List.mem_append, List.mem_singleton] at member
  rcases member with known | rfl
  · obtain ⟨address, bytes, short, rfl⟩ := data record known
    exact ⟨_, sealed_payload address short, dataRecord_payload address short⟩
  · exact ⟨[0, 0, 0, endType, 0xFF], ⟨rfl, rfl⟩, by decide +kernel⟩

/-- The first line that is refused stops the reading, if the lines before it hold data. -/
theorem readLines_of_refused {front : List (List Char)} {record : List Char} {defect : Defect}
    (data : ∀ line ∈ front, ∃ chunk, readLine line = .ok (.data chunk))
    (refused : readLine record = .error defect) (number : Nat) (rest : List (List Char)) :
    readLines number (front ++ record :: rest) = .error ⟨number + front.length, defect⟩ := by
  induction front generalizing number with
  | nil =>
    rw [List.nil_append, readLines, refused]
    rfl
  | cons line front ih =>
    have later := ih (fun other member => data other (List.mem_cons_of_mem line member))
      (number + 1)
    have place : number + 1 + front.length = number + (line :: front).length := by
      rw [List.length_cons]
      omega
    obtain ⟨chunk, read⟩ := data line List.mem_cons_self
    rw [List.cons_append, readLines, read]
    dsimp only
    rw [later, place]
    rfl

/-- Whatever stands before a line of an image's records holds data. -/
theorem data_before {image : List UInt8} {base : Int} {front rest : List (List Char)}
    {record : List Char} (split : imageRecords image base = front ++ record :: rest) :
    ∀ line ∈ front, ∃ chunk, readLine line = .ok (.data chunk) := by
  obtain ⟨records, whole, data⟩ := imageRecords_split image base
  have before : front <+: records := by
    have both : front ++ record :: rest = records ++ [endRecord] := split.symm.trans whole
    have shorter : front.length ≤ records.length := by
      have lengths := congrArg List.length both
      simp only [List.length_append, List.length_cons, List.length_nil] at lengths
      omega
    exact List.prefix_of_prefix_length_le (List.prefix_append front _)
      (both ▸ List.prefix_append records _) shorter
  intro line member
  obtain ⟨address, bytes, short, rfl⟩ := data line (before.subset member)
  exact ⟨_, readLine_dataRecord address short⟩

/-- In the file of any image at any base, other digits of either case in any field of any line, the
end record included, make the reading fail at that line, if they write another number than the
field had. The number of bytes is noticed by the length of the record, and everything else by the
checksum. -/
theorem read_damagedFile (image : List UInt8) (base : Int) {line field : Nat} {record : List Char}
    (present : (imageRecords image base)[line]? = some record)
    (within : 2 * field + 2 < record.length) {high low : Char} {byte : Nat}
    (written : pairValue? high low = some byte) (differs : fieldValue? record field ≠ some byte) :
    read (damagedFile image base line field high low).toList =
      .error ⟨line + 1, if field = 0 then .length else .checksum⟩ := by
  obtain ⟨inside, found⟩ := List.getElem?_eq_some_iff.mp present
  obtain ⟨bytes, intact, rfl⟩ := sealed_of_mem_imageRecords (found ▸ List.getElem_mem inside)
  have room : field < bytes.length := by
    by_cases beyond : field < bytes.length
    · exact beyond
    · rw [List.length_cons, length_byteChars] at within
      omega
  have split : imageRecords image base = (imageRecords image base).take line ++
      (':' :: byteChars bytes) :: (imageRecords image base).drop (line + 1) := by
    rw [← found, ← List.drop_eq_getElem_cons inside, List.take_append_drop]
  have position : ((imageRecords image base).take line).length = line := by
    rw [List.length_take]
    omega
  have damaged : (imageRecords image base).modify line
        (fun record => replaceField record field high low) =
      (imageRecords image base).take line ++
        replaceField (':' :: byteChars bytes) field high low ::
          (imageRecords image base).drop (line + 1) := by
    rw [List.modify_eq_take_cons_drop inside, found]
  have unbroken : ∀ record ∈ (imageRecords image base).take line ++
        replaceField (':' :: byteChars bytes) field high low ::
          (imageRecords image base).drop (line + 1),
      ∀ c ∈ record, Text.isLineBreak c = false := by
    have kept {other : List Char} (member : other ∈ imageRecords image base) :
        ∀ c ∈ other, Text.isLineBreak c = false := by
      obtain ⟨others, _, rfl⟩ := sealed_of_mem_imageRecords member
      exact record_unbroken others
    intro other member
    rcases List.mem_append.mp member with before | behind
    · exact kept (List.mem_of_mem_take before)
    · rcases List.mem_cons.mp behind with rfl | after
      · exact fun c inner => (replaceField_solid bytes field written c inner).2
      · exact kept (List.mem_of_mem_drop after)
  rw [read, damagedFile, String.toList_ofList, damaged, Text.splitLines_lines unbroken,
    readLines_of_refused (data_before split) (readLine_replaceField intact room written differs),
    position, Nat.add_comm]

/-- A data record at a base below zero whose type is turned into that of an end record. -/
theorem read_damagedFile_early_end :
    let image : List UInt8 := List.replicate 16 0 ++ List.replicate 16 7 ++ [0, 9]
    (imageRecords image (-34))[1]? = some ":02FFFE000009F8".toList ∧
      read (damagedFile image (-34) 1 3 '0' '1').toList = .error ⟨2, .checksum⟩ := by
  intro image
  have present : (imageRecords image (-34))[1]? = some ":02FFFE000009F8".toList := by
    decide +kernel
  have written : pairValue? '0' '1' = some 1 := by decide
  exact ⟨present, read_damagedFile image (-34) present (by decide) written (by decide)⟩

end StepSequencer.IntelHex
