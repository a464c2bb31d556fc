import Mathlib.Data.List.Forall2
import StepSequencer.Proofs.IntelHex.Damage

/-!
# Files that are accepted

A line of a file is blank or a record, and a record is described by its bytes: how they are written,
how many there are, what they sum to and which type they name. The reader checks all this in one
pass and stops at the first end record or at the first line that is neither. `read_exact` says that
it accepts the files whose lines, up to the first end record, are blank or records, and no others.
-/
namespace StepSequencer.IntelHex

/-- Bytes written as pairs of hexadecimal digits, with spaces before, between and behind pairs. -/
inductive Writes : List Char → List UInt8 → Prop
  | nil : Writes [] []
  | space {c : Char} {text : List Char} {bytes : List UInt8} (blank : isSpace c = true)
      (behind : Writes text bytes) : Writes (c :: text) bytes
  | pair {high low : Char} {byte : UInt8} {text : List Char} {bytes : List UInt8}
      (written : pairValue? high low = some byte.toNat) (behind : Writes text bytes) :
      Writes (high :: low :: text) (byte :: bytes)

/-- A line that is a record of bytes, blanks around it aside: five bytes or more, as many as the
first of them says, with a sum that is zero modulo 256. -/
structure IsRecord (line : List Char) (bytes : List UInt8) : Prop where
  written : ∃ text, Text.trim line = ':' :: text ∧ Writes text bytes
  long : 5 ≤ bytes.length
  counted : (bytes.headD 0).toNat = bytes.length - 5
  balanced : total bytes % 256 = 0

/-- The address and the data of a record. -/
def chunkOf (bytes : List UInt8) : Chunk where
  address := (bytes.getD 1 0).toNat * 256 + (bytes.getD 2 0).toNat
  data := (bytes.drop 4).dropLast

/-- What a line of a file stands for, if it is blank or a record of one of the two types. -/
inductive Means (line : List Char) : Line → Prop
  | blank (empty : Text.trim line = []) : Means line .blank
  | data {bytes : List UInt8} (record : IsRecord line bytes) (type : bytes[3]? = some dataType) :
      Means line (.data (chunkOf bytes))
  | stop {bytes : List UInt8} (record : IsRecord line bytes) (type : bytes[3]? = some endType) :
      Means line .stop

/-- A line that is blank or a record. -/
def Proper (line : List Char) : Prop := ∃ meaning, Means line meaning

/-- The data that a line holds. -/
def Line.chunk? : Line → Option Chunk
  | data chunk => some chunk
  | _ => none

/-! ### The bytes of a record -/

/-- A space before bytes does not count. -/
theorem readBytes_space {c : Char} (blank : isSpace c = true) (text : List Char) :
    readBytes (c :: text) = readBytes text := by
  cases text with
  | nil => exact if_pos blank
  | cons d text => rw [readBytes, if_pos blank]

/-- The reader of bytes reads exactly what is written, and reads it as what is written. -/
theorem readBytes_eq_some_iff {text : List Char} {bytes : List UInt8} :
    readBytes text = some bytes ↔ Writes text bytes := by
  constructor
  · intro read
    fun_induction readBytes text generalizing bytes with
    | case1 =>
      obtain rfl := Option.some.inj read
      exact .nil
    | case2 c blank =>
      obtain rfl := Option.some.inj read
      exact .space blank .nil
    | case3 => contradiction
    | case4 c d rest blank ih => exact .space blank (ih read)
    | case5 c d rest solid ih =>
      obtain ⟨high, first, read⟩ := Option.bind_eq_some_iff.mp read
      obtain ⟨low, second, read⟩ := Option.bind_eq_some_iff.mp read
      obtain ⟨others, behind, same⟩ := Option.bind_eq_some_iff.mp read
      obtain rfl := Option.some.inj same
      have tens := (eq_digit_of_hexValue? first).1
      have units := (eq_digit_of_hexValue? second).1
      refine .pair (pairValue?_eq_some_iff.mpr ⟨high, low, first, second, ?_⟩) (ih behind)
      exact (UInt8.toNat_ofNat_of_lt' (show high * 16 + low < 256 by omega)).symm
  · intro written
    induction written with
    | nil => rw [readBytes]
    | space blank _ ih => rw [readBytes_space blank, ih]
    | @pair high low byte text bytes written _ ih =>
      -- A digit is no space, so a pair is never taken for a space and something else.
      obtain ⟨upper, lower, first, second, whole⟩ := pairValue?_eq_some_iff.mp written
      have solid : ¬isSpace high = true := by simp [(hexDigit_solid first).2.2]
      rw [readBytes, if_neg solid, first, second, ih]
      simp only [Option.bind_eq_bind, Option.bind_some, whole, UInt8.ofNat_toNat]
      rfl

/-- What bytes in the right number and with the right sum are taken for is told by their type. -/
theorem readPayload_of_sealed {bytes : List UInt8} (intact : Sealed bytes) :
    ∃ type, bytes[3]? = some type ∧
      readPayload bytes =
        if type = endType then .ok .stop
        else if type ≠ dataType then .error (.type type)
        else .ok (.data (chunkOf bytes)) := by
  obtain ⟨count, high, low, type, data, rfl, length⟩ := fields_of_counted intact.counted
  have cut : data.take count.toNat = data.dropLast := by
    rw [List.dropLast_eq_take, length, Nat.add_sub_cancel]
  refine ⟨type, rfl, ?_⟩
  rw [readPayload, if_neg (not_not_intro length),
    (hasChecksum_iff (List.cons_ne_nil _ _)).mpr intact.balanced, cut]
  rfl

/-! ### One line -/

/-- The bytes of a record have the number and the sum of one. -/
theorem IsRecord.sealed {line : List Char} {bytes : List UInt8} (record : IsRecord line bytes) :
    Sealed bytes := by
  have long := record.long
  have counted := record.counted
  exact ⟨by omega, (byteSum_eq_zero_iff bytes).mpr record.balanced⟩

/-- A line of bytes with the number and the sum of a record is one. -/
theorem isRecord_of_sealed {line text : List Char} {bytes : List UInt8}
    (start : Text.trim line = ':' :: text) (read : readBytes text = some bytes)
    (intact : Sealed bytes) : IsRecord line bytes := by
  have counted := intact.counted
  exact ⟨⟨text, start, readBytes_eq_some_iff.mp read⟩, by omega, by omega,
    (byteSum_eq_zero_iff bytes).mp intact.balanced⟩

/-- Only sealed bytes are read. -/
theorem sealed_of_readPayload {bytes : List UInt8} {meaning : Line}
    (read : readPayload bytes = .ok meaning) : Sealed bytes := by
  by_cases counted : bytes.length = (bytes.headD 0).toNat + 5
  · by_cases balanced : byteSum bytes = 0
    · exact ⟨counted, balanced⟩
    · rw [readPayload_of_unbalanced counted balanced] at read
      contradiction
  · rw [readPayload_of_miscounted counted] at read
    contradiction

/-- A record is read by its bytes. -/
theorem readLine_of_isRecord {line : List Char} {bytes : List UInt8}
    (record : IsRecord line bytes) : readLine line = readPayload bytes := by
  obtain ⟨text, start, written⟩ := record.written
  rw [readLine, start]
  simp only [readBytes_eq_some_iff.mpr written]

/-- A line is read exactly when it stands for something, and as what it stands for. -/
theorem readLine_eq_ok_iff {line : List Char} {meaning : Line} :
    readLine line = .ok meaning ↔ Means line meaning := by
  constructor
  · intro read
    rw [readLine] at read
    split at read
    · next empty =>
      obtain rfl := Except.ok.inj read
      exact .blank empty
    · next text start =>
      split at read
      · contradiction
      · next bytes written =>
        have intact := sealed_of_readPayload read
        have record := isRecord_of_sealed start written intact
        obtain ⟨type, here, payload⟩ := readPayload_of_sealed intact
        rw [payload] at read
        split at read
        · next stop =>
          obtain rfl := Except.ok.inj read
          exact .stop record (stop ▸ here)
        · split at read
          · contradiction
          · next data =>
            obtain rfl := Except.ok.inj read
            exact .data record (not_not.mp data ▸ here)
    · contradiction
  · intro means
    cases means with
    | blank empty => rw [readLine, empty]
    | data record type =>
      obtain ⟨found, here, payload⟩ := readPayload_of_sealed record.sealed
      obtain rfl : dataType = found := Option.some.inj (type.symm.trans here)
      rw [readLine_of_isRecord record, payload]
      rfl
    | stop record type =>
      obtain ⟨found, here, payload⟩ := readPayload_of_sealed record.sealed
      obtain rfl : endType = found := Option.some.inj (type.symm.trans here)
      rw [readLine_of_isRecord record, payload]
      rfl

/-- Just the lines that are blank or records are read. -/
theorem readLine_isOk_iff {line : List Char} : (readLine line).isOk = true ↔ Proper line := by
  cases read : readLine line with
  | error defect =>
    refine iff_of_false Bool.false_ne_true ?_
    rintro ⟨meaning, means⟩
    rw [readLine_eq_ok_iff.mpr means] at read
    contradiction
  | ok meaning => exact iff_of_true rfl ⟨meaning, readLine_eq_ok_iff.mp read⟩

/-- A line that is neither blank nor a record is refused. -/
theorem exists_defect {line : List Char} (improper : ¬Proper line) :
    ∃ defect, readLine line = .error defect := by
  rw [← readLine_isOk_iff] at improper
  cases read : readLine line with
  | error defect => exact ⟨defect, rfl⟩
  | ok meaning =>
    rw [read] at improper
    exact absurd rfl improper

/-- Whether a line has a meaning can be computed. -/
instance (line : List Char) (meaning : Line) : Decidable (Means line meaning) :=
  decidable_of_iff (readLine line = .ok meaning) readLine_eq_ok_iff

/-- Whether a line has any meaning can be computed. -/
instance (line : List Char) : Decidable (Proper line) :=
  decidable_of_iff ((readLine line).isOk = true) readLine_isOk_iff

/-! ### A whole file -/

/-- The lines up to the first end record and with it, or all lines if there is none. -/
def readPart (lines : List (List Char)) : List (List Char) :=
  lines.take (lines.findIdx (fun line => decide (Means line .stop)) + 1)

/-- Reading stops behind an end record. -/
theorem readPart_cons (line : List Char) (lines : List (List Char)) :
    readPart (line :: lines) = line :: if Means line .stop then [] else readPart lines := by
  rw [readPart, List.findIdx_cons, List.take_succ_cons]
  by_cases stop : Means line .stop
  · simp [stop]
  · simp [stop, readPart]

/-- A line before the end record is passed with the data that it holds. -/
theorem readLines_cons {number : Nat} {line : List Char} {lines : List (List Char)} {meaning : Line}
    (read : readLine line = .ok meaning) (goesOn : meaning ≠ .stop) :
    readLines number (line :: lines) =
      (readLines (number + 1) lines).map fun chunks => meaning.chunk?.toList ++ chunks := by
  rw [readLines, read]
  cases meaning with
  | stop => exact absurd rfl goesOn
  | blank => cases readLines (number + 1) lines <;> rfl
  | data chunk => cases readLines (number + 1) lines <;> rfl

/-- Lines have meanings together if each of them has one. -/
theorem exists_meanings_iff {lines : List (List Char)} :
    (∃ meanings, List.Forall₂ Means lines meanings) ↔ ∀ line ∈ lines, Proper line := by
  induction lines with
  | nil => exact iff_of_true ⟨[], .nil⟩ (List.forall_mem_nil _)
  | cons line lines ih =>
    rw [List.forall_mem_cons, ← ih]
    constructor
    · rintro ⟨meanings, all⟩
      obtain ⟨meaning, others, means, behind, _⟩ := List.forall₂_cons_left_iff.mp all
      exact ⟨⟨meaning, means⟩, others, behind⟩
    · rintro ⟨⟨meaning, means⟩, others, behind⟩
      exact ⟨meaning :: others, .cons means behind⟩

/-- The data of a line comes before the data behind it. -/
theorem filterMap_chunk?_cons (meaning : Line) (meanings : List Line) :
    (meaning :: meanings).filterMap Line.chunk? =
      meaning.chunk?.toList ++ meanings.filterMap Line.chunk? := by
  cases meaning <;> rfl

/-- Lines are read exactly when all that count stand for something, and as the data of these. -/
theorem readLines_eq_ok_iff {number : Nat} {lines : List (List Char)} {chunks : List Chunk} :
    readLines number lines = .ok chunks ↔
      ∃ meanings, List.Forall₂ Means (readPart lines) meanings ∧
        meanings.filterMap Line.chunk? = chunks := by
  induction lines generalizing number chunks with
  | nil =>
    rw [readLines, Except.ok.injEq]
    constructor
    · rintro rfl
      exact ⟨[], .nil, rfl⟩
    · rintro ⟨meanings, all, rfl⟩
      rw [List.forall₂_nil_left_iff.mp all]
      rfl
  | cons line lines ih =>
    rw [readPart_cons]
    cases read : readLine line with
    | error defect =>
      rw [readLines, read]
      refine iff_of_false (by simp) ?_
      rintro ⟨meanings, all, _⟩
      obtain ⟨meaning, _, means, _⟩ := List.forall₂_cons_left_iff.mp all
      rw [readLine_eq_ok_iff.mpr means] at read
      contradiction
    | ok meaning =>
      have means : Means line meaning := readLine_eq_ok_iff.mp read
      -- A line stands for one thing only: for what it is read as.
      have only {other : Line} (also : Means line other) : other = meaning :=
        Except.ok.inj ((readLine_eq_ok_iff.mpr also).symm.trans read)
      by_cases stop : meaning = .stop
      · subst stop
        rw [readLines, read, if_pos means, Except.ok.injEq]
        constructor
        · rintro rfl
          exact ⟨[.stop], .cons means .nil, rfl⟩
        · rintro ⟨meanings, all, rfl⟩
          obtain ⟨other, rest, also, behind, rfl⟩ := List.forall₂_cons_left_iff.mp all
          rw [only also, List.forall₂_nil_left_iff.mp behind]
          rfl
      · rw [readLines_cons read stop, if_neg fun also => stop (only also).symm]
        constructor
        · intro mapped
          cases later : readLines (number + 1) lines with
          | error fault =>
            rw [later] at mapped
            contradiction
          | ok others =>
            rw [later] at mapped
            obtain rfl := Except.ok.inj mapped
            obtain ⟨meanings, all, rfl⟩ := ih.mp later
            exact ⟨meaning :: meanings, .cons means all, filterMap_chunk?_cons meaning meanings⟩
        · rintro ⟨meanings, all, rfl⟩
          obtain ⟨other, rest, also, behind, rfl⟩ := List.forall₂_cons_left_iff.mp all
          rw [only also, ih.mpr ⟨rest, behind, rfl⟩, filterMap_chunk?_cons]
          rfl

/-- The first line that counts and is not proper is the one that is refused. -/
theorem readLines_of_improper (number : Nat) {lines : List (List Char)} {place : Nat}
    {line : List Char} (here : (readPart lines)[place]? = some line) (improper : ¬Proper line)
    (before : ∀ earlier ∈ (readPart lines).take place, Proper earlier) :
    ∃ defect, readLines number lines = .error ⟨number + place, defect⟩ := by
  induction lines generalizing number place with
  | nil => contradiction
  | cons first lines ih =>
    rw [readPart_cons] at here before
    cases place with
    | zero =>
      obtain rfl : first = line := Option.some.inj here
      obtain ⟨defect, refused⟩ := exists_defect improper
      exact ⟨defect, by rw [readLines, refused]; rfl⟩
    | succ place =>
      rw [List.take_succ_cons] at before
      obtain ⟨⟨meaning, means⟩, others⟩ := List.forall_mem_cons.mp before
      rw [List.getElem?_cons_succ] at here
      -- Behind an end record there would be no line at the next place.
      have goesOn : ¬Means first .stop := by
        intro stop
        rw [if_pos stop] at here
        contradiction
      rw [if_neg goesOn] at here others
      obtain ⟨defect, refused⟩ := ih (number + 1) here others
      refine ⟨defect, ?_⟩
      rw [readLines_cons (readLine_eq_ok_iff.mpr means) fun stop => goesOn (stop ▸ means), refused,
        Nat.add_assoc, Nat.add_comm 1]
      rfl

/-- Reading a text succeeds exactly when every line up to the first end record is blank or a record,
and gives the addresses and data of the data records in their order. Otherwise it fails at the first
line that is neither, and the message has the number of that line, counted from one. The sum of a
record is zero exactly when its last byte is the checksum of the others. -/
theorem read_exact (text : List Char) :
    let part := readPart (Text.splitLines text)
    ((∃ chunks, read text = .ok chunks) ↔ ∀ line ∈ part, Proper line) ∧
    (∀ chunks, read text = .ok chunks →
      ∃ meanings, List.Forall₂ Means part meanings ∧ meanings.filterMap Line.chunk? = chunks) ∧
    (∀ (place : Nat) (line : List Char), part[place]? = some line → ¬Proper line →
      (∀ earlier ∈ part.take place, Proper earlier) →
        ∃ defect, read text = .error ⟨place + 1, defect⟩ ∧
          Fault.message ⟨place + 1, defect⟩ =
            "Line " ++ Text.decimal ((place + 1 : Nat) : Int) ++ ": " ++ defect.message) ∧
    ∀ (front : List UInt8) (last : UInt8), total (front ++ [last]) % 256 = 0 ↔
      checksum (front.map fun b => (b.toNat : Int)) = last.toNat := by
  intro part
  refine ⟨?_, fun chunks success => readLines_eq_ok_iff.mp success, ?_, total_eq_zero_iff_checksum⟩
  · rw [← exists_meanings_iff]
    constructor
    · rintro ⟨chunks, success⟩
      obtain ⟨meanings, all, _⟩ := readLines_eq_ok_iff.mp success
      exact ⟨meanings, all⟩
    · rintro ⟨meanings, all⟩
      exact ⟨_, readLines_eq_ok_iff.mpr ⟨meanings, all, rfl⟩⟩
  · intro place line here improper before
    obtain ⟨defect, refused⟩ := readLines_of_improper 1 here improper before
    rw [Nat.add_comm] at refused
    exact ⟨defect, refused, rfl⟩

/-- A file with blanks in many places and more behind its end, and a file with a wrong checksum. -/
theorem read_exact_spaced :
    let spaced := " \n:01 1000 00\taB 44\r\n:00000001ff\nbehind".toList
    let wrong := "\n:00000001FE\n:00000001FF".toList
    (∃ chunks, read spaced = .ok chunks) ∧
      (∃ meanings, List.Forall₂ Means (readPart (Text.splitLines spaced)) meanings ∧
        meanings.filterMap Line.chunk? = [⟨0x1000, [0xAB]⟩]) ∧
      ∃ defect, read wrong = .error ⟨2, defect⟩ := by
  intro spaced wrong
  have proper : ∀ line ∈ readPart (Text.splitLines spaced), Proper line := by decide +kernel
  have success : read spaced = .ok [⟨0x1000, [0xAB]⟩] := by decide +kernel
  obtain ⟨defect, refused, _⟩ := (read_exact wrong).2.2.1 1 ":00000001FE".toList (by decide +kernel)
    (by decide +kernel) (by decide +kernel)
  exact ⟨(read_exact spaced).1.mpr proper, (read_exact spaced).2.1 _ success, defect, refused⟩

end StepSequencer.IntelHex
