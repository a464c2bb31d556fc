import StepSequencer.Proofs.IntelHex.Record
import StepSequencer.Proofs.Memory.Stores

/-!
# Files that are read back

The file of an image holds a record for every block of sixteen bytes that is not all zero, and
reading it gives the chunks of these blocks. Laid over zeros the chunks are the image again, so the
blocks that are left out lose nothing: `read_file` states the round trip of a whole file. The chunks
are compared with images and memories through the stores that they stand for.
-/
namespace StepSequencer.IntelHex

/-- The block at a place: sixteen bytes, or fewer at the end of the image. -/
def blockAt (image : List UInt8) (place : Nat) : List UInt8 :=
  (image.drop (blockSize * place)).take blockSize

/-- The number of blocks of an image. -/
def blockCount (image : List UInt8) : Nat := (image.length + (blockSize - 1)) / blockSize

/-- The chunk of the block at a place, if the block holds a byte other than zero. -/
def occupiedAt? (image : List UInt8) (base place : Nat) : Option Chunk :=
  if (blockAt image place).any fun b => b != 0 then
    some ⟨base + blockSize * place, blockAt image place⟩
  else none

/-- The chunks of the blocks that hold a byte other than zero, by ascending address. -/
def occupied (image : List UInt8) (base : Nat) : List Chunk :=
  (List.range (blockCount image)).filterMap (occupiedAt? image base)

/-- Put the data of a chunk over an image whose first byte is at the address `base`. -/
def Chunk.over (base : Nat) (image : List UInt8) (chunk : Chunk) : List UInt8 :=
  let offset := chunk.address - base
  image.take offset ++ chunk.data ++ image.drop (offset + chunk.data.length)

/-- Put the data of chunks over an image, one after the other. -/
def overlay (base : Nat) (image : List UInt8) (chunks : List Chunk) : List UInt8 :=
  chunks.foldl (Chunk.over base) image

/-- The stores of the data of a chunk. -/
def Chunk.stores (chunk : Chunk) : List Store :=
  Store.row chunk.address (chunk.data.map fun b => (b.toNat : Int))

/-- Cutting an image block by block gives the blocks at all places. -/
theorem blocks_eq_map (image : List UInt8) :
    blocks image = (List.range (blockCount image)).map (blockAt image) := by
  fun_induction blocks image with
  | case1 => rfl
  | case2 image more ih =>
    have positive := List.length_pos_iff.mpr more
    have size : blockSize = 16 := rfl
    have count : blockCount image = blockCount (image.drop blockSize) + 1 := by
      simp only [blockCount, List.length_drop, size]
      omega
    have later : blockAt (image.drop blockSize) = blockAt image ∘ Nat.succ := by
      funext place
      rw [Function.comp_apply, blockAt, blockAt, List.drop_drop, Nat.mul_succ, Nat.add_comm]
    rw [ih, count, List.range_succ_eq_map, List.map_cons, List.map_map, later]
    rfl

/-- The blocks with their places. -/
theorem zipIdx_blocks (image : List UInt8) :
    (blocks image).zipIdx =
      (List.range (blockCount image)).map fun place => (blockAt image place, place) := by
  rw [blocks_eq_map]
  apply List.ext_getElem?
  intro place
  rw [List.getElem?_zipIdx, List.getElem?_map, List.getElem?_map, Option.map_map]
  by_cases inside : place < blockCount image
  · rw [List.getElem?_range inside]
    simp
  · rw [List.getElem?_eq_none (by simpa using inside)]
    rfl

/-- The records of an image are those of its occupied blocks and the end record. -/
theorem imageRecords_eq (image : List UInt8) (base : Nat) :
    imageRecords image base =
      (occupied image base).map (fun chunk => dataRecord chunk.address chunk.data) ++
        [endRecord] := by
  rw [imageRecords, zipIdx_blocks, List.filterMap_map, occupied, List.map_filterMap]
  congr 2
  funext place
  simp only [Function.comp_apply, occupiedAt?]
  split
  · have address : (base : Int) + (blockSize : Int) * (place : Int) =
        ((base + blockSize * place : Nat) : Int) := by omega
    rw [address]
    rfl
  · rfl

/-- A block has at most sixteen bytes. -/
theorem length_blockAt (image : List UInt8) (place : Nat) :
    (blockAt image place).length = min blockSize (image.length - blockSize * place) := by
  rw [blockAt, List.length_take, List.length_drop]

/-- An occupied chunk is the block at one of the places. -/
theorem mem_occupied {image : List UInt8} {base : Nat} {chunk : Chunk}
    (member : chunk ∈ occupied image base) :
    ∃ place, place < blockCount image ∧
      chunk = ⟨base + blockSize * place, blockAt image place⟩ := by
  obtain ⟨place, inside, found⟩ := List.mem_filterMap.mp member
  rw [occupiedAt?] at found
  split at found
  · exact ⟨place, List.mem_range.mp inside, (Option.some.inj found).symm⟩
  · contradiction

/-- An occupied chunk lies inside its image and is no longer than a block. -/
theorem occupied_bounds {image : List UInt8} {base : Nat} {chunk : Chunk}
    (member : chunk ∈ occupied image base) :
    base ≤ chunk.address ∧ chunk.address + chunk.data.length ≤ base + image.length ∧
      chunk.address < base + image.length ∧ chunk.data.length ≤ blockSize := by
  obtain ⟨place, inside, rfl⟩ := mem_occupied member
  have size : blockSize = 16 := rfl
  have length := length_blockAt image place
  simp only [blockCount, size] at inside
  rw [size] at length ⊢
  dsimp only
  omega

/-- Records of chunks and an end record are read as the chunks. -/
theorem readLines_records (number : Nat) {chunks : List Chunk}
    (small : ∀ chunk ∈ chunks, chunk.address < 65536 ∧ chunk.data.length < 256) :
    readLines number
      (chunks.map (fun chunk => dataRecord chunk.address chunk.data) ++ [endRecord]) =
        .ok chunks := by
  induction chunks generalizing number with
  | nil => rw [List.map_nil, List.nil_append, readLines, readLine_endRecord]
  | cons chunk chunks ih =>
    have first := small chunk List.mem_cons_self
    have rest := ih (number + 1) fun other member => small other (List.mem_cons_of_mem chunk member)
    have address : ((chunk.address : Int) % 65536).toNat = chunk.address := by omega
    rw [List.map_cons, List.cons_append, readLines, readLine_dataRecord _ first.2, address]
    dsimp only
    rw [rest]
    rfl

/-- The file of an image is read as its occupied chunks, if no address needs more than 16 bits. -/
theorem read_file_chunks (image : List UInt8) (base : Nat) (fits : base + image.length ≤ 65536) :
    read (file image base).toList = .ok (occupied image base) := by
  have size : blockSize = 16 := rfl
  have small : ∀ chunk ∈ occupied image base,
      chunk.address < 65536 ∧ chunk.data.length < 256 := by
    intro chunk member
    have bounds := occupied_bounds member
    omega
  have unbroken : ∀ record ∈ imageRecords image base, ∀ c ∈ record, Text.isLineBreak c = false := by
    intro record member
    rw [imageRecords_eq, List.mem_append, List.mem_map, List.mem_singleton] at member
    rcases member with ⟨chunk, known, rfl⟩ | rfl
    · exact dataRecord_unbroken _ (small chunk known).2
    · intro c member
      exact Bool.eq_false_iff.mpr (List.any_eq_false.mp (by decide) c member)
  rw [read, file, String.toList_ofList, Text.splitLines_lines unbroken, imageRecords_eq,
    readLines_records 1 small]

/-- The occupied chunks stand in ascending order. -/
theorem occupied_ascending (image : List UInt8) (base : Nat) :
    (occupied image base).Pairwise fun first second => first.address < second.address := by
  have size : blockSize = 16 := rfl
  rw [occupied, List.pairwise_filterMap]
  refine List.Pairwise.imp ?_ (List.pairwise_lt_range (n := blockCount image))
  intro first second before left leftFound right rightFound
  rw [occupiedAt?] at leftFound rightFound
  split at leftFound <;> split at rightFound <;> try contradiction
  obtain rfl := Option.some.inj leftFound
  obtain rfl := Option.some.inj rightFound
  dsimp only
  rw [size]
  omega

/-- Putting a chunk over an image that it fits into keeps the image's length. -/
theorem length_over {base : Nat} {image : List UInt8} {chunk : Chunk} (after : base ≤ chunk.address)
    (fits : chunk.address + chunk.data.length ≤ base + image.length) :
    (chunk.over base image).length = image.length := by
  simp only [Chunk.over, List.length_append, List.length_take, List.length_drop]
  omega

/-- A chunk over an image shows its own bytes, and the image elsewhere. -/
theorem getD_over {base : Nat} {image : List UInt8} {chunk : Chunk} (after : base ≤ chunk.address)
    (fits : chunk.address + chunk.data.length ≤ base + image.length) (place : Nat) :
    (chunk.over base image).getD place 0 =
      ((Store.last? chunk.stores (base + place)).map byteOf).getD (image.getD place 0) := by
  obtain ⟨offset, split⟩ := Nat.exists_eq_add_of_le after
  have shift : chunk.address - base = offset := by omega
  have front : (image.take offset).length = offset := by
    rw [List.length_take]
    omega
  simp only [List.getD_eq_getElem?_getD, Chunk.over, shift, Chunk.stores]
  by_cases before : place < offset
  · rw [List.append_assoc, List.getElem?_append_left (by omega), List.getElem?_take_of_lt before,
      Store.last?_row_before _ _ (by omega)]
    rfl
  · obtain ⟨step, rfl⟩ := Nat.exists_eq_add_of_le (Nat.le_of_not_lt before)
    have here : (base : Int) + ((offset + step : Nat) : Int) = (chunk.address : Int) + step := by
      omega
    rw [here, Store.last?_row, List.getElem?_map, List.append_assoc,
      List.getElem?_append_right (by omega), front, Nat.add_sub_cancel_left]
    by_cases inside : step < chunk.data.length
    · rw [List.getElem?_append_left inside, List.getElem?_eq_getElem inside]
      simp
    · rw [List.getElem?_append_right (by omega), List.getElem?_drop,
        List.getElem?_eq_none (l := chunk.data) (by omega)]
      have rest : offset + chunk.data.length + (step - chunk.data.length) = offset + step := by
        omega
      rw [rest]
      rfl

/-- Chunks over an image show the last byte that one of them has at a place. -/
theorem getD_overlay {base : Nat} {chunks : List Chunk} {image : List UInt8}
    (fits : ∀ chunk ∈ chunks, base ≤ chunk.address ∧
      chunk.address + chunk.data.length ≤ base + image.length) (place : Nat) :
    (overlay base image chunks).getD place 0 =
      ((Store.last? (chunks.flatMap Chunk.stores) (base + place)).map byteOf).getD
        (image.getD place 0) := by
  induction chunks generalizing image with
  | nil => rfl
  | cons chunk chunks ih =>
    have first := fits chunk List.mem_cons_self
    have length := length_over first.1 first.2
    have rest : ∀ other ∈ chunks, base ≤ other.address ∧
        other.address + other.data.length ≤ base + (chunk.over base image).length := by
      intro other member
      rw [length]
      exact fits other (List.mem_cons_of_mem chunk member)
    have step : overlay base image (chunk :: chunks) =
        overlay base (chunk.over base image) chunks := rfl
    rw [step, ih rest, getD_over first.1 first.2, List.flatMap_cons, Store.last?_append]
    cases Store.last? (chunks.flatMap Chunk.stores) (base + place) <;> rfl

/-- Chunks that fit keep the length of what they are put over. -/
theorem length_overlay {base : Nat} {chunks : List Chunk} {image : List UInt8}
    (fits : ∀ chunk ∈ chunks, base ≤ chunk.address ∧
      chunk.address + chunk.data.length ≤ base + image.length) :
    (overlay base image chunks).length = image.length := by
  induction chunks generalizing image with
  | nil => rfl
  | cons chunk chunks ih =>
    have first := fits chunk List.mem_cons_self
    have length := length_over first.1 first.2
    have step : overlay base image (chunk :: chunks) =
        overlay base (chunk.over base image) chunks := rfl
    rw [step, ih, length]
    intro other member
    rw [length]
    exact fits other (List.mem_cons_of_mem chunk member)

/-- The block at a place has stores at its own sixteen addresses. -/
theorem last?_blockAt (image : List UInt8) (base place i : Nat) :
    Store.last? (Chunk.stores ⟨base + blockSize * place, blockAt image place⟩) (base + i) =
      if i / blockSize = place then image[i]?.map fun b => (b.toNat : Int) else none := by
  have size : blockSize = 16 := rfl
  rw [Chunk.stores]
  dsimp only
  by_cases before : i < blockSize * place
  · rw [Store.last?_row_before _ _ (by omega), if_neg (by rw [size] at before ⊢; omega)]
  · obtain ⟨step, rfl⟩ := Nat.exists_eq_add_of_le (Nat.le_of_not_lt before)
    have here : (base : Int) + ((blockSize * place + step : Nat) : Int) =
        ((base + blockSize * place : Nat) : Int) + step := by omega
    rw [here, Store.last?_row, List.getElem?_map, blockAt, List.getElem?_take, List.getElem?_drop]
    by_cases inside : step < blockSize
    · rw [if_pos inside, if_pos (by rw [size] at inside ⊢; omega)]
    · rw [if_neg inside, if_neg (by rw [size] at inside ⊢; omega)]
      rfl

/-- Of the blocks at a list of places, the stores at an address are those of the occupied block
around it. -/
theorem last?_occupiedAt (image : List UInt8) (base i : Nat) (places : List Nat) :
    Store.last? ((places.filterMap (occupiedAt? image base)).flatMap Chunk.stores) (base + i) =
      if i / blockSize ∈ places ∧ (blockAt image (i / blockSize)).any (fun b => b != 0) = true then
        image[i]?.map fun b => (b.toNat : Int)
      else none := by
  induction places with
  | nil => simp [Store.last?]
  | cons place places ih =>
    rw [List.filterMap_cons, occupiedAt?]
    split
    · next empty =>
      split at empty
      · contradiction
      · next zero =>
        rw [ih]
        by_cases here : i / blockSize = place
        · rw [here, if_neg (fun both => zero both.2), if_neg (fun both => zero both.2)]
        · simp [here]
    · next chunk found =>
      split at found
      · next some =>
        obtain rfl := Option.some.inj found
        rw [List.flatMap_cons, Store.last?_append, ih, last?_blockAt]
        by_cases here : i / blockSize = place
        · by_cases again : place ∈ places <;> simp [here, some, again]
        · simp [here]
      · contradiction

/-- The stores of a file's data at an address: the byte of the image, if the block around it is
occupied. -/
theorem last?_occupied (image : List UInt8) (base i : Nat) (inside : i < image.length) :
    Store.last? ((occupied image base).flatMap Chunk.stores) (base + i) =
      if (blockAt image (i / blockSize)).any (fun b => b != 0) = true then
        image[i]?.map fun b => (b.toNat : Int)
      else none := by
  have size : blockSize = 16 := rfl
  have within : i / blockSize ∈ List.range (blockCount image) := by
    rw [List.mem_range, blockCount, size]
    omega
  rw [occupied, last?_occupiedAt]
  simp [within]

/-- A block is occupied exactly when the image has a byte other than zero around there. -/
theorem any_blockAt_iff {image : List UInt8} {place : Nat} :
    (blockAt image place).any (fun b => b != 0) = true ↔
      ∃ i, i / blockSize = place ∧ image.getD i 0 ≠ 0 := by
  have size : blockSize = 16 := rfl
  rw [List.any_eq_true]
  constructor
  · rintro ⟨b, member, other⟩
    obtain ⟨step, found⟩ := List.mem_iff_getElem?.mp member
    have bound : step < blockSize := by
      have inside := (List.getElem?_eq_some_iff.mp found).1
      rw [length_blockAt] at inside
      omega
    rw [blockAt, List.getElem?_take_of_lt bound, List.getElem?_drop] at found
    refine ⟨blockSize * place + step, by rw [size] at bound ⊢; omega, ?_⟩
    rw [List.getD_eq_getElem?_getD, found]
    simpa using other
  · rintro ⟨i, rfl, other⟩
    have position : blockSize * (i / blockSize) + i % blockSize = i := Nat.div_add_mod i blockSize
    have low : i % blockSize < blockSize := Nat.mod_lt i (by decide)
    have same : (blockAt image (i / blockSize))[i % blockSize]? = image[i]? := by
      rw [blockAt, List.getElem?_take_of_lt low, List.getElem?_drop, position]
    cases found : image[i]? with
    | none =>
      rw [List.getD_eq_getElem?_getD, found] at other
      exact absurd rfl other
    | some b =>
      rw [List.getD_eq_getElem?_getD, found] at other
      exact ⟨b, List.mem_of_getElem? (same.trans found), by simpa using other⟩

/-- A byte of a block that is all zero is zero. -/
theorem getD_of_unoccupied {image : List UInt8} {i : Nat}
    (zero : ¬(blockAt image (i / blockSize)).any (fun b => b != 0) = true) :
    image.getD i 0 = 0 := by
  by_cases byte : image.getD i 0 = 0
  · exact byte
  · exact absurd (any_blockAt_iff.mpr ⟨i, rfl, byte⟩) zero

/-- The chunks of an image over zeros are the image. -/
theorem overlay_occupied (image : List UInt8) (base : Nat) :
    overlay base (List.replicate image.length 0) (occupied image base) = image := by
  have fits : ∀ chunk ∈ occupied image base, base ≤ chunk.address ∧
      chunk.address + chunk.data.length ≤
        base + (List.replicate image.length 0 : List UInt8).length := by
    intro chunk member
    have bounds := occupied_bounds member
    rw [List.length_replicate]
    exact ⟨bounds.1, bounds.2.1⟩
  have length := length_overlay fits
  rw [List.length_replicate] at length
  apply List.ext_getElem length
  intro i left right
  have byte : (overlay base (List.replicate image.length 0) (occupied image base)).getD i 0 =
      image.getD i 0 := by
    rw [getD_overlay fits i, last?_occupied image base i right]
    split
    · rw [List.getElem?_eq_getElem right]
      simp [right]
    · next free =>
      have zero : image.getD i 0 = 0 := getD_of_unoccupied free
      rw [zero]
      simp [right]
  simpa [left, right] using byte

/-- The file of an image that fits below 65536 is read without a fault, as the blocks that hold a
byte other than zero, each at its address and in ascending order. Over zeros they are the image. -/
theorem read_file (image : List UInt8) (base : Nat) (fits : base + image.length ≤ 65536) :
    read (file image base).toList = .ok (occupied image base) ∧
      (occupied image base).Pairwise (fun first second => first.address < second.address) ∧
      overlay base (List.replicate image.length 0) (occupied image base) = image :=
  ⟨read_file_chunks image base fits, occupied_ascending image base, overlay_occupied image base⟩

/-- An image up to the last address, with a block of zeros, a full block and a short one. -/
theorem read_file_last_address :
    read (file (List.replicate 16 0 ++ List.replicate 16 7 ++ [0, 9]) 65502).toList =
      .ok [⟨65518, List.replicate 16 7⟩, ⟨65534, [0, 9]⟩] :=
  (read_file _ 65502 (by decide)).1

end StepSequencer.IntelHex
