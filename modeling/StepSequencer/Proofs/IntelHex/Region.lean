import StepSequencer.Proofs.IntelHex.RoundTrip

/-!
# The file of the audio region

The image that stores leave in the audio region is written as a file whose blocks are sixteen
addresses in a row. A block that some store has touched, so that a byte other than zero is left in
it, is written whole; the others are left out.
-/
namespace StepSequencer.IntelHex

/-- The file of the image of stores. -/
def regionFile (stores : List Store) : String :=
  file (Image.ofStores stores).toList regionStart

/-- The chunks of the image of stores. -/
def regionChunks (stores : List Store) : List Chunk :=
  occupied (Image.ofStores stores).toList regionStart.toNat

/-- Whether stores leave a byte other than zero in the block of sixteen around an address. -/
def Touched (stores : List Store) (address : Int) : Prop :=
  ∃ other, other / 16 = address / 16 ∧ Store.byteAt stores other ≠ 0

/-- The bytes of the image in a list. -/
theorem getD_region (stores : List Store) (place : Nat) :
    (Image.ofStores stores).toList.getD place 0 =
      if place < regionSize then Store.byteAt stores (regionStart + place) else 0 := by
  have length : (Image.ofStores stores).toList.length = regionSize := by simp
  split
  · next inside =>
    rw [← Image.getD_ofStores stores inside, Array.getD_eq_getD_getElem?,
      List.getD_eq_getElem?_getD, Array.getElem?_toList]
  · next outside =>
    rw [List.getD_eq_getElem?_getD, List.getElem?_eq_none (by omega)]
    rfl

/-- The chunks of the region lie inside it. -/
theorem regionChunks_bounds {stores : List Store} {chunk : Chunk}
    (member : chunk ∈ regionChunks stores) :
    0x1000 ≤ chunk.address ∧ chunk.address < 0x1600 ∧
      chunk.address + chunk.data.length ≤ 0x1600 := by
  have origin : regionStart.toNat = 0x1000 := rfl
  have size : regionSize = 0x600 := rfl
  have length : (Image.ofStores stores).toList.length = regionSize := by simp
  have bounds := occupied_bounds member
  omega

/-- The file of the region is read as its chunks. -/
theorem read_regionFile (stores : List Store) :
    read (regionFile stores).toList = .ok (regionChunks stores) := by
  have fits : regionStart.toNat + (Image.ofStores stores).toList.length ≤ 65536 := by
    rw [Array.length_toList, Image.size_ofStores]
    decide
  exact read_file_chunks _ _ fits

/-- The block around an address of the region is occupied when it is touched. -/
theorem any_blockAt_region {stores : List Store} {place : Nat} (inside : place < regionSize) :
    (blockAt (Image.ofStores stores).toList (place / blockSize)).any (fun b => b != 0) = true ↔
      Touched stores (regionStart + place) := by
  have origin : regionStart = 0x1000 := rfl
  have size : regionSize = 0x600 := rfl
  have block : blockSize = 16 := rfl
  rw [any_blockAt_iff]
  constructor
  · rintro ⟨i, near, byte⟩
    rw [getD_region] at byte
    split at byte
    · exact ⟨regionStart + i, by rw [block] at near; omega, byte⟩
    · contradiction
  · rintro ⟨other, near, byte⟩
    obtain ⟨i, split⟩ := Int.eq_ofNat_of_zero_le (show 0 ≤ other - regionStart by omega)
    have whole : other = regionStart + i := by omega
    refine ⟨i, by rw [block]; omega, ?_⟩
    rw [getD_region, if_pos (by omega), ← whole]
    exact byte

/-- The stores of the region's file at an address: the byte that is left there, if its block is
touched. -/
theorem last?_regionChunks (stores : List Store) {address : Int}
    (inside : inRegion address = true) :
    (Touched stores address →
      Store.last? ((regionChunks stores).flatMap Chunk.stores) address =
        some ((Store.byteAt stores address).toNat : Int)) ∧
      (¬Touched stores address →
        Store.last? ((regionChunks stores).flatMap Chunk.stores) address = none) := by
  have origin : regionStart = 0x1000 := rfl
  have size : regionSize = 0x600 := rfl
  have range := inRegion_iff.mp inside
  obtain ⟨place, split⟩ := Int.eq_ofNat_of_zero_le (show 0 ≤ address - regionStart by omega)
  obtain rfl : address = regionStart + place := by omega
  have within : place < regionSize := by omega
  have length : place < (Image.ofStores stores).toList.length := by
    rw [Array.length_toList, Image.size_ofStores]
    exact within
  have found := last?_occupied _ regionStart.toNat place length
  have byte := getD_region stores place
  rw [if_pos within, List.getD_eq_getElem?_getD, List.getElem?_eq_getElem length,
    Option.getD_some] at byte
  rw [List.getElem?_eq_getElem length, Option.map_some, byte] at found
  constructor
  · intro touched
    rw [if_pos ((any_blockAt_region within).mpr touched)] at found
    exact found
  · intro free
    rw [if_neg fun occupied => free ((any_blockAt_region within).mp occupied)] at found
    exact found

/-- An address in a block that is not touched is left with a zero. -/
theorem byteAt_of_not_touched {stores : List Store} {address : Int}
    (free : ¬Touched stores address) : Store.byteAt stores address = 0 := by
  by_cases byte : Store.byteAt stores address = 0
  · exact byte
  · exact absurd ⟨address, rfl, byte⟩ free

/-- The data of the region's file leave the bytes that the stores leave. -/
theorem byteAt_regionChunks (stores : List Store) {address : Int}
    (inside : inRegion address = true) :
    Store.byteAt ((regionChunks stores).flatMap Chunk.stores) address =
      Store.byteAt stores address := by
  have data := last?_regionChunks stores inside
  by_cases touched : Touched stores address
  · rw [Store.byteAt, data.1 touched]
    simp
  · rw [Store.byteAt, data.2 touched, byteAt_of_not_touched touched]
    rfl

/-- Two lists of stores are written as one file exactly when they leave the same byte at every
address of the region. -/
theorem regionFile_eq_iff (first second : List Store) :
    regionFile first = regionFile second ↔
      ∀ address, inRegion address = true →
        Store.byteAt first address = Store.byteAt second address := by
  constructor
  · intro same address inside
    have chunks : regionChunks first = regionChunks second := by
      have read := read_regionFile first
      rw [same, read_regionFile second] at read
      exact (Except.ok.inj read).symm
    rw [← byteAt_regionChunks first inside, chunks, byteAt_regionChunks second inside]
  · intro bytes
    rw [regionFile, (Image.ofStores_eq_iff first second).mpr bytes]
    rfl

end StepSequencer.IntelHex
